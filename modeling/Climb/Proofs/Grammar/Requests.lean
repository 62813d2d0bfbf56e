import Climb.Grammar.Registration
import Climb.Proofs.Grammar.Entries

/-! A request writes one entry or is refused, and that depends on the request alone. -/

namespace Climb

variable {N : Type}

/-- The entry that a candidate has in a table, or why it has none there. -/
def Candidate.entryAt (candidate : Candidate N) (position? : Option Position) (type : TokenType)
    (given : Datum) : Except Error (TableEntry N) :=
  match candidate with
  | .other given => .error (.grammar (.positionUnknown given))
  | .head rule =>
    if position? = some .tail then .error (.grammar (.wrongPosition rule.display .tail))
    else .ok (.head type rule)
  | .tail rule =>
    if position? = some .head then .error (.grammar (.wrongPosition rule.display .head))
    else (Grammar.tailStrength rule given).map (.tail type rule)

namespace Registration

/-- The type that a request is for. -/
def type : Registration N → TokenType
  | leaf type _ _ | before type _ _ _ | after type _ _ _ | between type _ _ _ _
  | headForm type _ _ _ | tailForm type _ _ _ _ => type
  | either type _ | head type _ | tail type _ _ => type

/-- The rule that a request brings, or why there is none. -/
def offer : Registration N → Except Error (Candidate N)
  | leaf _ label build => .ok (.head (.leaf label build))
  | before _ label build strength => (HeadRule.operator? label build strength).map .head
  | after _ label build strength => (TailRule.operator? label build strength).map .tail
  | between _ label build strength associativity =>
    (TailRule.binary? label build strength associativity).map .tail
  | headForm _ label steps build => .ok (.head (.form label steps build))
  | tailForm _ label steps build strength => (TailRule.form? label steps build strength).map .tail
  | either _ candidate | head _ candidate | tail _ candidate _ => .ok candidate

/-- The table that a request insists on. -/
def position? : Registration N → Option Position
  | leaf _ _ _ | before _ _ _ _ | headForm _ _ _ _ | head _ _ => some .head
  | after _ _ _ _ | between _ _ _ _ _ | tailForm _ _ _ _ _ | tail _ _ _ => some .tail
  | either _ _ => none

/-- The strength that a request gives besides the one of its rule. -/
def strength : Registration N → Datum
  | tail _ _ strength => strength
  | _ => .null

/-- The entry that a request writes, or why it is refused. -/
def entry (request : Registration N) : Except Error (TableEntry N) := do
  let candidate ← request.offer
  candidate.entryAt request.position? request.type request.strength

end Registration

namespace Grammar

section

variable (grammar : Grammar N)

/-- The grammar with one entry written, and what there is to note about it. -/
def granting (entry : TableEntry N) : Grammar N × List Notice :=
  (grammar.write entry, grammar.noticesOf entry)

/-- Registering in the first table writes the entry that the candidate has there. -/
theorem registerHead_eq (type : TokenType) (candidate : Candidate N) (given : Datum) :
    grammar.registerHead type candidate =
      (candidate.entryAt (some .head) type given).map grammar.granting := by
  cases candidate with
  | head rule => rfl
  | tail rule => rfl
  | other given => rfl

/-- Registering in the second table writes the entry that the candidate has there. -/
theorem registerTail_eq (type : TokenType) (candidate : Candidate N) (given : Datum) :
    grammar.registerTail type candidate given =
      (candidate.entryAt (some .tail) type given).map grammar.granting := by
  cases candidate with
  | head rule => rfl
  | other given => rfl
  | tail rule =>
    -- Only here something is left that can fail: the strength of the rule.
    simp only [registerTail, Candidate.entryAt]
    cases tailStrength rule given with
    | error failure => rfl
    | ok strength => rfl

/-- Registering in either table writes the entry that the candidate has by its own position. -/
theorem register_eq (type : TokenType) (candidate : Candidate N) :
    grammar.register type candidate =
      (candidate.entryAt none type .null).map grammar.granting := by
  cases candidate with
  | head rule => rfl
  | other given => rfl
  | tail rule => exact grammar.registerTail_eq type (.tail rule) .null

/-- A request writes its entry, whatever the grammar holds, or it is refused. -/
theorem apply_eq (request : Registration N) :
    grammar.apply request = request.entry.map grammar.granting := by
  cases request with
  | leaf type label build => exact grammar.registerHead_eq type (.head (.leaf label build)) .null
  | headForm type label steps build =>
    exact grammar.registerHead_eq type (.head (.form label steps build)) .null
  | either type candidate => exact grammar.register_eq type candidate
  | head type candidate => exact grammar.registerHead_eq type candidate .null
  | tail type candidate strength => exact grammar.registerTail_eq type candidate strength
  -- The other requests make their rule first, and are refused if it cannot be made.
  | before type label build strength =>
    simp only [apply, Registration.entry, Registration.offer]
    cases HeadRule.operator? label build strength with
    | error failure => rfl
    | ok rule => exact grammar.registerHead_eq type (.head rule) .null
  | after type label build strength =>
    simp only [apply, Registration.entry, Registration.offer]
    cases TailRule.operator? label build strength with
    | error failure => rfl
    | ok rule => exact grammar.registerTail_eq type (.tail rule) .null
  | between type label build strength associativity =>
    simp only [apply, Registration.entry, Registration.offer]
    cases TailRule.binary? label build strength associativity with
    | error failure => rfl
    | ok rule => exact grammar.registerTail_eq type (.tail rule) .null
  | tailForm type label steps build strength =>
    simp only [apply, Registration.entry, Registration.offer]
    cases TailRule.form? label steps build strength with
    | error failure => rfl
    | ok rule => exact grammar.registerTail_eq type (.tail rule) .null

end

end Grammar

/-- An outcome that, if it fails, is a refusal of a rule. -/
def OnlyRefuses {α : Type} (outcome : Except Error α) : Prop :=
  ∀ failure, outcome = .error failure → ∃ fault, failure = .grammar fault

namespace OnlyRefuses

variable {α β : Type}

/-- What succeeds refuses nothing. -/
theorem ok (value : α) : OnlyRefuses (.ok value : Except Error α) := by
  intro failure failed
  cases failed

/-- A refusal is one. -/
theorem error (fault : GrammarFault) : OnlyRefuses (.error (.grammar fault) : Except Error α) := by
  intro failure failed
  cases failed
  exact ⟨fault, rfl⟩

/-- Steps that only refuse rules do so one after another. -/
theorem bind {first : Except Error α} {next : α → Except Error β} (start : OnlyRefuses first)
    (rest : ∀ value, OnlyRefuses (next value)) : OnlyRefuses (first >>= next) := by
  intro failure failed
  -- A refusal ends the steps, and what comes next refuses nothing else.
  cases first with
  | error other =>
    cases failed
    exact start failure rfl
  | ok value => exact rest value failure failed

/-- What is made of an outcome does not add a failure. -/
theorem map {first : Except Error α} (change : α → β) (start : OnlyRefuses first) :
    OnlyRefuses (first.map change) := by
  intro failure failed
  cases first with
  | error other =>
    cases failed
    exact start failure rfl
  | ok value => cases failed

end OnlyRefuses

/-- A strength is read from a whole number as that number. -/
theorem readStrength_ok_iff {given : Datum} {strength : Int} :
    readStrength given = .ok strength ↔ given = .int strength := by
  cases given <;> simp [readStrength]

/-- A strength that cannot be read is a refusal. -/
theorem readStrength_refuses (given : Datum) : OnlyRefuses (readStrength given) := by
  cases given with
  | int value => exact .ok value
  | null => exact .error _
  | _ => exact .error _

/-- An associativity that is none is a refusal. -/
theorem readAssociativity_refuses (given : Except Datum Associativity) :
    OnlyRefuses (readAssociativity given) := by
  cases given with
  | ok associativity => exact .ok associativity
  | error other => exact .error _

namespace Grammar

/-- The strength that a rule is registered at: a given one, or its own if none is given. -/
def decisiveStrength (rule : TailRule N) (given : Datum) : Datum :=
  match given with
  | .null => rule.ownStrength
  | _ => given

/-- A rule is registered at a strength if that is a positive whole number, and it is decisive. -/
theorem tailStrength_ok_iff {rule : TailRule N} {given : Datum} {strength : Int} :
    tailStrength rule given = .ok strength ↔
      decisiveStrength rule given = .int strength ∧ 1 ≤ strength := by
  have unfolded : tailStrength rule given = (do
      let strength ← readStrength (decisiveStrength rule given)
      if strength ≤ 0 then .error (.grammar (.strengthNotPositive strength))
      else .ok strength) := rfl
  rw [unfolded, ← readStrength_ok_iff]
  cases readStrength (decisiveStrength rule given) with
  | error failure => simp [bind, Except.bind]
  | ok chosen =>
    simp only [bind, Except.bind, Except.ok.injEq]
    -- The only condition left is that the number is positive.
    split
    · rename_i weak
      simp only [reduceCtorEq, false_iff, not_and]
      rintro rfl
      omega
    · rename_i strong
      simp only [Except.ok.injEq, iff_self_and]
      rintro rfl
      omega

/-- A strength that a rule cannot be registered at is a refusal. -/
theorem tailStrength_refuses (rule : TailRule N) (given : Datum) :
    OnlyRefuses (tailStrength rule given) := by
  refine (readStrength_refuses _).bind fun strength => ?_
  split
  · exact .error _
  · exact .ok strength

end Grammar

/-- A candidate that has no entry in a table is refused there. -/
theorem Candidate.entryAt_refuses (candidate : Candidate N) (position? : Option Position)
    (type : TokenType) (given : Datum) : OnlyRefuses (candidate.entryAt position? type given) := by
  cases candidate with
  | other value => exact .error _
  | head rule =>
    simp only [entryAt]
    split
    · exact .error _
    · exact .ok _
  | tail rule =>
    simp only [entryAt]
    split
    · exact .error _
    · exact (Grammar.tailStrength_refuses rule given).map _

namespace Registration

/-- A request whose rule cannot be made is refused. -/
theorem offer_refuses (request : Registration N) : OnlyRefuses request.offer := by
  cases request with
  -- A rule is made of a strength, and one between operands also of an associativity.
  | before type label build strength =>
    exact ((readStrength_refuses strength).bind fun _ => .ok _).map _
  | after type label build strength =>
    exact ((readStrength_refuses strength).bind fun _ => .ok _).map _
  | between type label build strength associativity =>
    exact ((readAssociativity_refuses associativity).bind fun _ =>
      (readStrength_refuses strength).bind fun _ => .ok _).map _
  | tailForm type label steps build strength =>
    exact ((readStrength_refuses strength).bind fun _ => .ok _).map _
  | leaf type label build => exact .ok _
  | headForm type label steps build => exact .ok _
  | either type candidate => exact .ok _
  | head type candidate => exact .ok _
  | tail type candidate strength => exact .ok _

/-- Whatever keeps a request from being granted is a refusal. -/
theorem entry_refuses (request : Registration N) : OnlyRefuses request.entry :=
  request.offer_refuses.bind fun candidate =>
    candidate.entryAt_refuses request.position? request.type request.strength

/-- The strength that decides how tightly the rule of a request is to bind. -/
def decisive : Registration N → Datum
  | before _ _ _ strength | after _ _ _ strength | between _ _ _ strength _
  | tailForm _ _ _ _ strength => strength
  | tail _ (.tail rule) given => Grammar.decisiveStrength rule given
  | either _ (.tail rule) => Grammar.decisiveStrength rule .null
  | _ => .null

/-- A rule that is made of a strength is made of a whole number. -/
theorem strength_of_made {given : Datum} {make : Int → TailRule N} {rule : TailRule N}
    (made : (readStrength given >>= fun own => pure (make own)).map Candidate.tail =
      .ok (.tail rule)) : ∃ own, given = .int own ∧ rule = make own := by
  cases read : readStrength given with
  | error failure => simp [read, bind, Except.bind, Except.map] at made
  | ok own =>
    simp only [read, bind, Except.bind, Except.map, pure, Except.pure] at made
    cases made
    exact ⟨own, readStrength_ok_iff.1 read, rfl⟩

/-- A request offers its rule at the strength that is decisive for it. -/
theorem decisive_of_offer {request : Registration N} {rule : TailRule N}
    (offered : request.offer = .ok (.tail rule)) (placed : request.position? ≠ some .head) :
    Grammar.decisiveStrength rule request.strength = request.decisive := by
  cases request with
  | after type label build strength =>
    obtain ⟨own, rfl, rfl⟩ := strength_of_made offered
    rfl
  | tailForm type label steps build strength =>
    obtain ⟨own, rfl, rfl⟩ := strength_of_made offered
    rfl
  | between type label build strength associativity =>
    -- The associativity is read before the strength.
    cases associativity with
    | error other => cases offered
    | ok associativity =>
      obtain ⟨own, rfl, rfl⟩ := strength_of_made offered
      rfl
  | tail type candidate strength =>
    cases offered
    rfl
  | either type candidate =>
    cases offered
    rfl
  -- The other requests are for the first table.
  | leaf type label build => exact absurd rfl placed
  | before type label build strength => exact absurd rfl placed
  | headForm type label steps build => exact absurd rfl placed
  | head type candidate => exact absurd rfl placed

/-- What is known of an entry that a request writes. -/
structure Grants (request : Registration N) (entry : TableEntry N) : Prop where
  /-- It is for the type that was asked for. -/
  type : entry.place.2 = request.type
  /-- It holds the rule that the request brought. -/
  offered : request.offer = .ok entry.candidate
  /-- It is in the table that the request insisted on, if it did. -/
  position : ∀ position ∈ request.position?, entry.place.1 = position
  /-- Its strength is positive, and was given as a whole number and as nothing else. -/
  strength : ∀ strength ∈ entry.strength?, request.decisive = .int strength ∧ 1 ≤ strength

/-- A request that is granted writes an entry for its own type, rule, table and strength. -/
theorem grants_of_entry {request : Registration N} {entry : TableEntry N}
    (granted : request.entry = .ok entry) : request.Grants entry := by
  simp only [Registration.entry] at granted
  cases offered : request.offer with
  | error failure => simp [offered, bind, Except.bind] at granted
  | ok candidate =>
    simp only [offered, bind, Except.bind] at granted
    cases candidate with
    | other given => cases granted
    | head rule =>
      simp only [Candidate.entryAt] at granted
      split at granted
      · cases granted
      · -- A rule of the first table goes there, since the request does not forbid it.
        rename_i allowed
        cases granted
        refine ⟨rfl, offered, fun position asked => ?_, by simp [TableEntry.strength?]⟩
        cases position with
        | head => rfl
        | tail => exact absurd asked allowed
    | tail rule =>
      simp only [Candidate.entryAt] at granted
      split at granted
      · cases granted
      · rename_i allowed
        cases read : Grammar.tailStrength rule request.strength with
        | error failure => simp [read, Except.map] at granted
        | ok strength =>
          simp only [read, Except.map, Except.ok.injEq] at granted
          subst granted
          refine ⟨rfl, offered, fun position asked => ?_, ?_⟩
          · cases position with
            | tail => rfl
            | head => exact absurd asked allowed
          · -- The strength is the decisive one, which had to be whole and positive.
            have known := Grammar.tailStrength_ok_iff.1 read
            rw [decisive_of_offer offered allowed] at known
            simpa [TableEntry.strength?] using known

end Registration

end Climb
