import Climb.Proofs.Grammar.Requests

/-! What a grammar holds after a whole history of requests. -/

namespace Climb

variable {N : Type}

namespace Registration

/-- The entries that some requests write, in order; those that are refused write none. -/
def granted (requests : List (Registration N)) : List (TableEntry N) :=
  requests.filterMap fun request => request.entry.toOption

/-- The entry of the last request that was granted for a place. -/
def lastGranted (requests : List (Registration N)) (place : Place) : Option (TableEntry N) :=
  (granted requests).reverse.find? fun entry => entry.place = place

/-- What was granted last for a place is at that place, and some request wrote it. -/
theorem grants_of_lastGranted {requests : List (Registration N)} {place : Place}
    {entry : TableEntry N} (last : lastGranted requests place = some entry) :
    entry.place = place ∧ ∃ request ∈ requests, request.Grants entry := by
  have here := List.find?_some last
  have member := List.mem_of_find?_eq_some last
  simp only [granted, List.mem_reverse, List.mem_filterMap] at member
  obtain ⟨request, asked, wrote⟩ := member
  refine ⟨by simpa using here, request, asked, grants_of_entry ?_⟩
  -- An outcome that counts as an entry is one.
  cases outcome : request.entry with
  | error failure => simp [outcome, Except.toOption] at wrote
  | ok found =>
    simp only [outcome, Except.toOption, Option.some.injEq] at wrote
    rw [wrote]

end Registration

namespace Grammar

/-- A grammar as requests can make it. -/
structure Regular (grammar : Grammar N) : Prop where
  /-- No type has two rules in the first table. -/
  heads : (grammar.heads.map (·.1)).Nodup
  /-- No type has two rules in the second table. -/
  tails : (grammar.tails.map (·.1)).Nodup
  /-- Every rule that continues an expression has a positive strength. -/
  positive : ∀ entry ∈ grammar.tails, 1 ≤ entry.2.2
  /-- Tokens bind as strongly as the tables say. -/
  faithful : grammar.uniform = none

/-- A grammar without rules is regular. -/
theorem regular_empty : ({} : Grammar N).Regular :=
  ⟨List.nodup_nil, List.nodup_nil, by simp, rfl⟩

/-- A grammar stays regular when an entry with a positive strength is written. -/
theorem Regular.write {grammar : Grammar N} (regular : grammar.Regular) {entry : TableEntry N}
    (positive : ∀ strength ∈ entry.strength?, 1 ≤ strength) : (grammar.write entry).Regular := by
  cases entry with
  | head type rule =>
    exact ⟨Table.nodup_insert type rule regular.heads, regular.tails, regular.positive,
      regular.faithful⟩
  | tail type rule strength =>
    refine ⟨regular.heads, Table.nodup_insert type (rule, strength) regular.tails, ?_,
      regular.faithful⟩
    intro other member
    -- The entry is the new one, or it was there before.
    rcases Table.mem_insert member with rfl | old
    · exact positive strength rfl
    · exact regular.positive other old

section

variable (grammar : Grammar N)

/-- One request more is one entry more, if it is granted. -/
theorem extend_cons (request : Registration N) (rest : List (Registration N)) :
    grammar.extend (request :: rest) =
      (match request.entry with
        | .ok entry => grammar.write entry
        | .error _ => grammar).extend rest := by
  simp only [extend, List.foldl_cons, apply_eq]
  cases request.entry with
  | error failure => rfl
  | ok entry => rfl

/-- A request that is granted has written its entry. -/
theorem extend_granted {request : Registration N} {entry : TableEntry N}
    (granted : request.entry = .ok entry) (rest : List (Registration N)) :
    grammar.extend (request :: rest) = (grammar.write entry).extend rest := by
  rw [extend_cons, granted]

/-- A request that is refused has changed nothing. -/
theorem extend_refused {request : Registration N} {failure : Error}
    (refused : request.entry = .error failure) (rest : List (Registration N)) :
    grammar.extend (request :: rest) = grammar.extend rest := by
  rw [extend_cons, refused]

/-- Requests write their entries one after another. -/
theorem extend_eq_foldl (requests : List (Registration N)) :
    grammar.extend requests = (Registration.granted requests).foldl write grammar := by
  -- What is refused drops out, and what is granted is written in turn.
  induction requests generalizing grammar with
  | nil => rfl
  | cons request rest ih =>
    cases outcome : request.entry with
    | error failure =>
      rw [grammar.extend_refused outcome, ih]
      simp [Registration.granted, outcome, Except.toOption]
    | ok entry =>
      rw [grammar.extend_granted outcome, ih]
      simp [Registration.granted, outcome, Except.toOption]

/-- A grammar stays regular over a whole history of requests. -/
theorem Regular.extend {grammar : Grammar N} (regular : grammar.Regular)
    (requests : List (Registration N)) : (grammar.extend requests).Regular := by
  induction requests generalizing grammar with
  | nil => exact regular
  | cons request rest ih =>
    cases outcome : request.entry with
    | error failure =>
      rw [grammar.extend_refused outcome]
      exact ih regular
    | ok entry =>
      rw [grammar.extend_granted outcome]
      -- What is written has a positive strength, if it has one at all.
      have grants := Registration.grants_of_entry outcome
      exact ih (regular.write fun strength known => (grants.strength strength known).2)

/-- A grammar that began without rules holds what was granted last for each place. -/
theorem held?_extend_empty (requests : List (Registration N)) (place : Place) :
    (({} : Grammar N).extend requests).held? place =
      Registration.lastGranted requests place := by
  have nothing : ({} : Grammar N).held? place = none := by
    obtain ⟨position, type⟩ := place
    cases position <;> rfl
  rw [extend_eq_foldl, held?_foldl_write, nothing, Option.or_none]
  rfl

/-- A refused request is a refusal of its rule, and the grammar is the one from before. -/
theorem apply_error {request : Registration N} {failure : Error}
    (refused : grammar.apply request = .error failure) :
    request.entry = .error failure ∧ (∃ fault, failure = .grammar fault) ∧
      grammar.extend [request] = grammar := by
  have outcome : request.entry = .error failure := by
    rw [apply_eq] at refused
    cases known : request.entry with
    | ok entry => simp [known, Except.map] at refused
    | error other => simpa [known, Except.map] using refused
  exact ⟨outcome, request.entry_refuses failure outcome, grammar.extend_refused outcome []⟩

/-- A granted request has written one entry, and every other place is as it was. -/
theorem apply_ok {request : Registration N} {changed : Grammar N} {notices : List Notice}
    (accepted : grammar.apply request = .ok (changed, notices)) :
    ∃ entry, request.entry = .ok entry ∧ request.Grants entry ∧
      grammar.extend [request] = changed ∧ changed.held? entry.place = some entry ∧
      ∀ place, place ≠ entry.place → changed.held? place = grammar.held? place := by
  -- A request is decided by its entry alone, so the grammar it meets plays no part.
  rw [apply_eq] at accepted
  cases outcome : request.entry with
  | error failure => simp [outcome, Except.map] at accepted
  | ok entry =>
    simp only [outcome, Except.map, granting, Except.ok.injEq, Prod.mk.injEq] at accepted
    obtain ⟨rfl, -⟩ := accepted
    exact ⟨entry, rfl, Registration.grants_of_entry outcome, grammar.extend_granted outcome [],
      grammar.held?_write_self entry, fun place apart => grammar.held?_write_of_ne entry apart⟩

/-- Requests that are granted for different places can be made in either order. -/
theorem extend_comm {one other : Registration N} {first second : TableEntry N}
    (oneGranted : one.entry = .ok first) (otherGranted : other.entry = .ok second)
    (apart : first.place ≠ second.place) (place : Place) :
    (grammar.extend [one, other]).held? place = (grammar.extend [other, one]).held? place := by
  rw [grammar.extend_granted oneGranted, extend_granted _ otherGranted,
    grammar.extend_granted otherGranted, extend_granted _ oneGranted]
  exact grammar.held?_write_comm apart place

end

/-- A truth value is no strength, not even where a rule has one of its own. -/
example : (Registration.tail (.text "!")
    (.tail (.operator "!" (fun _ operand => .ok operand) 3)) (.bool true) :
      Registration Nat).entry =
    .error (.grammar (.strengthNotWhole (.bool true))) := rfl

end Grammar

end Climb
