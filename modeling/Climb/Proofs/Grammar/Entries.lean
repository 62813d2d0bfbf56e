import Climb.Grammar.Table

/-! An entry of a grammar is found at its place until another one is written there. -/

namespace Climb

namespace Table

variable {R : Type}

/-- A rule that has been inserted is found. -/
@[simp] theorem get?_insert_self (table : Table R) (type : TokenType) (rule : R) :
    get? (insert table type rule) type = some rule := by
  induction table with
  | nil => simp [insert, get?]
  | cons entry rest ih =>
    obtain ⟨key, old⟩ := entry
    simp only [insert]
    -- Either the type has a rule here, which is replaced, or its rule goes further down.
    split
    · rename_i same
      simp [get?, same]
    · rename_i other
      simpa [get?, other] using ih

/-- Inserting a rule leaves the rules of all other types alone. -/
theorem get?_insert_of_ne (table : Table R) {type other : TokenType} (rule : R)
    (apart : other ≠ type) : get? (insert table type rule) other = get? table other := by
  induction table with
  | nil => simp [insert, get?, apart.symm]
  | cons entry rest ih =>
    obtain ⟨key, old⟩ := entry
    simp only [insert]
    split
    · -- The entry that is replaced was not the one that is looked for, and still is not.
      rename_i same
      have skipped : key ≠ other := fun equal => apart (equal.symm.trans same)
      simp [get?, skipped]
    · -- Further up nothing has changed, so both searches stop here or both go on.
      simp only [get?, List.find?_cons] at ih ⊢
      split
      · rfl
      · exact ih

/-- The types of a table after an insertion are those from before and the one inserted. -/
theorem mem_keys_insert {table : Table R} {type key : TokenType} {rule : R} :
    key ∈ (insert table type rule).map (·.1) ↔ key ∈ table.map (·.1) ∨ key = type := by
  induction table with
  | nil => simp [insert]
  | cons entry rest ih =>
    obtain ⟨first, old⟩ := entry
    simp only [insert]
    split
    · rename_i same
      -- A replaced rule keeps its place, and its type is the one that was asked for.
      simp only [List.map_cons, List.mem_cons, same]
      grind
    · simp only [List.map_cons, List.mem_cons, ih, or_assoc]

/-- No type gets a second rule by an insertion. -/
theorem nodup_insert {table : Table R} (type : TokenType) (rule : R)
    (single : (table.map (·.1)).Nodup) : ((insert table type rule).map (·.1)).Nodup := by
  induction table with
  | nil => simp [insert]
  | cons entry rest ih =>
    obtain ⟨first, old⟩ := entry
    simp only [List.map_cons, List.nodup_cons] at single
    simp only [insert]
    split
    · -- Only the rule changes, and the types are the same as before.
      simpa using single
    · rename_i other
      -- The type is not this one, so it is new only to what lies further down.
      simp only [List.map_cons, List.nodup_cons, mem_keys_insert, not_or]
      exact ⟨⟨single.1, other⟩, ih single.2⟩

/-- An entry of a table after an insertion is the inserted one or was there before. -/
theorem mem_insert {table : Table R} {type : TokenType} {rule : R} {entry : TokenType × R}
    (member : entry ∈ insert table type rule) : entry = (type, rule) ∨ entry ∈ table := by
  induction table with
  | nil => simpa [insert] using member
  | cons first rest ih =>
    obtain ⟨key, old⟩ := first
    simp only [insert] at member
    split at member
    · rename_i same
      rcases List.mem_cons.1 member with rfl | later
      · exact .inl (by rw [same])
      · exact .inr (List.mem_cons_of_mem _ later)
    · rcases List.mem_cons.1 member with rfl | later
      · exact .inr List.mem_cons_self
      · -- Further down it is the inserted one, or one that was there.
        exact (ih later).imp_right (List.mem_cons_of_mem _)

end Table

variable {N : Type}

/-- What is written into one of the two tables: a rule for a type, in the second with a strength. -/
inductive TableEntry (N : Type) where
  | head (type : TokenType) (rule : HeadRule N)
  | tail (type : TokenType) (rule : TailRule N) (strength : Int)

/-- One of the two tables, and a type in it. -/
abbrev Place := Position × TokenType

namespace TableEntry

/-- Where an entry is written. -/
def place : TableEntry N → Place
  | head type _ => (.head, type)
  | tail type _ _ => (.tail, type)

/-- The rule of an entry. -/
def candidate : TableEntry N → Candidate N
  | head _ rule => .head rule
  | tail _ rule _ => .tail rule

/-- The strength of an entry, which only the second table has. -/
def strength? : TableEntry N → Option Int
  | head _ _ => none
  | tail _ _ strength => some strength

/-- The rule of an entry is one for the table that it is written in. -/
theorem candidate_position (entry : TableEntry N) :
    entry.candidate.position = .ok entry.place.1 := by
  cases entry <;> rfl

end TableEntry

namespace Grammar

/-- What a grammar holds at a place. -/
def held? (grammar : Grammar N) : Place → Option (TableEntry N)
  | (.head, type) => (grammar.heads.get? type).map (.head type)
  | (.tail, type) => (grammar.tails.get? type).map fun pair => .tail type pair.1 pair.2

/-- The grammar with one entry written. -/
def write (grammar : Grammar N) : TableEntry N → Grammar N
  | .head type rule => { grammar with heads := grammar.heads.insert type rule }
  | .tail type rule strength =>
    { grammar with tails := grammar.tails.insert type (rule, strength) }

/-- What is noted when an entry is written: that there was one before, if there was. -/
def noticesOf (grammar : Grammar N) : TableEntry N → List Notice
  | .head type _ => if grammar.heads.contains type then [.replacedHead type] else []
  | .tail type _ _ => if grammar.tails.contains type then [.replacedTail type] else []

/-- What has been written is found at its place. -/
@[simp] theorem held?_write_self (grammar : Grammar N) (entry : TableEntry N) :
    (grammar.write entry).held? entry.place = some entry := by
  cases entry with
  | head type rule => simp [write, held?, TableEntry.place]
  | tail type rule strength => simp [write, held?, TableEntry.place]

/-- Writing at one place leaves all others alone. -/
theorem held?_write_of_ne (grammar : Grammar N) (entry : TableEntry N) {place : Place}
    (apart : place ≠ entry.place) : (grammar.write entry).held? place = grammar.held? place := by
  obtain ⟨position, type⟩ := place
  -- In the other table nothing is written, and in the same one the type is another.
  cases entry with
  | head written rule =>
    cases position with
    | tail => rfl
    | head =>
      have other : type ≠ written := fun same => apart (by rw [same]; rfl)
      simp only [write, held?, Table.get?_insert_of_ne _ _ other]
  | tail written rule strength =>
    cases position with
    | head => rfl
    | tail =>
      have other : type ≠ written := fun same => apart (by rw [same]; rfl)
      simp only [write, held?, Table.get?_insert_of_ne _ _ other]

/-- Writes at different places can be made in either order. -/
theorem held?_write_comm (grammar : Grammar N) {one other : TableEntry N}
    (apart : one.place ≠ other.place) (place : Place) :
    ((grammar.write one).write other).held? place =
      ((grammar.write other).write one).held? place := by
  -- The place is the one of the first write, or of the second, or of neither.
  by_cases first : place = one.place
  · subst first
    rw [held?_write_of_ne _ _ apart, held?_write_self, held?_write_self]
  · by_cases second : place = other.place
    · subst second
      rw [held?_write_self, held?_write_of_ne _ _ first, held?_write_self]
    · rw [held?_write_of_ne _ _ second, held?_write_of_ne _ _ first,
        held?_write_of_ne _ _ first, held?_write_of_ne _ _ second]

/-- After some writes a place holds what was written there last, or what it held before. -/
theorem held?_foldl_write (grammar : Grammar N) (entries : List (TableEntry N)) (place : Place) :
    (entries.foldl write grammar).held? place =
      (entries.reverse.find? fun entry => entry.place = place).or (grammar.held? place) := by
  induction entries generalizing grammar with
  | nil => rfl
  | cons entry rest ih =>
    rw [List.foldl_cons, ih, List.reverse_cons, List.find?_append, Option.or_assoc]
    congr 1
    -- Among the earlier writes this one is the last, so it decides if it was at the place.
    by_cases here : entry.place = place
    · subst here
      simp
    · rw [held?_write_of_ne _ _ (Ne.symm here)]
      simp [here]

end Grammar

end Climb
