import Mathlib
import Climb.Text.Quoted

/-! Quoted texts tell texts apart, and stand on one line. -/

namespace Climb

/-- How many hexadecimal digits follow the second character of an escape. -/
def escapeWidth (kind : Char) : Nat :=
  if kind = 'x' then 2 else if kind = 'u' then 4 else if kind = 'U' then 8 else 0

/-- What the second character of an escape without digits stands for. -/
def escapedChar (kind : Char) : Char :=
  if kind = 'n' then '\n' else if kind = 'r' then '\r' else if kind = 't' then '\t' else kind

section

/-- Hexadecimal digits are as many as they are meant to be. -/
theorem length_hexDigits (width value : Nat) : (hexDigits width value).length = width := by
  induction width generalizing value with
  | zero => rfl
  | succ width ih => simp [hexDigits, ih]

/-- Different values below sixteen have different digits. -/
theorem digitChar_injective : ∀ one < 16, ∀ other < 16,
    Nat.digitChar one = Nat.digitChar other → one = other := by
  decide

/-- Hexadecimal digits tell the numbers apart that they have room for. -/
theorem hexDigits_injective {width one other : Nat} (first : one < 16 ^ width)
    (second : other < 16 ^ width) (same : hexDigits width one = hexDigits width other) :
    one = other := by
  induction width generalizing one other with
  | zero => omega
  | succ width ih =>
    rw [Nat.pow_succ] at first second
    -- The last digit is the remainder, and those before it are the digits of the quotient.
    obtain ⟨front, last⟩ := List.append_inj' same rfl
    have high := ih (by omega) (by omega) front
    have low := digitChar_injective _ (Nat.mod_lt one (by decide)) _ (Nat.mod_lt other (by decide))
      (List.singleton_inj.1 last)
    omega

/-- A hexadecimal digit is no line break. -/
theorem newline_not_mem_hexDigits (width value : Nat) : '\n' ∉ hexDigits width value := by
  induction width generalizing value with
  | zero => simp [hexDigits]
  | succ width ih =>
    -- Sixteen characters are all there are to look at.
    have digit : ∀ value < 16, Nat.digitChar value ≠ '\n' := by decide
    simp only [hexDigits, List.mem_append, List.mem_singleton, not_or]
    exact ⟨ih _, (digit _ (Nat.mod_lt _ (by decide))).symm⟩

end

/-- The two quote marks. -/
def IsMark (mark : Char) : Prop :=
  mark = '\'' ∨ mark = '"'

section

variable {mark : Char} (quote : IsMark mark)

include quote

/-- A character stands for itself, or behind a backslash that says how. -/
theorem quotedChar_cases (c : Char) :
    (quotedChar mark c = [c] ∧ c ≠ mark ∧ c ≠ '\\' ∧ c ≠ '\n') ∨
    ∃ kind, quotedChar mark c = '\\' :: kind :: hexDigits (escapeWidth kind) c.toNat ∧
      kind ≠ '\n' ∧
      if escapeWidth kind = 0 then c = escapedChar kind else c.toNat < 16 ^ escapeWidth kind := by
  -- The branches in their order: marks and backslashes, three controls by name, and the others.
  unfold quotedChar
  split
  · rename_i escaped
    -- A mark or a backslash is its own second character.
    refine .inr ⟨c, ?_⟩
    have plain : escapeWidth c = 0 ∧ escapedChar c = c ∧ c ≠ '\n' := by
      rcases escaped with rfl | rfl
      · rcases quote with rfl | rfl <;> decide
      · decide
    rw [plain.1, if_pos rfl, plain.2.1]
    exact ⟨rfl, plain.2.2, rfl⟩
  · rename_i bare
    split
    · exact .inr ⟨'n', rfl, by decide, ‹_›⟩
    split
    · exact .inr ⟨'r', rfl, by decide, ‹_›⟩
    split
    · exact .inr ⟨'t', rfl, by decide, ‹_›⟩
    split
    · exact .inl ⟨rfl, fun same => bare (.inl same), fun slash => bare (.inr slash), ‹_›⟩
    · -- What cannot be shown is told by its code point, in one of three widths.
      unfold codePointEscape
      split
      · exact .inr ⟨'x', rfl, by decide, ‹_›⟩
      split
      · exact .inr ⟨'u', rfl, by decide, ‹_›⟩
      · -- Code points end before the room of eight digits does.
        have range : c.toNat < 0x110000 := by
          rcases c.valid with low | ⟨-, high⟩
          · exact Nat.lt_trans low (by decide)
          · exact high
        exact .inr ⟨'U', rfl, by decide, Nat.lt_trans range (by decide)⟩

/-- No character stands at the start of what stands for another one. -/
theorem quotedChar_cancel {one other : Char} {front back : List Char}
    (same : quotedChar mark one ++ front = quotedChar mark other ++ back) :
    one = other ∧ front = back := by
  -- A backslash stands in front of an escape and nowhere else, so both are escaped or neither is.
  rcases quotedChar_cases quote one with ⟨first, -, plain, -⟩ | ⟨kind, first, -, told⟩ <;>
    rcases quotedChar_cases quote other with ⟨second, -, plain', -⟩ | ⟨kind', second, -, told'⟩ <;>
    rw [first, second] at same
  · exact List.cons.inj same
  · -- A plain character is no backslash, so it does not begin an escape.
    exact absurd (List.cons.inj same).1 plain
  · exact absurd (List.cons.inj same).1.symm plain'
  · -- The second character tells how many digits follow, so both escapes end at one place.
    obtain ⟨-, same⟩ := List.cons.inj same
    obtain ⟨rfl, same⟩ := List.cons.inj same
    obtain ⟨digits, rest⟩ := List.append_inj same (by simp only [length_hexDigits])
    refine ⟨?_, rest⟩
    split at told
    · rw [if_pos ‹_›] at told'
      exact told.trans told'.symm
    · rw [if_neg ‹_›] at told'
      exact Char.toNat_inj.1 (hexDigits_injective told told' digits)

/-- No character stands for nothing, and none stands as a quote mark. -/
theorem quotedChar_append_ne_mark (c : Char) (front : List Char) :
    quotedChar mark c ++ front ≠ [mark] := by
  rcases quotedChar_cases quote c with ⟨shown, other, -⟩ | ⟨kind, shown, -⟩ <;> rw [shown]
  · exact fun same => other (List.cons.inj same).1
  · -- An escape is two characters at least.
    exact fun same => nomatch (List.cons.inj same).2

/-- The characters between two quote marks tell texts apart. -/
theorem flatMap_quotedChar_cancel {one other : List Char}
    (same : one.flatMap (quotedChar mark) ++ [mark] = other.flatMap (quotedChar mark) ++ [mark]) :
    one = other := by
  induction one generalizing other with
  | nil =>
    -- The closing mark ends both texts at once, as no character is written as it.
    cases other with
    | nil => rfl
    | cons c rest =>
      rw [List.flatMap_cons, List.append_assoc] at same
      exact absurd same.symm (quotedChar_append_ne_mark quote c _)
  | cons c rest ih =>
    cases other with
    | nil =>
      rw [List.flatMap_cons, List.append_assoc] at same
      exact absurd same (quotedChar_append_ne_mark quote c _)
    | cons d others =>
      rw [List.flatMap_cons, List.flatMap_cons, List.append_assoc, List.append_assoc] at same
      obtain ⟨rfl, rest_same⟩ := quotedChar_cancel quote same
      rw [ih rest_same]

/-- What a character stands as has no line break. -/
theorem newline_not_mem_quotedChar (c : Char) : '\n' ∉ quotedChar mark c := by
  rcases quotedChar_cases quote c with ⟨shown, -, -, other⟩ | ⟨kind, shown, other, -⟩
  · rw [shown, List.mem_singleton]
    exact other.symm
  · rw [shown]
    simp [other.symm, newline_not_mem_hexDigits]

end

/-- The mark around a text is a quote mark. -/
theorem isMark_quoteMark (text : List Char) : IsMark (quoteMark text) := by
  unfold quoteMark
  split
  · exact .inr rfl
  · exact .inl rfl

/-- Quoted texts tell texts apart. -/
theorem quoted_injective : Function.Injective quoted := by
  intro one other same
  have chars := congrArg String.toList same
  simp only [quoted, String.toList_ofList, quotedChars, List.cons_append] at chars
  obtain ⟨mark, between⟩ := List.cons.inj chars
  -- The mark is chosen by the text, but as both texts show the same one it is shared.
  rw [← mark] at between
  exact String.toList_inj.1 (flatMap_quotedChar_cancel (isMark_quoteMark _) between)

/-- A quoted text stands on one line. -/
theorem newline_not_mem_quoted (text : String) : '\n' ∉ (quoted text).toList := by
  have quote := isMark_quoteMark text.toList
  -- Only the marks at the ends are added to what the characters stand as.
  have mark : '\n' ≠ quoteMark text.toList := by
    rcases quote with quote | quote <;> rw [quote] <;> decide
  simp only [quoted, String.toList_ofList, quotedChars, List.cons_append, List.mem_cons,
    List.mem_append, List.mem_flatMap, List.not_mem_nil, or_false, not_or, mark, not_false_eq_true,
    true_and, not_exists, not_and]
  exact fun c _ => newline_not_mem_quotedChar quote c

end Climb
