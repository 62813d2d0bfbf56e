import Climb.Expr.Fold
import Climb.Proofs.Expr.FusedFolding
import Climb.Proofs.Expr.Rounds
import Climb.Proofs.Grammar.Composition
import Climb.Proofs.Grammar.Termination
import Climb.Proofs.Number.Failures

/-! How the rules of the expression language fail: by their tokens, or by a number that is read. -/

namespace Climb

/-- What only changes a value fails as the value does. -/
theorem fails_alone {α β : Type} {first : Except Error α} {change : α → β} {failure : Error}
    (failed : (do return change (← first)) = .error failure) : first = .error failure := by
  cases first with
  | error other =>
    cases failed
    rfl
  | ok value => cases failed

/-- Reading a number fails with a refused value. -/
theorem readNumber_fails {text : Option String} {failure : Error}
    (failed : readNumber text = .error failure) : ∃ fault, failure = .value fault := by
  -- Each check of either reader refuses the text as a value.
  have whole : ∀ {text failure}, readInt text = .error failure →
      ∃ fault, failure = .value fault := by
    intro text failure failed
    simp only [readInt] at failed
    split at failed
    · exact ⟨_, (Except.error.inj failed).symm⟩
    · split at failed
      · exact ⟨_, (Except.error.inj failed).symm⟩
      · split at failed
        · cases failed
        · exact ⟨_, (Except.error.inj failed).symm⟩
  have decimal : ∀ {text failure}, readDouble text = .error failure →
      ∃ fault, failure = .value fault := by
    intro text failure failed
    simp only [readDouble] at failed
    split at failed
    · cases failed
    · exact ⟨_, (Except.error.inj failed).symm⟩
  cases text with
  | none => exact ⟨_, (Except.error.inj failed).symm⟩
  | some text =>
    -- A text with a point is read as a double, any other as a whole number.
    simp only [readNumber] at failed
    split at failed
    · exact decimal (fails_alone failed)
    · exact whole (fails_alone failed)

namespace Expr

/-- The expression language looks no further than at the next token. -/
theorem grammar_isNear : grammar.IsNear where
  heads found := by
    rcases head?_cases found with ⟨-, rfl⟩ | ⟨-, rfl⟩ | ⟨-, rfl⟩ | ⟨-, rfl⟩ <;>
      simp [HeadRule.IsNear, Step.IsNear, groupSteps]
  tails found := by
    rcases tail?_cases found with ⟨-, rfl⟩ | ⟨-, rfl⟩ | ⟨-, rfl⟩ | ⟨-, rfl⟩ | ⟨-, rfl⟩ |
      ⟨-, rfl⟩ | ⟨-, rfl⟩ | ⟨-, rfl⟩ <;>
      simp [TailRule.IsNear, Step.IsNear, callSteps, condSteps]

/-- The rules fail by their tokens and steps, or as reading a number token does. -/
theorem keepsTo {interpreter : Option (Interpreter Expr)} {looks : Int → Prop}
    {tokens : Token → Prop} {failures : Error → Prop}
    (faults : ∀ fault, fault ≠ .tooDeep → failures (.parse fault))
    (numbers : ∀ {token failure}, tokens token → token.type = .kind .number →
      readNumber token.text = .error failure → failures failure)
    (interprets : ∀ {node failure}, Parser.interpreted interpreter node = .error failure →
      failures failure) :
    grammar.KeepsTo interpreter looks tokens failures where
  interprets := interprets
  heads {token rule} known found := by
    rcases head?_cases found with ⟨-, rfl⟩ | ⟨typed, rfl⟩ | ⟨-, rfl⟩ | ⟨-, rfl⟩
    · simp [HeadRule.KeepsTo, buildName]
    · exact fun failure failed => numbers known typed (fails_alone failed)
    · simp [HeadRule.KeepsTo, buildPre]
    · -- A group is always found as its steps say.
      refine ⟨by simp [groupSteps, Step.Looks], fun parts failure failed => ?_⟩
      unfold buildGroup at failed
      split at failed <;> cases failed
      exact faults _ (by simp)
  tails {token rule} known found := by
    have bin : ∀ left right failure, buildBin token left right = .error failure →
        failures failure := by simp [buildBin]
    rcases tail?_cases found with ⟨-, rfl⟩ | ⟨-, rfl⟩ | ⟨-, rfl⟩ | ⟨-, rfl⟩ | ⟨-, rfl⟩ |
      ⟨-, rfl⟩ | ⟨-, rfl⟩ | ⟨-, rfl⟩
    · exact bin
    · intro left right failure failed
      unfold buildAssign at failed
      split at failed <;> cases failed
      exact faults _ (by simp)
    · refine ⟨by simp [condSteps, Step.Looks], fun parts failure failed => ?_⟩
      unfold buildCond at failed
      split at failed <;> cases failed
      exact faults _ (by simp)
    · exact bin
    · exact bin
    · exact bin
    · simp [TailRule.KeepsTo, buildPost]
    · refine ⟨by simp [callSteps, Step.Looks], fun parts failure failed => ?_⟩
      unfold buildCall at failed
      split at failed <;> cases failed
      exact faults _ (by simp)

/-- The rules do not say that the depth is not enough. -/
theorem leavesDepth {interpreter : Option (Interpreter Expr)}
    (interprets : ∀ {node failure}, Parser.interpreted interpreter node = .error failure →
      failure ≠ .parse .tooDeep) : grammar.LeavesDepth interpreter := by
  refine keepsTo (fun fault shallow => by simpa using shallow) (fun _ _ failed => ?_) interprets
  obtain ⟨fault, rfl⟩ := readNumber_fails failed
  simp

end Expr

end Climb
