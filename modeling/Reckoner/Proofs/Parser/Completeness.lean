import Reckoner.Proofs.Grammar
import Reckoner.Proofs.Parser.Run

/-!
The parser reads every phrase of the grammar as its tree.

Behind the tokens of a phrase the last operand of the phrase still waits for more operators. What
was read is told by folding: completed at the level of the phrase, the operands that wait become the
tree of the phrase, and those that waited before it are as they were.
-/

namespace Reckoner.Parser

variable {functions : Functions}

namespace Pending

variable {level tight : Nat} {pending : Pending} {right : Tree}

-- The last operator that waits binds looser than the given level, if there is one.
def Below (level : Nat) (pending : Pending) : Prop :=
  ∀ entry ∈ pending.head?, entry.2.precedence < level

theorem below_nil : Below level [] := by
  simp [Below]

theorem Below.mono (h : Below level pending) (hl : level ≤ tight) : Below tight pending :=
  fun entry he => Nat.lt_of_lt_of_le (h entry he) hl

-- No waiting operator is completed at a level that is above the last one.
theorem fold_of_below (h : Below level pending) : pending.fold level right = (pending, right) := by
  cases pending
  case nil => rfl
  case cons entry rest =>
    have := h entry rfl
    simp [fold, Nat.not_le.mpr this]

theorem below_fold (level : Nat) (pending : Pending) (right : Tree) :
    Below level (pending.fold level right).1 := by
  induction pending generalizing right
  case nil => exact below_nil
  case cons entry rest hi =>
    simp only [fold]
    split
    case isTrue => exact hi _
    case isFalse h => simpa [Below] using h

-- Completing an operand at a tight level first makes no difference at a looser one.
theorem fold_fold (hl : level ≤ tight) :
    (pending.fold tight right).1.fold level (pending.fold tight right).2 =
      pending.fold level right := by
  induction pending generalizing right
  case nil => rfl
  case cons entry rest hi =>
    by_cases ht : tight ≤ entry.2.precedence
    case pos => simp [fold, ht, Nat.le_trans hl ht, hi]
    case neg => simp [fold, ht]

-- What is complete at a tight level is at a looser level what it was folded to.
theorem fold_eq_of_fold_eq {pending' : Pending} {tree : Tree}
    (h : pending.fold tight right = (pending', tree)) (hl : level ≤ tight) :
    pending.fold level right = pending'.fold level tree := by
  rw [← fold_fold hl, h]

theorem foldAll_eq_of_fold_eq {tree : Tree} (h : pending.fold level right = ([], tree)) :
    pending.foldAll right = tree := by
  simp [foldAll, fold_eq_of_fold_eq h (Nat.zero_le _), fold]

end Pending

open Pending State

-- The parser takes all tokens of a phrase and holds its tree.
theorem after?_of_derives {phrase : Phrase} {tokens : List Token} {tree : Tree}
    (h : Derives functions phrase tokens tree) (frames : List Frame) {pending : Pending}
    (hp : pending.Below phrase.level) :
    ∃ pending' right,
      after? functions ⟨frames, pending, .operand⟩ tokens =
        some ⟨frames, pending', .operator right⟩ ∧
      pending'.fold phrase.level right = (pending, tree) := by
  induction h generalizing frames pending
  case operand phrase tokens tree _ hi =>
    obtain ⟨pending', right, ha, hf⟩ := hi frames (hp.mono phrase.level_le_operand)
    refine ⟨pending', right, ha, ?_⟩
    rw [fold_eq_of_fold_eq hf phrase.level_le_operand, fold_of_below hp]
  case fold op before after symbol left right _ hs _ hl hr =>
    obtain ⟨pending₁, right₁, ha₁, hf₁⟩ := hl frames hp
    rw [op.level_phrase] at hf₁
    have hb : Below op.phrase.operand.level ((left, op) :: pending) := by simp [Below]
    obtain ⟨pending₂, right₂, ha₂, hf₂⟩ := hr frames hb
    refine ⟨pending₂, right₂, ?_, ?_⟩
    · simp [ha₁, ha₂, step, stepOperator, hs, hf₁, Step.next?]
    · rw [fold_eq_of_fold_eq hf₂ op.phrase.level_le_operand, op.level_phrase]
      simp only [fold, Nat.le_refl, if_true]
      exact fold_of_below (op.level_phrase ▸ hp)
  case number hk =>
    exact ⟨pending, _, by simp [step, stepOperand, hk, Step.next?, operand], fold_of_below hp⟩
  case var hk hn =>
    exact ⟨pending, _, by simp [step, stepOperand, hk, hn, Step.next?, operand], fold_of_below hp⟩
  case call name opening closing tokens argument hk hn ho _ hc hi =>
    obtain ⟨pending', right, ha, hf⟩ :=
      hi (⟨.call name.literal opening.span, pending⟩ :: frames) below_nil
    refine ⟨pending, _, ?_, fold_of_below hp⟩
    simp [step, stepOperand, stepCallParen, stepOperator, enter, Step.next?, hk, hn, ho, hc, ha,
      Opening.close, foldAll_eq_of_fold_eq hf]
  case group opening closing tokens tree ho _ hc hi =>
    obtain ⟨pending', right, ha, hf⟩ := hi (⟨.group opening.span, pending⟩ :: frames) below_nil
    refine ⟨pending, _, ?_, fold_of_below hp⟩
    simp [step, stepOperand, stepOperator, enter, Step.next?, ho, hc, ha, Opening.close,
      foldAll_eq_of_fold_eq hf]

-- No list of tokens is a phrase in two ways.
theorem derives_unique {phrase : Phrase} {tokens : List Token} {tree₁ tree₂ : Tree}
    (h₁ : Derives functions phrase tokens tree₁) (h₂ : Derives functions phrase tokens tree₂) :
    tree₁ = tree₂ := by
  have ⟨pending₁, right₁, ha₁, hf₁⟩ := after?_of_derives h₁ [] below_nil
  have ⟨pending₂, right₂, ha₂, hf₂⟩ := after?_of_derives h₂ [] below_nil
  simp only [ha₁, Option.some.injEq, State.mk.injEq, Expecting.operator.injEq, true_and] at ha₂
  rw [ha₂.1, ha₂.2, hf₂] at hf₁
  exact (Prod.mk.inj hf₁).2.symm

-- An expression is read as its tree if the end of input follows it.
theorem parse_of_derives {source : Source} {before rest : List Token} {token : Token} {tree : Tree}
    (h : Derives functions .expression before tree) (hk : token.kind = .eof) :
    ((ofTokens functions source (before ++ token :: rest)).parse).1 = .ok tree := by
  have ⟨pending, right, ha, hf⟩ := after?_of_derives h [] below_nil
  apply parse_of_verdict? ha
  simp [verdict?, step, stepOperator, hk, foldAll_eq_of_fold_eq hf]

end Reckoner.Parser
