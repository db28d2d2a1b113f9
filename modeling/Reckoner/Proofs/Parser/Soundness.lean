import Reckoner.Proofs.Parser.Completeness

/-!
What the parser reads is a phrase of the grammar.

A state of the parser tells how the tokens before it fall into phrases: those outside of each open
parenthesis, those of the operands that wait, and those of the last operand. Each step keeps this.
-/

namespace Reckoner.Parser

variable {functions : Functions}

-- The tokens of the operands that wait, and the phrase whose place is behind them. Each operator
-- binds tighter than the one that waits below it.
inductive Pending.Reads (functions : Functions) : Phrase → List Token → Pending → Prop
  | nil : Reads functions .expression [] []
  | cons {phrase : Phrase} {op : Operator} {before operand : List Token} {symbol : Token}
    {left : Tree} {pending : Pending} :
    Reads functions phrase before pending → phrase.level ≤ op.precedence →
    Derives functions op.phrase operand left → symbol.kind = .operator op →
    Reads functions op.phrase.operand (before ++ operand ++ [symbol]) ((left, op) :: pending)

namespace Pending.Reads

variable {phrase tight : Phrase} {level : Nat} {before tokens : List Token} {pending : Pending}
variable {right : Tree}

-- Whatever waits, an expression can follow it, and each looser phrase than the last operator needs.
theorem level_le (h : Reads functions phrase before pending) (hb : Below level pending)
    (hl : 0 < level) : phrase.level ≤ level := by
  cases h
  case nil => exact hl
  case cons op _ _ _ _ _ _ _ _ _ =>
    rw [op.level_operand_phrase]
    exact hb _ rfl

-- Folding moves tokens from the operands that wait to the operand that it completes.
theorem fold (h : Reads functions phrase before pending) (hd : Derives functions tight tokens right)
    (hp : phrase.level ≤ tight.level) (hl : level ≤ tight.level) :
    ∃ phrase' tight' before' tokens', before ++ tokens = before' ++ tokens' ∧
      Reads functions phrase' before' (pending.fold level right).1 ∧
      Derives functions tight' tokens' (pending.fold level right).2 ∧ level ≤ tight'.level := by
  induction h generalizing tight tokens right
  case nil => exact ⟨_, tight, [], tokens, rfl, .nil, hd, hl⟩
  case cons phrase op before operand symbol left pending h ho hleft hs hi =>
    by_cases hop : level ≤ op.precedence
    case pos =>
      have hd' := Derives.fold hleft hs (hd.loosen hp)
      have hi := hi hd' (by simpa using ho) (by simpa using hop)
      simpa [Pending.fold, hop] using hi
    case neg =>
      simp only [Pending.fold, hop, if_false]
      exact ⟨_, tight, _, tokens, rfl, .cons h ho hleft hs, hd, hl⟩

-- An operand that is completed by an operator is a phrase that the operator can stand behind.
theorem fold_operator (op : Operator) (h : Reads functions phrase before pending)
    (hd : Derives functions .factor tokens right) :
    ∃ phrase' before' tokens', before ++ tokens = before' ++ tokens' ∧
      Reads functions phrase' before' (pending.fold op.precedence right).1 ∧
      phrase'.level ≤ op.precedence ∧
      Derives functions op.phrase tokens' (pending.fold op.precedence right).2 := by
  have hop : op.precedence ≤ Phrase.factor.level := op.level_phrase ▸ op.phrase.level_le_factor
  have ⟨phrase', tight', before', tokens', ht, h', hd', hl⟩ := h.fold hd phrase.level_le_factor hop
  refine ⟨phrase', before', tokens', ht, h', ?_, hd'.loosen (op.level_phrase ▸ hl)⟩
  exact h'.level_le (below_fold op.precedence pending right) (op.level_phrase ▸ op.phrase.level_pos)

-- All that waits and the last operand together are an expression.
theorem foldAll (h : Reads functions phrase before pending)
    (hd : Derives functions .factor tokens right) :
    Derives functions .expression (before ++ tokens) (pending.foldAll right) := by
  have ⟨phrase', tight', before', tokens', ht, h', hd', _⟩ :=
    h.fold hd phrase.level_le_factor (Nat.zero_le _)
  have hb := below_fold 0 pending right
  cases hf : (pending.fold 0 right).1 <;> rw [hf] at hb h'
  case nil =>
    cases h'
    rw [ht]
    exact hd'.loosen (Nat.succ_le_of_lt tight'.level_pos)
  case cons entry _ => exact absurd (hb entry rfl) (Nat.not_lt_zero _)

end Pending.Reads

-- The tokens that open a parenthesis.
inductive Opening.Reads (functions : Functions) : List Token → Opening → Prop
  | group {paren : Token} : paren.kind = .leftParen → Reads functions [paren] (.group paren.span)
  | call {name paren : Token} :
    name.kind = .identifier → functions.contains name.literal = true → paren.kind = .leftParen →
    Reads functions [name, paren] (.call name.literal paren.span)

theorem Opening.Reads.close {opening : Opening} {opened tokens : List Token} {closing : Token}
    {inner : Tree} (h : Opening.Reads functions opened opening)
    (hd : Derives functions .expression tokens inner) (hc : closing.kind = .rightParen) :
    Derives functions .factor (opened ++ tokens ++ [closing]) (opening.close inner) := by
  cases h
  case group hp => exact .group hp hd hc
  case call hk hn hp => exact .call hk hn hp hd hc

-- The tokens up to the innermost open parenthesis.
inductive FramesRead (functions : Functions) : List Token → List Frame → Prop
  | nil : FramesRead functions [] []
  | cons {phrase : Phrase} {outer before opened : List Token} {pending : Pending}
    {opening : Opening} {frames : List Frame} :
    FramesRead functions outer frames → Pending.Reads functions phrase before pending →
    Opening.Reads functions opened opening →
    FramesRead functions (outer ++ before ++ opened) (⟨opening, pending⟩ :: frames)

-- The tokens since the last operator or open parenthesis.
inductive Expecting.Reads (functions : Functions) : List Token → Expecting → Prop
  | operand : Reads functions [] .operand
  | callParen {name : Token} :
    name.kind = .identifier → functions.contains name.literal = true →
    Reads functions [name] (.callParen name.literal)
  | operator {tokens : List Token} {left : Tree} :
    Derives functions .factor tokens left → Reads functions tokens (.operator left)

namespace State

variable {state state' : State} {tokens : List Token} {token : Token}

-- The tokens before a state, and how they fall into phrases.
def Reads (functions : Functions) (tokens : List Token) (state : State) : Prop :=
  ∃ outer phrase before last, tokens = outer ++ before ++ last ∧
    FramesRead functions outer state.frames ∧
    Pending.Reads functions phrase before state.pending ∧
    Expecting.Reads functions last state.expecting

theorem reads_start : start.Reads functions [] :=
  ⟨[], .expression, [], [], rfl, .nil, .nil, .operand⟩

-- A token where an operand is due.
theorem Reads.stepOperand {frames : List Frame} {pending : Pending}
    (h : Reads functions tokens ⟨frames, pending, .operand⟩)
    (hn : (State.stepOperand functions ⟨frames, pending, .operand⟩ token).next? = some state') :
    state'.Reads functions (tokens ++ [token]) := by
  have ⟨outer, phrase, before, last, ht, hf, hp, he⟩ := h
  cases he
  cases hk : token.kind <;>
    simp only [State.stepOperand, hk, Step.next?, reduceCtorEq, Option.some.injEq] at hn
  case number value =>
    subst hn
    exact ⟨outer, phrase, before, [token], by simp [ht], hf, hp, .operator (.number hk)⟩
  case identifier =>
    by_cases hc : functions.contains token.literal <;> simp only [hc, if_true, if_false,
      Bool.false_eq_true, Option.some.injEq] at hn <;> subst hn
    case pos =>
      exact ⟨outer, phrase, before, [token], by simp [ht], hf, hp, .callParen hk hc⟩
    case neg =>
      have hd := Derives.var hk (Bool.eq_false_iff.mpr hc)
      exact ⟨outer, phrase, before, [token], by simp [ht], hf, hp, .operator hd⟩
  case leftParen =>
    subst hn
    exact ⟨_, .expression, [], [], by simp [ht], .cons hf hp (.group hk), .nil, .operand⟩

-- A token after the name of a function.
theorem Reads.stepCallParen {frames : List Frame} {pending : Pending} {function : String}
    (h : Reads functions tokens ⟨frames, pending, .callParen function⟩)
    (hn : (State.stepCallParen function ⟨frames, pending, .callParen function⟩ token).next? =
      some state') :
    state'.Reads functions (tokens ++ [token]) := by
  have ⟨outer, phrase, before, last, ht, hf, hp, he⟩ := h
  cases he
  case callParen name hi hc =>
    cases hk : token.kind <;>
      simp only [State.stepCallParen, hk, Step.next?, reduceCtorEq, Option.some.injEq] at hn
    subst hn
    exact ⟨_, .expression, [], [], by simp [ht], .cons hf hp (.call hi hc hk), .nil, .operand⟩

-- A token after an operand.
theorem Reads.stepOperator {frames : List Frame} {pending : Pending} {left : Tree}
    (h : Reads functions tokens ⟨frames, pending, .operator left⟩)
    (hn : (State.stepOperator left ⟨frames, pending, .operator left⟩ token).next? = some state') :
    state'.Reads functions (tokens ++ [token]) := by
  have ⟨outer, phrase, before, last, ht, hf, hp, he⟩ := h
  cases he
  case operator hd =>
    unfold State.stepOperator at hn
    split at hn
    case h_1 op hk =>
      cases hn
      have ⟨phrase', before', tokens', ht', hp', hl, hd'⟩ := hp.fold_operator op hd
      refine ⟨outer, op.phrase.operand, before' ++ tokens' ++ [token], [], ?_, hf,
        .cons hp' hl hd' hk, .operand⟩
      simp [ht, ← ht']
    case h_2 => cases hn
    case h_3 opening pending' frames' hk hfr =>
      cases hn
      simp only at hfr
      subst hfr
      cases hf
      case cons phrase' outer' before' opened ho hp' hf =>
        refine ⟨outer', phrase', before', _, ?_, hf, hp', .operator (ho.close (hp.foldAll hd) hk)⟩
        simp [ht]
    case h_4 => cases hn

-- A token that is taken goes to the tokens before the state.
theorem Reads.next (h : state.Reads functions tokens)
    (hn : (state.step functions token).next? = some state') :
    state'.Reads functions (tokens ++ [token]) := by
  cases state
  case mk frames pending expecting =>
    cases expecting
    case operand => exact h.stepOperand hn
    case callParen function => exact h.stepCallParen hn
    case operator left => exact h.stepOperator hn

theorem Reads.after? {more : List Token} (h : state.Reads functions tokens)
    (ha : state.after? functions more = some state') : state'.Reads functions (tokens ++ more) :=
  keeps_after? Reads.next h ha

-- A tree is only accepted outside of all parentheses and behind an operand.
theorem step_eq_done {tree : Tree} (h : state.step functions token = .done tree) :
    ∃ left, state.frames = [] ∧ state.expecting = .operator left ∧
      tree = state.pending.foldAll left := by
  cases state
  case mk frames pending expecting =>
    cases expecting <;> simp only [step, State.stepOperand, State.stepCallParen,
      State.stepOperator] at h <;> split at h <;> try split at h
    all_goals simp_all

-- The tokens before a state are an expression if the next one completes it.
theorem Reads.done {tree : Tree} (h : state.Reads functions tokens)
    (hs : state.step functions token = .done tree) : Derives functions .expression tokens tree := by
  have ⟨outer, phrase, before, last, ht, hf, hp, he⟩ := h
  have ⟨left, hfr, hex, htree⟩ := step_eq_done hs
  rw [hfr] at hf
  rw [hex] at he
  cases hf
  cases he
  case operator hd =>
    rw [ht, htree, List.nil_append]
    exact hp.foldAll hd

-- An accepted list holds the tokens of its tree and an end of input behind them.
theorem Reads.verdict {tree : Tree} (h : state.Reads functions tokens)
    (hv : state.verdict? functions token = some (.ok tree)) :
    token.kind = .eof ∧ Derives functions .expression tokens tree := by
  unfold verdict? at hv
  cases hs : state.step functions token <;> simp only [hs, reduceCtorEq, Option.some.injEq] at hv
  case done tree' =>
    split at hv <;> cases hv
    case isTrue hk => exact ⟨hk, h.done hs⟩

end State

open State

-- The tree of an accepted list of tokens is derived by those before an end of input.
theorem derives_of_parse {source : Source} {tokens : List Token} {tree : Tree}
    (h : ((ofTokens functions source tokens).parse).1 = .ok tree) :
    ∃ before token rest, tokens = before ++ token :: rest ∧ token.kind = .eof ∧
      Derives functions .expression before tree := by
  cases exists_verdict functions .start tokens
  case inl ha =>
    have ⟨state, ha⟩ := ha
    rw [parse_of_after? ha] at h
    cases h
  case inr hv =>
    have ⟨before, token, rest, state, result, ht, ha, hv⟩ := hv
    rw [ht, parse_of_verdict? ha hv] at h
    have hr := reads_start.after? ha
    exact ⟨before, token, rest, ht, hr.verdict (h ▸ hv)⟩

end Reckoner.Parser
