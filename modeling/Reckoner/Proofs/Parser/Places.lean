import Reckoner.Proofs.Parser.ViablePrefix

/-!
Places do not steer the parser. Two lists of tokens that differ in nothing but places are read as
the same tree, or with the same fault in places that correspond to each other. What it means for two
places to correspond is left open.
-/

namespace Reckoner

variable {same : Span → Span → Prop}

-- One fault in places that correspond.
inductive ParseFault.Alike (same : Span → Span → Prop) : ParseFault → ParseFault → Prop
  | missingCallParen {found found' : Span} {function : String} :
    same found found' →
    Alike same (.missingCallParen found function) (.missingCallParen found' function)
  | unclosedCall {found found' opened opened' : Span} :
    same found found' → same opened opened' →
    Alike same (.unclosedCall found opened) (.unclosedCall found' opened')
  | unclosedGroup {found found' opened opened' : Span} :
    same found found' → same opened opened' →
    Alike same (.unclosedGroup found opened) (.unclosedGroup found' opened')
  | unexpectedToken {found found' : Span} {text : String} :
    same found found' → Alike same (.unexpectedToken found text) (.unexpectedToken found' text)
  | unexpectedEnd {offset offset' : Nat} :
    same ⟨offset, 0⟩ ⟨offset', 0⟩ → Alike same (.unexpectedEnd offset) (.unexpectedEnd offset')
  | trailingInput {found found' : Span} {text : String} :
    same found found' → Alike same (.trailingInput found text) (.trailingInput found' text)

-- One token in places that correspond. The end of input is told of as an empty place.
structure Token.Alike (same : Span → Span → Prop) (token token' : Token) : Prop where
  kind : token.kind = token'.kind
  literal : token.literal = token'.literal
  span : same token.span token'.span
  ending : token.kind = .eof → same ⟨token.offset, 0⟩ ⟨token'.offset, 0⟩

theorem Token.Alike.text {token token' : Token} (h : token.Alike same token') :
    token.text = token'.text := by
  simp only [Token.text, h.kind, h.literal]

namespace Parser

variable {functions : Functions} {token token' : Token} {state state' : State}
variable {tokens tokens' : List Token}

inductive Opening.Alike (same : Span → Span → Prop) : Opening → Opening → Prop
  | group {paren paren' : Span} : same paren paren' → Alike same (.group paren) (.group paren')
  | call {function : String} {paren paren' : Span} :
    same paren paren' → Alike same (.call function paren) (.call function paren')

theorem Opening.Alike.close_eq {opening opening' : Opening} (h : opening.Alike same opening') :
    opening.close = opening'.close := by
  cases h <;> rfl

theorem Opening.Alike.unclosed {opening opening' : Opening} {found found' : Span}
    (h : opening.Alike same opening') (hf : same found found') :
    (opening.unclosed found).Alike same (opening'.unclosed found') := by
  cases h
  case group hp => exact .unclosedGroup hf hp
  case call hp => exact .unclosedCall hf hp

structure Frame.Alike (same : Span → Span → Prop) (frame frame' : Frame) : Prop where
  opening : frame.opening.Alike same frame'.opening
  pending : frame.pending = frame'.pending

-- States hold no places but those of the open parentheses.
structure State.Alike (same : Span → Span → Prop) (state state' : State) : Prop where
  frames : List.Forall₂ (Frame.Alike same) state.frames state'.frames
  pending : state.pending = state'.pending
  expecting : state.expecting = state'.expecting

inductive Step.Alike (same : Span → Span → Prop) : Step → Step → Prop
  | shift {state state' : State} :
    state.Alike same state' → Alike same (.shift state) (.shift state')
  | fold {op : Operator} {state state' : State} :
    state.Alike same state' → Alike same (.fold op state) (.fold op state')
  | done {tree : Tree} : Alike same (.done tree) (.done tree)
  | fail {fault fault' : ParseFault} {taken : Bool} :
    fault.Alike same fault' → Alike same (.fail fault taken) (.fail fault' taken)

namespace State.Alike

theorem start : State.start.Alike same State.start :=
  ⟨.nil, rfl, rfl⟩

theorem enter {opening opening' : Opening} (h : state.Alike same state')
    (ho : opening.Alike same opening') :
    (state.enter opening).Alike same (state'.enter opening') :=
  ⟨.cons ⟨ho, h.pending⟩ h.frames, rfl, rfl⟩

theorem expect (h : state.Alike same state') (expecting : Expecting) :
    { state with expecting }.Alike same { state' with expecting } :=
  ⟨h.frames, h.pending, rfl⟩

theorem stepOperand (h : state.Alike same state') (ht : token.Alike same token') :
    (state.stepOperand functions token).Alike same (state'.stepOperand functions token') := by
  unfold State.stepOperand
  rw [← ht.kind, ← ht.literal, ← ht.text]
  cases hk : token.kind
  case number => exact .shift (h.expect _)
  case identifier =>
    simp only
    split <;> exact .shift (h.expect _)
  case leftParen => exact .shift (h.enter (.group ht.span))
  case eof => exact .fail (.unexpectedEnd (ht.ending hk))
  all_goals exact .fail (.unexpectedToken ht.span)

theorem stepCallParen (h : state.Alike same state') (ht : token.Alike same token')
    (function : String) :
    (state.stepCallParen function token).Alike same (state'.stepCallParen function token') := by
  unfold State.stepCallParen
  rw [← ht.kind]
  cases token.kind
  case leftParen => exact .shift (h.enter (.call ht.span))
  all_goals exact .fail (.missingCallParen ht.span)

theorem stepOperator (h : state.Alike same state') (ht : token.Alike same token') (left : Tree) :
    (state.stepOperator left token).Alike same (state'.stepOperator left token') := by
  obtain ⟨frames, pending, expecting⟩ := state
  obtain ⟨frames', pending', expecting'⟩ := state'
  obtain ⟨hf, rfl, rfl⟩ := h
  unfold State.stepOperator
  rw [← ht.kind]
  cases token.kind
  case operator op => exact .fold ⟨hf, rfl, rfl⟩
  case rightParen =>
    cases hf
    case nil => exact .done
    case cons frame _ frame' _ ho hf =>
      exact .shift ⟨hf, ho.pending, by rw [ho.opening.close_eq]⟩
  all_goals
    cases hf
    case nil => exact .done
    case cons ho _ => exact .fail (ho.opening.unclosed ht.span)

-- Tokens that are alike do the same to states that are alike.
theorem step (h : state.Alike same state') (ht : token.Alike same token') :
    (state.step functions token).Alike same (state'.step functions token') := by
  unfold State.step
  rw [← h.expecting]
  cases state.expecting
  case operand => exact h.stepOperand ht
  case callParen function => exact h.stepCallParen ht function
  case operator left => exact h.stepOperator ht left

end State.Alike

theorem Step.Alike.next?_eq_some {step step' : Step} (h : step.Alike same step')
    (hn : step.next? = some state) :
    ∃ state', step'.next? = some state' ∧ state.Alike same state' := by
  cases h
  case shift h =>
    cases hn
    exact ⟨_, rfl, h⟩
  case fold h =>
    cases hn
    exact ⟨_, rfl, h⟩
  all_goals cases hn

-- One tree, or one fault in places that correspond.
inductive Agree (same : Span → Span → Prop) :
    Except ParseFault Tree → Except ParseFault Tree → Prop
  | tree {tree : Tree} : Agree same (.ok tree) (.ok tree)
  | fault {fault fault' : ParseFault} :
    fault.Alike same fault' → Agree same (.error fault) (.error fault')

namespace State.Alike

theorem verdict?_eq_some {result : Except ParseFault Tree} (h : state.Alike same state')
    (ht : token.Alike same token') (hv : state.verdict? functions token = some result) :
    ∃ result', state'.verdict? functions token' = some result' ∧ Agree same result result' := by
  have hs : (state.step functions token).Alike same (state'.step functions token') := h.step ht
  unfold verdict? at hv ⊢
  generalize state.step functions token = step at hs hv
  generalize state'.step functions token' = step' at hs
  cases hs
  case shift | fold => cases hv
  case done =>
    cases hv
    rw [← ht.kind, ← ht.text]
    refine ⟨_, rfl, ?_⟩
    split
    case isTrue => exact .tree
    case isFalse => exact .fault (.trailingInput ht.span)
  case fail hf =>
    cases hv
    exact ⟨_, rfl, .fault hf⟩

-- By induction on the tokens that are taken.
theorem after?_eq_some {before before' : List Token} {next : State} (h : state.Alike same state')
    (ht : List.Forall₂ (Token.Alike same) before before')
    (ha : state.after? functions before = some next) :
    ∃ next', state'.after? functions before' = some next' ∧ next.Alike same next' := by
  induction ht generalizing state state'
  case nil =>
    cases ha
    exact ⟨state', rfl, h⟩
  case cons token token' before before' ht _ hi =>
    simp only [after?_cons, Option.bind_eq_bind, Option.bind_eq_some_iff] at ha ⊢
    have ⟨middle, hm, ha⟩ := ha
    have ⟨middle', hm', h⟩ := (h.step ht).next?_eq_some hm
    have ⟨next', ha', h⟩ := hi h ha
    exact ⟨next', ⟨middle', hm', ha'⟩, h⟩

end State.Alike

theorem exists_append_of_forall₂ {α : Type} {related : α → α → Prop} {before rest whole : List α}
    (h : List.Forall₂ related (before ++ rest) whole) :
    ∃ before' rest', whole = before' ++ rest' ∧ List.Forall₂ related before before' ∧
      List.Forall₂ related rest rest' := by
  induction before generalizing whole
  case nil => exact ⟨[], whole, rfl, .nil, h⟩
  case cons hi =>
    cases h
    case cons hr h =>
      obtain ⟨before', rest', rfl, hb, hrest⟩ := hi h
      exact ⟨_ :: before', rest', rfl, .cons hr hb, hrest⟩

-- The tokens of a text and others that are alike are read alike.
theorem agree_parse {text : String} {source source' : Source} (h : tokenize text = .ok tokens)
    (ht : List.Forall₂ (Token.Alike same) tokens tokens') :
    Agree same ((ofTokens functions source tokens).parse).1
      ((ofTokens functions source' tokens').parse).1 := by
  obtain ⟨before, token, rest, state, result, rfl, ha, hv⟩ := exists_verdict_of_tokenize functions h
  have ⟨before', rest', hw, hb, hr⟩ := exists_append_of_forall₂ ht
  rw [hw]
  cases hr
  case cons token' rest' ht _ =>
    have ⟨state', ha', hs⟩ := State.Alike.start.after?_eq_some hb ha
    have ⟨result', hv', hr⟩ := hs.verdict?_eq_some ht hv
    rwa [parse_of_verdict? ha hv, parse_of_verdict? ha' hv']

end Parser

end Reckoner
