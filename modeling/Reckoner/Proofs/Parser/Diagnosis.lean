import Reckoner.Proofs.Parser.ViablePrefix

/-!
The tokens before a fault tell which fault it is, without a parser. It is enough to look at the last
one of them, at the innermost parenthesis that they leave open and at the token before this one.

A state of the parser has a frame for each open parenthesis, and it expects what the last token asks
for. Each step keeps this.
-/

namespace Reckoner

-- A parenthesis that is open, and the tokens before it.
structure OpenParen where
  outer : List Token
  paren : Token

namespace OpenParen

-- The parentheses that are open behind a token, of those that were open before it.
def mark (before : List Token) (token : Token) (opened : List OpenParen) : List OpenParen :=
  match token.kind with
  | .leftParen  => ⟨before, token⟩ :: opened
  | .rightParen => opened.tail
  | _           => opened

def markAll (before : List Token) (opened : List OpenParen) : List Token → List OpenParen
  | [] => opened
  | token :: rest => markAll (before ++ [token]) (mark before token opened) rest

-- The parentheses that some tokens leave open, the innermost one first.
def ofTokens (tokens : List Token) : List OpenParen :=
  markAll [] [] tokens

theorem markAll_concat (before : List Token) (opened : List OpenParen) (tokens : List Token)
    (token : Token) : markAll before opened (tokens ++ [token]) =
      mark (before ++ tokens) token (markAll before opened tokens) := by
  induction tokens generalizing before opened
  case nil => simp [markAll]
  case cons hi => simp [markAll, hi]

theorem ofTokens_concat (tokens : List Token) (token : Token) :
    ofTokens (tokens ++ [token]) = mark tokens token (ofTokens tokens) :=
  markAll_concat [] [] tokens token

-- What is open is a parenthesis of the tokens, and the tokens before it come before it.
theorem exists_eq_append {opened : OpenParen} {tokens : List Token} (h : opened ∈ ofTokens tokens) :
    opened.paren.kind = .leftParen ∧ ∃ inner, tokens = opened.outer ++ opened.paren :: inner := by
  induction tokens using List.reverseRecOn
  case nil => cases h
  case append_singleton tokens token hi =>
    rw [ofTokens_concat] at h
    have hm : opened = ⟨tokens, token⟩ ∧ token.kind = .leftParen ∨ opened ∈ ofTokens tokens := by
      unfold mark at h
      split at h
      case h_1 hk => exact (List.mem_cons.mp h).imp_left fun he => ⟨he, hk⟩
      case h_2 => exact .inr (List.mem_of_mem_tail h)
      case h_3 => exact .inr h
    cases hm
    case inl hm =>
      obtain ⟨rfl, hk⟩ := hm
      exact ⟨hk, [], rfl⟩
    case inr hm =>
      obtain ⟨hk, inner, ht⟩ := hi hm
      exact ⟨hk, inner ++ [token], by simp [ht]⟩

end OpenParen

namespace Token

-- Whether an operand is due behind some tokens.
def operandDue (before : List Token) : Bool :=
  before.getLast?.all fun token =>
    match token.kind with
    | .operator _ | .leftParen => true
    | _ => false

-- Whether the last one of some tokens is a name.
def endInName (before : List Token) : Bool :=
  before.getLast?.any (·.kind = .identifier)

-- The last one of some tokens, if it is the name of a function.
def callee? (functions : Functions) (before : List Token) : Option Token :=
  before.getLast?.filter fun token => token.kind = .identifier && functions.contains token.literal

end Token

open Token

-- What fault a token is behind some tokens, if it is one.
def diagnosis (functions : Functions) (before : List Token) (token : Token) : ParseFault :=
  if operandDue before then
    if token.kind = .eof then .unexpectedEnd token.offset
    else .unexpectedToken token.span token.text
  else
    match callee? functions before, OpenParen.ofTokens before with
    | some name, _ => .missingCallParen token.span name.literal
    | none, [] => .trailingInput token.span token.text
    | none, ⟨outer, paren⟩ :: _ =>
      if endInName outer then .unclosedCall token.span paren.span
      else .unclosedGroup token.span paren.span

namespace Parser

variable {functions : Functions} {before : List Token} {token : Token} {state state' : State}

-- What an open parenthesis belongs to, the token before it tells.
inductive Frame.Opens (functions : Functions) : OpenParen → Frame → Prop
  | group {outer : List Token} {paren : Token} {pending : Pending} :
    endInName outer = false → Opens functions ⟨outer, paren⟩ ⟨.group paren.span, pending⟩
  | call {outer : List Token} {name paren : Token} {pending : Pending} :
    callee? functions outer = some name →
    Opens functions ⟨outer, paren⟩ ⟨.call name.literal paren.span, pending⟩

-- What is due behind some tokens, the last one of them tells.
inductive Expecting.Follows (functions : Functions) (before : List Token) : Expecting → Prop
  | operand : operandDue before = true → Follows functions before .operand
  | callParen {name : Token} :
    callee? functions before = some name → Follows functions before (.callParen name.literal)
  | operator {left : Tree} :
    operandDue before = false → callee? functions before = none →
    Follows functions before (.operator left)

namespace State

-- The state behind some tokens holds their open parentheses.
structure Follows (functions : Functions) (before : List Token) (state : State) : Prop where
  frames : List.Forall₂ (Frame.Opens functions) (OpenParen.ofTokens before) state.frames
  expecting : state.expecting.Follows functions before

theorem follows_start : start.Follows functions [] :=
  ⟨.nil, .operand rfl⟩

end State

theorem endInName_eq_false_of_operandDue (h : operandDue before = true) :
    endInName before = false := by
  unfold operandDue at h
  unfold endInName
  cases hl : before.getLast? <;> rw [hl] at h
  case none => rfl
  case some token => cases hk : token.kind <;> simp_all

theorem operandDue_eq_false_of_callee? {name : Token} (h : callee? functions before = some name) :
    operandDue before = false := by
  unfold callee? at h
  unfold operandDue
  simp only [Option.filter_eq_some_iff] at h
  simp_all

theorem endInName_of_callee? {name : Token} (h : callee? functions before = some name) :
    endInName before = true := by
  unfold callee? at h
  unfold endInName
  simp only [Option.filter_eq_some_iff] at h
  simp_all

namespace State.Follows

-- A token where an operand is due.
theorem stepOperand {frames : List Frame} {pending : Pending}
    (h : Follows functions before ⟨frames, pending, .operand⟩)
    (hn : (State.stepOperand functions ⟨frames, pending, .operand⟩ token).next? = some state') :
    state'.Follows functions (before ++ [token]) := by
  have ⟨hf, he⟩ := h
  cases he
  case operand hd =>
    cases hk : token.kind <;>
      simp only [State.stepOperand, hk, Step.next?, reduceCtorEq, Option.some.injEq] at hn
    case number =>
      subst hn
      refine ⟨?_, .operator ?_ ?_⟩
      · simpa [OpenParen.ofTokens_concat, OpenParen.mark, hk, operand] using hf
      · simp [operandDue, hk]
      · simp [callee?, hk]
    case identifier =>
      have hf : List.Forall₂ (Frame.Opens functions) (OpenParen.ofTokens (before ++ [token]))
          frames := by
        simpa [OpenParen.ofTokens_concat, OpenParen.mark, hk] using hf
      by_cases hc : functions.contains token.literal <;> simp only [hc, if_true, if_false,
        Bool.false_eq_true, Option.some.injEq] at hn <;> subst hn
      case pos => exact ⟨hf, .callParen (by simp [callee?, hk, hc])⟩
      case neg => exact ⟨hf, .operator (by simp [operandDue, hk]) (by simp [callee?, hk, hc])⟩
    case leftParen =>
      subst hn
      refine ⟨?_, .operand (by simp [operandDue, hk])⟩
      simp only [OpenParen.ofTokens_concat, OpenParen.mark, hk]
      exact .cons (.group (endInName_eq_false_of_operandDue hd)) hf

-- A token after the name of a function.
theorem stepCallParen {frames : List Frame} {pending : Pending} {function : String}
    (h : Follows functions before ⟨frames, pending, .callParen function⟩)
    (hn : (State.stepCallParen function ⟨frames, pending, .callParen function⟩ token).next? =
      some state') :
    state'.Follows functions (before ++ [token]) := by
  have ⟨hf, he⟩ := h
  cases he
  case callParen name hc =>
    cases hk : token.kind <;>
      simp only [State.stepCallParen, hk, Step.next?, reduceCtorEq, Option.some.injEq] at hn
    subst hn
    refine ⟨?_, .operand (by simp [operandDue, hk])⟩
    simp only [OpenParen.ofTokens_concat, OpenParen.mark, hk]
    exact .cons (.call hc) hf

-- A token after an operand.
theorem stepOperator {frames : List Frame} {pending : Pending} {left : Tree}
    (h : Follows functions before ⟨frames, pending, .operator left⟩)
    (hn : (State.stepOperator left ⟨frames, pending, .operator left⟩ token).next? =
      some state') :
    state'.Follows functions (before ++ [token]) := by
  have ⟨hf, _⟩ := h
  unfold State.stepOperator at hn
  split at hn
  case h_1 op hk =>
    cases hn
    refine ⟨?_, .operand (by simp [operandDue, hk])⟩
    simpa [OpenParen.ofTokens_concat, OpenParen.mark, hk] using hf
  case h_2 => cases hn
  case h_3 hk hfr =>
    cases hn
    simp only at hfr
    subst hfr
    simp only at hf
    generalize ho : OpenParen.ofTokens before = opened at hf
    cases hf
    case cons _ hf =>
      refine ⟨?_, .operator (by simp [operandDue, hk]) (by simp [callee?, hk])⟩
      simpa [OpenParen.ofTokens_concat, OpenParen.mark, hk, ho] using hf
  case h_4 => cases hn

-- A token that is taken goes to the tokens before the state.
theorem next (h : state.Follows functions before)
    (hn : (state.step functions token).next? = some state') :
    state'.Follows functions (before ++ [token]) := by
  cases state
  case mk frames pending expecting =>
    cases expecting
    case operand => exact h.stepOperand hn
    case callParen function => exact h.stepCallParen hn
    case operator left => exact h.stepOperator hn

theorem after? {more : List Token} (h : state.Follows functions before)
    (ha : state.after? functions more = some state') :
    state'.Follows functions (before ++ more) :=
  keeps_after? Follows.next h ha

end State.Follows

namespace State

variable {frames : List Frame} {pending : Pending} {fault : ParseFault}

theorem fault_of_operand
    (h : verdict? functions ⟨frames, pending, .operand⟩ token = some (.error fault)) :
    fault = if token.kind = .eof then .unexpectedEnd token.offset
      else .unexpectedToken token.span token.text := by
  simp only [verdict?, step, State.stepOperand] at h
  cases hk : token.kind <;> simp only [hk, reduceCtorEq] at h
  case identifier =>
    by_cases hc : functions.contains token.literal = true <;> simp [hc] at h
  all_goals
    cases h
    simp

theorem fault_of_callParen {function : String}
    (h : verdict? functions ⟨frames, pending, .callParen function⟩ token = some (.error fault)) :
    fault = .missingCallParen token.span function := by
  simp only [verdict?, step, State.stepCallParen] at h
  cases hk : token.kind <;> simp only [hk, reduceCtorEq] at h
  all_goals
    cases h
    rfl

theorem fault_of_operator {left : Tree}
    (h : verdict? functions ⟨frames, pending, .operator left⟩ token = some (.error fault)) :
    fault = match frames with
      | [] => .trailingInput token.span token.text
      | frame :: _ => frame.opening.unclosed token.span := by
  simp only [verdict?, step, State.stepOperator] at h
  cases frames <;> cases hk : token.kind <;>
    simp only [hk, reduceCtorEq, if_true, if_false, Option.some.injEq, Except.error.injEq] at h
  all_goals exact h.symm

end State

theorem Frame.Opens.unclosed {opened : OpenParen} {frame : Frame} (h : frame.Opens functions opened)
    (found : Span) : frame.opening.unclosed found =
      if endInName opened.outer then .unclosedCall found opened.paren.span
      else .unclosedGroup found opened.paren.span := by
  cases h
  case group hn => simp [hn, Opening.unclosed]
  case call hc => simp [endInName_of_callee? hc, Opening.unclosed]

theorem Frame.Opens.isSome_callee? {opened : OpenParen} {frame : Frame}
    (h : frame.Opens functions opened) (hn : endInName opened.outer = true) :
    (callee? functions opened.outer).isSome = true := by
  cases h
  case group hg =>
    rw [hg] at hn
    cases hn
  case call hc => rw [hc, Option.isSome_some]

-- A fault is the one that the tokens before the state tell.
theorem State.Follows.eq_diagnosis {fault : ParseFault} (h : state.Follows functions before)
    (hv : state.verdict? functions token = some (.error fault)) :
    fault = diagnosis functions before token := by
  obtain ⟨frames, pending, expecting⟩ := state
  obtain ⟨hf, he⟩ := h
  unfold diagnosis
  cases he
  case operand hd => rw [if_pos hd, fault_of_operand hv]
  case callParen hc =>
    rw [operandDue_eq_false_of_callee? hc, hc, fault_of_callParen hv]
    rfl
  case operator left hd hc =>
    rw [hd, hc, fault_of_operator hv]
    simp only at hf
    generalize OpenParen.ofTokens before = opened at hf
    cases hf
    case nil => rfl
    case cons ho _ => exact ho.unclosed token.span

-- Of all names only those of functions stand before the open parentheses.
theorem State.Follows.isSome_callee? (h : state.Follows functions before) :
    ∀ opened ∈ OpenParen.ofTokens before, endInName opened.outer = true →
      (callee? functions opened.outer).isSome = true :=
  ((List.forall₂_and_left _ _).mp (h.frames.imp fun _ _ ho => ⟨ho.isSome_callee?, ho⟩)).1

open State

-- The tokens before the place of a fault tell which fault it is and which parenthesis it points to:
-- the last one of them, the innermost parenthesis that they leave open and the token before it. No
-- name stands before an open parenthesis but that of a function.
theorem parse_fault_eq_diagnosis {source : Source} {tokens : List Token} {fault : ParseFault}
    (ht : tokenize source.text = .ok tokens)
    (hf : ((ofTokens functions source tokens).parse).1 = .error fault) :
    ∃ i token, tokens[i]? = some token ∧
      (∀ j, tokens[j]?.map (·.offset) = some fault.place.offset ↔ j = i) ∧
      fault = diagnosis functions (tokens.take i) token ∧
      ∀ opened ∈ OpenParen.ofTokens (tokens.take i), opened.paren.kind = .leftParen ∧
        (∃ inner, tokens.take i = opened.outer ++ opened.paren :: inner) ∧
        (endInName opened.outer = true → (callee? functions opened.outer).isSome = true) := by
  have ⟨before, token, rest, state, result, hl, ha, hv⟩ := exists_verdict_of_tokenize functions ht
  have hs : state.Follows functions before := follows_start.after? ha
  rw [hl, parse_of_verdict? ha hv] at hf
  rw [hf] at hv
  have hi : tokens[before.length]? = some token := by simp [hl]
  have htake : tokens.take before.length = before := by simp [hl]
  refine ⟨before.length, token, hi, ?_, ?_, ?_⟩
  · rw [place_of_verdict? hv]
    exact (tokenStream_of_tokenize ht).offset_getElem?_iff hi
  · rw [htake]
    exact hs.eq_diagnosis hv
  · rw [htake]
    intro opened hm
    have ⟨hk, hs'⟩ := OpenParen.exists_eq_append hm
    exact ⟨hk, hs', hs.isSome_callee? opened hm⟩

set_option maxRecDepth 4000 in
theorem fault_behind_group_in_call :
    let tokens : List Token :=
      [⟨.identifier, "sin", 0⟩, ⟨.leftParen, "(", 3⟩, ⟨.leftParen, "(", 4⟩,
        ⟨.identifier, "x", 5⟩, ⟨.rightParen, ")", 6⟩, ⟨.identifier, "y", 8⟩, ⟨.eof, "", 9⟩]
    let fault : ParseFault := .unclosedCall ⟨8, 1⟩ ⟨3, 1⟩
    tokenize "sin((x) y" = .ok tokens ∧
    ((ofTokens .builtin ⟨none, "sin((x) y"⟩ tokens).parse).1 = .error fault ∧
    ∃ i token, tokens[i]? = some token ∧
      (∀ j, tokens[j]?.map (·.offset) = some fault.place.offset ↔ j = i) ∧
      fault = diagnosis .builtin (tokens.take i) token ∧
      ∀ opened ∈ OpenParen.ofTokens (tokens.take i), opened.paren.kind = .leftParen ∧
        (∃ inner, tokens.take i = opened.outer ++ opened.paren :: inner) ∧
        (endInName opened.outer = true → (callee? .builtin opened.outer).isSome = true) := by
  intro tokens fault
  have ht : tokenize "sin((x) y" = .ok tokens := by cbv
  have hf : ((ofTokens .builtin ⟨none, "sin((x) y"⟩ tokens).parse).1 = .error fault := by cbv
  exact ⟨ht, hf, parse_fault_eq_diagnosis ht hf⟩

end Parser

end Reckoner
