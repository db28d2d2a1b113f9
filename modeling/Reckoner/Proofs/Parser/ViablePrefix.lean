import Reckoner.Proofs.Lexer.Items
import Reckoner.Proofs.Parser.Run

/-!
Faults of the parser are early and exact. The tokens before the place of a fault begin some list
that is accepted, and with the token at this place they begin none.
-/

namespace Reckoner

-- In a stream an offset belongs to one token only.
theorem TokenStream.offset_getElem?_iff {offset i : Nat} {tokens : List Token} {token : Token}
    (h : TokenStream offset tokens) (hi : tokens[i]? = some token) (j : Nat) :
    tokens[j]?.map (·.offset) = some token.offset ↔ j = i := by
  constructor
  case mp =>
    intro hj
    have ⟨token', ht, ho⟩ := Option.map_eq_some_iff.mp hj
    obtain ⟨hil, rfl⟩ := List.getElem?_eq_some_iff.mp hi
    obtain ⟨hjl, rfl⟩ := List.getElem?_eq_some_iff.mp ht
    have hp := List.pairwise_iff_getElem.mp h.pairwise
    cases Nat.lt_trichotomy i j
    case inl hlt =>
      have := hp i j hil hjl hlt
      omega
    case inr hr =>
      cases hr
      case inl he => exact he.symm
      case inr hlt =>
        have := hp j i hjl hil hlt
        omega
  case mpr =>
    intro hj
    simp [hj, hi]

namespace Parser

variable {functions : Functions} {state : State} {token : Token} {tokens : List Token}

-- The parser makes a tree of the list.
def Accepts (functions : Functions) (source : Source) (tokens : List Token) : Prop :=
  ∃ tree, ((ofTokens functions source tokens).parse).1 = .ok tree

theorem Opening.place_unclosed (opening : Opening) (found : Span) :
    (opening.unclosed found).place = found := by
  cases opening <;> rfl

namespace State

theorem place_of_step_eq_fail {fault : ParseFault} {taken : Bool}
    (h : state.step functions token = .fail fault taken) : fault.place.offset = token.offset := by
  cases he : state.expecting <;> simp only [step, he] at h
  case operand =>
    unfold stepOperand at h
    split at h <;> (try split at h) <;> cases h <;> rfl
  case callParen =>
    unfold stepCallParen at h
    split at h <;> cases h
    rfl
  case operator =>
    unfold stepOperator at h
    split at h <;> cases h
    rw [Opening.place_unclosed]
    rfl

theorem place_of_verdict? {fault : ParseFault}
    (h : state.verdict? functions token = some (.error fault)) :
    fault.place.offset = token.offset := by
  unfold verdict? at h
  cases hs : state.step functions token <;> simp only [hs, reduceCtorEq, Option.some.injEq] at h
  case done =>
    split at h <;> cases h
    rfl
  case fail =>
    cases h
    exact place_of_step_eq_fail hs

-- No state takes the end of input.
theorem next?_step_eof (hk : token.kind = .eof) : (state.step functions token).next? = none := by
  cases he : state.expecting <;> simp only [step, he]
  case operand => simp [stepOperand, hk, Step.next?]
  case callParen => simp [stepCallParen, hk, Step.next?]
  case operator =>
    unfold stepOperator
    split <;> simp_all [Step.next?]

theorem after?_eq_none (h : ∃ token ∈ tokens, token.kind = .eof) :
    state.after? functions tokens = none := by
  have ⟨token, hm, hk⟩ := h
  have ⟨before, rest, ht⟩ := List.append_of_mem hm
  simp [ht, next?_step_eof hk]

-- Behind an operand it is enough to close the open parentheses.
theorem exists_closing (functions : Functions) (frames : List Frame) (pending : Pending)
    (left : Tree) :
    ∃ more pending' left', after? functions ⟨frames, pending, .operator left⟩ more =
      some ⟨[], pending', .operator left'⟩ := by
  induction frames generalizing pending left
  case nil => exact ⟨[], pending, left, rfl⟩
  case cons frame frames hi =>
    have ⟨more, pending', left', ha⟩ :=
      hi frame.pending (frame.opening.close (pending.foldAll left))
    refine ⟨⟨.rightParen, ")", 0⟩ :: more, pending', left', ?_⟩
    simpa [step, stepOperator, Step.next?] using ha

theorem exists_operand (functions : Functions) (state : State) :
    ∃ more frames pending left, state.after? functions more =
      some ⟨frames, pending, .operator left⟩ := by
  have ⟨frames, pending, expecting⟩ := state
  cases expecting
  case operand =>
    refine ⟨[⟨.number 0, "0", 0⟩], frames, pending, .number 0, ?_⟩
    simp [step, stepOperand, operand, Step.next?]
  case callParen function =>
    refine ⟨[⟨.leftParen, "(", 0⟩, ⟨.number 0, "0", 0⟩],
      ⟨.call function ⟨0, 1⟩, pending⟩ :: frames, [], .number 0, ?_⟩
    simp [step, stepCallParen, stepOperand, operand, enter, Step.next?]
    rfl
  case operator left => exact ⟨[], frames, pending, left, rfl⟩

end State

open State

-- In the tokens of a text there is one that decides, as the end of input is among them.
theorem exists_verdict_of_tokenize {text : String} (functions : Functions)
    (h : tokenize text = .ok tokens) :
    ∃ before token rest state result, tokens = before ++ token :: rest ∧
      start.after? functions before = some state ∧
      state.verdict? functions token = some result := by
  refine (exists_verdict functions .start tokens).resolve_left fun ⟨state, ha⟩ => ?_
  rw [after?_eq_none (tokenStream_of_tokenize h).exists_eof] at ha
  cases ha

-- From each state the list can go on to one that is accepted.
theorem exists_accepts (h : State.start.after? functions tokens = some state) :
    ∃ more, ∀ source, Accepts functions source (tokens ++ more) := by
  have ⟨operand, frames, pending, left, ho⟩ := state.exists_operand functions
  have ⟨closing, pending', left', hc⟩ := exists_closing functions frames pending left
  refine ⟨operand ++ closing ++ [⟨.eof, "", 0⟩], fun source => ⟨pending'.foldAll left', ?_⟩⟩
  rw [← List.append_assoc]
  apply parse_of_verdict?
  case ha =>
    simp [h, ho, hc]
    rfl
  case hv => simp [verdict?, step, stepOperator]

-- For each fault in the tokens of a text there is exactly one token at its place. The tokens before
-- this one can go on to a list that is accepted, and with it they cannot.
theorem parse_fault_at_first_hopeless_token {source : Source} {fault : ParseFault}
    (ht : tokenize source.text = .ok tokens)
    (hf : ((ofTokens functions source tokens).parse).1 = .error fault) :
    ∃ i, (∀ j, tokens[j]?.map (·.offset) = some fault.place.offset ↔ j = i) ∧
      (∃ more, ∀ source, Accepts functions source (tokens.take i ++ more)) ∧
      ∀ more source, ¬Accepts functions source (tokens.take (i + 1) ++ more) := by
  have hs := tokenStream_of_tokenize ht
  cases exists_verdict functions .start tokens
  case inl ha =>
    have ⟨state, ha⟩ := ha
    rw [after?_eq_none hs.exists_eof] at ha
    cases ha
  case inr hv =>
    have ⟨before, token, rest, state, result, hl, ha, hv⟩ := hv
    rw [hl, parse_of_verdict? ha hv] at hf
    rw [hf] at hv
    have htake : tokens.take (before.length + 1) = before ++ [token] := by
      rw [hl, List.append_cons]
      exact List.take_left' (by simp)
    refine ⟨before.length, ?_, ?_, ?_⟩
    · rw [place_of_verdict? hv]
      exact hs.offset_getElem?_iff (by simp [hl])
    · have : tokens.take before.length = before := by simp [hl]
      rw [this]
      exact exists_accepts ha
    · intro more source' ⟨tree, hp⟩
      rw [htake, List.append_assoc, List.singleton_append, parse_of_verdict? ha hv] at hp
      cases hp

set_option maxRecDepth 4000 in
theorem hopeless_token_in_open_group :
    let tokens : List Token :=
      [⟨.leftParen, "(", 0⟩, ⟨.identifier, "x", 1⟩, ⟨.identifier, "y", 3⟩, ⟨.eof, "", 4⟩]
    let fault : ParseFault := .unclosedGroup ⟨3, 1⟩ ⟨0, 1⟩
    tokenize "(x y" = .ok tokens ∧
    ((ofTokens .builtin ⟨none, "(x y"⟩ tokens).parse).1 = .error fault ∧
    ∃ i, (∀ j, tokens[j]?.map (·.offset) = some fault.place.offset ↔ j = i) ∧
      (∃ more, ∀ source, Accepts .builtin source (tokens.take i ++ more)) ∧
      ∀ more source, ¬Accepts .builtin source (tokens.take (i + 1) ++ more) := by
  intro tokens fault
  have ht : tokenize "(x y" = .ok tokens := by cbv
  have hf : ((ofTokens .builtin ⟨none, "(x y"⟩ tokens).parse).1 = .error fault := by cbv
  exact ⟨ht, hf, parse_fault_at_first_hopeless_token ht hf⟩

end Parser

end Reckoner
