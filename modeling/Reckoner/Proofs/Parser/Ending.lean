import Reckoner.Proofs.Parser.ViablePrefix

/-!
The end of input in the parser. Where the token of the end stands plays no part, but for the place
of a fault that is found there.
-/

namespace Reckoner

namespace ParseFault

-- The same fault in another place.
def foundAt (place : Span) : ParseFault → ParseFault
  | missingCallParen _ function => missingCallParen place function
  | unclosedCall _ opened       => unclosedCall place opened
  | unclosedGroup _ opened      => unclosedGroup place opened
  | unexpectedToken _ text      => unexpectedToken place text
  | unexpectedEnd _             => unexpectedEnd place.offset
  | trailingInput _ text        => trailingInput place text

theorem offset_place_foundAt (place : Span) (fault : ParseFault) :
    (fault.foundAt place).place.offset = place.offset := by
  cases fault <;> rfl

theorem message_foundAt (place : Span) (fault : ParseFault) :
    (fault.foundAt place).report.message = fault.report.message := by
  cases fault <;> rfl

end ParseFault

-- The token at the end of a text.
def Token.ending (offset : Nat) : Token :=
  ⟨.eof, "", offset⟩

namespace Parser

variable {functions : Functions}

theorem State.step_ending (functions : Functions) (state : State) (offset offset' : Nat) :
    (∃ tree, state.step functions (.ending offset) = .done tree ∧
      state.step functions (.ending offset') = .done tree) ∨
    ∃ fault, state.step functions (.ending offset) = .fail fault false ∧
      state.step functions (.ending offset') = .fail (fault.foundAt ⟨offset', 0⟩) false := by
  have ⟨frames, pending, expecting⟩ := state
  cases expecting
  case operand => exact .inr ⟨_, rfl, rfl⟩
  case callParen => exact .inr ⟨_, rfl, rfl⟩
  case operator left =>
    cases frames
    case nil => exact .inl ⟨_, rfl, rfl⟩
    case cons frame frames =>
      have ⟨opening, pending⟩ := frame
      cases opening <;> exact .inr ⟨_, rfl, rfl⟩

theorem State.verdict?_ending (functions : Functions) (state : State) (offset offset' : Nat) :
    ∃ result, state.verdict? functions (.ending offset) = some result ∧
      state.verdict? functions (.ending offset') =
        some (result.mapError (·.foundAt ⟨offset', 0⟩)) := by
  cases state.step_ending functions offset offset'
  case inl h =>
    obtain ⟨tree, h, h'⟩ := h
    refine ⟨.ok tree, ?_, ?_⟩
    · simp only [verdict?, h]
      rfl
    · simp only [verdict?, h']
      rfl
  case inr h =>
    obtain ⟨fault, h, h'⟩ := h
    refine ⟨.error fault, ?_, ?_⟩
    · simp only [verdict?, h]
    · simp only [verdict?, h', Except.mapError]

-- The tokens before the end decide, or the end does and the place of its fault moves with it.
theorem exists_results_ending (functions : Functions) (before : List Token)
    (offset offset' : Nat) :
    ∃ result result',
      (∀ source, ((ofTokens functions source (before ++ [.ending offset])).parse).1 = result) ∧
      (∀ source, ((ofTokens functions source (before ++ [.ending offset'])).parse).1 = result') ∧
      ((result' = result ∧ ∀ fault, result = .error fault →
        ∃ token ∈ before, fault.place.offset = token.offset) ∨
      (result' = result.mapError (·.foundAt ⟨offset', 0⟩) ∧ ∀ fault, result = .error fault →
        fault.place.offset = offset)) := by
  cases exists_verdict functions .start before
  case inl ha =>
    have ⟨state, ha⟩ := ha
    have ⟨result, hv, hv'⟩ := state.verdict?_ending functions offset offset'
    refine ⟨_, _, fun _ => parse_of_verdict? ha hv, fun _ => parse_of_verdict? ha hv',
      .inr ⟨rfl, fun fault hf => ?_⟩⟩
    rw [hf] at hv
    exact State.place_of_verdict? hv
  case inr hv =>
    obtain ⟨taken, token, rest, state, result, rfl, ha, hv⟩ := hv
    simp only [List.append_assoc, List.cons_append]
    refine ⟨_, _, fun _ => parse_of_verdict? ha hv, fun _ => parse_of_verdict? ha hv,
      .inl ⟨rfl, fun fault hf => ⟨token, by simp, ?_⟩⟩⟩
    rw [hf] at hv
    exact State.place_of_verdict? hv

end Parser

end Reckoner
