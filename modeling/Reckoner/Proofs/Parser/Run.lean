import Mathlib
import Reckoner.Parser

/-!
Runs of the parser. A list of tokens splits into the tokens that are taken one after the other and
the first token that decides about the list, if there is one. What follows this token plays no part.
What is recorded on the way is one event for each operator that is taken.
-/

namespace Reckoner.Parser

variable {functions : Functions} {source : Source} {state state' : State}
variable {before rest tokens : List Token} {token : Token} {result : Except ParseFault Tree}
variable {op : Operator}

-- The state behind a token that is taken without a fault.
def Step.next? : Step → Option State
  | shift state | fold _ state => some state
  | done _ | fail .. => none

namespace State

-- The state behind some tokens, if all of them are taken without a fault.
def after? (functions : Functions) (state : State) (tokens : List Token) : Option State :=
  tokens.foldlM (fun state token => (state.step functions token).next?) state

-- What a token decides about the list of tokens that it stands in, if it decides at all.
def verdict? (functions : Functions) (state : State) (token : Token) :
    Option (Except ParseFault Tree) :=
  match state.step functions token with
  | .shift _ | .fold .. => none
  | .done tree =>
    some (if token.kind = .eof then .ok tree else .error (.trailingInput token.span token.text))
  | .fail fault _ => some (.error fault)

@[simp]
theorem after?_nil : state.after? functions [] = some state :=
  rfl

@[simp]
theorem after?_cons : state.after? functions (token :: tokens) =
    (state.step functions token).next? >>= (·.after? functions tokens) := by
  simp [after?]

@[simp]
theorem after?_append : state.after? functions (before ++ rest) =
    state.after? functions before >>= (·.after? functions rest) := by
  simp [after?]

-- A token is either taken or decides.
theorem verdict?_eq_none_iff :
    state.verdict? functions token = none ↔
      ∃ next, (state.step functions token).next? = some next := by
  cases h : state.step functions token <;> simp [verdict?, h, Step.next?]

-- What each token that is taken keeps, a run keeps.
theorem keeps_after? {holds : List Token → State → Prop}
    (hs : ∀ {before token state next}, holds before state →
      (state.step functions token).next? = some next → holds (before ++ [token]) next)
    (h : holds before state) (ha : state.after? functions tokens = some state') :
    holds (before ++ tokens) state' := by
  induction tokens generalizing state before
  case nil =>
    cases ha
    simpa using h
  case cons token tokens hi =>
    simp only [after?_cons, Option.bind_eq_bind, Option.bind_eq_some_iff] at ha
    have ⟨middle, hm, ha⟩ := ha
    simpa using hi (hs h hm) ha

-- An operator is folded and never shifted, and nothing else is folded.
theorem operator_of_step_eq_fold (h : state.step functions token = .fold op state') :
    token.kind = .operator op := by
  cases he : state.expecting <;> simp only [step, he] at h
  case operand => unfold stepOperand at h; split at h <;> (try split at h) <;> cases h
  case callParen => unfold stepCallParen at h; split at h <;> cases h
  case operator =>
    unfold stepOperator at h
    split at h <;> cases h
    case h_1 hk => exact hk

theorem ne_operator_of_step_eq_shift (h : state.step functions token = .shift state')
    (op : Operator) : token.kind ≠ .operator op := by
  intro hk
  cases he : state.expecting <;>
    simp [step, he, stepOperand, stepCallParen, stepOperator, hk] at h

end State

open State

-- The operators of some tokens with their indices, the first token having the given one.
def foldings (tokens : List Token) (index : Nat) : List Event :=
  (tokens.zipIdx index).filterMap fun (token, index) =>
    match token.kind with
    | .operator op => some (.folding op index)
    | _ => none

theorem foldings_cons_of_operator (hk : token.kind = .operator op) (index : Nat) :
    foldings (token :: tokens) index = .folding op index :: foldings tokens (index + 1) := by
  simp [foldings, List.zipIdx_cons, hk]

theorem foldings_cons_of_ne_operator (hk : ∀ op, token.kind ≠ .operator op) (index : Nat) :
    foldings (token :: tokens) index = foldings tokens (index + 1) := by
  cases h : token.kind
  case operator op => exact absurd h (hk op)
  all_goals simp [foldings, List.zipIdx_cons, h]

-- A run goes on behind tokens that are taken as it would from their end, and what it records on
-- them is one event for each operator.
theorem readFrom_append_eq (source : Source) (rest : List Token) (index : Nat)
    (h : state.after? functions before = some state') :
    readFrom functions source state (before ++ rest) index =
      let reading := readFrom functions source state' rest (index + before.length)
      { reading with events := foldings before index ++ reading.events } := by
  induction before generalizing state index
  case nil =>
    cases h
    simp [foldings]
  case cons token before hi =>
    rw [after?_cons] at h
    have hl : index + 1 + before.length = index + (token :: before).length := by
      simp [Nat.add_assoc, Nat.add_comm 1]
    cases hs : state.step functions token <;>
      simp only [hs, Step.next?, Option.bind_eq_bind, Option.bind_some, Option.bind_none,
        reduceCtorEq] at h
    case shift =>
      have hn := @foldings_cons_of_ne_operator before token (ne_operator_of_step_eq_shift hs) index
      simp only [List.cons_append, readFrom, hs, hi (index + 1) h, hn, hl]
    case fold =>
      have ho := @foldings_cons_of_operator before token _ (operator_of_step_eq_fold hs) index
      simp only [List.cons_append, readFrom, hs, hi (index + 1) h, ho, hl]

theorem readFrom_append (source : Source) (rest : List Token) (index : Nat)
    (h : state.after? functions before = some state') :
    (readFrom functions source state (before ++ rest) index).result =
      (readFrom functions source state' rest (index + before.length)).result ∧
    (readFrom functions source state (before ++ rest) index).parser =
      (readFrom functions source state' rest (index + before.length)).parser := by
  rw [readFrom_append_eq source rest index h]
  exact ⟨rfl, rfl⟩

-- The tokens run out, or there is a first one that decides.
theorem exists_verdict (functions : Functions) (state : State) (tokens : List Token) :
    (∃ state', state.after? functions tokens = some state') ∨
    ∃ before token rest state' result, tokens = before ++ token :: rest ∧
      state.after? functions before = some state' ∧
      state'.verdict? functions token = some result := by
  induction tokens generalizing state
  case nil => exact .inl ⟨state, rfl⟩
  case cons token tokens hi =>
    cases hv : state.verdict? functions token
    case some result => exact .inr ⟨[], token, tokens, state, result, rfl, rfl, hv⟩
    case none =>
      have ⟨next, hn⟩ := verdict?_eq_none_iff.mp hv
      cases hi next
      case inl h =>
        have ⟨state', h⟩ := h
        exact .inl ⟨state', by simp [hn, h]⟩
      case inr h =>
        have ⟨before, token', rest, state', result, ht, ha, hv'⟩ := h
        refine .inr ⟨token :: before, token', rest, state', result, by simp [ht], ?_, hv'⟩
        simp [hn, ha]

-- The first token that decides gives the result, whatever follows it.
theorem parse_of_verdict? (ha : State.start.after? functions before = some state)
    (hv : state.verdict? functions token = some result) :
    ((ofTokens functions source (before ++ token :: rest)).parse).1 = result := by
  have ⟨hr, hp⟩ := readFrom_append source (token :: rest) 0 ha
  unfold verdict? at hv
  cases hs : state.step functions token <;>
    simp only [hs, reduceCtorEq, Option.some.injEq] at hv <;> subst hv
  case done tree =>
    simp only [parse, parseExpression, ofTokens, hr, hp]
    simp only [readFrom, hs]
    split <;> rfl
  case fail fault taken =>
    cases taken <;> simp only [parse, parseExpression, ofTokens, hr, readFrom, hs]

-- Without a token that decides, the input ends too early.
theorem parse_of_after? (ha : State.start.after? functions tokens = some state) :
    ((ofTokens functions source tokens).parse).1 = .error (.unexpectedEnd source.byteSize) := by
  have ⟨hr, _⟩ := readFrom_append source [] 0 ha
  rw [List.append_nil] at hr
  simp only [parse, parseExpression, ofTokens, hr, readFrom]

end Reckoner.Parser
