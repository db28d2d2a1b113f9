import Reckoner.Proofs.Parser.Resumption

/-!
The parser decides at one token. With this token its outcome is fixed, whatever follows, and as long
as this token has not come the input ends too early.
-/

namespace Reckoner

-- The fault is reported at the token.
def ParseFault.ReportedAt (token : Token) : ParseFault → Prop
  | unexpectedEnd offset => offset = token.offset ∧ token.kind = .eof
  | fault => fault.place = token.span

theorem ParseFault.IsAbout.reportedAt {token : Token} {fault : ParseFault}
    (h : fault.IsAbout token) : fault.ReportedAt token := by
  cases fault
  case unexpectedEnd => exact h
  case trailingInput => exact h.elim
  all_goals exact h.1

namespace Parser

variable {functions : Functions} {source : Source} {state state' : State} {token : Token}
variable {tokens before rest : List Token}

-- The index of the token that decides. A parser stands at this token, or directly behind it if the
-- token is taken as a fault. If the tokens run out, it is the index behind the last one.
def decision (parser : Parser) : Nat :=
  let reading := parser.parseExpression
  match reading.result with
  | .ok _ => reading.parser.index
  | .error fault => if fault.isTaken then reading.parser.index - 1 else reading.parser.index

theorem decision_of_after? (ha : State.start.after? functions tokens = some state) :
    (ofTokens functions source tokens).decision = tokens.length := by
  have ⟨hr, hp⟩ := readFrom_append source [] 0 ha
  rw [List.append_nil] at hr hp
  simp [decision, parseExpression, ofTokens, hr, hp, readFrom, ParseFault.isTaken]

theorem decision_of_verdict? {result : Except ParseFault Tree}
    (ha : State.start.after? functions before = some state)
    (hv : state.verdict? functions token = some result) :
    (ofTokens functions source (before ++ token :: rest)).decision = before.length := by
  have ⟨hr, hp⟩ := readFrom_append source (token :: rest) 0 ha
  unfold State.verdict? at hv
  simp only [decision, parseExpression, ofTokens, hr, hp]
  cases hs : state.step functions token <;> simp only [hs, reduceCtorEq] at hv
  case done => simp [readFrom, hs]
  case fail fault taken =>
    obtain ⟨_, ht⟩ := State.isAbout_of_step_eq_fail hs
    cases taken <;> simp [readFrom, hs, ht]

namespace State

theorem eof_of_verdict? {tree : Tree} (h : state.verdict? functions token = some (.ok tree)) :
    token.kind = .eof := by
  unfold verdict? at h
  cases hs : state.step functions token <;> simp only [hs, reduceCtorEq, Option.some.injEq] at h
  case done =>
    split at h
    case isTrue hk => exact hk
    case isFalse => cases h

theorem reportedAt_of_verdict? {fault : ParseFault}
    (h : state.verdict? functions token = some (.error fault)) : fault.ReportedAt token := by
  unfold verdict? at h
  cases hs : state.step functions token <;> simp only [hs, reduceCtorEq, Option.some.injEq] at h
  case done =>
    split at h <;> cases h
    rfl
  case fail =>
    cases h
    exact (isAbout_of_step_eq_fail hs).1.reportedAt

theorem exists_after?_take (h : state.after? functions tokens = some state') (n : Nat) :
    ∃ middle, state.after? functions (tokens.take n) = some middle := by
  rw [← List.take_append_drop n tokens, after?_append, Option.bind_eq_bind,
    Option.bind_eq_some_iff] at h
  exact ⟨h.choose, h.choose_spec.1⟩

end State

-- A list with the same tokens up to one of them goes on behind this one.
theorem exists_eq_append_of_take_eq {other : List Token}
    (h : other.take (before.length + 1) = (before ++ token :: rest).take (before.length + 1)) :
    ∃ rest', other = before ++ token :: rest' := by
  refine ⟨other.drop (before.length + 1), ?_⟩
  calc
    other = other.take (before.length + 1) ++ other.drop (before.length + 1) :=
      (List.take_append_drop _ _).symm
    _ = before ++ [token] ++ other.drop (before.length + 1) := by
      rw [h, List.append_cons, List.take_left' (by simp)]
    _ = before ++ token :: other.drop (before.length + 1) := (List.append_cons ..).symm

-- Tokens that are taken are too few, and so is each part of them from the start.
theorem parse_take (ha : State.start.after? functions before = some state) {n : Nat}
    (hn : n ≤ before.length) (rest : List Token) :
    ((ofTokens functions source ((before ++ rest).take n)).parse).1 =
      .error (.unexpectedEnd source.byteSize) := by
  have ⟨_, ha⟩ := State.exists_after?_take ha n
  rw [List.take_append_of_le_length hn]
  exact parse_of_after? ha

-- The parser decides at one token, unless the tokens run out: at the end of input behind an
-- expression, or at the token that its fault is reported at. All lists with the same tokens up to
-- this one have the same outcome, and with only some of the tokens before it the input ends too
-- early.
theorem parse_online (functions : Functions) (source : Source) (tokens : List Token) :
    let outcome (tokens : List Token) := ((ofTokens functions source tokens).parse).1
    let i := (ofTokens functions source tokens).decision
    (i = tokens.length ∧ outcome tokens = .error (.unexpectedEnd source.byteSize) ∨
      ∃ token, tokens[i]? = some token ∧
        (∀ tree, outcome tokens = .ok tree → token.kind = .eof) ∧
        ∀ fault, outcome tokens = .error fault → fault.ReportedAt token) ∧
    (i < tokens.length → ∀ other, other.take (i + 1) = tokens.take (i + 1) →
      outcome other = outcome tokens) ∧
    ∀ n ≤ i, outcome (tokens.take n) = .error (.unexpectedEnd source.byteSize) := by
  intro outcome i
  cases exists_verdict functions .start tokens
  case inl ha =>
    have ⟨state, ha⟩ := ha
    have hi : i = tokens.length := decision_of_after? ha
    refine ⟨.inl ⟨hi, parse_of_after? ha⟩, fun hlt => absurd hi hlt.ne, fun n hn => ?_⟩
    simpa using parse_take ha (hi ▸ hn) []
  case inr hv =>
    obtain ⟨before, token, rest, state, result, rfl, ha, hv⟩ := hv
    have hi : i = before.length := decision_of_verdict? ha hv
    have hr : outcome (before ++ token :: rest) = result := parse_of_verdict? ha hv
    rw [hi, hr]
    refine ⟨.inr ⟨token, by simp, ?_, ?_⟩, fun _ other ho => ?_, fun n hn => ?_⟩
    · intro tree ht
      exact State.eof_of_verdict? (ht ▸ hv)
    · intro fault hf
      exact State.reportedAt_of_verdict? (hf ▸ hv)
    · obtain ⟨rest', rfl⟩ := exists_eq_append_of_take_eq ho
      exact parse_of_verdict? ha hv
    · exact parse_take ha hn (token :: rest)

end Parser

end Reckoner
