import Reckoner.Proofs.Parser.Soundness
import Reckoner.Proofs.Parser.ViablePrefix

/-!
One parser that reads one expression after another, on whatever tokens are left. Each call takes
some tokens and leaves the rest to the next one, also when it fails, and none goes past the end of
input. So the calls come to the end after as many of them as there are tokens.
-/

namespace Reckoner

namespace ParseFault

-- The fault tells of the token.
def IsAbout (token : Token) : ParseFault → Prop
  | missingCallParen found _ => found = token.span ∧ token.kind ≠ .leftParen
  | unclosedCall found _ | unclosedGroup found _ =>
    found = token.span ∧ token.kind ≠ .rightParen ∧ ∀ op, token.kind ≠ .operator op
  | unexpectedToken found text =>
    found = token.span ∧ text = token.text ∧
      (token.kind = .rightParen ∨ token.kind = .comma ∨ ∃ op, token.kind = .operator op)
  | unexpectedEnd offset => offset = token.offset ∧ token.kind = .eof
  | trailingInput .. => False

-- Whether the token that a fault is about is taken with it.
def isTaken : ParseFault → Bool
  | unexpectedToken .. => true
  | _ => false

theorem IsAbout.ne_eof {token : Token} {fault : ParseFault} (h : fault.IsAbout token)
    (ht : fault.isTaken = true) : token.kind ≠ .eof := by
  cases fault <;> cases ht
  case unexpectedToken =>
    have ⟨_, _, hk⟩ := h
    intro he
    simp [he] at hk

end ParseFault

theorem Derives.ne_nil {functions : Functions} {phrase : Phrase} {tokens : List Token} {tree : Tree}
    (h : Derives functions phrase tokens tree) : tokens ≠ [] := by
  induction h
  case operand hi => exact hi
  all_goals simp

namespace Parser

variable {functions : Functions} {source : Source} {state : State} {token : Token}
variable {taken rest tokens before : List Token} {result : Except ParseFault Tree} {parser : Parser}

theorem Opening.isAbout_unclosed (opening : Opening) (hp : token.kind ≠ .rightParen)
    (ho : ∀ op, token.kind ≠ .operator op) :
    (opening.unclosed token.span).IsAbout token ∧
      (opening.unclosed token.span).isTaken = false := by
  cases opening <;> exact ⟨⟨rfl, hp, ho⟩, rfl⟩

namespace State

theorem isAbout_of_step_eq_fail {fault : ParseFault} {taken : Bool}
    (h : state.step functions token = .fail fault taken) :
    fault.IsAbout token ∧ fault.isTaken = taken := by
  cases he : state.expecting <;> simp only [step, he] at h
  case operand =>
    unfold stepOperand at h
    split at h <;> (try split at h) <;> cases h
    all_goals simp_all [ParseFault.IsAbout, ParseFault.isTaken]
  case callParen =>
    unfold stepCallParen at h
    split at h <;> cases h
    simp_all [ParseFault.IsAbout, ParseFault.isTaken]
  case operator =>
    unfold stepOperator at h
    split at h <;> cases h
    case h_4 ho hp => exact Opening.isAbout_unclosed _ hp ho

-- The first token of an expression is only left if it is the end of input.
theorem unexpectedEnd_of_step_start_eq_fail {fault : ParseFault}
    (h : start.step functions token = .fail fault false) :
    fault = .unexpectedEnd token.offset := by
  simp only [step, start, stepOperand] at h
  split at h <;> (try split at h) <;> cases h
  rfl

-- No operator stands behind an expression that is complete.
theorem ne_operator_of_step_eq_done {tree : Tree} (h : state.step functions token = .done tree)
    (op : Operator) : token.kind ≠ .operator op := by
  intro hk
  have ⟨left, _, he, _⟩ := step_eq_done h
  simp [step, he, stepOperator, hk] at h

theorem not_eof_of_after? {state' : State} (h : state.after? functions tokens = some state') :
    ∀ token ∈ tokens, token.kind ≠ .eof := by
  intro token hm hk
  rw [after?_eq_none ⟨token, hm, hk⟩] at h
  cases h

end State

open State

-- What a call can give, by the tokens that it takes and those that it leaves.
inductive Outcome (functions : Functions) (source : Source) :
    List Token → List Token → Except ParseFault Tree → Prop
  -- The tokens run out.
  | runOut {taken : List Token} :
    Outcome functions source taken [] (.error (.unexpectedEnd source.byteSize))
  | tree {taken rest : List Token} {token : Token} {tree : Tree} :
    Derives functions .expression taken tree → (∀ op, token.kind ≠ .operator op) →
    Outcome functions source taken (token :: rest) (.ok tree)
  -- The fault is about a token that is left, and nothing is taken before the end of input.
  | left {taken rest : List Token} {token : Token} {fault : ParseFault} :
    fault.IsAbout token → fault.isTaken = false →
    (taken = [] → fault = .unexpectedEnd token.offset) →
    Outcome functions source taken (token :: rest) (.error fault)
  -- The fault is about the last token that is taken.
  | taken {before rest : List Token} {token : Token} {fault : ParseFault} :
    fault.IsAbout token → fault.isTaken = true →
    Outcome functions source (before ++ [token]) rest (.error fault)

-- What a call takes is no end of input, and the parser behind it has the rest.
theorem parseExpression_outcome (parser : Parser) :
    ∃ taken rest, parser.rest = taken ++ rest ∧ (∀ token ∈ taken, token.kind ≠ .eof) ∧
      parser.parseExpression.parser =
        ⟨parser.functions, parser.source, rest, parser.index + taken.length⟩ ∧
      Outcome parser.functions parser.source taken rest parser.parseExpression.result := by
  have ⟨functions, source, tokens, index⟩ := parser
  cases exists_verdict functions .start tokens
  case inl ha =>
    have ⟨state, ha⟩ := ha
    have ⟨hr, hp⟩ := readFrom_append source [] index ha
    rw [List.append_nil] at hr hp
    refine ⟨tokens, [], (List.append_nil _).symm, not_eof_of_after? ha, hp, ?_⟩
    rw [parseExpression, hr]
    exact .runOut
  case inr hv =>
    obtain ⟨before, token, rest, state, result, rfl, ha, hv⟩ := hv
    have he := not_eof_of_after? ha
    obtain ⟨hr, hp⟩ := readFrom_append source (token :: rest) index ha
    unfold verdict? at hv
    unfold parseExpression
    rw [hr, hp]
    cases hs : state.step functions token <;> simp only [hs, reduceCtorEq] at hv
    case done tree =>
      have hd := (reads_start.after? ha).done hs
      refine ⟨before, token :: rest, rfl, he, by simp [readFrom, hs], ?_⟩
      simpa [readFrom, hs] using .tree hd (ne_operator_of_step_eq_done hs)
    case fail fault taken =>
      obtain ⟨hf, ht⟩ := isAbout_of_step_eq_fail hs
      cases taken
      case false =>
        have hn (hn : before = []) : fault = .unexpectedEnd token.offset := by
          subst hn
          cases ha
          exact unexpectedEnd_of_step_start_eq_fail hs
        refine ⟨before, token :: rest, rfl, he, by simp [readFrom, hs], ?_⟩
        simpa [readFrom, hs] using .left hf ht hn
      case true =>
        have he' := List.forall_mem_append.mpr ⟨he, List.forall_mem_singleton.mpr (hf.ne_eof ht)⟩
        refine ⟨before ++ [token], rest, by simp, he', by simp [readFrom, hs, Nat.add_assoc], ?_⟩
        simpa [readFrom, hs] using .taken hf ht

-- No token is left before the end of input.
def Ended (parser : Parser) : Prop :=
  ∀ token ∈ parser.rest.head?, token.kind = .eof

-- At the end a call takes nothing.
theorem Ended.parseExpression (h : parser.Ended) :
    parser.parseExpression.parser = parser ∧
      ∃ offset, parser.parseExpression.result = .error (.unexpectedEnd offset) := by
  have ⟨functions, source, rest, index⟩ := parser
  cases rest
  case nil => exact ⟨rfl, source.byteSize, rfl⟩
  case cons token rest =>
    have hs : start.step functions token = .fail (.unexpectedEnd token.offset) false := by
      simp [step, start, stepOperand, h token rfl]
    simp [Parser.parseExpression, readFrom, hs]

namespace Outcome

-- Only before the end of input a call takes nothing.
theorem ended (h : Outcome functions source [] rest result) :
    ∀ token ∈ rest.head?, token.kind = .eof := by
  intro token hm
  generalize ht : ([] : List Token) = taken at h
  cases h
  case runOut => cases hm
  case tree hd => exact absurd ht.symm hd.ne_nil
  case left hf _ hn =>
    cases hm
    rw [hn ht.symm] at hf
    exact hf.2
  case taken => simp at ht

theorem derives {tree : Tree} (h : Outcome functions source taken rest (.ok tree)) :
    Derives functions .expression taken tree ∧
      ∃ token, rest.head? = some token ∧ ∀ op, token.kind ≠ .operator op := by
  cases h
  case tree ho hd => exact ⟨hd, _, rfl, ho⟩

-- The place of a fault among the tokens is where the call ends, or the last token that it takes.
theorem isAbout {fault : ParseFault} (h : Outcome functions source taken rest (.error fault)) :
    (rest = [] ∧ fault = .unexpectedEnd source.byteSize) ∨
      ∃ i token, (taken ++ rest)[i]? = some token ∧ fault.IsAbout token ∧
        taken.length = if fault.isTaken then i + 1 else i := by
  cases h
  case runOut => exact .inl ⟨rfl, rfl⟩
  case left token hf ht _ => exact .inr ⟨taken.length, token, by simp, hf, by simp [ht]⟩
  case taken before token hf ht => exact .inr ⟨before.length, token, by simp, hf, by simp [ht]⟩

end Outcome

-- The parser behind a number of calls, whatever they gave.
def afterCalls (parser : Parser) : Nat → Parser
  | 0 => parser
  | n + 1 => (parser.afterCalls n).parseExpression.parser

theorem Ended.afterCalls_add {n : Nat} (h : (parser.afterCalls n).Ended) (m : Nat) :
    parser.afterCalls (n + m) = parser.afterCalls n := by
  induction m
  case zero => rfl
  case succ m hi =>
    change (parser.afterCalls (n + m)).parseExpression.parser = _
    rw [hi]
    exact h.parseExpression.1

-- The parser stands behind some of the tokens, and no end of input is among these.
def StandsBehind (functions : Functions) (source : Source) (tokens before : List Token)
    (parser : Parser) : Prop :=
  ∃ rest, tokens = before ++ rest ∧ (∀ token ∈ before, token.kind ≠ .eof) ∧
    parser = ⟨functions, source, rest, before.length⟩

namespace StandsBehind

theorem index_eq (h : StandsBehind functions source tokens before parser) :
    parser.index = before.length := by
  obtain ⟨rest, _, _, rfl⟩ := h
  rfl

theorem rest_eq (h : StandsBehind functions source tokens before parser) :
    parser.rest = tokens.drop parser.index := by
  obtain ⟨rest, rfl, _, rfl⟩ := h
  simp

theorem index_le_findIdx (h : StandsBehind functions source tokens before parser) :
    parser.index ≤ tokens.findIdx (·.kind = .eof) := by
  obtain ⟨rest, rfl, he, rfl⟩ := h
  have hb : before.findIdx (·.kind = .eof) = before.length := by
    rw [List.findIdx_eq_length]
    simpa using he
  simp [List.findIdx_append, hb]

theorem call (h : StandsBehind functions source tokens before parser) :
    ∃ taken rest, tokens = before ++ taken ++ rest ∧
      StandsBehind functions source tokens (before ++ taken) parser.parseExpression.parser ∧
      Outcome functions source taken rest parser.parseExpression.result := by
  obtain ⟨rest, rfl, he, rfl⟩ := h
  have ⟨taken, rest', (hr : rest = taken ++ rest'), he', hp, ho⟩ :=
    parseExpression_outcome ⟨functions, source, rest, before.length⟩
  have he := List.forall_mem_append.mpr ⟨he, he'⟩
  exact ⟨taken, rest', by simp [hr], ⟨rest', by simp [hr], he, by simp [hp]⟩, ho⟩

-- A call takes a token as long as there is one.
theorem ended_or_lt (h : StandsBehind functions source tokens before parser) :
    parser.Ended ∨ parser.index < parser.parseExpression.parser.index := by
  have ⟨taken, rest, ht, h', ho⟩ := h.call
  cases taken
  case nil =>
    refine .inl fun token hm => ho.ended token ?_
    simpa [h.rest_eq, h.index_eq, ht] using hm
  case cons => simp [h.index_eq, h'.index_eq]

theorem afterCalls (h : StandsBehind functions source tokens before parser) (n : Nat) :
    ∃ before', StandsBehind functions source tokens before' (parser.afterCalls n) := by
  induction n
  case zero => exact ⟨before, h⟩
  case succ n hi =>
    have ⟨before', h'⟩ := hi
    have ⟨taken, _, _, h', _⟩ := h'.call
    exact ⟨before' ++ taken, h'⟩

-- Calls that are not at the end have taken a token each.
theorem ended_or_le_index (h : StandsBehind functions source tokens before parser) (n : Nat) :
    (parser.afterCalls n).Ended ∨ n ≤ (parser.afterCalls n).index := by
  induction n
  case zero => exact .inr (Nat.zero_le _)
  case succ n hi =>
    cases hi
    case inl he => exact .inl (he.afterCalls_add 1 ▸ he)
    case inr hle =>
      have ⟨before', h'⟩ := h.afterCalls n
      cases h'.ended_or_lt
      case inl he => exact .inl (he.afterCalls_add 1 ▸ he)
      case inr hlt => exact .inr (Nat.lt_of_le_of_lt hle hlt)

theorem ended (h : StandsBehind functions source tokens before parser) :
    (parser.afterCalls tokens.length).Ended := by
  cases h.ended_or_le_index tokens.length
  case inl he => exact he
  case inr hle =>
    have ⟨before', h'⟩ := h.afterCalls tokens.length
    intro token hm
    rw [h'.rest_eq, List.drop_of_length_le hle] at hm
    cases hm

end StandsBehind

-- One parser can be called any number of times on any tokens, whatever the calls give. No call goes
-- back or past the first end of input, and each one takes a token unless there is none left. It
-- ends behind the expression that it gives, or at the token that its fault is about. So after as
-- many calls as there are tokens all of them give one and the same fault.
theorem parseExpression_afterCalls (functions : Functions) (source : Source)
    (tokens : List Token) :
    let calls := (ofTokens functions source tokens).afterCalls
    (∀ n,
      let index := (calls n).index
      let next := (calls (n + 1)).index
      let result := (calls n).parseExpression.result
      (calls n).rest = tokens.drop index ∧
      (index ≤ next ∧ next ≤ tokens.findIdx (·.kind = .eof)) ∧
      ((∀ token, tokens[index]? = some token → token.kind ≠ .eof → index < next) ∧
        ((∀ token, tokens[index]? = some token → token.kind = .eof) →
          next = index ∧ ∃ offset, result = .error (.unexpectedEnd offset))) ∧
      (∀ tree, result = .ok tree →
        Derives functions .expression (tokens.extract index next) tree ∧
          ∃ token, tokens[next]? = some token ∧ ∀ op, token.kind ≠ .operator op) ∧
      ∀ fault, result = .error fault →
        (next = tokens.length ∧ fault = .unexpectedEnd source.byteSize) ∨
        ∃ i token, tokens[i]? = some token ∧ fault.IsAbout token ∧
          next = if fault.isTaken then i + 1 else i) ∧
    ∃ offset, ∀ n, tokens.length ≤ n →
      (calls n).parseExpression.result = .error (.unexpectedEnd offset) := by
  intro calls
  have hs : StandsBehind functions source tokens [] (ofTokens functions source tokens) :=
    ⟨tokens, rfl, by simp, rfl⟩
  constructor
  case left =>
    intro n index next result
    have ⟨before, h⟩ := hs.afterCalls n
    have ⟨taken, rest, ht, h', ho⟩ := h.call
    have hi : index = before.length := h.index_eq
    have hn : next = index + taken.length := by simp [hi, next, calls, afterCalls, h'.index_eq]
    have hat (i : Nat) : tokens[index + i]? = (taken ++ rest)[i]? := by
      simp [ht, hi, List.getElem?_append_right]
    have ho : Outcome functions source taken rest result := ho
    refine ⟨h.rest_eq, ⟨by omega, h'.index_le_findIdx⟩, ⟨?_, ?_⟩, ?_, ?_⟩
    · intro token hm hk
      refine h.ended_or_lt.resolve_left fun he => hk (he token ?_)
      simpa [h.rest_eq] using hm
    · intro he
      have he : (calls n).Ended := by simpa [Ended, calls, h.rest_eq] using he
      exact ⟨congrArg Parser.index he.parseExpression.1, he.parseExpression.2⟩
    · intro tree hr
      rw [hr] at ho
      have ⟨hd, token, hh, hk⟩ := ho.derives
      refine ⟨by simpa [ht, hi, hn] using hd, token, ?_, hk⟩
      rw [hn, hat, List.getElem?_append_right (Nat.le_refl _), Nat.sub_self]
      exact List.head?_eq_getElem?.symm.trans hh
    · intro fault hr
      rw [hr] at ho
      refine ho.isAbout.imp (fun ⟨hr, hf⟩ => ⟨?_, hf⟩) fun ⟨i, token, hm, hf, hl⟩ => ?_
      · simp [hn, hi, ht, hr]
      · refine ⟨index + i, token, (hat i).trans hm, hf, ?_⟩
        rw [hn, hl]
        split <;> rfl
  case right =>
    have ⟨offset, hr⟩ := hs.ended.parseExpression.2
    refine ⟨offset, fun n hn => ?_⟩
    obtain ⟨m, rfl⟩ := Nat.exists_eq_add_of_le hn
    rw [← hr]
    simp only [calls, hs.ended.afterCalls_add]

end Parser

end Reckoner
