import Mathlib
import Reckoner.Calculation

/-!
The stages of a calculation. A source has a tree exactly if its text has tokens and these parse, and
a calculation is that of the tree.
-/

namespace Reckoner

variable {functions : Functions} {source : Source} {tree : Tree}

theorem result_build_of_fault {fault : LexFault} (h : tokenize source.text = .error fault) :
    (build functions source).result = .error (.lex source fault) := by
  simp only [build, tokens, h]

theorem result_build_of_tokens {tokens : List Token} (h : tokenize source.text = .ok tokens) :
    (build functions source).result =
      ((Parser.ofTokens functions source tokens).parse).1.mapError (.parse source) := by
  simp only [build, Reckoner.tokens, h]
  cases (Parser.ofTokens functions source tokens).parse
  case mk result events => cases result <;> rfl

theorem build_eq_ok_iff : (build functions source).result = .ok tree ↔
    ∃ tokens, tokenize source.text = .ok tokens ∧
      ((Parser.ofTokens functions source tokens).parse).1 = .ok tree := by
  cases ht : tokenize source.text
  case error => simp [result_build_of_fault ht]
  case ok tokens =>
    rw [result_build_of_tokens ht]
    cases hp : ((Parser.ofTokens functions source tokens).parse).1 <;> simp [hp, Except.mapError]

-- The faults of a source without a tree are those of its text and its tokens.
theorem build_ne_eval (functions : Functions) (source : Source) (fault : EvalFault) :
    (build functions source).result ≠ .error (.eval fault) := by
  cases ht : tokenize source.text
  case error => simp [result_build_of_fault ht]
  case ok tokens =>
    rw [result_build_of_tokens ht]
    cases ((Parser.ofTokens functions source tokens).parse).1 <;> simp [Except.mapError]

namespace Event

theorem askedNames_append (events more : List Event) :
    askedNames (events ++ more) = askedNames events ++ askedNames more :=
  List.filterMap_append

-- The events of reading a source.
def OfReading : Event → Prop
  | tokenized _ | folding .. | parsed _   => True
  | asking _ | inputClosed _ | applied .. => False

-- The input ended where a value was due.
def closes : Event → Bool
  | inputClosed _ => true
  | _             => false

theorem OfReading.closes_eq_false {event : Event} (h : event.OfReading) : event.closes = false := by
  cases event
  case inputClosed => exact h.elim
  all_goals rfl

-- Whatever state the tokens are read from.
theorem ofReading_readFrom (functions : Functions) (source : Source) (state : Parser.State)
    (tokens : List Token) (index : Nat) :
    ∀ event ∈ (Parser.readFrom functions source state tokens index).events, event.OfReading := by
  induction tokens generalizing state index
  case nil => exact List.forall_mem_nil _
  case cons token tokens hi =>
    unfold Parser.readFrom
    cases state.step functions token
    case fail fault taken => cases taken <;> exact List.forall_mem_nil _
    case shift state => exact hi state (index + 1)
    case fold op state => exact List.forall_mem_cons.mpr ⟨trivial, hi state (index + 1)⟩
    case done => exact List.forall_mem_nil _

theorem ofReading_parse (parser : Parser) : ∀ event ∈ parser.parse.2, event.OfReading := by
  have hr : ∀ event ∈ parser.parseExpression.events, event.OfReading :=
    ofReading_readFrom _ _ _ _ _
  unfold Parser.parse
  simp only
  split
  case h_1 => exact hr
  case h_2 => exact hr
  case h_3 =>
    split
    case isTrue => exact List.forall_mem_append.mpr ⟨hr, List.forall_mem_singleton.mpr trivial⟩
    case isFalse => exact hr

theorem ofReading_build (functions : Functions) (source : Source) :
    ∀ event ∈ (build functions source).events, event.OfReading := by
  unfold build tokens
  cases tokenize source.text
  case error => exact List.forall_mem_nil _
  case ok tokens =>
    have hp := ofReading_parse (Parser.ofTokens functions source tokens)
    cases h : (Parser.ofTokens functions source tokens).parse
    case mk result events =>
      rw [h] at hp
      simp only [h]
      cases result <;> exact List.forall_mem_cons.mpr ⟨trivial, hp⟩

-- Nothing is asked for while a source is read.
theorem askedNames_build (functions : Functions) (source : Source) :
    askedNames (build functions source).events = [] := by
  refine List.filterMap_eq_nil_iff.mpr fun event hm => ?_
  have h := ofReading_build functions source event hm
  cases event
  case asking => exact h.elim
  all_goals rfl

end Event

variable {σ : Type} {environment : Environment} {resolver : Resolver σ} {state : σ}

namespace Environment

theorem calculate_of_build (h : (build environment.functions source).result = .ok tree) :
    environment.calculate resolver source state =
      { environment.evaluate resolver tree state with
        events := (build environment.functions source).events ++
          (environment.evaluate resolver tree state).events } := by
  unfold calculate
  cases hb : build environment.functions source
  case mk result events =>
    rw [hb] at h
    cases h
    rfl

theorem calculate_of_build_error {error : Error}
    (h : (build environment.functions source).result = .error error) :
    environment.calculate resolver source state =
      ⟨.error error, environment, state, (build environment.functions source).events⟩ := by
  unfold calculate
  cases hb : build environment.functions source
  case mk result events =>
    rw [hb] at h
    cases h
    rfl

-- A tree that fails to be evaluated has a fault of the evaluation.
theorem exists_fault_of_evaluate {error : Error}
    (h : (environment.evaluate resolver tree state).result = .error error) :
    ∃ fault, error = .eval fault := by
  unfold evaluate at h
  cases hr :
    (Reckoner.evaluate environment.functions resolver tree environment.variables state).result
  all_goals simp [hr, Except.mapError] at h
  case error fault => exact ⟨fault, h.symm⟩

theorem result_evaluate_eq_error_iff {fault : EvalFault} :
    (environment.evaluate resolver tree state).result = .error (.eval fault) ↔
      (Reckoner.evaluate environment.functions resolver tree environment.variables state).result =
        .error fault := by
  unfold evaluate
  cases h :
    (Reckoner.evaluate environment.functions resolver tree environment.variables state).result
  all_goals simp [h, Except.mapError]

theorem result_evaluate_eq_ok_iff {value : Float} :
    (environment.evaluate resolver tree state).result = .ok value ↔
      (Reckoner.evaluate environment.functions resolver tree environment.variables state).result =
        .ok value := by
  unfold evaluate
  cases h :
    (Reckoner.evaluate environment.functions resolver tree environment.variables state).result
  all_goals simp [h, Except.mapError]

theorem result_calculate_eq_error {fault : EvalFault}
    (h : (environment.calculate resolver source state).result = .error (.eval fault)) :
    ∃ tree, (build environment.functions source).result = .ok tree ∧
      (environment.evaluate resolver tree state).result = .error (.eval fault) := by
  unfold calculate at h
  cases hb : build environment.functions source
  case mk result events =>
    have hne := build_ne_eval environment.functions source fault
    cases result <;> simp only [hb] at h hne
    case error => exact absurd (congrArg Except.error (Except.error.inj h)) hne
    case ok tree => exact ⟨tree, rfl, h⟩

end Environment

end Reckoner
