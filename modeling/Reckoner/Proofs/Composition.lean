import Reckoner.Proofs.Evaluation.Faults
import Reckoner.Proofs.Infix
import Reckoner.Proofs.Lexer.Embedding
import Reckoner.Proofs.Parser.Soundness

/-!
Texts that are put together from texts. A text that has a tree is read as this tree wherever it
stands in parentheses. So a text of two such texts around an operator is calculated by calculating
them one after the other, and the text of a call by calculating that of its argument.
-/

namespace Reckoner

open Text Lexer

namespace Tree

variable {functions : Functions} {origin : Option String} {text : String} {tree : Tree}

-- What has a tree on its own is read as this tree in all surroundings that it cannot go on into.
theorem readAs_of_build (h : (build functions ⟨origin, text⟩).result = .ok tree) :
    ReadAs functions .expression text.toList tree := by
  intro offset rest hd
  have ⟨tokens, ht, hp⟩ := build_eq_ok_iff.mp h
  obtain ⟨before, token, more, rfl, hk, hder⟩ := Parser.derives_of_parse hp
  have hy := yields_append rfl (tokenize_eq_ok_iff.mp ht) hk hd offset
  exact ⟨_, _, by simpa [ofText] using hy, hder.shift offset⟩

theorem build_of_readAs (h : ReadAs functions .expression text.toList tree) :
    (build functions ⟨origin, text⟩).result = .ok tree := by
  have ⟨tokens, offset, hy, ht⟩ := h 0 [] delimits_nil
  rw [Yields, items_end, List.append_nil] at hy
  refine build_eq_ok_iff.mpr ⟨tokens ++ [⟨.eof, "", offset⟩], ?_, ?_⟩
  · simpa [tokenize_eq_ok_iff, ofText] using hy
  · exact Parser.parse_of_derives ht rfl

theorem build_binary {op : Operator} {a b : String} {left right : Tree}
    (ha : (build functions ⟨origin, a⟩).result = .ok left)
    (hb : (build functions ⟨origin, b⟩).result = .ok right) :
    (build functions
      ⟨origin, "(" ++ a ++ ")" ++ op.symbol.toString ++ "(" ++ b ++ ")"⟩).result =
        .ok (.binary op left right) := by
  have hl := ((readAs_of_build ha).group blank_nil blank_nil).loosen op.phrase.level_le_factor
  have hr := ((readAs_of_build hb).group blank_nil blank_nil).loosen
    op.phrase.operand.level_le_factor
  have h : ReadAs functions .expression _ _ :=
    (hl.binary hr blank_nil blank_nil).loosen op.phrase.level_pos
  exact build_of_readAs (by simpa using h)

theorem build_call {function : String} (hn : IsName function)
    (hf : functions.contains function = true)
    (h : (build functions ⟨origin, text⟩).result = .ok tree) :
    (build functions ⟨origin, function ++ "(" ++ text ++ ")"⟩).result =
      .ok (.call function tree) := by
  have hc : ReadAs functions .expression _ _ :=
    ((readAs_of_build h).call hn hf blank_nil blank_nil blank_nil).loosen
      Phrase.expression.level_le_factor
  exact build_of_readAs (by simpa using hc)

end Tree

variable {σ : Type} {resolver : Resolver σ} {environment : Environment} {state : σ}

namespace Environment

variable {left right argument : Tree} {op : Operator} {name : String} {function : Float → Float}

theorem evaluate_binary_of_error {error : Error}
    (h : (environment.evaluate resolver left state).result = .error error) :
    environment.evaluate resolver (.binary op left right) state =
      environment.evaluate resolver left state := by
  obtain ⟨fault, rfl⟩ := exists_fault_of_evaluate h
  have hx := result_evaluate_eq_error_iff.mp h
  simp only [evaluate, Reckoner.evaluate, Evaluation.andThen, hx]

theorem evaluate_binary_of_ok {x : Float}
    (h : (environment.evaluate resolver left state).result = .ok x) :
    let first := environment.evaluate resolver left state
    let second := first.environment.evaluate resolver right first.resolver
    environment.evaluate resolver (.binary op left right) state =
      { second with
        result := second.result.map (op.apply x)
        events := first.events ++ second.events } := by
  have hx := result_evaluate_eq_ok_iff.mp h
  simp only [evaluate, Reckoner.evaluate, Evaluation.andThen, hx]
  split
  case h_1 hy => simp [hy, Except.mapError, Except.map]
  case h_2 hy => simp [hy, Except.mapError, Except.map, Evaluation.value]

theorem evaluate_call_of_error {error : Error}
    (hf : environment.functions.get? name = some function)
    (h : (environment.evaluate resolver argument state).result = .error error) :
    environment.evaluate resolver (.call name argument) state =
      environment.evaluate resolver argument state := by
  obtain ⟨fault, rfl⟩ := exists_fault_of_evaluate h
  have hx := result_evaluate_eq_error_iff.mp h
  simp only [evaluate, Reckoner.evaluate, Evaluation.andThen, hf, hx]

theorem evaluate_call_of_ok {x : Float} (hf : environment.functions.get? name = some function)
    (h : (environment.evaluate resolver argument state).result = .ok x) :
    let first := environment.evaluate resolver argument state
    environment.evaluate resolver (.call name argument) state =
      { first with
        result := .ok (function x)
        events := first.events ++ [.applied name x (function x)] } := by
  have hx := result_evaluate_eq_ok_iff.mp h
  simp only [evaluate, Reckoner.evaluate, Evaluation.andThen, hf, hx, Except.mapError]

end Environment

-- What comes of a calculation for whoever makes it. This is not the whole log, which also tells how
-- the source was read.
structure Calculation.Outcome (σ : Type) where
  result : Except Error Float
  environment : Environment
  resolver : σ
  asked : List String

def Calculation.outcome (calculation : Calculation σ) : Outcome σ where
  result := calculation.result
  environment := calculation.environment
  resolver := calculation.resolver
  asked := Event.askedNames calculation.events

theorem outcome_calculate_of_build {source : Source} {tree : Tree}
    (h : (build environment.functions source).result = .ok tree) :
    (environment.calculate resolver source state).outcome =
      (environment.evaluate resolver tree state).outcome := by
  rw [Environment.calculate_of_build h]
  simp only [Calculation.outcome, Event.askedNames_append, Event.askedNames_build,
    List.nil_append]

-- A text of two texts in parentheses around an operator is calculated by calculating the two with
-- one resolver, the second one in the environment that the first one leaves, and not at all if the
-- first one fails. The text of a call is calculated by calculating that of its argument.
theorem outcome_calculate_composed {environment : Environment} {origin : Option String} {a : String}
    {left : Tree} (ha : (build environment.functions ⟨origin, a⟩).result = .ok left)
    (resolver : Resolver σ) (state : σ) :
    let first := environment.calculate resolver ⟨origin, a⟩ state
    (∀ (op : Operator) b right, (build environment.functions ⟨origin, b⟩).result = .ok right →
      let second := first.environment.calculate resolver ⟨origin, b⟩ first.resolver
      let whole := environment.calculate resolver
        ⟨origin, "(" ++ a ++ ")" ++ op.symbol.toString ++ "(" ++ b ++ ")"⟩ state
      (∀ error, first.result = .error error → whole.outcome = first.outcome) ∧
      ∀ x, first.result = .ok x → whole.outcome =
        { second.outcome with
          result := second.result.map (op.apply x)
          asked := first.outcome.asked ++ second.outcome.asked }) ∧
    ∀ name function, Tree.IsName name → environment.functions.get? name = some function →
      let whole := environment.calculate resolver ⟨origin, name ++ "(" ++ a ++ ")"⟩ state
      (∀ error, first.result = .error error → whole.outcome = first.outcome) ∧
      ∀ x, first.result = .ok x →
        whole.outcome = { first.outcome with result := .ok (function x) } := by
  intro first
  let evaluated := environment.evaluate resolver left state
  have ho : first.outcome = evaluated.outcome := outcome_calculate_of_build ha
  have hr : first.result = evaluated.result := congrArg (·.result) ho
  have he : first.environment = evaluated.environment := congrArg (·.environment) ho
  have hs : first.resolver = evaluated.resolver := congrArg (·.resolver) ho
  constructor
  case left =>
    intro op b right hb second whole
    have hw : whole.outcome = _ := outcome_calculate_of_build (Tree.build_binary ha hb)
    constructor
    case left =>
      intro error h
      rw [hw, ho, Environment.evaluate_binary_of_error (hr ▸ h)]
    case right =>
      intro x h
      have hb : (build evaluated.environment.functions ⟨origin, b⟩).result = .ok right := hb
      have ho' : second.outcome =
          (evaluated.environment.evaluate resolver right evaluated.resolver).outcome := by
        rw [← outcome_calculate_of_build hb, ← he, ← hs]
      change whole.outcome = { second.outcome with
        result := second.outcome.result.map (op.apply x)
        asked := first.outcome.asked ++ second.outcome.asked }
      rw [ho, ho', hw, Environment.evaluate_binary_of_ok (hr ▸ h)]
      simp only [Calculation.outcome, Event.askedNames_append, evaluated]
  case right =>
    intro name function hn hf whole
    have hc : environment.functions.contains name = true := by
      simp [Functions.contains_eq_isSome_get?, hf]
    have hw : whole.outcome = _ := outcome_calculate_of_build (Tree.build_call hn hc ha)
    constructor
    case left =>
      intro error h
      rw [hw, ho, Environment.evaluate_call_of_error hf (hr ▸ h)]
    case right =>
      intro x h
      rw [hw, ho, Environment.evaluate_call_of_ok hf (hr ▸ h)]
      simp [Calculation.outcome, Event.askedNames, evaluated]

set_option maxRecDepth 4000 in
theorem outcome_of_undefined_on_the_right :
    let environment := Environment.withBuiltins.define "x" 1
    let whole := environment.calculate .sequence ⟨none, "(x - ln(y))*(x^z)"⟩ [some 2, none]
    let call := environment.calculate .sequence ⟨none, "cos(x - ln(y))"⟩ [some 2, none]
    whole.outcome =
      ⟨.error (.eval (.undefinedVariable "z")), environment.define "y" 2, [], ["y", "z"]⟩ ∧
    call.outcome = ⟨.ok (1 - Float.log 2).cos, environment.define "y" 2, [none], ["y"]⟩ := by
  intro environment whole call
  let first := environment.calculate .sequence ⟨none, "x - ln(y)"⟩ [some 2, none]
  let second := first.environment.calculate .sequence ⟨none, "x^z"⟩ first.resolver
  have ha : (build environment.functions ⟨none, "x - ln(y)"⟩).result =
    .ok (.binary .minus (.var "x") (.call "ln" (.var "y"))) := by cbv
  have hb : (build environment.functions ⟨none, "x^z"⟩).result =
    .ok (.binary .power (.var "x") (.var "z")) := by cbv
  have ho : first.outcome = ⟨.ok (1 - Float.log 2), environment.define "y" 2, [none], ["y"]⟩ :=
    (outcome_calculate_of_build ha).trans rfl
  have hx : first.result = .ok (1 - Float.log 2) := congrArg (·.result) ho
  have he : first.environment = environment.define "y" 2 := congrArg (·.environment) ho
  have hs : first.resolver = [none] := congrArg (·.resolver) ho
  have ho' : second.outcome =
      ⟨.error (.eval (.undefinedVariable "z")), environment.define "y" 2, [], ["z"]⟩ := by
    have hb : (build (environment.define "y" 2).functions ⟨none, "x^z"⟩).result = _ := hb
    change (first.environment.calculate .sequence ⟨none, "x^z"⟩ first.resolver).outcome = _
    rw [he, hs, outcome_calculate_of_build hb]
    rfl
  have hr : second.result = .error (.eval (.undefinedVariable "z")) := congrArg (·.result) ho'
  have hn : Tree.IsName "cos" := ⟨by decide, List.all_eq_true.mp (by cbv)⟩
  obtain ⟨hbinary, hcall⟩ := outcome_calculate_composed ha .sequence [some 2, none]
  have hw : whole.outcome = { second.outcome with
    result := second.result.map (Operator.times.apply (1 - Float.log 2))
    asked := first.outcome.asked ++ second.outcome.asked } := (hbinary .times _ _ hb).2 _ hx
  have hc : call.outcome = { first.outcome with result := .ok (1 - Float.log 2).cos } :=
    (hcall "cos" _ hn rfl).2 _ hx
  constructor
  case left =>
    rw [hw, ho, ho', hr]
    rfl
  case right => rw [hc, ho]

end Reckoner
