import Reckoner.Proofs.Evaluation.Asking

/-!
Two evaluations of one tree side by side. They agree on the tree if they agree on each variable in
it, so whatever relation the look-ups keep between the two states holds at the end.
-/

namespace Reckoner

variable {σ τ : Type} {functions : Functions} {resolver : Resolver σ} {name : String}
variable {bindings : Variables} {state : σ} {x : Float}

section

theorem ask_of_value (h : (resolver.resolve name state).1 = .value x) :
    ask resolver name bindings state =
      ⟨.ok x, bindings.insert name x, (resolver.resolve name state).2, [.asking name]⟩ := by
  simp only [ask, h]

-- A request that fails leaves the variables as they are.
theorem ask_of_fault (bindings : Variables) {fault : EvalFault}
    (h : (resolver.resolve name state).1.fault? name = some fault) :
    ∃ events, ask resolver name bindings state =
      ⟨.error fault, bindings, (resolver.resolve name state).2, .asking name :: events⟩ ∧
        Event.askedNames events = [] := by
  cases hr : (resolver.resolve name state).1 <;> rw [hr] at h <;> cases h
  all_goals
    simp only [ask, hr]
    exact ⟨_, rfl, rfl⟩

theorem resolver_ask (resolver : Resolver σ) (name : String) (bindings : Variables) (state : σ) :
    (ask resolver name bindings state).resolver = (resolver.resolve name state).2 := by
  cases h : (resolver.resolve name state).1 <;> simp only [ask, h]

theorem lookUp_of_some (h : bindings[name]? = some x) :
    lookUp resolver name bindings state = .value x bindings state := by
  simp only [lookUp, h]

theorem lookUp_of_none (h : bindings[name]? = none) :
    lookUp resolver name bindings state = ask resolver name bindings state := by
  simp only [lookUp, h]

theorem evaluate_var_of_contains (h : functions.contains name = true) :
    evaluate functions resolver (.var name) bindings state =
      .fail (.missingArgument name) bindings state := by
  simp only [evaluate, h, if_true]

theorem evaluate_var (h : functions.contains name = false) :
    evaluate functions resolver (.var name) bindings state =
      lookUp resolver name bindings state := by
  simp only [evaluate, h, Bool.false_eq_true, if_false]

theorem evaluate_call_of_none {argument : Tree} (h : functions.get? name = none) :
    evaluate functions resolver (.call name argument) bindings state =
      .fail (.notAFunction name) bindings state := by
  simp only [evaluate, h]

theorem evaluate_call {argument : Tree} {f : Float → Float} (h : functions.get? name = some f) :
    evaluate functions resolver (.call name argument) bindings state =
      (evaluate functions resolver argument bindings state).andThen fun x bindings state =>
        ⟨.ok (f x), bindings, state, [.applied name x (f x)]⟩ := by
  simp only [evaluate, h]

end

namespace Evaluation

variable {first : Evaluation σ} {next : Float → Variables → σ → Evaluation σ}

theorem andThen_of_error {fault : EvalFault} (h : first.result = .error fault) :
    first.andThen next = first := by
  simp only [andThen, h]

theorem andThen_of_ok (h : first.result = .ok x) :
    first.andThen next =
      { next x first.bindings first.resolver with
        events := first.events ++ (next x first.bindings first.resolver).events } := by
  simp only [andThen, h]

theorem result_andThen_eq_ok {y : Float} (h : (first.andThen next).result = .ok y) :
    ∃ x, first.result = .ok x ∧ (next x first.bindings first.resolver).result = .ok y := by
  cases hr : first.result
  case error =>
    rw [andThen_of_error hr, hr] at h
    cases h
  case ok x =>
    rw [andThen_of_ok hr] at h
    exact ⟨x, rfl, h⟩

-- Evaluations with the same result, which leave variables and resolvers in a relation.
structure Agree (R : Variables → σ → Variables → τ → Prop) (first : Evaluation σ)
    (second : Evaluation τ) : Prop where
  result_eq : first.result = second.result
  related : R first.bindings first.resolver second.bindings second.resolver

namespace Agree

variable {R : Variables → σ → Variables → τ → Prop} {second : Evaluation τ}
variable {next' : Float → Variables → τ → Evaluation τ}

theorem andThen_of_ok (hf : first.result = .ok x) (hs : second.result = .ok x)
    (hn : (next x first.bindings first.resolver).Agree R
      (next' x second.bindings second.resolver)) :
    (first.andThen next).Agree R (second.andThen next') := by
  rw [Evaluation.andThen_of_ok hf, Evaluation.andThen_of_ok hs]
  exact ⟨hn.result_eq, hn.related⟩

theorem andThen (h : first.Agree R second)
    (hn : ∀ x bindings state bindings' state', R bindings state bindings' state' →
      (next x bindings state).Agree R (next' x bindings' state')) :
    (first.andThen next).Agree R (second.andThen next') := by
  cases hs : second.result
  case error =>
    rw [andThen_of_error hs, andThen_of_error (h.result_eq.trans hs)]
    exact h
  case ok => exact andThen_of_ok (h.result_eq.trans hs) hs (hn _ _ _ _ _ h.related)

end Agree

end Evaluation

-- By induction on the tree, for all variables and states in the relation.
theorem agree_evaluate {R : Variables → σ → Variables → τ → Prop} {resolver' : Resolver τ}
    (hl : ∀ name, functions.contains name = false →
      ∀ bindings state bindings' state', R bindings state bindings' state' →
        (lookUp resolver name bindings state).Agree R (lookUp resolver' name bindings' state'))
    (tree : Tree) {bindings' : Variables} {state' : τ} (h : R bindings state bindings' state') :
    (evaluate functions resolver tree bindings state).Agree R
      (evaluate functions resolver' tree bindings' state') := by
  induction tree generalizing bindings state bindings' state'
  case number => exact ⟨rfl, h⟩
  case var name =>
    cases hc : functions.contains name
    case true =>
      rw [evaluate_var_of_contains hc, evaluate_var_of_contains hc]
      exact ⟨rfl, h⟩
    case false =>
      rw [evaluate_var hc, evaluate_var hc]
      exact hl name hc _ _ _ _ h
  case call function argument hi =>
    cases hf : functions.get? function
    case none =>
      rw [evaluate_call_of_none hf, evaluate_call_of_none hf]
      exact ⟨rfl, h⟩
    case some f =>
      rw [evaluate_call hf, evaluate_call hf]
      exact (hi h).andThen fun _ _ _ _ _ h => ⟨rfl, h⟩
  case binary op left right hleft hright =>
    refine (hleft h).andThen fun x _ _ _ _ h => ?_
    exact (hright h).andThen fun y _ _ _ _ h => ⟨rfl, h⟩

-- What every look-up keeps is kept by an evaluation, which agrees with itself.
theorem evaluate_keeps {P : Variables → σ → Prop}
    (hl : ∀ name bindings state, P bindings state →
      let found := lookUp resolver name bindings state
      P found.bindings found.resolver)
    (tree : Tree) (h : P bindings state) :
    let evaluation := evaluate functions resolver tree bindings state
    P evaluation.bindings evaluation.resolver := by
  intro evaluation
  let R (bindings : Variables) (state : σ) (bindings' : Variables) (state' : σ) :=
    bindings = bindings' ∧ state = state' ∧ P bindings state
  have ha : evaluation.Agree R evaluation := by
    refine agree_evaluate (fun name _ bindings state _ _ hr => ?_) tree ⟨rfl, rfl, h⟩
    obtain ⟨rfl, rfl, h⟩ := hr
    exact ⟨rfl, rfl, rfl, hl name bindings state h⟩
  exact ha.related.2.2

end Reckoner
