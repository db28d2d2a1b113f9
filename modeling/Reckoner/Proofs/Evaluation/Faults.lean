import Mathlib
import Reckoner.Evaluation
import Reckoner.Prompt

/-!
The faults of an evaluation, and where in the tree they come from. A fault about a function is that
of a node of the tree: of a name without an argument that is registered, or of one with an argument
that is not.
-/

namespace Reckoner

namespace Tree

-- The names in a tree from left to right, each with whether it has an argument.
def names : Tree → List (String × Bool)
  | number _               => []
  | var name               => [(name, false)]
  | call function argument => (function, true) :: argument.names
  | binary _ left right    => left.names ++ right.names

end Tree

theorem Functions.contains_eq_isSome_get? (functions : Functions) (name : String) :
    functions.contains name = (functions.get? name).isSome :=
  Std.ExtTreeMap.contains_eq_isSome_getElem?

variable {σ : Type}

namespace Resolver

-- Answers with what a function gives that has a state of its own.
def ofClosure (value? : String → σ → Option Float × σ) : Resolver σ where
  resolve name state :=
    let (value, state) := value? name state
    (.ofOption value, state)

-- The resolvers that are at hand: the one that never answers, functions of any kind and the prompt.
inductive Provided : {σ : Type} → Resolver σ → Prop
  | never : Provided never
  | closure {σ : Type} (value? : String → σ → Option Float × σ) : Provided (ofClosure value?)
  | prompt : Provided prompt

theorem provided_ofFunction (value? : String → Option Float) : (ofFunction value?).Provided :=
  .closure fun name state => (value? name, state)

theorem Provided.failed {resolver : Resolver σ} {name : String} {state : σ} {fault : EvalFault}
    (h : resolver.Provided) (hf : (resolver.resolve name state).1 = .failed fault) :
    ∃ message, fault = .unresolved name message := by
  cases h
  case never => cases hf
  case closure value? =>
    cases hv : (value? name state).1 <;> simp [ofClosure, hv, Reply.ofOption] at hf
  case prompt =>
    change (Prompt.request name state).1 = .failed fault at hf
    unfold Prompt.request at hf
    repeat' split at hf
    all_goals cases hf
    all_goals exact ⟨_, rfl⟩

end Resolver

namespace Evaluation

theorem result_andThen_eq_error {first : Evaluation σ}
    {next : Float → Variables → σ → Evaluation σ} {fault : EvalFault} :
    (first.andThen next).result = .error fault ↔
      first.result = .error fault ∨ ∃ value, first.result = .ok value ∧
        (next value first.bindings first.resolver).result = .error fault := by
  cases h : first.result <;> simp [andThen, h]

end Evaluation

-- Whether a node of the tree gives rise to a fault about a function.
def EvalFault.Due (functions : Functions) (tree : Tree) : EvalFault → Prop
  | missingArgument name => (name, false) ∈ tree.names ∧ functions.contains name = true
  | notAFunction name => (name, true) ∈ tree.names ∧ functions.contains name = false
  | undefinedVariable _ | unresolved .. => True

theorem EvalFault.Due.mono {functions : Functions} {part whole : Tree} {fault : EvalFault}
    (h : fault.Due functions part) (hn : part.names ⊆ whole.names) :
    fault.Due functions whole := by
  cases fault
  case missingArgument => exact ⟨hn h.1, h.2⟩
  case notAFunction => exact ⟨hn h.1, h.2⟩
  all_goals trivial

variable {functions : Functions} {resolver : Resolver σ} {bindings : Variables} {state : σ}

theorem ask_eq_error {name : String} {fault : EvalFault}
    (h : (ask resolver name bindings state).result = .error fault) :
    fault = .undefinedVariable name ∨ (resolver.resolve name state).1 = .failed fault := by
  unfold ask at h
  cases hq : (resolver.resolve name state).1 <;> simp only [hq, reduceCtorEq] at h
  case nothing | ended => exact .inl (Except.error.inj h).symm
  case failed => exact .inr (congrArg _ (Except.error.inj h))

theorem due_of_lookUp {name : String} {fault : EvalFault} (tree : Tree) (hr : resolver.Provided)
    (h : (lookUp resolver name bindings state).result = .error fault) :
    fault.Due functions tree := by
  unfold lookUp at h
  split at h
  case h_1 => cases h
  case h_2 =>
    cases ask_eq_error h
    case inl hu =>
      rw [hu]
      trivial
    case inr hf =>
      have ⟨message, hm⟩ := hr.failed hf
      rw [hm]
      trivial

-- By induction on the tree, for all variables and states of the resolver: the faults of the parts
-- are faults of the whole.
theorem due_of_evaluate {tree : Tree} {fault : EvalFault} (hr : resolver.Provided)
    (h : (evaluate functions resolver tree bindings state).result = .error fault) :
    fault.Due functions tree := by
  induction tree generalizing bindings state
  case number => cases h
  case var name =>
    unfold evaluate at h
    split at h
    case isTrue hc =>
      cases h
      exact ⟨List.mem_singleton_self _, hc⟩
    case isFalse => exact due_of_lookUp _ hr h
  case call function argument hi =>
    unfold evaluate at h
    split at h
    case h_1 hg =>
      cases h
      refine ⟨List.mem_cons_self, ?_⟩
      rw [Functions.contains_eq_isSome_get?, hg, Option.isSome_none]
    case h_2 hg =>
      cases Evaluation.result_andThen_eq_error.mp h
      case inl h => exact (hi h).mono (List.subset_cons_self _ _)
      case inr h =>
        have ⟨_, _, h⟩ := h
        cases h
  case binary op left right hl hr' =>
    unfold evaluate at h
    cases Evaluation.result_andThen_eq_error.mp h
    case inl h => exact (hl h).mono (List.subset_append_left _ _)
    case inr h =>
      have ⟨_, _, h⟩ := h
      cases Evaluation.result_andThen_eq_error.mp h
      case inl h => exact (hr' h).mono (List.subset_append_right _ _)
      case inr h =>
        have ⟨_, _, h⟩ := h
        cases h

end Reckoner
