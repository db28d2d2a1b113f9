import Reckoner.Proofs.Evaluation.Resuming

/-!
Evaluations that get all they ask for. If no name in a tree is a function where a variable is due or
the other way round, only a missing value can make its evaluation fail.
-/

namespace Reckoner

variable {σ : Type} {functions : Functions} {resolver : Resolver σ} {tree : Tree}
variable {bindings : Variables} {state : σ} {x : Float}

-- The names with an argument are those of functions, and the names without one are not.
def Tree.Fits (functions : Functions) (tree : Tree) : Prop :=
  ∀ name ∈ tree.names, functions.contains name.1 = name.2

-- By induction on the tree. What was replied for the operand on the left is bound for the one on
-- the right, so the replies to the names that are left for it are the others.
theorem result_evaluate_of_values (hf : tree.Fits functions)
    (hv : ∀ request ∈ (resolver.replies (tree.unbound functions bindings) state).1,
      ∃ x, request.reply = .value x) :
    ∃ x, (evaluate functions resolver tree bindings state).result = .ok x := by
  induction tree generalizing bindings state
  case number x => exact ⟨x, rfl⟩
  case var name =>
    have hc : functions.contains name = false := hf (name, false) List.mem_cons_self
    rw [evaluate_var hc]
    cases hb : bindings[name]?
    case some x =>
      rw [lookUp_of_some hb]
      exact ⟨x, rfl⟩
    case none =>
      rw [Tree.unbound_var hc hb] at hv
      have ⟨x, hx⟩ := hv _ List.mem_cons_self
      rw [lookUp_of_none hb, ask_of_value hx]
      exact ⟨x, rfl⟩
  case call function argument hi =>
    have hc : functions.contains function = true := hf (function, true) List.mem_cons_self
    rw [Functions.contains_eq_isSome_get?] at hc
    have ⟨f, hg⟩ := Option.isSome_iff_exists.mp hc
    have ⟨x, hx⟩ := hi (fun name hm => hf name (List.mem_cons_of_mem _ hm)) hv
    rw [evaluate_call hg, Evaluation.andThen_of_ok hx]
    exact ⟨f x, rfl⟩
  case binary op left right hl hr =>
    have ⟨hfl, hfr⟩ := List.forall_mem_append.mp hf
    have ⟨more, hp⟩ : left.unbound functions bindings <+:
        (Tree.binary op left right).unbound functions bindings :=
      Tree.unbound_isPrefix_binary op left right
    have hvl := hv
    rw [← hp, Resolver.replies_append] at hvl
    have hvl := (List.forall_mem_append.mp hvl).1
    have ⟨x, hx⟩ := hl hfl hvl
    have ha := asks_evaluate functions resolver left bindings state
    have hb := ha.bindings_eq
    have hs := ha.resolver_eq
    rw [ha.complete x hx] at hb hs
    rw [Tree.unbound_binary op (Resolver.map_name_replies ..) hvl, Resolver.replies_append] at hv
    have ⟨y, hy⟩ := hr hfr (List.forall_mem_append.mp hv).2
    rw [← hb, ← hs] at hy
    unfold evaluate
    rw [Evaluation.andThen_of_ok hx, Evaluation.andThen_of_ok hy]
    exact ⟨op.apply x y, rfl⟩

-- An evaluation with a value did not come to the end of the input.
theorem closes_of_result_eq_ok
    (h : (evaluate functions resolver tree bindings state).result = .ok x) :
    ∀ event ∈ (evaluate functions resolver tree bindings state).events, event.closes = false := by
  induction tree generalizing bindings state x
  case number => exact List.forall_mem_nil _
  case var name =>
    cases hc : functions.contains name
    case true =>
      rw [evaluate_var_of_contains hc]
      exact List.forall_mem_nil _
    case false =>
      rw [evaluate_var hc] at h ⊢
      cases hb : bindings[name]?
      case some =>
        rw [lookUp_of_some hb]
        exact List.forall_mem_nil _
      case none =>
        rw [lookUp_of_none hb] at h ⊢
        rw [ask_of_value (reply_of_ask_eq_ok h)]
        exact List.forall_mem_singleton.mpr rfl
  case call function argument hi =>
    cases hf : functions.get? function
    case none =>
      rw [evaluate_call_of_none hf]
      exact List.forall_mem_nil _
    case some f =>
      rw [evaluate_call hf] at h ⊢
      have ⟨y, hy, _⟩ := Evaluation.result_andThen_eq_ok h
      rw [Evaluation.andThen_of_ok hy]
      exact List.forall_mem_append.mpr ⟨hi hy, List.forall_mem_singleton.mpr rfl⟩
  case binary op left right hl hr =>
    have ⟨y, hy, h⟩ := Evaluation.result_andThen_eq_ok h
    have ⟨z, hz, h⟩ := Evaluation.result_andThen_eq_ok h
    unfold evaluate
    rw [Evaluation.andThen_of_ok hy, Evaluation.andThen_of_ok hz]
    refine List.forall_mem_append.mpr ⟨hl hy, List.forall_mem_append.mpr ⟨hr hz, ?_⟩⟩
    exact List.forall_mem_nil _

end Reckoner
