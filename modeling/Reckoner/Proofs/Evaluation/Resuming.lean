import Reckoner.Proofs.Evaluation.Replies

/-!
Evaluations that are stopped and taken up again. An attempt whose resolver knows less may fail
early, but it binds nothing that an evaluation with all values would not bind as well. So whatever
attempts were made before, that evaluation comes to its own result. Once there is a value nothing is
asked.
-/

namespace Reckoner

variable {σ τ : Type} {functions : Functions} {resolver : Resolver σ} {part : Resolver τ}
variable {tree : Tree} {bindings more : Variables} {state : σ} {state' : τ} {x : Float}

-- All that is bound on the left is bound on the right, to the same values.
def KeptIn (bindings more : Variables) : Prop :=
  ∀ (name : String) (x : Float), bindings[name]? = some x → more[name]? = some x

theorem keptIn_evaluate (functions : Functions) (resolver : Resolver σ) (tree : Tree)
    (bindings : Variables) (state : σ) :
    KeptIn bindings (evaluate functions resolver tree bindings state).bindings := by
  intro name x hx
  have h := asks_evaluate functions resolver tree bindings state
  have hn : name ∉ Event.askedNames (evaluate functions resolver tree bindings state).events := by
    intro hn
    cases hx.symm.trans (h.getElem?_of_mem hn)
  exact (h.getElem?_bindings_of_not_mem hn).trans hx

theorem getElem?_of_lookUp {name : String}
    (h : (lookUp resolver name bindings state).result = .ok x) :
    (lookUp resolver name bindings state).bindings[name]? = some x := by
  cases hb : bindings[name]?
  case some y =>
    rw [lookUp_of_some hb] at h ⊢
    cases h
    exact hb
  case none =>
    rw [lookUp_of_none hb] at h ⊢
    cases hr : (resolver.resolve name state).1 <;> simp only [ask, hr, reduceCtorEq] at h ⊢
    case value y =>
      cases h
      exact Std.ExtTreeMap.getElem?_insert_self

theorem reply_of_ask_eq_ok {name : String}
    (h : (ask resolver name bindings state).result = .ok x) :
    (resolver.resolve name state).1 = .value x := by
  cases hr : (resolver.resolve name state).1 <;> simp only [ask, hr, reduceCtorEq] at h
  case value y =>
    cases h
    rfl

-- An evaluation that asks for nothing.
structure Evaluation.Quiet (x : Float) (bindings : Variables) (state : σ)
    (evaluation : Evaluation σ) : Prop where
  result_eq : evaluation.result = .ok x
  bindings_eq : evaluation.bindings = bindings
  resolver_eq : evaluation.resolver = state
  asked_eq : Event.askedNames evaluation.events = []

theorem Evaluation.Quiet.andThen {y : Float} {first : Evaluation σ}
    {next : Float → Variables → σ → Evaluation σ} (h : first.Quiet x bindings state)
    (hn : (next x bindings state).Quiet y bindings state) :
    (first.andThen next).Quiet y bindings state := by
  rw [andThen_of_ok h.result_eq, h.bindings_eq, h.resolver_eq]
  refine ⟨hn.result_eq, hn.bindings_eq, hn.resolver_eq, ?_⟩
  rw [Event.askedNames_append, h.asked_eq, hn.asked_eq, List.append_nil]

-- A tree that had a value has it wherever the variables of that evaluation are kept. By induction
-- on the tree: what an operand binds is kept by the operand after it.
theorem quiet_evaluate (h : (evaluate functions resolver tree bindings state).result = .ok x)
    (hk : KeptIn (evaluate functions resolver tree bindings state).bindings more)
    (other : Resolver τ) (state' : τ) :
    (evaluate functions other tree more state').Quiet x more state' := by
  induction tree generalizing bindings state x
  case number y =>
    cases h
    exact ⟨rfl, rfl, rfl, rfl⟩
  case var name =>
    cases hc : functions.contains name
    case true =>
      rw [evaluate_var_of_contains hc] at h
      cases h
    case false =>
      rw [evaluate_var hc] at h hk
      rw [evaluate_var hc, lookUp_of_some (hk name x (getElem?_of_lookUp h))]
      exact ⟨rfl, rfl, rfl, rfl⟩
  case call function argument hi =>
    cases hf : functions.get? function
    case none =>
      rw [evaluate_call_of_none hf] at h
      cases h
    case some f =>
      rw [evaluate_call hf] at h hk
      have ⟨y, hy, hx⟩ := Evaluation.result_andThen_eq_ok h
      cases hx
      rw [Evaluation.andThen_of_ok hy] at hk
      rw [evaluate_call hf]
      exact (hi hy hk).andThen ⟨rfl, rfl, rfl, rfl⟩
  case binary op left right hleft hright =>
    have ⟨y, hy, h⟩ := Evaluation.result_andThen_eq_ok h
    have ⟨z, hz, h⟩ := Evaluation.result_andThen_eq_ok h
    cases h
    unfold evaluate at hk ⊢
    rw [Evaluation.andThen_of_ok hy, Evaluation.andThen_of_ok hz] at hk
    have hkept := fun name x h => hk name x (keptIn_evaluate functions resolver right _ _ name x h)
    exact (hleft hy hkept).andThen ((hright hz hk).andThen ⟨rfl, rfl, rfl, rfl⟩)

namespace Resolver

-- The resolver replies to a name in one way, whatever was asked before.
def Gives (resolver : Resolver σ) (reply : String → Reply) : Prop :=
  ∀ name state, (resolver.resolve name state).1 = reply name

-- The values of the resolver are some of those that are replied elsewhere. It may keep others back,
-- by declining or by failing, and it need not do so each time.
def GivesPartOf (resolver : Resolver σ) (reply : String → Reply) : Prop :=
  ∀ name state x, (resolver.resolve name state).1 = .value x → reply name = .value x

end Resolver

-- Evaluations that come to the same result in the same variables.
def Evaluation.Alike (first : Evaluation σ) (second : Evaluation τ) : Prop :=
  first.Agree (fun bindings _ bindings' _ => bindings = bindings') second

variable {reply : String → Reply}

theorem alike_ask (name : String)
    (h : (resolver.resolve name state).1 = (part.resolve name state').1) :
    (ask resolver name bindings state).Alike (ask part name bindings state') := by
  cases hr : (part.resolve name state').1
  case value x =>
    rw [ask_of_value hr, ask_of_value (h.trans hr)]
    exact ⟨rfl, rfl⟩
  all_goals
    rw [hr] at h
    simp only [ask, h, hr]
    exact ⟨rfl, rfl⟩

theorem alike_of_gives (h : resolver.Gives reply) (tree : Tree) (bindings : Variables)
    (state state' : σ) :
    (evaluate functions resolver tree bindings state).Alike
      (evaluate functions resolver tree bindings state') := by
  refine agree_evaluate (fun name _ bindings state bindings' state' hb => ?_) tree rfl
  subst hb
  cases hb : bindings[name]?
  case some =>
    rw [lookUp_of_some hb, lookUp_of_some hb]
    exact ⟨rfl, rfl⟩
  case none =>
    rw [lookUp_of_none hb, lookUp_of_none hb]
    exact alike_ask name ((h name state).trans (h name state').symm)

-- An attempt that comes to a value does what an evaluation with all values does.
theorem alike_of_ok (hg : resolver.Gives reply) (hp : part.GivesPartOf reply)
    (h : (evaluate functions part tree bindings state').result = .ok x) (state : σ) :
    (evaluate functions part tree bindings state').Alike
      (evaluate functions resolver tree bindings state) := by
  induction tree generalizing bindings state' state x
  case number => exact ⟨rfl, rfl⟩
  case var name =>
    cases hc : functions.contains name
    case true =>
      rw [evaluate_var_of_contains hc, evaluate_var_of_contains hc]
      exact ⟨rfl, rfl⟩
    case false =>
      rw [evaluate_var hc] at h ⊢
      rw [evaluate_var hc]
      cases hb : bindings[name]?
      case some =>
        rw [lookUp_of_some hb, lookUp_of_some hb]
        exact ⟨rfl, rfl⟩
      case none =>
        rw [lookUp_of_none hb] at h ⊢
        rw [lookUp_of_none hb]
        have hr := reply_of_ask_eq_ok h
        exact alike_ask name (hr.trans ((hg name state).trans (hp name state' x hr)).symm)
  case call function argument hi =>
    cases hf : functions.get? function
    case none =>
      rw [evaluate_call_of_none hf, evaluate_call_of_none hf]
      exact ⟨rfl, rfl⟩
    case some f =>
      rw [evaluate_call hf] at h ⊢
      rw [evaluate_call hf]
      have ⟨y, hy, _⟩ := Evaluation.result_andThen_eq_ok h
      exact (hi hy state).andThen fun _ _ _ _ _ hb => ⟨rfl, hb⟩
  case binary op left right hleft hright =>
    have ⟨y, hy, h⟩ := Evaluation.result_andThen_eq_ok h
    have ⟨z, hz, _⟩ := Evaluation.result_andThen_eq_ok h
    have hl := hleft hy state
    refine Evaluation.Agree.andThen_of_ok hy (hl.result_eq.symm.trans hy) ?_
    rw [← hl.related]
    exact (hright hz _).andThen fun _ _ _ _ _ hb => ⟨rfl, hb⟩

theorem bindings_evaluate_var_of_error {name : String} {fault : EvalFault}
    (h : (evaluate functions resolver (.var name) bindings state).result = .error fault) :
    (evaluate functions resolver (.var name) bindings state).bindings = bindings := by
  cases hc : functions.contains name
  case true =>
    rw [evaluate_var_of_contains hc]
    rfl
  case false =>
    rw [evaluate_var hc] at h ⊢
    cases hb : bindings[name]?
    case some =>
      rw [lookUp_of_some hb]
      rfl
    case none =>
      rw [lookUp_of_none hb] at h ⊢
      cases hr : (resolver.resolve name state).1 <;> simp only [ask, hr, reduceCtorEq] at h ⊢

-- What follows a part changes no variables.
theorem Evaluation.bindings_andThen {first : Evaluation σ}
    {next : Float → Variables → σ → Evaluation σ}
    (h : ∀ x, first.result = .ok x → (next x first.bindings first.resolver).bindings = bindings)
    (hb : ∀ fault, first.result = .error fault → first.bindings = bindings) :
    (first.andThen next).bindings = bindings := by
  cases hr : first.result
  case error =>
    rw [andThen_of_error hr]
    exact hb _ hr
  case ok =>
    rw [andThen_of_ok hr]
    exact h _ hr

-- Whatever an attempt comes to, an evaluation with all values that starts with what the attempt
-- bound is like one that starts without it. By induction on the tree: where the left operand came
-- to a value it has this value again, and where it failed the right one was not begun.
theorem alike_resumed (hg : resolver.Gives reply) (hp : part.GivesPartOf reply) (tree : Tree)
    (bindings : Variables) (state' : τ) (state₁ state₂ : σ) :
    (evaluate functions resolver tree
      (evaluate functions part tree bindings state').bindings state₁).Alike
        (evaluate functions resolver tree bindings state₂) := by
  induction tree generalizing bindings state' state₁ state₂
  case number => exact ⟨rfl, rfl⟩
  case var name =>
    cases hr : (evaluate functions part (.var name) bindings state').result
    case error =>
      rw [bindings_evaluate_var_of_error hr]
      exact alike_of_gives hg _ _ state₁ state₂
    case ok x =>
      have hq := quiet_evaluate hr (fun _ _ => id) resolver state₁
      have ha := alike_of_ok hg hp hr state₂
      exact ⟨hq.result_eq.trans (hr.symm.trans ha.result_eq), hq.bindings_eq.trans ha.related⟩
  case call function argument hi =>
    cases hf : functions.get? function
    case none =>
      rw [evaluate_call_of_none hf, evaluate_call_of_none hf, evaluate_call_of_none hf]
      exact ⟨rfl, rfl⟩
    case some f =>
      rw [evaluate_call hf, evaluate_call hf, evaluate_call hf,
        Evaluation.bindings_andThen (fun _ _ => rfl) fun _ _ => rfl]
      exact (hi bindings state' state₁ state₂).andThen fun _ _ _ _ _ hb => ⟨rfl, hb⟩
  case binary op left right hleft hright =>
    cases hx : (evaluate functions part left bindings state').result
    case error =>
      have hw : evaluate functions part (.binary op left right) bindings state' = _ :=
        Evaluation.andThen_of_error hx
      rw [hw]
      refine (hleft bindings state' state₁ state₂).andThen fun x current s _ s' hb => ?_
      subst hb
      exact (alike_of_gives hg right current s s').andThen fun _ _ _ _ _ hb => ⟨rfl, hb⟩
    case ok x =>
      let first := evaluate functions part left bindings state'
      let second := evaluate functions part right first.bindings first.resolver
      have hw : (evaluate functions part (.binary op left right) bindings state').bindings =
          second.bindings := by
        refine (congrArg Evaluation.bindings (Evaluation.andThen_of_ok hx)).trans ?_
        exact Evaluation.bindings_andThen (fun _ _ => rfl) fun _ _ => rfl
      have hk := keptIn_evaluate functions part right first.bindings first.resolver
      have hq := quiet_evaluate hx hk resolver state₁
      have ha := alike_of_ok hg hp hx state₂
      rw [hw]
      refine Evaluation.Agree.andThen_of_ok hq.result_eq (ha.result_eq.symm.trans hx) ?_
      rw [hq.bindings_eq, ← ha.related]
      exact (hright _ _ _ _).andThen fun _ _ _ _ _ hb => ⟨rfl, hb⟩

-- A resolver in the state in which it is asked first.
structure Attempt : Type 1 where
  {State : Type}
  resolver : Resolver State
  state : State

namespace Environment

-- The environment after a tree was evaluated with some resolvers, one after the other, whatever
-- came of it.
def afterAttempts (environment : Environment) (tree : Tree) : List Attempt → Environment
  | [] => environment
  | attempt :: attempts =>
    let next := (environment.evaluate attempt.resolver tree attempt.state).environment
    next.afterAttempts tree attempts

theorem functions_afterAttempts (environment : Environment) (tree : Tree)
    (attempts : List Attempt) :
    (environment.afterAttempts tree attempts).functions = environment.functions := by
  induction attempts generalizing environment
  case nil => rfl
  case cons attempt attempts hi => exact hi _

-- By induction on the attempts, each of which makes no difference to the evaluation after it.
theorem alike_afterAttempts (hg : resolver.Gives reply) {attempts : List Attempt}
    (hp : ∀ attempt ∈ attempts, attempt.resolver.GivesPartOf reply) (environment : Environment)
    (tree : Tree) (state₁ state₂ : σ) :
    (Reckoner.evaluate environment.functions resolver tree
      (environment.afterAttempts tree attempts).variables state₁).Alike
        (Reckoner.evaluate environment.functions resolver tree environment.variables state₂) := by
  induction attempts generalizing environment
  case nil => exact alike_of_gives hg tree _ state₁ state₂
  case cons attempt attempts hi =>
    have ⟨ha, hs⟩ := List.forall_mem_cons.mp hp
    have h := hi hs (environment.evaluate attempt.resolver tree attempt.state).environment
    have h' : (Reckoner.evaluate environment.functions resolver tree _ state₂).Alike _ :=
      alike_resumed hg ha tree environment.variables attempt.state state₂ state₂
    exact ⟨h.result_eq.trans h'.result_eq, h.related.trans h'.related⟩

theorem evaluate_eq_of_alike {first second : Environment} (hf : first.functions = second.functions)
    (h : (Reckoner.evaluate second.functions resolver tree first.variables state).Alike
      (Reckoner.evaluate second.functions part tree second.variables state')) :
    (first.evaluate resolver tree state).result = (second.evaluate part tree state').result ∧
      (first.evaluate resolver tree state).environment =
        (second.evaluate part tree state').environment := by
  rw [← hf] at h
  simp only [evaluate, ← hf]
  exact ⟨congrArg _ h.result_eq, congrArg (mk · first.functions) h.related⟩

end Environment

-- Whatever attempts were made to evaluate a tree with some of the values, the evaluation with all
-- of them comes to the same, in the same environment, as if there had been none. Once a tree has a
-- value it keeps it, and no resolver is asked.
theorem evaluate_after_attempts (environment : Environment) (tree : Tree) (resolver : Resolver σ)
    (state : σ) :
    let single := environment.evaluate resolver tree state
    (∀ reply, resolver.Gives reply → ∀ attempts : List Attempt,
      (∀ attempt ∈ attempts, attempt.resolver.GivesPartOf reply) → ∀ state',
      let resumed := (environment.afterAttempts tree attempts).evaluate resolver tree state'
      resumed.result = single.result ∧ resumed.environment = single.environment) ∧
    ∀ x, single.result = .ok x → ∀ {τ : Type} (other : Resolver τ) (state' : τ),
      let again := single.environment.evaluate other tree state'
      again.result = .ok x ∧ again.environment = single.environment ∧ again.resolver = state' ∧
      Event.askedNames again.events = [] := by
  intro single
  constructor
  case left =>
    intro reply hg attempts hp state' resumed
    exact Environment.evaluate_eq_of_alike (environment.functions_afterAttempts tree attempts)
      (environment.alike_afterAttempts hg hp tree state' state)
  case right =>
    intro x hx τ other state' again
    have hq := quiet_evaluate (Environment.result_evaluate_eq_ok_iff.mp hx) (fun _ _ => id) other
      state'
    refine ⟨Environment.result_evaluate_eq_ok_iff.mpr hq.result_eq, ?_, hq.resolver_eq, hq.asked_eq⟩
    exact congrArg (Environment.mk · environment.functions) hq.bindings_eq

theorem value_after_failed_attempts :
    let tree : Tree := .binary .times (.binary .minus (.var "a") (.call "ln" (.var "b"))) (.var "c")
    let table : List (String × Float) := [("a", 2), ("b", 3), ("c", 5)]
    let reply name := Reply.ofOption (table.lookup name)
    let busy : Resolver Nat := ⟨fun name count =>
      (if name = "a" then .value 2 else .failed (.unresolved name "busy"), count + 1)⟩
    let attempts : List Attempt := [⟨.ofList [("b", 3)], ()⟩, ⟨busy, 0⟩]
    let environment := Environment.withBuiltins
    let resumed := (environment.afterAttempts tree attempts).evaluate (.ofList table) tree ()
    (Resolver.ofList table).Gives reply ∧
    (∀ attempt ∈ attempts, attempt.resolver.GivesPartOf reply) ∧
    environment.afterAttempts tree attempts = environment.define "a" 2 ∧
    resumed.result = .ok ((2 - Float.log 3) * 5) ∧
    resumed.environment = ((environment.define "a" 2).define "b" 3).define "c" 5 := by
  intro tree table reply busy attempts environment resumed
  have hg : (Resolver.ofList table).Gives reply := fun _ _ => rfl
  have hpart : (Resolver.ofList [("b", 3)]).GivesPartOf reply := by
    intro name _ x h
    by_cases hn : name = "b"
    case pos => exact hn ▸ h
    case neg =>
      have hb := beq_eq_false_iff_ne.mpr hn
      simp [Resolver.ofList, Resolver.ofFunction, List.lookup, hb, Reply.ofOption] at h
  have hbusy : busy.GivesPartOf reply := by
    intro name _ x h
    by_cases hn : name = "a"
    case pos =>
      rw [hn] at h ⊢
      exact h
    case neg => simp [busy, hn] at h
  have hp : ∀ attempt ∈ attempts, attempt.resolver.GivesPartOf reply := by
    intro attempt h
    simp only [attempts, List.mem_cons, List.not_mem_nil, or_false] at h
    cases h
    case inl h => exact h ▸ hpart
    case inr h => exact h ▸ hbusy
  have hs : (environment.evaluate (.ofList table) tree ()).result =
    .ok ((2 - Float.log 3) * 5) := rfl
  have he : (environment.evaluate (.ofList table) tree ()).environment =
    ((environment.define "a" 2).define "b" 3).define "c" 5 := rfl
  have h := (evaluate_after_attempts environment tree (.ofList table) ()).1 reply hg attempts hp ()
  exact ⟨hg, hp, rfl, h.1.trans hs, h.2.trans he⟩

end Reckoner
