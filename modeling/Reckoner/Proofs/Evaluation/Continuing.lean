import Reckoner.Proofs.Evaluation.Resuming

/-!
Evaluations in the middle. When some names were asked for and a value came back for each of them,
what is left of an evaluation is the evaluation of the same tree in which these names are bound,
with the resolver in the state after them.
-/

namespace Reckoner

variable {σ : Type} {functions : Functions} {resolver : Resolver σ} {tree : Tree}
variable {bindings : Variables} {state : σ} {name : String} {names : List String} {x : Float}

namespace Evaluation

-- An evaluation that asks for some names and is then as far as another one at its start.
structure Continues (names : List String) (whole rest : Evaluation σ) : Prop where
  result_eq : whole.result = rest.result
  bindings_eq : whole.bindings = rest.bindings
  resolver_eq : whole.resolver = rest.resolver
  asked_eq : Event.askedNames whole.events = names ++ Event.askedNames rest.events

theorem Continues.trans {more : List String} {whole part rest : Evaluation σ}
    (h : whole.Continues names part) (hr : part.Continues more rest) :
    whole.Continues (names ++ more) rest where
  result_eq := h.result_eq.trans hr.result_eq
  bindings_eq := h.bindings_eq.trans hr.bindings_eq
  resolver_eq := h.resolver_eq.trans hr.resolver_eq
  asked_eq := by rw [h.asked_eq, hr.asked_eq, List.append_assoc]

variable {first rest : Evaluation σ} {next : Float → Variables → σ → Evaluation σ}

theorem Continues.andThen (h : first.Continues names rest) :
    (first.andThen next).Continues names (rest.andThen next) := by
  cases hr : rest.result
  case error =>
    rw [andThen_of_error hr, andThen_of_error (h.result_eq.trans hr)]
    exact h
  case ok x =>
    rw [andThen_of_ok hr, andThen_of_ok (h.result_eq.trans hr), h.bindings_eq, h.resolver_eq]
    refine ⟨rfl, rfl, rfl, ?_⟩
    simp only [Event.askedNames_append, h.asked_eq, List.append_assoc]

theorem Quiet.continues_andThen {more : Variables} {state' : σ} (h : first.Quiet x bindings state)
    (hr : rest.Quiet x more state')
    (hn : (next x bindings state).Continues names (next x more state')) :
    (first.andThen next).Continues names (rest.andThen next) := by
  rw [andThen_of_ok h.result_eq, andThen_of_ok hr.result_eq, h.bindings_eq, h.resolver_eq,
    hr.bindings_eq, hr.resolver_eq]
  refine ⟨hn.result_eq, hn.bindings_eq, hn.resolver_eq, ?_⟩
  simp only [Event.askedNames_append, h.asked_eq, hr.asked_eq, List.nil_append, hn.asked_eq]

-- The first name is asked for by the first part, or by what follows it if the first part asks for
-- nothing.
theorem Continues.of_andThen
    (ha : Event.askedNames (first.andThen next).events = name :: names)
    (hf : ∀ names, Event.askedNames first.events = name :: names → first.Continues [name] rest)
    (hn : ∀ x, first.result = .ok x → Event.askedNames first.events = [] →
      Event.askedNames (next x first.bindings first.resolver).events = name :: names →
      (first.andThen next).Continues [name] (rest.andThen next)) :
    (first.andThen next).Continues [name] (rest.andThen next) := by
  cases hr : first.result
  case error =>
    rw [andThen_of_error hr] at ha
    exact (hf names ha).andThen
  case ok x =>
    have hs := ha
    rw [andThen_of_ok hr, Event.askedNames_append] at hs
    cases he : Event.askedNames first.events <;> rw [he] at hs
    case nil => exact hn x hr he hs
    case cons other others =>
      rw [(List.cons.inj hs).1] at he
      exact (hf others he).andThen

theorem Asks.quiet {unbound : List String} {evaluation : Evaluation σ}
    (h : evaluation.Asks resolver unbound bindings state) (hx : evaluation.result = .ok x)
    (ha : Event.askedNames evaluation.events = []) : evaluation.Quiet x bindings state where
  result_eq := hx
  bindings_eq := by rw [h.bindings_eq, ha]; rfl
  resolver_eq := by rw [h.resolver_eq, ha]; rfl
  asked_eq := ha

end Evaluation

theorem Request.store_of_value {request : Request} (h : request.reply = .value x) :
    store bindings request = bindings.insert request.name x := by
  simp only [store, h, Reply.value?]

theorem keptIn_insert (h : bindings[name]? = none) (x : Float) :
    KeptIn bindings (bindings.insert name x) := by
  intro other y hy
  have hn : name ≠ other := by
    intro hn
    cases hy.symm.trans (hn ▸ h)
  simpa [Std.ExtTreeMap.getElem?_insert, hn] using hy

-- By induction on the tree. An operand that asks for nothing has the same value with more
-- variables, and one that asks first leaves what follows it where it was.
theorem continues_of_value
    (ha : Event.askedNames (evaluate functions resolver tree bindings state).events = name :: names)
    (hv : (resolver.resolve name state).1 = .value x) :
    (evaluate functions resolver tree bindings state).Continues [name]
      (evaluate functions resolver tree (bindings.insert name x)
        (resolver.resolve name state).2) := by
  have hb : bindings[name]? = none :=
    (asks_evaluate functions resolver tree bindings state).getElem?_of_mem (ha ▸ List.mem_cons_self)
  induction tree generalizing names
  case number => cases ha
  case var other =>
    cases hc : functions.contains other
    case true =>
      rw [evaluate_var_of_contains hc] at ha
      cases ha
    case false =>
      rw [evaluate_var hc] at ha ⊢
      rw [evaluate_var hc]
      cases ho : bindings[other]?
      case some =>
        rw [lookUp_of_some ho] at ha
        cases ha
      case none =>
        rw [lookUp_of_none ho] at ha ⊢
        have hn : other = name := by
          cases hr : (resolver.resolve other state).1 <;> simp only [ask, hr] at ha
          all_goals exact (List.cons.inj ha).1
        subst hn
        rw [ask_of_value hv, lookUp_of_some Std.ExtTreeMap.getElem?_insert_self]
        exact ⟨rfl, rfl, rfl, rfl⟩
  case call function argument hi =>
    cases hf : functions.get? function
    case none =>
      rw [evaluate_call_of_none hf] at ha
      cases ha
    case some f =>
      rw [evaluate_call hf] at ha ⊢
      rw [evaluate_call hf]
      exact .of_andThen ha (fun names h => hi h) fun _ _ _ h => by cases h
  case binary op left right hleft hright =>
    refine .of_andThen ha (fun names h => hleft h) fun y hy hq hn => ?_
    have hl : (evaluate functions resolver left bindings state).Quiet y bindings state :=
      (asks_evaluate functions resolver left bindings state).quiet hy hq
    have hk : KeptIn (evaluate functions resolver left bindings state).bindings
        (bindings.insert name x) := by
      rw [hl.bindings_eq]
      exact keptIn_insert hb x
    rw [hl.bindings_eq, hl.resolver_eq] at hn
    refine hl.continues_andThen (quiet_evaluate hy hk resolver _) ?_
    exact .of_andThen hn (fun names h => hright h) fun _ _ _ h => by cases h

-- By induction on the names, each of which is the first one for the evaluation that is left.
theorem continues_of_values
    (hp : names <+: Event.askedNames (evaluate functions resolver tree bindings state).events)
    (hv : ∀ request ∈ (resolver.replies names state).1, ∃ x, request.reply = .value x) :
    (evaluate functions resolver tree bindings state).Continues names
      (evaluate functions resolver tree (bindReplies (resolver.replies names state).1 bindings)
        (resolver.replies names state).2) := by
  induction names generalizing bindings state
  case nil => exact ⟨rfl, rfl, rfl, rfl⟩
  case cons name names hi =>
    have ⟨more, ha⟩ := hp
    have ⟨⟨x, hx⟩, hv⟩ := List.forall_mem_cons.mp hv
    have h := continues_of_value ha.symm hx
    have hm := List.cons.inj (ha.trans h.asked_eq)
    rw [← Request.store_of_value hx] at h hm
    exact h.trans (hi ⟨more, hm.2⟩ hv)

end Reckoner
