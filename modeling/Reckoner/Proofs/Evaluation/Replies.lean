import Reckoner.Proofs.Evaluation.Simulation

/-!
The part that the resolver has in an evaluation. An evaluation asks its resolver for some names, one
after the other, and leaves it in the state after the last one. What it binds is what was replied.
-/

namespace Reckoner

variable {σ : Type} {functions : Functions} {resolver : Resolver σ} {bindings : Variables}

namespace Resolver

-- The replies to the requests for some names, one after the other, and the state after the last
-- one.
def replies (resolver : Resolver σ) : List String → σ → List Request × σ
  | [], state => ([], state)
  | name :: names, state =>
    let (reply, next) := resolver.resolve name state
    let (requests, last) := resolver.replies names next
    (⟨name, reply⟩ :: requests, last)

theorem replies_cons (resolver : Resolver σ) (name : String) (names : List String) (state : σ) :
    resolver.replies (name :: names) state =
      (⟨name, (resolver.resolve name state).1⟩ ::
        (resolver.replies names (resolver.resolve name state).2).1,
          (resolver.replies names (resolver.resolve name state).2).2) :=
  rfl

theorem replies_append (resolver : Resolver σ) (names more : List String) (state : σ) :
    resolver.replies (names ++ more) state =
      let (requests, next) := resolver.replies names state
      let (others, last) := resolver.replies more next
      (requests ++ others, last) := by
  induction names generalizing state
  case nil => rfl
  case cons name names hi => simp only [List.cons_append, replies, hi]

theorem map_name_replies (resolver : Resolver σ) (names : List String) (state : σ) :
    (resolver.replies names state).1.map Request.name = names := by
  induction names generalizing state
  case nil => rfl
  case cons name names hi => exact congrArg (name :: ·) (hi _)

theorem exists_mem_replies (resolver : Resolver σ) (state : σ) {name : String}
    {names : List String} (h : name ∈ names) :
    ∃ reply, ⟨name, reply⟩ ∈ (resolver.replies names state).1 := by
  rw [← map_name_replies resolver names state] at h
  have ⟨request, hr, hn⟩ := List.mem_map.mp h
  exact ⟨request.reply, hn ▸ hr⟩

theorem reply_of_mem_replies {name : String} {reply : Reply} {names : List String} {state : σ}
    (h : ⟨name, reply⟩ ∈ (resolver.replies names state).1) :
    ∃ state, reply = (resolver.resolve name state).1 := by
  induction names generalizing state
  case nil => cases h
  case cons name names hi =>
    cases List.mem_cons.mp h
    case inl h =>
      cases h
      exact ⟨state, rfl⟩
    case inr h => exact hi h

-- Binding what is replied to some names changes nothing under the others.
theorem getElem?_replied_of_not_mem {name : String} {names : List String} {state : σ}
    (hn : name ∉ names) :
    (bindReplies (resolver.replies names state).1 bindings)[name]? = bindings[name]? := by
  refine getElem?_bindReplies_of_not_mem ?_
  rwa [map_name_replies]

theorem getElem?_replied_of_mem {name : String} {reply : Reply} {names : List String} {state : σ}
    (hd : names.Nodup) (hr : ⟨name, reply⟩ ∈ (resolver.replies names state).1)
    (hb : bindings[name]? = none) :
    (bindReplies (resolver.replies names state).1 bindings)[name]? = reply.value? := by
  refine getElem?_bindReplies_of_mem ?_ hr hb
  rwa [map_name_replies]

end Resolver

-- The record of an evaluation grows by the replies to some names.
theorem exists_replies_evaluate (functions : Functions) (resolver : Resolver σ) (tree : Tree)
    (bindings : Variables) (state : σ) (past : List Request) :
    ∃ names, (evaluate functions resolver.recorded tree bindings (state, past)).resolver =
      ((resolver.replies names state).2, past ++ (resolver.replies names state).1) := by
  let P (_ : Variables) (current : σ × List Request) : Prop :=
    ∃ names, current =
      ((resolver.replies names state).2, past ++ (resolver.replies names state).1)
  have hp : P bindings (state, past) :=
    ⟨[], congrArg (Prod.mk state) (List.append_nil past).symm⟩
  refine evaluate_keeps (P := P) (fun name bindings current h => ?_) tree hp
  cases hb : bindings[name]?
  case some x =>
    rw [lookUp_of_some hb]
    exact h
  case none =>
    have ⟨names, hn⟩ := h
    refine ⟨names ++ [name], ?_⟩
    rw [lookUp_of_none hb, resolver_ask, hn, Resolver.replies_append, ← List.append_assoc]
    rfl

-- With a record an evaluation is the same. The record tells the replies to the names that are asked
-- for, and the resolver is left in the state after them.
theorem evaluate_recorded (functions : Functions) (resolver : Resolver σ) (tree : Tree)
    (bindings : Variables) (state : σ) (past : List Request) :
    let run := evaluate functions resolver tree bindings state
    ∃ requests, resolver.replies (Event.askedNames run.events) state = (requests, run.resolver) ∧
      evaluate functions resolver.recorded tree bindings (state, past) =
        ⟨run.result, run.bindings, (run.resolver, past ++ requests), run.events⟩ := by
  have ⟨requests, h⟩ := exists_makes_evaluate functions resolver tree bindings (state, past)
  have ⟨names, hn⟩ := exists_replies_evaluate functions resolver tree bindings state past
  have hr : requests = (resolver.replies names state).1 :=
    List.append_cancel_left (h.record_eq.symm.trans (congrArg (·.2) hn))
  have ha : Event.askedNames _ = names :=
    h.events_eq.trans (hr ▸ Resolver.map_name_replies resolver names state)
  rw [← forget_evaluate_recorded functions resolver tree bindings (state, past)]
  simp only [Evaluation.forget, ha, hn]
  refine ⟨_, rfl, ?_⟩
  rw [← hn]

theorem Settled.of_append {requests more : List Request} {request : Request}
    {result : Except EvalFault Float} (h : Settled (requests ++ request :: more) result) :
    (∀ request ∈ requests, ∃ x, request.reply = .value x) ∧
      ∀ fault, request.reply.fault? request.name = some fault →
        more = [] ∧ result = .error fault := by
  cases List.eq_nil_or_concat more
  case inl hm =>
    subst hm
    have ⟨ha, hf⟩ := h.of_last
    exact ⟨ha, fun fault hr => ⟨rfl, hf fault hr⟩⟩
  case inr hm =>
    obtain ⟨others, last, rfl⟩ := hm
    rw [List.concat_eq_append, ← List.cons_append, ← List.append_assoc] at h
    have ⟨ha, hl⟩ := List.forall_mem_append.mp h.of_last.1
    refine ⟨ha, fun fault hr => ?_⟩
    have ⟨x, hx⟩ := hl request List.mem_cons_self
    rw [hx] at hr
    cases hr

-- An evaluation that may ask for some unbound names: it asks for the first ones of them, and for
-- all of them if it has a value, and it binds what is replied.
structure Evaluation.Asks (resolver : Resolver σ) (unbound : List String) (bindings : Variables)
    (state : σ) (evaluation : Evaluation σ) : Prop where
  isPrefix : Event.askedNames evaluation.events <+: unbound
  complete : ∀ x, evaluation.result = .ok x → Event.askedNames evaluation.events = unbound
  resolver_eq :
    evaluation.resolver = (resolver.replies (Event.askedNames evaluation.events) state).2
  bindings_eq : evaluation.bindings =
    bindReplies (resolver.replies (Event.askedNames evaluation.events) state).1 bindings
  settled : Settled (resolver.replies (Event.askedNames evaluation.events) state).1
    evaluation.result

theorem asks_evaluate (functions : Functions) (resolver : Resolver σ) (tree : Tree)
    (bindings : Variables) (state : σ) :
    (evaluate functions resolver tree bindings state).Asks resolver
      (tree.unbound functions bindings) bindings state := by
  have ⟨made, h⟩ := exists_makes_evaluate functions resolver tree bindings (state, [])
  have ⟨requests, hr, he⟩ := evaluate_recorded functions resolver tree bindings state []
  rw [he] at h
  have hm : requests = made := h.record_eq
  subst hm
  have ha : Event.askedNames _ = _ := h.events_eq
  constructor
  case isPrefix => exact ha ▸ h.isPrefix
  case complete => exact fun x hx => ha.trans (h.complete x hx)
  case resolver_eq => rw [hr]
  case bindings_eq =>
    rw [hr]
    exact h.bindings_eq
  case settled =>
    rw [hr]
    exact h.settled

namespace Evaluation.Asks

variable {tree : Tree} {state : σ} {evaluation : Evaluation σ} {name : String} {reply : Reply}

theorem nodup (h : evaluation.Asks resolver (tree.unbound functions bindings) bindings state) :
    (Event.askedNames evaluation.events).Nodup :=
  Tree.nodup_unbound.sublist h.isPrefix.sublist

theorem getElem?_of_mem
    (h : evaluation.Asks resolver (tree.unbound functions bindings) bindings state)
    (hn : name ∈ Event.askedNames evaluation.events) : bindings[name]? = none :=
  (Tree.mem_unbound.mp (h.isPrefix.mem hn)).2.2

theorem getElem?_bindings_of_not_mem
    (h : evaluation.Asks resolver (tree.unbound functions bindings) bindings state)
    (hn : name ∉ Event.askedNames evaluation.events) :
    evaluation.bindings[name]? = bindings[name]? := by
  rw [h.bindings_eq]
  exact Resolver.getElem?_replied_of_not_mem hn

theorem getElem?_bindings_of_mem
    (h : evaluation.Asks resolver (tree.unbound functions bindings) bindings state)
    (hr : ⟨name, reply⟩ ∈ (resolver.replies (Event.askedNames evaluation.events) state).1) :
    evaluation.bindings[name]? = reply.value? := by
  have hm : name ∈ Event.askedNames evaluation.events := by
    rw [← Resolver.map_name_replies resolver (Event.askedNames evaluation.events) state]
    exact List.mem_map_of_mem (f := Request.name) hr
  rw [h.bindings_eq]
  exact Resolver.getElem?_replied_of_mem h.nodup hr (h.getElem?_of_mem hm)

section

variable {unbound earlier later : List String}

theorem settled_at (h : evaluation.Asks resolver unbound bindings state)
    (he : Event.askedNames evaluation.events = earlier ++ name :: later) :
    let (requests, current) := resolver.replies earlier state
    let (reply, next) := resolver.resolve name current
    Settled (requests ++ ⟨name, reply⟩ :: (resolver.replies later next).1) evaluation.result := by
  have hs := h.settled
  rw [he, Resolver.replies_append] at hs
  exact hs

theorem answered_before (h : evaluation.Asks resolver unbound bindings state)
    (he : Event.askedNames evaluation.events = earlier ++ name :: later) :
    ∀ request ∈ (resolver.replies earlier state).1, ∃ x, request.reply = .value x :=
  (h.settled_at he).of_append.1

-- A request that brings no value is the last one.
theorem of_fault {fault : EvalFault} (h : evaluation.Asks resolver unbound bindings state)
    (he : Event.askedNames evaluation.events = earlier ++ name :: later)
    (hf : (resolver.resolve name (resolver.replies earlier state).2).1.fault? name = some fault) :
    later = [] ∧ evaluation.result = .error fault ∧
      evaluation.resolver = (resolver.resolve name (resolver.replies earlier state).2).2 := by
  have ⟨hl, hr⟩ := (h.settled_at he).of_append.2 fault hf
  have hn : later = [] := by
    rw [← Resolver.map_name_replies resolver later, hl, List.map_nil]
  subst hn
  refine ⟨rfl, hr, ?_⟩
  rw [h.resolver_eq, he, Resolver.replies_append]
  rfl

theorem getElem?_bindings_at
    (h : evaluation.Asks resolver (tree.unbound functions bindings) bindings state)
    (he : Event.askedNames evaluation.events = earlier ++ name :: later) :
    evaluation.bindings[name]? =
      (resolver.resolve name (resolver.replies earlier state).2).1.value? := by
  refine h.getElem?_bindings_of_mem ?_
  rw [he, Resolver.replies_append]
  exact List.mem_append_right _ List.mem_cons_self

end

end Evaluation.Asks

-- What an evaluation binds stands beside the variables before it and takes the place of none.
theorem bindings_evaluate (functions : Functions) (resolver : Resolver σ) (tree : Tree)
    (bindings : Variables) (state : σ) :
    let evaluation := evaluate functions resolver tree bindings state
    let asked := Event.askedNames evaluation.events
    evaluation.bindings = bindReplies (resolver.replies asked state).1 ∅ ∪ bindings := by
  intro evaluation asked
  have h : evaluation.Asks _ _ _ _ := asks_evaluate functions resolver tree bindings state
  apply Std.ExtTreeMap.ext_getElem?
  intro name
  rw [Std.ExtTreeMap.getElem?_union]
  by_cases hn : name ∈ asked
  case pos =>
    have ⟨reply, hr⟩ := Resolver.exists_mem_replies resolver state hn
    rw [h.getElem?_bindings_of_mem hr, h.getElem?_of_mem hn, Option.none_or]
    exact (Resolver.getElem?_replied_of_mem h.nodup hr Std.ExtTreeMap.getElem?_empty).symm
  case neg =>
    rw [h.getElem?_bindings_of_not_mem hn, Resolver.getElem?_replied_of_not_mem hn,
      Std.ExtTreeMap.getElem?_empty, Option.or_none]

end Reckoner
