import Reckoner.Proofs.Calculation
import Reckoner.Proofs.Evaluation.Faults

/-!
What an evaluation asks for. The names that are asked for are those of the variables without a
value, in the order in which they first occur in the tree. The values that come back are bound, and
nothing else changes. The first request that brings no value ends the evaluation.
-/

namespace Reckoner

-- The names without an argument, from left to right.
def Tree.varNames (tree : Tree) : List String :=
  tree.names.filterMap fun (name, called) => if called then none else some name

-- The variables of a list that are not bound, in the order in which they first occur.
def unboundAmong (functions : Functions) (bindings : Variables) (names : List String) :
    List String :=
  (names.filter fun name => !functions.contains name && bindings[name]?.isNone).eraseDups

def Tree.unbound (functions : Functions) (bindings : Variables) (tree : Tree) : List String :=
  unboundAmong functions bindings tree.varNames

-- A request for a variable and the reply to it.
structure Request where
  name : String
  reply : Reply

variable {σ : Type}

-- Replies as the resolver does, and keeps a record of it.
def Resolver.recorded (resolver : Resolver σ) : Resolver (σ × List Request) where
  resolve name state :=
    let (reply, next) := resolver.resolve name state.1
    (reply, next, state.2 ++ [⟨name, reply⟩])

namespace Reply

-- The value that a reply brings.
def value? : Reply → Option Float
  | value x => some x
  | nothing | ended | failed _ => none

-- The fault of an evaluation that gets the reply, if it brings no value.
def fault? (name : String) : Reply → Option EvalFault
  | value _         => none
  | nothing | ended => some (.undefinedVariable name)
  | failed fault    => some fault

end Reply

namespace Evaluation

-- The same evaluation without the record.
def forget (evaluation : Evaluation (σ × List Request)) : Evaluation σ :=
  ⟨evaluation.result, evaluation.bindings, evaluation.resolver.1, evaluation.events⟩

theorem forget_andThen (first : Evaluation (σ × List Request))
    (next : Float → Variables → σ × List Request → Evaluation (σ × List Request))
    (next' : Float → Variables → σ → Evaluation σ)
    (h : ∀ x bindings state, (next x bindings state).forget = next' x bindings state.1) :
    (first.andThen next).forget = first.forget.andThen next' := by
  cases hr : first.result
  case error => simp [andThen, forget, hr]
  case ok x => simp [andThen, ← h, forget, hr]

end Evaluation

variable {functions : Functions} {resolver : Resolver σ} {tree : Tree} {bindings : Variables}

-- The record makes no difference to an evaluation.
theorem forget_evaluate_recorded (functions : Functions) (resolver : Resolver σ) (tree : Tree)
    (bindings : Variables) (state : σ × List Request) :
    (evaluate functions resolver.recorded tree bindings state).forget =
      evaluate functions resolver tree bindings state.1 := by
  induction tree generalizing bindings state
  case number => rfl
  case var name =>
    unfold evaluate lookUp ask
    split
    case isTrue => rfl
    case isFalse =>
      split
      case h_1 => rfl
      case h_2 =>
        cases hr : (resolver.resolve name state.1).1
        all_goals simp [Resolver.recorded, hr, Evaluation.forget]
  case call name argument hi =>
    unfold evaluate
    split
    case h_1 => rfl
    case h_2 =>
      rw [← hi]
      exact Evaluation.forget_andThen _ _ _ fun _ _ _ => rfl
  case binary op left right hl hr =>
    unfold evaluate
    rw [← hl]
    refine Evaluation.forget_andThen _ _ _ fun x bindings state => ?_
    rw [← hr]
    exact Evaluation.forget_andThen _ _ _ fun _ _ _ => rfl

-- The variables with the value that a reply brings, if it brings one.
def Request.store (bindings : Variables) (request : Request) : Variables :=
  match request.reply.value? with
  | some x => bindings.insert request.name x
  | none   => bindings

def bindReplies (requests : List Request) (bindings : Variables) : Variables :=
  requests.foldl Request.store bindings

-- The requests that lead to a result: all of them bring values, but the last one may bring a fault,
-- which then is the result.
inductive Settled : List Request → Except EvalFault Float → Prop
  | answered {requests : List Request} {result : Except EvalFault Float} :
    (∀ request ∈ requests, ∃ x, request.reply = .value x) → Settled requests result
  | refused {requests : List Request} {name : String} {reply : Reply} {fault : EvalFault} :
    (∀ request ∈ requests, ∃ x, request.reply = .value x) → reply.fault? name = some fault →
    Settled (requests ++ [⟨name, reply⟩]) (.error fault)

-- An evaluation that may ask for the given names: the requests that it makes, and what it leaves.
structure Evaluation.Makes (wanted : List String) (bindings : Variables)
    (past requests : List Request) (evaluation : Evaluation (σ × List Request)) : Prop where
  record_eq : evaluation.resolver.2 = past ++ requests
  isPrefix : requests.map Request.name <+: wanted
  complete : ∀ x, evaluation.result = .ok x → requests.map Request.name = wanted
  bindings_eq : evaluation.bindings = bindReplies requests bindings
  settled : Settled requests evaluation.result
  events_eq : Event.askedNames evaluation.events = requests.map Request.name

theorem bindReplies_append (requests more : List Request) (bindings : Variables) :
    bindReplies (requests ++ more) bindings = bindReplies more (bindReplies requests bindings) :=
  List.foldl_append

namespace Settled

variable {requests more : List Request} {result : Except EvalFault Float}

theorem single {name : String} {reply : Reply} {fault : EvalFault}
    (h : reply.fault? name = some fault) : Settled [⟨name, reply⟩] (.error fault) :=
  @refused [] name reply fault (by simp) h

theorem all_answered {x : Float} (h : Settled requests (.ok x)) :
    ∀ request ∈ requests, ∃ x, request.reply = .value x := by
  cases h
  case answered h => exact h

theorem append (h : ∀ request ∈ requests, ∃ x, request.reply = .value x)
    (hm : Settled more result) : Settled (requests ++ more) result := by
  cases hm
  case answered hm => exact .answered (List.forall_mem_append.mpr ⟨h, hm⟩)
  case refused hm hf =>
    rw [← List.append_assoc]
    exact .refused (List.forall_mem_append.mpr ⟨h, hm⟩) hf

end Settled

namespace Evaluation.Makes

variable {wanted : List String} {past requests : List Request}
variable {first : Evaluation (σ × List Request)} {state : σ × List Request}
variable {next : Float → Variables → σ × List Request → Evaluation (σ × List Request)}

theorem of_ok (x : Float) {events : List Event} (h : Event.askedNames events = []) :
    Makes [] bindings state.2 [] ⟨.ok x, bindings, state, events⟩ where
  record_eq := (List.append_nil _).symm
  isPrefix := List.nil_prefix
  complete _ _ := rfl
  bindings_eq := rfl
  settled := .answered (by simp)
  events_eq := h

theorem of_fail (fault : EvalFault) (wanted : List String) :
    Makes wanted bindings state.2 [] (.fail fault bindings state) where
  record_eq := (List.append_nil _).symm
  isPrefix := List.nil_prefix
  complete _ h := nomatch h
  bindings_eq := rfl
  settled := .answered (by simp)
  events_eq := rfl

theorem of_ask (resolver : Resolver σ) (name : String) :
    Makes [name] bindings state.2 [⟨name, (resolver.resolve name state.1).1⟩]
      (ask resolver.recorded name bindings state) := by
  unfold ask
  cases hr : (resolver.resolve name state.1).1 <;> simp only [Resolver.recorded, hr]
  case value x =>
    exact ⟨rfl, List.prefix_rfl, fun _ _ => rfl, rfl, .answered (by simp), rfl⟩
  all_goals
    exact ⟨rfl, List.prefix_rfl, fun _ _ => rfl, rfl, .single rfl, rfl⟩

-- The requests of an evaluation that goes on are those of its parts. Only a value leads on, so the
-- first part has then made all of its requests.
theorem andThen {whole : List String} (h : first.Makes wanted bindings past requests)
    (hw : wanted <+: whole)
    (hn : ∀ x, first.result = .ok x → ∃ more, whole = wanted ++ more ∧ ∃ requests,
      Makes more first.bindings first.resolver.2 requests (next x first.bindings first.resolver)) :
    ∃ requests, Makes whole bindings past requests (first.andThen next) := by
  cases hr : first.result
  case error fault =>
    refine ⟨requests, ?_⟩
    simp only [Evaluation.andThen, hr]
    exact { h with
      isPrefix := h.isPrefix.trans hw
      complete := by simp [hr] }
  case ok x =>
    obtain ⟨more, rfl, requests', h'⟩ := hn x hr
    have hc := h.complete x hr
    refine ⟨requests ++ requests', ?_⟩
    simp only [Evaluation.andThen, hr]
    constructor
    case record_eq => simp [h'.record_eq, h.record_eq]
    case isPrefix => simpa [hc] using h'.isPrefix
    case complete =>
      intro y hy
      simp [hc, h'.complete y hy]
    case bindings_eq => rw [h'.bindings_eq, h.bindings_eq, bindReplies_append]
    case settled => exact .append (hr ▸ h.settled).all_answered h'.settled
    case events_eq => simp [Event.askedNames_append, h.events_eq, h'.events_eq]

end Evaluation.Makes

section

variable {request : Request} {requests : List Request} {name : String}

theorem Request.getElem?_store_of_ne (h : request.name ≠ name) :
    (store bindings request)[name]? = bindings[name]? := by
  unfold store
  split
  case h_1 => simp [Std.ExtTreeMap.getElem?_insert, h]
  case h_2 => rfl

theorem Request.getElem?_store_self (h : bindings[request.name]? = none) :
    (store bindings request)[request.name]? = request.reply.value? := by
  unfold store
  split
  case h_1 hv => simp [hv]
  case h_2 hv => rw [h, hv]

theorem getElem?_bindReplies_of_not_mem (h : name ∉ requests.map Request.name) :
    (bindReplies requests bindings)[name]? = bindings[name]? := by
  induction requests generalizing bindings
  case nil => rfl
  case cons request requests hi =>
    rw [List.map_cons, List.mem_cons, not_or] at h
    exact (hi h.2).trans (Request.getElem?_store_of_ne (Ne.symm h.1))

-- Where no name is asked for twice, a name that was not bound gets what was replied.
theorem getElem?_bindReplies_of_mem (hn : (requests.map Request.name).Nodup)
    (hm : request ∈ requests) (hb : bindings[request.name]? = none) :
    (bindReplies requests bindings)[request.name]? = request.reply.value? := by
  induction requests generalizing bindings
  case nil => cases hm
  case cons first requests hi =>
    rw [List.map_cons, List.nodup_cons] at hn
    cases List.mem_cons.mp hm
    case inl he =>
      subst he
      exact (getElem?_bindReplies_of_not_mem hn.1).trans (Request.getElem?_store_self hb)
    case inr hm =>
      have hne : first.name ≠ request.name := fun he => hn.1 (he ▸ List.mem_map_of_mem hm)
      exact hi hn.2 hm ((Request.getElem?_store_of_ne hne).trans hb)

end

theorem nodup_eraseDups (names : List String) : names.eraseDups.Nodup := by
  induction h : names.length using Nat.strong_induction_on generalizing names
  case h n hi =>
    cases names
    case nil => exact List.nodup_nil
    case cons name names =>
      rw [List.eraseDups_cons, List.nodup_cons]
      refine ⟨by simp, hi _ ?_ _ rfl⟩
      rw [← h]
      exact Nat.lt_succ_of_le (List.length_filter_le _ _)

section

variable {names : List String} {name : String}

theorem mem_unboundAmong : name ∈ unboundAmong functions bindings names ↔
    name ∈ names ∧ functions.contains name = false ∧ bindings[name]? = none := by
  simp [unboundAmong]

theorem nodup_unboundAmong : (unboundAmong functions bindings names).Nodup :=
  nodup_eraseDups _

-- When the variables at the head of a list have been asked for and bound, those behind are left.
theorem unboundAmong_append (more : List String) {requests : List Request}
    (hn : requests.map Request.name = unboundAmong functions bindings names)
    (ha : ∀ request ∈ requests, ∃ x, request.reply = .value x) :
    unboundAmong functions bindings (names ++ more) =
      unboundAmong functions bindings names ++
        unboundAmong functions (bindReplies requests bindings) more := by
  simp only [unboundAmong, List.filter_append, List.eraseDups_append, List.removeAll,
    List.filter_filter]
  congr 2
  apply List.filter_congr
  intro name _
  have hl : (names.filter fun name =>
      !functions.contains name && bindings[name]?.isNone).elem name =
        decide (name ∈ unboundAmong functions bindings names) := by
    simp [unboundAmong]
  change (!List.elem name (names.filter _) && _) = _
  rw [hl]
  by_cases hm : name ∈ unboundAmong functions bindings names
  case pos =>
    obtain ⟨request, hr, rfl⟩ := List.mem_map.mp (hn ▸ hm)
    have ⟨x, hx⟩ := ha request hr
    have hb := getElem?_bindReplies_of_mem (hn ▸ nodup_unboundAmong) hr (mem_unboundAmong.mp hm).2.2
    simp [hm, hb, hx, Reply.value?]
  case neg =>
    have hb := @getElem?_bindReplies_of_not_mem bindings requests name (hn ▸ hm)
    simp [hm, hb]

end

namespace Tree

theorem mem_unbound {name : String} : name ∈ tree.unbound functions bindings ↔
    name ∈ tree.varNames ∧ functions.contains name = false ∧ bindings[name]? = none :=
  mem_unboundAmong

theorem nodup_unbound : (tree.unbound functions bindings).Nodup :=
  nodup_unboundAmong

theorem unbound_var {name : String} (hc : functions.contains name = false)
    (hb : bindings[name]? = none) : (var name).unbound functions bindings = [name] := by
  simp [unbound, unboundAmong, varNames, names, hc, hb, List.eraseDups_cons]

theorem varNames_binary (op : Operator) (left right : Tree) :
    (binary op left right).varNames = left.varNames ++ right.varNames := by
  simp only [varNames, names, List.filterMap_append]

-- When the variables on the left have been asked for and bound, those on the right are left.
theorem unbound_binary (op : Operator) {left right : Tree} {requests : List Request}
    (hn : requests.map Request.name = left.unbound functions bindings)
    (ha : ∀ request ∈ requests, ∃ x, request.reply = .value x) :
    (binary op left right).unbound functions bindings =
      left.unbound functions bindings ++
        right.unbound functions (bindReplies requests bindings) := by
  rw [unbound, varNames_binary]
  exact unboundAmong_append _ hn ha

theorem unbound_isPrefix_binary (op : Operator) (left right : Tree) :
    left.unbound functions bindings <+: (binary op left right).unbound functions bindings := by
  simp only [unbound, unboundAmong, varNames, names, List.filterMap_append, List.filter_append,
    List.eraseDups_append]
  exact List.prefix_append _ _

end Tree

-- By induction on the tree, for all variables and all records before it.
theorem exists_makes_evaluate (functions : Functions) (resolver : Resolver σ) (tree : Tree)
    (bindings : Variables) (state : σ × List Request) :
    ∃ requests, (evaluate functions resolver.recorded tree bindings state).Makes
      (tree.unbound functions bindings) bindings state.2 requests := by
  induction tree generalizing bindings state
  case number x => exact ⟨[], .of_ok x rfl⟩
  case var name =>
    unfold evaluate lookUp
    cases hc : functions.contains name
    case true => exact ⟨[], .of_fail _ _⟩
    case false =>
      cases hb : bindings[name]?
      case none =>
        rw [Tree.unbound_var hc hb]
        exact ⟨_, .of_ask resolver name⟩
      case some x =>
        have hu : (Tree.var name).unbound functions bindings = [] := by
          simp [Tree.unbound, unboundAmong, Tree.varNames, Tree.names, hc, hb]
        rw [hu]
        exact ⟨[], .of_ok x rfl⟩
  case call function argument hi =>
    unfold evaluate
    cases functions.get? function
    case none => exact ⟨[], .of_fail _ _⟩
    case some f =>
      obtain ⟨requests, h⟩ := hi bindings state
      exact h.andThen List.prefix_rfl fun x _ => ⟨[], (List.append_nil _).symm, [], .of_ok _ rfl⟩
  case binary op left right hl hr =>
    unfold evaluate
    let first := evaluate functions resolver.recorded left bindings state
    obtain ⟨requests, h⟩ := hl bindings state
    refine h.andThen (Tree.unbound_isPrefix_binary op left right) fun x hx => ?_
    have hu := @Tree.unbound_binary _ _ op _ right _ (h.complete x hx) (hx ▸ h.settled).all_answered
    rw [← h.bindings_eq] at hu
    obtain ⟨requests', h'⟩ := hr first.bindings first.resolver
    refine ⟨_, hu, h'.andThen List.prefix_rfl fun y _ => ?_⟩
    exact ⟨[], (List.append_nil _).symm, [], .of_ok _ rfl⟩

theorem Reply.value?_eq_some {reply : Reply} {x : Float} (h : reply.value? = some x) :
    reply = .value x := by
  cases reply <;> cases h
  rfl

theorem Reply.value?_eq_none {reply : Reply} {name : String} {fault : EvalFault}
    (h : reply.fault? name = some fault) : reply.value? = none := by
  cases reply <;> first | rfl | cases h

namespace Settled

variable {requests : List Request} {result : Except EvalFault Float} {name : String} {reply : Reply}

theorem of_last (h : Settled (requests ++ [⟨name, reply⟩]) result) :
    (∀ request ∈ requests, ∃ x, request.reply = .value x) ∧
      ∀ fault, reply.fault? name = some fault → result = .error fault := by
  generalize hs : requests ++ [⟨name, reply⟩] = all at h
  cases h
  case answered h =>
    subst hs
    have ⟨h, hl⟩ := List.forall_mem_append.mp h
    refine ⟨h, fun fault hf => ?_⟩
    have ⟨x, hx⟩ := hl _ (List.mem_singleton_self _)
    simp only at hx
    rw [hx] at hf
    cases hf
  case refused h hf =>
    have ⟨hr, hl⟩ := List.append_inj' hs rfl
    cases hr
    cases hl
    refine ⟨h, fun fault' hf' => ?_⟩
    rw [hf] at hf'
    rw [Option.some.inj hf']

end Settled

-- The requests of an evaluation are the first ones of those for the unbound variables, and all of
-- them if it has a value. It binds what was replied and changes nothing else. Only the last request
-- may bring no value, and this is then the fault of the evaluation.
theorem requests_of_evaluate (environment : Environment) (resolver : Resolver σ) (tree : Tree)
    (state : σ) :
    let unbound := tree.unbound environment.functions environment.variables
    let run := environment.evaluate resolver.recorded tree (state, [])
    let requests := run.resolver.2
    let asked := requests.map Request.name
    environment.evaluate resolver tree state =
      ⟨run.result, run.environment, run.resolver.1, run.events⟩ ∧
    Event.askedNames run.events = asked ∧
    (unbound.Nodup ∧ asked <+: unbound ∧ ∀ x, run.result = .ok x → asked = unbound) ∧
    run.environment.functions = environment.functions ∧
    (∀ name x, environment.get? name = some x → run.environment.get? name = some x) ∧
    (∀ name x, environment.get? name = none →
      (run.environment.get? name = some x ↔ ⟨name, .value x⟩ ∈ requests)) ∧
    ∀ earlier name reply, requests = earlier ++ [⟨name, reply⟩] →
      (∀ request ∈ earlier, ∃ x, request.reply = .value x) ∧
      ∀ fault, reply.fault? name = some fault →
        run.result = .error (.eval fault) ∧ run.environment.get? name = none := by
  intro unbound run requests asked
  have ⟨requests', h⟩ :=
    exists_makes_evaluate environment.functions resolver tree environment.variables (state, [])
  have hr : requests = requests' := h.record_eq
  subst hr
  have hn : asked.Nodup := Tree.nodup_unbound.sublist h.isPrefix.sublist
  have hu (request : Request) (hm : request ∈ requests) :
      environment.get? request.name = none :=
    (Tree.mem_unbound.mp (h.isPrefix.mem (List.mem_map_of_mem hm))).2.2
  have hb (name : String) : run.environment.get? name =
      (bindReplies requests environment.variables)[name]? :=
    congrArg (·[name]?) h.bindings_eq
  refine ⟨?_, h.events_eq, ⟨Tree.nodup_unbound, h.isPrefix, ?_⟩, rfl, ?_, ?_, ?_⟩
  · unfold Environment.evaluate
    rw [← forget_evaluate_recorded _ _ _ _ (state, [])]
    rfl
  · intro x hx
    exact h.complete x (Environment.result_evaluate_eq_ok_iff.mp hx)
  · intro name x hx
    have hm : name ∉ asked := by
      intro hm
      obtain ⟨request, hr, rfl⟩ := List.mem_map.mp hm
      cases hx.symm.trans (hu request hr)
    rw [hb, getElem?_bindReplies_of_not_mem hm]
    exact hx
  · intro name x hx
    rw [hb]
    constructor
    case mp =>
      intro hv
      by_cases hm : name ∈ asked
      case pos =>
        obtain ⟨request, hr, rfl⟩ := List.mem_map.mp hm
        rw [getElem?_bindReplies_of_mem hn hr hx] at hv
        rwa [← Reply.value?_eq_some hv]
      case neg =>
        rw [getElem?_bindReplies_of_not_mem hm] at hv
        cases hx.symm.trans hv
    case mpr => exact fun hm => getElem?_bindReplies_of_mem hn hm hx
  · intro earlier name reply he
    have ⟨ha, hf⟩ := (he ▸ h.settled).of_last
    refine ⟨ha, fun fault hr => ⟨?_, ?_⟩⟩
    · exact Environment.result_evaluate_eq_error_iff.mpr (hf fault hr)
    · have hm : ⟨name, reply⟩ ∈ requests := by simp [he]
      have hv := getElem?_bindReplies_of_mem hn hm (hu _ hm)
      exact (hb name).trans (hv.trans (Reply.value?_eq_none hr))

end Reckoner
