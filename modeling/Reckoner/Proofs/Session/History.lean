import Reckoner.Session
import Reckoner.Proofs.Evaluation.Replies

/-!
The history of a session: the definitions that were made in it, and the requests that its
evaluations made with the replies to them. It tells the value of each variable, and no request is
made for a variable that has one.
-/

namespace Reckoner

-- What can happen to the variables of a session.
inductive Happening
  | defined (name : String) (value : Float)
  | asked (request : Request)

namespace Happening

def store (bindings : Variables) : Happening → Variables
  | defined name x => bindings.insert name x
  | asked request  => request.store bindings

-- The value that is given to a name.
def value? (name : String) : Happening → Option Float
  | defined other x => if other = name then some x else none
  | asked request   => if request.name = name then request.reply.value? else none

-- The value that is given to a name in reply to a request.
def answer? (name : String) : Happening → Option Float
  | defined ..    => none
  | asked request => if request.name = name then request.reply.value? else none

theorem getElem?_store (bindings : Variables) (happening : Happening) (name : String) :
    (happening.store bindings)[name]? = (happening.value? name).or bindings[name]? := by
  cases happening
  case defined other x =>
    by_cases hn : other = name <;> simp [store, value?, Std.ExtTreeMap.getElem?_insert, hn]
  case asked request =>
    unfold store Request.store value?
    by_cases hn : request.name = name <;> cases hv : request.reply.value?
    all_goals simp [hn, hv, Std.ExtTreeMap.getElem?_insert]

end Happening

-- The variables after some happenings.
def replay (bindings : Variables) (history : List Happening) : Variables :=
  history.foldl Happening.store bindings

-- The value that was given to a name last.
def latest? (name : String) (history : List Happening) : Option Float :=
  history.reverse.findSome? (·.value? name)

-- The values that were given to a name in reply to requests.
def answers (name : String) (history : List Happening) : List Float :=
  history.filterMap (·.answer? name)

theorem getElem?_replay (bindings : Variables) (history : List Happening) (name : String) :
    (replay bindings history)[name]? = (latest? name history).or bindings[name]? := by
  induction history generalizing bindings
  case nil => rfl
  case cons happening history hi =>
    have hl : latest? name (happening :: history) =
        (latest? name history).or (happening.value? name) := by
      simp [latest?, List.findSome?_append]
    rw [hl, Option.or_assoc, ← Happening.getElem?_store]
    exact hi _

-- No request is made for a name that is bound at that time.
def Sparing : Variables → List Happening → Prop
  | _, [] => True
  | bindings, .defined name x :: history => Sparing (bindings.insert name x) history
  | bindings, .asked request :: history =>
    bindings[request.name]? = none ∧ Sparing (request.store bindings) history

namespace Sparing

variable {bindings : Variables} {history more : List Happening} {name : String}

theorem append (h : Sparing bindings history) (hm : Sparing (replay bindings history) more) :
    Sparing bindings (history ++ more) := by
  induction history generalizing bindings
  case nil => exact hm
  case cons happening history hi =>
    cases happening
    case defined => exact hi h hm
    case asked => exact ⟨h.1, hi h.2 hm⟩

theorem of_append (h : Sparing bindings (history ++ more)) :
    Sparing (replay bindings history) more := by
  induction history generalizing bindings
  case nil => exact h
  case cons happening history hi =>
    cases happening
    case defined => exact hi h
    case asked => exact hi h.2

-- A name that is bound gets no value from a reply any more.
theorem answers_eq_nil (h : Sparing bindings history) (hb : bindings[name]?.isSome) :
    answers name history = [] := by
  induction history generalizing bindings
  case nil => rfl
  case cons happening history hi =>
    have hs : (happening.store bindings)[name]?.isSome := by
      rw [Happening.getElem?_store, Option.isSome_or, hb, Bool.or_true]
    cases happening
    case defined => exact hi h hs
    case asked request =>
      have hn : request.name ≠ name := by
        intro hn
        rw [← hn, h.1] at hb
        cases hb
      have ha : (Happening.asked request).answer? name = none := if_neg hn
      exact (List.filterMap_cons_none ha).trans (hi h.2 hs)

theorem length_answers_le (name : String) (h : Sparing bindings history) :
    (answers name history).length ≤ 1 := by
  induction history generalizing bindings
  case nil => exact Nat.zero_le 1
  case cons happening history hi =>
    cases happening
    case defined => exact hi h
    case asked request =>
      cases ha : (Happening.asked request).answer? name
      case none =>
        rw [answers, List.filterMap_cons_none ha]
        exact hi h.2
      case some x =>
        have hv : (Happening.asked request).value? name = some x := ha
        have hs : ((Happening.asked request).store bindings)[name]?.isSome := by
          rw [Happening.getElem?_store, hv]
          rfl
        have hn : history.filterMap (·.answer? name) = [] := answers_eq_nil h.2 hs
        rw [answers, List.filterMap_cons_some ha, hn, List.length_singleton]

-- What a resolver replies to names that are all different and not bound.
theorem of_replies {σ : Type} (resolver : Resolver σ) {names : List String} (state : σ)
    (hn : names.Nodup) (hb : ∀ name ∈ names, bindings[name]? = none) :
    Sparing bindings ((resolver.replies names state).1.map .asked) := by
  induction names generalizing bindings state
  case nil => trivial
  case cons name names hi =>
    have ⟨hm, hn⟩ := List.nodup_cons.mp hn
    have ⟨h, hb⟩ := List.forall_mem_cons.mp hb
    refine ⟨h, hi _ hn fun other ho => ?_⟩
    have hne : name ≠ other := fun he => hm (he ▸ ho)
    exact (Request.getElem?_store_of_ne hne).trans (hb other ho)

end Sparing

section

variable {σ : Type} (resolver : Resolver σ) (environment : Environment) (state : σ)
variable (past : List Request)

theorem Environment.evaluate_recorded (tree : Tree) :
    let run := environment.evaluate resolver tree state
    ∃ requests, resolver.replies (Event.askedNames run.events) state = (requests, run.resolver) ∧
      environment.evaluate resolver.recorded tree (state, past) =
        ⟨run.result, run.environment, (run.resolver, past ++ requests), run.events⟩ := by
  have ⟨requests, hr, he⟩ :=
    Reckoner.evaluate_recorded environment.functions resolver tree environment.variables state past
  refine ⟨requests, hr, ?_⟩
  unfold evaluate
  rw [he]

-- Only the evaluation asks for anything.
theorem Environment.calculate_recorded (source : Source) :
    let run := environment.calculate resolver source state
    ∃ requests, resolver.replies (Event.askedNames run.events) state = (requests, run.resolver) ∧
      environment.calculate resolver.recorded source (state, past) =
        ⟨run.result, run.environment, (run.resolver, past ++ requests), run.events⟩ := by
  cases hb : (build environment.functions source).result
  case error =>
    simp only [calculate_of_build_error hb, Event.askedNames_build]
    exact ⟨[], rfl, by rw [List.append_nil]⟩
  case ok tree =>
    have ⟨requests, hr, he⟩ := environment.evaluate_recorded resolver state past tree
    simp only [calculate_of_build hb, he, Event.askedNames_append, Event.askedNames_build]
    exact ⟨requests, hr, rfl⟩

-- By induction on the trees. Each evaluation starts in the state that the one before left, and with
-- its record.
theorem Session.evaluateAll_recorded (trees : List Tree) :
    let run := evaluateAll resolver trees environment state
    ∃ requests, resolver.replies (Event.askedNames run.events) state = (requests, run.resolver) ∧
      evaluateAll resolver.recorded trees environment (state, past) =
        ⟨run.results, run.environment, (run.resolver, past ++ requests), run.events⟩ := by
  induction trees generalizing environment state past
  case nil => exact ⟨[], rfl, by rw [List.append_nil]; rfl⟩
  case cons tree trees hi =>
    have ⟨requests, hr, he⟩ := environment.evaluate_recorded resolver state past tree
    have ⟨more, hm, ho⟩ := hi (environment.evaluate resolver tree state).environment
      (environment.evaluate resolver tree state).resolver (past ++ requests)
    refine ⟨requests ++ more, ?_, ?_⟩
    · simp only [evaluateAll, Event.askedNames_append, Resolver.replies_append, hr, hm]
    · simp only [evaluateAll, he, ho, List.append_assoc]

end

namespace Session

-- An operation on a session. Evaluations and calculations bring a resolver along, in some state.
inductive Step : Type 1
  | define (name : String) (value : Float)
  | register (name : String) (function : Float → Float)
  | remove (name : String)
  | build (source : Source)
  | plant (tree : Tree)
  | evaluate {σ : Type} (resolver : Resolver σ) (indices : List Nat) (state : σ)
  | calculate {σ : Type} (resolver : Resolver σ) (source : Source) (state : σ)

-- The session after an operation, whatever came of it.
def perform (session : Session) : Step → Session
  | .define name x => { session with environment := session.environment.define name x }
  | .register name f => { session with environment := session.environment.register name f }
  | .remove name => { session with environment := session.environment.remove name }
  | .build source => (session.build source).2
  | .plant tree => (session.plant tree).2
  | .evaluate resolver indices state => (session.evaluate resolver indices state).2
  | .calculate resolver source state => (session.calculate resolver source state).2

-- What happens to the variables in an operation. The requests are those that come to the resolver.
def happenings (session : Session) : Step → List Happening
  | .define name x => [.defined name x]
  | .evaluate resolver indices state =>
    (session.evaluate resolver.recorded indices (state, [])).1.resolver.2.map .asked
  | .calculate resolver source state =>
    (session.calculate resolver.recorded source (state, [])).1.resolver.2.map .asked
  | .register .. | .remove _ | .build _ | .plant _ => []

section

variable {σ : Type} (session : Session) (resolver : Resolver σ) (state : σ)

theorem evaluate_recorded (indices : List Nat) :
    let (run, next) := session.evaluate resolver indices state
    ∃ requests, resolver.replies (Event.askedNames run.events) state = (requests, run.resolver) ∧
      session.evaluate resolver.recorded indices (state, []) =
        (⟨run.results, run.environment, (run.resolver, requests), run.events⟩, next) := by
  have ⟨requests, hr, he⟩ := evaluateAll_recorded resolver session.environment state []
    (indices.filterMap (session.trees[·]?))
  refine ⟨requests, hr, ?_⟩
  simp only [evaluate, he, List.nil_append]

theorem calculate_recorded (source : Source) :
    let (run, next) := session.calculate resolver source state
    ∃ requests, resolver.replies (Event.askedNames run.events) state = (requests, run.resolver) ∧
      session.calculate resolver.recorded source (state, []) =
        (⟨run.result, run.environment, (run.resolver, requests), run.events⟩, next) := by
  have ⟨requests, hr, he⟩ := session.environment.calculate_recorded resolver state [] source
  refine ⟨requests, hr, ?_⟩
  simp only [calculate, he, List.nil_append]

end

def run (session : Session) (steps : List Step) : Session :=
  steps.foldl perform session

def history (session : Session) : List Step → List Happening
  | [] => []
  | step :: steps => session.happenings step ++ (session.perform step).history steps

end Session

-- What leads from some variables to others, without a request for one that is bound.
structure Leads (bindings : Variables) (history : List Happening) (final : Variables) : Prop where
  replay_eq : final = replay bindings history
  sparing : Sparing bindings history

namespace Leads

variable {σ : Type} {bindings middle final : Variables} {history more : List Happening}

theorem refl (bindings : Variables) : Leads bindings [] bindings :=
  ⟨rfl, trivial⟩

theorem trans (h : Leads bindings history middle) (hm : Leads middle more final) :
    Leads bindings (history ++ more) final where
  replay_eq := by rw [hm.replay_eq, h.replay_eq, replay, replay, replay, List.foldl_append]
  sparing := h.sparing.append (h.replay_eq ▸ hm.sparing)

variable (resolver : Resolver σ) (environment : Environment) (state : σ)

theorem evaluate (tree : Tree) :
    let run := environment.evaluate resolver tree state
    let requests := (resolver.replies (Event.askedNames run.events) state).1
    Leads environment.variables (requests.map .asked) run.environment.variables := by
  intro run requests
  have h := asks_evaluate environment.functions resolver tree environment.variables state
  constructor
  case replay_eq =>
    rw [replay, List.foldl_map]
    exact h.bindings_eq
  case sparing => exact .of_replies resolver state h.nodup fun _ => h.getElem?_of_mem

-- By induction on the trees. The evaluation of each one starts in the state of the resolver that
-- the one before left, so the requests of all of them are replied to one after the other.
theorem evaluateAll (trees : List Tree) :
    let run := Session.evaluateAll resolver trees environment state
    let requests := (resolver.replies (Event.askedNames run.events) state).1
    Leads environment.variables (requests.map .asked) run.environment.variables := by
  induction trees generalizing environment state
  case nil => exact refl _
  case cons tree trees hi =>
    have ⟨requests, hr, _⟩ := environment.evaluate_recorded resolver state [] tree
    have h := evaluate resolver environment state tree
    have hm := hi (environment.evaluate resolver tree state).environment
      (environment.evaluate resolver tree state).resolver
    simp only [Session.evaluateAll, Event.askedNames_append, Resolver.replies_append, hr,
      List.map_append] at h ⊢
    exact h.trans hm

theorem calculate (source : Source) :
    let run := environment.calculate resolver source state
    let requests := (resolver.replies (Event.askedNames run.events) state).1
    Leads environment.variables (requests.map .asked) run.environment.variables := by
  cases hb : (build environment.functions source).result
  case error =>
    simp only [Environment.calculate_of_build_error hb, Event.askedNames_build]
    exact refl _
  case ok tree =>
    simp only [Environment.calculate_of_build hb, Event.askedNames_append, Event.askedNames_build]
    exact evaluate resolver environment state tree

theorem perform (session : Session) (step : Session.Step) :
    Leads session.environment.variables (session.happenings step)
      (session.perform step).environment.variables := by
  cases step
  case define name x => exact ⟨rfl, trivial⟩
  case register | remove | plant => exact refl _
  case build source =>
    have hb : (session.build source).2.environment = session.environment := by
      unfold Session.build
      split <;> rfl
    exact hb ▸ refl _
  case evaluate resolver indices state =>
    obtain ⟨_, hr, he⟩ := session.evaluate_recorded resolver state indices
    cases congrArg Prod.fst hr
    rw [Session.happenings, he]
    exact evaluateAll resolver session.environment state _
  case calculate resolver source state =>
    obtain ⟨_, hr, he⟩ := session.calculate_recorded resolver state source
    cases congrArg Prod.fst hr
    rw [Session.happenings, he]
    exact calculate resolver session.environment state source

theorem run (session : Session) (steps : List Session.Step) :
    Leads session.environment.variables (session.history steps)
      (session.run steps).environment.variables := by
  induction steps generalizing session
  case nil => exact refl _
  case cons step steps hi => exact (perform session step).trans (hi _)

end Leads

namespace Session

-- The operation leaves the variables alone and asks for nothing.
def LeftAloneBy (session : Session) (step : Step) : Prop :=
  (session.perform step).environment.variables = session.environment.variables ∧
    session.happenings step = []

theorem leftAloneBy_iff (session : Session) (step : Step) :
    session.LeftAloneBy step ↔ session.happenings step = [] := by
  constructor
  case mp => exact And.right
  case mpr =>
    intro h
    have hp := (Leads.perform session step).replay_eq
    rw [h] at hp
    exact ⟨hp, h⟩

-- The resolver is not called, so it is left in the state in which it came.
theorem leftAloneBy_calculate {σ : Type} {session : Session} {resolver : Resolver σ}
    {source : Source} {state : σ} {error : Error}
    (h : (session.calculate resolver source state).1.result = .error error)
    (he : ∀ fault, error ≠ .eval fault) :
    session.LeftAloneBy (.calculate resolver source state) ∧
      (session.calculate resolver source state).1.resolver = state := by
  cases hb : (Reckoner.build session.environment.functions source).result
  case error =>
    rw [leftAloneBy_iff, happenings]
    simp only [calculate, Environment.calculate_of_build_error hb, List.map_nil, and_self]
  case ok tree =>
    have hr : (session.environment.evaluate resolver tree state).result = .error error := by
      rw [← h, calculate, Environment.calculate_of_build hb]
    have ⟨fault, hf⟩ := Environment.exists_fault_of_evaluate hr
    exact absurd hf (he fault)

end Session

-- After any operations on a session a variable has the value that it was given last, by a
-- definition or in reply to a request, and if it was bound it is bound. A request only comes to a
-- resolver for a name that was not given a value before, so a name is given a value in reply to at
-- most one request. Changes of the functions and sources without a tree leave the variables alone,
-- and the resolver too. Whether the requests are recorded makes no difference to an operation, and
-- the resolver has answered them and nothing else when it is over.
theorem variables_of_session (session : Session) (steps : List Session.Step) :
    let history := session.history steps
    let last := session.run steps
    (∀ name, last.environment.get? name =
      (latest? name history).or (session.environment.get? name)) ∧
    (∀ name, (session.environment.get? name).isSome → (last.environment.get? name).isSome) ∧
    (∀ earlier request later, history = earlier ++ .asked request :: later →
      latest? request.name earlier = none ∧ session.environment.get? request.name = none) ∧
    (∀ name, (answers name history).length ≤ 1) ∧
    (∀ name f, last.LeftAloneBy (.register name f)) ∧
    (∀ name, last.LeftAloneBy (.remove name)) ∧
    (∀ source, last.LeftAloneBy (.build source)) ∧
    ∀ {σ : Type} (resolver : Resolver σ) state,
      (∀ source error, (last.calculate resolver source state).1.result = .error error →
        (∀ fault, error ≠ .eval fault) →
        last.LeftAloneBy (.calculate resolver source state) ∧
          (last.calculate resolver source state).1.resolver = state) ∧
      (∀ source,
        let (run, next) := last.calculate resolver source state
        ∃ requests,
          resolver.replies (Event.askedNames run.events) state = (requests, run.resolver) ∧
          last.calculate resolver.recorded source (state, []) =
            (⟨run.result, run.environment, (run.resolver, requests), run.events⟩, next)) ∧
      ∀ indices,
        let (run, next) := last.evaluate resolver indices state
        ∃ requests,
          resolver.replies (Event.askedNames run.events) state = (requests, run.resolver) ∧
          last.evaluate resolver.recorded indices (state, []) =
            (⟨run.results, run.environment, (run.resolver, requests), run.events⟩, next) := by
  intro history last
  have h : Leads _ history _ := Leads.run session steps
  have hv (name : String) : last.environment.get? name =
      (latest? name history).or (session.environment.get? name) := by
    rw [Environment.get?, h.replay_eq, getElem?_replay]
    rfl
  refine ⟨hv, ?bound, ?asked, fun name => h.sparing.length_answers_le name, ?_, ?_, ?_, ?calls⟩
  case bound =>
    intro name hb
    rw [hv, Option.isSome_or, hb, Bool.or_true]
  case asked =>
    intro earlier request later he
    have hs := (he ▸ h.sparing).of_append.1
    rw [getElem?_replay, Option.or_eq_none_iff] at hs
    exact hs
  · exact fun name f => (last.leftAloneBy_iff _).mpr rfl
  · exact fun name => (last.leftAloneBy_iff _).mpr rfl
  · exact fun source => (last.leftAloneBy_iff _).mpr rfl
  case calls =>
    intro σ resolver state
    refine ⟨?_, last.calculate_recorded resolver state, last.evaluate_recorded resolver state⟩
    exact fun source error hr he => Session.leftAloneBy_calculate hr he

end Reckoner
