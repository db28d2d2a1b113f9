import Reckoner.Proofs.Evaluation.Answered

/-!
The fault that an evaluation ends with. When it is settled beforehand which variables get a value,
each name in a tree is at fault or it is not, whatever stands around it. An evaluation has a value
exactly if no name is at fault. Otherwise it ends at the first one that is, in the order in which
the tree is written, and what stands behind this name plays no part.
-/

namespace Reckoner

-- The names of a list that have no argument.
def uncalled (names : List (String × Bool)) : List String :=
  names.filterMap fun (name, called) => if called then none else some name

theorem uncalled_append (names more : List (String × Bool)) :
    uncalled (names ++ more) = uncalled names ++ uncalled more :=
  List.filterMap_append

-- The value of a variable that is bound, or the one that is replied to the request for it.
def knownValue? (bindings : Variables) (value? : String → Option Float) (name : String) :
    Option Float :=
  bindings[name]?.or (value? name)

-- Why a name in a tree cannot be evaluated, if it cannot. With an argument it has to be the name of
-- a function. Without one it must not be, even if there is a value for it, and it needs a value.
def nameFault? (functions : Functions) (known? : String → Option Float) :
    String × Bool → Option EvalFault
  | (name, true) => if functions.contains name then none else some (.notAFunction name)
  | (name, false) =>
    if functions.contains name then some (.missingArgument name)
    else if (known? name).isSome then none
    else some (.undefinedVariable name)

-- Why a name cannot be evaluated in an environment, with a function that gives the replies.
def Environment.fault? (environment : Environment) (value? : String → Option Float) :
    String × Bool → Option EvalFault :=
  nameFault? environment.functions (knownValue? environment.variables value?)

-- The name at the root of a tree, and whether it has an argument.
def Tree.head? : Tree → Option (String × Bool)
  | .var name             => some (name, false)
  | .call function _      => some (function, true)
  | .number _ | .binary .. => none

-- A tree with a gap in the place of one of its parts.
inductive Context
  | gap
  | argumentOf (function : String) (inner : Context)
  | leftOf (op : Operator) (inner : Context) (right : Tree)
  | rightOf (op : Operator) (left : Tree) (inner : Context)

namespace Context

def fill (part : Tree) : Context → Tree
  | gap                       => part
  | argumentOf function inner => .call function (inner.fill part)
  | leftOf op inner right     => .binary op (inner.fill part) right
  | rightOf op left inner     => .binary op left (inner.fill part)

-- The names before the gap, in the order of those of a tree.
def before : Context → List (String × Bool)
  | gap                       => []
  | argumentOf function inner => (function, true) :: inner.before
  | leftOf _ inner _          => inner.before
  | rightOf _ left inner      => left.names ++ inner.before

theorem exists_names_fill (context : Context) (part : Tree) :
    ∃ after, (context.fill part).names = context.before ++ part.names ++ after := by
  induction context
  case gap => exact ⟨[], (List.append_nil _).symm⟩
  case argumentOf function inner hi =>
    have ⟨after, hi⟩ := hi
    exact ⟨after, congrArg ((function, true) :: ·) hi⟩
  case leftOf op inner right hi =>
    have ⟨after, hi⟩ := hi
    exact ⟨after ++ right.names, by simp [fill, before, Tree.names, hi]⟩
  case rightOf op left inner hi =>
    have ⟨after, hi⟩ := hi
    exact ⟨after, by simp [fill, before, Tree.names, hi]⟩

end Context

-- Of all names in a tree, the one at the root of a part is the first that is at fault.
structure FirstFault (fault? : String × Bool → Option EvalFault) (tree : Tree) (context : Context)
    (part : Tree) (name : String × Bool) (fault : EvalFault) : Prop where
  tree_eq : tree = context.fill part
  head?_eq : part.head? = some name
  before : ∀ earlier ∈ context.before, fault? earlier = none
  fault?_eq : fault? name = some fault

theorem Tree.head?_mem_names {tree : Tree} {name : String × Bool} (h : tree.head? = some name) :
    name ∈ tree.names := by
  cases tree <;> cases h <;> exact List.mem_cons_self

-- By induction on the tree, in the order in which its names are listed.
theorem exists_firstFault (fault? : String × Bool → Option EvalFault) (tree : Tree) :
    (∀ name ∈ tree.names, fault? name = none) ∨
      ∃ context part name fault, FirstFault fault? tree context part name fault := by
  induction tree
  case number => exact .inl (List.forall_mem_nil _)
  case var name =>
    cases hf : fault? (name, false)
    case none => exact .inl (List.forall_mem_singleton.mpr hf)
    case some fault => exact .inr ⟨.gap, _, _, fault, rfl, rfl, List.forall_mem_nil _, hf⟩
  case call function argument hi =>
    cases hf : fault? (function, true)
    case some fault => exact .inr ⟨.gap, _, _, fault, rfl, rfl, List.forall_mem_nil _, hf⟩
    case none =>
      cases hi
      case inl hi => exact .inl (List.forall_mem_cons.mpr ⟨hf, hi⟩)
      case inr hi =>
        obtain ⟨context, part, name, fault, rfl, hh, hb, hn⟩ := hi
        exact .inr ⟨.argumentOf function context, part, name, fault, rfl, hh,
          List.forall_mem_cons.mpr ⟨hf, hb⟩, hn⟩
  case binary op left right hl hr =>
    cases hl
    case inr hl =>
      obtain ⟨context, part, name, fault, rfl, hh, hb, hn⟩ := hl
      exact .inr ⟨.leftOf op context right, part, name, fault, rfl, hh, hb, hn⟩
    case inl hl =>
      cases hr
      case inl hr => exact .inl (List.forall_mem_append.mpr ⟨hl, hr⟩)
      case inr hr =>
        obtain ⟨context, part, name, fault, rfl, hh, hb, hn⟩ := hr
        exact .inr ⟨.rightOf op left context, part, name, fault, rfl, hh,
          List.forall_mem_append.mpr ⟨hl, hb⟩, hn⟩

variable {σ : Type} {functions : Functions} {resolver : Resolver σ} {tree : Tree}
variable {value? : String → Option Float} {bindings : Variables} {state : σ}

namespace Resolver

-- Replies to each name with what a function gives for it, whatever state it is in, and never fails.
def AnswersFrom (resolver : Resolver σ) (value? : String → Option Float) : Prop :=
  ∀ name state, (resolver.resolve name state).1.value? = value? name ∧
    ∀ fault, (resolver.resolve name state).1 ≠ .failed fault

theorem answersFrom_never : never.AnswersFrom fun _ => none :=
  fun _ _ => ⟨rfl, fun _ => Reply.noConfusion⟩

theorem answersFrom_ofFunction (value? : String → Option Float) :
    (ofFunction value?).AnswersFrom value? := by
  intro name _
  simp only [ofFunction]
  cases value? name <;> exact ⟨rfl, fun _ => Reply.noConfusion⟩

namespace AnswersFrom

variable {name : String} {x : Float}

theorem reply_eq (h : resolver.AnswersFrom value?) (hv : value? name = some x) (state : σ) :
    (resolver.resolve name state).1 = .value x :=
  Reply.value?_eq_some ((h name state).1.trans hv)

theorem fault?_eq (h : resolver.AnswersFrom value?) (hv : value? name = none) (state : σ) :
    (resolver.resolve name state).1.fault? name = some (.undefinedVariable name) := by
  have ⟨hn, hf⟩ := h name state
  rw [hv] at hn
  cases hr : (resolver.resolve name state).1 <;> rw [hr] at hn
  case value => cases hn
  case failed fault => exact absurd hr (hf fault)
  all_goals rfl

end AnswersFrom

end Resolver

-- A variable that is bound on the way gets the value that was known for it before.
theorem knownValue?_evaluate (h : resolver.AnswersFrom value?) (functions : Functions)
    (tree : Tree) (bindings : Variables) (state : σ) :
    knownValue? (evaluate functions resolver tree bindings state).bindings value? =
      knownValue? bindings value? := by
  let P (current : Variables) (_ : σ) : Prop :=
    knownValue? current value? = knownValue? bindings value?
  refine evaluate_keeps (P := P) (fun name current state hk => ?_) tree rfl
  cases hb : current[name]?
  case some => rwa [lookUp_of_some hb]
  case none =>
    rw [lookUp_of_none hb]
    cases hv : value? name
    case none =>
      have ⟨_, ha, _⟩ := ask_of_fault current (h.fault?_eq hv state)
      rwa [ha]
    case some x =>
      rw [ask_of_value (h.reply_eq hv state)]
      refine Eq.trans (funext fun other => ?_) hk
      simp only [knownValue?, Std.ExtTreeMap.getElem?_insert, Std.LawfulEqCmp.compare_eq_iff_eq]
      split
      case isTrue he => rw [← he, hb, hv, Option.some_or, Option.none_or]
      case isFalse => rfl

section

variable {name : String} {called : Bool}

theorem contains_of_nameFault?_eq_none {known? : String → Option Float}
    (h : nameFault? functions known? (name, called) = none) :
    functions.contains name = called := by
  cases called <;> cases hc : functions.contains name <;> simp [nameFault?, hc] at h ⊢

theorem isSome_of_nameFault?_eq_none {known? : String → Option Float}
    (h : nameFault? functions known? (name, false) = none) : (known? name).isSome = true := by
  have hc := contains_of_nameFault?_eq_none h
  simpa [nameFault?, hc, Option.isSome_iff_ne_none] using h

end

-- Where no name is at fault, there is a value for each one that is asked for.
theorem result_evaluate_of_faultless (hr : resolver.AnswersFrom value?)
    (h : ∀ name ∈ tree.names, nameFault? functions (knownValue? bindings value?) name = none) :
    ∃ x, (evaluate functions resolver tree bindings state).result = .ok x := by
  refine result_evaluate_of_values (fun _ hm => contains_of_nameFault?_eq_none (h _ hm)) ?_
  intro request hq
  have ⟨current, hs⟩ := Resolver.reply_of_mem_replies hq
  have hm := List.mem_map_of_mem (f := Request.name) hq
  rw [Resolver.map_name_replies, Tree.mem_unbound] at hm
  obtain ⟨⟨name, called⟩, hn, hc⟩ := List.mem_filterMap.mp hm.1
  cases called <;> cases hc
  have hk := isSome_of_nameFault?_eq_none (h _ hn)
  rw [knownValue?, hm.2.2, Option.none_or] at hk
  have ⟨x, hx⟩ := Option.isSome_iff_exists.mp hk
  exact ⟨x, hs.trans (hr.reply_eq hx current)⟩

-- A name at fault at the root of a tree. Whatever its argument is, it is not looked at.
theorem exists_evaluation_of_head? {name : String × Bool} {fault : EvalFault}
    (hr : resolver.AnswersFrom value?)
    (hf : nameFault? functions (knownValue? bindings value?) name = some fault) :
    ∃ evaluation : Evaluation σ, evaluation.result = .error fault ∧
      Event.askedNames evaluation.events = unboundAmong functions bindings (uncalled [name]) ∧
      ∀ part : Tree, part.head? = some name →
        evaluate functions resolver part bindings state = evaluation := by
  obtain ⟨name, called⟩ := name
  cases hc : functions.contains name <;> cases called <;> simp [nameFault?, hc] at hf
  case false.false =>
    obtain ⟨hk, rfl⟩ := hf
    have ⟨hb, hv⟩ := Option.or_eq_none_iff.mp hk
    have ⟨events, ha, he⟩ := ask_of_fault bindings (hr.fault?_eq hv state)
    refine ⟨ask resolver name bindings state, by rw [ha], ?_, fun part hp => ?_⟩
    · rw [ha]
      change name :: Event.askedNames events = _
      simp [he, unboundAmong, uncalled, hc, hb, List.eraseDups_cons]
    · cases part <;> cases hp
      rw [evaluate_var hc, lookUp_of_none hb]
  case false.true =>
    subst hf
    have hg : functions.get? name = none := by
      rwa [Functions.contains_eq_isSome_get?, Option.isSome_eq_false_iff,
        Option.isNone_iff_eq_none] at hc
    refine ⟨.fail (.notAFunction name) bindings state, rfl, rfl, fun part hp => ?_⟩
    cases part <;> cases hp
    exact evaluate_call_of_none hg
  case true.false =>
    subst hf
    refine ⟨.fail (.missingArgument name) bindings state, rfl, ?_, fun part hp => ?_⟩
    · simp [unboundAmong, uncalled, hc]
      rfl
    · cases part <;> cases hp
      exact evaluate_var_of_contains hc

-- By induction on what stands around the gap. An operand on the left has a value if no name in it
-- is at fault, and what it binds was known before.
theorem exists_evaluation_of_before {context : Context} {name : String × Bool} {fault : EvalFault}
    (state : σ) (hr : resolver.AnswersFrom value?)
    (hb : ∀ earlier ∈ context.before,
      nameFault? functions (knownValue? bindings value?) earlier = none)
    (hf : nameFault? functions (knownValue? bindings value?) name = some fault) :
    ∃ evaluation : Evaluation σ, evaluation.result = .error fault ∧
      Event.askedNames evaluation.events =
        unboundAmong functions bindings (uncalled (context.before ++ [name])) ∧
      ∀ part : Tree, part.head? = some name →
        evaluate functions resolver (context.fill part) bindings state = evaluation := by
  induction context generalizing bindings state
  case gap => exact exists_evaluation_of_head? hr hf
  case argumentOf function inner hi =>
    obtain ⟨hn, hb⟩ := List.forall_mem_cons.mp hb
    have hc := contains_of_nameFault?_eq_none hn
    rw [Functions.contains_eq_isSome_get?] at hc
    obtain ⟨f, hg⟩ := Option.isSome_iff_exists.mp hc
    obtain ⟨evaluation, he, ha, hp⟩ := hi state hb hf
    refine ⟨evaluation, he, ha, fun part hh => ?_⟩
    rw [Context.fill, evaluate_call hg, hp part hh, Evaluation.andThen_of_error he]
  case leftOf op inner right hi =>
    obtain ⟨evaluation, he, ha, hp⟩ := hi state hb hf
    refine ⟨evaluation, he, ha, fun part hh => ?_⟩
    rw [Context.fill, evaluate, hp part hh, Evaluation.andThen_of_error he]
  case rightOf op left inner hi =>
    obtain ⟨hl, hb⟩ := List.forall_mem_append.mp hb
    let first := evaluate functions resolver left bindings state
    obtain ⟨x, hx⟩ : ∃ x, first.result = .ok x := result_evaluate_of_faultless hr hl
    have hq : first.Asks resolver _ _ _ := asks_evaluate functions resolver left bindings state
    have hn := hq.complete x hx
    have hk := knownValue?_evaluate hr functions left bindings state
    rw [← hk] at hb hf
    obtain ⟨evaluation, he, ha, hp⟩ := hi first.resolver hb hf
    refine ⟨{ evaluation with events := first.events ++ evaluation.events }, he, ?_, ?_⟩
    · have hu := unboundAmong_append (uncalled (inner.before ++ [name]))
        ((Resolver.map_name_replies ..).trans hn) (hx ▸ hq.settled).all_answered
      rw [← hq.bindings_eq] at hu
      rw [Event.askedNames_append, ha, hn, Context.before, List.append_assoc,
        uncalled_append left.names]
      exact hu.symm
    · intro part hh
      rw [Context.fill, evaluate, Evaluation.andThen_of_ok hx, hp part hh,
        Evaluation.andThen_of_error he]

-- An evaluation has a value exactly if no name of the tree is at fault. Otherwise it has the fault
-- of the first one that is, it has asked for the variables up to this one, and it would be the same
-- with any other argument of this name.
theorem evaluate_ends_at_first_fault (environment : Environment)
    (h : resolver.AnswersFrom value?) (tree : Tree) (state : σ) :
    let run := environment.evaluate resolver tree state
    ((∃ x, run.result = .ok x) ↔ ∀ name ∈ tree.names, environment.fault? value? name = none) ∧
    ∀ error, run.result = .error error → ∃ context part name fault,
      FirstFault (environment.fault? value?) tree context part name fault ∧
      error = .eval fault ∧
      Event.askedNames run.events = unboundAmong environment.functions environment.variables
        (uncalled (context.before ++ [name])) ∧
      ∀ other : Tree, other.head? = some name →
        environment.evaluate resolver (context.fill other) state = run := by
  intro run
  cases exists_firstFault (environment.fault? value?) tree
  case inl hn =>
    have ⟨x, hx⟩ : ∃ x, (evaluate _ resolver tree environment.variables state).result = .ok x :=
      result_evaluate_of_faultless h hn
    have hx : run.result = .ok x := Environment.result_evaluate_eq_ok_iff.mpr hx
    refine ⟨iff_of_true ⟨x, hx⟩ hn, fun error he => ?_⟩
    cases hx.symm.trans he
  case inr hf =>
    obtain ⟨context, part, name, fault, rfl, hh, hb, hn⟩ := hf
    have ⟨evaluation, he, ha, hp⟩ := exists_evaluation_of_before state h hb hn
    have hrun : run.result = .error (.eval fault) := by
      rw [Environment.result_evaluate_eq_error_iff, hp part hh, he]
    refine ⟨iff_of_false ?_ ?_, fun error hr => ?_⟩
    · intro ⟨x, hx⟩
      cases hx.symm.trans hrun
    · intro hall
      have ⟨after, hs⟩ := context.exists_names_fill part
      have hm := Tree.head?_mem_names hh
      have hn' := hall name (by simp [hs, hm])
      cases hn'.symm.trans hn
    · cases hr.symm.trans hrun
      refine ⟨context, part, name, fault, ⟨rfl, hh, hb, hn⟩, rfl, ?_, fun other ho => ?_⟩
      · rw [← ha, ← hp part hh]
        rfl
      · simp only [run, Environment.evaluate, hp part hh, hp other ho]

-- The call ends the evaluation although a function stands without an argument behind it, and before
-- its own argument is asked for.
theorem fault_of_call_behind_answered :
    let entries : List (String × Float) := [("a", 1)]
    let environment := Environment.withBuiltins.define "sin" 0
    let tree : Tree :=
      .binary .plus (.var "a") (.binary .times (.call "f" (.var "b")) (.var "sin"))
    let run := environment.evaluate (.ofList entries) tree ()
    let fault? := environment.fault? fun name => entries.lookup name
    (Resolver.ofList entries).AnswersFrom (fun name => entries.lookup name) ∧
    ((∃ x, run.result = .ok x) ↔ ∀ name ∈ tree.names, fault? name = none) ∧
    ∀ error, run.result = .error error → ∃ context part name fault,
      FirstFault fault? tree context part name fault ∧
      error = .eval fault ∧
      Event.askedNames run.events = unboundAmong environment.functions environment.variables
        (uncalled (context.before ++ [name])) ∧
      ∀ other : Tree, other.head? = some name →
        environment.evaluate (.ofList entries) (context.fill other) () = run := by
  intro entries environment tree run fault?
  have h : (Resolver.ofList entries).AnswersFrom fun name => entries.lookup name :=
    Resolver.answersFrom_ofFunction _
  exact ⟨h, evaluate_ends_at_first_fault environment h tree ()⟩

end Reckoner
