import Reckoner.Proofs.Evaluation.Replies

/-!
Answering on demand and binding in advance. An evaluation whose resolver looks names up in a table
has the result of one that asks nobody, with the names of the table bound before it starts.
-/

namespace Reckoner

namespace Environment

-- The environment in which the names that are not bound have the values of a table.
def withDefaults (environment : Environment) (table : Variables) : Environment :=
  { environment with «variables» := table ∪ environment.variables }

end Environment

variable {functions : Functions} {table bindings : Variables} {name : String}

theorem Reply.value?_ofOption (value? : Option Float) : (ofOption value?).value? = value? := by
  cases value? <;> rfl

theorem union_insert_of_getElem? {x : Float} (ht : table[name]? = some x)
    (hb : bindings[name]? = none) : table ∪ bindings.insert name x = table ∪ bindings := by
  apply Std.ExtTreeMap.ext_getElem?
  intro other
  simp only [Std.ExtTreeMap.getElem?_union, Std.ExtTreeMap.getElem?_insert,
    Std.LawfulEqCmp.compare_eq_iff_eq]
  split
  case isTrue h => rw [← h, hb, ht, Option.some_or, Option.none_or]
  case isFalse => rfl

-- The variables on the second side are those on the first one, completed from a table.
def Completed (table bindings : Variables) (_ : Unit) (bindings' : Variables) (_ : Unit) : Prop :=
  bindings' = table ∪ bindings

-- Whether a name is looked up late or was bound early, the same is found. A value that is bound
-- late is that of the table, so it makes no difference to what is bound in advance.
theorem agree_lookUp_completed (name : String) {bindings' : Variables}
    (h : Completed table bindings () bindings' ()) :
    (lookUp (.ofFunction (table[·]?)) name bindings ()).Agree (Completed table)
      (lookUp .never name bindings' ()) := by
  subst h
  have hu : (table ∪ bindings)[name]? = bindings[name]?.or table[name]? :=
    Std.ExtTreeMap.getElem?_union
  cases hb : bindings[name]? <;> rw [hb] at hu
  case some x =>
    rw [lookUp_of_some hb, lookUp_of_some hu]
    exact ⟨rfl, rfl⟩
  case none =>
    rw [lookUp_of_none hb]
    cases ht : table[name]?
    case none =>
      have hf : ((Resolver.ofFunction (table[·]?)).resolve name ()).1.fault? name =
          some (.undefinedVariable name) := by
        simp [Resolver.ofFunction, ht, Reply.ofOption, Reply.fault?]
      obtain ⟨_, ha, _⟩ := ask_of_fault bindings hf
      rw [lookUp_of_none (hu.trans ht), ha]
      exact ⟨rfl, rfl⟩
    case some x =>
      have hv : ((Resolver.ofFunction (table[·]?)).resolve name ()).1 = .value x := by
        simp [Resolver.ofFunction, ht, Reply.ofOption]
      rw [lookUp_of_some (hu.trans ht), ask_of_value hv]
      exact ⟨rfl, (union_insert_of_getElem? ht hb).symm⟩

-- Every name that is asked for gets what the table has for it.
theorem bindReplies_ofFunction (table : Variables) {names : List String} (hd : names.Nodup) :
    bindReplies ((Resolver.ofFunction (table[·]?)).replies names ()).1 ∅ =
      table.filter fun name _ => name ∈ names := by
  apply Std.ExtTreeMap.ext_getElem?
  intro name
  rw [Std.ExtTreeMap.getElem?_filter']
  by_cases hn : name ∈ names
  case neg =>
    rw [Resolver.getElem?_replied_of_not_mem hn]
    simp [hn]
  case pos =>
    have ⟨reply, hr⟩ := Resolver.exists_mem_replies (.ofFunction (table[·]?)) () hn
    have ⟨_, hv⟩ := Resolver.reply_of_mem_replies hr
    rw [Resolver.getElem?_replied_of_mem hd hr Std.ExtTreeMap.getElem?_empty, hv]
    change (Reply.ofOption table[name]?).value? = _
    rw [Reply.value?_ofOption]
    cases table[name]? <;> simp [hn, Option.filter_some]

theorem bindings_evaluate_ofFunction (functions : Functions) (table bindings : Variables)
    (tree : Tree) :
    let evaluation := evaluate functions (.ofFunction (table[·]?)) tree bindings ()
    evaluation.bindings =
      table.filter (fun name _ => name ∈ Event.askedNames evaluation.events) ∪ bindings := by
  intro evaluation
  have h : evaluation.Asks _ _ _ _ :=
    asks_evaluate functions (.ofFunction (table[·]?)) tree bindings ()
  rw [← bindReplies_ofFunction table h.nodup]
  exact bindings_evaluate functions (.ofFunction (table[·]?)) tree bindings ()

theorem evaluate_on_demand (environment : Environment) (table : Variables) (tree : Tree) :
    let onDemand := environment.evaluate (.ofFunction (table[·]?)) tree ()
    let inAdvance := (environment.withDefaults table).evaluate .never tree ()
    onDemand.result = inAdvance.result ∧
    onDemand.environment = environment.withDefaults
      (table.filter fun name _ => name ∈ Event.askedNames onDemand.events) := by
  intro onDemand inAdvance
  constructor
  case left =>
    have ha : (evaluate environment.functions _ tree environment.variables ()).Agree
        (Completed table) (evaluate _ _ _ _ ()) :=
      agree_evaluate (fun name _ _ _ _ _ h => agree_lookUp_completed name h) tree rfl
    exact congrArg (·.mapError Error.eval) ha.result_eq
  case right =>
    have hb := bindings_evaluate_ofFunction environment.functions table environment.variables tree
    exact congrArg (Environment.mk · environment.functions) hb

end Reckoner
