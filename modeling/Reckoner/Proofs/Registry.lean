import Reckoner.Proofs.ByteOrder
import Reckoner.Proofs.Evaluation.Faults
import Reckoner.Calculation

/-!
Histories of a registry of functions. What is registered under a name is what the last operation on
this name left there, so operations on different names can come in any order. The registered names
are written in the order of their bytes, which leaves no trace of the history either.
-/

namespace Reckoner.Functions

-- What can be done to a registry.
inductive Operation
  | register (name : String) (function : Float → Float)
  | remove (name : String)

namespace Operation

def name : Operation → String
  | register name _ | remove name => name

-- What the operation leaves under its name.
def function? : Operation → Option (Float → Float)
  | register _ function => some function
  | remove _            => none

end Operation

-- The answer to an operation, which only a removal has, and the registry behind it.
def perform (functions : Functions) : Operation → Option Bool × Functions
  | .register name function => (none, functions.register name function)
  | .remove name =>
    let (removed, functions) := functions.unregister name
    (some removed, functions)

-- The answers to some operations, one after the other, and the registry behind the last one.
def run (functions : Functions) : List Operation → List (Option Bool) × Functions
  | [] => ([], functions)
  | operation :: operations =>
    let (answer, next) := functions.perform operation
    let (answers, last) := next.run operations
    (answer :: answers, last)

-- The last operation on a name.
def latest? (name : String) (operations : List Operation) : Option Operation :=
  (operations.filter (·.name = name)).getLast?

-- The registries to start from, each with the operations that lead to it.
inductive Start : Functions → List Operation → Prop
  | empty : Start .empty []
  | builtin : Start .builtin [.register "sin" Float.sin, .register "cos" Float.cos,
    .register "tan" Float.tan, .register "ln" Float.log]

variable {functions functions' : Functions} {operations initial : List Operation} {name : String}
variable {operation : Operation} {function : Float → Float}

@[ext]
theorem ext_get? (h : ∀ name, functions.get? name = functions'.get? name) :
    functions = functions' :=
  congrArg Functions.mk (Std.ExtTreeMap.ext_getElem? fun name => h name)

theorem run_append (functions : Functions) (operations more : List Operation) :
    functions.run (operations ++ more) =
      ((functions.run operations).1 ++ ((functions.run operations).2.run more).1,
        ((functions.run operations).2.run more).2) := by
  induction operations generalizing functions
  case nil => rfl
  case cons operation operations hi => simp only [List.cons_append, run, hi]

theorem length_answers (functions : Functions) (operations : List Operation) :
    (functions.run operations).1.length = operations.length := by
  induction operations generalizing functions
  case nil => rfl
  case cons hi => simp [run, hi]

theorem name_of_latest? (h : latest? name operations = some operation) : operation.name = name := by
  have hm := List.mem_of_getLast? h
  simpa using (List.mem_filter.mp hm).2

theorem latest?_cons (name : String) (operation : Operation) (operations : List Operation) :
    latest? name (operation :: operations) =
      (latest? name operations).or (if operation.name = name then some operation else none) := by
  unfold latest?
  by_cases hn : operation.name = name
  case pos => simp [hn, List.getLast?_cons]
  case neg => simp [hn]

theorem get?_perform (functions : Functions) (operation : Operation) (name : String) :
    (functions.perform operation).2.get? name =
      if operation.name = name then operation.function? else functions.get? name := by
  by_cases hn : operation.name = name <;> cases operation
  all_goals
    simp only [Operation.name] at hn
    simp [perform, unregister, Operation.name, Operation.function?, hn]

-- By induction on the operations, for all registries that they can start from.
theorem get?_run (functions : Functions) (operations : List Operation) (name : String) :
    (functions.run operations).2.get? name =
      match latest? name operations with
      | some operation => operation.function?
      | none => functions.get? name := by
  induction operations generalizing functions
  case nil => rfl
  case cons operation operations hi =>
    rw [latest?_cons]
    change ((functions.perform operation).2.run operations).2.get? name = _
    rw [hi, get?_perform]
    cases latest? name operations
    case some => rfl
    case none => by_cases hn : operation.name = name <;> simp [hn]

theorem Start.run_eq (h : Start functions initial) :
    (Functions.empty.run initial).2 = functions := by
  cases h <;> rfl

namespace Start

theorem run_append (h : Start functions initial) (operations : List Operation) :
    (functions.run operations).2 = (Functions.empty.run (initial ++ operations)).2 := by
  rw [Functions.run_append, h.run_eq]

theorem get?_eq (h : Start functions initial) (operations : List Operation) (name : String) :
    (functions.run operations).2.get? name =
      (latest? name (initial ++ operations)).bind Operation.function? := by
  rw [h.run_append, get?_run]
  cases latest? name (initial ++ operations)
  case none => exact Std.ExtTreeMap.getElem?_empty
  case some => rfl

theorem get?_eq_some_iff (h : Start functions initial) :
    (functions.run operations).2.get? name = some function ↔
      latest? name (initial ++ operations) = some (.register name function) := by
  rw [h.get?_eq]
  constructor
  case mp =>
    intro hf
    have ⟨operation, hl, hf⟩ := Option.bind_eq_some_iff.mp hf
    have hn := name_of_latest? hl
    cases operation <;> cases hf
    rw [hl, ← hn]
    rfl
  case mpr =>
    intro hl
    rw [hl]
    rfl

theorem contains_iff (h : Start functions initial) (operations : List Operation) (name : String) :
    (functions.run operations).2.contains name = true ↔
      ∃ function, latest? name (initial ++ operations) = some (.register name function) := by
  rw [contains_eq_isSome_get?, Option.isSome_iff_exists]
  exact exists_congr fun _ => h.get?_eq_some_iff

-- A removal answers whether the last operation on the name before it was a registration.
theorem exists_answer (h : Start functions initial) (earlier later : List Operation)
    (name : String) :
    ∃ removed, (functions.run (earlier ++ .remove name :: later)).1[earlier.length]? =
        some (some removed) ∧
      (removed = true ↔
        ∃ function, latest? name (initial ++ earlier) = some (.register name function)) := by
  refine ⟨_, ?_, h.contains_iff earlier name⟩
  rw [Functions.run_append, List.getElem?_append_right (length_answers ..).le, length_answers,
    Nat.sub_self]
  rfl

end Start

theorem mem_names : name ∈ functions.names ↔ functions.contains name = true :=
  Std.ExtTreeMap.mem_keys.trans Std.ExtTreeMap.mem_iff_contains

theorem pairwise_lt_names (functions : Functions) : functions.names.Pairwise (· < ·) :=
  (Std.ExtTreeMap.ordered_keys (t := functions.table)).imp compare_lt_iff_lt.mp

theorem nodup_names (functions : Functions) : functions.names.Nodup :=
  functions.pairwise_lt_names.imp ne_of_lt

theorem pairwise_encodeText_lt_names (functions : Functions) :
    functions.names.Pairwise (encodeText · < encodeText ·) :=
  functions.pairwise_lt_names.imp encodeText_lt

-- In whatever order the names are enumerated, when they are sorted by their bytes it is this list.
theorem names_eq_of_sorted {enumerated sorted : List String} (hn : enumerated.Nodup)
    (hm : ∀ name, name ∈ enumerated ↔ functions.contains name = true)
    (hp : sorted.Perm enumerated) (hs : sorted.Pairwise (encodeText · ≤ encodeText ·)) :
    functions.names = sorted := by
  have he : functions.names.Perm enumerated :=
    (List.perm_ext_iff_of_nodup functions.nodup_names hn).mpr
      fun name => mem_names.trans (hm name).symm
  have hl : functions.names.Pairwise (encodeText · ≤ encodeText ·) :=
    functions.pairwise_encodeText_lt_names.imp List.le_of_lt
  refine List.Perm.eq_of_pairwise (fun name other _ _ h h' => ?_) hl hs (he.trans hp.symm)
  -- Two texts of which neither has the lesser bytes are the same.
  cases lt_trichotomy name other
  case inl hlt => exact absurd (encodeText_lt hlt) h'
  case inr hr => exact hr.resolve_right fun hlt => h (encodeText_lt hlt)

theorem write_eq_of_sorted {enumerated sorted : List String} (hn : enumerated.Nodup)
    (hm : ∀ name, name ∈ enumerated ↔ functions.contains name = true)
    (hp : sorted.Perm enumerated) (hs : sorted.Pairwise (encodeText · ≤ encodeText ·)) :
    functions.write = "\x7b" ++ ", ".intercalate (sorted.map Text.quoted) ++ "\x7d" := by
  rw [write, names_eq_of_sorted hn hm hp hs]

-- A registry holds under each name what the last operation on this name left there, whatever it
-- started from, and a removal answers whether something was registered until then. The names are
-- listed once each, and in the order of their bytes where the registry is written. So histories
-- that agree on each name, in whatever order they take the names, cannot be told apart.
theorem run_follows_latest {start : Functions} (h : Start start initial)
    (operations : List Operation) :
    let history := initial ++ operations
    let answers := (start.run operations).1
    let functions := (start.run operations).2
    (∀ name, functions.contains name = true ↔
      ∃ function, latest? name history = some (.register name function)) ∧
    (∀ name function, latest? name history = some (.register name function) →
      functions.get? name = some function) ∧
    (∀ earlier name later, operations = earlier ++ .remove name :: later →
      ∃ removed, answers[earlier.length]? = some (some removed) ∧
        (removed = true ↔
          ∃ function, latest? name (initial ++ earlier) = some (.register name function))) ∧
    (functions.names.Nodup ∧ ∀ name, name ∈ functions.names ↔ functions.contains name = true) ∧
    (∃ listed : List String,
      functions.write = "\x7b" ++ ", ".intercalate (listed.map Text.quoted) ++ "\x7d" ∧
      listed.Pairwise (encodeText · < encodeText ·) ∧
      ∀ name, name ∈ listed ↔ functions.contains name = true) ∧
    ∀ (start' : Functions) (initial' operations' : List Operation), Start start' initial' →
      (∀ name, (initial' ++ operations').filter (·.name = name) =
        history.filter (·.name = name)) →
      let functions' := (start'.run operations').2
      (∀ name, functions'.contains name = functions.contains name ∧
        functions'.get? name = functions.get? name) ∧
      (∀ source, build functions' source = build functions source) ∧
      functions'.write = functions.write := by
  intro history answers functions
  refine ⟨h.contains_iff operations, fun _ _ hl => h.get?_eq_some_iff.mpr hl, ?_, ⟨?_, ?_⟩,
    ⟨functions.names, rfl, functions.pairwise_encodeText_lt_names, fun _ => mem_names⟩, ?_⟩
  · intro earlier name later ho
    subst ho
    exact h.exists_answer earlier later name
  · exact functions.nodup_names
  · exact fun _ => mem_names
  · intro start' initial' operations' h' hs functions'
    have hf : functions' = functions := by
      ext name : 1
      rw [h'.get?_eq, h.get?_eq, latest?, latest?, hs name]
    rw [hf]
    exact ⟨fun _ => ⟨rfl, rfl⟩, fun _ => rfl, rfl⟩

set_option maxRecDepth 4000 in
theorem run_of_interleaved_operations :
    let initial : List Operation := [.register "sin" Float.sin, .register "cos" Float.cos,
      .register "tan" Float.tan, .register "ln" Float.log]
    let operations : List Operation :=
      [.remove "sin", .register "sin" Float.cos, .remove "ln", .register "é" Float.exp]
    let operations' : List Operation :=
      [.register "é" Float.exp, .remove "ln", .remove "sin", .register "sin" Float.cos]
    let functions := (builtin.run operations).2
    let functions' := (builtin.run operations').2
    Start builtin initial ∧
    latest? "sin" (initial ++ operations) = some (.register "sin" Float.cos) ∧
    functions.get? "sin" = some Float.cos ∧
    (builtin.run operations).1[2]? = some (some true) ∧
    (∀ name, (initial ++ operations').filter (·.name = name) =
      (initial ++ operations).filter (·.name = name)) ∧
    functions'.write = functions.write ∧
    functions.write = "\x7b\"cos\", \"sin\", \"tan\", \"é\"\x7d" := by
  intro initial operations operations' functions functions'
  have ⟨_, hget, hremove, _, _, hsame⟩ := run_follows_latest .builtin operations
  have hl : latest? "sin" (initial ++ operations) = some (.register "sin" Float.cos) := by rfl
  have hs : ∀ name, (initial ++ operations').filter (·.name = name) =
      (initial ++ operations).filter (·.name = name) := by
    intro name
    simp only [operations, operations', List.filter_append, List.filter_cons, List.filter_nil,
      Operation.name]
    by_cases hsin : "sin" = name
    case pos => simp [← hsin]
    case neg =>
      by_cases hln : "ln" = name
      case pos => simp [← hln]
      case neg => simp [hsin, hln]
  have ⟨removed, hr, hi⟩ := hremove [.remove "sin", .register "sin" Float.cos] "ln"
    [.register "é" Float.exp] rfl
  rw [hi.mpr ⟨Float.log, rfl⟩] at hr
  have hw := (hsame builtin initial operations' .builtin hs).2.2
  exact ⟨.builtin, hl, hget _ _ hl, hr, hs, hw, by cbv⟩

end Reckoner.Functions
