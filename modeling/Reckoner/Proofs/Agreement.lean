import Reckoner.Proofs.Calculation
import Reckoner.Proofs.Evaluation.Faults
import Reckoner.Proofs.Parser.Soundness

/-!
The parser and the evaluation agree on what is a function. In a tree that was built from a text, the
names with an argument are those of functions and the names without one are not. So a fault about a
function needs a registry that was changed since, and a calculation never has one.
-/

namespace Reckoner

variable {functions : Functions}

-- Each name in a tree was an identifier, and the registry settled whether it has an argument.
theorem Derives.of_mem_names {phrase : Phrase} {tokens : List Token} {tree : Tree}
    (h : Derives functions phrase tokens tree) {name : String × Bool} (hm : name ∈ tree.names) :
    functions.contains name.1 = name.2 ∧
      ∃ token ∈ tokens, token.kind = .identifier ∧ token.literal = name.1 := by
  induction h
  case operand hi => exact hi hm
  case fold hl hr =>
    cases List.mem_append.mp hm
    case inl hm =>
      have ⟨hc, token, ht, hk⟩ := hl hm
      exact ⟨hc, token, List.mem_append_left _ ht, hk⟩
    case inr hm =>
      have ⟨hc, token, ht, hk⟩ := hr hm
      exact ⟨hc, token, List.mem_append_right _ (List.mem_cons_of_mem _ ht), hk⟩
  case number => cases hm
  case var token hk hc =>
    rw [List.mem_singleton.mp hm]
    exact ⟨hc, token, List.mem_singleton_self token, hk, rfl⟩
  case call token opening closing tokens argument hk hc _ _ _ hi =>
    cases hm
    case head => exact ⟨hc, token, List.mem_cons_self, hk, rfl⟩
    case tail hm =>
      have ⟨hc, token, ht, hk⟩ := hi hm
      exact ⟨hc, token, by simp [ht], hk⟩
  case group hi =>
    have ⟨hc, token, ht, hk⟩ := hi hm
    exact ⟨hc, token, by simp [ht], hk⟩

theorem of_mem_names_of_build {source : Source} {tree : Tree} {name : String × Bool}
    (h : (build functions source).result = .ok tree) (hm : name ∈ tree.names) :
    functions.contains name.1 = name.2 ∧ ∃ tokens, tokenize source.text = .ok tokens ∧
      ∃ token ∈ tokens, token.kind = .identifier ∧ token.literal = name.1 := by
  have ⟨tokens, ht, hp⟩ := build_eq_ok_iff.mp h
  obtain ⟨before, token, rest, rfl, _, hd⟩ := Parser.derives_of_parse hp
  have ⟨hc, token, hb, hk⟩ := hd.of_mem_names hm
  exact ⟨hc, _, ht, token, List.mem_append_left _ hb, hk⟩

-- The two registries hold the same of the names in a text.
def SameNames (functions functions' : Functions) (text : String) : Prop :=
  ∀ tokens, tokenize text = .ok tokens → ∀ token ∈ tokens, token.kind = .identifier →
    functions.contains token.literal = functions'.contains token.literal

theorem not_sameNames {functions' : Functions} {source : Source} {tree : Tree}
    {name : String × Bool} (h : (build functions source).result = .ok tree)
    (hm : name ∈ tree.names) (hc : functions'.contains name.1 ≠ name.2) :
    ¬SameNames functions functions' source.text := by
  intro hs
  have ⟨hc', tokens, ht, token, htm, hk, hl⟩ := of_mem_names_of_build h hm
  have := hs tokens ht token htm hk
  rw [hl, hc'] at this
  exact hc this.symm

section

variable {σ : Type} {resolver : Resolver σ} {environment : Environment} {source : Source}
variable {tree : Tree} {state : σ} {name : String}

theorem disagree_of_missingArgument (hr : resolver.Provided)
    (hb : (build functions source).result = .ok tree)
    (h : (environment.evaluate resolver tree state).result =
      .error (.eval (.missingArgument name))) :
    functions.contains name = false ∧ environment.functions.contains name = true ∧
      ¬SameNames functions environment.functions source.text := by
  have ⟨hm, hc⟩ := due_of_evaluate hr (Environment.result_evaluate_eq_error_iff.mp h)
  exact ⟨(of_mem_names_of_build hb hm).1, hc, not_sameNames hb hm (by simp [hc])⟩

theorem disagree_of_notAFunction (hr : resolver.Provided)
    (hb : (build functions source).result = .ok tree)
    (h : (environment.evaluate resolver tree state).result = .error (.eval (.notAFunction name))) :
    functions.contains name = true ∧ environment.functions.contains name = false ∧
      ¬SameNames functions environment.functions source.text := by
  have ⟨hm, hc⟩ := due_of_evaluate hr (Environment.result_evaluate_eq_error_iff.mp h)
  exact ⟨(of_mem_names_of_build hb hm).1, hc, not_sameNames hb hm (by simp [hc])⟩

end

-- A fault about a function in a tree that was built tells a name on which the registry of the build
-- and that of the evaluation disagree. A calculation has only one registry.
theorem function_fault_of_built_tree {σ : Type} {resolver : Resolver σ} (hr : resolver.Provided) :
    (∀ (functions : Functions) (source : Source) (tree : Tree) (environment : Environment)
        (state : σ),
      (build functions source).result = .ok tree →
      let result := (environment.evaluate resolver tree state).result
      (∀ name, result = .error (.eval (.missingArgument name)) →
        functions.contains name = false ∧ environment.functions.contains name = true) ∧
      (∀ name, result = .error (.eval (.notAFunction name)) →
        functions.contains name = true ∧ environment.functions.contains name = false) ∧
      (SameNames functions environment.functions source.text → ∀ name,
        result ≠ .error (.eval (.missingArgument name)) ∧
        result ≠ .error (.eval (.notAFunction name)))) ∧
    ∀ (environment : Environment) (source : Source) (state : σ) (name : String),
      (environment.calculate resolver source state).result ≠
        .error (.eval (.missingArgument name)) ∧
      (environment.calculate resolver source state).result ≠
        .error (.eval (.notAFunction name)) := by
  constructor
  case left =>
    intro functions source tree environment state hb
    refine ⟨fun name h => ?_, fun name h => ?_, fun hs name => ⟨fun h => ?_, fun h => ?_⟩⟩
    · have ⟨hf, he, _⟩ := disagree_of_missingArgument hr hb h
      exact ⟨hf, he⟩
    · have ⟨hf, he, _⟩ := disagree_of_notAFunction hr hb h
      exact ⟨hf, he⟩
    · exact (disagree_of_missingArgument hr hb h).2.2 hs
    · exact (disagree_of_notAFunction hr hb h).2.2 hs
  case right =>
    intro environment source state name
    refine ⟨fun h => ?_, fun h => ?_⟩
    · have ⟨tree, hb, he⟩ := Environment.result_calculate_eq_error h
      exact (disagree_of_missingArgument hr hb he).2.2 fun _ _ _ _ _ => rfl
    · have ⟨tree, hb, he⟩ := Environment.result_calculate_eq_error h
      exact (disagree_of_notAFunction hr hb he).2.2 fun _ _ _ _ _ => rfl

set_option maxRecDepth 4000 in
theorem function_fault_of_removed_function :
    let tree : Tree := .binary .plus (.var "x") (.call "ln" (.var "x"))
    let environment := (Environment.withBuiltins.define "x" 1).remove "ln"
    Resolver.never.Provided ∧
    (build .builtin ⟨none, "x + ln(x)"⟩).result = .ok tree ∧
    (environment.evaluate .never tree ()).result = .error (.eval (.notAFunction "ln")) ∧
    Functions.builtin.contains "ln" = true ∧ environment.functions.contains "ln" = false := by
  intro tree environment
  have hb : (build .builtin ⟨none, "x + ln(x)"⟩).result = .ok tree := by cbv
  have he : (environment.evaluate .never tree ()).result = .error (.eval (.notAFunction "ln")) := by
    cbv
  have h := (function_fault_of_built_tree .never).1 .builtin _ tree environment () hb
  exact ⟨.never, hb, he, h.2.1 "ln" he⟩

end Reckoner
