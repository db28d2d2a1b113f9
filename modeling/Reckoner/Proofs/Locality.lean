import Reckoner.Proofs.Agreement
import Reckoner.Proofs.Evaluation.OnDemand

/-!
What a calculation depends on. Of its environment it reads nothing but what stands under the names
in the text, and it changes nothing else. So two environments that agree on these names lead to the
same value or the same error, to the same requests and to the same new variables.
-/

namespace Reckoner

variable {functions functions' : Functions} {source : Source}

namespace Parser

variable {state : State} {token : Token} {tokens : List Token}

-- Of the registry a step only reads whether an identifier is a function.
theorem State.step_congr
    (h : token.kind = .identifier →
      functions.contains token.literal = functions'.contains token.literal) :
    state.step functions token = state.step functions' token := by
  cases he : state.expecting <;> simp only [step, he]
  case operand =>
    unfold stepOperand
    cases hk : token.kind <;> simp only
    case identifier => rw [h hk]

theorem readFrom_congr
    (h : ∀ token ∈ tokens, token.kind = .identifier →
      functions.contains token.literal = functions'.contains token.literal) (index : Nat) :
    readFrom functions source state tokens index =
      let reading := readFrom functions' source state tokens index
      { reading with parser := { reading.parser with functions } } := by
  induction tokens generalizing state index
  case nil => rfl
  case cons token tokens hi =>
    have ⟨ht, h⟩ := List.forall_mem_cons.mp h
    unfold readFrom
    rw [State.step_congr ht]
    cases state.step functions' token
    case shift state => exact hi h (index + 1)
    case fold op state => simp only [hi h (index + 1)]
    case done => rfl
    case fail fault taken => cases taken <;> rfl

theorem parse_congr
    (h : ∀ token ∈ tokens, token.kind = .identifier →
      functions.contains token.literal = functions'.contains token.literal) :
    (ofTokens functions source tokens).parse = (ofTokens functions' source tokens).parse := by
  simp only [parse, parseExpression, ofTokens, readFrom_congr h]

end Parser

-- Registries with the same of the names in a text read it as the same tree.
theorem build_congr (h : SameNames functions functions' source.text) :
    build functions source = build functions' source := by
  unfold build tokens
  cases ht : tokenize source.text
  case error => rfl
  case ok tokens => simp only [Parser.parse_congr (h tokens ht)]

variable {σ : Type} {resolver : Resolver σ} {bindings bindings' : Variables} {state : σ}
variable {names : List String}

-- The variables have the same values under some names.
def Variables.AgreeOn (names : List String) (bindings bindings' : Variables) : Prop :=
  ∀ name ∈ names, bindings[name]? = bindings'[name]?

theorem Variables.AgreeOn.insert (h : AgreeOn names bindings bindings') (name : String)
    (x : Float) : AgreeOn names (bindings.insert name x) (bindings'.insert name x) := by
  intro other hm
  simp only [Std.ExtTreeMap.getElem?_insert, h other hm]

namespace Evaluation

-- Evaluations that cannot be told apart by what is under some names.
structure AlikeOn (names : List String) (first second : Evaluation σ) : Prop where
  result_eq : first.result = second.result
  resolver_eq : first.resolver = second.resolver
  events_eq : first.events = second.events
  agreeOn : Variables.AgreeOn names first.bindings second.bindings

theorem AlikeOn.andThen {first second : Evaluation σ}
    {next next' : Float → Variables → σ → Evaluation σ} (h : first.AlikeOn names second)
    (hn : ∀ x state bindings bindings', Variables.AgreeOn names bindings bindings' →
      (next x bindings state).AlikeOn names (next' x bindings' state)) :
    (first.andThen next).AlikeOn names (second.andThen next') := by
  cases hs : second.result
  case error =>
    rw [andThen_of_error hs, andThen_of_error (h.result_eq.trans hs)]
    exact h
  case ok x =>
    rw [andThen_of_ok hs, andThen_of_ok (h.result_eq.trans hs), h.resolver_eq]
    have hn := hn x second.resolver _ _ h.agreeOn
    exact { hn with events_eq := congrArg₂ (· ++ ·) h.events_eq hn.events_eq }

end Evaluation

theorem alikeOn_ask (h : Variables.AgreeOn names bindings bindings') (name : String) :
    (ask resolver name bindings state).AlikeOn names (ask resolver name bindings' state) := by
  cases hr : (resolver.resolve name state).1 <;> simp only [ask, hr]
  case value x => exact ⟨rfl, rfl, rfl, h.insert name x⟩
  all_goals exact ⟨rfl, rfl, rfl, h⟩

theorem alikeOn_lookUp (h : Variables.AgreeOn names bindings bindings') {name : String}
    (hn : name ∈ names) :
    (lookUp resolver name bindings state).AlikeOn names
      (lookUp resolver name bindings' state) := by
  cases hb : bindings'[name]?
  case none =>
    rw [lookUp_of_none hb, lookUp_of_none ((h name hn).trans hb)]
    exact alikeOn_ask h name
  case some =>
    rw [lookUp_of_some hb, lookUp_of_some ((h name hn).trans hb)]
    exact ⟨rfl, rfl, rfl, h⟩

-- The names in a tree, of variables and of functions.
def Tree.identifiers (tree : Tree) : List String :=
  tree.names.map (·.1)

theorem Tree.varNames_subset_identifiers (tree : Tree) : tree.varNames ⊆ tree.identifiers := by
  intro name hm
  have ⟨⟨_, called⟩, hn, hc⟩ := List.mem_filterMap.mp hm
  cases called <;> cases hc
  exact List.mem_map_of_mem hn

-- By induction on the tree, for all variables and states. What is bound on the left of an operator
-- is the same on both sides, so the variables agree on its right again.
theorem alikeOn_evaluate {tree : Tree} (hn : tree.identifiers ⊆ names)
    (hf : ∀ name ∈ names, functions.get? name = functions'.get? name)
    (h : Variables.AgreeOn names bindings bindings') :
    (evaluate functions resolver tree bindings state).AlikeOn names
      (evaluate functions' resolver tree bindings' state) := by
  induction tree generalizing bindings bindings' state
  case number => exact ⟨rfl, rfl, rfl, h⟩
  case var name =>
    have hn : name ∈ names := hn (List.mem_singleton_self name)
    have hc : functions.contains name = functions'.contains name := by
      simp only [Functions.contains_eq_isSome_get?, hf name hn]
    cases hc' : functions'.contains name
    case true =>
      rw [evaluate_var_of_contains hc', evaluate_var_of_contains (hc.trans hc')]
      exact ⟨rfl, rfl, rfl, h⟩
    case false =>
      rw [evaluate_var hc', evaluate_var (hc.trans hc')]
      exact alikeOn_lookUp h hn
  case call function argument hi =>
    obtain ⟨hm, hn⟩ := List.cons_subset.mp hn
    cases hg : functions'.get? function
    case none =>
      rw [evaluate_call_of_none hg, evaluate_call_of_none ((hf function hm).trans hg)]
      exact ⟨rfl, rfl, rfl, h⟩
    case some =>
      rw [evaluate_call hg, evaluate_call ((hf function hm).trans hg)]
      exact (hi hn h).andThen fun _ _ _ _ h => ⟨rfl, rfl, rfl, h⟩
  case binary op left right hl hr =>
    rw [Tree.identifiers, Tree.names, List.map_append] at hn
    obtain ⟨hnl, hnr⟩ := List.append_subset.mp hn
    refine (hl hnl h).andThen fun x _ _ _ h => ?_
    exact (hr hnr h).andThen fun y _ _ _ h => ⟨rfl, rfl, rfl, h⟩

theorem Resolver.mem_of_mem_replied {name : String}
    (h : name ∈ bindReplies (resolver.replies names state).1 ∅) : name ∈ names := by
  by_contra hn
  rw [Std.ExtTreeMap.mem_iff_isSome_getElem?, getElem?_replied_of_not_mem hn] at h
  simp at h

namespace Environment

-- The environments have the same functions and the same values under some names.
def AgreeOn (names : List String) (first second : Environment) : Prop :=
  ∀ name ∈ names, first.functions.get? name = second.functions.get? name ∧
    first.get? name = second.get? name

theorem AgreeOn.mono {more : List String} {first second : Environment}
    (h : AgreeOn more first second) (hn : names ⊆ more) : AgreeOn names first second :=
  fun name hm => h name (hn hm)

end Environment

-- Calculations in two environments that give the same, ask for the same in the same order, and bind
-- the same variables, which are among some names and were not bound before. Nothing else is changed
-- in either environment.
structure Calculation.AlikeFrom (names : List String) (environment environment' : Environment)
    (first second : Calculation σ) : Prop where
  result_eq : first.result = second.result
  resolver_eq : first.resolver = second.resolver
  events_eq : first.events = second.events
  exists_added : ∃ added : Variables,
    first.environment = environment.withDefaults added ∧
    second.environment = environment'.withDefaults added ∧
    ∀ name ∈ added, name ∈ names ∧ environment.get? name = none ∧ environment'.get? name = none

-- The identifiers of a text.
def identifiersIn (text : String) : List String :=
  match tokenize text with
  | .ok tokens => tokens.filterMap fun token =>
    if token.kind = .identifier then some token.literal else none
  | .error _   => []

theorem mem_identifiersIn {text : String} {tokens : List Token} (ht : tokenize text = .ok tokens)
    {token : Token} (hm : token ∈ tokens) (hk : token.kind = .identifier) :
    token.literal ∈ identifiersIn text := by
  rw [identifiersIn, ht]
  exact List.mem_filterMap.mpr ⟨token, hm, if_pos hk⟩

variable {environment environment' : Environment} {tree : Tree}

theorem identifiers_subset_of_build (h : (build functions source).result = .ok tree) :
    tree.identifiers ⊆ identifiersIn source.text := by
  intro name hm
  have ⟨_, hn, he⟩ := List.mem_map.mp hm
  have ⟨_, _, ht, _, htm, hk, hl⟩ := of_mem_names_of_build h hn
  rw [← he, ← hl]
  exact mem_identifiersIn ht htm hk

theorem Environment.AgreeOn.sameNames
    (h : environment.AgreeOn (identifiersIn source.text) environment') :
    SameNames environment.functions environment'.functions source.text := by
  intro tokens ht token hm hk
  have hf := (h _ (mem_identifiersIn ht hm hk)).1
  simp only [Functions.contains_eq_isSome_get?, hf]

theorem Environment.withDefaults_empty (environment : Environment) :
    environment.withDefaults ∅ = environment := by
  have hu : ∅ ∪ environment.variables = environment.variables := by
    apply Std.ExtTreeMap.ext_getElem?
    intro name
    rw [Std.ExtTreeMap.getElem?_union, Std.ExtTreeMap.getElem?_empty, Option.or_none]
  rw [withDefaults, hu]

-- An evaluation binds what it asks for, which are variables of the tree.
theorem environment_evaluate (environment : Environment) (resolver : Resolver σ) (tree : Tree)
    (state : σ) :
    let calculation := environment.evaluate resolver tree state
    let asked := Event.askedNames calculation.events
    calculation.environment =
        environment.withDefaults (bindReplies (resolver.replies asked state).1 ∅) ∧
      ∀ name ∈ asked, name ∈ tree.identifiers ∧ environment.get? name = none := by
  intro calculation asked
  constructor
  case left =>
    have hb := bindings_evaluate environment.functions resolver tree environment.variables state
    exact congrArg (Environment.mk · environment.functions) hb
  case right =>
    intro name hm
    have h := asks_evaluate environment.functions resolver tree environment.variables state
    have ⟨hv, _, hu⟩ := Tree.mem_unbound.mp (h.isPrefix.mem hm)
    exact ⟨tree.varNames_subset_identifiers hv, hu⟩

theorem alikeFrom_evaluate (resolver : Resolver σ) (state : σ)
    (h : environment.AgreeOn tree.identifiers environment') :
    (environment.evaluate resolver tree state).AlikeFrom tree.identifiers environment environment'
      (environment'.evaluate resolver tree state) := by
  have ha : (evaluate environment.functions resolver tree environment.variables state).AlikeOn
      tree.identifiers (evaluate _ resolver tree environment'.variables state) :=
    alikeOn_evaluate (List.Subset.refl _) (fun name hm => (h name hm).1)
      fun name hm => (h name hm).2
  have ⟨he, hm⟩ := environment_evaluate environment resolver tree state
  have ⟨he', hm'⟩ := environment_evaluate environment' resolver tree state
  constructor
  case result_eq => exact congrArg (·.mapError Error.eval) ha.result_eq
  case resolver_eq => exact ha.resolver_eq
  case events_eq => exact ha.events_eq
  case exists_added =>
    have hev : (environment'.evaluate resolver tree state).events =
      (environment.evaluate resolver tree state).events := ha.events_eq.symm
    rw [hev] at he' hm'
    refine ⟨_, he, he', fun name hn => ?_⟩
    have hn := Resolver.mem_of_mem_replied hn
    exact ⟨(hm name hn).1, (hm name hn).2, (hm' name hn).2⟩

-- Only the names in a text matter to its value. In environments that agree on them, a text has the
-- same value or the same error, the same is asked for in the same order, and what is bound on the
-- way is the same and was bound in neither. Nothing else changes in either environment. So it is
-- with any tree, too, and the names in it.
theorem calculate_depends_on_names (resolver : Resolver σ) (state : σ)
    (environment environment' : Environment) :
    (∀ source, environment.AgreeOn (identifiersIn source.text) environment' →
      (environment.calculate resolver source state).AlikeFrom (identifiersIn source.text)
        environment environment' (environment'.calculate resolver source state)) ∧
    ∀ tree, environment.AgreeOn tree.identifiers environment' →
      (environment.evaluate resolver tree state).AlikeFrom tree.identifiers
        environment environment' (environment'.evaluate resolver tree state) := by
  refine ⟨fun source h => ?_, fun tree h => alikeFrom_evaluate resolver state h⟩
  have hb := build_congr h.sameNames
  cases hr : (build environment'.functions source).result
  case error error =>
    rw [Environment.calculate_of_build_error hr,
      Environment.calculate_of_build_error (hb ▸ hr), hb]
    refine ⟨rfl, rfl, rfl, ∅, ?_, ?_, by simp⟩
    · exact environment.withDefaults_empty.symm
    · exact environment'.withDefaults_empty.symm
  case ok tree =>
    have hn := identifiers_subset_of_build hr
    have ha := alikeFrom_evaluate resolver state (h.mono hn)
    rw [Environment.calculate_of_build hr, Environment.calculate_of_build (hb ▸ hr), hb]
    have ⟨added, he, he', hm⟩ := ha.exists_added
    exact ⟨ha.result_eq, ha.resolver_eq, congrArg (_ ++ ·) ha.events_eq, added, he, he',
      fun name ha => ⟨hn (hm name ha).1, (hm name ha).2⟩⟩

set_option maxRecDepth 4000 in
theorem calculate_besides_names :
    let environment := Environment.withBuiltins.define "z" 4
    let environment' := (environment.remove "sin").register "f" Float.exp |>.define "w" 1
    let tree : Tree := .binary .times (.call "cos" (.var "x")) (.binary .plus (.var "z") (.var "y"))
    (environment.AgreeOn (identifiersIn "cos(x) * (z + y)") environment' ∧
      (environment.calculate .sequence ⟨none, "cos(x) * (z + y)"⟩ [some 0, none]).AlikeFrom
        (identifiersIn "cos(x) * (z + y)") environment environment'
        (environment'.calculate .sequence ⟨none, "cos(x) * (z + y)"⟩ [some 0, none])) ∧
    environment.AgreeOn tree.identifiers environment' ∧
      (environment.evaluate .sequence tree [some 0, none]).AlikeFrom tree.identifiers
        environment environment' (environment'.evaluate .sequence tree [some 0, none]) := by
  intro environment environment' tree
  have hi : identifiersIn "cos(x) * (z + y)" = ["cos", "x", "z", "y"] := by cbv
  have ht : tree.identifiers = ["cos", "x", "z", "y"] := rfl
  have ha : environment.AgreeOn ["cos", "x", "z", "y"] environment' := by
    simp [Environment.AgreeOn, environment', Environment.define, Environment.register,
      Environment.remove, Environment.get?, Std.ExtTreeMap.getElem?_insert]
  obtain ⟨hc, he⟩ :=
    calculate_depends_on_names .sequence [some 0, none] environment environment'
  exact ⟨⟨hi ▸ ha, hc ⟨none, "cos(x) * (z + y)"⟩ (hi ▸ ha)⟩, ht ▸ ha, he tree (ht ▸ ha)⟩

end Reckoner
