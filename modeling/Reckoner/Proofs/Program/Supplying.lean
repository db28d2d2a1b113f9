import Reckoner.Proofs.CommandLine
import Reckoner.Proofs.Dialogue
import Reckoner.Proofs.Program.Outcome
import Reckoner.Proofs.Variables

/-!
Values for the variables of an expression. They can be bound on the command line or typed when they
are asked for, behind the expression if that is typed too. The result is the same, and it is written
below the questions for the values that were typed.
-/

namespace Reckoner

open Program

theorem toldTree_eq_ok_iff {functions : Functions} {source : Source} {tree : Tree} :
    toldTree functions source = .ok tree ↔ (build functions source).result = .ok tree := by
  rw [toldTree]
  cases (build functions source).result <;> simp [Except.mapError]

-- A line has the tree of its text.
theorem build_line {functions : Functions} {text ending : String} {tree : Tree}
    (hl : '\n' ∉ text.toList) (he : ending = "\n" ∨ ending = "")
    (h : (build functions ⟨none, text⟩).result = .ok tree) :
    (build functions ⟨none, text ++ ending⟩).result = .ok tree := by
  obtain rfl | rfl := he
  case inr => rwa [String.append_empty]
  case inl =>
    have ⟨told, hg, ht⟩ := toldTree_line_feed hl functions
    rw [← toldTree_eq_ok_iff, hg] at h
    cases h
    rw [← toldTree_eq_ok_iff]
    cases ht
    case inl ht => exact ht.2 none
    case inr ht =>
      have ⟨_, _, ht, _⟩ := ht
      cases ht

-- The number in a text, white space around it apart.
def numberIn (text : String) : Float :=
  match Numeral.read (Text.trim text.toList) with
  | .ok x    => x
  | .error _ => 0

-- A line that is typed for a value.
def Supplies (text : String) : Prop :=
  '\n' ∉ text.toList ∧ ∃ x, Numeral.read (Text.trim text.toList) = .ok x

theorem Supplies.read_eq {text : String} (h : Supplies text) :
    Numeral.read (Text.trim text.toList) = .ok (numberIn text) := by
  have ⟨_, x, hx⟩ := h
  rw [numberIn, hx]

theorem Supplies.holds {text ending : String} {line : List UInt8} (h : Supplies text)
    (he : ending = "\n" ∨ ending = "") (hd : decodeText? line = some (text ++ ending)) :
    Prompt.Holds line (numberIn text) := by
  refine ⟨_, hd, ?_⟩
  have hb : ∀ c ∈ ending.toList, Text.isWhiteSpace c = true := by
    obtain rfl | rfl := he
    case inl => exact List.forall_mem_singleton.mpr (by decide)
    case inr => exact List.forall_mem_nil _
  rw [String.toList_append, Text.trim_append _ hb, h.read_eq]

-- A variable and the value that it is given, as a request that brought this value.
def supplied (entry : String × String) : Request :=
  ⟨entry.1, .value (numberIn entry.2)⟩

variable {entries given : List (String × String)}

theorem replies_of_typed {console : Console} (hv : ∀ entry ∈ entries, Supplies entry.2)
    (ht : Console.Typed (entries.map Prod.snd) console.input) (hc : console.trouble = none) :
    (Resolver.prompt.replies (entries.map Prod.fst) console).1 = entries.map supplied ∧
      (Resolver.prompt.replies (entries.map Prod.fst) console).2.output =
        console.output ++ String.join (entries.map (Prompt.question ·.1)) := by
  induction entries generalizing console
  case nil => exact ⟨rfl, by simp [Resolver.replies]⟩
  case cons entry entries hi =>
    obtain ⟨hs, hv⟩ := List.forall_mem_cons.mp hv
    obtain ⟨hn, htn, ending, he, hd⟩ := ht.next hs.1
    have hw : console.WorksFor 1 :=
      fun _ h => absurd (h.symm.trans hc) (Option.some_ne_none _)
    have hr : Resolver.prompt.resolve entry.1 console = _ :=
      Prompt.request_of_line entry.1 hw (Console.lines_eq_cons hn)
    rw [Prompt.replyTo_of_holds _ (hs.holds he hd), Console.served_singleton, hc] at hr
    obtain ⟨hq, ho⟩ :=
      @hi ⟨_, console.output ++ Prompt.question entry.1, console.torn, none⟩ hv htn rfl
    simp only [List.map_cons, Resolver.replies_cons, hr, String.join_cons, ← String.append_assoc]
    exact ⟨congrArg _ hq, ho⟩

theorem keptIn_bindReplies_of_perm {requests others : List Request} (h : requests.Perm others)
    (hn : (requests.map Request.name).Nodup) :
    KeptIn (bindReplies requests ∅) (bindReplies others ∅) := by
  intro name x hx
  by_cases hm : name ∈ requests.map Request.name
  case neg =>
    rw [getElem?_bindReplies_of_not_mem hm] at hx
    simp at hx
  case pos =>
    obtain ⟨request, hr, rfl⟩ := List.mem_map.mp hm
    have hno := (h.map Request.name).nodup_iff.mp hn
    rw [getElem?_bindReplies_of_mem hn hr (by simp)] at hx
    rw [getElem?_bindReplies_of_mem hno (h.mem_iff.mp hr) (by simp), hx]

theorem variables_environment (given : List (String × String)) :
    (environment (given.map fun entry => (entry.1, numberIn entry.2))).variables =
      bindReplies (given.map supplied) ∅ := by
  have hf (start : Environment) : ((given.map fun entry => (entry.1, numberIn entry.2)).foldl
      (fun environment binding => environment.define binding.1 binding.2) start).variables =
        bindReplies (given.map supplied) start.variables := by
    induction given generalizing start
    case nil => rfl
    case cons entry given hi => exact hi _
  exact hf _

section

variable {source : Source} {tree : Tree}

-- A value is written below what the console wrote.
theorem eval_of_value {console : Console} {x : Float} (bindings : List (String × Float))
    (hb : (build .builtin source).result = .ok tree)
    (hx : (evaluate .builtin .prompt tree (environment bindings).variables console).result =
      .ok x) :
    eval bindings true source console =
      finish 0 ((evaluate .builtin .prompt tree (environment bindings).variables
        console).resolver.output ++ "Result: " ++ Layout.canonical.write x ++ "\n") := by
  rw [← functions_environment bindings] at hb hx ⊢
  have he := closes_of_result_eq_ok hx
  have hr := Environment.result_evaluate_eq_ok_iff.mpr hx
  have hs : ∀ event ∈ (build (environment bindings).functions source).events ++
      ((environment bindings).evaluate .prompt tree console).events, event.closes = false :=
    List.forall_mem_append.mpr
      ⟨fun event hm => (Event.ofReading_build _ _ event hm).closes_eq_false, he⟩
  rw [eval_prompt, Environment.calculate_of_build hb, List.any_eq_false.mpr (by simpa using hs), hr]
  rfl

-- With a value typed for each variable there is a result, below the questions for them. It is the
-- same wherever these values are bound.
theorem exists_value_of_typed (console : Console) (hb : (build .builtin source).result = .ok tree)
    (hu : tree.unbound .builtin ∅ = entries.map Prod.fst)
    (hv : ∀ entry ∈ entries, Supplies entry.2)
    (ht : Console.Typed (entries.map Prod.snd) console.input) (hc : console.trouble = none) :
    ∃ x, eval [] true source console =
        finish 0 (console.output ++ String.join (entries.map (Prompt.question ·.1)) ++
          "Result: " ++ Layout.canonical.write x ++ "\n") ∧
      ∀ more, KeptIn (bindReplies (entries.map supplied) ∅) more → ∀ state,
        (evaluate .builtin .prompt tree more state).Quiet x more state := by
  have ⟨hr, ho⟩ := replies_of_typed hv ht hc
  have hq : ∀ request ∈ (Resolver.prompt.replies (tree.unbound .builtin ∅) console).1,
      ∃ x, request.reply = .value x := by
    rw [hu, hr]
    intro request hm
    obtain ⟨entry, _, rfl⟩ := List.mem_map.mp hm
    exact ⟨_, rfl⟩
  have ⟨x, hx⟩ := result_evaluate_of_values (fits_of_build hb) hq
  have ha := asks_evaluate .builtin .prompt tree ∅ console
  have hs := ha.resolver_eq
  have hk := ha.bindings_eq
  rw [ha.complete x hx, hu] at hs hk
  rw [hr] at hk
  refine ⟨x, ?_, fun more h => quiet_evaluate hx (hk ▸ h) .prompt⟩
  have he : eval [] true source console = finish 0
      ((evaluate .builtin .prompt tree ∅ console).resolver.output ++ _ ++ _ ++ _) :=
    eval_of_value [] hb hx
  rw [he, hs, ho]

end

-- The name of a variable is written like a word, and so is a binding of it.
theorem argument_of_supplies {text : String} {entry : String × String}
    (hn : entry.1 ∈ variablesIn .builtin text) (hs : Supplies entry.2) :
    let text := entry.1 ++ "=" ++ entry.2
    CommandLine.Argument.ofText .eval text = .word text ∧
      CommandLine.binding text = .ok (entry.1, numberIn entry.2) := by
  have ha := forall_isAlphabetic_of_mem hn
  constructor
  case left =>
    refine CommandLine.ofText_eq_word fun rest he => ?_
    rw [String.toList_append, String.toList_append] at he
    cases hc : entry.1.toList <;> rw [hc] at he
    case nil => cases he
    case cons c name =>
      cases (List.cons.inj he).1
      exact absurd (ha '-' (hc ▸ List.mem_cons_self)) (by decide)
  case right =>
    refine CommandLine.binding_eq_ok (fun hm => absurd (ha '=' hm) (by decide)) ?_ hs.read_eq
    intro c hm
    by_contra hw
    rw [Bool.not_eq_false] at hw
    cases (ha c hm).symm.trans (Text.isAlphabetic_eq_false_of_isWhiteSpace hw)

namespace Program

-- Each variable of a line with a tree gets a value, on the command line in any order, or typed for
-- the questions in the order in which the variables first occur, the expression being given or
-- typed as well. There is a result then, which is the same each time.
theorem outcomes_of_supplied {text : String} {tree : Tree} {typed whole : List UInt8}
    (hl : '\n' ∉ text.toList) (hb : (build .builtin ⟨none, text⟩).result = .ok tree)
    (hn : entries.map Prod.fst = variablesIn .builtin text)
    (hv : ∀ entry ∈ entries, Supplies entry.2) (hg : given.Perm entries)
    (ht : Console.Typed (entries.map Prod.snd) typed)
    (hw : Console.Typed (text :: entries.map Prod.snd) whole) (resources : Resources) :
    ∃ x : Float,
      let result := "Result: " ++ Layout.canonical.write x ++ "\n"
      let questions := String.join (entries.map (Prompt.question ·.1))
      run ("eval" :: (given.flatMap (fun entry => ["-D", entry.1 ++ "=" ++ entry.2]) ++ [text]))
        resources = finish 0 result ∧
      run ["eval", text] { resources with input := typed } = finish 0 (questions ++ result) ∧
      run ["eval"] { resources with input := whole } =
        finish 0 (heading ++ questions ++ result) := by
  have hu := (unbound_of_build hb).trans hn.symm
  have hm (entry : String × String) (h : entry ∈ given) :
      entry.1 ∈ variablesIn .builtin text ∧ Supplies entry.2 := by
    have he := hg.mem_iff.mp h
    exact ⟨hn ▸ List.mem_map_of_mem he, hv entry he⟩
  have hword : CommandLine.Argument.ofText .eval text = .word text :=
    CommandLine.ofText_eq_word (ne_hyphen_of_build hb)
  have ⟨_, htw, ending, hend, hd⟩ := hw.next hl
  have ⟨x, hx, hq⟩ := exists_value_of_typed (.ofInput typed) hb hu hv ht rfl
  let behind : Console := { Console.ofInput (Console.splitLine whole).2 with output := heading }
  have ⟨y, hy, hr⟩ := exists_value_of_typed behind (build_line hl hend hb) hu hv htw rfl
  let bindings := given.map fun entry => (entry.1, numberIn entry.2)
  have hk : KeptIn (bindReplies (entries.map supplied) ∅) (environment bindings).variables := by
    rw [variables_environment]
    refine keptIn_bindReplies_of_perm (hg.symm.map supplied) ?_
    have hs : (entries.map supplied).map Request.name = entries.map Prod.fst := by
      rw [List.map_map]
      rfl
    rw [hs, ← hu]
    exact Tree.nodup_unbound
  have hquiet := hq _ hk (.ofInput resources.input)
  have hxy : y = x := Except.ok.inj ((hr _ hk _).result_eq.symm.trans hquiet.result_eq)
  refine ⟨x, ?_, ?_, ?_⟩
  · have hread := CommandLine.read_bindings numberIn
      (fun entry h => argument_of_supplies (hm entry h).1 (hm entry h).2) hword
    rw [run_eval rfl hread, eval_of_value bindings hb hquiet.result_eq, hquiet.resolver_eq]
    simp only [Console.ofInput, String.empty_append]
  · have hread : CommandLine.read ["eval", text] = .ok ⟨.eval, .expression text, [], true⟩ :=
      CommandLine.read_bindings numberIn (List.forall_mem_nil _) hword
    rw [run_eval rfl hread, hx]
    simp only [Console.ofInput, String.empty_append, String.append_assoc]
  · have hread : CommandLine.read ["eval"] = .ok ⟨.eval, .input, [], true⟩ := rfl
    have hs : source { resources with input := whole } .input =
        .ok (⟨none, text ++ ending⟩, behind) := by
      simp only [source, hd, behind]
    rw [run_eval hs hread, hy, hxy]
    simp only [behind, String.append_assoc]

-- The tokens of an expression in which one of two variables occurs twice.
def repeatedVariable : List Token :=
  [⟨.identifier, "x", 0⟩, ⟨.operator .power, "^", 1⟩, ⟨.identifier, "y", 2⟩,
    ⟨.operator .minus, "-", 3⟩, ⟨.identifier, "x", 4⟩, .ending 5]

-- It is asked for once, and its value may stand in white space.
theorem outcomes_of_repeated_variable :
    Reckoner.tokenize "x^y-x" = .ok repeatedVariable ∧ ∃ x : Float,
      let result := "Result: " ++ Layout.canonical.write x ++ "\n"
      run ["eval", "-D", "y=3", "-D", "x= 2 ", "x^y-x"] ⟨fun _ => none, []⟩ = finish 0 result ∧
      run ["eval", "x^y-x"] ⟨fun _ => none, encodeText " 2 \n" ++ encodeText "3"⟩ =
        finish 0 ("Enter value for variable x:\nEnter value for variable y:\n" ++ result) ∧
      run ["eval"] ⟨fun _ => none, encodeText "x^y-x\n" ++ (encodeText " 2 \n" ++ encodeText "3")⟩ =
        finish 0 ("Enter expression:\nEnter value for variable x:\nEnter value for variable y:\n" ++
          result) := by
  have ht : Reckoner.tokenize "x^y-x" = .ok repeatedVariable := by
    refine tokenize_eq_ok_iff.mpr ?_
    have h₁ : (Lexer.ofText "x^y-x").next? =
        some (.ok ⟨.identifier, "x", 0⟩, ⟨['^', 'y', '-', 'x'], 1, false⟩) := rfl
    have h₂ : Lexer.next? ⟨['^', 'y', '-', 'x'], 1, false⟩ =
        some (.ok ⟨.operator .power, "^", 1⟩, ⟨['y', '-', 'x'], 2, false⟩) := rfl
    have h₃ : Lexer.next? ⟨['y', '-', 'x'], 2, false⟩ =
        some (.ok ⟨.identifier, "y", 2⟩, ⟨['-', 'x'], 3, false⟩) := rfl
    have h₄ : Lexer.next? ⟨['-', 'x'], 3, false⟩ =
        some (.ok ⟨.operator .minus, "-", 3⟩, ⟨['x'], 4, false⟩) := rfl
    have h₅ : Lexer.next? ⟨['x'], 4, false⟩ =
        some (.ok ⟨.identifier, "x", 4⟩, ⟨[], 5, false⟩) := rfl
    rw [Lexer.items_of_next?_eq_some h₁, Lexer.items_of_next?_eq_some h₂,
      Lexer.items_of_next?_eq_some h₃, Lexer.items_of_next?_eq_some h₄,
      Lexer.items_of_next?_eq_some h₅, Lexer.items_end]
    rfl
  let tree : Tree := .binary .minus (.binary .power (.var "x") (.var "y")) (.var "x")
  have hb : (build .builtin ⟨none, "x^y-x"⟩).result = .ok tree :=
    (result_build_of_tokens ht).trans rfl
  let entries := [("x", " 2 "), ("y", "3")]
  have hn : entries.map Prod.fst = variablesIn .builtin "x^y-x" := by
    rw [variablesIn_of_tokens ht]
    decide
  have hv : ∀ entry ∈ entries, Supplies entry.2 := by
    simp only [entries, List.forall_mem_cons]
    exact ⟨⟨by decide, _, rfl⟩, ⟨by decide, _, rfl⟩, nofun⟩
  have htyped : Console.Typed (entries.map Prod.snd) (encodeText " 2 \n" ++ encodeText "3") :=
    .cons (.last (by decide))
  exact ⟨ht, outcomes_of_supplied (by decide) hb hn hv (.swap _ _ _) htyped (.cons htyped)
    ⟨fun _ => none, []⟩⟩

end Program

end Reckoner
