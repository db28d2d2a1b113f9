import Reckoner.Program
import Reckoner.Proofs.LineFeed
import Reckoner.Proofs.Typed

/-!
The end of a run. What is told about an error decides it, and so what a source has for a tree, or
for tokens, decides how the commands end.
-/

namespace Reckoner

namespace Program

-- The end of a run with a line of output, or with what is told about an error.
def ending (output : String) : Except (Option Nat × String) String → Outcome
  | .ok line => finish 0 (output ++ line ++ "\n")
  | .error (some line, message) =>
    ⟨65, output, some (firstLine s!"[line {line}] Error: {message}"), false⟩
  | .error (none, message) => ⟨70, output, some (firstLine s!"Error: {message}"), false⟩

theorem ending_append (before output : String) (result : Except (Option Nat × String) String) :
    ending (before ++ output) result =
      { ending output result with output := before ++ (ending output result).output } := by
  rcases result with ⟨_ | _, _⟩ | _
  case ok => simp only [ending, finish, String.append_assoc]
  all_goals rfl

theorem failure_eq_ending (error : Error) (output : String) :
    failure error output = ending output (.error error.told) := by
  cases hl : error.line? <;> simp only [failure, ending, Error.told, hl]

-- The listings of tokens, each on a line.
def listed (tokens : List Token) : String :=
  String.join (tokens.map (·.listing ++ "\n"))

-- Tokens are listed up to the first fault.
theorem exists_listings (items : List Lexer.Item) :
    (∃ tokens, items = tokens.map .ok ∧ listings items = (listed tokens, none)) ∨
      ∃ tokens fault rest, items = tokens.map .ok ++ .error fault :: rest ∧
        listings items = (listed tokens, some fault) := by
  induction items
  case nil => exact .inl ⟨[], rfl, rfl⟩
  case cons item items hi =>
    cases item
    case error fault => exact .inr ⟨[], fault, items, rfl, rfl⟩
    case ok token =>
      have hc (tokens : List Token) :
          token.listing ++ "\n" ++ listed tokens = listed (token :: tokens) :=
        String.join_cons.symm
      cases hi
      case inl h =>
        obtain ⟨tokens, rfl, h⟩ := h
        refine .inl ⟨token :: tokens, rfl, ?_⟩
        simp only [listings, h, hc]
      case inr h =>
        obtain ⟨tokens, fault, rest, rfl, h⟩ := h
        refine .inr ⟨token :: tokens, fault, rest, rfl, ?_⟩
        simp only [listings, h, hc]

theorem listings_append_ending (items : List Lexer.Item) (offset offset' : Nat) :
    listings (items ++ [.ok (.ending offset)]) = listings (items ++ [.ok (.ending offset')]) := by
  induction items
  case nil => rfl
  case cons item items hi =>
    cases item
    case error => rfl
    case ok => simp only [List.cons_append, listings, hi]

theorem mem_of_listings {items : List Lexer.Item} {fault : LexFault}
    (h : (listings items).2 = some fault) : .error fault ∈ items := by
  rcases exists_listings items with ⟨_, _, hl⟩ | ⟨_, _, _, hi, hl⟩
  all_goals
    rw [hl] at h
    cases h
  simp [hi]

theorem tokenize_append (before output : String) (source : Source) :
    tokenize source (before ++ output) =
      { tokenize source output with output := before ++ (tokenize source output).output } := by
  rcases h : listings (Lexer.ofText source.text).items with ⟨text, _ | fault⟩
  all_goals simp only [tokenize, h, failure_eq_ending, String.append_assoc]
  case none => rfl
  case some => exact ending_append ..

theorem parse_eq_ending (source : Source) (output : String) :
    parse source output =
      ending output (toldTree .builtin source >>= fun tree => .ok tree.write) := by
  rw [parse, toldTree]
  cases (build .builtin source).result
  case error error => exact failure_eq_ending error output
  case ok => rfl

-- The line for a value.
def answer (value : Float) : String :=
  "Result: " ++ Layout.canonical.write value

theorem conclude_eq_ending (result : Except Error Float) (output : String) :
    conclude result output = ending output ((result.mapError Error.told).map answer) := by
  cases result
  case error error => exact failure_eq_ending error output
  case ok => simp only [conclude, ending, Except.mapError, Except.map, answer, String.append_assoc]

-- A text with the head of its first line.
theorem firstLine_append {text : String} (h : '\n' ∉ text.toList) (more : String) :
    firstLine (text ++ more) = text ++ firstLine more := by
  have ht : ∀ c ∈ text.toList, decide (c ≠ '\n') = true := by
    intro c hc
    exact decide_eq_true fun he => h (he ▸ hc)
  rw [firstLine, String.toList_append, List.takeWhile_append_of_pos ht, String.ofList_append,
    String.ofList_toList]
  rfl

theorem eval_never (bindings : List (String × Float)) (source : Source) (console : Console) :
    eval bindings false source console =
      conclude ((environment bindings).calculate .never source ()).result console.output :=
  rfl

theorem eval_prompt (bindings : List (String × Float)) (source : Source) (console : Console) :
    let calculation := (environment bindings).calculate .prompt source console
    eval bindings true source console =
      { conclude calculation.result calculation.resolver.output with
        starved := calculation.events.any Event.closes } :=
  rfl

theorem functions_environment (bindings : List (String × Float)) :
    (environment bindings).functions = .builtin := by
  have hf (start : Environment) : (bindings.foldl
      (fun environment binding => environment.define binding.1 binding.2) start).functions =
        start.functions := by
    induction bindings generalizing start
    case nil => rfl
    case cons binding bindings hi => exact hi _
  exact hf _

theorem source_file {resources : Resources} {file text : String}
    (h : resources.file? file = some (encodeText text)) :
    source resources (.file file) = .ok (⟨some file, text⟩, .ofInput resources.input) := by
  have hd : (resources.file? file >>= decodeText?) = some text := by
    rw [h]
    exact decodeText?_encodeText text
  simp only [source, hd]

theorem source_line {resources : Resources} {text : String} {more : List UInt8}
    (hl : '\n' ∉ text.toList) (h : resources.input = encodeText (text ++ "\n") ++ more) :
    source resources .input =
      .ok (⟨none, text ++ "\n"⟩, { Console.ofInput more with output := heading }) := by
  simp only [source, h, Console.splitLine_line hl, decodeText?_encodeText]

section

variable {arguments : List String} {resources : Resources} {origin : Origin} {text : Source}
variable {bindings : List (String × Float)} {prompts : Bool} {console : Console}
variable (hs : source resources origin = .ok (text, console))
include hs

theorem run_tokenize (h : CommandLine.read arguments = .ok ⟨.tokenize, origin, bindings, prompts⟩) :
    run arguments resources = tokenize text console.output := by
  simp only [run, h, invoke, hs]

theorem run_parse (h : CommandLine.read arguments = .ok ⟨.parse, origin, bindings, prompts⟩) :
    run arguments resources = parse text console.output := by
  simp only [run, h, invoke, hs]

theorem run_eval (h : CommandLine.read arguments = .ok ⟨.eval, origin, bindings, prompts⟩) :
    run arguments resources = eval bindings prompts text console := by
  simp only [run, h, invoke, hs]

end

end Program

variable {σ : Type}

theorem told_calculate (environment : Environment) (resolver : Resolver σ) (source : Source)
    (state : σ) :
    (environment.calculate resolver source state).result.mapError Error.told =
      toldTree environment.functions source >>=
        fun tree => (environment.evaluate resolver tree state).result.mapError Error.told := by
  rw [toldTree]
  cases hb : (build environment.functions source).result
  case error =>
    rw [Environment.calculate_of_build_error hb]
    rfl
  case ok =>
    rw [Environment.calculate_of_build hb]
    rfl

namespace Program

-- A value without questions.
def answerOf (bindings : List (String × Float)) (tree : Tree) :
    Except (Option Nat × String) String :=
  (((environment bindings).evaluate .never tree ()).result.mapError Error.told).map answer

theorem eval_eq_ending (bindings : List (String × Float)) (source : Source) (console : Console) :
    eval bindings false source console =
      ending console.output (toldTree .builtin source >>= answerOf bindings) := by
  have ht := told_calculate (environment bindings) .never source ()
  rw [functions_environment] at ht
  rw [eval_never, conclude_eq_ending, ht]
  cases toldTree .builtin source <;> rfl

end Program

end Reckoner
