import Reckoner.Proofs.CommandLine
import Reckoner.Proofs.Program.Outcome

/-!
A text of one line as an argument, in a file and as a line of the input. Where it comes from makes
no difference to how the commands end, but for one thing: a line of the input keeps the line feed
that ends it, as the last line of a file does. What is missing behind it is missing on a second
line.
-/

namespace Reckoner.Program

-- The outcomes for a text of one line that is given as an argument, stored in a file and typed as a
-- line of the input, where the text may end too early.
structure AgreeOnLine (early : Prop) (given stored typed : Outcome) : Prop where
  stored_eq : stored = given
  typed_eq : ¬early → typed = { given with output := heading ++ given.output }
  told_apart : early → ∃ message,
    given = ⟨65, "", some ("[line 1] Error: " ++ message), false⟩ ∧
    typed = ⟨65, heading, some ("[line 2] Error: " ++ message), false⟩

section

variable {text : String} (hl : '\n' ∉ text.toList)
include hl

theorem tokenize_line_feed (name name' : Option String) (output : String) :
    tokenize ⟨name', text ++ "\n"⟩ output = tokenize ⟨name, text⟩ output := by
  have ⟨inner, hi, hlf, hw⟩ := exists_items_line_feed text
  have he := listings_append_ending inner (text ++ "\n").utf8ByteSize text.utf8ByteSize
  rcases h : listings (inner ++ [.ok (.ending text.utf8ByteSize)]) with ⟨lines, _ | fault⟩
  all_goals simp only [tokenize, hi, hlf, he, h]
  case some =>
    have hm := mem_of_listings (congrArg Prod.snd h)
    have hi : .error fault ∈ inner := by simpa using hm
    have hw : Source.Within text fault.place.offset := hw _ hi
    have ht : Error.told (.lex ⟨name', text ++ "\n"⟩ fault) =
        Error.told (.lex ⟨name, text⟩ fault) := by
      rw [Error.told_lex, Error.told_lex, hw.lineAt hl, Source.lineAt_eq_one hl]
    simp only [failure_eq_ending, ht]

theorem agreeOnLine_tokenize (name : Option String) :
    AgreeOnLine False (tokenize ⟨none, text⟩ "") (tokenize ⟨name, text⟩ "")
      (tokenize ⟨none, text ++ "\n"⟩ heading) where
  stored_eq := by rw [← tokenize_line_feed hl name none, tokenize_line_feed hl none none]
  typed_eq _ := by
    rw [tokenize_line_feed hl none none, ← tokenize_append, String.append_empty]
  told_apart h := h.elim

-- Whatever becomes of the tree.
theorem agreeOnLine_ending (name : Option String)
    (next : Tree → Except (Option Nat × String) String) :
    AgreeOnLine (EndsEarly .builtin text) (ending "" (toldTree .builtin ⟨none, text⟩ >>= next))
      (ending "" (toldTree .builtin ⟨name, text⟩ >>= next))
      (ending heading (toldTree .builtin ⟨none, text ++ "\n"⟩ >>= next)) := by
  have ⟨told, hg, ht⟩ := toldTree_line_feed hl .builtin
  constructor
  case stored_eq => rw [hg, hg]
  case typed_eq =>
    intro hn
    have ht := (ht.resolve_right fun h => hn h.1).2
    rw [hg, ht, ← ending_append, String.append_empty]
  case told_apart =>
    intro he
    have ⟨message, hm, ht⟩ := (ht.resolve_left fun h => h.1 he).2
    refine ⟨firstLine message, ?_, ?_⟩
    · rw [hg, hm, ← firstLine_append (by decide)]
      rfl
    · rw [ht, ← firstLine_append (by decide)]
      rfl

end

-- With any options, a text of one line comes to the same end as an argument behind two hyphens, as
-- the content of a file and as a line of the input, behind the heading of the input. Only an error
-- at the end of the text is told with the second line if the text is a line of the input, and with
-- the first line if not.
theorem outcomes_of_line {name file text : String} {options named : List String}
    {command : Command} {bindings : List (String × Float)} {prompts : Bool}
    {given stored typed : Resources} {more : List UInt8}
    (hr : CommandLine.read (name :: options) = .ok ⟨command, .input, bindings, prompts⟩)
    (he : "--" ∉ options) (hp : command = .eval → prompts = false) (hl : '\n' ∉ text.toList)
    (hf : file ≠ "") (hn : CommandLine.NamesFile command file named)
    (hs : stored.file? file = some (encodeText text))
    (ht : typed.input = encodeText (text ++ "\n") ++ more) :
    AgreeOnLine (command ≠ .tokenize ∧ EndsEarly .builtin text)
      (run (name :: (options ++ ["--", text])) given) (run (name :: (options ++ named)) stored)
      (run (name :: options) typed) := by
  have hg : source given (.expression text) = .ok (⟨none, text⟩, .ofInput given.input) := rfl
  have hs := source_file hs
  have ht := source_line hl ht
  have hrg := CommandLine.read_expression hr he text
  have hrs := CommandLine.read_file hr he hn hf
  cases command
  case tokenize =>
    rw [run_tokenize hg hrg, run_tokenize hs hrs, run_tokenize ht hr, ne_self_iff_false, false_and]
    exact agreeOnLine_tokenize hl (some file)
  case parse =>
    rw [run_parse hg hrg, run_parse hs hrs, run_parse ht hr, and_iff_right (by decide)]
    simp only [parse_eq_ending]
    exact agreeOnLine_ending hl (some file) _
  case eval =>
    cases hp rfl
    rw [run_eval hg hrg, run_eval hs hrs, run_eval ht hr, and_iff_right (by decide)]
    simp only [eval_eq_ending]
    exact agreeOnLine_ending hl (some file) _

theorem outcomes_of_open_call :
    let files (file : String) := if file = "in" then some (encodeText "sin(x") else none
    let options := ["-D", "x=1", "--no-prompt"]
    CommandLine.read ("eval" :: options) = .ok ⟨.eval, .input, [("x", 1)], false⟩ ∧
    AgreeOnLine (Command.eval ≠ .tokenize ∧ EndsEarly .builtin "sin(x")
      (run ("eval" :: (options ++ ["--", "sin(x"])) ⟨files, []⟩)
      (run ("eval" :: (options ++ ["--file", "in"])) ⟨files, []⟩)
      (run ("eval" :: options) ⟨files, encodeText ("sin(x" ++ "\n") ++ [50]⟩) := by
  intro files options
  have hr : CommandLine.read ("eval" :: options) = .ok ⟨.eval, .input, [("x", 1)], false⟩ := rfl
  exact ⟨hr, outcomes_of_line hr (by decide) (fun _ => rfl) (by decide) (by decide) (.apart rfl)
    rfl rfl⟩

-- The tokens of a sum without its second operand.
def openSum (size : Nat) : List Token :=
  [⟨.number 1, "1", 0⟩, ⟨.operator .plus, "+", 1⟩, .ending size]

theorem toldTree_openSum {text : String} {size : Nat}
    (h : (Lexer.ofText text).items = (openSum size).map .ok) :
    toldTree .builtin ⟨none, text⟩ =
      .error (some (Source.lineAt ⟨none, text⟩ size), "unexpected end of input") := by
  have ht : Reckoner.tokenize text = .ok (openSum size) := tokenize_eq_ok_iff.mpr h
  exact toldTree_of_tokens _ none ht

-- The line feed of the input brings a second line.
theorem complaint_of_missing_operand :
    (run ["parse", "--", "1+"] ⟨fun _ => none, []⟩).complaint =
      some "[line 1] Error: unexpected end of input" ∧
    (run ["parse"] ⟨fun _ => none, encodeText "1+\n"⟩).complaint =
      some "[line 2] Error: unexpected end of input" := by
  constructor
  case left =>
    have hi : (Lexer.ofText "1+").items = (openSum 2).map .ok := by
      rw [Lexer.items_of_next?_eq_some rfl, Lexer.items_of_next?_eq_some rfl,
        Lexer.items_of_next?_eq_some rfl, Lexer.items_of_next?_eq_none rfl]
      rfl
    have hs : source ⟨fun _ => none, []⟩ (.expression "1+") =
        .ok (⟨none, "1+"⟩, .ofInput []) := rfl
    rw [run_parse hs rfl, parse_eq_ending, toldTree_openSum hi]
    rfl
  case right =>
    have hi : (Lexer.ofText "1+\n").items = (openSum 3).map .ok := by
      rw [Lexer.items_of_next?_eq_some rfl, Lexer.items_of_next?_eq_some rfl,
        Lexer.items_of_next?_eq_some rfl, Lexer.items_of_next?_eq_none rfl]
      rfl
    have hl : '\n' ∉ "1+".toList := by decide
    have hr : run ["parse"] ⟨fun _ => none, encodeText "1+\n"⟩ = parse ⟨none, "1+\n"⟩ heading :=
      run_parse (source_line hl rfl) rfl
    rw [hr, parse_eq_ending, toldTree_openSum hi]
    rfl

end Reckoner.Program
