import Mathlib
import Reckoner.CommandLine

/-!
Reading a command line. Arguments are taken one after the other, and the value of the last option is
judged when it is settled. So options can be read on their own, and a source may follow them.
-/

namespace Reckoner

namespace Text

theorem trim_of_forall {text : List Char} (h : ∀ c ∈ text, isWhiteSpace c = false) :
    trim text = text := by
  have hd {text : List Char} (h : ∀ c ∈ text, isWhiteSpace c = false) :
      text.dropWhile isWhiteSpace = text := by
    cases text
    case nil => rfl
    case cons c text => exact List.dropWhile_cons_of_neg (by simp [h])
  rw [trim, hd h, hd (fun c hc => h c (List.mem_reverse.mp hc)), List.reverse_reverse]

theorem trim_append (text : List Char) {blank : List Char}
    (h : ∀ c ∈ blank, isWhiteSpace c = true) : trim (text ++ blank) = trim text := by
  have hr : ∀ c ∈ blank.reverse, isWhiteSpace c = true :=
    fun c hc => h c (List.mem_reverse.mp hc)
  rw [trim, trim, List.dropWhile_append]
  cases hd : text.dropWhile isWhiteSpace
  case nil =>
    rw [List.dropWhile_eq_nil_iff.mpr h]
    rfl
  case cons c rest =>
    have he : (c :: rest).isEmpty = false := rfl
    rw [he, if_neg Bool.false_ne_true, List.reverse_append, List.dropWhile_append_of_pos hr]

end Text

namespace CommandLine

theorem binding_eq_ok {name value : String} {number : Float} (hn : '=' ∉ name.toList)
    (hw : ∀ c ∈ name.toList, Text.isWhiteSpace c = false)
    (hv : Numeral.read (Text.trim value.toList) = .ok number) :
    binding (name ++ "=" ++ value) = .ok (name, number) := by
  have hp : ∀ c ∈ name.toList, decide (c ≠ '=') = true :=
    fun c hc => decide_eq_true fun he => hn (he ▸ hc)
  have hs : (name ++ "=" ++ value).toList = name.toList ++ '=' :: value.toList := by
    simp [String.toList_append]
  have hd : (name.toList ++ '=' :: value.toList).dropWhile (· ≠ '=') = '=' :: value.toList := by
    rw [List.dropWhile_append_of_pos hp]
    rfl
  have ht : (name.toList ++ '=' :: value.toList).takeWhile (· ≠ '=') = name.toList := by
    rw [List.takeWhile_append_of_pos hp]
    exact List.append_nil _
  simp only [binding, hs, hd, ht, Text.trim_of_forall hw, hv, String.ofList_toList]

theorem ofText_eq_escape_iff {command : Command} {text : String} :
    Argument.ofText command text = .escape ↔ text = "--" := by
  constructor
  case mp =>
    intro h
    unfold Argument.ofText at h
    split at h
    case h_1 ht => exact String.toList_inj.mp ht
    case h_2 => split at h <;> cases h
    case h_3 => split at h <;> cases h
    case h_4 => cases h
  case mpr =>
    intro h
    rw [h]
    rfl

-- What is no option is a word.
theorem ofText_eq_word {command : Command} {text : String}
    (h : ∀ rest, text.toList ≠ '-' :: rest) : Argument.ofText command text = .word text := by
  unfold Argument.ofText
  split
  case h_4 => rfl
  all_goals exact absurd ‹_› (h _)

theorem ofText_file_eq (command : Command) (file : String) :
    Argument.ofText command ("--file=" ++ file) = .option (some .file) (some file) := by
  have ht : ("--file=" ++ file).toList =
      '-' :: '-' :: 'f' :: 'i' :: 'l' :: 'e' :: '=' :: file.toList :=
    String.toList_append
  have hl : Argument.ofText command ("--file=" ++ file) =
      .option (Argument.long? command ['f', 'i', 'l', 'e'])
        (some (String.ofList file.toList)) := by
    rw [Argument.ofText, ht]
    rfl
  rw [hl, String.ofList_toList]
  cases command <;> rfl

-- The arguments that name a file.
inductive NamesFile (command : Command) (file : String) : List String → Prop
  | attached : NamesFile command file ["--file=" ++ file]
  | apart : Argument.ofText command file = .word file → NamesFile command file ["--file", file]

namespace Draft

variable {command : Command} {draft next : Draft} {bindings : List (String × Float)}
variable {noPrompt : Bool}

theorem arguments_of_ne_escape {text : String} {rest : List String} {form : Argument}
    (h : Argument.ofText command text = form) (hn : form ≠ .escape) :
    draft.arguments command (text :: rest) =
      draft.argument form >>= (arguments command · rest) := by
  rw [arguments, h]
  cases form
  case escape => exact absurd rfl hn
  all_goals rfl

theorem arguments_append {options : List String} (h : "--" ∉ options) (rest : List String) :
    draft.arguments command (options ++ rest) =
      draft.arguments command options >>= (arguments command · rest) := by
  induction options generalizing draft
  case nil => rfl
  case cons text options hi =>
    rw [List.mem_cons, not_or] at h
    have hn : Argument.ofText command text ≠ .escape :=
      fun he => h.1 (ofText_eq_escape_iff.mp he).symm
    rw [List.cons_append, arguments_of_ne_escape rfl hn, arguments_of_ne_escape rfl hn]
    cases draft.argument (.ofText command text)
    case error => rfl
    case ok next => exact hi h.2

-- An option leaves the expression as it is.
theorem take_eq_ok {switch : Switch} {value : Option String}
    (h : draft.take switch value = .ok next) :
    next.pending = draft.pending ∧ next.expression = draft.expression := by
  unfold take at h
  split at h <;> (try split at h) <;> cases h
  all_goals exact ⟨rfl, rfl⟩

theorem settle_eq_ok (h : draft.settle = .ok next) :
    next.pending = none ∧ next.expression = draft.expression := by
  unfold settle at h
  split at h
  case h_1 hp =>
    cases h
    exact ⟨hp, rfl⟩
  case h_2 => exact take_eq_ok h

theorem origin_eq_input (h : draft.origin = .ok .input) :
    draft.expression = none ∧ draft.file = none := by
  unfold origin at h
  split at h <;> cases h
  exact ⟨‹_›, ‹_›⟩

-- The draft of options without a source.
def ofOptions (bindings : List (String × Float)) (noPrompt : Bool) : Draft :=
  ⟨none, none, bindings, noPrompt, none⟩

theorem argument_word {text : String} (hp : ∀ switch, draft.pending ≠ some (switch, none)) :
    draft.argument (.word text) = draft.word text := by
  cases hd : draft.pending
  case none => simp only [argument, hd]
  case some pending =>
    have ⟨switch, value⟩ := pending
    cases value
    case none => exact absurd hd (hp switch)
    case some => simp only [argument, hd]

theorem take_file {file : String} (hf : file ≠ "") :
    (ofOptions bindings noPrompt).take .file (some file) =
      .ok { ofOptions bindings noPrompt with file := some file } := by
  simp [take, ofOptions, hf]

section

variable (he : draft.expression = none) (hs : draft.settle = .ok (ofOptions bindings noPrompt))
include hs

include he in
theorem word_of_settle (text : String) :
    draft.word text = .ok { ofOptions bindings noPrompt with expression := some text } := by
  simp only [word, he, hs]
  rfl

-- An option with its value in the argument after it. The value is judged when it is settled.
theorem arguments_apart {option text : String} {switch : Switch} (hn : switch ≠ .noPrompt)
    (ho : Argument.ofText command option = .option (some switch) none)
    (hw : Argument.ofText command text = .word text) (rest : List String) :
    draft.arguments command (option :: text :: rest) =
      arguments command { ofOptions bindings noPrompt with pending := some (switch, some text) }
        rest := by
  have hd : draft.argument (.option (some switch) none) =
      .ok { ofOptions bindings noPrompt with pending := some (switch, none) } := by
    cases switch
    case noPrompt => exact absurd rfl hn
    all_goals
      simp only [argument, Draft.option, hs]
      rfl
  rw [arguments_of_ne_escape ho (by simp), hd]
  exact arguments_of_ne_escape hw (by simp)

theorem exists_arguments_file {file : String} {given : List String}
    (hg : NamesFile command file given) (hf : file ≠ "") :
    ∃ next, draft.arguments command given = .ok next ∧
      next.settle = .ok { ofOptions bindings noPrompt with file := some file } := by
  cases hg
  case attached =>
    have hd : draft.argument (.option (some .file) (some file)) =
        .ok { ofOptions bindings noPrompt with file := some file } := by
      rw [← take_file hf]
      simp only [argument, option, hs]
      rfl
    refine ⟨{ ofOptions bindings noPrompt with file := some file }, ?_, rfl⟩
    rw [arguments_of_ne_escape (ofText_file_eq command file) (by simp), hd]
    rfl
  case apart hw =>
    have ho : Argument.ofText command "--file" = .option (some .file) none := by
      cases command <;> rfl
    exact ⟨_, arguments_apart hs (by simp) ho hw [], take_file hf⟩

end

-- A draft of options without a source, none of which waits for its value.
structure Ready (bindings : List (String × Float)) (noPrompt : Bool) (draft : Draft) : Prop where
  expression_eq : draft.expression = none
  settle_eq : draft.settle = .ok (ofOptions bindings noPrompt)
  not_due : ∀ switch, draft.pending ≠ some (switch, none)

-- Bindings one after the other. Each one is settled by the option behind it, and the last one is
-- left to be settled.
theorem Ready.exists_bindings {entries : List (String × String)} {number : String → Float}
    (h : draft.Ready bindings noPrompt)
    (he : ∀ entry ∈ entries, let text := entry.1 ++ "=" ++ entry.2
      Argument.ofText .eval text = .word text ∧
        CommandLine.binding text = .ok (entry.1, number entry.2)) (rest : List String) :
    ∃ next : Draft, draft.arguments .eval
        (entries.flatMap (fun entry => ["-D", entry.1 ++ "=" ++ entry.2]) ++ rest) =
          next.arguments .eval rest ∧
      next.Ready (bindings ++ entries.map fun entry => (entry.1, number entry.2)) noPrompt := by
  induction entries generalizing draft bindings
  case nil =>
    rw [List.map_nil, List.append_nil]
    exact ⟨draft, rfl, h⟩
  case cons entry entries hi =>
    have ⟨⟨hw, hb⟩, ht⟩ := List.forall_mem_cons.mp he
    let pending : Draft := { ofOptions bindings noPrompt with
      pending := some (.binding, some (entry.1 ++ "=" ++ entry.2)) }
    have hs : pending.settle =
        .ok (ofOptions (bindings ++ [(entry.1, number entry.2)]) noPrompt) := by
      simp only [pending, settle, take, hb, ofOptions]
    have hp : pending.Ready (bindings ++ [(entry.1, number entry.2)]) noPrompt :=
      ⟨rfl, hs, by simp [pending]⟩
    have ⟨next, ha, hn⟩ := hi hp ht
    refine ⟨next, ?_, ?_⟩
    · rw [← ha]
      exact arguments_apart h.settle_eq (by simp) rfl hw _
    · rwa [List.append_assoc] at hn

end Draft

variable {name : String} {command : Command} {options : List String}
variable {bindings : List (String × Float)} {prompts : Bool}

theorem read_of_arguments {draft settled : Draft} {origin : Origin}
    (hc : command? name = some command) (ha : Draft.empty.arguments command options = .ok draft)
    (hs : draft.settle = .ok settled) (ho : settled.origin = .ok origin) :
    read (name :: options) = .ok ⟨command, origin, settled.bindings, !settled.noPrompt⟩ := by
  simp only [read, hc, ha, bind, Except.bind, hs, ho]
  rfl

-- Options without a source.
theorem exists_draft_of_read
    (h : read (name :: options) = .ok ⟨command, .input, bindings, prompts⟩) :
    command? name = some command ∧
      ∃ draft, Draft.empty.arguments command options = .ok draft ∧ draft.expression = none ∧
        draft.settle = .ok (.ofOptions bindings (!prompts)) := by
  cases hc : command? name
  case none => simp [read, hc] at h
  case some found =>
    cases ha : Draft.empty.arguments found options
    case error => simp [read, hc, ha, bind, Except.bind] at h
    case ok draft =>
      cases hs : draft.settle
      case error => simp [read, hc, ha, bind, Except.bind, hs] at h
      case ok settled =>
        cases ho : settled.origin
        case error => simp [read, hc, ha, bind, Except.bind, hs, ho] at h
        case ok origin =>
          rw [read_of_arguments hc ha hs ho] at h
          cases h
          have ⟨hp, he⟩ := Draft.settle_eq_ok hs
          have ⟨hn, hf⟩ := Draft.origin_eq_input ho
          refine ⟨rfl, draft, ha, he ▸ hn, ?_⟩
          obtain ⟨expression, file, bindings, noPrompt, pending⟩ := settled
          cases hn
          cases hf
          cases hp
          rw [Bool.not_not]
          exact hs

section

variable (h : read (name :: options) = .ok ⟨command, .input, bindings, prompts⟩)
variable (he : "--" ∉ options)
include h he

theorem read_expression (text : String) :
    read (name :: (options ++ ["--", text])) =
      .ok ⟨command, .expression text, bindings, prompts⟩ := by
  have ⟨hc, draft, ha, hn, hs⟩ := exists_draft_of_read h
  let given : Draft := { Draft.ofOptions bindings (!prompts) with expression := some text }
  have hg : Draft.empty.arguments command (options ++ ["--", text]) = .ok given := by
    have hw : [text].foldlM Draft.word draft = draft.word text >>= pure := rfl
    rw [Draft.arguments_append he, ha]
    exact hw.trans (by rw [Draft.word_of_settle hn hs]; rfl)
  have hs : given.settle = .ok given := rfl
  exact (read_of_arguments hc hg hs rfl).trans (by simp [given, Draft.ofOptions])

theorem read_file {file : String} {given : List String} (hg : NamesFile command file given)
    (hf : file ≠ "") :
    read (name :: (options ++ given)) = .ok ⟨command, .file file, bindings, prompts⟩ := by
  have ⟨hc, draft, ha, hn, hs⟩ := exists_draft_of_read h
  have ⟨next, hd, hs⟩ := Draft.exists_arguments_file hs hg hf
  have hg : Draft.empty.arguments command (options ++ given) = .ok next := by
    rw [Draft.arguments_append he, ha]
    exact hd
  exact (read_of_arguments hc hg hs rfl).trans (by simp [Draft.ofOptions])

end

theorem read_bindings {entries : List (String × String)} (number : String → Float) {text : String}
    (he : ∀ entry ∈ entries, let text := entry.1 ++ "=" ++ entry.2
      Argument.ofText .eval text = .word text ∧ binding text = .ok (entry.1, number entry.2))
    (ht : Argument.ofText .eval text = .word text) :
    read ("eval" :: (entries.flatMap (fun entry => ["-D", entry.1 ++ "=" ++ entry.2]) ++ [text])) =
      .ok ⟨.eval, .expression text, entries.map fun entry => (entry.1, number entry.2), true⟩ := by
  have hr : Draft.empty.Ready [] false := ⟨rfl, rfl, by simp [Draft.empty]⟩
  have ⟨next, ha, hn⟩ := hr.exists_bindings he [text]
  rw [Draft.arguments_of_ne_escape ht (by simp), Draft.argument_word hn.not_due,
    Draft.word_of_settle hn.expression_eq hn.settle_eq] at ha
  exact read_of_arguments rfl ha rfl rfl

end CommandLine

end Reckoner
