import Reckoner.Proofs.Listing
import Reckoner.Proofs.Program.Outcome

/-!
The commands on one source. Each of them goes a stage further than the one before and stops where
that one stopped. The tokens are listed while the text is cut, but a tree is only looked for when
there are tokens up to the end, and a value only when there is a tree.
-/

namespace Reckoner

open Lexer

-- What is written before a source is read.
def Origin.prelude : Origin → List String
  | input => ["Enter expression:"]
  | expression _ | file _ => []

-- The output consists of these lines.
structure Prints (output : String) (lines : List String) : Prop where
  output_eq : output = String.join (lines.map (· ++ "\n"))
  not_mem : ∀ line ∈ lines, '\n' ∉ line.toList

theorem Prints.append {output more : String} {lines others : List String}
    (h : Prints output lines) (hm : Prints more others) :
    Prints (output ++ more) (lines ++ others) where
  output_eq := by rw [h.output_eq, hm.output_eq, List.map_append, String.join_append]
  not_mem := List.forall_mem_append.mpr ⟨h.not_mem, hm.not_mem⟩

theorem Lexer.not_mem_literal {text : String} {token : Token}
    (h : .ok token ∈ (ofText text).items) : '\n' ∉ token.literal.toList := by
  cases covers_of_mem_items h
  case inl he =>
    cases he
    exact List.not_mem_nil
  case inr hc =>
    have ⟨_, _, _, hc⟩ := hc
    have ⟨hl, hf⟩ := hc.fits
    rw [hl, String.toList_ofList]
    exact Token.Kind.not_mem_of_fits hf

namespace Program

theorem prints_listed (text : String) {tokens : List Token}
    (h : ∀ token ∈ tokens, .ok token ∈ (ofText text).items) :
    Prints (listed tokens) (tokens.map Token.listing) where
  output_eq := by rw [listed, List.map_map]; rfl
  not_mem line hm := by
    obtain ⟨token, ht, rfl⟩ := List.mem_map.mp hm
    exact Token.not_mem_listing (not_mem_literal (h token ht))

theorem prints_prelude {resources : Resources} {origin : Origin} {text : Source} {console : Console}
    (h : source resources origin = .ok (text, console)) :
    Prints console.output origin.prelude := by
  cases origin
  case expression =>
    cases h
    exact ⟨rfl, List.forall_mem_nil _⟩
  case file name =>
    simp only [source] at h
    split at h <;> cases h
    exact ⟨rfl, List.forall_mem_nil _⟩
  case input =>
    simp only [source] at h
    split at h <;> cases h
    exact ⟨rfl, List.forall_mem_singleton.mpr (by decide)⟩

theorem lastListing_not_mem {origin : Origin} {tokens : List Token}
    (h : ∀ token ∈ tokens, token.kind ≠ .eof) :
    Token.lastListing ∉ origin.prelude ++ tokens.map Token.listing := by
  intro hm
  cases List.mem_append.mp hm
  case inl hm =>
    cases origin
    case input => exact absurd hm (by decide)
    all_goals cases hm
  case inr hm =>
    obtain ⟨token, ht, he⟩ := List.mem_map.mp hm
    exact Token.listing_ne_lastListing (h token ht) he

-- The tokens before a fault are listed, or all of them, of which the last one is that of the end.
theorem tokenize_cases {origin : Origin} {output : String} (h : Prints output origin.prelude)
    (text : Source) :
    ((tokenize text output).status = 0 ∧ ∃ lines,
      Prints (tokenize text output).output (lines ++ [Token.lastListing]) ∧
        Token.lastListing ∉ lines) ∨
    ∃ (tokens : List Token) (fault : LexFault) (rest : List Item),
      (ofText text.text).items = tokens.map .ok ++ .error fault :: rest ∧
      tokenize text output = failure (.lex text fault) (output ++ listed tokens) ∧
      Prints (output ++ listed tokens) (origin.prelude ++ tokens.map Token.listing) ∧
      Token.lastListing ∉ origin.prelude ++ tokens.map Token.listing := by
  have ⟨inner, hi, hk, _⟩ := exists_items_before_blank text.text
  rcases exists_listings (ofText text.text).items with
    ⟨tokens, ht, hl⟩ | ⟨tokens, fault, rest, ht, hl⟩
  case inl =>
    obtain ⟨tokens, last, rfl, rfl, he⟩ := List.map_eq_append_iff.mp (ht.symm.trans hi)
    obtain ⟨token, rfl, he⟩ := List.map_eq_singleton_iff.mp he
    cases he
    have hf : tokenize text output =
        finish 0 (output ++ listed (tokens ++ [.ending text.text.utf8ByteSize])) := by
      simp only [tokenize, hl]
      rfl
    have hm := h.append (prints_listed text.text fun token hm => ht ▸ List.mem_map_of_mem hm)
    rw [List.map_append, ← List.append_assoc] at hm
    rw [hf]
    exact .inl ⟨rfl, _, hm, lastListing_not_mem fun token hm => hk token (List.mem_map_of_mem hm)⟩
  case inr =>
    have hd := congrArg List.dropLast hi
    rw [List.dropLast_concat, ht, List.dropLast_append_cons] at hd
    have hm (token : Token) (hm : token ∈ tokens) :
        .ok token ∈ tokens.map (@Except.ok LexFault _) :=
      List.mem_map_of_mem hm
    refine .inr ⟨tokens, fault, rest, ht, by simp only [tokenize, hl], ?_, ?_⟩
    · refine h.append (prints_listed text.text fun token ht' => ?_)
      exact ht ▸ List.mem_append_left _ (hm token ht')
    · refine lastListing_not_mem fun token ht' => hk token ?_
      exact hd ▸ List.mem_append_left _ (hm token ht')

section

variable {text : Source} {error : Error} {tree : Tree}

theorem tokenize_eq_error {tokens : List Token} {fault : LexFault} {rest : List Item}
    (h : (ofText text.text).items = tokens.map .ok ++ .error fault :: rest) :
    Reckoner.tokenize text.text = .error fault := by
  have ht : (tokens.map (@Except.ok LexFault Token)).mapM id = .ok tokens :=
    mapM_id_eq_ok_iff.mpr rfl
  rw [Reckoner.tokenize, h, List.mapM_append, ht]
  rfl

theorem output_failure (error : Error) (output : String) :
    (failure error output).output = output ∧ (failure error output).starved = false := by
  cases hl : error.line? <;> simp only [failure, hl, and_self]

theorem complaint_failure (error : Error) (output output' : String) :
    (failure error output).complaint = (failure error output').complaint := by
  cases hl : error.line? <;> simp only [failure, hl]

theorem status_failure_of_build {functions : Functions} (output : String)
    (h : (build functions text).result = .error error) : (failure error output).status = 65 := by
  cases error
  case eval fault => exact absurd h (build_ne_eval functions text fault)
  all_goals rfl

theorem parse_of_build_error (output : String) (h : (build .builtin text).result = .error error) :
    parse text output = failure error output := by
  simp only [parse, h]

-- Without a tree nothing is asked for and nothing is read.
theorem eval_of_build_error (bindings : List (String × Float)) (prompts : Bool) (console : Console)
    (h : (build .builtin text).result = .error error) :
    eval bindings prompts text console = failure error console.output ∧
      ((environment bindings).calculate .prompt text console).resolver = console := by
  have he : ∀ event ∈ (build .builtin text).events, event.closes = false :=
    fun event hm => (Event.ofReading_build .builtin text event hm).closes_eq_false
  rw [← functions_environment bindings] at h he
  have hp : (environment bindings).calculate .prompt text console = _ :=
    Environment.calculate_of_build_error h
  have hn : (environment bindings).calculate .never text () = _ :=
    Environment.calculate_of_build_error h
  refine ⟨?_, by rw [hp]⟩
  cases prompts
  case false => rw [eval_never, hn, conclude]
  case true =>
    rw [eval_prompt, hp, List.any_eq_false.mpr (by simpa using he)]
    cases hl : error.line? <;> simp only [conclude, failure, hl]

theorem status_parse_of_build (output : String) (h : (build .builtin text).result = .ok tree) :
    (parse text output).status = 0 := by
  simp only [parse, h, finish]

theorem status_eval_of_build (bindings : List (String × Float)) (prompts : Bool) (console : Console)
    (h : (build .builtin text).result = .ok tree) :
    (eval bindings prompts text console).status = 0 ∨
      (eval bindings prompts text console).status = 70 := by
  have hs {result : Except Error Float} (output : String)
      (hr : ∀ error, result = .error error → ∃ fault, error = .eval fault) :
      (conclude result output).status = 0 ∨ (conclude result output).status = 70 := by
    cases result
    case ok => exact .inl rfl
    case error error =>
      obtain ⟨fault, rfl⟩ := hr error rfl
      exact .inr rfl
  rw [← functions_environment bindings] at h
  cases prompts
  case false =>
    rw [eval_never, Environment.calculate_of_build h]
    exact hs _ fun _ => Environment.exists_fault_of_evaluate
  case true =>
    rw [eval_prompt, Environment.calculate_of_build h]
    exact hs _ fun _ => Environment.exists_fault_of_evaluate

end

-- The commands for the tree and for the value.
theorem tree_cases (bindings : List (String × Float)) (prompts : Bool) (text : Source)
    (console : Console) :
    ((parse text console.output).status = 0 ∧
      ((eval bindings prompts text console).status = 0 ∨
        (eval bindings prompts text console).status = 70)) ∨
    ∃ error, (failure error console.output).status = 65 ∧
      parse text console.output = failure error console.output ∧
      eval bindings prompts text console = failure error console.output := by
  cases hb : (build .builtin text).result
  case ok =>
    exact .inl ⟨status_parse_of_build _ hb, status_eval_of_build bindings prompts console hb⟩
  case error error =>
    exact .inr ⟨error, status_failure_of_build _ hb, parse_of_build_error _ hb,
      (eval_of_build_error bindings prompts console hb).1⟩

-- What the outcomes of the commands for the tokens, the tree and the value of one text have to do
-- with each other. If the text has a fault, all of them end with it, after the tokens before it
-- were listed. If not, the token of the end is listed last and only there. The commands for the
-- tree and for the value fail together and with the same words, and then nothing was asked for.
-- With a tree only the evaluation can fail.
structure StagesAgree (prelude : List String) (text : String) (listing tree value : Outcome) :
    Prop where
  status_listing : listing.status = 0 ∨ listing.status = 65
  of_fault : listing.status = 65 →
    (tree.status = 65 ∧ tree.complaint = listing.complaint) ∧
    (value.status = 65 ∧ value.complaint = listing.complaint) ∧
    ∃ (tokens : List Token) (fault : LexFault) (rest : List Item),
      (ofText text).items = tokens.map .ok ++ .error fault :: rest ∧
      Prints listing.output (prelude ++ tokens.map Token.listing) ∧
      Token.lastListing ∉ prelude ++ tokens.map Token.listing
  of_tokens : listing.status = 0 → (tree.status = 0 ∨ tree.status = 65) ∧
    ∃ lines, Prints listing.output (lines ++ [Token.lastListing]) ∧ Token.lastListing ∉ lines
  status_value : value.status = 65 ↔ tree.status = 65
  of_no_tree : value.status = 65 →
    value.complaint = tree.complaint ∧ Prints value.output prelude ∧ value.starved = false
  of_tree : tree.status = 0 → value.status = 0 ∨ value.status = 70

theorem stagesAgree (bindings : List (String × Float)) (prompts : Bool) (text : Source)
    {console : Console} {origin : Origin} (h : Prints console.output origin.prelude) :
    StagesAgree origin.prelude text.text (tokenize text console.output)
      (parse text console.output) (eval bindings prompts text console) := by
  constructor
  case status_listing =>
    rcases tokenize_cases h text with ⟨hs, _⟩ | ⟨_, _, _, _, ht, _⟩
    case inl => exact .inl hs
    case inr => exact .inr (ht ▸ rfl)
  case of_fault =>
    intro hs
    rcases tokenize_cases h text with ⟨hz, _⟩ | ⟨tokens, fault, rest, hi, ht, hm⟩
    case inl => exact absurd (hz.symm.trans hs) (by decide)
    case inr =>
      have hb : (build .builtin text).result = .error (.lex text fault) :=
        result_build_of_fault (tokenize_eq_error hi)
      have hc := complaint_failure (.lex text fault) console.output
        (console.output ++ listed tokens)
      rw [ht, parse_of_build_error _ hb, (eval_of_build_error bindings prompts console hb).1]
      rw [(output_failure ..).1]
      exact ⟨⟨rfl, hc⟩, ⟨rfl, hc⟩, tokens, fault, rest, hi, hm⟩
  case of_tokens =>
    intro hs
    refine ⟨?parsed, ?listed⟩
    case parsed =>
      rcases tree_cases bindings prompts text console with ⟨hz, _⟩ | ⟨error, hf, ht, _⟩
      case inl => exact .inl hz
      case inr => exact .inr (ht ▸ hf)
    case listed =>
      rcases tokenize_cases h text with ⟨_, hl⟩ | ⟨_, _, _, _, ht, _⟩
      case inl => exact hl
      case inr =>
        rw [ht] at hs
        cases hs
  case status_value =>
    rcases tree_cases bindings prompts text console with ⟨hz, hv⟩ | ⟨error, _, ht, hv⟩
    case inl => constructor <;> intro hs <;> simp [hs] at hz hv
    case inr => rw [ht, hv]
  case of_no_tree =>
    intro hs
    rcases tree_cases bindings prompts text console with ⟨_, hv⟩ | ⟨error, _, ht, hv⟩
    case inl => simp [hs] at hv
    case inr =>
      have ⟨ho, hn⟩ := output_failure error console.output
      rw [ht, hv, ho]
      exact ⟨rfl, h, hn⟩
  case of_tree =>
    intro hs
    rcases tree_cases bindings prompts text console with ⟨_, hv⟩ | ⟨error, hf, ht, _⟩
    case inl => exact hv
    case inr =>
      rw [← ht, hs] at hf
      cases hf

-- The three commands agree on a source that can be read, whatever comes behind it. If there is no
-- tree, then nothing is read behind the source for the value, and what comes there makes no
-- difference.
theorem outcomes_of_stages {tokenizing parsing evaluating : List String} {origin : Origin}
    {bindings : List (String × Float)} {prompts : Bool} {resources : Resources} {text : Source}
    {console : Console}
    (ht : CommandLine.read tokenizing = .ok ⟨.tokenize, origin, [], true⟩)
    (hp : CommandLine.read parsing = .ok ⟨.parse, origin, [], true⟩)
    (he : CommandLine.read evaluating = .ok ⟨.eval, origin, bindings, prompts⟩)
    (hs : source resources origin = .ok (text, console)) :
    StagesAgree origin.prelude text.text (run tokenizing resources) (run parsing resources)
      (run evaluating resources) ∧
    ((run parsing resources).status = 65 →
      ((environment bindings).calculate .prompt text console).resolver = console ∧
      ∀ other console', source other origin = .ok (text, console') →
        run evaluating other = run evaluating resources) := by
  have hpre := prints_prelude hs
  have hv (other : Resources) (console' : Console)
      (h : source other origin = .ok (text, console')) := run_eval h he
  rw [run_tokenize hs ht, run_parse hs hp, hv resources console hs]
  refine ⟨stagesAgree bindings prompts text hpre, fun hst => ?_⟩
  cases hb : (build .builtin text).result
  case ok => simp [status_parse_of_build _ hb] at hst
  case error error =>
    have hf (console : Console) := eval_of_build_error bindings prompts console hb
    refine ⟨(hf console).2, fun other console' h => ?_⟩
    rw [hv other console' h, (hf console').1, (hf console).1, (prints_prelude h).output_eq,
      hpre.output_eq]

-- A fault of the text behind one of the order of the tokens.
theorem outcomes_of_stray_behind_operators :
    let resources : Resources := ⟨fun _ => none, encodeText "1 + * $\n2\n"⟩
    StagesAgree ["Enter expression:"] "1 + * $\n" (run ["tokenize"] resources)
      (run ["parse"] resources) (run ["eval", "--var", "x=2"] resources) := by
  intro resources
  have hs : source resources .input =
      .ok (⟨none, "1 + * $" ++ "\n"⟩, ⟨[50, 10], heading, [], none⟩) :=
    source_line (by decide) rfl
  have he : CommandLine.read ["eval", "--var", "x=2"] = .ok ⟨.eval, .input, [("x", 2)], true⟩ := rfl
  exact (outcomes_of_stages rfl rfl he hs).1

end Program

end Reckoner
