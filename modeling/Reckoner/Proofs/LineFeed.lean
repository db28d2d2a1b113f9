import Reckoner.Proofs.Calculation
import Reckoner.Proofs.Lexer.Separation
import Reckoner.Proofs.Parser.Ending

/-!
Texts of one line, and the same texts with the line feed behind them. They have the same tree, or
they have errors with the same words. Both errors are on the first line, unless they are at the end
of the text: behind the line feed this is the second line.
-/

namespace Reckoner

namespace Source

theorem before?_byteSize (before after : List Char) :
    before? (Reckoner.byteSize before) (before ++ after) = some before := by
  induction before
  case nil => exact before?.eq_1 _
  case cons c before hi =>
    have hp := c.utf8Size_pos
    have hs := byteSize_cons c before
    cases hn : Reckoner.byteSize (c :: before)
    case zero => omega
    case succ n =>
      have hr : n + 1 - c.utf8Size = Reckoner.byteSize before := by omega
      rw [List.cons_append, before?, if_pos (by omega), hr, hi, Option.map_some]

theorem lineAt_byteSize (name : Option String) {text : String} {before after : List Char}
    (h : text.toList = before ++ after) :
    Source.lineAt ⟨name, text⟩ (Reckoner.byteSize before) = before.count '\n' + 1 := by
  simp only [lineAt, h, before?_byteSize, Option.getD_some]

-- A character of the text begins at the offset.
def Within (text : String) (offset : Nat) : Prop :=
  ∃ before after, text.toList = before ++ after ∧ after ≠ [] ∧ offset = Reckoner.byteSize before

variable {text : String} {offset : Nat}

theorem Within.lt (h : Within text offset) : offset < text.utf8ByteSize := by
  obtain ⟨before, after, ht, hn, rfl⟩ := h
  have := byteSize_pos hn
  rw [← byteSize_toList, ht, byteSize_append]
  omega

theorem Within.lineAt (h : Within text offset) (hl : '\n' ∉ text.toList) (name : Option String)
    (more : String) : Source.lineAt ⟨name, text ++ more⟩ offset = 1 := by
  obtain ⟨before, after, ht, _, rfl⟩ := h
  have hs : (text ++ more).toList = before ++ (after ++ more.toList) := by
    rw [String.toList_append, ht, List.append_assoc]
  rw [lineAt_byteSize name hs, List.count_eq_zero_of_not_mem]
  exact fun hm => hl (ht ▸ List.mem_append_left _ hm)

theorem isPrefix_of_before? {text before : List Char} {n : Nat}
    (h : before? n text = some before) : before <+: text := by
  induction text generalizing n before
  case nil =>
    cases n <;> cases h
    exact List.prefix_rfl
  case cons c text hi =>
    cases n
    case zero =>
      cases h
      exact List.nil_prefix
    case succ n =>
      rw [before?] at h
      split at h
      case isTrue =>
        obtain ⟨rest, hr, rfl⟩ := Option.map_eq_some_iff.mp h
        exact (List.prefix_cons_inj c).mpr (hi hr)
      case isFalse => cases h

theorem lineAt_eq_one (hl : '\n' ∉ text.toList) (name : Option String) (offset : Nat) :
    Source.lineAt ⟨name, text⟩ offset = 1 := by
  have hp : (before? offset text.toList).getD text.toList <+: text.toList := by
    cases hb : before? offset text.toList
    case none => exact List.prefix_rfl
    case some before => exact isPrefix_of_before? hb
  rw [lineAt, List.count_eq_zero_of_not_mem]
  exact fun hm => hl (hp.mem hm)

theorem lineAt_end_line_feed (hl : '\n' ∉ text.toList) (name : Option String) :
    Source.lineAt ⟨name, text ++ "\n"⟩ (text ++ "\n").utf8ByteSize = 2 := by
  have hs : (text ++ "\n").toList = (text ++ "\n").toList ++ [] := (List.append_nil _).symm
  rw [← byteSize_toList, lineAt_byteSize name hs, String.toList_append, List.count_append,
    List.count_eq_zero_of_not_mem hl]
  rfl

end Source

open Source Lexer Text

theorem mem_of_mapM_id_eq_error {ε α : Type} {items : List (Except ε α)} {error : ε}
    (h : items.mapM id = .error error) : .error error ∈ items := by
  induction items
  case nil => cases h
  case cons item items hi =>
    rw [List.mapM_cons] at h
    cases item
    case error =>
      cases h
      exact List.mem_cons_self
    case ok value =>
      cases hm : items.mapM id <;> rw [hm] at h <;> cases h
      exact List.mem_cons_of_mem _ (hi hm)

theorem mapM_id_append_singleton {ε α : Type} (items : List (Except ε α)) (value : α) :
    (items ++ [Except.ok value]).mapM id = (items.mapM id).map (· ++ [value]) := by
  rw [List.mapM_append]
  cases items.mapM id <;> rfl

theorem within_of_covers {text : String} {item : Item} {before piece after : List Char}
    (h : item.Covers text.toList before piece after) : Within text item.span.offset := by
  refine ⟨before, piece ++ after, ?_, ?_, ?_⟩
  · rw [h.split, List.append_assoc]
  · exact List.append_ne_nil_of_left_ne_nil h.ne_nil after
  · rw [h.span_eq]

-- The items of a text are the same with a line feed behind it, but for the end.
theorem exists_items_line_feed (text : String) :
    ∃ inner, (ofText text).items = inner ++ [.ok (.ending text.utf8ByteSize)] ∧
      (ofText (text ++ "\n")).items = inner ++ [.ok (.ending (text ++ "\n").utf8ByteSize)] ∧
      ∀ item ∈ inner, Within text item.span.offset := by
  obtain ⟨inner, hi, hk, ha⟩ := exists_items_before_blank text
  refine ⟨inner, hi, ?_, fun item hm => ?_⟩
  · have hb : Blank ['\n'] := by simp [Blank]; decide
    have ha := ha ['\n'] [] hb (List.cons_ne_nil _ _)
    rw [items_end] at ha
    rw [← byteSize_toList, ofText, String.toList_append]
    exact ha
  · cases covers_of_mem_items (hi ▸ List.mem_append_left _ hm)
    case inl he => exact absurd rfl (hk _ (he ▸ hm))
    case inr hc =>
      obtain ⟨_, _, _, hc⟩ := hc
      exact within_of_covers hc

theorem exists_tokens_line_feed (text : String) :
    ∃ result : Except LexFault (List Token),
      tokenize text = result.map (· ++ [.ending text.utf8ByteSize]) ∧
      tokenize (text ++ "\n") = result.map (· ++ [.ending (text ++ "\n").utf8ByteSize]) ∧
      (∀ fault, result = .error fault → Within text fault.place.offset) ∧
      ∀ tokens, result = .ok tokens → ∀ token ∈ tokens, Within text token.offset := by
  have ⟨inner, hi, hl, hw⟩ := exists_items_line_feed text
  refine ⟨inner.mapM id, ?_, ?_, fun fault hf => ?_, fun tokens ht token hm => ?_⟩
  · rw [tokenize, hi, mapM_id_append_singleton]
  · rw [tokenize, hl, mapM_id_append_singleton]
  · exact hw _ (mem_of_mapM_id_eq_error hf)
  · rw [mapM_id_eq_ok_iff] at ht
    exact hw (.ok token) (ht ▸ List.mem_map_of_mem hm)

-- What is told about an error: its line, if it has a place, and the words.
def Error.told (error : Error) : Option Nat × String :=
  (error.line?, error.message)

theorem Error.told_lex (source : Source) (fault : LexFault) :
    told (.lex source fault) = (some (source.lineAt fault.place.offset), fault.report.message) :=
  rfl

-- The tree of a source, or what is told about its error.
def toldTree (functions : Functions) (source : Source) : Except (Option Nat × String) Tree :=
  (build functions source).result.mapError Error.told

-- The tokens of the text have a fault where it ends.
def EndsEarly (functions : Functions) (text : String) : Prop :=
  ∃ fault, (build functions ⟨none, text⟩).result = .error (.parse ⟨none, text⟩ fault) ∧
    fault.place.offset = text.utf8ByteSize

section

variable (functions : Functions) (name : Option String) {text : String}

theorem toldTree_of_fault {fault : LexFault} (h : tokenize text = .error fault) :
    toldTree functions ⟨name, text⟩ =
      .error (some (Source.lineAt ⟨name, text⟩ fault.place.offset), fault.report.message) := by
  have hb : (build functions ⟨name, text⟩).result = .error (.lex ⟨name, text⟩ fault) :=
    result_build_of_fault h
  rw [toldTree, hb]
  rfl

theorem toldTree_of_tokens {tokens : List Token} (h : tokenize text = .ok tokens) :
    toldTree functions ⟨name, text⟩ =
      ((Parser.ofTokens functions ⟨name, text⟩ tokens).parse).1.mapError fun fault =>
        (some (Source.lineAt ⟨name, text⟩ fault.place.offset), fault.report.message) := by
  have hb : (build functions ⟨name, text⟩).result = _ := result_build_of_tokens h
  rw [toldTree, hb]
  cases ((Parser.ofTokens functions ⟨name, text⟩ tokens).parse).1 <;> rfl

theorem endsEarly_iff_of_tokens {tokens : List Token} (ht : tokenize text = .ok tokens) :
    EndsEarly functions text ↔
      ∃ fault, ((Parser.ofTokens functions ⟨none, text⟩ tokens).parse).1 = .error fault ∧
        fault.place.offset = text.utf8ByteSize := by
  rw [EndsEarly, result_build_of_tokens ht]
  cases ((Parser.ofTokens functions ⟨none, text⟩ tokens).parse).1 <;> simp [Except.mapError]

end

section

variable {text : String} (hl : '\n' ∉ text.toList)
include hl

-- What is told about a text and about the same text with a line feed behind it is the same, or it
-- is about the end of the text, which stands on the next line then.
theorem toldTree_line_feed (functions : Functions) :
    ∃ told, (∀ name, toldTree functions ⟨name, text⟩ = told) ∧
      ((¬EndsEarly functions text ∧ ∀ name, toldTree functions ⟨name, text ++ "\n"⟩ = told) ∨
      EndsEarly functions text ∧ ∃ message, told = .error (some 1, message) ∧
        ∀ name, toldTree functions ⟨name, text ++ "\n"⟩ = .error (some 2, message)) := by
  have ⟨result, ht, hlf, hf, hw⟩ := exists_tokens_line_feed text
  cases result
  case error fault =>
    have hi := hf fault rfl
    refine ⟨.error (some 1, fault.report.message), fun name => ?_, .inl ⟨?_, fun name => ?_⟩⟩
    · rw [toldTree_of_fault functions name ht, lineAt_eq_one hl]
    · intro ⟨_, hp, _⟩
      cases (result_build_of_fault ht).symm.trans hp
    · rw [toldTree_of_fault functions name hlf, hi.lineAt hl]
  case ok tokens =>
    have ⟨result, result', hr, hr', hc⟩ := Parser.exists_results_ending functions tokens
      text.utf8ByteSize (text ++ "\n").utf8ByteSize
    have he := endsEarly_iff_of_tokens functions ht
    have hg (name : Option String) := toldTree_of_tokens functions name ht
    have hn (name : Option String) := toldTree_of_tokens functions name hlf
    simp only [hr] at he hg
    simp only [hr'] at hn
    cases result
    case ok tree =>
      have hr : result' = .ok tree := hc.elim And.left And.left
      refine ⟨.ok tree, hg, .inl ⟨?_, fun name => ?_⟩⟩
      · simp [he]
      · rw [hn, hr]
        rfl
    case error fault =>
      simp only [Except.mapError] at hg
      simp only [Except.error.injEq, exists_eq_left'] at he
      have hg (name : Option String) :
          toldTree functions ⟨name, text⟩ = .error (some 1, fault.report.message) := by
        rw [hg, lineAt_eq_one hl]
      refine ⟨_, hg, ?_⟩
      cases hc
      case inl hc =>
        have ⟨hr, ho⟩ := hc
        have ⟨token, hm, ho⟩ := ho fault rfl
        have hi : Within text fault.place.offset := ho ▸ hw tokens rfl token hm
        refine .inl ⟨fun h => hi.lt.ne (he.mp h), fun name => ?_⟩
        rw [hn, hr]
        simp only [Except.mapError, hi.lineAt hl]
      case inr hc =>
        have ⟨hr, ho⟩ := hc
        refine .inr ⟨he.mpr (ho fault rfl), _, rfl, fun name => ?_⟩
        rw [hn, hr]
        simp only [Except.mapError, ParseFault.offset_place_foundAt, ParseFault.message_foundAt,
          lineAt_end_line_feed hl]

end

end Reckoner
