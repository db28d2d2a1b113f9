import Reckoner.Proofs.LineFeed
import Reckoner.Proofs.Lexer.Numbers
import Reckoner.Proofs.Parser.Diagnosis
import Reckoner.Proofs.Parser.Online

/-!
The places that the errors of a text point to. The first one lies over the character or the token
that the error is about, and a second one over a parenthesis before it. They are whole characters of
the text, so the line of an error can always be counted.
-/

namespace Reckoner

open Lexer

-- The span lies over the piece in the text.
def Span.LiesOver (span : Span) (text : String) (piece : List Char) : Prop :=
  ∃ before after, text.toList = before ++ piece ++ after ∧
    span = ⟨byteSize before, byteSize piece⟩

theorem Lexer.Item.Covers.liesOver {text : String} {before piece after : List Char} {item : Item}
    (h : item.Covers text.toList before piece after) : item.span.LiesOver text piece :=
  ⟨before, after, h.split, h.span_eq⟩

-- The line of an offset at which a piece of the text begins is one more than the line feeds before.
theorem Span.LiesOver.lineAt {span : Span} {text : String} {piece : List Char}
    (h : span.LiesOver text piece) (name : Option String) :
    ∃ before, Source.before? span.offset text.toList = some before ∧
      Source.lineAt ⟨name, text⟩ span.offset = 1 + before.count '\n' := by
  obtain ⟨before, after, ht, rfl⟩ := h
  rw [List.append_assoc] at ht
  refine ⟨before, ?_, ?_⟩
  · rw [ht]
    exact Source.before?_byteSize before _
  · rw [Source.lineAt_byteSize name ht, Nat.add_comm]

section

variable {text : String} {tokens : List Token} {token : Token}

-- A token lies over its literal. Only that of the end has none, and only it stands at the end.
structure Token.LiesIn (text : String) (token : Token) : Prop where
  liesOver : token.span.LiesOver text token.literal.toList
  length_eq_zero_iff : token.span.length = 0 ↔ token.kind = .eof
  offset_eq_iff : token.span.offset = text.utf8ByteSize ↔ token.kind = .eof

theorem liesIn_ending (text : String) : (Token.ending text.utf8ByteSize).LiesIn text where
  liesOver := ⟨text.toList, [], by simp [Token.ending], by
    simp [Token.ending, Token.span, byteSize_toList]⟩
  length_eq_zero_iff := iff_of_true rfl rfl
  offset_eq_iff := iff_of_true rfl rfl

theorem Lexer.Item.Covers.liesIn {before piece after : List Char}
    (h : Covers text.toList before piece after (.ok token)) : token.LiesIn text := by
  have hl : token.literal.toList = piece := by rw [h.fits.1, String.toList_ofList]
  have hs : token.span = ⟨byteSize before, byteSize piece⟩ := h.span_eq
  have hk : token.kind ≠ .eof := Token.Kind.ne_eof_of_fits h.fits.2
  have hp := byteSize_pos h.ne_nil
  have ht := congrArg byteSize h.split
  rw [byteSize_toList, byteSize_append, byteSize_append] at ht
  refine ⟨hl ▸ h.liesOver, iff_of_false ?_ hk, iff_of_false ?_ hk⟩ <;> rw [hs] <;> simp only <;>
    omega

theorem liesIn_of_tokenize (ht : tokenize text = .ok tokens) (hm : token ∈ tokens) :
    token.LiesIn text := by
  cases covers_of_mem_items (mem_items_of_tokenize ht hm)
  case inl he =>
    cases he
    exact liesIn_ending text
  case inr hc =>
    have ⟨_, _, _, hc⟩ := hc
    exact hc.liesIn

theorem literal_of_leftParen (ht : tokenize text = .ok tokens) (hm : token ∈ tokens)
    (hk : token.kind = .leftParen) : token.literal.toList = ['('] := by
  have ⟨_, _, hf⟩ := fits_of_mem_items (mem_items_of_tokenize ht hm) (by simp [hk])
  rw [hk] at hf
  obtain ⟨c, hs, hl⟩ := hf
  cases hs
  exact hl

theorem pairwise_of_tokenize (ht : tokenize text = .ok tokens) :
    tokens.Pairwise (·.span.stop ≤ ·.span.offset) := by
  have hp := (tiled_items (ofText text) rfl rfl (seam_nil _)).pairwise
  rwa [tokenize_eq_ok_iff.mp ht, List.pairwise_map] at hp

end

theorem ParseFault.ReportedAt.place_eq {token : Token} {fault : ParseFault} {text : String}
    (h : fault.ReportedAt token) (hl : token.LiesIn text) : fault.place = token.span := by
  cases fault
  case unexpectedEnd offset =>
    obtain ⟨rfl, hk⟩ := h
    exact congrArg (Span.mk token.offset) (hl.length_eq_zero_iff.mpr hk).symm
  all_goals exact h

-- The labels behind the first one are those of parentheses that the tokens before leave open.
theorem exists_openParen_of_label {functions : Functions} {before : List Token} {token : Token}
    {label : Label} (h : label ∈ (diagnosis functions before token).report.labels.tail) :
    ∃ opened ∈ OpenParen.ofTokens before, label.span = opened.paren.span := by
  unfold diagnosis at h
  split at h
  case isTrue => split at h <;> cases h
  case isFalse =>
    split at h
    case h_1 => cases h
    case h_2 => cases h
    case h_3 outer paren _ _ ho =>
      refine ⟨⟨outer, paren⟩, ho ▸ List.mem_cons_self, ?_⟩
      split at h <;> rw [List.mem_singleton.mp h]

-- An error of a text points to a place in it. All its labels lie in the text. The first one is the
-- place, and each further one is a parenthesis before it. The line is counted up to the place.
structure Error.PointsInto (source : Source) (place : Span) (error : Error) : Prop where
  place?_eq : error.place? = some (source, place)
  first : error.report.labels.head?.map (·.span) = some place
  inside : ∀ label ∈ error.report.labels, ∃ piece, label.span.LiesOver source.text piece
  opened : ∀ label ∈ error.report.labels.tail,
    label.span.LiesOver source.text ['('] ∧ label.span.stop ≤ place.offset
  line : ∃ before, Source.before? place.offset source.text.toList = some before ∧
    error.line? = some (1 + before.count '\n')

-- The first label of an error is its place.
theorem Error.exists_labels {error : Error} {source : Source} {place : Span}
    (h : error.place? = some (source, place)) :
    ∃ label labels, error.report.labels = label :: labels ∧ label.span = place := by
  cases error
  case lex fault =>
    cases h
    cases fault <;> exact ⟨_, _, rfl, rfl⟩
  case parse fault =>
    cases h
    cases fault <;> exact ⟨_, _, rfl, rfl⟩
  case eval => cases h

theorem Error.pointsInto {error : Error} {source : Source} {place : Span} {piece : List Char}
    (h : error.place? = some (source, place)) (hl : place.LiesOver source.text piece)
    (ho : ∀ label ∈ error.report.labels.tail,
      label.span.LiesOver source.text ['('] ∧ label.span.stop ≤ place.offset) :
    error.PointsInto source place := by
  have ⟨label, labels, hs, he⟩ := exists_labels h
  have ⟨before, hb, hn⟩ := hl.lineAt source.name
  refine ⟨h, by simp [hs, he], ?_, ho, before, hb, ?_⟩
  · rw [hs] at ho ⊢
    exact List.forall_mem_cons.mpr ⟨⟨piece, he ▸ hl⟩, fun label hm => ⟨_, (ho label hm).1⟩⟩
  · rw [line?, h]
    exact congrArg some hn

theorem stray_of_tokenize {text : String} {fault : LexFault} (h : tokenize text = .error fault) :
    ∃ c, fault = .strayCharacter fault.place c ∧ fault.place.LiesOver text [c] := by
  cases covers_of_mem_items (mem_of_mapM_id_eq_error h)
  case inl he => cases he
  case inr hc =>
    obtain ⟨before, piece, after, hc⟩ := hc
    obtain ⟨c, hf, rfl, _⟩ := LexFault.Fits.eq_strayCharacter hc.fits
    exact ⟨c, hf, hc.liesOver⟩

-- The token that decides is the place of the fault, and what the fault points to besides is before.
theorem exists_token_of_parse {functions : Functions} (source : Source) {tokens : List Token}
    {fault : ParseFault} (ht : tokenize source.text = .ok tokens)
    (hf : ((Parser.ofTokens functions source tokens).parse).1 = .error fault) :
    ∃ token, tokens[(Parser.ofTokens functions source tokens).decision]? = some token ∧
      token.LiesIn source.text ∧ fault.place = token.span ∧
      ∀ label ∈ fault.report.labels.tail,
        label.span.LiesOver source.text ['('] ∧ label.span.stop ≤ token.span.offset := by
  obtain ⟨before, token, rest, state, result, rfl, ha, hv⟩ :=
    Parser.exists_verdict_of_tokenize functions ht
  rw [Parser.parse_of_verdict? ha hv] at hf
  subst hf
  have hl : token.LiesIn source.text := liesIn_of_tokenize ht (by simp)
  have hd := (Parser.State.follows_start.after? ha).eq_diagnosis hv
  have hr := Parser.State.reportedAt_of_verdict? hv
  refine ⟨token, ?_, hl, hr.place_eq hl, fun label hm => ?_⟩
  · rw [Parser.decision_of_verdict? ha hv, List.getElem?_append_right (Nat.le_refl _),
      Nat.sub_self, List.getElem?_cons_zero]
  · rw [hd] at hm
    have ⟨opened, ho, hs⟩ := exists_openParen_of_label hm
    have ⟨hk, inner, hb⟩ := OpenParen.exists_eq_append ho
    have hp : opened.paren ∈ [] ++ before := by simp [hb]
    have hm : opened.paren ∈ before ++ token :: rest := List.mem_append_left _ hp
    rw [hs]
    constructor
    case left => exact literal_of_leftParen ht hm hk ▸ (liesIn_of_tokenize ht hm).liesOver
    case right =>
      exact (List.pairwise_append.mp (pairwise_of_tokenize ht)).2.2 _ hp _ List.mem_cons_self

-- An error of a text points into the text that was given, under the name that was given. Its place
-- is that of a character that no token starts with, or of the token that decides, which is empty
-- and at the end exactly if it is that of the end.
theorem labels_of_build_error (functions : Functions) (name : Option String) (text : String)
    {error : Error} (h : (build functions ⟨name, text⟩).result = .error error) :
    ∃ place, error.PointsInto ⟨name, text⟩ place ∧
      Source.title ⟨name, text⟩ = name.getD "<input>" ∧
      ((∃ c, error = .lex ⟨name, text⟩ (.strayCharacter place c) ∧ place.LiesOver text [c]) ∨
      ∃ tokens token fault, tokenize text = .ok tokens ∧ error = .parse ⟨name, text⟩ fault ∧
        tokens[(Parser.ofTokens functions ⟨name, text⟩ tokens).decision]? = some token ∧
        place = token.span ∧ place.LiesOver text token.literal.toList ∧
        (place.length = 0 ↔ token.kind = .eof) ∧
        (place.offset = text.utf8ByteSize ↔ token.kind = .eof)) := by
  cases ht : tokenize text
  case error fault =>
    have hb : (build functions ⟨name, text⟩).result = _ := result_build_of_fault ht
    cases h.symm.trans hb
    obtain ⟨c, hf, hl⟩ := stray_of_tokenize ht
    have hn : (Error.lex ⟨name, text⟩ fault).report.labels.tail = [] := by
      rw [hf]
      rfl
    exact ⟨fault.place, Error.pointsInto rfl hl (by simp [hn]), rfl, .inl ⟨c, by rw [← hf], hl⟩⟩
  case ok tokens =>
    have hb : (build functions ⟨name, text⟩).result = _ := result_build_of_tokens ht
    rw [hb] at h
    cases hp : ((Parser.ofTokens functions ⟨name, text⟩ tokens).parse).1 <;> rw [hp] at h <;>
      cases h
    case error fault =>
      have ⟨token, hd, hl, he, ho⟩ := exists_token_of_parse ⟨name, text⟩ ht hp
      rw [← he] at ho
      have ⟨hover, hlength, hoffset⟩ := hl
      rw [← he] at hover hlength hoffset
      exact ⟨fault.place, Error.pointsInto rfl hover ho, rfl,
        .inr ⟨tokens, token, fault, rfl, rfl, hd, he, hover, hlength, hoffset⟩⟩

-- The parenthesis and the token stand behind letters of two bytes and on different lines.
set_option maxRecDepth 4000 in
theorem labels_of_unclosed_call_on_next_line :
    let text := "é+sin(é\n+é x"
    let error : Error := .parse ⟨none, text⟩ (.unclosedCall ⟨14, 1⟩ ⟨6, 1⟩)
    (build .builtin ⟨none, text⟩).result = .error error ∧
    ∃ place, error.PointsInto ⟨none, text⟩ place ∧
      Source.title ⟨none, text⟩ = Option.getD none "<input>" ∧
      ((∃ c, error = .lex ⟨none, text⟩ (.strayCharacter place c) ∧ place.LiesOver text [c]) ∨
      ∃ tokens token fault, tokenize text = .ok tokens ∧ error = .parse ⟨none, text⟩ fault ∧
        tokens[(Parser.ofTokens .builtin ⟨none, text⟩ tokens).decision]? = some token ∧
        place = token.span ∧ place.LiesOver text token.literal.toList ∧
        (place.length = 0 ↔ token.kind = .eof) ∧
        (place.offset = text.utf8ByteSize ↔ token.kind = .eof)) := by
  intro text error
  have h : (build .builtin ⟨none, text⟩).result = .error error := by cbv
  exact ⟨h, labels_of_build_error .builtin none text h⟩

end Reckoner
