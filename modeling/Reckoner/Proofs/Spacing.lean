import Reckoner.Proofs.Composition
import Reckoner.Proofs.Lexer.Tiling
import Reckoner.Proofs.Parser.Places

/-!
White space between tokens has no meaning. Texts whose tokens are of the same kinds and have the
same literals differ in nothing but white space. They have the same tree, or they have the same
fault, which points to tokens with the same indices.
-/

namespace Reckoner

open Text Lexer

namespace Token

-- What a token is, wherever it stands.
def lexeme (token : Token) : Kind × String :=
  (token.kind, token.literal)

-- The places of two tokens with the same index.
def SameIndex (tokens tokens' : List Token) (place place' : Span) : Prop :=
  ∃ (i : Nat) (token token' : Token), tokens[i]? = some token ∧ tokens'[i]? = some token' ∧
    place = token.span ∧ place' = token'.span

end Token

section

variable {text : String} {tokens tokens' : List Token}

-- The end of a text is the empty piece.
theorem literal_of_eof (h : tokenize text = .ok tokens) :
    ∀ token ∈ tokens, token.kind = .eof → token.literal = "" := by
  intro token hm hk
  cases covers_of_mem_items (mem_items_of_tokenize h hm)
  case inl he =>
    cases he
    rfl
  case inr hc =>
    have ⟨_, _, _, hc⟩ := hc
    exact absurd hk (Token.Kind.ne_eof_of_fits hc.fits.2)

theorem span_of_eof (h : tokenize text = .ok tokens) {token : Token} (hm : token ∈ tokens)
    (hk : token.kind = .eof) : token.span = ⟨token.offset, 0⟩ := by
  rw [Token.span, literal_of_eof h token hm hk]
  rfl

theorem alike_of_lexemes (h : tokenize text = .ok tokens) {text' : String}
    (h' : tokenize text' = .ok tokens')
    (hl : tokens.map Token.lexeme = tokens'.map Token.lexeme) :
    List.Forall₂ (Token.Alike (Token.SameIndex tokens tokens')) tokens tokens' := by
  rw [List.forall₂_iff_get]
  refine ⟨by simpa using congrArg List.length hl, fun i hi hi' => ?_⟩
  have he := congrArg (·[i]?) hl
  simp only [List.getElem?_map, List.getElem?_eq_getElem hi, List.getElem?_eq_getElem hi',
    Option.map_some, Option.some.injEq, Token.lexeme, Prod.mk.injEq] at he
  have hs : Token.SameIndex tokens tokens' tokens[i].span tokens'[i].span :=
    ⟨i, _, _, List.getElem?_eq_getElem hi, List.getElem?_eq_getElem hi', rfl, rfl⟩
  refine ⟨he.1, he.2, hs, fun hk => ?_⟩
  have hk' := he.1.symm.trans hk
  simp only [List.get_eq_getElem] at hk ⊢
  rwa [← span_of_eof h (List.getElem_mem hi) hk, ← span_of_eof h' (List.getElem_mem hi') hk']

end

-- No token has white space in it.
theorem Token.Kind.Fits.not_isWhiteSpace {before piece after : List Char} {kind : Token.Kind}
    (h : kind.Fits before piece after) : ∀ c ∈ piece, isWhiteSpace c = false := by
  intro c hc
  rw [Bool.eq_false_iff]
  intro hw
  cases kind
  case number =>
    cases h.1.isDigit_or_eq_point hc
    case inl hd =>
      rw [isDigit_eq_false_of_isWhiteSpace hw] at hd
      cases hd
    case inr he =>
      subst he
      exact absurd hw (by decide)
  case identifier =>
    have ha := h.all c hc
    rw [isAlphabetic_eq_false_of_isWhiteSpace hw] at ha
    cases ha
  all_goals
    obtain ⟨d, hs, rfl⟩ := h
    cases List.mem_singleton.mp hc
    have := not_of_symbolKind? (Token.Kind.symbol?_eq_iff.mp hs)
    simp [hw] at this

theorem filter_of_blank {blank : List Char} (h : Blank blank) :
    blank.filter (!isWhiteSpace ·) = [] := by
  simpa [Blank] using h

-- Without its white space a text is what its tokens were cut from. By induction on the tokens.
theorem filter_of_tiled {text before rest : List Char} {tokens : List Token}
    (h : Tiled text before (tokens.map .ok)) (ht : text = before ++ rest) :
    rest.filter (!isWhiteSpace ·) = tokens.flatMap (·.literal.toList) := by
  generalize hi : tokens.map Except.ok = items at h
  induction h generalizing tokens rest
  case last before blank hb hw =>
    have ⟨token, he, hk⟩ := List.map_eq_singleton_iff.mp hi
    cases hk
    rw [he, List.append_cancel_left (ht.symm.trans hb), filter_of_blank hw]
    rfl
  case cons before blank piece after item items hw hc hrest ih =>
    obtain ⟨token, more, rfl, rfl, hm⟩ := List.map_eq_cons_iff.mp hi
    have hs : before ++ rest = before ++ (blank ++ piece ++ after) := by
      simpa using ht.symm.trans hc.split
    have hp : piece.filter (!isWhiteSpace ·) = piece :=
      List.filter_eq_self.mpr fun c hc' => by simp [hc.fits.2.not_isWhiteSpace c hc']
    rw [List.append_cancel_left hs, List.filter_append, List.filter_append, filter_of_blank hw, hp,
      ih hc.split hm, List.nil_append, List.flatMap_cons, hc.fits.1, String.toList_ofList]

theorem filter_of_tokenize {text : String} {tokens : List Token} (h : tokenize text = .ok tokens) :
    text.toList.filter (!isWhiteSpace ·) = tokens.flatMap (·.literal.toList) := by
  have ht : Tiled text.toList [] (ofText text).items :=
    tiled_items (ofText text) rfl rfl (seam_nil _)
  rw [tokenize_eq_ok_iff.mp h] at ht
  exact filter_of_tiled ht rfl

section

variable {first second : Source} {tokens tokens' : List Token}

-- The tokens of two texts, which are the same but for their places.
variable (h : tokenize first.text = .ok tokens) (h' : tokenize second.text = .ok tokens')
variable (hl : tokens.map Token.lexeme = tokens'.map Token.lexeme)

include h h' hl

theorem filter_eq_of_lexemes : first.text.toList.filter (!isWhiteSpace ·) =
    second.text.toList.filter (!isWhiteSpace ·) := by
  have hm : tokens.map (·.literal.toList) = tokens'.map (·.literal.toList) := by
    have := congrArg (List.map (·.2.toList)) hl
    rwa [List.map_map, List.map_map] at this
  rw [filter_of_tokenize h, filter_of_tokenize h', List.flatMap_def, List.flatMap_def, hm]

-- The results of the parser are those of its tokens, and these are alike.
theorem build_of_lexemes (functions : Functions) :
    (∃ tree, (build functions first).result = .ok tree ∧
      (build functions second).result = .ok tree) ∨
    ∃ fault fault', (build functions first).result = .error (.parse first fault) ∧
      (build functions second).result = .error (.parse second fault') ∧
      fault.Alike (Token.SameIndex tokens tokens') fault' := by
  rw [result_build_of_tokens h, result_build_of_tokens h']
  have ha : Parser.Agree (Token.SameIndex tokens tokens')
      ((Parser.ofTokens functions first tokens).parse).1
      ((Parser.ofTokens functions second tokens').parse).1 :=
    Parser.agree_parse h (alike_of_lexemes h h' hl)
  generalize ((Parser.ofTokens functions first tokens).parse).1 = result at ha
  generalize ((Parser.ofTokens functions second tokens').parse).1 = result' at ha
  cases ha
  case tree tree => exact .inl ⟨tree, rfl, rfl⟩
  case fault fault fault' hf => exact .inr ⟨fault, fault', rfl, rfl, hf⟩

theorem outcome_calculate_of_lexemes {σ : Type} {environment : Environment} {tree : Tree}
    (hb : (build environment.functions first).result = .ok tree) (resolver : Resolver σ)
    (state : σ) :
    (environment.calculate resolver first state).outcome =
      (environment.calculate resolver second state).outcome := by
  have hb' : (build environment.functions second).result = .ok tree := by
    cases build_of_lexemes h h' hl environment.functions
    case inl hs =>
      have ⟨tree', ht, ht'⟩ := hs
      rw [ht', ← ht, hb]
    case inr hs =>
      have ⟨_, _, he, _⟩ := hs
      rw [hb] at he
      cases he
  rw [outcome_calculate_of_build hb, outcome_calculate_of_build hb']

end

-- White space between tokens plays no part. Two texts with the same tokens but for their places are
-- the same text but for white space. They have one tree, or one fault in places of tokens with the
-- same indices, and calculations from them come to the same.
theorem calculate_respaced {first second : Source} {tokens tokens' : List Token}
    (h : tokenize first.text = .ok tokens) (h' : tokenize second.text = .ok tokens')
    (hl : tokens.map Token.lexeme = tokens'.map Token.lexeme) :
    first.text.toList.filter (!isWhiteSpace ·) = second.text.toList.filter (!isWhiteSpace ·) ∧
    (∀ functions,
      (∃ tree, (build functions first).result = .ok tree ∧
        (build functions second).result = .ok tree) ∨
      ∃ fault fault', (build functions first).result = .error (.parse first fault) ∧
        (build functions second).result = .error (.parse second fault') ∧
        fault.Alike (Token.SameIndex tokens tokens') fault') ∧
    ∀ (environment : Environment) tree, (build environment.functions first).result = .ok tree →
      ∀ (σ : Type) (resolver : Resolver σ) (state : σ),
        (environment.calculate resolver first state).outcome =
          (environment.calculate resolver second state).outcome :=
  ⟨filter_eq_of_lexemes h h' hl, build_of_lexemes h h' hl,
    fun _ _ hb _ resolver state => outcome_calculate_of_lexemes h h' hl hb resolver state⟩

set_option maxRecDepth 4000 in
theorem calculate_respaced_call :
    let first : Source := ⟨none, "sin(x)"⟩
    let second : Source := ⟨none, " sin (x\n)"⟩
    let tokens : List Token := [⟨.identifier, "sin", 0⟩, ⟨.leftParen, "(", 3⟩,
      ⟨.identifier, "x", 4⟩, ⟨.rightParen, ")", 5⟩, ⟨.eof, "", 6⟩]
    let tokens' : List Token := [⟨.identifier, "sin", 1⟩, ⟨.leftParen, "(", 5⟩,
      ⟨.identifier, "x", 6⟩, ⟨.rightParen, ")", 8⟩, ⟨.eof, "", 9⟩]
    let fault : ParseFault := .trailingInput ⟨3, 1⟩ "("
    let environment := Environment.withBuiltins
    tokenize first.text = .ok tokens ∧ tokenize second.text = .ok tokens' ∧
    tokens.map Token.lexeme = tokens'.map Token.lexeme ∧
    (build .empty first).result = .error (.parse first fault) ∧
    (∃ fault', (build .empty second).result = .error (.parse second fault') ∧
      fault.Alike (Token.SameIndex tokens tokens') fault') ∧
    (build .builtin first).result = .ok (.call "sin" (.var "x")) ∧
    (environment.calculate .sequence first [some 2]).outcome =
      (environment.calculate .sequence second [some 2]).outcome := by
  intro first second tokens tokens' fault environment
  have ht : tokenize first.text = .ok tokens := by cbv
  have ht' : tokenize second.text = .ok tokens' := by cbv
  have hl : tokens.map Token.lexeme = tokens'.map Token.lexeme := rfl
  have hf : (build .empty first).result = .error (.parse first fault) := by
    rw [result_build_of_tokens ht]
    rfl
  have hb : (build .builtin first).result = .ok (.call "sin" (.var "x")) := by
    rw [result_build_of_tokens ht]
    rfl
  obtain ⟨_, hs, hc⟩ := calculate_respaced ht ht' hl
  refine ⟨ht, ht', hl, hf, ?_, hb, hc environment _ hb _ .sequence [some 2]⟩
  cases hs .empty
  case inl h =>
    obtain ⟨_, h, _⟩ := h
    rw [hf] at h
    cases h
  case inr h =>
    obtain ⟨_, fault', he, he', ha⟩ := h
    rw [hf] at he
    cases he
    exact ⟨fault', he', ha⟩

end Reckoner
