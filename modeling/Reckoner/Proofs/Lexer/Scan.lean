import Mathlib
import Reckoner.Token.Lexer

/-!
What the lexer cuts from the head of a text, by the first character that is no white space. The
classes of characters that it tells apart have no character in common.
-/

namespace Reckoner

theorem byteSize_cons (c : Char) (text : List Char) :
    byteSize (c :: text) = c.utf8Size + byteSize text :=
  rfl

theorem byteSize_append (before after : List Char) :
    byteSize (before ++ after) = byteSize before + byteSize after := by
  induction before
  case nil => simp [byteSize]
  case cons c before hi => rw [List.cons_append, byteSize_cons, byteSize_cons, hi, Nat.add_assoc]

theorem byteSize_pos {text : List Char} (h : text ≠ []) : 0 < byteSize text := by
  cases text
  case nil => contradiction
  case cons c rest =>
    rw [byteSize_cons]
    exact Nat.add_pos_left c.utf8Size_pos _

namespace Text

-- A text of white space only.
def Blank (text : List Char) : Prop :=
  ∀ c ∈ text, isWhiteSpace c = true

theorem blank_nil : Blank [] := by
  simp [Blank]

theorem Ranges.exists_of_has {ranges : Ranges} {code : Nat} (h : ranges.has code = true) :
    ∃ range ∈ ranges, range.1 ≤ code ∧ code ≤ range.2 := by
  induction ranges
  case nil => simp [has] at h
  case cons range ranges hi =>
    simp only [has, Bool.and_eq_true, Bool.or_eq_true, decide_eq_true_eq] at h
    cases h.2
    case inl hl => exact ⟨range, List.mem_cons_self, h.1, hl⟩
    case inr hr =>
      have ⟨range', hm, hr⟩ := hi hr
      exact ⟨range', List.mem_cons_of_mem _ hm, hr⟩

theorem isDigit_iff {c : Char} : c.isDigit = true ↔ 48 ≤ c.toNat ∧ c.toNat ≤ 57 :=
  Char.isDigit_iff_toNat

theorem isDigit_eq_false_of_isAlphabetic {c : Char} (h : isAlphabetic c = true) :
    c.isDigit = false := by
  have ⟨range, hm, hc⟩ := Ranges.exists_of_has h
  have hr : ∀ range ∈ alphabeticRanges, 57 < range.1 := by decide +kernel
  have := hr range hm
  rw [Bool.eq_false_iff, ne_eq, isDigit_iff]
  omega

theorem isDigit_eq_false_of_isWhiteSpace {c : Char} (h : isWhiteSpace c = true) :
    c.isDigit = false := by
  have ⟨range, hm, hc⟩ := Ranges.exists_of_has h
  have hr : ∀ range ∈ whiteSpaceRanges, range.2 < 48 ∨ 57 < range.1 := by decide
  have := hr range hm
  rw [Bool.eq_false_iff, ne_eq, isDigit_iff]
  omega

theorem isAlphabetic_eq_false_of_isWhiteSpace {c : Char} (h : isWhiteSpace c = true) :
    isAlphabetic c = false := by
  have ⟨range, hm, hc⟩ := Ranges.exists_of_has h
  have hr : ∀ range ∈ whiteSpaceRanges, ∀ range' ∈ alphabeticRanges,
      range.2 < range'.1 ∨ range'.2 < range.1 := by decide +kernel
  rw [Bool.eq_false_iff]
  intro ha
  have ⟨range', hm', hc'⟩ := Ranges.exists_of_has ha
  have := hr range hm range' hm'
  omega

end Text

namespace Lexer

open Text

variable {c : Char} {kind : Token.Kind} {rest : List Char} {offset : Nat} {finished : Bool}

theorem symbolKind?_symbol (op : Operator) : symbolKind? op.symbol = some (.operator op) := by
  cases op <;> rfl

-- A symbol is neither a digit nor a letter nor white space.
theorem not_of_symbolKind? (h : symbolKind? c = some kind) :
    c.isDigit = false ∧ isAlphabetic c = false ∧ isWhiteSpace c = false := by
  unfold symbolKind? Operator.ofSymbol? at h
  split at h
  case h_4 => split at h <;> first | decide | cases h
  all_goals decide

theorem symbolKind?_eq_none (h : c.isDigit = true ∨ isAlphabetic c = true ∨ isWhiteSpace c = true) :
    symbolKind? c = none := by
  cases hs : symbolKind? c
  case none => rfl
  case some kind => simp [not_of_symbolKind? hs] at h

theorem ne_eof_of_symbolKind? (h : symbolKind? c = some kind) : kind ≠ .eof := by
  intro he
  subst he
  unfold symbolKind? at h
  split at h <;> simp at h

theorem scan_symbol (h : symbolKind? c = some kind) :
    scan finished (c :: rest) offset =
      some (.ok ⟨kind, String.ofList [c], offset⟩, ⟨rest, offset + byteSize [c], finished⟩) := by
  simp [scan, h]

theorem scan_digit (h : c.isDigit = true) :
    scan finished (c :: rest) offset =
      some (numberItem (number (c :: rest)).1 offset,
        ⟨(number (c :: rest)).2, offset + byteSize (number (c :: rest)).1, finished⟩) := by
  simp [scan, symbolKind?_eq_none (.inl h), h]

theorem scan_alphabetic (h : isAlphabetic c = true) :
    scan finished (c :: rest) offset =
      some (.ok ⟨.identifier, String.ofList (identifier (c :: rest)).1, offset⟩,
        ⟨(identifier (c :: rest)).2, offset + byteSize (identifier (c :: rest)).1, finished⟩) := by
  simp [scan, symbolKind?_eq_none (.inr (.inl h)), isDigit_eq_false_of_isAlphabetic h, h]

theorem scan_whiteSpace (h : isWhiteSpace c = true) :
    scan finished (c :: rest) offset = scan finished rest (offset + c.utf8Size) := by
  simp [scan, symbolKind?_eq_none (.inr (.inr h)), isDigit_eq_false_of_isWhiteSpace h,
    isAlphabetic_eq_false_of_isWhiteSpace h, h]

theorem scan_blank {blank : List Char} (h : Blank blank) :
    scan finished (blank ++ rest) offset = scan finished rest (offset + byteSize blank) := by
  induction blank generalizing offset
  case nil => rfl
  case cons c blank hi =>
    have hi := @hi (offset + c.utf8Size) fun c hc => h c (List.mem_cons_of_mem _ hc)
    rw [List.cons_append, scan_whiteSpace (h c List.mem_cons_self), hi, byteSize_cons,
      Nat.add_assoc]

-- What can be cut from the head of a text that begins with no white space: the piece that is cut,
-- what follows it, and the item for this piece.
inductive Cut (offset : Nat) : List Char → List Char → Item → Prop
  | symbol {c : Char} {kind : Token.Kind} {rest : List Char} :
    symbolKind? c = some kind → Cut offset [c] rest (.ok ⟨kind, String.ofList [c], offset⟩)
  | number {c : Char} {rest : List Char} :
    c.isDigit = true → Cut offset (number (c :: rest)).1 (number (c :: rest)).2
      (numberItem (number (c :: rest)).1 offset)
  | identifier {c : Char} {rest : List Char} :
    isAlphabetic c = true → Cut offset (identifier (c :: rest)).1 (identifier (c :: rest)).2
      (.ok ⟨.identifier, String.ofList (identifier (c :: rest)).1, offset⟩)
  | stray {c : Char} {rest : List Char} :
    symbolKind? c = none → c.isDigit = false → isAlphabetic c = false → isWhiteSpace c = false →
    Cut offset [c] rest (.error (.strayCharacter ⟨offset, c.utf8Size⟩ c))

theorem number_append (text : List Char) : (number text).1 ++ (number text).2 = text := by
  unfold number
  split
  case h_1 rest heq =>
    simp only [List.append_assoc, List.cons_append, List.takeWhile_append_dropWhile]
    rw [← heq, List.takeWhile_append_dropWhile]
  case h_2 => exact List.takeWhile_append_dropWhile

theorem number_ne_nil (h : c.isDigit = true) : (number (c :: rest)).1 ≠ [] := by
  unfold number
  split <;> simp [h]

theorem identifier_append (text : List Char) : (identifier text).1 ++ (identifier text).2 = text :=
  List.takeWhile_append_dropWhile

theorem identifier_ne_nil (h : isAlphabetic c = true) : (identifier (c :: rest)).1 ≠ [] := by
  simp [identifier, h]

namespace Cut

variable {lexeme : List Char} {item : Item} {token : Token}

theorem ne_nil (h : Cut offset lexeme rest item) : lexeme ≠ [] := by
  cases h
  case symbol => exact List.cons_ne_nil _ _
  case number h => exact number_ne_nil h
  case identifier h => exact identifier_ne_nil h
  case stray => exact List.cons_ne_nil _ _

theorem offset_eq (h : Cut offset lexeme rest (.ok token)) : token.offset = offset := by
  generalize hi : Except.ok token = item at h
  cases h
  case number =>
    unfold numberItem at hi
    split at hi <;> cases hi
    rfl
  all_goals
    cases hi
    try rfl

-- Only the token of the end is not cut from the text.
theorem kind_ne_eof (h : Cut offset lexeme rest (.ok token)) : token.kind ≠ .eof := by
  generalize hi : Except.ok token = item at h
  cases h
  case symbol c kind hk =>
    cases hi
    exact ne_eof_of_symbolKind? hk
  case number =>
    unfold numberItem at hi
    split at hi <;> cases hi
    simp
  case identifier =>
    cases hi
    simp
  case stray => cases hi

end Cut

-- Where a text begins with no white space, there is a piece to cut.
theorem exists_cut (finished : Bool) (rest : List Char) (offset : Nat)
    (h : isWhiteSpace c = false) :
    ∃ lexeme rest' item, c :: rest = lexeme ++ rest' ∧ Cut offset lexeme rest' item ∧
      scan finished (c :: rest) offset =
        some (item, ⟨rest', offset + byteSize lexeme, finished⟩) := by
  cases hs : symbolKind? c
  case some kind => exact ⟨_, _, _, rfl, .symbol hs, scan_symbol hs⟩
  case none =>
    by_cases hd : c.isDigit = true
    case pos => exact ⟨_, _, _, (number_append _).symm, .number hd, scan_digit hd⟩
    case neg =>
      by_cases ha : isAlphabetic c = true
      case pos => exact ⟨_, _, _, (identifier_append _).symm, .identifier ha, scan_alphabetic ha⟩
      case neg =>
        rw [Bool.not_eq_true] at hd ha
        exact ⟨_, _, _, rfl, .stray hs hd ha h, by simp [scan, hs, hd, ha, h]⟩

theorem scan_ne_none (text : List Char) (offset : Nat) : scan false text offset ≠ none := by
  induction text generalizing offset
  case nil => simp [scan]
  case cons c rest hi =>
    cases hw : isWhiteSpace c
    case true =>
      rw [scan_whiteSpace hw]
      exact hi _
    case false =>
      obtain ⟨_, _, _, _, _, hs⟩ := exists_cut false rest offset hw
      simp [hs]

-- An item is cut from behind the white space, or it is the token of the end of a text that has
-- nothing but white space.
theorem scan_eq_some {text : List Char} {item : Item} {next : Lexer}
    (h : scan finished text offset = some (item, next)) :
    (∃ blank lexeme rest, text = blank ++ lexeme ++ rest ∧ Blank blank ∧
      Cut (offset + byteSize blank) lexeme rest item ∧
      next = ⟨rest, offset + byteSize blank + byteSize lexeme, finished⟩) ∨
    Blank text ∧ finished = false ∧ item = .ok ⟨.eof, "", offset + byteSize text⟩ ∧
      next = ⟨[], offset + byteSize text, true⟩ := by
  induction text generalizing offset
  case nil =>
    cases finished <;> simp [scan] at h
    exact .inr ⟨blank_nil, rfl, h.1.symm, h.2.symm⟩
  case cons c rest hi =>
    by_cases hw : isWhiteSpace c = true
    case pos =>
      rw [scan_whiteSpace hw] at h
      cases hi h
      case inl hl =>
        obtain ⟨blank, lexeme, rest', ht, hb, hc, hn⟩ := hl
        refine .inl ⟨c :: blank, lexeme, rest', ?_, ?_, ?_, ?_⟩
        · simp [ht]
        · exact List.forall_mem_cons.mpr ⟨hw, hb⟩
        · simpa [byteSize_cons, Nat.add_assoc] using hc
        · simpa [byteSize_cons, Nat.add_assoc] using hn
      case inr hr =>
        obtain ⟨hb, hf, hi, hn⟩ := hr
        refine .inr ⟨List.forall_mem_cons.mpr ⟨hw, hb⟩, hf, ?_, ?_⟩
        · simpa [byteSize_cons, Nat.add_assoc] using hi
        · simpa [byteSize_cons, Nat.add_assoc] using hn
    case neg =>
      obtain ⟨lexeme, rest', item', ht, hc, hs⟩ :=
        exists_cut finished rest offset (Bool.not_eq_true _ ▸ hw)
      rw [hs] at h
      cases h
      exact .inl ⟨[], lexeme, rest', ht, blank_nil, hc, rfl⟩

end Lexer

end Reckoner
