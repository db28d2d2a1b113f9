import Reckoner.Proofs.Lexer.Items

/-!
The items of a text tile it. They lie over pieces of the text, one behind the other, and between the
pieces there is nothing but white space. A name and the digits of a number go on neither to the left
nor to the right, and every other token is a single character.
-/

namespace Reckoner

theorem byteSize_toList (text : String) : byteSize text.toList = text.utf8ByteSize := by
  have h (text : List Char) : byteSize text = String.utf8Len text := by
    induction text
    case nil => rfl
    case cons c rest hi => simp [byteSize_cons, hi, Nat.add_comm]
  rw [h, ← String.utf8ByteSize_ofList, String.ofList_toList]

-- The offset behind a span.
def Span.stop (span : Span) : Nat :=
  span.offset + span.length

-- A run of characters with a property that goes on neither to the left nor to the right.
structure Text.IsRun (p : Char → Bool) (before run after : List Char) : Prop where
  ne_nil : run ≠ []
  all : ∀ c ∈ run, p c = true
  left : ∀ c ∈ before.getLast?, p c = false
  right : ∀ c ∈ after.head?, p c = false

-- What may stand between the whole part of a number and the text behind the number: nothing if no
-- point comes next, or else the point and all digits directly behind it.
inductive Text.IsFraction : List Char → List Char → Prop
  | none {after : List Char} : after.head? ≠ some '.' → IsFraction [] after
  | point {places after : List Char} :
    (∀ c ∈ places, c.isDigit = true) → (∀ c ∈ after.head?, c.isDigit = false) →
    IsFraction ('.' :: places) after

open Text

-- The piece is a number of the text: a run of digits and what may stand behind it.
def Text.IsNumber (before piece after : List Char) : Prop :=
  ∃ digits fraction, piece = digits ++ fraction ∧
    IsRun Char.isDigit before digits (fraction ++ after) ∧ IsFraction fraction after

theorem Text.isAlphabetic_eq_false_of_isDigit {c : Char} (h : c.isDigit = true) :
    isAlphabetic c = false := by
  rw [Bool.eq_false_iff]
  intro ha
  rw [isDigit_eq_false_of_isAlphabetic ha] at h
  cases h

theorem Text.IsNumber.isDigit_or_eq_point {before piece after : List Char} {c : Char}
    (h : IsNumber before piece after) (hc : c ∈ piece) : c.isDigit = true ∨ c = '.' := by
  obtain ⟨digits, fraction, rfl, hr, hf⟩ := h
  cases List.mem_append.mp hc
  case inl hm => exact .inl (hr.all c hm)
  case inr hm =>
    cases hf
    case none => cases hm
    case point places hp _ => exact (List.mem_cons.mp hm).symm.imp_left (hp c)

theorem Text.IsNumber.not_isAlphabetic {before piece after : List Char} {c : Char}
    (h : IsNumber before piece after) (hc : c ∈ piece) : isAlphabetic c = false := by
  cases h.isDigit_or_eq_point hc
  case inl hd => exact isAlphabetic_eq_false_of_isDigit hd
  case inr he =>
    rw [he]
    decide

theorem Text.IsNumber.right {before piece after : List Char} {c : Char}
    (h : IsNumber before piece after) (hc : c ∈ after.head?) : c.isDigit = false := by
  obtain ⟨digits, fraction, rfl, hr, hf⟩ := h
  cases hf
  case none => exact hr.right c hc
  case point hp => exact hp c hc

namespace Token.Kind

-- The character of a kind of token that has only one.
def symbol? : Kind → Option Char
  | operator op => some op.symbol
  | leftParen   => some '('
  | rightParen  => some ')'
  | comma       => some ','
  | number _ | identifier | eof => none

-- The pieces of a text that are tokens of a kind.
def Fits (before piece after : List Char) : Kind → Prop
  | number value => IsNumber before piece after ∧ Numeral.read piece = .ok value
  | identifier   => IsRun isAlphabetic before piece after
  | kind         => ∃ c, kind.symbol? = some c ∧ piece = [c]

theorem ne_eof_of_fits {before piece after : List Char} {kind : Kind}
    (h : kind.Fits before piece after) : kind ≠ .eof := by
  intro he
  subst he
  have ⟨_, hs, _⟩ := h
  cases hs

theorem fits_of_symbol? {before after : List Char} {c : Char} {kind : Kind}
    (h : kind.symbol? = some c) : kind.Fits before [c] after := by
  cases kind
  case number | identifier => cases h
  all_goals exact ⟨c, h, rfl⟩

theorem symbol?_eq_iff {kind : Kind} {c : Char} :
    kind.symbol? = some c ↔ Lexer.symbolKind? c = some kind := by
  constructor
  case mp =>
    intro h
    cases kind <;> cases h
    case operator op => exact Lexer.symbolKind?_symbol op
    all_goals rfl
  case mpr =>
    intro h
    unfold Lexer.symbolKind? Operator.ofSymbol? at h
    split at h
    case h_4 => split at h <;> cases h <;> rfl
    all_goals
      cases h
      rfl

end Token.Kind

namespace LexFault

-- A character that no token starts with and that does not separate tokens either.
def IsStray (c : Char) : Prop :=
  c.isDigit = false ∧ isAlphabetic c = false ∧ isWhiteSpace c = false ∧
    ∀ kind : Token.Kind, kind.symbol? ≠ some c

-- The pieces of a text that are faults.
def Fits (before piece after : List Char) : LexFault → Prop
  | strayCharacter _ c    => piece = [c] ∧ IsStray c
  | invalidNumber _ cause => IsNumber before piece after ∧ Numeral.read piece = .error cause

end LexFault

namespace Lexer

namespace Item

def span : Item → Span
  | .ok token    => token.span
  | .error fault => fault.place

-- The pieces of a text that an item stands for.
def Fits (before piece after : List Char) : Item → Prop
  | .ok token    => token.literal = String.ofList piece ∧ token.kind.Fits before piece after
  | .error fault => fault.Fits before piece after

-- The item lies over a piece of the text, which is not empty and which the item stands for.
structure Covers (text before piece after : List Char) (item : Item) : Prop where
  split : text = before ++ piece ++ after
  ne_nil : piece ≠ []
  span_eq : item.span = ⟨byteSize before, byteSize piece⟩
  fits : item.Fits before piece after

end Item

-- No name and no digits go on from the one text into the other.
def Seam (before after : List Char) : Prop :=
  ∀ c ∈ before.getLast?, ∀ d ∈ after.head?,
    (c.isDigit && d.isDigit) = false ∧ (isAlphabetic c && isAlphabetic d) = false

variable {text before blank piece after rest : List Char} {item : Item} {offset : Nat}

-- Where a text is put together from two parts, each of its characters lies in one of them.
theorem splits_of_append_cons_eq {pre post : List Char} {c : Char}
    (h : before ++ c :: after = pre ++ post) :
    (∃ tail, pre = before ++ c :: tail) ∨
      ∃ middle, before = pre ++ middle ∧ middle ++ c :: after = post := by
  cases List.append_eq_append_iff.mp h
  case inl h =>
    obtain ⟨tail, rfl, ht⟩ := h
    cases tail
    case nil => exact .inr ⟨[], by simp, ht⟩
    case cons d tail =>
      cases ht
      exact .inl ⟨tail, rfl⟩
  case inr h =>
    obtain ⟨middle, rfl, rfl⟩ := h
    exact .inr ⟨middle, rfl, rfl⟩

theorem seam_nil (after : List Char) : Seam [] after := by
  simp [Seam]

theorem Seam.append_blank (h : Seam before (blank ++ after)) (hb : Blank blank) :
    Seam (before ++ blank) after := by
  intro c hc d hd
  cases hl : blank.getLast? <;> rw [List.getLast?_append, hl] at hc
  case none =>
    rw [List.getLast?_eq_none_iff] at hl
    exact h c hc d (by simpa [hl] using hd)
  case some c' =>
    cases hc
    have hw := hb c (List.mem_of_getLast? hl)
    simp [isDigit_eq_false_of_isWhiteSpace hw, isAlphabetic_eq_false_of_isWhiteSpace hw]

theorem eq_false_of_mem_head?_dropWhile {p : Char → Bool} {c : Char}
    (h : c ∈ (text.dropWhile p).head?) : p c = false := by
  have := List.head?_dropWhile_not p text
  rwa [Option.mem_def.mp h] at this

theorem fraction_number (text : List Char) :
    ∃ fraction, (number text).1 = text.takeWhile Char.isDigit ++ fraction ∧
      fraction ++ (number text).2 = text.dropWhile Char.isDigit ∧
      IsFraction fraction (number text).2 := by
  unfold number
  split
  case h_1 rest hr =>
    refine ⟨'.' :: rest.takeWhile Char.isDigit, rfl, by simp [hr], .point ?_ ?_⟩
    · exact fun c hc => List.mem_takeWhile_imp hc
    · exact fun c hc => eq_false_of_mem_head?_dropWhile hc
  case h_2 hr =>
    refine ⟨[], by simp, by simp, .none ?_⟩
    intro hh
    have ⟨rest, he⟩ := List.head?_eq_some_iff.mp hh
    exact hr rest he

theorem isRun_takeWhile {p : Char → Bool} {c : Char} (hp : p c = true)
    (hs : ∀ d ∈ before.getLast?, p d = false) :
    IsRun p before ((c :: rest).takeWhile p) ((c :: rest).dropWhile p) where
  ne_nil := by simp [hp]
  all d hd := List.mem_takeWhile_imp hd
  left := hs
  right d hd := eq_false_of_mem_head?_dropWhile hd

-- A number is cut where no digits could go on from the left.
theorem isNumber_number {c : Char} (hd : c.isDigit = true) (hs : Seam before (c :: rest)) :
    IsNumber before (number (c :: rest)).1 (number (c :: rest)).2 := by
  have ⟨fraction, hl, hr, hf⟩ := fraction_number (c :: rest)
  refine ⟨_, fraction, hl, ?_, hf⟩
  rw [hr]
  exact isRun_takeWhile hd fun d hm => by simpa [hd] using (hs d hm c rfl).1

theorem isRun_identifier {c : Char} (ha : isAlphabetic c = true) (hs : Seam before (c :: rest)) :
    IsRun isAlphabetic before (identifier (c :: rest)).1 (identifier (c :: rest)).2 :=
  isRun_takeWhile ha fun d hm => by simpa [ha] using (hs d hm c rfl).2

namespace Cut

theorem fits (h : Cut offset piece rest item) (hs : Seam before (piece ++ rest)) :
    item.Fits before piece rest := by
  cases h
  case symbol hk => exact ⟨rfl, Token.Kind.fits_of_symbol? (Token.Kind.symbol?_eq_iff.mpr hk)⟩
  case number c rest hd =>
    rw [number_append] at hs
    unfold numberItem
    split
    case h_1 hv => exact ⟨rfl, isNumber_number hd hs, hv⟩
    case h_2 hv => exact ⟨isNumber_number hd hs, hv⟩
  case identifier c rest ha =>
    rw [identifier_append] at hs
    exact ⟨rfl, isRun_identifier ha hs⟩
  case stray c hk hd ha hw =>
    refine ⟨rfl, hd, ha, hw, fun kind hs => ?_⟩
    rw [Token.Kind.symbol?_eq_iff, hk] at hs
    cases hs

theorem span_eq (h : Cut offset piece rest item) : item.span = ⟨offset, byteSize piece⟩ := by
  cases h
  case number =>
    unfold numberItem
    split <;> simp [Item.span, Token.span, LexFault.place]
  all_goals simp [Item.span, Token.span, LexFault.place, byteSize]

theorem covers (h : Cut (byteSize before) piece rest item) (hs : Seam before (piece ++ rest)) :
    item.Covers (before ++ piece ++ rest) before piece rest :=
  ⟨rfl, h.ne_nil, h.span_eq, h.fits hs⟩

end Cut

theorem seam_of_forall_mem (hn : piece ≠ []) (h : ∀ c ∈ piece, ∀ d ∈ after.head?,
    (c.isDigit && d.isDigit) = false ∧ (isAlphabetic c && isAlphabetic d) = false) :
    Seam (before ++ piece) after := by
  intro c hc d hd
  rw [List.getLast?_append, List.getLast?_eq_some_getLast hn] at hc
  cases hc
  exact h _ (List.getLast_mem hn) d hd

-- Every piece ends where no name and no digits could go on from it.
theorem Item.Fits.seam (h : item.Fits before piece after) (hn : piece ≠ []) :
    Seam (before ++ piece) after := by
  apply seam_of_forall_mem hn
  intro c hc d hd
  cases item
  case ok token =>
    have ⟨_, h⟩ := h
    cases hk : token.kind <;> rw [hk] at h
    case number => simp [h.1.right hd, h.1.not_isAlphabetic hc]
    case identifier => simp [isDigit_eq_false_of_isAlphabetic (h.all c hc), h.right d hd]
    all_goals
      obtain ⟨c', hs, rfl⟩ := h
      cases List.mem_singleton.mp hc
      have := not_of_symbolKind? (Token.Kind.symbol?_eq_iff.mp hs)
      simp [this]
  case error fault =>
    cases fault
    case strayCharacter =>
      obtain ⟨rfl, hs⟩ := h
      cases List.mem_singleton.mp hc
      simp [hs.1, hs.2.1]
    case invalidNumber => simp [h.1.right hd, h.1.not_isAlphabetic hc]

-- The items tile what follows a part of the text. The last one is the end of the text.
inductive Tiled (text : List Char) : List Char → List Item → Prop
  | last {before blank : List Char} :
    text = before ++ blank → Blank blank → Tiled text before [.ok ⟨.eof, "", byteSize text⟩]
  | cons {before blank piece after : List Char} {item : Item} {items : List Item} :
    Blank blank → item.Covers text (before ++ blank) piece after →
    Tiled text (before ++ blank ++ piece) items → Tiled text before (item :: items)

-- By induction on the items: the lexer stands at a seam before each of them.
theorem tiled_items (lexer : Lexer) (ho : lexer.offset = byteSize before)
    (hf : lexer.finished = false) (hs : Seam before lexer.rest) :
    Tiled (before ++ lexer.rest) before lexer.items := by
  induction lexer using items.induct generalizing before
  case case1 lexer hn =>
    rw [next?, hf] at hn
    exact absurd hn (scan_ne_none _ _)
  case case2 lexer item next hn hi =>
    rw [items_of_next?_eq_some hn]
    cases scan_eq_some hn
    case inl h =>
      obtain ⟨blank, piece, rest, ht, hb, hc, rfl⟩ := h
      rw [ho, ← byteSize_append] at hc
      rw [ht, List.append_assoc] at hs
      have hcov := hc.covers (hs.append_blank hb)
      have hi := hi (by simp [ho, byteSize_append, Nat.add_assoc]) hf (hcov.fits.seam hcov.ne_nil)
      rw [ht, ← List.append_assoc, ← List.append_assoc]
      exact .cons hb hcov hi
    case inr h =>
      obtain ⟨hb, _, rfl, rfl⟩ := h
      rw [items_of_next?_eq_none rfl, ho, ← byteSize_append]
      exact .last rfl hb

namespace Tiled

variable {items : List Item}

theorem le_offset (h : Tiled text before items) :
    ∀ item ∈ items, byteSize before ≤ item.span.offset := by
  induction h
  case last before blank ht _ =>
    intro item hm
    cases List.mem_singleton.mp hm
    simp [Item.span, Token.span, ht, byteSize_append]
  case cons hc _ hi =>
    intro item hm
    cases hm
    case head => simp [hc.span_eq, byteSize_append]
    case tail hm =>
      have := hi item hm
      simp only [byteSize_append] at this
      omega

-- The pieces follow one another.
theorem pairwise (h : Tiled text before items) :
    items.Pairwise (·.span.stop ≤ ·.span.offset) := by
  induction h
  case last => exact List.pairwise_singleton _ _
  case cons hc ht hi =>
    refine .cons (fun item hm => ?_) hi
    have := ht.le_offset item hm
    simpa [hc.span_eq, Span.stop, byteSize_append, Nat.add_assoc] using this

-- All items but the last one cover pieces of the text.
theorem exists_covers (h : Tiled text before items) :
    ∃ covering, items = covering ++ [.ok ⟨.eof, "", byteSize text⟩] ∧
      ∀ item ∈ covering, ∃ before piece after, item.Covers text before piece after := by
  induction h
  case last => exact ⟨[], rfl, by simp⟩
  case cons item items _ hc _ hi =>
    obtain ⟨covering, rfl, hi⟩ := hi
    exact ⟨item :: covering, rfl, List.forall_mem_cons.mpr ⟨⟨_, _, _, hc⟩, hi⟩⟩

-- A character behind a part of the text is white space or lies in the span of an item.
theorem covered (h : Tiled text before items) {middle : List Char} {c : Char}
    (ht : text = before ++ middle ++ c :: rest) :
    isWhiteSpace c = true ∨ ∃ item ∈ items,
      item.span.offset ≤ byteSize (before ++ middle) ∧
        byteSize (before ++ middle) < item.span.stop := by
  induction h generalizing middle
  case last before blank hb hw =>
    rw [hb, List.append_assoc, List.append_cancel_left_eq] at ht
    exact .inl (hw c (by simp [ht]))
  case cons before blank piece after item items hb hc _ hi =>
    have hs := ht.symm.trans hc.split
    simp only [List.append_assoc, List.append_cancel_left_eq] at hs
    cases splits_of_append_cons_eq hs
    case inl h =>
      obtain ⟨tail, rfl⟩ := h
      exact .inl (hb c (by simp))
    case inr h =>
      obtain ⟨middle, rfl, hp⟩ := h
      cases splits_of_append_cons_eq hp
      case inl h =>
        obtain ⟨tail, rfl⟩ := h
        refine .inr ⟨item, List.mem_cons_self, ?_⟩
        simp only [hc.span_eq, Span.stop, byteSize_append, byteSize_cons]
        have := c.utf8Size_pos
        omega
      case inr h =>
        obtain ⟨middle, rfl, _⟩ := h
        have hi := @hi middle (by simp [ht])
        simp only [List.append_assoc] at hi ⊢
        exact hi.imp_right fun ⟨item, hm, hi⟩ => ⟨item, List.mem_cons_of_mem _ hm, hi⟩

end Tiled

theorem covers_of_mem_items {text : String} {item : Item} (hm : item ∈ (ofText text).items) :
    item = .ok ⟨.eof, "", text.utf8ByteSize⟩ ∨
      ∃ before piece after, item.Covers text.toList before piece after := by
  have ht : Tiled text.toList [] (ofText text).items :=
    tiled_items (ofText text) rfl rfl (seam_nil _)
  have ⟨covering, hi, hc⟩ := ht.exists_covers
  rw [hi, List.mem_append, List.mem_singleton, byteSize_toList] at hm
  exact hm.symm.imp_right (hc item)

theorem fits_of_mem_items {text : String} {token : Token}
    (hm : .ok token ∈ (ofText text).items) (hk : token.kind ≠ .eof) :
    ∃ before after, token.kind.Fits before token.literal.toList after := by
  cases covers_of_mem_items hm
  case inl he =>
    cases he
    exact absurd rfl hk
  case inr hc =>
    have ⟨before, piece, after, hc⟩ := hc
    have ⟨hl, hf⟩ := hc.fits
    rw [hl, String.toList_ofList]
    exact ⟨before, after, hf⟩

-- One call of a lexer: what it gives, if it gives anything, and the lexer behind it. A call that
-- gives nothing changes nothing.
def call (lexer : Lexer) : Option Item × Lexer :=
  match lexer.next? with
  | some (item, next) => (some item, next)
  | none => (none, lexer)

-- What a call gives after a number of calls.
def given (lexer : Lexer) : Nat → Option Item
  | 0 => lexer.call.1
  | n + 1 => lexer.call.2.given n

theorem given_eq_getElem?_items (lexer : Lexer) (n : Nat) : lexer.given n = lexer.items[n]? := by
  induction n generalizing lexer
  case zero =>
    cases hn : lexer.next?
    case none => simp [given, call, hn, items_of_next?_eq_none hn]
    case some => simp [given, call, hn, items_of_next?_eq_some hn]
  case succ n hi =>
    rw [given, hi]
    cases hn : lexer.next?
    case none => simp [call, hn, items_of_next?_eq_none hn]
    case some => simp [call, hn, items_of_next?_eq_some hn]

-- A lexer gives out an item for each piece of the text, then the end and then nothing any more. The
-- pieces are whole characters and follow one another, and all that they leave out is white space.
theorem given_tile_text (text : String) :
    ∃ covering,
      (ofText text).items = covering ++ [.ok ⟨.eof, "", text.utf8ByteSize⟩] ∧
      (∀ n, (ofText text).given n =
        (covering ++ [.ok ⟨.eof, "", text.utf8ByteSize⟩])[n]?) ∧
      (∀ token, .ok token ∈ covering → token.kind ≠ .eof) ∧
      (∀ item ∈ covering, ∃ before piece after, item.Covers text.toList before piece after) ∧
      covering.Pairwise (·.span.stop ≤ ·.span.offset) ∧
      ∀ before c after, text.toList = before ++ c :: after →
        isWhiteSpace c = true ∨ ∃ item ∈ covering,
          item.span.offset ≤ byteSize before ∧ byteSize before < item.span.stop := by
  have ht : Tiled text.toList [] (ofText text).items :=
    tiled_items (ofText text) rfl rfl (seam_nil _)
  have ⟨covering, hi, hc⟩ := ht.exists_covers
  rw [byteSize_toList] at hi
  refine ⟨covering, hi, fun n => hi ▸ given_eq_getElem?_items _ n, ?_, hc, ?_, ?_⟩
  · intro token hm
    have ⟨_, _, _, hc⟩ := hc _ hm
    exact Token.Kind.ne_eof_of_fits hc.fits.2
  · exact (List.pairwise_append.mp (hi ▸ ht.pairwise)).1
  · intro before c after hs
    refine (ht.covered hs).imp_right fun ⟨item, hm, ho, hlt⟩ => ⟨item, ?_, ho, hlt⟩
    rw [hi, List.mem_append, List.mem_singleton] at hm
    refine hm.resolve_right fun he => ?_
    rw [he] at ho hlt
    exact absurd ho (Nat.not_le.mpr hlt)

end Lexer

end Reckoner
