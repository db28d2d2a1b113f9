import Reckoner.Proofs.Lexer.Numbers

/-!
Which texts have tokens can be seen from each of their characters and what stands directly before
it. A point needs digits before it, and these may not be the places of a number already. The first
character that is out of place is the one that the fault of the text tells of.
-/

namespace Reckoner

namespace Text

variable {before middle text : List Char} {c : Char}

-- A character that cannot stand behind a text: it belongs to no token and is no white space, or it
-- is a point without a digit before it, or a point behind digits that a point stands before. These
-- digits are all that there are, as points stand on both of their sides.
inductive Misplaced (before : List Char) : Char → Prop
  | stray {c : Char} :
    isAlphabetic c = false → isWhiteSpace c = false → c.isDigit = false →
    c ∉ ['+', '-', '*', '/', '^', '(', ')', ',', '.'] → Misplaced before c
  | point : (∀ d ∈ before.getLast?, d.isDigit = false) → Misplaced before '.'
  | secondPoint {start digits : List Char} :
    before = start ++ '.' :: digits → digits ≠ [] → (∀ d ∈ digits, d.isDigit = true) →
    Misplaced before '.'

-- No character of the text is out of place.
def WellPlaced (text : List Char) : Prop :=
  ∀ before c after, text = before ++ c :: after → ¬Misplaced before c

theorem wellPlaced_nil : WellPlaced [] := by
  simp [WellPlaced]

theorem WellPlaced.append (h : WellPlaced before)
    (hm : ∀ start c rest, middle = start ++ c :: rest → ¬Misplaced (before ++ start) c) :
    WellPlaced (before ++ middle) := by
  intro start c rest ht
  cases Lexer.splits_of_append_cons_eq ht.symm
  case inl h' =>
    obtain ⟨tail, rfl⟩ := h'
    exact h start c tail rfl
  case inr h' =>
    obtain ⟨middle', rfl, rfl⟩ := h'
    exact hm middle' c rest rfl

-- A text has at most one first character that is out of place.
theorem first_misplaced_unique {before' after after' : List Char} {c' : Char}
    (ht : before ++ c :: after = before' ++ c' :: after') (hw : WellPlaced before)
    (hw' : WellPlaced before') (hm : Misplaced before c) (hm' : Misplaced before' c') :
    before = before' ∧ c = c' := by
  cases Lexer.splits_of_append_cons_eq ht
  case inl h =>
    obtain ⟨tail, rfl⟩ := h
    exact absurd hm (hw' before c tail rfl)
  case inr h =>
    obtain ⟨middle, rfl, h⟩ := h
    cases middle
    case nil =>
      cases h
      simp
    case cons d middle =>
      cases h
      exact absurd hm' (hw before' c' middle rfl)

theorem symbolKind?_eq_none_iff :
    Lexer.symbolKind? c = none ↔ c ∉ ['+', '-', '*', '/', '^', '(', ')', ','] := by
  constructor
  case mp =>
    intro h hm
    simp only [List.mem_cons, List.not_mem_nil, or_false] at hm
    rcases hm with rfl | rfl | rfl | rfl | rfl | rfl | rfl | rfl <;> cases h
  case mpr =>
    intro h
    unfold Lexer.symbolKind? Operator.ofSymbol?
    split
    case h_4 => split <;> simp_all
    all_goals simp at h

theorem isStray_point : LexFault.IsStray '.' := by
  refine ⟨rfl, by decide, by decide, fun kind hk => ?_⟩
  rw [Token.Kind.symbol?_eq_iff] at hk
  cases hk

-- Tokens begin with no character that is out of place, and neither is it white space.
theorem Misplaced.isStray (h : Misplaced before c) : LexFault.IsStray c := by
  cases h
  case stray ha hw hd hs =>
    have hn : Lexer.symbolKind? c = none := symbolKind?_eq_none_iff.mpr fun hm => hs (by simp_all)
    refine ⟨hd, ha, hw, fun kind hk => ?_⟩
    rw [Token.Kind.symbol?_eq_iff, hn] at hk
    cases hk
  all_goals exact isStray_point

theorem misplaced_of_isStray (h : LexFault.IsStray c) (hp : c ≠ '.') : Misplaced before c := by
  obtain ⟨hd, ha, hw, hs⟩ := h
  have hn : Lexer.symbolKind? c = none := by
    by_contra hk
    have ⟨kind, hk⟩ := Option.ne_none_iff_exists'.mp hk
    exact hs kind (Token.Kind.symbol?_eq_iff.mpr hk)
  have := symbolKind?_eq_none_iff.mp hn
  exact .stray ha hw hd (by simp_all)

theorem not_misplaced_of_isDigit (h : c.isDigit = true) : ¬Misplaced before c :=
  fun hm => Bool.false_ne_true (hm.isStray.1.symm.trans h)

theorem WellPlaced.append_blank {blank : List Char} (h : WellPlaced before) (hb : Blank blank) :
    WellPlaced (before ++ blank) := by
  apply h.append
  intro start c rest he hm
  have := hb c (by simp [he])
  rw [hm.isStray.2.2.1] at this
  cases this

end Text

namespace Lexer

open Text

variable {text before blank piece rest after : List Char} {c : Char} {kind : Token.Kind}
variable {items : List Item}

-- Where points and digits meet at the end of a part of the text: no digit stands directly behind a
-- point, and a point stands directly behind digits only if they are the places of a number.
structure PointSeam (before after : List Char) : Prop where
  point : before.getLast? = some '.' → ∀ d ∈ after.head?, d.isDigit = false
  digits : ∀ d ∈ before.getLast?, d.isDigit = true → after.head? = some '.' →
    ∃ start places, before = start ++ '.' :: places ∧ places ≠ [] ∧
      ∀ d ∈ places, d.isDigit = true

namespace PointSeam

theorem start (after : List Char) : PointSeam [] after where
  point := by simp
  digits := by simp

-- Behind a piece whose last character is neither a point nor a digit.
theorem of_forall (hp : piece ≠ []) (h : ∀ d ∈ piece, d ≠ '.' ∧ d.isDigit = false) :
    PointSeam (before ++ piece) after := by
  have ⟨d, hd⟩ := Option.ne_none_iff_exists'.mp (mt List.getLast?_eq_none_iff.mp hp)
  have hl : (before ++ piece).getLast? = some d := by simp [List.getLast?_append, hd]
  have hd := h d (List.mem_of_getLast? hd)
  constructor
  case point => simp [hl, hd]
  case digits => simp [hl, hd]

theorem append_blank (h : PointSeam before (blank ++ after)) (hb : Blank blank) :
    PointSeam (before ++ blank) after := by
  cases blank
  case nil => simpa using h
  case cons c blank =>
    apply of_forall (List.cons_ne_nil c blank)
    intro d hd
    refine ⟨fun he => ?_, isDigit_eq_false_of_isWhiteSpace (hb d hd)⟩
    subst he
    exact absurd (hb _ hd) (by decide)

-- Behind a number all digits belong to its places, or no point comes next.
theorem of_isNumber (h : IsNumber before piece after) : PointSeam (before ++ piece) after := by
  obtain ⟨digits, fraction, rfl, hr, hf⟩ := h
  cases hf
  case none hp =>
    rw [List.append_nil]
    constructor
    case point =>
      intro hl
      rw [List.getLast?_append, List.getLast?_eq_some_getLast hr.ne_nil, Option.some_or,
        Option.some.injEq] at hl
      have := hr.all _ (List.getLast_mem hr.ne_nil)
      rw [hl] at this
      cases this
    case digits => exact fun _ _ _ h => absurd h hp
  case point places hp ha =>
    constructor
    case point => exact fun _ => ha
    case digits =>
      intro d hd hdigit _
      refine ⟨before ++ digits, places, by simp, ?_, hp⟩
      intro hn
      subst hn
      simp only [← List.append_assoc, List.getLast?_append_cons] at hd
      cases hd
      cases hdigit

theorem of_fits (h : kind.Fits before piece after) (hn : piece ≠ []) :
    PointSeam (before ++ piece) after := by
  cases kind
  case number => exact of_isNumber h.1
  case identifier =>
    apply of_forall hn
    intro d hd
    have ha := h.all d hd
    refine ⟨fun he => ?_, isDigit_eq_false_of_isAlphabetic ha⟩
    subst he
    exact absurd ha (by decide)
  all_goals
    obtain ⟨c, hs, rfl⟩ := h
    rw [Token.Kind.symbol?_eq_iff] at hs
    apply of_forall (List.cons_ne_nil c [])
    intro d hd
    cases List.mem_singleton.mp hd
    refine ⟨fun he => ?_, (not_of_symbolKind? hs).1⟩
    subst he
    cases hs

end PointSeam

-- Where the digits of a number begin behind a part of the text without a point at its end, the
-- point behind them is no second one.
theorem not_misplaced_point {digits : List Char} (hr : IsRun Char.isDigit before digits after)
    (hp : before.getLast? ≠ some '.') : ¬Misplaced (before ++ digits) '.' := by
  have hnot : '.' ∉ digits := fun hm => absurd (hr.all _ hm) (by decide)
  intro h
  generalize he : before ++ digits = whole at h
  cases h
  case stray hs => simp at hs
  case point h =>
    have hl : digits.getLast hr.ne_nil ∈ whole.getLast? := by
      simp [← he, List.getLast?_append, List.getLast?_eq_some_getLast hr.ne_nil]
    have := hr.all _ (List.getLast_mem hr.ne_nil)
    rw [h _ hl] at this
    cases this
  case secondPoint start places hw _ hd =>
    cases splits_of_append_cons_eq (hw.symm.trans he.symm)
    case inl h =>
      obtain ⟨tail, rfl⟩ := h
      have hpl : places = tail ++ digits := by simpa [hw] using he.symm
      cases tail.eq_nil_or_concat'
      case inl hn => exact hp (by simp [hn])
      case inr hc =>
        obtain ⟨tail, d, rfl⟩ := hc
        have hl := hr.left d
        rw [← List.cons_append, ← List.append_assoc, List.getLast?_concat] at hl
        have := hd d (by simp [hpl])
        rw [hl rfl] at this
        cases this
    case inr h =>
      obtain ⟨middle, _, hm⟩ := h
      exact hnot (hm ▸ by simp)

-- A piece that is a token holds no character that is out of place.
theorem not_misplaced_of_fits (h : kind.Fits before piece after)
    (hs : PointSeam before (piece ++ after)) :
    ∀ start c rest, piece = start ++ c :: rest → ¬Misplaced (before ++ start) c := by
  intro start c rest hp
  have hc : c ∈ piece := by simp [hp]
  cases kind
  case number =>
    obtain ⟨digits, fraction, rfl, hr, hf⟩ := h.1
    clear h
    cases splits_of_append_cons_eq hp.symm
    case inl h =>
      obtain ⟨tail, rfl⟩ := h
      exact not_misplaced_of_isDigit (hr.all c (by simp))
    case inr h =>
      obtain ⟨middle, rfl, he⟩ := h
      cases hf
      case none => simp at he
      case point places hd _ =>
        cases middle
        case nil =>
          cases he
          rw [List.append_nil]
          apply not_misplaced_point hr
          intro hl
          have ⟨d, digits', he⟩ := List.exists_cons_of_ne_nil hr.ne_nil
          have := hs.point hl d (by simp [he])
          rw [hr.all d (by simp [he])] at this
          cases this
        case cons _ middle =>
          cases he
          exact not_misplaced_of_isDigit (hd c (by simp))
  case identifier =>
    intro hm
    have := h.all c hc
    rw [hm.isStray.2.1] at this
    cases this
  all_goals
    obtain ⟨d, hk, rfl⟩ := h
    cases List.mem_singleton.mp hc
    exact fun hm => hm.isStray.2.2.2 _ hk

-- A stray point stands behind no digit, or behind the places of a number.
theorem misplaced_of_pointSeam (hc : LexFault.IsStray c) (hs : PointSeam before (c :: rest)) :
    Misplaced before c := by
  by_cases hp : c = '.'
  case neg => exact misplaced_of_isStray hc hp
  case pos =>
    subst hp
    by_cases hd : ∀ d ∈ before.getLast?, d.isDigit = false
    case pos => exact .point hd
    case neg =>
      simp only [not_forall, Bool.not_eq_false] at hd
      have ⟨d, hm, hd⟩ := hd
      have ⟨start, places, he, hn, hp⟩ := hs.digits d hm hd rfl
      exact .secondPoint he hn hp

-- What comes of a text whose first part is cut into tokens: all of it is, or there is a first
-- character that is out of place. By induction on the items, where the seam is carried from each
-- piece to the next one.
theorem Tiled.tokens_or_fault (h : Tiled text before items) (ht : text = before ++ rest)
    (hw : WellPlaced before) (hs : PointSeam before rest) :
    (WellPlaced text ∧ ∃ tokens, items.mapM id = .ok tokens) ∨
      ∃ start c rest, text = start ++ c :: rest ∧ WellPlaced start ∧ Misplaced start c ∧
        items.mapM id = .error (.strayCharacter ⟨byteSize start, c.utf8Size⟩ c) := by
  induction h generalizing rest
  case last before blank ht' hb => exact .inl ⟨ht' ▸ hw.append_blank hb, _, rfl⟩
  case cons before blank piece after item items hb hc _ hi =>
    have hr : rest = blank ++ (piece ++ after) := by
      have := ht.symm.trans hc.split
      simpa using this
    subst hr
    have hs := hs.append_blank hb
    have hw := hw.append_blank hb
    rw [List.mapM_cons]
    cases item
    case ok token =>
      have hf := hc.fits.2
      cases hi hc.split (hw.append (not_misplaced_of_fits hf hs)) (.of_fits hf hc.ne_nil)
      case inl h =>
        have ⟨hw, tokens, hi⟩ := h
        exact .inl ⟨hw, token :: tokens, by rw [hi]; rfl⟩
      case inr h =>
        have ⟨start, c, rest, ht, hw, hm, hi⟩ := h
        exact .inr ⟨start, c, rest, ht, hw, hm, by rw [hi]; rfl⟩
    case error fault =>
      obtain ⟨c, hfault, rfl, hst⟩ := hc.fits.eq_strayCharacter
      have hp : fault.place = ⟨byteSize (before ++ blank), c.utf8Size⟩ := hc.span_eq
      refine .inr ⟨before ++ blank, c, after, ?_, hw, misplaced_of_pointSeam hst hs, ?_⟩
      · simpa using hc.split
      · rw [hfault, hp]
        rfl

theorem tokens_or_fault (text : String) :
    (WellPlaced text.toList ∧ ∃ tokens, tokenize text = .ok tokens) ∨
      ∃ before c after, text.toList = before ++ c :: after ∧ WellPlaced before ∧
        Misplaced before c ∧
        tokenize text = .error (.strayCharacter ⟨byteSize before, c.utf8Size⟩ c) :=
  have ht : Tiled text.toList [] (ofText text).items :=
    tiled_items (ofText text) rfl rfl (seam_nil _)
  ht.tokens_or_fault rfl wellPlaced_nil (.start _)

end Lexer

open Text

-- A text has tokens if and only if none of its characters is out of place. Otherwise its fault
-- tells of the first one that is, and of the offset of this one.
theorem tokenize_iff_wellPlaced (text : String) :
    ((∃ tokens, tokenize text = .ok tokens) ↔ WellPlaced text.toList) ∧
    ∀ fault, tokenize text = .error fault ↔
      ∃ before c after, text.toList = before ++ c :: after ∧ WellPlaced before ∧
        Misplaced before c ∧ fault = .strayCharacter ⟨byteSize before, c.utf8Size⟩ c := by
  cases Lexer.tokens_or_fault text
  case inl h =>
    have ⟨hw, tokens, ht⟩ := h
    refine ⟨iff_of_true ⟨tokens, ht⟩ hw, fun fault => ?_⟩
    rw [ht]
    refine iff_of_false nofun fun ⟨before, c, after, hs, _, hm, _⟩ => hw before c after hs hm
  case inr h =>
    have ⟨before, c, after, hs, hw, hm, ht⟩ := h
    rw [ht]
    refine ⟨iff_of_false nofun fun h => h before c after hs hm, fun fault => ⟨?_, ?_⟩⟩
    · intro hf
      cases hf
      exact ⟨before, c, after, hs, hw, hm, rfl⟩
    · intro ⟨before', c', after', hs', hw', hm', hf⟩
      obtain ⟨rfl, rfl⟩ := first_misplaced_unique (hs.symm.trans hs') hw hw' hm hm'
      rw [hf]

end Reckoner
