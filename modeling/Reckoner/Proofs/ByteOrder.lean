import Reckoner.Proofs.Typed

/-!
The order of texts is the order of their bytes. A character that comes first has bytes that come
first: more bytes have a greater lead byte, and as many bytes are the digits of a greater number.
-/

namespace Reckoner

-- A number in digits to the base 64, each marked as a byte that continues a character, behind a
-- lead byte with a mark of its own.
def marked (mark : Nat) : Nat → Nat → List UInt8
  | 0, v     => [UInt8.ofNat (v + mark)]
  | n + 1, v => marked mark n (v / 64) ++ [UInt8.ofNat (v % 64 + 128)]

section

variable {mark bound n v w : Nat} {rest rest' : List UInt8}

theorem byte_lt (h : v < w) (hw : w < 256) : UInt8.ofNat v < UInt8.ofNat w := by
  rw [UInt8.lt_iff_toNat_lt, UInt8.toNat_ofNat', UInt8.toNat_ofNat']
  omega

-- By induction on the digits behind the lead byte: the first ones differ, or the last one does.
theorem marked_lt (hm : bound + mark ≤ 256) (h : v < w) (hw : w < bound * 64 ^ n) :
    marked mark n v ++ rest < marked mark n w ++ rest' := by
  induction n generalizing v w rest rest'
  case zero => exact List.cons_lt_cons_iff.mpr (.inl (byte_lt (by omega) (by omega)))
  case succ n hi =>
    simp only [marked, List.append_assoc, List.singleton_append]
    cases Nat.lt_or_eq_of_le (Nat.div_le_div_right h.le)
    case inl hd =>
      rw [pow_succ, ← mul_assoc] at hw
      exact hi hd (by omega)
    case inr hd =>
      rw [hd]
      refine List.append_left_lt (List.cons_lt_cons_iff.mpr (.inl ?_))
      have hl : v % 64 < w % 64 := by omega
      exact byte_lt (by omega) (by omega)

theorem exists_marked_eq (mark n v : Nat) :
    ∃ more, marked mark n v = UInt8.ofNat (v / 64 ^ n + mark) :: more := by
  induction n generalizing v
  case zero => exact ⟨[], by simp [marked]⟩
  case succ n hi =>
    have ⟨more, hm⟩ := hi (v / 64)
    refine ⟨more ++ [UInt8.ofNat (v % 64 + 128)], ?_⟩
    rw [marked, hm, Nat.div_div_eq_div_mul, ← Nat.pow_succ', List.cons_append]

theorem marked_lt_of_lead_lt {mark' n' : Nat} (h : v / 64 ^ n + mark < w / 64 ^ n' + mark')
    (hw : w / 64 ^ n' + mark' < 256) :
    marked mark n v ++ rest < marked mark' n' w ++ rest' := by
  have ⟨more, hm⟩ := exists_marked_eq mark n v
  have ⟨more', hm'⟩ := exists_marked_eq mark' n' w
  rw [hm, hm', List.cons_append, List.cons_append]
  exact List.cons_lt_cons_iff.mpr (.inl (byte_lt h hw))

end

-- The number of bytes behind the lead byte of a character.
def continuations (c : Char) : Nat :=
  if c.toNat ≤ 0x7F then 0 else if c.toNat ≤ 0x7FF then 1 else if c.toNat ≤ 0xFFFF then 2 else 3

-- The lead bytes with some bytes behind them: the least one, and how many there are.
def leadMark : Nat → Nat
  | 0 => 0
  | 1 => 0xC0
  | 2 => 0xE0
  | _ => 0xF0

def leadCount : Nat → Nat
  | 0 => 0x80
  | 1 => 0x20
  | 2 => 0x10
  | _ => 0x08

theorem continuations_le (c : Char) : continuations c ≤ 3 := by
  unfold continuations
  split_ifs <;> omega

theorem continuations_mono {c d : Char} (h : c.toNat < d.toNat) :
    continuations c ≤ continuations d := by
  unfold continuations
  split_ifs <;> omega

theorem toNat_lt_leads (c : Char) :
    c.toNat < leadCount (continuations c) * 64 ^ continuations c := by
  have h : c.toNat.isValidChar := c.valid
  unfold Nat.isValidChar at h
  unfold continuations
  split_ifs <;> simp only [leadCount] <;> omega

-- The more bytes follow, the greater is the lead byte.
theorem leads_disjoint : ∀ n ≤ 3, ∀ m < n, leadCount m + leadMark m ≤ leadMark n := by
  decide

theorem leads_le : ∀ n ≤ 3, leadCount n + leadMark n ≤ 256 := by
  decide

theorem utf8EncodeChar_eq_marked (c : Char) :
    String.utf8EncodeChar c = marked (leadMark (continuations c)) (continuations c) c.toNat := by
  have h := toNat_lt_leads c
  have hv : c.val.toNat = c.toNat := rfl
  simp only [String.utf8EncodeChar, hv]
  unfold continuations at h ⊢
  generalize c.toNat = v at h
  split_ifs at h ⊢ <;> simp only [leadCount] at h <;>
    simp only [marked, leadMark, Nat.div_div_eq_div_mul]
  case pos => rfl
  case pos =>
    rw [Nat.mod_eq_of_lt (show v / 64 < 32 by omega)]
    rfl
  case pos =>
    rw [Nat.mod_eq_of_lt (show v / 4096 < 16 by omega)]
    rfl
  case neg =>
    rw [Nat.mod_eq_of_lt (show v / 262144 < 8 by omega)]
    rfl

theorem utf8EncodeChar_append_lt {c d : Char} (h : c < d) (rest rest' : List UInt8) :
    String.utf8EncodeChar c ++ rest < String.utf8EncodeChar d ++ rest' := by
  have h : c.toNat < d.toNat := h
  have hc := toNat_lt_leads c
  have hd := toNat_lt_leads d
  have hl := leads_le _ (continuations_le d)
  rw [utf8EncodeChar_eq_marked, utf8EncodeChar_eq_marked]
  cases Nat.lt_or_eq_of_le (continuations_mono h)
  case inl hn =>
    have hc := Nat.div_lt_of_lt_mul (mul_comm _ (leadCount _) ▸ hc)
    have hd := Nat.div_lt_of_lt_mul (mul_comm _ (leadCount _) ▸ hd)
    refine marked_lt_of_lead_lt ?_ (Nat.lt_of_lt_of_le (Nat.add_lt_add_right hd _) hl)
    calc
      c.toNat / 64 ^ continuations c + leadMark (continuations c)
        < leadCount (continuations c) + leadMark (continuations c) := Nat.add_lt_add_right hc _
      _ ≤ leadMark (continuations d) := leads_disjoint _ (continuations_le d) _ hn
      _ ≤ d.toNat / 64 ^ continuations d + leadMark (continuations d) := Nat.le_add_left _ _
  case inr hn =>
    rw [hn]
    exact marked_lt hl h hd

theorem flatMap_utf8EncodeChar_lt {chars chars' : List Char} (h : chars < chars') :
    chars.flatMap String.utf8EncodeChar < chars'.flatMap String.utf8EncodeChar := by
  induction h
  case nil c chars =>
    cases hb : String.utf8EncodeChar c
    case nil =>
      have hl := String.length_utf8EncodeChar c
      rw [hb] at hl
      exact absurd hl c.utf8Size_pos.ne
    case cons byte bytes =>
      rw [List.flatMap_cons, hb]
      exact List.nil_lt_cons _ _
  case rel h => exact utf8EncodeChar_append_lt h _ _
  case cons hi => exact List.append_left_lt hi

theorem encodeText_lt {text text' : String} (h : text < text') :
    encodeText text < encodeText text' := by
  rw [encodeText_eq_flatMap, encodeText_eq_flatMap]
  exact flatMap_utf8EncodeChar_lt (String.lt_iff.mp h)

end Reckoner
