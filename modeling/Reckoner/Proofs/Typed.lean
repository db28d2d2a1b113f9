import Reckoner.Proofs.Console

/-!
Lines of text at a console. The bytes of a text give the text back, and no part of another character
looks like a line feed. So the lines that are read are those that were typed.
-/

namespace Reckoner

theorem encodeText_eq_flatMap (text : String) :
    encodeText text = text.toList.flatMap String.utf8EncodeChar := by
  rw [encodeText, String.toUTF8_eq_toByteArray, ← String.utf8Encode_toList, List.utf8Encode,
    List.toList_data_toByteArray]

theorem decodeText?_encodeText (text : String) : decodeText? (encodeText text) = some text :=
  dif_pos text.isValidUTF8

theorem encodeText_append (text more : String) :
    encodeText (text ++ more) = encodeText text ++ encodeText more := by
  simp only [encodeText_eq_flatMap, String.toList_append, List.flatMap_append]

theorem encodeText_ne_nil {text : String} (h : text ≠ "") : encodeText text ≠ [] := by
  intro he
  have hd := decodeText?_encodeText text
  rw [he] at hd
  exact h (Option.some.inj hd).symm

theorem ne_line_feed_of_mem_utf8EncodeChar {c : Char} (h : c ≠ '\n') :
    ∀ byte ∈ String.utf8EncodeChar c, byte ≠ 10 := by
  intro byte hm hb
  have hb : byte.toNat = 10 := congrArg UInt8.toNat hb
  have hn : c.val.toNat ≠ 10 := fun hn => h (Char.ext (UInt32.toNat_inj.mp hn))
  simp only [String.utf8EncodeChar] at hm
  split at hm <;> try split at hm <;> try split at hm
  all_goals
    simp only [List.mem_cons, List.not_mem_nil, or_false, ← UInt8.toNat_inj,
      UInt8.toNat_ofNat'] at hm
    omega

namespace Console

theorem splitLine_append {bytes : List UInt8} (h : ∀ byte ∈ bytes, byte ≠ 10)
    (rest : List UInt8) :
    splitLine (bytes ++ rest) = (bytes ++ (splitLine rest).1, (splitLine rest).2) := by
  induction bytes
  case nil => rfl
  case cons byte bytes hi =>
    have ⟨hb, ht⟩ := List.forall_mem_cons.mp h
    rw [List.cons_append, splitLine, if_neg hb, hi ht]
    rfl

variable {line : String} {lines : List String} {input : List UInt8}

theorem splitLine_encodeText_append (h : '\n' ∉ line.toList) (rest : List UInt8) :
    splitLine (encodeText line ++ rest) =
      (encodeText line ++ (splitLine rest).1, (splitLine rest).2) := by
  refine splitLine_append (fun byte hm => ?_) rest
  rw [encodeText_eq_flatMap] at hm
  have ⟨c, hc, hm⟩ := List.mem_flatMap.mp hm
  exact ne_line_feed_of_mem_utf8EncodeChar (fun he => h (he ▸ hc)) byte hm

theorem splitLine_line (h : '\n' ∉ line.toList) (rest : List UInt8) :
    splitLine (encodeText (line ++ "\n") ++ rest) = (encodeText (line ++ "\n"), rest) := by
  rw [encodeText_append, List.append_assoc, splitLine_encodeText_append h]
  rfl

-- Lines that are typed, and what may be typed behind them. The last line need not be ended if there
-- is nothing behind it.
inductive Typed : List String → List UInt8 → Prop
  | nil {rest : List UInt8} : Typed [] rest
  | cons {line : String} {lines : List String} {rest : List UInt8} :
    Typed lines rest → Typed (line :: lines) (encodeText (line ++ "\n") ++ rest)
  | last {line : String} : line ≠ "" → Typed [line] (encodeText line)

theorem Typed.next (h : Typed (line :: lines) input) (hl : '\n' ∉ line.toList) :
    input ≠ [] ∧ Typed lines (splitLine input).2 ∧
      ∃ ending, (ending = "\n" ∨ ending = "") ∧
        decodeText? (splitLine input).1 = some (line ++ ending) := by
  cases h
  case cons rest h =>
    rw [splitLine_line hl]
    refine ⟨?_, h, "\n", .inl rfl, decodeText?_encodeText _⟩
    rw [encodeText_append]
    simp [encodeText_ne_nil]
  case last h =>
    have hs := splitLine_encodeText_append hl []
    rw [List.append_nil] at hs
    rw [hs]
    refine ⟨encodeText_ne_nil h, .nil, "", .inr rfl, ?_⟩
    rw [splitLine, List.append_nil, String.append_empty]
    exact decodeText?_encodeText line

end Console

end Reckoner
