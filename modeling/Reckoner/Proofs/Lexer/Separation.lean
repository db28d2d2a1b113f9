import Reckoner.Proofs.Lexer.Embedding
import Reckoner.Proofs.Lexer.Tiling

/-!
Texts apart from each other. White space between two texts keeps the lexer from seeing them as one:
it gives out the items of the first text and then those of the second one, further to the right.
-/

namespace Reckoner.Lexer

open Text

variable {rest blank : List Char} {offset : Nat}

theorem Item.shift_zero (item : Item) : item.shift 0 = item := by
  cases item
  case ok => rfl
  case error fault => cases fault <;> rfl

theorem delimits_blank (hb : Blank blank) (hn : blank ≠ []) : Delimits (blank ++ rest) := by
  have ⟨c, blank, he⟩ := List.exists_cons_of_ne_nil hn
  subst he
  intro c' hc
  cases hc
  exact .inl (hb c List.mem_cons_self)

-- Texts that stand further to the right have the same items further to the right.
theorem items_shift (rest : List Char) (offset distance : Nat) :
    items ⟨rest, offset + distance, false⟩ =
      (items ⟨rest, offset, false⟩).map (Item.shift distance) := by
  have ⟨inner, he, _, ha⟩ := exists_items_append ⟨rest, offset, false⟩ rfl
  have ha := ha [] delimits_nil distance
  rw [List.append_nil, items_end] at ha
  rw [ha, he, List.map_append, List.map_singleton]
  simp only [Item.shift, Token.shift, Nat.add_right_comm]

-- In front of white space a text has the items that it has on its own, but for its end.
theorem exists_items_before_blank (text : String) :
    ∃ inner, (ofText text).items = inner ++ [.ok ⟨.eof, "", text.utf8ByteSize⟩] ∧
      (∀ token, .ok token ∈ inner → token.kind ≠ .eof) ∧
      ∀ blank rest, Blank blank → blank ≠ [] →
        items ⟨text.toList ++ (blank ++ rest), 0, false⟩ =
          inner ++ items ⟨rest, byteSize (text.toList ++ blank), false⟩ := by
  have ⟨inner, he, hk, ha⟩ := exists_items_append (ofText text) rfl
  rw [ofText, Nat.zero_add, byteSize_toList] at he
  refine ⟨inner, he, hk, fun blank rest hb hn => ?_⟩
  have ha := ha (blank ++ rest) (delimits_blank hb hn) 0
  simp only [ofText, Nat.add_zero, Nat.zero_add] at ha
  rw [ha, items_blank hb, byteSize_append, funext Item.shift_zero, List.map_id']

-- The items of two texts with white space between them are those of the first text without its end
-- and those of the second one with all offsets moved behind the white space.
theorem items_separated (first blank second : String) (hb : Blank blank.toList) (hn : blank ≠ "") :
    ∃ inner, (ofText first).items = inner ++ [.ok ⟨.eof, "", first.utf8ByteSize⟩] ∧
      (∀ token, .ok token ∈ inner → token.kind ≠ .eof) ∧
      (ofText (first ++ blank ++ second)).items =
        inner ++ (ofText second).items.map (Item.shift (first ++ blank).utf8ByteSize) := by
  have ⟨inner, he, hk, ha⟩ := exists_items_before_blank first
  have hn : blank.toList ≠ [] := fun h => hn (String.toList_eq_nil_iff.mp h)
  refine ⟨inner, he, hk, ?_⟩
  have hl : byteSize (first.toList ++ blank.toList) = (first ++ blank).utf8ByteSize := by
    rw [← String.toList_append, byteSize_toList]
  have hs := items_shift second.toList 0 (first ++ blank).utf8ByteSize
  have ha := ha blank.toList second.toList hb hn
  rw [Nat.zero_add] at hs
  rw [hl, hs] at ha
  rwa [ofText, String.toList_append, String.toList_append, List.append_assoc]

-- The point behind the white space does not belong to the number before it.
theorem items_around_wide_space :
    Blank "\u3000".toList ∧ "\u3000" ≠ "" ∧
    (ofText "é1.").items =
      [.ok ⟨.identifier, "é", 0⟩, .ok ⟨.number 1, "1.", 2⟩, .ok ⟨.eof, "", 4⟩] ∧
    (ofText ".2").items =
      [.error (.strayCharacter ⟨0, 1⟩ '.'), .ok ⟨.number 2, "2", 1⟩, .ok ⟨.eof, "", 2⟩] ∧
    (ofText ("é1." ++ "\u3000" ++ ".2")).items =
      [.ok ⟨.identifier, "é", 0⟩, .ok ⟨.number 1, "1.", 2⟩, .error (.strayCharacter ⟨7, 1⟩ '.'),
        .ok ⟨.number 2, "2", 8⟩, .ok ⟨.eof, "", 9⟩] := by
  have hb : Blank "\u3000".toList := by
    intro c hc
    rw [List.mem_singleton.mp hc]
    decide
  have hf : (ofText "é1.").items =
      [.ok ⟨.identifier, "é", 0⟩, .ok ⟨.number 1, "1.", 2⟩, .ok ⟨.eof, "", 4⟩] := by
    have h₁ : (ofText "é1.").next? = some (.ok ⟨.identifier, "é", 0⟩, ⟨['1', '.'], 2, false⟩) := rfl
    have h₂ : next? ⟨['1', '.'], 2, false⟩ =
      some (.ok ⟨.number 1, "1.", 2⟩, ⟨[], 4, false⟩) := rfl
    rw [items_of_next?_eq_some h₁, items_of_next?_eq_some h₂, items_end]
  have hs : (ofText ".2").items =
      [.error (.strayCharacter ⟨0, 1⟩ '.'), .ok ⟨.number 2, "2", 1⟩, .ok ⟨.eof, "", 2⟩] := by
    have h₁ : (ofText ".2").next? = some (.error (.strayCharacter ⟨0, 1⟩ '.'), ⟨['2'], 1, false⟩) :=
      rfl
    have h₂ : next? ⟨['2'], 1, false⟩ = some (.ok ⟨.number 2, "2", 1⟩, ⟨[], 2, false⟩) := rfl
    rw [items_of_next?_eq_some h₁, items_of_next?_eq_some h₂, items_end]
  have ⟨inner, he, _, hw⟩ := items_separated "é1." "\u3000" ".2" hb (by decide)
  have hi : inner = [.ok ⟨.identifier, "é", 0⟩, .ok ⟨.number 1, "1.", 2⟩] :=
    List.append_cancel_right (he.symm.trans hf)
  refine ⟨hb, by decide, hf, hs, ?_⟩
  rw [hw, hs, hi]
  rfl

end Reckoner.Lexer
