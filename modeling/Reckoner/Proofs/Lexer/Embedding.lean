import Reckoner.Proofs.Grammar
import Reckoner.Proofs.Lexer.Yields

/-!
Texts inside of other texts. What the lexer gives out for a text, tokens and faults, does not depend
on where the text stands, as long as its last token cannot go on into what follows: only the offsets
are others, and the grammar does not look at these.
-/

namespace Reckoner

def Span.shift (distance : Nat) (span : Span) : Span :=
  { span with offset := span.offset + distance }

-- The token in a text that begins further to the right.
def Token.shift (distance : Nat) (token : Token) : Token :=
  { token with offset := token.offset + distance }

@[simp]
theorem Token.kind_shift (distance : Nat) (token : Token) :
    (token.shift distance).kind = token.kind :=
  rfl

@[simp]
theorem Token.literal_shift (distance : Nat) (token : Token) :
    (token.shift distance).literal = token.literal :=
  rfl

theorem Derives.shift {functions : Functions} {phrase : Phrase} {tokens : List Token} {tree : Tree}
    (h : Derives functions phrase tokens tree) (distance : Nat) :
    Derives functions phrase (tokens.map (·.shift distance)) tree := by
  induction h
  case operand hi => exact .operand hi
  case fold hs _ hl hr =>
    rw [List.map_append, List.map_cons]
    exact .fold hl hs hr
  case number hk => exact .number hk
  case var name hk hn => exact @Derives.var _ (name.shift distance) hk hn
  case call name opening closing _ _ hk hn ho _ hc hi =>
    have h := @Derives.call _ (name.shift distance) (opening.shift distance)
      (closing.shift distance) _ _ hk hn ho hi hc
    simpa using h
  case group opening closing _ _ ho _ hc hi =>
    have h := @Derives.group _ (opening.shift distance) (closing.shift distance) _ _ ho hi hc
    simpa using h

-- The fault in a text that begins further to the right.
def LexFault.shift (distance : Nat) : LexFault → LexFault
  | strayCharacter place c    => strayCharacter (place.shift distance) c
  | invalidNumber place cause => invalidNumber (place.shift distance) cause

namespace Lexer

open Text

def Item.shift (distance : Nat) : Item → Item
  | .ok token    => .ok (token.shift distance)
  | .error fault => .error (fault.shift distance)

variable {piece after rest : List Char} {offset : Nat} {token : Token} {item : Item}
variable {finished : Bool}

theorem number_append_of_delimits (text : List Char) (hd : Delimits rest) :
    number (text ++ rest) = ((number text).1, (number text).2 ++ rest) := by
  have hw (text : List Char) :=
    takeWhile_append_of_head_false text fun c hc => (hd.not_head c hc).1
  unfold number
  rw [(hw text).1, (hw text).2]
  cases text.dropWhile Char.isDigit
  case nil =>
    rw [List.nil_append]
    split
    case h_1 => exact absurd rfl (hd.not_head '.' rfl).2.2
    case h_2 => rfl
  case cons c text =>
    by_cases hc : c = '.'
    case pos => simp [hc, (hw text).1, (hw text).2]
    case neg => simp [hc]

theorem identifier_append_of_delimits (text : List Char) (hd : Delimits rest) :
    identifier (text ++ rest) = ((identifier text).1, (identifier text).2 ++ rest) := by
  have ⟨ht, hr⟩ := takeWhile_append_of_head_false text fun c hc => (hd.not_head c hc).2.1
  rw [identifier, ht, hr, identifier]

theorem numberItem_shift (lexeme : List Char) (offset distance : Nat) :
    numberItem lexeme (offset + distance) = (numberItem lexeme offset).shift distance := by
  unfold numberItem
  split <;> rfl

namespace Cut

theorem scan_eq (h : Cut offset piece rest item) :
    scan finished (piece ++ rest) offset =
      some (item, ⟨rest, offset + byteSize piece, finished⟩) := by
  cases h
  case symbol hk => exact scan_symbol hk
  case number hd =>
    rw [number_append]
    exact scan_digit hd
  case identifier ha =>
    rw [identifier_append]
    exact scan_alphabetic ha
  case stray hk hd ha hw => simp [scan, hk, hd, ha, hw]

-- A piece that is cut from a text is also cut from the text in its surroundings.
theorem append (h : Cut offset piece after item) (hd : Delimits rest) (distance : Nat) :
    Cut (offset + distance) piece (after ++ rest) (item.shift distance) := by
  cases h
  case symbol hk => exact .symbol hk
  case number c text hc =>
    have h := @Cut.number (offset + distance) c (text ++ rest) hc
    rwa [← List.cons_append, number_append_of_delimits _ hd, numberItem_shift] at h
  case identifier c text ha =>
    have h := @Cut.identifier (offset + distance) c (text ++ rest) ha
    rwa [← List.cons_append, identifier_append_of_delimits _ hd] at h
  case stray hk hd ha hw => exact .stray hk hd ha hw

end Cut

-- By induction on the items: what a text gives out before its end, it also gives out where more
-- text follows it, and wherever it stands.
theorem exists_items_append (lexer : Lexer) (hf : lexer.finished = false) :
    ∃ inner, lexer.items = inner ++ [.ok ⟨.eof, "", lexer.offset + byteSize lexer.rest⟩] ∧
      (∀ token, .ok token ∈ inner → token.kind ≠ .eof) ∧
      ∀ rest, Delimits rest → ∀ distance,
        items ⟨lexer.rest ++ rest, lexer.offset + distance, false⟩ =
          inner.map (Item.shift distance) ++
            items ⟨rest, lexer.offset + distance + byteSize lexer.rest, false⟩ := by
  induction lexer using items.induct
  case case1 lexer hn =>
    rw [next?, hf] at hn
    exact absurd hn (scan_ne_none _ _)
  case case2 lexer item next hn hi =>
    rw [items_of_next?_eq_some hn]
    cases scan_eq_some hn
    case inl hs =>
      obtain ⟨blank, piece, after, ht, hb, hc, rfl⟩ := hs
      obtain ⟨inner, he, hk, hi⟩ := hi hf
      refine ⟨item :: inner, ?last, fun token hm => ?kind, fun rest hd distance => ?items⟩
      case last =>
        rw [he, ht]
        simp only [byteSize_append, Nat.add_assoc, List.cons_append]
      case kind =>
        cases List.mem_cons.mp hm
        case inl h => exact (h ▸ hc).kind_ne_eof
        case inr h => exact hk token h
      case items =>
        have hn : next? ⟨piece ++ (after ++ rest), _, false⟩ = _ := (hc.append hd distance).scan_eq
        have ho : lexer.offset + byteSize blank + byteSize piece + distance =
            lexer.offset + byteSize blank + distance + byteSize piece := by omega
        have hi := hi rest hd distance
        rw [ho] at hi
        rw [ht, List.append_assoc, List.append_assoc, items_blank hb, Nat.add_right_comm,
          items_of_next?_eq_some hn, hi]
        simp only [List.map_cons, List.cons_append, byteSize_append]
        congr 4
        omega
    case inr hs =>
      obtain ⟨hb, _, rfl, rfl⟩ := hs
      rw [items_of_next?_eq_none rfl]
      exact ⟨[], rfl, by simp, fun rest _ distance => items_blank hb⟩

-- A run over a text without a fault.
theorem yields_append {lexer : Lexer} {before more : List Token} (hf : lexer.finished = false)
    (hi : lexer.items = (before ++ token :: more).map .ok) (hk : token.kind = .eof)
    (hd : Delimits rest) (distance : Nat) :
    Yields ⟨lexer.rest ++ rest, lexer.offset + distance, false⟩ (before.map (·.shift distance))
      ⟨rest, lexer.offset + distance + byteSize lexer.rest, false⟩ := by
  obtain ⟨inner, he, hn, ha⟩ := lexer.exists_items_append hf
  rw [hi, List.map_append, List.map_cons] at he
  have hb : before.map .ok = inner := by
    cases List.append_eq_append_iff.mp he
    case inl h =>
      obtain ⟨tail, rfl, ht⟩ := h
      cases tail
      case nil => rw [List.append_nil]
      case cons first tail =>
        cases (List.cons.inj ht).1
        exact absurd hk (hn token (List.mem_append_right _ List.mem_cons_self))
    case inr h =>
      obtain ⟨tail, hb, ht⟩ := h
      cases tail
      case nil => rw [hb, List.append_nil]
      case cons first tail => cases tail <;> simp at ht
  rw [Yields, ha rest hd distance, ← hb, List.map_map, List.map_map]
  rfl

end Lexer

end Reckoner
