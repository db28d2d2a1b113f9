import Reckoner.Proofs.Lexer.Tiling
import Reckoner.Proofs.Number.Shape

/-!
Listings of tokens. Each one is a single line, since no token has a line feed in it, and only the
listing of the end begins as it does.
-/

namespace Reckoner

namespace Layout

theorem IsNumeric.not_mem {text : List Char} (h : IsNumeric text) : '\n' ∉ text :=
  fun hm => absurd (h.all _ hm) (by decide)

theorem not_mem_magnitude (layout : Layout) (bits : Nat) : '\n' ∉ layout.magnitude bits := by
  unfold magnitude
  split
  case isTrue => decide
  case isFalse =>
    split
    case isTrue => exact (layout.form_withoutExponent _).isNumeric_toDigits.not_mem
    case isFalse => exact (form_withExponent _).isNumeric_toDigits.not_mem

theorem not_mem_write (layout : Layout) (x : Float) : '\n' ∉ (layout.write x).toList := by
  rw [write, String.toList_ofList, chars]
  split
  case isTrue => decide
  case isFalse => split <;> simp [not_mem_magnitude]

end Layout

namespace Token

open Text

theorem Kind.not_mem_of_fits {before piece after : List Char} {kind : Kind}
    (h : kind.Fits before piece after) : '\n' ∉ piece := by
  intro hm
  have hs (h : ∃ c, kind.symbol? = some c ∧ piece = [c]) : False := by
    obtain ⟨c, hc, rfl⟩ := h
    cases List.mem_singleton.mp hm
    cases symbol?_eq_iff.mp hc
  cases kind
  case number =>
    have hn : IsNumber before piece after := h.1
    cases hn.isDigit_or_eq_point hm <;> contradiction
  case identifier => exact absurd (h.all _ hm) (by decide)
  all_goals exact hs h

theorem Kind.not_mem_name (kind : Kind) : '\n' ∉ kind.name.toList := by
  cases kind <;> simp [name]

theorem Kind.not_mem_valueText (kind : Kind) : '\n' ∉ kind.valueText.toList := by
  cases kind
  case number x => exact Layout.canonical.not_mem_write x
  all_goals simp [valueText]

-- The listing of the token of the end.
def lastListing : String :=
  "EOF  null"

theorem not_mem_listing {token : Token} (h : '\n' ∉ token.literal.toList) :
    '\n' ∉ token.listing.toList := by
  simp [listing, token.kind.not_mem_name, h, token.kind.not_mem_valueText]

theorem listing_ne_lastListing {token : Token} (h : token.kind ≠ .eof) :
    token.listing ≠ lastListing := by
  intro he
  have hc := congrArg (·.toList.head?) he
  simp only [listing, String.toList_append] at hc
  obtain ⟨kind, literal, offset⟩ := token
  cases kind
  case eof => exact h rfl
  all_goals simp [Kind.name, lastListing] at hc

end Token

end Reckoner
