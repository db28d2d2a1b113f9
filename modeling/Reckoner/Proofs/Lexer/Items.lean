import Reckoner.Proofs.Lexer.Scan

/-!
The items that the lexer gives out, and the tokens of a text. The token of the end comes last and
only there, and each token lies behind the one before it.
-/

namespace Reckoner

namespace Lexer

open Text

variable {lexer next : Lexer} {item : Item} {rest : List Char} {offset : Nat} {finished : Bool}

theorem items_of_next?_eq_some (h : lexer.next? = some (item, next)) :
    lexer.items = item :: next.items := by
  rw [items]
  split <;> simp_all

theorem items_of_next?_eq_none (h : lexer.next? = none) : lexer.items = [] := by
  rw [items]
  split <;> simp_all

theorem items_end : items ⟨[], offset, false⟩ = [.ok ⟨.eof, "", offset⟩] := by
  have hn : next? ⟨[], offset, false⟩ = some (.ok ⟨.eof, "", offset⟩, ⟨[], offset, true⟩) := rfl
  rw [items_of_next?_eq_some hn, items_of_next?_eq_none rfl]

theorem items_blank {blank : List Char} (h : Blank blank) :
    items ⟨blank ++ rest, offset, finished⟩ = items ⟨rest, offset + byteSize blank, finished⟩ := by
  have hn : next? ⟨blank ++ rest, offset, finished⟩ =
      next? ⟨rest, offset + byteSize blank, finished⟩ := scan_blank h
  cases hr : next? ⟨rest, offset + byteSize blank, finished⟩
  case none => rw [items_of_next?_eq_none hr, items_of_next?_eq_none (hn.trans hr)]
  case some => rw [items_of_next?_eq_some hr, items_of_next?_eq_some (hn.trans hr)]

end Lexer

-- Tokens that lie one behind the other, from an offset on, and of which the last one and no other
-- is that of the end.
inductive TokenStream : Nat → List Token → Prop
  | last {offset : Nat} {token : Token} :
    offset ≤ token.offset → token.kind = .eof → TokenStream offset [token]
  | cons {offset next : Nat} {token : Token} {rest : List Token} :
    offset ≤ token.offset → token.kind ≠ .eof → token.offset < next → TokenStream next rest →
    TokenStream offset (token :: rest)

namespace TokenStream

variable {offset : Nat} {tokens : List Token}

theorem le_offset (h : TokenStream offset tokens) : ∀ token ∈ tokens, offset ≤ token.offset := by
  induction h
  case last ho _ => simpa using ho
  case cons ho _ hn _ hi =>
    intro token hm
    cases hm
    case head => exact ho
    case tail hm => exact Nat.le_trans (Nat.le_trans ho (Nat.le_of_lt hn)) (hi token hm)

theorem pairwise (h : TokenStream offset tokens) :
    tokens.Pairwise (·.offset < ·.offset) := by
  induction h
  case last => exact List.pairwise_singleton _ _
  case cons _ _ hn h hi =>
    exact .cons (fun token hm => Nat.lt_of_lt_of_le hn (h.le_offset token hm)) hi

theorem exists_eof (h : TokenStream offset tokens) : ∃ token ∈ tokens, token.kind = .eof := by
  induction h
  case last token _ hk => exact ⟨token, List.mem_singleton_self token, hk⟩
  case cons hi =>
    have ⟨token, hm, hk⟩ := hi
    exact ⟨token, List.mem_cons_of_mem _ hm, hk⟩

end TokenStream

theorem mapM_id_eq_ok_iff {ε α : Type} {items : List (Except ε α)} {values : List α} :
    items.mapM id = .ok values ↔ items = values.map .ok := by
  induction items generalizing values
  case nil => cases values <;> simp [pure, Except.pure]
  case cons item items hi =>
    rw [List.mapM_cons]
    cases values
    case nil => cases item <;> cases items.mapM id <;> simp [bind, Except.bind, pure, Except.pure]
    case cons value values =>
      rw [List.map_cons, List.cons.injEq, ← hi]
      cases item <;> cases items.mapM id <;> simp [bind, Except.bind, pure, Except.pure]

theorem tokenize_eq_ok_iff {text : String} {tokens : List Token} :
    tokenize text = .ok tokens ↔ (Lexer.ofText text).items = tokens.map .ok :=
  mapM_id_eq_ok_iff

theorem mem_items_of_tokenize {text : String} {tokens : List Token} {token : Token}
    (h : tokenize text = .ok tokens) (hm : token ∈ tokens) :
    .ok token ∈ (Lexer.ofText text).items :=
  tokenize_eq_ok_iff.mp h ▸ List.mem_map_of_mem hm

theorem tokenStream_of_items {lexer : Lexer} {tokens : List Token} (hf : lexer.finished = false)
    (h : lexer.items = tokens.map .ok) : TokenStream lexer.offset tokens := by
  induction lexer using Lexer.items.induct generalizing tokens
  case case1 lexer hn =>
    rw [Lexer.next?, hf] at hn
    exact absurd hn (Lexer.scan_ne_none _ _)
  case case2 lexer item next hn hi =>
    rw [Lexer.items_of_next?_eq_some hn] at h
    cases tokens <;> simp only [List.map_nil, List.map_cons, List.cons.injEq, reduceCtorEq] at h
    case cons token rest =>
      obtain ⟨rfl, hr⟩ := h
      cases Lexer.scan_eq_some hn
      case inl hs =>
        obtain ⟨blank, lexeme, rest', _, _, hc, rfl⟩ := hs
        have ho := hc.offset_eq
        have hp := byteSize_pos hc.ne_nil
        have hlt : token.offset < lexer.offset + byteSize blank + byteSize lexeme := by omega
        exact .cons (by omega) hc.kind_ne_eof hlt (hi hf hr)
      case inr hs =>
        obtain ⟨_, _, ht, rfl⟩ := hs
        cases ht
        rw [Lexer.items_of_next?_eq_none rfl] at hr
        rw [List.map_eq_nil_iff.mp hr.symm]
        exact .last (Nat.le_add_right ..) rfl

theorem tokenStream_of_tokenize {text : String} {tokens : List Token}
    (h : tokenize text = .ok tokens) : TokenStream 0 tokens :=
  tokenStream_of_items rfl (tokenize_eq_ok_iff.mp h)

end Reckoner
