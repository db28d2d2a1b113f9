import Reckoner.Proofs.Parser.Soundness

/-!
The language of the parser. The parser accepts a list of tokens exactly if the list begins with an
expression of the grammar and an end of input behind it, and it gives the tree of this expression.
-/

namespace Reckoner.Parser

-- The list begins with tokens that derive the tree and with an end of input behind them.
def Spells (functions : Functions) (tokens : List Token) (tree : Tree) : Prop :=
  ∃ (n : Nat) (h : n < tokens.length),
    tokens[n].kind = .eof ∧ Derives functions .expression (tokens.take n) tree

theorem spells_iff {functions : Functions} {tokens : List Token} {tree : Tree} :
    Spells functions tokens tree ↔
      ∃ before token rest, tokens = before ++ token :: rest ∧ token.kind = .eof ∧
        Derives functions .expression before tree := by
  constructor
  case mp =>
    intro ⟨n, hn, hk, hd⟩
    refine ⟨tokens.take n, tokens[n], tokens.drop (n + 1), ?_, hk, hd⟩
    rw [List.getElem_cons_drop, List.take_append_drop]
  case mpr =>
    intro ⟨before, token, rest, ht, hk, hd⟩
    subst ht
    exact ⟨before.length, by simp, by simpa using hk, by simpa using hd⟩

-- No prefix of a list has two trees, and neither has the list as a whole, although it may hold more
-- than one end of input: no expression reaches past the first one.
theorem parse_eq_ok_iff_spells (functions : Functions) (source : Source) (tokens : List Token) :
    (∀ tree, ((ofTokens functions source tokens).parse).1 = .ok tree ↔
      Spells functions tokens tree) ∧
    (∀ tree₁ tree₂, Spells functions tokens tree₁ → Spells functions tokens tree₂ →
      tree₁ = tree₂) ∧
    ∀ n tree₁ tree₂, Derives functions .expression (tokens.take n) tree₁ →
      Derives functions .expression (tokens.take n) tree₂ → tree₁ = tree₂ := by
  have h (tree : Tree) : ((ofTokens functions source tokens).parse).1 = .ok tree ↔
      Spells functions tokens tree := by
    rw [spells_iff]
    constructor
    case mp => exact derives_of_parse
    case mpr =>
      intro ⟨before, token, rest, ht, hk, hd⟩
      rw [ht]
      exact parse_of_derives hd hk
  refine ⟨h, ?_, fun n _ _ => derives_unique⟩
  intro tree₁ tree₂ h₁ h₂
  have h₁ := (h tree₁).mpr h₁
  have h₂ := (h tree₂).mpr h₂
  rw [h₁] at h₂
  exact Except.ok.inj h₂

end Reckoner.Parser
