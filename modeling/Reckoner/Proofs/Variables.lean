import Reckoner.Proofs.Agreement
import Reckoner.Proofs.Evaluation.Answered
import Reckoner.Proofs.Lexer.Tiling

/-!
The variables of a text that has a tree. They are those of the tree, in the order in which they
first occur in the text, and an evaluation in which nothing is bound asks for them in this order.
-/

namespace Reckoner

variable {functions : Functions} {source : Source} {tree : Tree} {name : String}

-- The name of a token that stands for a variable.
def Token.varName? (functions : Functions) (token : Token) : Option String :=
  if token.kind = .identifier ∧ functions.contains token.literal = false then some token.literal
  else none

-- The variables of a text, in the order in which they first occur in it.
def variablesIn (functions : Functions) (text : String) : List String :=
  match tokenize text with
  | .ok tokens => (tokens.filterMap (·.varName? functions)).eraseDups
  | .error _   => []

theorem variablesIn_of_tokens {text : String} {tokens : List Token}
    (h : tokenize text = .ok tokens) :
    variablesIn functions text = (tokens.filterMap (·.varName? functions)).eraseDups := by
  rw [variablesIn, h]

-- By induction on the phrase. Only its identifiers have names, and they stand in the tree in the
-- same order.
theorem Derives.varNames_eq {phrase : Phrase} {tokens : List Token}
    (h : Derives functions phrase tokens tree) :
    tree.varNames = tokens.filterMap (·.varName? functions) := by
  induction h
  case operand hi => exact hi
  case fold hk _ hl hr =>
    simp only [Tree.varNames, Tree.names, List.filterMap_append] at hl hr ⊢
    simp [hl, hr, Token.varName?, hk]
  case number hk => simp [Tree.varNames, Tree.names, Token.varName?, hk]
  case var hk hc => simp [Tree.varNames, Tree.names, Token.varName?, hk, hc]
  case call hk hc ho _ hp hi =>
    simp only [Tree.varNames, Tree.names] at hi ⊢
    simp [hi, Token.varName?, hk, hc, ho, hp]
  case group ho _ hp hi => simp [hi, Token.varName?, ho, hp]

theorem TokenStream.eq_nil_of_eof {offset : Nat} {before rest : List Token} {token : Token}
    (h : TokenStream offset (before ++ token :: rest)) (hk : token.kind = .eof) : rest = [] := by
  induction before generalizing offset
  case nil =>
    cases h
    case last => rfl
    case cons hn _ _ _ => exact absurd hk hn
  case cons first before hi =>
    rw [List.cons_append] at h
    generalize hb : before ++ token :: rest = tokens at h hi
    cases h
    case last => simp at hb
    case cons h => exact hi h

theorem fits_of_build (h : (build functions source).result = .ok tree) : tree.Fits functions :=
  fun _ hm => (of_mem_names_of_build h hm).1

theorem unbound_of_build (h : (build functions source).result = .ok tree) :
    tree.unbound functions ∅ = variablesIn functions source.text := by
  have ⟨tokens, ht, hp⟩ := build_eq_ok_iff.mp h
  obtain ⟨before, token, rest, rfl, hk, hd⟩ := Parser.derives_of_parse hp
  cases (tokenStream_of_tokenize ht).eq_nil_of_eof hk
  have hu : ∀ name ∈ tree.varNames,
      (!functions.contains name && (∅ : Variables)[name]?.isNone) = true := by
    intro name hm
    have ⟨⟨_, called⟩, hn, hc⟩ := List.mem_filterMap.mp hm
    cases called <;> simp only [Bool.false_eq_true, if_true, if_false, reduceCtorEq] at hc
    cases hc
    have hc : functions.contains name = false := fits_of_build h _ hn
    simp [hc]
  rw [variablesIn_of_tokens ht, Tree.unbound, unboundAmong, List.filter_eq_self.mpr hu,
    hd.varNames_eq]
  simp [Token.varName?, hk]

theorem forall_isAlphabetic_of_mem {text : String} (h : name ∈ variablesIn functions text) :
    ∀ c ∈ name.toList, Text.isAlphabetic c = true := by
  cases ht : tokenize text
  case error =>
    rw [variablesIn, ht] at h
    cases h
  case ok tokens =>
    rw [variablesIn_of_tokens ht, List.mem_eraseDups] at h
    obtain ⟨token, hm, hn⟩ := List.mem_filterMap.mp h
    rw [Token.varName?] at hn
    split at hn <;> cases hn
    case isTrue hk =>
      have ⟨_, _, hf⟩ := Lexer.fits_of_mem_items (mem_items_of_tokenize ht hm) (by simp [hk.1])
      rw [hk.1] at hf
      exact hf.all

-- No expression begins with an operator.
theorem ne_hyphen_of_build (h : (build functions source).result = .ok tree) (rest : List Char) :
    source.text.toList ≠ '-' :: rest := by
  intro he
  have ⟨tokens, ht, hp⟩ := build_eq_ok_iff.mp h
  have hs : Lexer.next? (Lexer.ofText source.text) =
      some (.ok ⟨.operator .minus, "-", 0⟩, ⟨rest, 1, false⟩) := by
    rw [Lexer.ofText, he]
    rfl
  have hi := tokenize_eq_ok_iff.mp ht
  rw [Lexer.items_of_next?_eq_some hs] at hi
  cases tokens
  case nil => cases hi
  case cons token tokens =>
    cases (List.cons.inj hi).1
    cases hp

end Reckoner
