import Reckoner.Proofs.Infix
import Reckoner.Proofs.Lexer.Values
import Reckoner.Proofs.Number.Written

/-!
The prefix form of trees. It tells a tree that was built from a text, but for one thing: an infinite
number is written like a variable of this name. No part of a text ends before a space or a closing
parenthesis comes, and its first character tells which kind of node it is for.
-/

namespace Reckoner

open Text

namespace Tree

variable {tree left right : Tree} {text text' rest rest' : List Char}

-- The tree with a variable in the place of each infinite number.
def nameInfinities : Tree → Tree
  | number value           => if value = Float.inf then var "inf" else number value
  | var name               => var name
  | call function argument => call function argument.nameInfinities
  | binary op left right   => binary op left.nameInfinities right.nameInfinities

theorem chars_nameInfinities (tree : Tree) : tree.nameInfinities.chars = tree.chars := by
  induction tree
  case number value =>
    rw [nameInfinities]
    split
    case isTrue h =>
      rw [h]
      rfl
    case isFalse => rfl
  case var => rfl
  case call hi => rw [nameInfinities, chars, chars, hi]
  case binary hl hr => rw [nameInfinities, chars, chars, hl, hr]

theorem nameInfinities_eq_self (h : Float.inf ∉ tree.numbers) : tree.nameInfinities = tree := by
  induction tree
  case number => exact if_neg fun he => h (List.mem_singleton.mpr he.symm)
  case var => rfl
  case call hi => rw [nameInfinities, hi h]
  case binary hl hr =>
    have ⟨h, h'⟩ := not_or.mp (mt List.mem_append.mpr h)
    rw [nameInfinities, hl h, hr h']

-- The trees whose prefix form can be taken apart: numbers are finite and have no sign, and names
-- consist of letters.
def Legible : Tree → Prop
  | number value           => IsMagnitude value ∧ value ≠ Float.inf
  | var name               => IsName name
  | call function argument => IsName function ∧ argument.Legible
  | binary _ left right    => left.Legible ∧ right.Legible

set_option maxRecDepth 4000 in
theorem isName_inf : IsName "inf" :=
  ⟨by decide, List.all_eq_true.mp (by cbv)⟩

theorem legible_nameInfinities (hn : ∀ name ∈ tree.names, IsName name.1)
    (hv : ∀ value ∈ tree.numbers, IsMagnitude value) : tree.nameInfinities.Legible := by
  induction tree
  case number value =>
    rw [nameInfinities]
    split
    case isTrue => exact isName_inf
    case isFalse h => exact ⟨hv value (List.mem_singleton_self _), h⟩
  case var name => exact hn _ (List.mem_singleton_self _)
  case call hi =>
    have ⟨hf, hn⟩ := List.forall_mem_cons.mp hn
    exact ⟨hf, hi hn hv⟩
  case binary hl hr =>
    have ⟨hn, hn'⟩ := List.forall_mem_append.mp hn
    have ⟨hv, hv'⟩ := List.forall_mem_append.mp hv
    exact ⟨hl hn hv, hr hn' hv'⟩

-- The characters that stand inside of a name or a number.
def isInner (c : Char) : Bool :=
  c != ' ' && c != ')'

-- What may follow a tree in prefix form.
def Closes (rest : List Char) : Prop :=
  ∀ c ∈ rest.head?, isInner c = false

theorem closes_cons {c : Char} (h : isInner c = false) : Closes (c :: rest) := by
  simpa [Closes] using h

theorem append_inj_of_closes (ht : ∀ c ∈ text, isInner c = true)
    (ht' : ∀ c ∈ text', isInner c = true) (hr : Closes rest) (hr' : Closes rest')
    (h : text ++ rest = text' ++ rest') : text = text' ∧ rest = rest' := by
  have ⟨h₁, h₂⟩ := Lexer.takeWhile_append_of_head ht hr
  have ⟨h₁', h₂'⟩ := Lexer.takeWhile_append_of_head ht' hr'
  rw [h] at h₁ h₂
  exact ⟨h₁.symm.trans h₁', h₂.symm.trans h₂'⟩

theorem IsName.isInner {name : String} (h : IsName name) : ∀ c ∈ name.toList, isInner c = true := by
  intro c hc
  have ha := h.2 c hc
  simp only [Tree.isInner, Bool.and_eq_true, bne_iff_ne]
  constructor
  all_goals
    rintro rfl
    exact absurd ha (by decide)

theorem isInner_of_mem_chars {value : Float} (h : IsMagnitude value) (hi : value ≠ Float.inf) :
    ∀ c ∈ Layout.canonical.chars value, isInner c = true := by
  intro c hc
  rcases (Layout.canonical.isNumeric_chars h hi).all c hc with hd | rfl | rfl | rfl
  · rw [isInner, Bool.and_eq_true, bne_iff_ne, bne_iff_ne]
    constructor
    all_goals
      rintro rfl
      cases hd
  all_goals rfl

-- The forms in which trees are written.
inductive Form
  | number
  | name
  | list

def form : Tree → Form
  | number _           => .number
  | var _              => .name
  | call .. | binary .. => .list

-- What a form begins with.
def Form.Begins : Form → Char → Prop
  | number, c => c.isDigit = true
  | name, c   => isAlphabetic c = true
  | list, c   => c = '('

theorem Form.begins_unique {form form' : Form} {c : Char} (h : form.Begins c)
    (h' : form'.Begins c) : form = form' := by
  have hd : c.isDigit = true → isAlphabetic c = false := isAlphabetic_eq_false_of_isDigit
  have hp : c = '(' → c.isDigit = false ∧ isAlphabetic c = false := by
    rintro rfl
    decide
  cases form <;> cases form' <;> simp_all [Begins]

theorem IsName.exists_cons {name : String} (h : IsName name) :
    ∃ c rest, name.toList = c :: rest ∧ isAlphabetic c = true := by
  have hn : name.toList ≠ [] := fun he => h.1 (String.toList_eq_nil_iff.mp he)
  have ⟨c, rest, hc⟩ := List.exists_cons_of_ne_nil hn
  exact ⟨c, rest, hc, h.2 c (hc ▸ List.mem_cons_self)⟩

theorem Legible.exists_begins (h : tree.Legible) :
    ∃ c rest, tree.chars = c :: rest ∧ tree.form.Begins c := by
  cases tree
  case number => exact (Layout.canonical.isNumeric_chars h.1 h.2).head
  case var => exact IsName.exists_cons h
  case call => exact ⟨'(', _, rfl, rfl⟩
  case binary => exact ⟨'(', _, rfl, rfl⟩

-- Trees that are written alike are of one form, since they begin with the same character.
theorem Legible.form_eq (hl : left.Legible) (hr : right.Legible)
    (h : left.chars ++ rest = right.chars ++ rest') : left.form = right.form := by
  have ⟨c, text, ht, hb⟩ := hl.exists_begins
  have ⟨c', text', ht', hb'⟩ := hr.exists_begins
  rw [ht, ht', List.cons_append, List.cons_append, List.cons.injEq] at h
  exact Form.begins_unique hb (h.1 ▸ hb')

theorem symbol_inj {op op' : Operator} (h : op.symbol = op'.symbol) : op = op' := by
  have hs := Operator.ofSymbol?_symbol op
  rw [h, Operator.ofSymbol?_symbol] at hs
  exact (Option.some.inj hs).symm

-- The word at the head of a list tells calls from operators.
theorem IsName.ne_symbol {name : String} (hn : IsName name) (op : Operator) :
    name.toList ++ text ≠ op.symbol :: text' := by
  have ⟨c, rest, hc, ha⟩ := hn.exists_cons
  rw [hc]
  rintro ⟨⟩
  rw [(Lexer.not_of_symbolKind? (Lexer.symbolKind?_symbol op)).2.1] at ha
  cases ha

-- By induction on the one tree and by cases on the other. What follows a part of a node closes it.
theorem Legible.append_inj (hl : left.Legible) (hr : right.Legible) (hc : Closes rest)
    (hc' : Closes rest') (h : left.chars ++ rest = right.chars ++ rest') :
    left = right ∧ rest = rest' := by
  have hspace (text : List Char) : Closes (' ' :: text) := closes_cons rfl
  have hparen (text : List Char) : Closes (')' :: text) := closes_cons rfl
  induction left generalizing right rest rest'
  case number x =>
    cases right <;> cases hl.form_eq hr h
    case number y =>
      have ⟨ht, ht'⟩ := append_inj_of_closes (isInner_of_mem_chars hl.1 hl.2)
        (isInner_of_mem_chars hr.1 hr.2) hc hc' h
      rw [(Layout.canonical.chars_inj hl.1 hr.1).mp ht]
      exact ⟨rfl, ht'⟩
  case var a =>
    cases right <;> cases hl.form_eq hr h
    case var b =>
      have ⟨ht, ht'⟩ := append_inj_of_closes (IsName.isInner hl) (IsName.isInner hr) hc hc' h
      rw [String.toList_inj.mp ht]
      exact ⟨rfl, ht'⟩
  case call f a hi =>
    cases right <;> cases hl.form_eq hr h
    all_goals simp only [chars, List.cons_append, List.append_assoc, List.cons.injEq, true_and] at h
    case call g b =>
      have ⟨ht, ht'⟩ := append_inj_of_closes hl.1.isInner hr.1.isInner (hspace _) (hspace _) h
      have ⟨ha, ha'⟩ := hi hl.2 hr.2 (hparen _) (hparen _) (List.cons.inj ht').2
      rw [String.toList_inj.mp ht, ha]
      exact ⟨rfl, (List.cons.inj ha').2⟩
    case binary op x y => exact absurd h (hl.1.ne_symbol op)
  case binary op a b hi hi' =>
    cases right <;> cases hl.form_eq hr h
    all_goals simp only [chars, List.cons_append, List.append_assoc, List.cons.injEq, true_and] at h
    case call g x => exact absurd h.symm (hr.1.ne_symbol op)
    case binary op' x y =>
      have ⟨ha, ha'⟩ := hi hl.1 hr.1 (hspace _) (hspace _) h.2
      have ⟨hb, hb'⟩ := hi' hl.2 hr.2 (hparen _) (hparen _) (List.cons.inj ha').2
      rw [symbol_inj h.1, ha, hb]
      exact ⟨rfl, (List.cons.inj hb').2⟩

end Tree

theorem legible_of_build {functions : Functions} {source : Source} {tree : Tree}
    (h : (build functions source).result = .ok tree) : tree.nameInfinities.Legible := by
  refine Tree.legible_nameInfinities (fun name hm => ?_) (isMagnitude_of_build h)
  have ⟨_, tokens, ht, token, htm, hk, hl⟩ := of_mem_names_of_build h hm
  have ⟨_, _, hf⟩ := Lexer.fits_of_mem_items (mem_items_of_tokenize ht htm) (by simp [hk])
  rw [hk, hl] at hf
  exact ⟨fun he => hf.ne_nil (String.toList_eq_nil_iff.mpr he), hf.all⟩

theorem Tree.equals_iff {left right : Tree} (hl : ∀ value ∈ left.numbers, IsMagnitude value)
    (hr : ∀ value ∈ right.numbers, IsMagnitude value) :
    left.equals right = true ↔ left = right := by
  induction left generalizing right
  case number x =>
    cases right <;> simp only [equals, reduceCtorEq, number.injEq]
    case number y =>
      exact (hl x (List.mem_singleton_self x)).beq_iff (hr y (List.mem_singleton_self y))
  case var => cases right <;> simp [equals]
  case call hi =>
    cases right <;> simp only [equals, Bool.false_eq_true, reduceCtorEq]
    case call b =>
      have he := @hi b hl hr
      simp only [Bool.and_eq_true, beq_iff_eq, he, call.injEq]
  case binary hi hi' =>
    cases right <;> simp only [equals, Bool.false_eq_true, reduceCtorEq]
    case binary =>
      have ⟨hl, hl'⟩ := List.forall_mem_append.mp hl
      have ⟨hr, hr'⟩ := List.forall_mem_append.mp hr
      simp only [Bool.and_eq_true, beq_iff_eq, hi hl hr, hi' hl' hr', binary.injEq, and_assoc]

-- Two trees that were built from texts are written alike exactly if they are the same up to
-- infinite numbers, which are written like a variable. So without infinite numbers the prefix form
-- tells trees apart as well as equality does, which is in turn the equality of their numbers.
theorem write_identifies_built_tree {functions functions' : Functions} {source source' : Source}
    {left right : Tree} (hl : (build functions source).result = .ok left)
    (hr : (build functions' source').result = .ok right) :
    (left.write = right.write ↔ left.nameInfinities = right.nameInfinities) ∧
    (left.equals right = true ↔ left = right) ∧
    (Float.inf ∉ left.numbers → Float.inf ∉ right.numbers →
      (left.write = right.write ↔ left = right) ∧
      (left.write = right.write ↔ left.equals right = true)) := by
  have hw : left.write = right.write ↔ left.nameInfinities = right.nameInfinities := by
    rw [Tree.write, Tree.write, String.ofList_inj, ← left.chars_nameInfinities,
      ← right.chars_nameInfinities]
    constructor
    case mp =>
      intro h
      have h : _ ++ [] = _ ++ [] := congrArg (· ++ []) h
      exact ((legible_of_build hl).append_inj (legible_of_build hr) (by simp [Tree.Closes])
        (by simp [Tree.Closes]) h).1
    case mpr => exact congrArg Tree.chars
  have he := Tree.equals_iff (isMagnitude_of_build hl) (isMagnitude_of_build hr)
  refine ⟨hw, he, fun hil hir => ?_⟩
  rw [Tree.nameInfinities_eq_self hil, Tree.nameInfinities_eq_self hir] at hw
  exact ⟨hw, hw.trans he.symm⟩

set_option maxRecDepth 4000 in
theorem write_of_overlong_number :
    let text := String.ofList ('1' :: List.replicate 309 '0')
    (build .builtin ⟨none, text⟩).result = .ok (.number Float.inf) ∧
    (build .builtin ⟨none, "inf"⟩).result = .ok (.var "inf") ∧
    (Tree.number Float.inf).write = (Tree.var "inf").write ∧
    (Tree.number Float.inf).equals (.var "inf") ≠ true := by
  intro text
  have hl : (build .builtin ⟨none, text⟩).result = .ok (.number Float.inf) := by
    refine build_overlong ?_ ?_
    · rw [String.toList_ofList]
      exact List.forall_mem_cons.mpr ⟨rfl, fun _ => Layout.isDigit_of_mem_zeros⟩
    · have hone : 10 * 0 + ('1'.toNat - '0'.toNat) = 1 := rfl
      rw [String.toList_ofList, Nat.ofDigitChars_cons, Numeral.ofDigitChars_zeros, hone, one_mul]
      exact Binary64.two_pow_le_ten_pow
  have hr : (build .builtin ⟨none, "inf"⟩).result = .ok (.var "inf") := by cbv
  have h := write_identifies_built_tree hl hr
  exact ⟨hl, hr, h.1.mpr (if_pos rfl), fun he => absurd (h.2.1.mp he) (by simp)⟩

end Reckoner
