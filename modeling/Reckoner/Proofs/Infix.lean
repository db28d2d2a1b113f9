import Reckoner.Proofs.Calculation
import Reckoner.Proofs.Lexer.Yields
import Reckoner.Proofs.Parser.Completeness

/-!
Trees as infix text, and back. A tree can be written in many ways: operands stand in parentheses
where they have to and wherever else one likes, and white space stands wherever tokens meet. All of
these texts are built to the same tree again.
-/

namespace Reckoner

open Text Lexer

namespace Tree

-- The root of the tree is an operator that binds looser than the given level.
def LooserThan (level : Nat) : Tree → Prop
  | binary op _ _ => op.precedence < level
  | _ => False

instance (level : Nat) : (tree : Tree) → Decidable (tree.LooserThan level)
  | binary op _ _ => inferInstanceAs (Decidable (op.precedence < level))
  | number _ | var _ | call .. => inferInstanceAs (Decidable False)

-- The text of a tree with only the parentheses that it needs and without white space. The operand
-- on the left of an operator needs them if it binds looser than this operator, and that on the
-- right also if it binds as tightly.
def infixChars (literal : Float → List Char) : Tree → List Char
  | number value => literal value
  | var name => name.toList
  | call function argument => function.toList ++ '(' :: argument.infixChars literal ++ [')']
  | binary op left right =>
    operand op.precedence left (left.infixChars literal) ++ op.symbol ::
      operand (op.precedence + 1) right (right.infixChars literal)
where
  operand (level : Nat) (tree : Tree) (text : List Char) : List Char :=
    if tree.LooserThan level then '(' :: text ++ [')'] else text

-- The names of a tree that can be written.
def IsName (name : String) : Prop :=
  name ≠ "" ∧ ∀ c ∈ name.toList, isAlphabetic c = true

-- The trees that have a text: numbers are the values of literals, and the registry holds the names
-- with an argument and none of those without one.
def Expressible (functions : Functions) : Tree → Prop
  | number value => ∃ literal, Literal literal ∧ Numeral.read literal = .ok value
  | var name => IsName name ∧ functions.contains name = false
  | call function argument =>
    IsName function ∧ functions.contains function = true ∧ argument.Expressible functions
  | binary _ left right => left.Expressible functions ∧ right.Expressible functions

-- All texts of a tree, and whether they are in parentheses as a whole. What needs parentheses has
-- them, everything else may have them too, and white space stands wherever tokens meet.
inductive Written : Tree → Bool → List Char → Prop
  | number {value : Float} {literal : List Char} :
    Literal literal → Numeral.read literal = .ok value → Written (.number value) false literal
  | var {name : String} : Written (.var name) false name.toList
  | call {function : String} {argument : Tree} {enclosed : Bool} {text : List Char}
    {blank₁ blank₂ blank₃ : List Char} :
    Written argument enclosed text → Blank blank₁ → Blank blank₂ → Blank blank₃ →
    Written (.call function argument) false
      (function.toList ++ blank₁ ++ ('(' :: blank₂ ++ text ++ blank₃ ++ [')']))
  | binary {op : Operator} {left right : Tree} {enclosed₁ enclosed₂ : Bool}
    {text₁ text₂ blank₁ blank₂ : List Char} :
    Written left enclosed₁ text₁ → (left.LooserThan op.precedence → enclosed₁ = true) →
    Written right enclosed₂ text₂ → (right.LooserThan (op.precedence + 1) → enclosed₂ = true) →
    Blank blank₁ → Blank blank₂ →
    Written (.binary op left right) false (text₁ ++ blank₁ ++ op.symbol :: blank₂ ++ text₂)
  | enclosed {tree : Tree} {enclosed : Bool} {text blank₁ blank₂ : List Char} :
    Written tree enclosed text → Blank blank₁ → Blank blank₂ →
    Written tree true ('(' :: blank₁ ++ text ++ blank₂ ++ [')'])

variable {functions : Functions} {tree : Tree} {text : List Char}

theorem not_looserThan_one (tree : Tree) : ¬tree.LooserThan 1 := by
  cases tree
  case binary op _ _ => cases op <;> simp [LooserThan, Operator.precedence]
  all_goals exact id

theorem Written.exists_operand (h : Written tree false text) (level : Nat) :
    ∃ enclosed, Written tree enclosed (infixChars.operand level tree text) ∧
      (tree.LooserThan level → enclosed = true) := by
  have hb := blank_nil
  unfold infixChars.operand
  split
  case isTrue => exact ⟨true, by simpa using h.enclosed hb hb, fun _ => rfl⟩
  case isFalse hl => exact ⟨false, h, fun h => absurd h hl⟩

-- With a literal for each number, the text with the fewest parentheses is a text of the tree.
theorem Expressible.exists_written_infixChars (h : tree.Expressible functions) :
    ∃ literal, Written tree false (tree.infixChars literal) := by
  let LiteralOf (value : Float) (text : List Char) :=
    Literal text ∧ Numeral.read text = .ok value
  refine ⟨fun value => Classical.epsilon (LiteralOf value), ?_⟩
  have hb := blank_nil
  induction tree
  case number value =>
    have hl : LiteralOf value _ := Classical.epsilon_spec h
    exact .number hl.1 hl.2
  case var => exact .var
  case call hi => simpa [infixChars] using Written.call (hi h.2.2) hb hb hb
  case binary op left right hi₁ hi₂ =>
    obtain ⟨enclosed₁, hw₁, hn₁⟩ := (hi₁ h.1).exists_operand op.precedence
    obtain ⟨enclosed₂, hw₂, hn₂⟩ := (hi₂ h.2).exists_operand (op.precedence + 1)
    simpa [infixChars] using Written.binary hw₁ hn₁ hw₂ hn₂ hb hb

-- In any surroundings the text is cut into tokens that are a phrase with the tree.
def ReadAs (functions : Functions) (phrase : Phrase) (text : List Char) (tree : Tree) : Prop :=
  ∀ offset rest, Delimits rest → ∃ tokens offset',
    Yields ⟨text ++ rest, offset, false⟩ tokens ⟨rest, offset', false⟩ ∧
      Derives functions phrase tokens tree

variable {blank₁ blank₂ : List Char}

theorem ReadAs.loosen {loose tight : Phrase} (h : ReadAs functions tight text tree)
    (hl : loose.level ≤ tight.level) : ReadAs functions loose text tree := by
  intro offset rest hd
  have ⟨tokens, offset', hy, ht⟩ := h offset rest hd
  exact ⟨tokens, offset', hy, ht.loosen hl⟩

theorem ReadAs.in_parentheses (h : ReadAs functions .expression text tree) (hb₁ : Blank blank₁)
    (hb₂ : Blank blank₂) (offset : Nat) (rest : List Char) :
    ∃ opening tokens closing offset',
      Yields ⟨'(' :: blank₁ ++ text ++ blank₂ ++ [')'] ++ rest, offset, false⟩
        (opening :: tokens ++ [closing]) ⟨rest, offset', false⟩ ∧
      opening.kind = .leftParen ∧ closing.kind = .rightParen ∧
      Derives functions .expression tokens tree := by
  have hd : Delimits (blank₂ ++ ')' :: rest) := .blank_append hb₂ (delimits_symbol rfl)
  have ho : Yields ⟨'(' :: (blank₁ ++ (text ++ (blank₂ ++ ')' :: rest))), offset, false⟩ _ _ :=
    .of_symbol rfl
  have ⟨tokens, _, hy, ht⟩ := h (offset + byteSize ['('] + byteSize blank₁) _ hd
  have hi := ((ho.trans (.of_blank hb₁)).trans hy).trans (.of_blank hb₂)
  have hc := hi.trans (.of_symbol (c := ')') rfl)
  exact ⟨_, tokens, _, _, by simpa using hc, rfl, rfl, ht⟩

theorem ReadAs.group (h : ReadAs functions .expression text tree) (hb₁ : Blank blank₁)
    (hb₂ : Blank blank₂) :
    ReadAs functions .factor ('(' :: blank₁ ++ text ++ blank₂ ++ [')']) tree := by
  intro offset rest _
  have ⟨opening, tokens, closing, offset', hy, ho, hc, ht⟩ :=
    h.in_parentheses hb₁ hb₂ offset rest
  exact ⟨_, offset', hy, .group ho ht hc⟩

theorem IsName.yields {name : String} {rest : List Char} {offset : Nat} (h : IsName name)
    (hd : Delimits rest) :
    Yields ⟨name.toList ++ rest, offset, false⟩ [⟨.identifier, name, offset⟩]
      ⟨rest, offset + byteSize name.toList, false⟩ := by
  have hy : Yields ⟨name.toList ++ rest, offset, false⟩ _ _ :=
    .of_name (by simpa using h.1) h.2 hd
  rwa [String.ofList_toList] at hy

theorem ReadAs.call {function : String} {blank : List Char}
    (h : ReadAs functions .expression text tree) (hn : IsName function)
    (hf : functions.contains function = true) (hb : Blank blank) (hb₁ : Blank blank₁)
    (hb₂ : Blank blank₂) :
    ReadAs functions .factor
      (function.toList ++ blank ++ ('(' :: blank₁ ++ text ++ blank₂ ++ [')']))
      (.call function tree) := by
  intro offset rest _
  have ⟨opening, tokens, closing, offset', hy, ho, hc, ht⟩ :=
    h.in_parentheses hb₁ hb₂ (offset + byteSize function.toList + byteSize blank) rest
  have hd : Delimits (blank ++ ('(' :: blank₁ ++ text ++ blank₂ ++ [')'] ++ rest)) :=
    .blank_append hb (delimits_symbol rfl)
  have hy := ((hn.yields hd).trans (.of_blank hb)).trans hy
  exact ⟨_, offset', by simpa using hy, .call rfl hf ho ht hc⟩

theorem ReadAs.binary {op : Operator} {left right : Tree} {text₁ text₂ : List Char}
    (h₁ : ReadAs functions op.phrase text₁ left)
    (h₂ : ReadAs functions op.phrase.operand text₂ right) (hb₁ : Blank blank₁)
    (hb₂ : Blank blank₂) :
    ReadAs functions op.phrase (text₁ ++ blank₁ ++ op.symbol :: blank₂ ++ text₂)
      (.binary op left right) := by
  intro offset rest hd
  have hk := symbolKind?_symbol op
  have hd₁ : Delimits (blank₁ ++ op.symbol :: (blank₂ ++ (text₂ ++ rest))) :=
    .blank_append hb₁ (delimits_symbol hk)
  have ⟨tokens₁, offset₁, hy₁, ht₁⟩ := h₁ offset _ hd₁
  have hs : Yields ⟨op.symbol :: (blank₂ ++ (text₂ ++ rest)), offset₁ + byteSize blank₁, false⟩
      _ _ := .of_symbol hk
  have ⟨tokens₂, offset₂, hy₂, ht₂⟩ :=
    h₂ (offset₁ + byteSize blank₁ + byteSize [op.symbol] + byteSize blank₂) rest hd
  have hy := (((hy₁.trans (.of_blank hb₁)).trans hs).trans (.of_blank hb₂)).trans hy₂
  exact ⟨_, offset₂, by simpa using hy, .fold ht₁ rfl ht₂⟩

-- A text is read as its tree, as any phrase if it is in parentheses and else as a phrase that holds
-- the operator at the root.
theorem Written.readAs {enclosed : Bool} (h : Written tree enclosed text)
    (he : tree.Expressible functions) {phrase : Phrase}
    (hp : tree.LooserThan phrase.level → enclosed = true) :
    ReadAs functions phrase text tree := by
  induction h generalizing phrase
  case number hl hv =>
    refine ReadAs.loosen ?_ phrase.level_le_factor
    intro offset rest hd
    exact ⟨_, _, .of_literal hl hv hd, .number rfl⟩
  case var name =>
    refine ReadAs.loosen ?_ phrase.level_le_factor
    intro offset rest hd
    exact ⟨_, _, he.1.yields hd, .var rfl he.2⟩
  case call argument _ _ _ _ _ _ hb₁ hb₂ hb₃ hi =>
    have ⟨hn, hf, ha⟩ := he
    have hi := @hi ha .expression fun h => absurd h argument.not_looserThan_one
    exact (hi.call hn hf hb₁ hb₂ hb₃).loosen phrase.level_le_factor
  case binary op left right _ _ _ _ _ _ _ hn₁ _ hn₂ hb₁ hb₂ hi₁ hi₂ =>
    have hle : phrase.level ≤ op.phrase.level := by
      simpa [LooserThan] using hp
    have h₁ := @hi₁ he.1 op.phrase (op.level_phrase ▸ hn₁)
    have h₂ := @hi₂ he.2 op.phrase.operand (op.level_operand_phrase ▸ hn₂)
    exact (h₁.binary h₂ hb₁ hb₂).loosen hle
  case enclosed tree _ _ _ _ _ hb₁ hb₂ hi =>
    have hi := @hi he .expression fun h => absurd h tree.not_looserThan_one
    exact (hi.group hb₁ hb₂).loosen phrase.level_le_factor

-- Every tree that can be written has a text with the fewest parentheses, and this text and all
-- other texts of the tree are built to the tree again.
theorem build_written {functions : Functions} {tree : Tree} (h : tree.Expressible functions) :
    (∃ literal, tree.Written false (tree.infixChars literal)) ∧
      ∀ enclosed text before after origin,
        tree.Written enclosed text → Blank before → Blank after →
        (build functions ⟨origin, String.ofList (before ++ text ++ after)⟩).result = .ok tree := by
  refine ⟨h.exists_written_infixChars, ?_⟩
  intro enclosed text before after origin hw hb ha
  have hr : ReadAs functions .expression text tree :=
    hw.readAs h fun hl => absurd hl tree.not_looserThan_one
  have hd : Delimits (after ++ []) := .blank_append ha delimits_nil
  have ⟨tokens, offset, hy, ht⟩ := hr (0 + byteSize before) _ hd
  have hi := ((Yields.of_blank hb).trans hy).trans (.of_blank ha)
  rw [Yields, items_end] at hi
  refine build_eq_ok_iff.mpr ⟨tokens ++ [⟨.eof, "", offset + byteSize after⟩], ?_, ?_⟩
  · simpa [tokenize_eq_ok_iff, ofText] using hi
  · exact Parser.parse_of_derives ht rfl

set_option maxRecDepth 4000 in
theorem build_written_right_operand : ∃ value,
    let tree : Tree := .binary .minus (.var "x")
      (.binary .power (.binary .minus (.var "x") (.call "sin" (.var "x"))) (.number value))
    tree.Expressible .builtin ∧
    (build .builtin ⟨none, " x- (x-sin( x ))^2"⟩).result = .ok tree := by
  have ⟨value, hv⟩ : ∃ value, Numeral.read ['2'] = .ok value := ⟨_, rfl⟩
  refine ⟨value, ?_⟩
  intro tree
  have hb := blank_nil
  have hs : Blank [' '] := List.all_eq_true.mp (by cbv)
  have hl : Literal ['2'] := .whole (by decide) (by simp)
  have hx : IsName "x" := ⟨by decide, List.all_eq_true.mp (by cbv)⟩
  have hf : IsName "sin" := ⟨by decide, List.all_eq_true.mp (by cbv)⟩
  have hx' : Expressible .builtin (.var "x") := ⟨hx, by cbv⟩
  have he : tree.Expressible .builtin := ⟨hx', ⟨hx', hf, by cbv, hx'⟩, _, hl, hv⟩
  have hc : Written (.call "sin" (.var "x")) false _ := .call .var hb hs hs
  have hm : Written (.binary .minus (.var "x") (.call "sin" (.var "x"))) true _ :=
    .enclosed (.binary .var False.elim hc False.elim hb hb) hb hb
  have hp : Written (.binary .power _ (.number value)) false _ :=
    .binary hm (fun _ => rfl) (.number hl hv) False.elim hb hb
  have hw : tree.Written false _ :=
    .binary .var False.elim hp (by simp [LooserThan, Operator.precedence]) hb hs
  have ht := (build_written he).2 false _ [' '] [] none hw hs hb
  exact ⟨he, ht⟩

end Tree

end Reckoner
