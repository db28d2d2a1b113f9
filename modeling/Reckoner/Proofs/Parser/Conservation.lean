import Reckoner.Proofs.Parser.Resumption

/-!
A parser keeps all that it reads. The tree of an accepted list of tokens, read from left to right,
is the list without its parentheses, and what is recorded on the way is one event for each operator,
in the order of the list.
-/

namespace Reckoner

-- What a node of a tree and a token of an expression have in common.
inductive Part
  | number (value : Float)
  | name (name : String)
  | operator (op : Operator)
deriving DecidableEq, Repr

namespace Tree

-- The nodes of a tree from left to right: a function stands before its argument, and an operator
-- between its operands.
def parts : Tree → List Part
  | number value         => [.number value]
  | var name             => [.name name]
  | call function arg    => .name function :: arg.parts
  | binary op left right => left.parts ++ .operator op :: right.parts

-- The number of nodes.
def size : Tree → Nat
  | number _            => 1
  | var _               => 1
  | call _ argument     => 1 + argument.size
  | binary _ left right => 1 + left.size + right.size

theorem length_parts (tree : Tree) : tree.parts.length = tree.size := by
  induction tree
  case number => rfl
  case var => rfl
  case call hi => simp [parts, size, hi, Nat.add_comm]
  case binary hl hr =>
    simp only [parts, size, List.length_append, List.length_cons, hl, hr]
    omega

end Tree

namespace Token

-- The node that a token stands for. Parentheses, commas and the end of input stand for none.
def part? (token : Token) : Option Part :=
  match token.kind with
  | .number value => some (.number value)
  | .identifier   => some (.name token.literal)
  | .operator op  => some (.operator op)
  | .leftParen | .rightParen | .comma | .eof => none

-- The number of open parentheses behind a token, by the number before it. A closing parenthesis
-- needs an open one.
def nest (opened : Nat) (token : Token) : Option Nat :=
  match token.kind, opened with
  | .leftParen, opened      => some (opened + 1)
  | .rightParen, 0          => none
  | .rightParen, opened + 1 => some opened
  | _, opened               => some opened

end Token

-- Each closing parenthesis has an open one before it, and no open one is left.
def Balanced (tokens : List Token) : Prop :=
  tokens.foldlM Token.nest 0 = some 0

instance (tokens : List Token) : Decidable (Balanced tokens) :=
  inferInstanceAs (Decidable (tokens.foldlM Token.nest 0 = some 0))

namespace Derives

variable {functions : Functions} {phrase : Phrase} {tokens : List Token} {tree : Tree}

theorem parts_eq (h : Derives functions phrase tokens tree) :
    tree.parts = tokens.filterMap (·.part?) := by
  induction h
  case operand hi => exact hi
  case fold hk _ hl hr => simp [Tree.parts, hl, hr, Token.part?, hk]
  case number hk => simp [Tree.parts, Token.part?, hk]
  case var hk _ => simp [Tree.parts, Token.part?, hk]
  case call hk _ ho _ hc hi => simp [Tree.parts, hi, Token.part?, hk, ho, hc]
  case group ho _ hc hi => simp [hi, Token.part?, ho, hc]

-- A phrase closes as many parentheses as it opens, however many are open before it.
theorem nest_eq (h : Derives functions phrase tokens tree) (opened : Nat) :
    tokens.foldlM Token.nest opened = some opened := by
  induction h generalizing opened
  case operand hi => exact hi opened
  case fold hk _ hl hr => simp [hl, hr, Token.nest, hk]
  case number hk => simp [Token.nest, hk]
  case var hk _ => simp [Token.nest, hk]
  case call hk _ ho _ hc hi => simp [Token.nest, hk, ho, hc, hi]
  case group ho _ hc hi => simp [Token.nest, ho, hc, hi]

-- Each level of a tree takes a token on its way down to a leaf and one beside it: a call has its
-- name and its parentheses, an operator has a leaf on its other side.
theorem depth_le (h : Derives functions phrase tokens tree) :
    2 * tree.depth ≤ tokens.length + 1 := by
  induction h
  case operand hi => exact hi
  case fold before after symbol left right hb _ ha hl hr =>
    have hb := List.length_pos_of_ne_nil hb.ne_nil
    have ha := List.length_pos_of_ne_nil ha.ne_nil
    simp only [Tree.depth, List.length_append, List.length_cons]
    omega
  case number => simp [Tree.depth]
  case var => simp [Tree.depth]
  case call hi =>
    simp only [Tree.depth, List.length_append, List.length_cons, List.length_nil]
    omega
  case group hi =>
    simp only [List.length_append, List.length_cons, List.length_nil]
    omega

end Derives

namespace Parser

variable {functions : Functions} {source : Source} {tokens : List Token} {tree : Tree}

open State

-- The whole run on an accepted list, which stops at the end of input behind the expression.
theorem run_of_parse_eq_ok (h : ((ofTokens functions source tokens).parse).1 = .ok tree) :
    ∃ before token rest, tokens = before ++ token :: rest ∧ token.kind = .eof ∧
      Derives functions .expression before tree ∧
      (ofTokens functions source tokens).parseExpression =
        ⟨.ok tree, ⟨functions, source, token :: rest, before.length⟩, foldings before 0⟩ := by
  obtain ⟨before, token, rest, rfl, hk, hd⟩ := derives_of_parse h
  have ⟨pending, right, ha, hf⟩ := after?_of_derives hd [] Pending.below_nil
  have hs : State.step functions ⟨[], pending, .operator right⟩ token = .done tree := by
    simp [step, stepOperator, hk, Pending.foldAll_eq_of_fold_eq hf]
  refine ⟨before, token, rest, rfl, hk, hd, ?_⟩
  simp only [parseExpression, ofTokens, start, readFrom_append_eq source (token :: rest) 0 ha,
    readFrom, hs, Nat.zero_add, List.append_nil]

-- Parsing loses nothing, adds nothing and keeps the order. Read from left to right, the tree of an
-- accepted list of tokens is its numbers, names and operators up to the end of input where the
-- parser stops. The parentheses among these tokens match, and each level of the tree above the
-- deepest leaf takes two of the tokens. One event is recorded for each operator, in the order of
-- the list, and then one for the tree.
theorem parse_conserves (h : ((ofTokens functions source tokens).parse).1 = .ok tree) :
    ∃ before token rest, tokens = before ++ token :: rest ∧ token.kind = .eof ∧
      (ofTokens functions source tokens).parseExpression.parser.rest = token :: rest ∧
      tree.parts = before.filterMap (·.part?) ∧
      tree.size = before.countP (·.part?.isSome) ∧
      Balanced before ∧
      ((ofTokens functions source tokens).parse).2 = foldings before 0 ++ [.parsed tree.depth] ∧
      2 * tree.depth ≤ before.length + 1 := by
  obtain ⟨before, token, rest, rfl, hk, hd, hr⟩ := run_of_parse_eq_ok h
  refine ⟨before, token, rest, rfl, hk, by rw [hr], hd.parts_eq, ?size, hd.nest_eq 0, ?events,
    hd.depth_le⟩
  case size => rw [← tree.length_parts, hd.parts_eq, List.length_filterMap_eq_countP]
  case events => simp [parse, hr, hk]

theorem conserved_of_power_of_call :
    let tokens : List Token :=
      [⟨.identifier, "sin", 0⟩, ⟨.leftParen, "(", 3⟩, ⟨.leftParen, "(", 4⟩,
        ⟨.identifier, "x", 5⟩, ⟨.rightParen, ")", 6⟩, ⟨.operator .minus, "-", 8⟩,
        ⟨.number 2, "2", 10⟩, ⟨.rightParen, ")", 11⟩, ⟨.operator .power, "^", 13⟩,
        ⟨.identifier, "y", 15⟩, ⟨.eof, "", 16⟩, ⟨.comma, ",", 16⟩]
    let tree : Tree :=
      .binary .power (.call "sin" (.binary .minus (.var "x") (.number 2))) (.var "y")
    ((ofTokens .builtin ⟨none, ""⟩ tokens).parse).1 = .ok tree ∧
    ∃ before token rest, tokens = before ++ token :: rest ∧ token.kind = .eof ∧
      (ofTokens .builtin ⟨none, ""⟩ tokens).parseExpression.parser.rest = token :: rest ∧
      tree.parts = before.filterMap (·.part?) ∧
      tree.size = before.countP (·.part?.isSome) ∧
      Balanced before ∧
      ((ofTokens .builtin ⟨none, ""⟩ tokens).parse).2 =
        foldings before 0 ++ [.parsed tree.depth] ∧
      2 * tree.depth ≤ before.length + 1 := by
  intro tokens tree
  have h : ((ofTokens .builtin ⟨none, ""⟩ tokens).parse).1 = .ok tree := by cbv
  exact ⟨h, parse_conserves h⟩

end Parser

end Reckoner
