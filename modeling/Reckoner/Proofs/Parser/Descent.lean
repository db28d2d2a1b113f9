import Reckoner.Proofs.Parser.Completeness

/-!
The grammar from the top down, with a function for each kind of phrase that calls the one for its
operands. The state of the parser is what such a descent would return to: an open parenthesis is a
call for an expression, and an operand that waits is a call for a phrase of its operator. So the
parser reads what the descent reads, stops where it stops and records what it records.
-/

namespace Reckoner.Parser

-- What a descent makes of some tokens. It stands before the first token that it left.
structure Descent (α : Type) (tokens : List Token) where
  result : Except ParseFault α
  rest : List Token
  index : Nat
  events : List Event
  length_le : rest.length ≤ tokens.length

namespace Descent

variable {α β : Type} {tokens : List Token}

-- Takes nothing.
def stay (result : Except ParseFault α) (tokens : List Token) (index : Nat) : Descent α tokens :=
  ⟨result, tokens, index, [], Nat.le_refl _⟩

-- Takes the first token before the others.
def behind (token : Token) (descent : Descent α tokens) : Descent α (token :: tokens) :=
  { descent with length_le := Nat.le_succ_of_le descent.length_le }

def andThen (first : Descent α tokens)
    (next : α → ∀ rest : List Token, Nat → rest.length ≤ tokens.length → Descent β rest) :
    Descent β tokens :=
  match first.result with
  | .error fault => { first with result := .error fault }
  | .ok value =>
    let second := next value first.rest first.index first.length_le
    { second with
      events := first.events ++ second.events
      length_le := Nat.le_trans second.length_le first.length_le }

-- Takes a token of the given kind, and fails with any other one.
def expect (source : Source) (kind : Token.Kind) (fault : Span → ParseFault) :
    (tokens : List Token) → Nat → Descent Token tokens
  | [], index => stay (.error (.unexpectedEnd source.byteSize)) [] index
  | token :: rest, index =>
    if token.kind = kind then behind token (stay (.ok token) rest (index + 1))
    else stay (.error (fault token.span)) (token :: rest) index

-- How far a phrase is from a factor, which bounds the calls before the next token is taken.
def calls (phrase : Phrase) : Nat :=
  2 * (Phrase.factor.level - phrase.level)

theorem calls_le (phrase : Phrase) : calls phrase ≤ 6 := by
  cases phrase <;> decide

theorem calls_operand_lt {phrase : Phrase} (h : phrase ≠ .factor) :
    calls phrase.operand < calls phrase := by
  cases phrase
  case factor => exact absurd rfl h
  all_goals decide

variable (functions : Functions) (source : Source)

mutual

-- Reads a phrase.
def ofPhrase (phrase : Phrase) (tokens : List Token) (index : Nat) : Descent Tree tokens :=
  if phrase = .factor then ofFactor tokens index
  else
    (ofPhrase phrase.operand tokens index).andThen fun left rest index _ =>
      ofOperators phrase left rest index
termination_by 8 * tokens.length + calls phrase + 1
decreasing_by
  · omega
  · have := calls_operand_lt ‹¬phrase = .factor›
    omega
  · omega

-- Reads the operators of a phrase and the operands on the right of them, behind the first operand.
def ofOperators (phrase : Phrase) (left : Tree) (tokens : List Token) (index : Nat) :
    Descent Tree tokens :=
  match tokens with
  | [] => stay (.error (.unexpectedEnd source.byteSize)) [] index
  | token :: rest =>
    match token.kind with
    | .operator op =>
      if op.phrase = phrase then
        let descent := (ofPhrase phrase.operand rest (index + 1)).andThen fun right rest index _ =>
          ofOperators phrase (.binary op left right) rest index
        behind token { descent with events := .folding op index :: descent.events }
      else stay (.ok left) (token :: rest) index
    | _ => stay (.ok left) (token :: rest) index
termination_by 8 * tokens.length + calls phrase
decreasing_by
  all_goals
    have := calls_le phrase.operand
    simp only [List.length_cons]
    omega

def ofFactor (tokens : List Token) (index : Nat) : Descent Tree tokens :=
  match tokens with
  | [] => stay (.error (.unexpectedEnd source.byteSize)) [] index
  | token :: rest =>
    match token.kind with
    | .number value => behind token (stay (.ok (.number value)) rest (index + 1))
    | .identifier =>
      behind token <|
        if functions.contains token.literal then
          (expect source .leftParen (.missingCallParen · token.literal) rest (index + 1)).andThen
            fun opening rest index _ => (ofPhrase .expression rest index).andThen
              fun argument rest index _ =>
                (expect source .rightParen (.unclosedCall · opening.span) rest index).andThen
                  fun _ rest index _ => stay (.ok (.call token.literal argument)) rest index
        else stay (.ok (.var token.literal)) rest (index + 1)
    | .leftParen =>
      behind token <| (ofPhrase .expression rest (index + 1)).andThen fun inner rest index _ =>
        (expect source .rightParen (.unclosedGroup · token.span) rest index).andThen
          fun _ rest index _ => stay (.ok inner) rest index
    | .eof => stay (.error (.unexpectedEnd token.offset)) (token :: rest) index
    | .operator _ | .rightParen | .comma =>
      behind token (stay (.error (.unexpectedToken token.span token.text)) rest (index + 1))
termination_by 8 * tokens.length
decreasing_by
  all_goals
    have := calls_le .expression
    simp only [List.length_cons]
    omega

end

end Descent

-- The same reading with more recorded before it.
def Reading.after (events : List Event) (reading : Reading) : Reading :=
  { reading with events := events ++ reading.events }

namespace Descent

-- The parser reads what a descent reads: it fails with it, or it goes on in a state that holds what
-- the descent returned.
structure Agrees {α : Type} {tokens : List Token} (functions : Functions) (source : Source)
    (holds : α → List Token → State → Prop) (descent : Descent α tokens) (reading : Reading) :
    Prop where
  failed : ∀ fault, descent.result = .error fault →
    reading = ⟨.error fault, ⟨functions, source, descent.rest, descent.index⟩, descent.events⟩
  goes_on : ∀ value, descent.result = .ok value → ∃ state, holds value descent.rest state ∧
    reading = (readFrom functions source state descent.rest descent.index).after descent.events

variable {functions : Functions} {source : Source}

namespace Agrees

variable {α β : Type} {tokens : List Token} {index : Nat} {state next : State} {token : Token}
variable {holds : α → List Token → State → Prop} {holds' : β → List Token → State → Prop}

theorem stay_ok {value : α} (h : holds value tokens state) :
    Agrees functions source holds (stay (.ok value) tokens index)
      (readFrom functions source state tokens index) where
  failed _ he := nomatch he
  goes_on := by
    intro value he
    cases he
    exact ⟨state, h, rfl⟩

theorem of_error {descent : Descent α tokens} {fault : ParseFault}
    (h : descent.result = .error fault) : Agrees functions source holds descent
      ⟨.error fault, ⟨functions, source, descent.rest, descent.index⟩, descent.events⟩ where
  failed _ he := by
    cases h.symm.trans he
    rfl
  goes_on _ he := nomatch h.symm.trans he

theorem behind {descent : Descent α tokens}
    (h : Agrees functions source holds descent (readFrom functions source next tokens (index + 1)))
    (hs : state.step functions token = .shift next) :
    Agrees functions source holds (descent.behind token)
      (readFrom functions source state (token :: tokens) index) := by
  simp only [readFrom, hs]
  exact ⟨h.failed, h.goes_on⟩

theorem behind_fold {descent : Descent α tokens} {op : Operator}
    (h : Agrees functions source holds descent (readFrom functions source next tokens (index + 1)))
    (hs : state.step functions token = .fold op next) :
    Agrees functions source holds
      (Descent.behind token { descent with events := .folding op index :: descent.events })
      (readFrom functions source state (token :: tokens) index) := by
  simp only [readFrom, hs]
  constructor
  case failed =>
    intro fault he
    rw [h.failed fault he]
    rfl
  case goes_on =>
    intro value he
    obtain ⟨state, hh, hg⟩ := h.goes_on value he
    refine ⟨state, hh, ?_⟩
    rw [hg]
    rfl

theorem andThen {first : Descent α tokens} {reading : Reading}
    {more : α → ∀ rest : List Token, Nat → rest.length ≤ tokens.length → Descent β rest}
    (h : Agrees functions source holds first reading)
    (hm : ∀ value state, first.rest.length ≤ tokens.length → holds value first.rest state →
      Agrees functions source holds' (more value first.rest first.index first.length_le)
        (readFrom functions source state first.rest first.index)) :
    Agrees functions source holds' (first.andThen more) reading := by
  unfold Descent.andThen
  split
  case h_1 fault hr =>
    rw [h.failed fault hr]
    exact of_error rfl
  case h_2 value hr =>
    have ⟨state, hs, hg⟩ := h.goes_on value hr
    have hm := hm value state first.length_le hs
    constructor
    case failed =>
      intro fault he
      rw [hg, hm.failed fault he]
      rfl
    case goes_on =>
      intro value he
      have ⟨state, hs, hg'⟩ := hm.goes_on value he
      refine ⟨state, hs, ?_⟩
      rw [hg, hg']
      simp only [Reading.after, List.append_assoc]

theorem expect {kind : Token.Kind} {fault : Span → ParseFault}
    {holds : Token → List Token → State → Prop}
    (hs : ∀ token rest, tokens = token :: rest → token.kind = kind →
      ∃ next, state.step functions token = .shift next ∧ holds token rest next)
    (hf : ∀ token rest, tokens = token :: rest → token.kind ≠ kind →
      state.step functions token = .fail (fault token.span) false) :
    Agrees functions source holds (expect source kind fault tokens index)
      (readFrom functions source state tokens index) := by
  cases tokens
  case nil => exact of_error rfl
  case cons token rest =>
    by_cases hk : token.kind = kind
    case pos =>
      have ⟨next, hn, hh⟩ := hs token rest rfl hk
      rw [Descent.expect, if_pos hk]
      exact behind (stay_ok hh) hn
    case neg =>
      rw [Descent.expect, if_neg hk]
      simp only [readFrom, hf token rest rfl hk]
      exact of_error rfl

end Agrees

-- No operator of the phrase or of a tighter one comes next. Behind its operators a token was looked
-- at.
def Ends (phrase : Phrase) : List Token → Prop
  | [] => phrase = .factor
  | token :: _ => ∀ op, token.kind = .operator op → op.precedence < phrase.level

theorem ends_factor (tokens : List Token) : Ends .factor tokens := by
  cases tokens
  case nil => rfl
  case cons token rest => exact fun op _ => by cases op <;> decide

theorem Ends.ne_operator {token : Token} {rest : List Token}
    (h : Ends .expression (token :: rest)) (op : Operator) : token.kind ≠ .operator op := by
  intro hk
  have hl := h op hk
  cases op <;> revert hl <;> decide

-- An operator that is no tighter than those of the phrase, and none of them, is looser.
theorem Ends.of_operand {phrase : Phrase} {op : Operator} {token : Token} {rest : List Token}
    (h : Ends phrase.operand (token :: rest)) (hk : token.kind = .operator op)
    (hn : op.phrase ≠ phrase) : Ends phrase (token :: rest) := by
  intro op' hk'
  cases hk.symm.trans hk'
  have hl := h op hk
  cases phrase <;> cases op <;> revert hl hn <;> decide

-- The operands that wait and the last one become the tree of the phrase when they are folded, and
-- what waited before it is left.
inductive Holds (phrase : Phrase) (frames : List Frame) (pending : Pending) (tree : Tree)
    (rest : List Token) : State → Prop
  | mk {pending' : Pending} {right : Tree} :
    pending'.fold phrase.level right = (pending, tree) → Ends phrase rest →
    Holds phrase frames pending tree rest ⟨frames, pending', .operator right⟩

open Pending State

-- After the name of a function a parenthesis is opened.
theorem agrees_open {tokens : List Token} {index : Nat} (function : String) (frames : List Frame)
    (pending : Pending) :
    Agrees functions source
      (fun opening _ next =>
        next = ⟨⟨.call function opening.span, pending⟩ :: frames, [], .operand⟩)
      (expect source .leftParen (.missingCallParen · function) tokens index)
      (readFrom functions source ⟨frames, pending, .callParen function⟩ tokens index) := by
  refine .expect (fun opening _ _ hk => ⟨_, ?_, rfl⟩) fun opening _ _ hk => ?_
  · simp only [step, stepCallParen, hk, enter]
  · simp only [step, stepCallParen]

-- After an expression a parenthesis is closed, and what it belongs to is an operand outside of it.
theorem agrees_close {tokens : List Token} {index : Nat} {frames : List Frame} {opening : Opening}
    {pending : Pending} {inner : Tree} {state : State}
    (h : Holds .expression (⟨opening, pending⟩ :: frames) [] inner tokens state) :
    Agrees functions source
      (fun _ _ next => next = ⟨frames, pending, .operator (opening.close inner)⟩)
      (expect source .rightParen opening.unclosed tokens index)
      (readFrom functions source state tokens index) := by
  cases h
  case mk pending' right hf he =>
    refine .expect (fun token rest _ hk => ⟨_, ?_, rfl⟩) fun token rest ht hk => ?_
    · simp only [step, stepOperator, hk, foldAll_eq_of_fold_eq hf]
    · subst ht
      cases hop : token.kind
      case operator op => exact absurd hop (he.ne_operator op)
      case rightParen => exact absurd hop hk
      all_goals simp only [step, stepOperator, hop]

-- A phrase is read as it is by the parser, whatever it stands in.
def PhraseAgrees (functions : Functions) (source : Source) (phrase : Phrase) (tokens : List Token)
    (index : Nat) : Prop :=
  ∀ (frames : List Frame) (pending : Pending), pending.Below phrase.level →
    Agrees functions source (Holds phrase frames pending)
      (ofPhrase functions source phrase tokens index)
      (readFrom functions source ⟨frames, pending, .operand⟩ tokens index)

-- The parser may not have folded yet what the descent has already in one tree.
def OperatorsAgree (functions : Functions) (source : Source) (phrase : Phrase) (left : Tree)
    (tokens : List Token) (index : Nat) : Prop :=
  ∀ (frames : List Frame) (pending pending' : Pending) (right : Tree),
    pending.Below phrase.level → pending'.fold phrase.level right = (pending, left) →
    Ends phrase.operand tokens →
    Agrees functions source (Holds phrase frames pending)
      (ofOperators functions source phrase left tokens index)
      (readFrom functions source ⟨frames, pending', .operator right⟩ tokens index)

def FactorAgrees (functions : Functions) (source : Source) (tokens : List Token) (index : Nat) :
    Prop :=
  ∀ (frames : List Frame) (pending : Pending), pending.Below Phrase.factor.level →
    Agrees functions source (Holds .factor frames pending)
      (ofFactor functions source tokens index)
      (readFrom functions source ⟨frames, pending, .operand⟩ tokens index)

section

variable {phrase : Phrase} {tokens rest : List Token} {token : Token} {left : Tree} {index : Nat}
variable {op : Operator}

theorem PhraseAgrees.of_factor (h : FactorAgrees functions source tokens index) :
    PhraseAgrees functions source .factor tokens index := by
  intro frames pending hp
  rw [ofPhrase, if_pos rfl]
  exact h frames pending hp

theorem PhraseAgrees.of_operand (hn : phrase ≠ .factor)
    (h : PhraseAgrees functions source phrase.operand tokens index)
    (ho : ∀ (left : Tree) (rest : List Token) (index : Nat), rest.length ≤ tokens.length →
      OperatorsAgree functions source phrase left rest index) :
    PhraseAgrees functions source phrase tokens index := by
  intro frames pending hp
  rw [ofPhrase, if_neg hn]
  have ha := h frames pending (hp.mono phrase.level_le_operand)
  refine ha.andThen fun left state hl hs => ?_
  cases hs
  case mk pending' right hf he =>
    refine ho left _ _ hl frames pending pending' right hp ?_ he
    rw [fold_eq_of_fold_eq hf phrase.level_le_operand, fold_of_below hp]

theorem OperatorsAgree.nil : OperatorsAgree functions source phrase left [] index := by
  intro frames pending pending' right hp hf he
  rw [ofOperators]
  exact .of_error rfl

-- The operator takes what is on the left of it as its operand, and waits for the one on the right.
theorem OperatorsAgree.fold (hk : token.kind = .operator op)
    (h : PhraseAgrees functions source op.phrase.operand rest (index + 1))
    (ho : ∀ (right : Tree) (rest' : List Token) (index : Nat), rest'.length ≤ rest.length →
      OperatorsAgree functions source op.phrase (.binary op left right) rest' index) :
    OperatorsAgree functions source op.phrase left (token :: rest) index := by
  intro frames pending pending' right hp hf _
  have hs : State.step functions ⟨frames, pending', .operator right⟩ token =
      .fold op ⟨frames, (left, op) :: pending, .operand⟩ := by
    rw [op.level_phrase] at hf
    simp only [step, stepOperator, hk, hf]
  have ha := h frames ((left, op) :: pending) (by simp [Below])
  simp only [ofOperators, hk, if_true]
  refine .behind_fold (ha.andThen fun right' state hl hh => ?_) hs
  cases hh
  case mk pending'' right'' hf' he' =>
    refine ho right' _ _ hl frames pending pending'' right'' hp ?_ he'
    rw [fold_eq_of_fold_eq hf' op.phrase.level_le_operand, op.level_phrase]
    simp only [Pending.fold, Nat.le_refl, if_true]
    exact fold_of_below (op.level_phrase ▸ hp)

theorem OperatorsAgree.of_looser (hk : token.kind = .operator op) (hn : op.phrase ≠ phrase) :
    OperatorsAgree functions source phrase left (token :: rest) index := by
  intro frames pending pending' right _ hf he
  simp only [ofOperators, hk, if_neg hn]
  exact .stay_ok ⟨hf, he.of_operand hk hn⟩

theorem OperatorsAgree.of_ne_operator (hk : ∀ op, token.kind ≠ .operator op) :
    OperatorsAgree functions source phrase left (token :: rest) index := by
  intro frames pending pending' right _ hf _
  have hs : ofOperators functions source phrase left (token :: rest) index =
      stay (.ok left) (token :: rest) index := by
    rw [ofOperators]
    split
    case h_1 op ho => exact absurd ho (hk op)
    case h_2 => rfl
  rw [hs]
  exact .stay_ok ⟨hf, fun op ho => absurd ho (hk op)⟩

namespace FactorAgrees

theorem nil : FactorAgrees functions source [] index := by
  intro frames pending hp
  rw [ofFactor]
  exact .of_error rfl

theorem number {value : Float} (hk : token.kind = .number value) :
    FactorAgrees functions source (token :: rest) index := by
  intro frames pending hp
  simp only [ofFactor, hk]
  refine .behind (.stay_ok ⟨fold_of_below hp, ends_factor _⟩) ?_
  simp only [step, stepOperand, hk, operand]

theorem identifier (hk : token.kind = .identifier)
    (h : ∀ (rest' : List Token) (index : Nat), rest'.length ≤ rest.length →
      PhraseAgrees functions source .expression rest' index) :
    FactorAgrees functions source (token :: rest) index := by
  intro frames pending hp
  simp only [ofFactor, hk]
  split
  case isTrue hc =>
    refine .behind ((agrees_open token.literal frames pending).andThen fun opening _ hl hs => ?_) ?_
    · subst hs
      refine (h _ _ hl _ _ below_nil).andThen fun argument state _ hs => ?_
      refine (agrees_close hs).andThen fun _ _ _ hs => ?_
      subst hs
      exact .stay_ok ⟨fold_of_below hp, ends_factor _⟩
    · simp only [step, stepOperand, hk, hc, if_true]
  case isFalse hc =>
    refine .behind (.stay_ok ⟨fold_of_below hp, ends_factor _⟩) ?_
    simp [step, stepOperand, hk, hc, operand]

theorem group (hk : token.kind = .leftParen)
    (h : PhraseAgrees functions source .expression rest (index + 1)) :
    FactorAgrees functions source (token :: rest) index := by
  intro frames pending hp
  simp only [ofFactor, hk]
  have ha := h (⟨.group token.span, pending⟩ :: frames) [] below_nil
  refine .behind (ha.andThen fun inner state _ hh => ?_) ?_
  · refine (agrees_close hh).andThen fun _ _ _ hn => ?_
    subst hn
    exact .stay_ok ⟨fold_of_below hp, ends_factor _⟩
  · simp only [step, stepOperand, hk, enter]

theorem eof (hk : token.kind = .eof) : FactorAgrees functions source (token :: rest) index := by
  intro frames pending hp
  simp only [ofFactor, hk, readFrom, step, stepOperand]
  exact .of_error rfl

theorem unexpected (hk : (∃ op, token.kind = .operator op) ∨ token.kind = .rightParen ∨
      token.kind = .comma) :
    FactorAgrees functions source (token :: rest) index := by
  intro frames pending hp
  obtain ⟨op, hk⟩ | hk | hk := hk
  all_goals
    simp only [ofFactor, hk, readFrom, step, stepOperand]
    exact .of_error rfl

end FactorAgrees

end

-- By induction on the calls of the descent.
theorem phraseAgrees (functions : Functions) (source : Source) (phrase : Phrase)
    (tokens : List Token) (index : Nat) : PhraseAgrees functions source phrase tokens index := by
  apply ofPhrase.induct functions source (PhraseAgrees functions source)
    (OperatorsAgree functions source) (FactorAgrees functions source)
  case case1 => exact fun _ _ => .of_factor
  case case2 => exact fun _ _ _ => .of_operand
  case case3 => exact fun _ _ _ => .nil
  case case4 => exact fun _ _ _ _ _ => .fold
  case case5 => exact fun _ _ _ _ _ _ => .of_looser
  case case6 => exact fun _ _ _ _ _ => .of_ne_operator
  case case7 => exact fun _ => .nil
  case case8 => exact fun _ _ _ _ => .number
  case case9 => exact fun _ _ _ => .identifier
  case case10 => exact fun _ _ _ => .group
  case case11 => exact fun _ _ _ => .eof
  case case12 => exact fun _ _ _ op hk => .unexpected (.inl ⟨op, hk⟩)
  case case13 => exact fun _ _ _ hk => .unexpected (.inr (.inl hk))
  case case14 => exact fun _ _ _ hk => .unexpected (.inr (.inr hk))

end Descent

-- Behind an expression outside of all parentheses the parser is done.
theorem step_of_ends {functions : Functions} {pending : Pending} {right tree : Tree} {token : Token}
    {rest : List Token} (hf : pending.fold Phrase.expression.level right = ([], tree))
    (he : Descent.Ends .expression (token :: rest)) :
    State.step functions ⟨[], pending, .operator right⟩ token = .done tree := by
  cases hk : token.kind
  case operator op => exact absurd hk (he.ne_operator op)
  all_goals simp only [State.step, State.stepOperator, hk, Pending.foldAll_eq_of_fold_eq hf]

-- The parser reads an expression as the descent does.
theorem parseExpression_eq_descent (parser : Parser) :
    let descent :=
      Descent.ofPhrase parser.functions parser.source .expression parser.rest parser.index
    parser.parseExpression = ⟨descent.result,
      ⟨parser.functions, parser.source, descent.rest, descent.index⟩, descent.events⟩ := by
  intro descent
  have h : Descent.Agrees _ _ (Descent.Holds .expression [] []) descent parser.parseExpression :=
    Descent.phraseAgrees _ _ _ _ _ [] [] Pending.below_nil
  cases hr : descent.result
  case error fault => exact h.failed fault hr
  case ok tree =>
    have ⟨state, hh, hg⟩ := h.goes_on tree hr
    rw [hg]
    cases hh
    case mk pending right hf he =>
      cases ht : descent.rest <;> rw [ht] at he
      case nil => cases he
      case cons token rest =>
        simp only [readFrom, step_of_ends hf he, Reading.after, List.append_nil]

end Reckoner.Parser
