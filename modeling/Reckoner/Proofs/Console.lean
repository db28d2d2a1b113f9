import Mathlib
import Reckoner.Console

/-!
What goes through a console. Each read takes the next line of the input, so the lines that are left
tell how often a line was read.
-/

namespace Reckoner.Console

-- The lines of some bytes, each with the line feed that ends it. Only the last one may lack it.
def lines : List UInt8 → List (List UInt8)
  | [] => []
  | byte :: rest =>
    if byte = 10 then [byte] :: lines rest
    else
      match lines rest with
      | [] => [[byte]]
      | line :: more => (byte :: line) :: more

theorem flatten_lines (bytes : List UInt8) : (lines bytes).flatten = bytes := by
  induction bytes
  case nil => rfl
  case cons byte rest hi =>
    unfold lines
    split
    case isTrue => simp [hi]
    case isFalse =>
      split
      case h_1 hl => simpa [hl] using hi
      case h_2 hl => simpa [hl] using hi

theorem lines_eq_cons {bytes : List UInt8} (h : bytes ≠ []) :
    lines bytes = (splitLine bytes).1 :: lines (splitLine bytes).2 := by
  induction bytes
  case nil => exact absurd rfl h
  case cons byte rest hi =>
    by_cases hb : byte = 10
    case pos => simp [lines, splitLine, hb]
    case neg =>
      cases rest
      case nil => simp [lines, splitLine, hb]
      case cons next rest =>
        have hl : lines (byte :: next :: rest) = _ := (lines.eq_2 ..).trans (if_neg hb)
        have hs : splitLine (byte :: next :: rest) = _ := (splitLine.eq_2 ..).trans (if_neg hb)
        rw [hl, hs, hi (List.cons_ne_nil _ _)]

theorem lines_eq_nil_iff {bytes : List UInt8} : lines bytes = [] ↔ bytes = [] := by
  constructor
  case mp =>
    intro h
    rw [← flatten_lines bytes, h]
    rfl
  case mpr =>
    intro h
    rw [h]
    rfl

theorem lines_splitLine (bytes : List UInt8) :
    lines (splitLine bytes).2 = (lines bytes).drop 1 := by
  cases bytes
  case nil => rfl
  case cons byte rest =>
    rw [lines_eq_cons (List.cons_ne_nil byte rest), List.drop_one, List.tail_cons]

-- The lines after the first ones are those of what is left.
theorem lines_flatten_drop (bytes : List UInt8) (count : Nat) :
    lines ((lines bytes).drop count).flatten = (lines bytes).drop count := by
  induction count generalizing bytes
  case zero => rw [List.drop_zero, flatten_lines]
  case succ count hi =>
    have h := hi (splitLine bytes).2
    rwa [lines_splitLine, List.drop_drop, Nat.add_comm] at h

-- The same trouble after this many more lines.
def Trouble.nearer (count : Nat) (trouble : Trouble) : Trouble :=
  { trouble with after := trouble.after - count }

theorem Trouble.nearer_nearer (count more : Nat) (trouble : Trouble) :
    (trouble.nearer count).nearer more = trouble.nearer (count + more) := by
  simp only [nearer, Nat.sub_sub]

-- All operations work for this many more lines.
def WorksFor (count : Nat) (console : Console) : Prop :=
  ∀ trouble, console.trouble = some trouble → count ≤ trouble.after

-- The console after some texts were written, with a line read after each of them.
def served (texts : List String) (console : Console) : Console where
  input := ((lines console.input).drop texts.length).flatten
  output := console.output ++ String.join texts
  torn := console.torn
  trouble := console.trouble.map (.nearer texts.length)

variable {console : Console} {texts : List String} {count : Nat}

theorem readLine_of_nil {next : Console} (hp : console.perform .read drain = .ok next)
    (h : console.input = []) : console.readLine = .ok (none, console) := by
  simp only [readLine, hp, h, Except.map]

theorem readLine_of_ne_nil {next : Console} (hp : console.perform .read drain = .ok next)
    (h : console.input ≠ []) :
    console.readLine = .ok (some (splitLine console.input).1,
      { next with input := (splitLine console.input).2 }) := by
  cases hi : console.input
  case nil => exact absurd hi h
  case cons => simp only [readLine, hp, hi, Except.map]

-- Whichever operation is in trouble, it is used once for a line.
theorem exists_write_flush (h : console.WorksFor 1) (text : String) :
    let written : Console := { console with output := console.output ++ text }
    ∃ before trouble, console.write text = .ok before ∧
      before.flush = .ok { written with trouble } ∧
      perform .read drain { written with trouble } =
        .ok { written with trouble := console.trouble.map (.nearer 1) } := by
  cases console
  case mk input output torn trouble =>
    cases trouble
    case none => exact ⟨_, _, rfl, rfl, rfl⟩
    case some trouble =>
      cases trouble
      case mk operation after part message =>
        cases after
        case zero => exact absurd (h _ rfl) (Nat.not_succ_le_zero 0)
        case succ after =>
          cases operation
          all_goals exact ⟨_, _, rfl, rfl, rfl⟩

-- A torn text is the last thing that was written: writing fails from there on.
def Orderly (console : Console) : Prop :=
  console.torn ≠ [] → ∃ message, console.trouble = some ⟨.write, 0, 0, message⟩

theorem Orderly.torn_eq_nil (h : console.Orderly) (hw : console.WorksFor 1) :
    console.torn = [] := by
  by_contra hn
  have ⟨_, ht⟩ := h hn
  exact absurd (hw _ ht) (Nat.not_succ_le_zero 0)

-- A text was to be written and a line to be read, and the operation failed after some bytes of it.
def Interrupted (operation : Operation) (part : Nat) (text : String) (before after : Console) :
    Prop :=
  match operation with
  | .write =>
    after.output = before.output ∧ after.torn = before.torn ++ (encodeText text).take part ∧
      after.input = before.input
  | .flush =>
    after.output = before.output ++ text ∧ after.torn = before.torn ∧ after.input = before.input
  | .read =>
    after.output = before.output ++ text ∧ after.torn = before.torn ∧
      before.input = (before.input.takeWhile (· ≠ 10)).take part ++ after.input

theorem input_eq_append_drain (part : Nat) (console : Console) :
    console.input = (console.input.takeWhile (· ≠ 10)).take part ++ (console.drain part).input := by
  have hp : (console.input.takeWhile (· ≠ 10)).take part <+: console.input :=
    (List.take_prefix part _).trans (List.takeWhile_prefix _)
  exact (List.prefix_iff_eq_append.mp hp).symm

theorem worksFor_one_or (console : Console) : console.WorksFor 1 ∨
    ∃ operation part message, console.trouble = some ⟨operation, 0, part, message⟩ := by
  cases ht : console.trouble
  case none => exact .inl fun _ h => nomatch ht.symm.trans h
  case some trouble =>
    cases trouble
    case mk operation after part message =>
      cases after
      case zero => exact .inr ⟨operation, part, message, rfl⟩
      case succ after =>
        refine .inl fun _ h => ?_
        cases ht.symm.trans h
        exact Nat.le_add_left ..

theorem lines_input_served (texts : List String) (console : Console) :
    lines (console.served texts).input = (lines console.input).drop texts.length :=
  lines_flatten_drop console.input texts.length

theorem lines_input_served_of_getElem? {line : List UInt8}
    (h : (lines console.input)[texts.length]? = some line) :
    lines (console.served texts).input = line :: (lines console.input).drop (texts.length + 1) := by
  have ⟨hl, hg⟩ := List.getElem?_eq_some_iff.mp h
  rw [lines_input_served, List.drop_eq_getElem_cons hl, hg]

theorem input_served_of_getElem? (h : (lines console.input)[texts.length]? = none) :
    (console.served texts).input = [] := by
  rw [served, List.drop_eq_nil_of_le (List.getElem?_eq_none_iff.mp h), List.flatten_nil]

theorem served_nil (console : Console) : console.served [] = console := by
  cases console
  case mk input output torn trouble =>
    have ht : (Trouble.nearer 0) = id := rfl
    simp [served, flatten_lines, ht]

theorem served_singleton (text : String) (console : Console) :
    console.served [text] = ⟨(splitLine console.input).2, console.output ++ text, console.torn,
      console.trouble.map (.nearer 1)⟩ := by
  rw [served, List.length_singleton, ← lines_splitLine, flatten_lines, String.join_cons,
    String.join_nil, String.append_empty]

theorem served_append (texts more : List String) (console : Console) :
    console.served (texts ++ more) = (console.served texts).served more := by
  have ht : Trouble.nearer (texts.length + more.length) =
      Trouble.nearer more.length ∘ Trouble.nearer texts.length := by
    funext trouble
    exact (trouble.nearer_nearer texts.length more.length).symm
  simp only [served, lines_flatten_drop, List.drop_drop, String.join_append, String.append_assoc,
    Option.map_map, List.length_append, ht]

theorem trouble_served (texts : List String) {trouble : Trouble}
    (h : console.trouble = some trouble) :
    (console.served texts).trouble = some (trouble.nearer texts.length) :=
  congrArg (Option.map _) h

theorem worksFor_served (texts : List String) (h : console.WorksFor texts.length) :
    (console.served texts).WorksFor count ↔ console.WorksFor (texts.length + count) := by
  cases ht : console.trouble
  case none => simp [WorksFor, served, ht]
  case some trouble =>
    have hl := h trouble ht
    simp only [WorksFor, trouble_served texts ht, ht, Option.some.injEq, forall_eq', Trouble.nearer]
    omega

end Reckoner.Console
