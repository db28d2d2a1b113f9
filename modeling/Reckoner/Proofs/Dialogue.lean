import Reckoner.Proofs.Console
import Reckoner.Proofs.Evaluation.Continuing

/-!
Evaluations with a prompt. The questions that are written and the lines that are read keep in step:
each name that is asked for takes the next line of the input. If there is a value in the line, the
evaluation goes on, and else it ends there.
-/

namespace Reckoner

namespace Prompt

-- A value is in a line that is a text, and a numeral but for the white space around it.
def Holds (line : List UInt8) (x : Float) : Prop :=
  ∃ text, decodeText? line = some text ∧ Numeral.read (Text.trim text.toList) = .ok x

variable {line : List UInt8} {x : Float} {name : String} {console : Console}

theorem answer_eq_ok_iff : answer line = .ok x ↔ Holds line x := by
  cases hd : decodeText? line
  case none => simp [answer, Holds, hd]
  case some text =>
    cases hr : Numeral.read (Text.trim text.toList) <;> simp [answer, Holds, hd, hr]

theorem exists_answer_eq_error (h : ∀ x, ¬Holds line x) :
    ∃ message, answer line = .error message := by
  cases ha : answer line
  case error message => exact ⟨message, rfl⟩
  case ok x => exact absurd (answer_eq_ok_iff.mp ha) (h x)

-- A line with nothing but white space.
def Blank (line : List UInt8) : Prop :=
  ∃ text, decodeText? line = some text ∧ ∀ c ∈ text.toList, Text.isWhiteSpace c = true

theorem Blank.not_holds (h : Blank line) : ¬Holds line x := by
  intro ⟨text, hd, hr⟩
  have ⟨text', hd', hb⟩ := h
  cases hd.symm.trans hd'
  have ht : Text.trim text.toList = [] := by
    simp only [Text.trim, List.dropWhile_eq_nil_iff.mpr hb]
    rfl
  rw [ht] at hr
  cases hr

-- The reply to the request for a variable when there is a line to read.
def replyTo (name : String) (line : List UInt8) : Reply :=
  match answer line with
  | .ok x => .value x
  | .error message => .failed (.unresolved name message)

theorem request_of_line {more : List (List UInt8)} (name : String) (h : console.WorksFor 1)
    (hl : Console.lines console.input = line :: more) :
    request name console = (replyTo name line, console.served [question name]) := by
  have hi : console.input ≠ [] := by
    intro hi
    cases (Console.lines_eq_nil_iff.mpr hi).symm.trans hl
  have hs := (Console.lines_eq_cons hi).symm.trans hl
  have ⟨_, _, hw, hf, hp⟩ := Console.exists_write_flush h (question name)
  have hr := Console.readLine_of_ne_nil hp hi
  simp only [(List.cons.inj hs).1] at hr
  simp only [request, hw, hf, hr, replyTo, Console.served_singleton]
  cases answer line <;> rfl

theorem request_of_end (name : String) (h : console.WorksFor 1) (hi : console.input = []) :
    ∃ trouble, request name console =
      (.ended, { console with output := console.output ++ question name, trouble }) := by
  have ⟨_, trouble, hw, hf, hp⟩ := Console.exists_write_flush h (question name)
  have hr := Console.readLine_of_nil hp hi
  simp only [request, hw, hf, hr]
  exact ⟨trouble, rfl⟩

-- At the end of the input there is nothing to take for the line.
theorem request_of_worksFor (name : String) (h : console.WorksFor 1) :
    ∃ trouble, (request name console).2 = { console.served [question name] with trouble } := by
  cases hl : Console.lines console.input
  case nil =>
    have hi := Console.lines_eq_nil_iff.mp hl
    have ⟨trouble, hr⟩ := request_of_end name h hi
    rw [hr, Console.served_singleton, hi]
    exact ⟨trouble, rfl⟩
  case cons =>
    rw [request_of_line name h hl]
    exact ⟨_, rfl⟩

theorem request_of_trouble (name : String) {operation : Console.Operation} {part : Nat}
    {message : String} (h : console.trouble = some ⟨operation, 0, part, message⟩) :
    (request name console).1 = .failed (.unresolved name message) ∧
      console.Interrupted operation part (question name) (request name console).2 := by
  cases console
  case mk input output torn trouble =>
    cases h
    cases operation
    case write => exact ⟨rfl, rfl, rfl, rfl⟩
    case flush => exact ⟨rfl, rfl, rfl, rfl⟩
    case read => exact ⟨rfl, rfl, rfl, Console.input_eq_append_drain part _⟩

theorem orderly_request (name : String) (h : console.Orderly) :
    (request name console).2.Orderly := by
  cases console.worksFor_one_or
  case inl hw =>
    have ⟨_, hr⟩ := request_of_worksFor name hw
    rw [hr]
    exact fun hn => absurd (h.torn_eq_nil hw) hn
  case inr ht =>
    have ⟨operation, _, message, ht⟩ := ht
    cases console
    case mk input output torn trouble =>
      cases ht
      cases operation
      case write => exact fun _ => ⟨message, rfl⟩
      all_goals exact fun hn => nomatch h hn

theorem replyTo_of_holds (name : String) (h : Holds line x) : replyTo name line = .value x := by
  simp only [replyTo, answer_eq_ok_iff.mpr h]

theorem holds_of_replyTo (h : replyTo name line = .value x) : Holds line x := by
  cases ha : answer line <;> simp only [replyTo, ha, reduceCtorEq] at h
  case ok y =>
    cases h
    exact answer_eq_ok_iff.mp ha

theorem fault?_replyTo {message : String} (name : String) (h : answer line = .error message) :
    (replyTo name line).fault? name = some (.unresolved name message) := by
  simp only [replyTo, h, Reply.fault?]

-- A value only comes from a line.
theorem exists_line_of_value (h : (request name console).1 = .value x) :
    console.WorksFor 1 ∧
      ∃ line more, Console.lines console.input = line :: more ∧ Holds line x := by
  cases console.worksFor_one_or
  case inl hw =>
    refine ⟨hw, ?_⟩
    cases hl : Console.lines console.input
    case nil =>
      have ⟨_, hr⟩ := request_of_end name hw (Console.lines_eq_nil_iff.mp hl)
      rw [hr] at h
      cases h
    case cons line more =>
      rw [request_of_line name hw hl] at h
      exact ⟨line, more, rfl, holds_of_replyTo h⟩
  case inr ht =>
    have ⟨_, _, _, ht⟩ := ht
    cases h.symm.trans (request_of_trouble name ht).1

-- The requests for some names, with the replies to them when a line is read for each one.
def requests (names : List String) (lines : List (List UInt8)) : List Request :=
  List.zipWith (fun name line => ⟨name, replyTo name line⟩) names lines

-- By induction on the names. Each value comes from the line that is the first one at that time.
theorem replies_of_values {names : List String}
    (h : ∀ request ∈ (Resolver.prompt.replies names console).1, ∃ x, request.reply = .value x) :
    console.WorksFor names.length ∧ names.length ≤ (Console.lines console.input).length ∧
      Resolver.prompt.replies names console =
        (requests names (Console.lines console.input), console.served (names.map question)) := by
  induction names generalizing console
  case nil =>
    rw [List.map_nil, Console.served_nil]
    exact ⟨fun _ _ => Nat.zero_le _, Nat.zero_le _, rfl⟩
  case cons name names hi =>
    simp only [Resolver.replies_cons, List.forall_mem_cons] at h
    have ⟨⟨x, hx⟩, ht⟩ := h
    have ⟨hw, line, more, hl, _⟩ := exists_line_of_value hx
    have hr : Resolver.prompt.resolve name console = _ := request_of_line name hw hl
    have hn : Console.lines (console.served [question name]).input = more := by
      rw [Console.lines_input_served, hl]
      rfl
    rw [hr] at ht
    have ⟨hwn, hle, he⟩ := hi ht
    rw [hn] at hle he
    refine ⟨?works, ?length, ?replies⟩
    case works =>
      have hws := (Console.worksFor_served [question name] hw).mp hwn
      rwa [List.length_singleton, Nat.add_comm] at hws
    case length =>
      rw [hl]
      exact Nat.succ_le_succ hle
    case replies =>
      have hs : console.served (question name :: names.map question) = _ :=
        console.served_append [question name] _
      rw [List.map_cons, hs, hl]
      simp only [Resolver.replies_cons, hr, he, requests, List.zipWith_cons_cons]

end Prompt

theorem orderly_evaluate (functions : Functions) (tree : Tree) (bindings : Variables)
    {console : Console} (h : console.Orderly) :
    (evaluate functions .prompt tree bindings console).resolver.Orderly := by
  let P (_ : Variables) (console : Console) : Prop := console.Orderly
  refine evaluate_keeps (P := P) (fun name bindings console h => ?_) tree h
  cases hb : bindings[name]?
  case some x =>
    rw [lookUp_of_some hb]
    exact h
  case none =>
    simp only [P, lookUp_of_none hb, resolver_ask]
    exact Prompt.orderly_request name h

namespace Evaluation.Asks

variable {functions : Functions} {tree : Tree} {bindings : Variables} {console : Console}
variable {evaluation : Evaluation Console} {earlier later : List String} {name : String}
variable (h : evaluation.Asks .prompt (tree.unbound functions bindings) bindings console)

section

-- The console that a request comes to has served the requests before it.
variable (he : Event.askedNames evaluation.events = earlier ++ name :: later)
include h he

theorem replies_earlier :
    (Resolver.prompt.replies earlier console).2 = console.served (earlier.map Prompt.question) := by
  rw [(Prompt.replies_of_values (h.answered_before he)).2.2]

theorem worksFor_earlier : (console.served (earlier.map Prompt.question)).WorksFor 1 ↔
    console.WorksFor (earlier.length + 1) := by
  have hw := (Prompt.replies_of_values (h.answered_before he)).1
  rw [← List.length_map Prompt.question] at hw ⊢
  exact Console.worksFor_served _ hw

theorem request_of_getElem? {line : List UInt8} (hw : console.WorksFor (earlier.length + 1))
    (hl : (Console.lines console.input)[earlier.length]? = some line) :
    ∃ next, Prompt.request name (console.served (earlier.map Prompt.question)) =
      (Prompt.replyTo name line, next) := by
  rw [← List.length_map Prompt.question] at hl
  have hn := Console.lines_input_served_of_getElem? hl
  exact ⟨_, Prompt.request_of_line name ((h.worksFor_earlier he).mpr hw) hn⟩

-- The names that were asked for earlier have the values in the lines that were read for them.
theorem exists_line_of_earlier {i : Nat} {other : String} (ho : earlier[i]? = some other) :
    ∃ line x, (Console.lines console.input)[i]? = some line ∧ Prompt.Holds line x ∧
      evaluation.bindings[other]? = some x := by
  have hv := h.answered_before he
  have ⟨_, hl, hr⟩ := Prompt.replies_of_values hv
  have hi := (List.getElem?_eq_some_iff.mp ho).1
  let line := (Console.lines console.input)[i]
  have hg : (Console.lines console.input)[i]? = some line :=
    List.getElem?_eq_getElem (hi.trans_le hl)
  have hm : ⟨other, Prompt.replyTo other line⟩ ∈ (Resolver.prompt.replies earlier console).1 := by
    rw [hr]
    refine List.mem_of_getElem? (i := i) ?_
    rw [Prompt.requests, List.getElem?_zipWith, ho, hg]
  have hx : ∃ x, Prompt.replyTo other line = .value x := hv _ hm
  have ⟨x, hx⟩ := hx
  have hma : ⟨other, Prompt.replyTo other line⟩ ∈
      (Resolver.prompt.replies (Event.askedNames evaluation.events) console).1 := by
    rw [he, Resolver.replies_append]
    exact List.mem_append_left _ hm
  refine ⟨line, x, hg, Prompt.holds_of_replyTo hx, ?_⟩
  rw [h.getElem?_bindings_of_mem hma, hx]
  rfl

end

include h

theorem resolver_eq_of_last (he : Event.askedNames evaluation.events = earlier ++ [name]) :
    evaluation.resolver =
      (Prompt.request name (console.served (earlier.map Prompt.question))).2 := by
  rw [h.resolver_eq, he, ← h.replies_earlier he, Resolver.replies_append]
  rfl

-- A console that works is left after all questions, and after a line for each of them.
theorem resolver_eq_served
    (hw : console.WorksFor (Event.askedNames evaluation.events).length) :
    let last := console.served ((Event.askedNames evaluation.events).map Prompt.question)
    ∃ trouble, evaluation.resolver = { last with trouble } := by
  cases List.eq_nil_or_concat (Event.askedNames evaluation.events)
  case inl hn =>
    rw [h.resolver_eq, hn, List.map_nil, Console.served_nil]
    exact ⟨console.trouble, rfl⟩
  case inr he =>
    have ⟨earlier, name, he⟩ := he
    rw [List.concat_eq_append] at he
    rw [he, List.length_append, List.length_singleton] at hw
    rw [h.resolver_eq_of_last he, he, List.map_append, Console.served_append]
    exact Prompt.request_of_worksFor name ((h.worksFor_earlier he).mpr hw)

end Evaluation.Asks

namespace Calculation

variable {σ : Type}

-- The last request is for the name, and it has this fault as the result.
structure EndsAt (earlier : List String) (name : String) (fault : EvalFault)
    (run : Calculation σ) : Prop where
  asked_eq : Event.askedNames run.events = earlier ++ [name]
  result_eq : run.result = .error (.eval fault)
  get?_eq : run.environment.get? name = none

-- A calculation that asks for some names and is then as far as another one at its start.
structure Continues (names : List String) (whole rest : Calculation σ) : Prop where
  result_eq : whole.result = rest.result
  environment_eq : whole.environment = rest.environment
  resolver_eq : whole.resolver = rest.resolver
  asked_eq : Event.askedNames whole.events = names ++ Event.askedNames rest.events

end Calculation

namespace Environment

-- The environment after names were given the values in some lines.
def told (names : List String) (lines : List (List UInt8)) (environment : Environment) :
    Environment :=
  { environment with
    «variables» := bindReplies (Prompt.requests names lines) environment.variables }

variable {environment : Environment} {tree : Tree} {console : Console} {fault : EvalFault}
variable {earlier later : List String} {name : String} {line : List UInt8} {x : Float}

section

variable (he : Event.askedNames (environment.evaluate .prompt tree console).events =
  earlier ++ name :: later)
include he

theorem endsAt_of_fault
    (hf : (Prompt.request name (console.served (earlier.map Prompt.question))).1.fault? name =
      some fault) :
    (environment.evaluate .prompt tree console).EndsAt earlier name fault ∧
      (environment.evaluate .prompt tree console).resolver =
        (Prompt.request name (console.served (earlier.map Prompt.question))).2 := by
  have h := asks_evaluate environment.functions .prompt tree environment.variables console
  have hq : Resolver.prompt.resolve name _ = Prompt.request name _ :=
    congrArg (Prompt.request name) (h.replies_earlier he)
  have hb := h.getElem?_bindings_at he
  rw [← hq] at hf
  have ⟨hl, hr, hs⟩ := h.of_fault he hf
  rw [hq] at hs
  rw [Reply.value?_eq_none hf] at hb
  subst hl
  exact ⟨⟨he, result_evaluate_eq_error_iff.mpr hr, hb⟩, hs⟩

theorem endsAt_of_end (hw : console.WorksFor (earlier.length + 1))
    (hl : (Console.lines console.input)[earlier.length]? = none) :
    (environment.evaluate .prompt tree console).EndsAt earlier name (.undefinedVariable name) := by
  have h := asks_evaluate environment.functions .prompt tree environment.variables console
  rw [← List.length_map Prompt.question] at hl
  have hi := Console.input_served_of_getElem? hl
  have ⟨_, hq⟩ := Prompt.request_of_end name ((h.worksFor_earlier he).mpr hw) hi
  exact (endsAt_of_fault he (congrArg (·.1.fault? name) hq)).1

theorem endsAt_of_not_holds (hw : console.WorksFor (earlier.length + 1))
    (hl : (Console.lines console.input)[earlier.length]? = some line)
    (hn : ∀ x, ¬Prompt.Holds line x) :
    ∃ message, Prompt.answer line = .error message ∧
      (environment.evaluate .prompt tree console).EndsAt earlier name
        (.unresolved name message) := by
  have h := asks_evaluate environment.functions .prompt tree environment.variables console
  have ⟨_, hq⟩ := h.request_of_getElem? he hw hl
  have ⟨message, ha⟩ := Prompt.exists_answer_eq_error hn
  have hf := (congrArg (·.1.fault? name) hq).trans (Prompt.fault?_replyTo name ha)
  exact ⟨message, ha, (endsAt_of_fault he hf).1⟩

theorem endsAt_of_trouble {operation : Console.Operation} {part : Nat} {message : String}
    (ht : console.trouble = some ⟨operation, earlier.length, part, message⟩) :
    (environment.evaluate .prompt tree console).EndsAt earlier name (.unresolved name message) ∧
      (console.served (earlier.map Prompt.question)).Interrupted operation part
        (Prompt.question name) (environment.evaluate .prompt tree console).resolver := by
  have hb : (console.served (earlier.map Prompt.question)).trouble =
      some ⟨operation, 0, part, message⟩ := by
    rw [Console.trouble_served _ ht, Console.Trouble.nearer, List.length_map, Nat.sub_self]
  obtain ⟨hq, hi⟩ := Prompt.request_of_trouble name hb
  obtain ⟨hends, hr⟩ := endsAt_of_fault he (congrArg (·.fault? name) hq)
  rw [hr]
  exact ⟨hends, hi⟩

-- A value leads on to the evaluation in which all names up to this one are bound.
theorem continues_of_holds (hw : console.WorksFor (earlier.length + 1))
    (hl : (Console.lines console.input)[earlier.length]? = some line) (hx : Prompt.Holds line x) :
    (environment.evaluate .prompt tree console).environment.get? name = some x ∧
      (environment.evaluate .prompt tree console).Continues (earlier ++ [name])
        ((environment.told (earlier ++ [name]) (Console.lines console.input)).evaluate .prompt tree
          (console.served ((earlier ++ [name]).map Prompt.question))) := by
  have h := asks_evaluate environment.functions .prompt tree environment.variables console
  have ⟨next, hq⟩ := h.request_of_getElem? he hw hl
  have hr : (Resolver.prompt.resolve name (Resolver.prompt.replies earlier console).2).1 =
      .value x := by
    rw [h.replies_earlier he, ← Prompt.replyTo_of_holds name hx]
    exact congrArg Prod.fst hq
  constructor
  case left =>
    refine (h.getElem?_bindings_at he).trans ?_
    rw [hr]
    rfl
  case right =>
    have hp : earlier ++ [name] <+:
        Event.askedNames (environment.evaluate .prompt tree console).events := by
      rw [he]
      exact ⟨later, List.append_assoc ..⟩
    have hv : ∀ request ∈ (Resolver.prompt.replies (earlier ++ [name]) console).1,
        ∃ x, request.reply = .value x := by
      rw [Resolver.replies_append]
      refine List.forall_mem_append.mpr ⟨h.answered_before he, fun request hm => ?_⟩
      rw [List.mem_singleton.mp hm]
      exact ⟨x, hr⟩
    have hc := continues_of_values hp hv
    rw [(Prompt.replies_of_values hv).2.2] at hc
    exact ⟨congrArg (·.mapError Error.eval) hc.result_eq,
      congrArg (mk · environment.functions) hc.bindings_eq, hc.resolver_eq, hc.asked_eq⟩

end

end Environment

-- Over a console that works, an evaluation with a prompt writes the questions for the names that it
-- asks for and takes as many lines. The line in the place of a name tells its value, and the
-- evaluation goes on as if the names up to this one had been bound. It ends at the first name for
-- which there is no line, or none with a value, and leaves this name unbound. It also ends where
-- the console fails. What had got through then is written or taken, and nothing behind it.
theorem dialogue_of_evaluate (environment : Environment) (tree : Tree) (console : Console) :
    let run := environment.evaluate .prompt tree console
    let asked := Event.askedNames run.events
    let lines := Console.lines console.input
    (console.WorksFor asked.length →
      run.resolver.output = console.output ++ String.join (asked.map Prompt.question) ∧
      run.resolver.torn = console.torn ∧
      run.resolver.input = (lines.drop asked.length).flatten) ∧
    ∀ earlier name later, asked = earlier ++ name :: later →
      let current := earlier ++ [name]
      (∀ (i : Nat) other, earlier[i]? = some other → ∃ line x, lines[i]? = some line ∧
        Prompt.Holds line x ∧ run.environment.get? other = some x) ∧
      (console.WorksFor (earlier.length + 1) →
        (lines[earlier.length]? = none → run.EndsAt earlier name (.undefinedVariable name)) ∧
        ∀ line, lines[earlier.length]? = some line →
          (∀ x, Prompt.Holds line x → run.environment.get? name = some x ∧
            run.Continues current ((environment.told current lines).evaluate .prompt tree
              (console.served (current.map Prompt.question)))) ∧
          ((∀ x, ¬Prompt.Holds line x) → ∃ message, Prompt.answer line = .error message ∧
            run.EndsAt earlier name (.unresolved name message)) ∧
          (Prompt.Blank line → ∀ x, ¬Prompt.Holds line x)) ∧
      ∀ operation part message,
        console.trouble = some ⟨operation, earlier.length, part, message⟩ →
        run.EndsAt earlier name (.unresolved name message) ∧
        (console.served (earlier.map Prompt.question)).Interrupted operation part
          (Prompt.question name) run.resolver := by
  intro run asked lines
  have h : Evaluation.Asks .prompt _ _ console _ :=
    asks_evaluate environment.functions .prompt tree environment.variables console
  constructor
  case left =>
    intro hw
    have ⟨_, hs⟩ := h.resolver_eq_served hw
    change run.resolver = _ at hs
    rw [hs, Console.served, List.length_map]
    exact ⟨rfl, rfl, rfl⟩
  case right =>
    intro earlier name later he current
    refine ⟨fun i other => h.exists_line_of_earlier he, fun hw => ?works, ?trouble⟩
    case works =>
      refine ⟨Environment.endsAt_of_end he hw, fun line hl => ⟨?held, ?refused, ?blank⟩⟩
      case held => exact fun x => Environment.continues_of_holds he hw hl
      case refused => exact Environment.endsAt_of_not_holds he hw hl
      case blank => exact fun hb x => hb.not_holds
    case trouble => exact fun operation part message => Environment.endsAt_of_trouble he

-- A read that fails has taken what it got of the line, and a line that is no text has been read.
theorem taken_by_failing_read :
    let line : List UInt8 := [49, 50, 10]
    let failing : Console := { Console.ofInput line with
      trouble := some ⟨.read, 0, 2, "read failed"⟩ }
    let run := Environment.empty.evaluate .prompt (.var "a") failing
    let other := Environment.empty.evaluate .prompt (.var "a") (.ofInput [255, 10])
    run.result = .error (.eval (.unresolved "a" "read failed")) ∧
    run.resolver.input = [10] ∧ [10] ≠ line ∧
    other.result =
      .error (.eval (.unresolved "a" "stream did not contain valid UTF-8")) ∧
    other.resolver.input = [] :=
  ⟨rfl, rfl, by decide, rfl, rfl⟩

example :
    let tree : Tree := .binary .minus (.binary .power (.var "a") (.var "b")) (.var "a")
    let run := Environment.empty.evaluate .prompt tree (.ofInput [50, 10, 32, 10, 55])
    run.resolver =
      ⟨[55], "Enter value for variable a:\nEnter value for variable b:\n", [], none⟩ ∧
    run.environment.get? "a" = some 2 ∧ run.environment.get? "b" = none ∧
    run.result = .error (.eval (.unresolved "b"
      "`` is not a number: cannot parse float from empty string")) :=
  ⟨rfl, rfl, rfl, rfl⟩

end Reckoner
