import BinaryTape.Proofs.FirstRule

namespace BinaryTape

/-!
# Runs

A machine carries a program, an index, a limit and a counter besides the state
and the tape that a run is really about.  This layer separates the two: a
*configuration* is a state and a tape, a program takes a configuration to its
successor, and everything a bounded run of the machine can answer is read off the
configurations that the program goes through.

A run ends in one of three ways.  It halts in an end state, it is stuck where the
program has no rule, or it goes on forever.  The three exclude each other, one of
them always holds, and the configuration of a run that ends is unique.  A
comparison of two programs therefore needs to follow only one of them.
-/

/-- Where a machine is: the state it is in and the tape it works on. -/
structure Configuration where
  state : StateName
  tape : Tape
  deriving DecidableEq, Repr

/-- The configuration after a rule was applied. -/
def Configuration.apply (here : Configuration) (rule : Rule) : Configuration :=
  ⟨rule.next, (here.tape.write rule.write).move rule.move⟩

namespace Program

/-- The configuration one step later; none in an end state or without a rule. -/
def successor? (program : Program) (here : Configuration) : Option Configuration :=
  if program.isEnd here.state then none
  else (Rule.first? program.rules (here.state, here.tape.focus)).map here.apply

/-- The configuration exactly so many steps later. -/
def after? (program : Program) : Nat -> Configuration -> Option Configuration
  | 0, here => some here
  | steps + 1, here => (program.successor? here).bind (program.after? steps)

theorem successor?_of_isEnd {program : Program} {here : Configuration}
    (final : program.isEnd here.state = true) : program.successor? here = none := by
  simp only [successor?, final, if_true]

theorem successor?_of_first? {program : Program} {here : Configuration} {rule : Rule}
    (going : program.isEnd here.state = false)
    (found : Rule.first? program.rules (here.state, here.tape.focus) = some rule) :
    program.successor? here = some (here.apply rule) := by
  simp only [successor?, going, found, Bool.false_eq_true, if_false, Option.map_some]

/-- A configuration with a successor is in no end state and has a rule. -/
theorem successor?_eq_some_iff {program : Program} {here there : Configuration} :
    program.successor? here = some there ↔
      program.isEnd here.state = false ∧
        Exists fun rule : Rule =>
          Rule.first? program.rules (here.state, here.tape.focus) = some rule ∧
            here.apply rule = there := by
  unfold successor?
  cases final : program.isEnd here.state <;> simp

/-- A configuration without a successor is in an end state or has no rule. -/
theorem successor?_eq_none_iff {program : Program} {here : Configuration} :
    program.successor? here = none ↔
      program.isEnd here.state = true ∨
        Rule.first? program.rules (here.state, here.tape.focus) = none := by
  unfold successor?
  cases final : program.isEnd here.state <;> simp

/-! ## Composing steps -/

theorem after?_add (program : Program) (first second : Nat) (here : Configuration) :
    program.after? (first + second) here =
      (program.after? first here).bind (program.after? second) := by
  induction first generalizing here with
  | zero => simp [after?]
  | succ first inductionHypothesis =>
      rw [Nat.succ_add]
      simp only [after?]
      cases program.successor? here with
      | none => rfl
      | some next => exact inductionHypothesis next

theorem after?_trans {program : Program} {first second : Nat}
    {here middle there : Configuration}
    (reached : program.after? first here = some middle)
    (continued : program.after? second middle = some there) :
    program.after? (first + second) here = some there := by
  rw [after?_add, reached]
  exact continued

theorem after?_one {program : Program} {here there : Configuration}
    (next : program.successor? here = some there) :
    program.after? 1 here = some there := by
  simp only [after?, next, Option.bind_some]

/-- A run of some length has been through every shorter one. -/
theorem exists_after?_of_le {program : Program} {shorter longer : Nat}
    {here there : Configuration} (reached : program.after? longer here = some there)
    (atMost : shorter ≤ longer) :
    Exists fun middle : Configuration => program.after? shorter here = some middle ∧
      program.after? (longer - shorter) middle = some there := by
  have split : longer = shorter + (longer - shorter) := by omega
  rw [split, after?_add] at reached
  exact Option.bind_eq_some_iff.mp reached

/-- Nothing follows a configuration without a successor, so a run that has come
to one has its only possible length and end. -/
theorem after?_unique {program : Program} {first second : Nat}
    {here one other : Configuration}
    (oneReached : program.after? first here = some one)
    (oneStops : program.successor? one = none)
    (otherReached : program.after? second here = some other)
    (otherStops : program.successor? other = none) :
    first = second ∧ one = other := by
  induction first generalizing second here with
  | zero =>
      cases second with
      | zero => exact ⟨rfl, Option.some.inj (oneReached.symm.trans otherReached)⟩
      | succ second =>
          have same : here = one := Option.some.inj oneReached
          simp [after?, same, oneStops] at otherReached
  | succ first inductionHypothesis =>
      cases second with
      | zero =>
          have same : here = other := Option.some.inj otherReached
          simp [after?, same, otherStops] at oneReached
      | succ second =>
          rcases Option.bind_eq_some_iff.mp oneReached with ⟨next, successor, oneRest⟩
          simp only [after?, successor, Option.bind_some] at otherReached
          have rest := inductionHypothesis oneRest otherReached
          exact ⟨congrArg Nat.succ rest.1, rest.2⟩

end Program

/-! ## The machine goes through configurations -/

namespace Machine

def here (machine : Machine) : Configuration := ⟨machine.state, machine.tape⟩

/-- The machine at another configuration, so many steps later. -/
def moveTo (machine : Machine) (there : Configuration) (steps : Nat) : Machine :=
  { machine with
    state := there.state
    tape := there.tape
    steps := machine.steps + steps }

/-- A machine for a program, on a given tape and with nothing done. -/
def onTape (program : Program) (tape : Tape) : Machine :=
  (ofProgram program).withTape tape

/-- The machine after so many calls of `step`. -/
def afterCalls (machine : Machine) : Nat -> Machine
  | 0 => machine
  | calls + 1 => machine.step.2.afterCalls calls

theorem moveTo_moveTo (machine : Machine) (one other : Configuration) (first second : Nat) :
    (machine.moveTo one first).moveTo other second =
      machine.moveTo other (first + second) := by
  simp [moveTo, Nat.add_assoc]

theorem moveTo_here (machine : Machine) : machine.moveTo machine.here 0 = machine := rfl

theorem step_of_successor? {machine : Machine} {there : Configuration}
    (next : machine.program.successor? machine.here = some there) :
    machine.step =
      (if machine.program.isEnd there.state then .halted else .running,
        machine.moveTo there 1) := by
  rcases Program.successor?_eq_some_iff.mp next with ⟨going, rule, found, applied⟩
  have transition : machine.transition? = some rule := by
    rw [transition?_eq_first?]
    exact found
  have running : machine.isHalted = false := going
  subst applied
  simp only [step, running, transition, Bool.false_eq_true, if_false]
  rfl

/-- A step that finds no successor leaves the machine where it is and says why. -/
theorem step_of_no_successor? {machine : Machine}
    (stops : machine.program.successor? machine.here = none) :
    machine.step =
      (if machine.program.isEnd machine.state then .halted
        else .stuck machine.state machine.symbol, machine) := by
  rcases Program.successor?_eq_none_iff.mp stops with final | missing
  · have halted : machine.isHalted = true := final
    simp only [here] at final
    simp only [step, halted, final, if_true]
  · cases final : machine.program.isEnd machine.state with
    | true =>
        have halted : machine.isHalted = true := final
        simp only [step, halted, if_true]
    | false =>
        have running : machine.isHalted = false := final
        have transition : machine.transition? = none := by
          rw [transition?_eq_first?]
          exact missing
        simp only [step, running, transition, Bool.false_eq_true, if_false]

/-- Counting as many steps as calls means that every call took its step. -/
theorem afterCalls_eq_moveTo {machine : Machine} {calls : Nat} {there : Configuration}
    (reached : machine.program.after? calls machine.here = some there) :
    machine.afterCalls calls = machine.moveTo there calls := by
  induction calls generalizing machine with
  | zero =>
      have same : machine.here = there := Option.some.inj reached
      subst same
      rfl
  | succ calls inductionHypothesis =>
      rcases Option.bind_eq_some_iff.mp reached with ⟨next, successor, rest⟩
      simp only [afterCalls, step_of_successor? successor]
      have moved : (machine.moveTo next 1).afterCalls calls =
          (machine.moveTo next 1).moveTo there calls := inductionHypothesis rest
      rw [moved, moveTo_moveTo, Nat.add_comm]

theorem afterCalls_steps_le (machine : Machine) (calls : Nat) :
    (machine.afterCalls calls).steps ≤ machine.steps + calls := by
  induction calls generalizing machine with
  | zero => exact Nat.le_refl _
  | succ calls inductionHypothesis =>
      simp only [afterCalls]
      cases next : machine.program.successor? machine.here with
      | none =>
          simp only [step_of_no_successor? next]
          have bounded := inductionHypothesis machine
          omega
      | some there =>
          simp only [step_of_successor? next]
          have bounded := inductionHypothesis (machine.moveTo there 1)
          simp only [moveTo] at bounded ⊢
          omega

/-- A machine has counted a step for each of its calls exactly when its program
takes that many steps, and then it is where they lead. -/
theorem after?_eq_some_iff (machine : Machine) (calls : Nat) (there : Configuration) :
    machine.program.after? calls machine.here = some there ↔
      (machine.afterCalls calls).steps = machine.steps + calls ∧
        (machine.afterCalls calls).here = there := by
  constructor
  · intro reached
    rw [afterCalls_eq_moveTo reached]
    exact ⟨rfl, rfl⟩
  · rintro ⟨counted, same⟩
    induction calls generalizing machine with
    | zero => exact congrArg some same
    | succ calls inductionHypothesis =>
        cases next : machine.program.successor? machine.here with
        | none =>
            have bounded := afterCalls_steps_le machine calls
            simp only [afterCalls, step_of_no_successor? next] at counted
            omega
        | some middle =>
            simp only [afterCalls, step_of_successor? next] at counted same
            have rest := inductionHypothesis (machine.moveTo middle 1)
              (by simpa only [moveTo, Nat.add_assoc, Nat.add_comm 1] using counted) same
            simp only [Program.after?, next, Option.bind_some]
            exact rest

/-! ## Bounded runs -/

/-- How a run of a program under a step limit can end: with which verdict, where
and after how many steps. -/
inductive Ending (program : Program) (here : Configuration) (limit : Nat) :
    Verdict -> Configuration -> Nat -> Prop where
  | halted {there : Configuration} {steps : Nat} (bounded : steps ≤ limit)
      (reached : program.after? steps here = some there)
      (final : program.isEnd there.state = true) :
      Ending program here limit .halted there steps
  | stuck {there : Configuration} {steps : Nat} (bounded : steps < limit)
      (reached : program.after? steps here = some there)
      (going : program.isEnd there.state = false)
      (missing : Rule.first? program.rules (there.state, there.tape.focus) = none) :
      Ending program here limit (.stuck there.state there.tape.focus) there steps
  | stepLimit {there : Configuration}
      (reached : program.after? limit here = some there)
      (going : program.isEnd there.state = false) :
      Ending program here limit .stepLimit there limit

/-- One more step in front of a run changes its end in nothing but the count. -/
theorem Ending.prolong {program : Program} {here middle there : Configuration}
    {limit steps : Nat} {verdict : Verdict}
    (next : program.successor? here = some middle)
    (ending : Ending program middle limit verdict there steps) :
    Ending program here (limit + 1) verdict there (steps + 1) := by
  have prolonged : forall {count : Nat} {last : Configuration},
      program.after? count middle = some last ->
        program.after? (count + 1) here = some last := by
    intro count last reached
    simpa only [Program.after?, next, Option.bind_some] using reached
  cases ending with
  | halted bounded reached final => exact .halted (by omega) (prolonged reached) final
  | stuck bounded reached going missing =>
      exact .stuck (by omega) (prolonged reached) going missing
  | stepLimit reached going => exact .stepLimit (prolonged reached) going

/-- A run that comes to an end state within the limit halts there. -/
theorem Ending.eq_halted {program : Program} {here there last : Configuration}
    {limit steps count : Nat} {verdict : Verdict}
    (ending : Ending program here limit verdict last count)
    (reached : program.after? steps here = some there)
    (final : program.isEnd there.state = true) (bounded : steps ≤ limit) :
    verdict = .halted ∧ last = there ∧ count = steps := by
  have stops : program.successor? there = none := Program.successor?_of_isEnd final
  cases ending with
  | halted _ lastReached lastFinal =>
      have unique := Program.after?_unique lastReached (Program.successor?_of_isEnd lastFinal)
        reached stops
      exact ⟨rfl, unique.2, unique.1⟩
  | stuck _ lastReached going missing =>
      have unique := Program.after?_unique lastReached
        (Program.successor?_eq_none_iff.mpr (Or.inr missing)) reached stops
      rw [unique.2, final] at going
      cases going
  | stepLimit lastReached going =>
      rcases Program.exists_after?_of_le lastReached bounded with ⟨middle, between, rest⟩
      have same : middle = there := Option.some.inj (between.symm.trans reached)
      subst same
      cases left : limit - steps with
      | zero =>
          rw [left] at rest
          rw [← Option.some.inj rest, final] at going
          cases going
      | succ more =>
          rw [left, Program.after?, stops] at rest
          cases rest

/-- Every bounded run of a machine ends in one of these ways, and leaves the
machine at the configuration where it ended. -/
theorem exists_ending (observe : σ -> Machine -> σ) (limit : Nat) (machine : Machine)
    (seen : σ) :
    Exists fun verdict : Verdict => Exists fun there : Configuration =>
      Exists fun steps : Nat => Exists fun later : σ =>
        Ending machine.program machine.here limit verdict there steps ∧
          runFor observe limit machine seen =
            (verdict, machine.moveTo there steps, later) := by
  induction limit generalizing machine seen with
  | zero =>
      cases final : machine.program.isEnd machine.state with
      | true =>
          refine ⟨_, machine.here, 0, seen, .halted (Nat.le_refl 0) rfl final, ?_⟩
          have halted : machine.isHalted = true := final
          simp only [runFor, halted, if_true, moveTo_here]
      | false =>
          refine ⟨_, machine.here, 0, seen, .stepLimit rfl final, ?_⟩
          have running : machine.isHalted = false := final
          simp only [runFor, running, Bool.false_eq_true, if_false, moveTo_here]
  | succ limit inductionHypothesis =>
      cases next : machine.program.successor? machine.here with
      | none =>
          have stays := step_of_no_successor? next
          cases final : machine.program.isEnd machine.state with
          | true =>
              refine ⟨_, machine.here, 0, seen, .halted (Nat.zero_le _) rfl final, ?_⟩
              simp only [runFor, stays, final, if_true, moveTo_here]
          | false =>
              have missing := (Program.successor?_eq_none_iff.mp next).resolve_left
                (by simp [here, final])
              refine ⟨_, machine.here, 0, seen,
                .stuck (Nat.succ_pos _) rfl final missing, ?_⟩
              simp only [runFor, stays, final, Bool.false_eq_true, if_false, moveTo_here]
              rfl
      | some middle =>
          have goes := step_of_successor? next
          cases final : machine.program.isEnd middle.state with
          | true =>
              refine ⟨_, middle, 1, seen,
                .halted (by omega) (Program.after?_one next) final, ?_⟩
              simp only [runFor, goes, final, if_true]
          | false =>
              rcases inductionHypothesis (machine.moveTo middle 1)
                  (observe seen (machine.moveTo middle 1)) with
                ⟨verdict, there, steps, later, ending, result⟩
              refine ⟨verdict, there, steps + 1, later, ending.prolong next, ?_⟩
              simp only [runFor, goes, final, Bool.false_eq_true, if_false]
              rw [result, moveTo_moveTo, Nat.add_comm]

end Machine

/-! ## The three ways a run can go -/

namespace Program

/-- Run a program on a tape under a step limit. -/
def runOn (program : Program) (tape : Tape) (limit : Nat) : Verdict × Machine :=
  ((Machine.onTape program tape).withLimit limit).run

/-- Under some limit the run halts, at this configuration and after so many steps. -/
def HaltsAt (program : Program) (tape : Tape) (steps : Nat) (there : Configuration) :
    Prop :=
  Exists fun limit : Nat => Exists fun machine : Machine =>
    program.runOn tape limit = (.halted, machine) ∧ machine.steps = steps ∧
      machine.here = there

/-- Under some limit the run finds no rule for this state and symbol, and is left
at this configuration. -/
def StuckAt (program : Program) (tape : Tape) (state : StateName) (symbol : Symbol)
    (there : Configuration) : Prop :=
  Exists fun limit : Nat => Exists fun machine : Machine =>
    program.runOn tape limit = (.stuck state symbol, machine) ∧ machine.here = there

/-- Every limit is reached. -/
def RunsForever (program : Program) (tape : Tape) : Prop :=
  forall limit, (program.runOn tape limit).1 = .stepLimit

/-- The configuration a run on a tape starts from. -/
def initial (program : Program) (tape : Tape) : Configuration := ⟨program.start, tape⟩

theorem exists_ending_runOn (program : Program) (tape : Tape) (limit : Nat) :
    Exists fun verdict : Verdict => Exists fun there : Configuration =>
      Exists fun steps : Nat => Exists fun machine : Machine =>
        Machine.Ending program (program.initial tape) limit verdict there steps ∧
          program.runOn tape limit = (verdict, machine) ∧ machine.steps = steps ∧
          machine.here = there := by
  rcases Machine.exists_ending (fun seen _ => seen) limit
      ((Machine.onTape program tape).withLimit limit) () with
    ⟨verdict, there, steps, later, ending, result⟩
  refine ⟨verdict, there, steps,
    ((Machine.onTape program tape).withLimit limit).moveTo there steps,
    ending, ?_, Nat.zero_add steps, rfl⟩
  have unfolded : program.runOn tape limit =
      ((Machine.runFor (fun seen _ => seen) limit
          ((Machine.onTape program tape).withLimit limit) ()).1,
        (Machine.runFor (fun seen _ => seen) limit
          ((Machine.onTape program tape).withLimit limit) ()).2.1) := rfl
  rw [unfolded, result]

/-- Halting, told by configurations alone. -/
theorem haltsAt_iff (program : Program) (tape : Tape) (steps : Nat) (there : Configuration) :
    program.HaltsAt tape steps there ↔
      program.after? steps (program.initial tape) = some there ∧
        program.isEnd there.state = true := by
  constructor
  · rintro ⟨limit, machine, result, rfl, rfl⟩
    rcases program.exists_ending_runOn tape limit with
      ⟨verdict, last, count, stopped, ending, computed, counted, located⟩
    rcases Prod.mk.inj (result.symm.trans computed) with ⟨verdictSame, machineSame⟩
    subst machineSame counted located
    cases ending with
    | halted bounded reached final => exact ⟨reached, final⟩
    | stuck | stepLimit => cases verdictSame
  · rintro ⟨reached, final⟩
    rcases program.exists_ending_runOn tape steps with
      ⟨verdict, last, count, stopped, ending, computed, counted, located⟩
    rcases ending.eq_halted reached final (Nat.le_refl steps) with ⟨rfl, rfl, rfl⟩
    exact ⟨_, stopped, computed, counted, located⟩

/-- Being stuck, told by configurations alone. -/
theorem stuckAt_iff (program : Program) (tape : Tape) (state : StateName) (symbol : Symbol)
    (there : Configuration) :
    program.StuckAt tape state symbol there ↔
      there.state = state ∧ there.tape.focus = symbol ∧
        program.isEnd there.state = false ∧
        Rule.first? program.rules (there.state, there.tape.focus) = none ∧
        Exists fun steps : Nat =>
          program.after? steps (program.initial tape) = some there := by
  constructor
  · rintro ⟨limit, machine, result, rfl⟩
    rcases program.exists_ending_runOn tape limit with
      ⟨verdict, last, count, stopped, ending, computed, counted, located⟩
    rcases Prod.mk.inj (result.symm.trans computed) with ⟨verdictSame, machineSame⟩
    subst machineSame located
    cases ending with
    | halted | stepLimit => cases verdictSame
    | stuck bounded reached going missing =>
        rcases Verdict.stuck.inj verdictSame with ⟨stateSame, symbolSame⟩
        exact ⟨stateSame.symm, symbolSame.symm, going, missing, count, reached⟩
  · rintro ⟨rfl, rfl, going, missing, steps, reached⟩
    have stops : program.successor? there = none :=
      successor?_eq_none_iff.mpr (Or.inr missing)
    rcases program.exists_ending_runOn tape (steps + 1) with
      ⟨verdict, last, count, stopped, ending, computed, counted, located⟩
    cases ending with
    | halted bounded lastReached lastFinal =>
        have unique := after?_unique reached stops lastReached (successor?_of_isEnd lastFinal)
        rw [← unique.2, going] at lastFinal
        cases lastFinal
    | stuck bounded lastReached lastGoing lastMissing =>
        have unique := after?_unique reached stops lastReached
          (successor?_eq_none_iff.mpr (Or.inr lastMissing))
        rw [unique.2]
        exact ⟨steps + 1, stopped, computed, located⟩
    | stepLimit lastReached lastGoing =>
        rw [after?_add, reached] at lastReached
        simp [after?, stops] at lastReached

/-- Running forever, told by configurations alone. -/
theorem runsForever_iff (program : Program) (tape : Tape) :
    program.RunsForever tape ↔
      forall steps, Exists fun there : Configuration =>
        program.after? steps (program.initial tape) = some there := by
  constructor
  · intro forever limit
    rcases program.exists_ending_runOn tape limit with
      ⟨verdict, last, count, stopped, ending, computed, counted, located⟩
    have reported : verdict = .stepLimit := by
      rw [← forever limit, computed]
    cases ending with
    | halted | stuck => cases reported
    | stepLimit reached going => exact ⟨last, reached⟩
  · intro endless limit
    rcases program.exists_ending_runOn tape limit with
      ⟨verdict, last, count, stopped, ending, computed, counted, located⟩
    -- Where a run stops there is no configuration one step later.
    have goesOn : program.after? count (program.initial tape) = some last ->
        program.successor? last ≠ none := by
      intro reached stops
      rcases endless (count + 1) with ⟨later, laterReached⟩
      rw [after?_add, reached] at laterReached
      simp [after?, stops] at laterReached
    rw [computed]
    cases ending with
    | halted bounded reached final =>
        exact False.elim (goesOn reached (successor?_of_isEnd final))
    | stuck bounded reached going missing =>
        exact False.elim (goesOn reached (successor?_eq_none_iff.mpr (Or.inr missing)))
    | stepLimit reached going => rfl

/-- Every run halts, is stuck or goes on forever. -/
theorem halts_or_stuck_or_runsForever (program : Program) (tape : Tape) :
    (Exists fun steps : Nat => Exists fun there : Configuration =>
      program.HaltsAt tape steps there) ∨
    (Exists fun state : StateName => Exists fun symbol : Symbol =>
      Exists fun there : Configuration => program.StuckAt tape state symbol there) ∨
    program.RunsForever tape := by
  by_cases forever : program.RunsForever tape
  · exact Or.inr (Or.inr forever)
  · rcases Classical.not_forall.mp forever with ⟨limit, stopsEarly⟩
    rcases program.exists_ending_runOn tape limit with
      ⟨verdict, last, count, stopped, ending, computed, counted, located⟩
    cases ending with
    | halted bounded reached final =>
        exact Or.inl ⟨count, last, limit, stopped, computed, counted, located⟩
    | stuck bounded reached going missing =>
        exact Or.inr (Or.inl ⟨_, _, last, limit, stopped, computed, located⟩)
    | stepLimit reached going => exact False.elim (stopsEarly (by rw [computed]))

/-! ## The three ways exclude each other -/

theorem haltsAt_unique {program : Program} {tape : Tape} {first second : Nat}
    {one other : Configuration} (firstHalts : program.HaltsAt tape first one)
    (secondHalts : program.HaltsAt tape second other) : first = second ∧ one = other := by
  have firstEnds := (program.haltsAt_iff tape first one).mp firstHalts
  have secondEnds := (program.haltsAt_iff tape second other).mp secondHalts
  exact after?_unique firstEnds.1 (successor?_of_isEnd firstEnds.2)
    secondEnds.1 (successor?_of_isEnd secondEnds.2)

theorem not_stuckAt_of_haltsAt {program : Program} {tape : Tape} {steps : Nat}
    {there : Configuration} (halts : program.HaltsAt tape steps there)
    (state : StateName) (symbol : Symbol) (other : Configuration) :
    Not (program.StuckAt tape state symbol other) := by
  intro stuck
  rcases (program.haltsAt_iff tape steps there).mp halts with ⟨reached, final⟩
  rcases (program.stuckAt_iff tape state symbol other).mp stuck with
    ⟨-, -, going, missing, count, otherReached⟩
  have unique := after?_unique reached (successor?_of_isEnd final) otherReached
    (successor?_eq_none_iff.mpr (Or.inr missing))
  rw [← unique.2, final] at going
  cases going

theorem stuckAt_unique {program : Program} {tape : Tape} {first second : StateName}
    {left right : Symbol} {one other : Configuration}
    (firstStuck : program.StuckAt tape first left one)
    (secondStuck : program.StuckAt tape second right other) :
    first = second ∧ left = right ∧ one = other := by
  rcases (program.stuckAt_iff tape first left one).mp firstStuck with
    ⟨rfl, rfl, -, missing, steps, reached⟩
  rcases (program.stuckAt_iff tape second right other).mp secondStuck with
    ⟨rfl, rfl, -, otherMissing, count, otherReached⟩
  have unique := after?_unique reached (successor?_eq_none_iff.mpr (Or.inr missing))
    otherReached (successor?_eq_none_iff.mpr (Or.inr otherMissing))
  rw [unique.2]
  exact ⟨rfl, rfl, rfl⟩

/-- A run that comes to a configuration without a successor does not go on forever. -/
theorem not_runsForever_of_after? {program : Program} {tape : Tape} {steps : Nat}
    {there : Configuration}
    (reached : program.after? steps (program.initial tape) = some there)
    (stops : program.successor? there = none) : Not (program.RunsForever tape) := by
  intro forever
  rcases (program.runsForever_iff tape).mp forever (steps + 1) with ⟨later, laterReached⟩
  rw [after?_add, reached] at laterReached
  simp [after?, stops] at laterReached

theorem not_runsForever_of_haltsAt {program : Program} {tape : Tape} {steps : Nat}
    {there : Configuration} (halts : program.HaltsAt tape steps there) :
    Not (program.RunsForever tape) := by
  rcases (program.haltsAt_iff tape steps there).mp halts with ⟨reached, final⟩
  exact not_runsForever_of_after? reached (successor?_of_isEnd final)

theorem not_runsForever_of_stuckAt {program : Program} {tape : Tape} {state : StateName}
    {symbol : Symbol} {there : Configuration}
    (stuck : program.StuckAt tape state symbol there) : Not (program.RunsForever tape) := by
  rcases (program.stuckAt_iff tape state symbol there).mp stuck with
    ⟨-, -, -, missing, steps, reached⟩
  exact not_runsForever_of_after? reached (successor?_eq_none_iff.mpr (Or.inr missing))

/-- Runs that are long enough for every bound never end. -/
theorem runsForever_of_unbounded {program : Program} {tape : Tape}
    (unbounded : forall bound, Exists fun steps : Nat => Exists fun there : Configuration =>
      bound ≤ steps ∧ program.after? steps (program.initial tape) = some there) :
    program.RunsForever tape := by
  apply (program.runsForever_iff tape).mpr
  intro bound
  rcases unbounded bound with ⟨steps, there, enough, reached⟩
  rcases exists_after?_of_le reached enough with ⟨middle, earlier, _⟩
  exact ⟨middle, earlier⟩

/-- A run ends in one way only.  So a description of endings under which every run
ends somehow is exact as soon as the described endings do occur. -/
theorem endings_exact {program : Program} {tape : Tape} {halts stuck : Configuration -> Prop}
    {forever : Prop}
    (total : (Exists fun there : Configuration => halts there) ∨
      (Exists fun there : Configuration => stuck there) ∨ forever)
    (haltsSound : forall there, halts there ->
      Exists fun steps : Nat => program.HaltsAt tape steps there)
    (stuckSound : forall there, stuck there ->
      program.StuckAt tape there.state there.tape.focus there)
    (foreverSound : forever -> program.RunsForever tape) :
    (forall there, (Exists fun steps : Nat => program.HaltsAt tape steps there) ↔
      halts there) ∧
    (forall state symbol there, program.StuckAt tape state symbol there ↔
      there.state = state ∧ there.tape.focus = symbol ∧ stuck there) ∧
    (program.RunsForever tape ↔ forever) := by
  refine ⟨fun there => ⟨?_, haltsSound there⟩, fun state symbol there => ⟨?_, ?_⟩,
    ⟨?_, foreverSound⟩⟩
  · rintro ⟨steps, halted⟩
    rcases total with ⟨other, described⟩ | ⟨other, described⟩ | described
    · rcases haltsSound other described with ⟨count, otherHalted⟩
      rw [(haltsAt_unique halted otherHalted).2]
      exact described
    · exact absurd (stuckSound other described) (not_stuckAt_of_haltsAt halted _ _ _)
    · exact absurd (foreverSound described) (not_runsForever_of_haltsAt halted)
  · intro stopped
    rcases total with ⟨other, described⟩ | ⟨other, described⟩ | described
    · rcases haltsSound other described with ⟨count, otherHalted⟩
      exact absurd stopped (not_stuckAt_of_haltsAt otherHalted _ _ _)
    · rcases stuckAt_unique (stuckSound other described) stopped with ⟨states, symbols, same⟩
      rw [← same]
      exact ⟨states, symbols, described⟩
    · exact absurd (foreverSound described) (not_runsForever_of_stuckAt stopped)
  · rintro ⟨rfl, rfl, described⟩
    exact stuckSound there described
  · intro endless
    rcases total with ⟨other, described⟩ | ⟨other, described⟩ | described
    · rcases haltsSound other described with ⟨count, otherHalted⟩
      exact absurd endless (not_runsForever_of_haltsAt otherHalted)
    · exact absurd endless (not_runsForever_of_stuckAt (stuckSound other described))
    · exact described

end Program

end BinaryTape
