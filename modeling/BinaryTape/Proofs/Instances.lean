import BinaryTape.Proofs.Names
import BinaryTape.Proofs.Runs

namespace BinaryTape

/-!
# Instances run as their modules do

A call copies the rules of a module into a host table.  The states of the copy are
marked, its exits are states of the host, and the host table may hold any number
of other rules.  `Placed` says what is needed of the host for the copy to work: it
finds the entry rules at the entry state and, at every marked state, the copy of
the first rule that the module itself would find there.

Under that condition the host, one step after it is at the entry state, goes
through the configurations of the module one by one.  The states differ by their
marks until the module comes to an end state; there the host is at the exit.
-/

namespace Instance

open BinaryTape.Module (marked qualify invocationScope declare)

/-- The state of the host for a state of the module: the exit bound to the first
position of an end state, and otherwise the marked state. -/
def outside (program : Program) (name : String) (invocation : Nat) (exits : List StateName)
    (state : StateName) : StateName :=
  (exits[program.ends.idxOf state]?).getD (marked name invocation state)

/-- The rule of the host for a rule of the module. -/
def image (program : Program) (name : String) (invocation : Nat) (exits : List StateName)
    (rule : Rule) : Rule :=
  { rule with
    state := marked name invocation rule.state
    next := outside program name invocation exits rule.next }

variable {program host : Program} {name : String} {invocation : Nat}
  {entryState : StateName} {exits : List StateName}

theorem outside_of_not_mem (exitCount : exits.length = program.ends.length)
    {state : StateName} (going : program.isEnd state = false) :
    outside program name invocation exits state = marked name invocation state := by
  have absent : Not (state ∈ program.ends) := by
    simpa [Program.isEnd] using going
  have behind : exits.length ≤ program.ends.idxOf state :=
    Nat.le_of_eq (exitCount.trans (List.idxOf_eq_length absent).symm)
  rw [outside, List.getElem?_eq_none behind]
  rfl

theorem outside_of_getElem? {state exit : StateName}
    (bound : exits[program.ends.idxOf state]? = some exit) :
    outside program name invocation exits state = exit := by
  rw [outside, bound]
  rfl

theorem getElem?_idxOf_of_isEnd (exitCount : exits.length = program.ends.length)
    {state : StateName} (final : program.isEnd state = true) :
    exits[program.ends.idxOf state]? =
      some (outside program name invocation exits state) := by
  have member : state ∈ program.ends := by
    simpa [Program.isEnd] using final
  have inside : program.ends.idxOf state < exits.length := by
    rw [exitCount]
    exact List.idxOf_lt_length_of_mem member
  rw [outside, List.getElem?_eq_getElem inside]
  rfl

/-! ## The rules of a call -/

/-- Binding end states to exits by position and looking a state up afterwards
gives the exit at its first position. -/
private theorem lookup_zip_map {ends exits : List StateName}
    (exitCount : exits.length = ends.length) (state : StateName) :
    ((ends.map (qualify name)).zip exits).lookup (qualify name state) =
      exits[ends.idxOf state]? := by
  induction ends generalizing exits with
  | nil =>
      have nothing : exits = [] := List.eq_nil_of_length_eq_zero exitCount
      simp [nothing]
  | cons ending ends inductionHypothesis =>
      cases exits with
      | nil => cases exitCount
      | cons exit exits =>
          rw [List.map_cons, List.zip_cons_cons, List.lookup_cons, List.idxOf_cons]
          by_cases same : ending = state
          · subst same
            simp
          · have different : (qualify name state == qualify name ending) = false := by
              apply beq_eq_false_iff_ne.mpr
              intro equal
              exact same ((String.append_right_inj _).mp equal).symm
            simp only [different, beq_eq_false_iff_ne.mpr same, cond_false]
            rw [inductionHypothesis (Nat.succ.inj exitCount), List.getElem?_cons_succ]

theorem target_declare (exitCount : exits.length = program.ends.length) (state : StateName) :
    target (declare name program) (invocationScope invocation) exits (qualify name state) =
      outside program name invocation exits state := by
  unfold target outside
  rw [show (declare name program).ends = program.ends.map (qualify name) from rfl,
    lookup_zip_map exitCount]
  rfl

/-- The copied rules of a call are the images of the module's rules. -/
theorem map_copy_declare (exitCount : exits.length = program.ends.length) :
    (declare name program).rules.map
        (copy (declare name program) (invocationScope invocation) exits) =
      program.rules.map (image program name invocation exits) := by
  rw [show (declare name program).rules = program.rules.map (fun rule =>
    { rule with state := qualify name rule.state, next := qualify name rule.next }) from rfl,
    List.map_map]
  apply List.map_congr_left
  intro rule _
  simp only [Function.comp, copy, target_declare exitCount, image]
  rfl

/-- Looking up a marked state among the copied rules is looking up the state in
the module. -/
theorem first?_map_image (state : StateName) (symbol : Symbol) :
    Rule.first? (program.rules.map (image program name invocation exits))
        (marked name invocation state, symbol) =
      (Rule.first? program.rules (state, symbol)).map
        (image program name invocation exits) := by
  unfold Rule.first?
  rw [List.find?_map]
  congr 2
  funext rule
  apply Bool.eq_iff_iff.mpr
  simp only [Function.comp, Rule.address, image, beq_iff_eq, Prod.mk.injEq]
  constructor
  · rintro ⟨states, symbols⟩
    exact ⟨Names.marked_injective states, symbols⟩
  · rintro ⟨states, symbols⟩
    exact ⟨congrArg (marked name invocation) states, symbols⟩

/-- A call with as many exits as the table has end states succeeds. -/
theorem instantiate_declare (exitCount : exits.length = program.ends.length) :
    Module.Entry.instantiate ⟨declare name program, invocation⟩ entryState exits =
      .ok (rules (declare name program) (invocationScope invocation) entryState exits,
        ⟨declare name program, invocation + 1⟩) := by
  have lengths : (declare name program).ends.length = exits.length := by
    rw [exitCount]
    exact List.length_map _
  rw [Module.Entry.instantiate, if_pos lengths]
  rfl

/-! ## Placing a call in a host -/

/-- What the host must find at the entry state and at the marked states. -/
structure Placed (program : Program) (name : String) (invocation : Nat)
    (entryState : StateName) (exits : List StateName) (host : Program) : Prop where
  exit_count : exits.length = program.ends.length
  entry_rule : forall symbol, Rule.first? host.rules (entryState, symbol) =
    some ⟨entryState, symbol, marked name invocation program.start, symbol, .stay⟩
  inner_rule : forall state symbol,
    Rule.first? host.rules (marked name invocation state, symbol) =
      (Rule.first? program.rules (state, symbol)).map (image program name invocation exits)
  entry_going : host.isEnd entryState = false
  inner_going : forall state, host.isEnd (marked name invocation state) = false

/-- A call is placed by its rules, provided that no rule before it starts at the
entry state and no rule before or behind it starts at a marked state. -/
theorem Placed.of_rules {before behind : List Rule}
    (rulesSame : host.rules =
      before ++ rules (declare name program) (invocationScope invocation) entryState exits ++
        behind)
    (exitCount : exits.length = program.ends.length)
    (entryFree : forall rule, rule ∈ before -> rule.state ≠ entryState)
    (beforeFree : forall rule, rule ∈ before -> forall state,
      rule.state ≠ marked name invocation state)
    (behindFree : forall rule, rule ∈ behind -> forall state,
      rule.state ≠ marked name invocation state)
    (entryUnmarked : forall state, entryState ≠ marked name invocation state)
    (entryGoing : host.isEnd entryState = false)
    (innerGoing : forall state, host.isEnd (marked name invocation state) = false) :
    Placed program name invocation entryState exits host where
  exit_count := exitCount
  entry_rule symbol := by
    rw [rulesSame, rules, Rule.first?_append, Rule.first?_append, Rule.first?_append,
      Rule.first?_eq_none_of_state entryFree, Rule.first?_handOver]
    rfl
  inner_rule state symbol := by
    have entryAbsent : Rule.first?
        (Rule.handOver entryState ((declare name program).start ++ invocationScope invocation))
        (marked name invocation state, symbol) = none := by
      apply Rule.first?_eq_none_of_state
      intro rule member
      rcases List.mem_map.mp member with ⟨read, -, rfl⟩
      exact entryUnmarked state
    rw [rulesSame, rules, map_copy_declare exitCount, Rule.first?_append, Rule.first?_append,
      Rule.first?_append, entryAbsent, first?_map_image,
      Rule.first?_eq_none_of_state (fun rule member => beforeFree rule member state),
      Rule.first?_eq_none_of_state (fun rule member => behindFree rule member state)]
    simp
  entry_going := entryGoing
  inner_going := innerGoing

/-! ## Runs of a placed call -/

namespace Placed

/-- The first step hands control to the marked start state. -/
theorem enter (placed : Placed program name invocation entryState exits host) (tape : Tape) :
    host.successor? ⟨entryState, tape⟩ =
      some ⟨marked name invocation program.start, tape⟩ := by
  have next : host.successor? ⟨entryState, tape⟩ = some (Configuration.apply _ _) :=
    Program.successor?_of_first? placed.entry_going (placed.entry_rule tape.focus)
  simpa only [Configuration.apply, Tape.write, Tape.move] using next

/-- One step of the module is one step of its copy. -/
theorem step (placed : Placed program name invocation entryState exits host)
    {here there : Configuration} (next : program.successor? here = some there) :
    host.successor? ⟨marked name invocation here.state, here.tape⟩ =
      some ⟨outside program name invocation exits there.state, there.tape⟩ := by
  rcases Program.successor?_eq_some_iff.mp next with ⟨-, rule, found, rfl⟩
  have copied := placed.inner_rule here.state here.tape.focus
  rw [found, Option.map_some] at copied
  have next : host.successor? ⟨marked name invocation here.state, here.tape⟩ =
      some (Configuration.apply _ _) :=
    Program.successor?_of_first? (placed.inner_going here.state) copied
  exact next

/-- A whole run of the module from a state that is no end state. -/
theorem run (placed : Placed program name invocation entryState exits host) {steps : Nat}
    {here there : Configuration} (going : program.isEnd here.state = false)
    (reached : program.after? steps here = some there) :
    host.after? steps ⟨marked name invocation here.state, here.tape⟩ =
      some ⟨outside program name invocation exits there.state, there.tape⟩ := by
  induction steps generalizing here with
  | zero =>
      have same : here = there := Option.some.inj reached
      subst same
      rw [outside_of_not_mem placed.exit_count going]
      rfl
  | succ steps inductionHypothesis =>
      rcases Option.bind_eq_some_iff.mp reached with ⟨middle, next, rest⟩
      simp only [Program.after?, placed.step next, Option.bind_some]
      cases final : program.isEnd middle.state with
      | false =>
          rw [outside_of_not_mem placed.exit_count final]
          exact inductionHypothesis final rest
      | true =>
          -- The module has halted, so this was its last step.
          cases steps with
          | zero =>
              have same : middle = there := Option.some.inj rest
              rw [same]
              rfl
          | succ steps =>
              simp [Program.after?, Program.successor?_of_isEnd final] at rest

/-- The host is one step behind a module that does not halt at once. -/
theorem run_from_entry (placed : Placed program name invocation entryState exits host)
    (starts : program.isEnd program.start = false) {steps : Nat} {tape : Tape}
    {there : Configuration}
    (reached : program.after? steps (program.initial tape) = some there) :
    host.after? (steps + 1) ⟨entryState, tape⟩ =
      some ⟨outside program name invocation exits there.state, there.tape⟩ := by
  simp only [Program.after?, placed.enter, Option.bind_some]
  have entered : program.isEnd (program.initial tape).state = false := starts
  exact placed.run entered reached

/-- The copy has a rule exactly where the module has one. -/
theorem first?_eq_none_iff (placed : Placed program name invocation entryState exits host)
    (state : StateName) (symbol : Symbol) :
    Rule.first? host.rules (marked name invocation state, symbol) = none ↔
      Rule.first? program.rules (state, symbol) = none := by
  rw [placed.inner_rule, Option.map_eq_none_iff]

end Placed

/--
Inlining a module simulates running it.  The host table consists of any rules
that start neither at the entry state nor at a marked state, followed by the rules
of the call.  When the module has taken `count` steps, the host has taken one
more, its tape is the module's, and its state is the exit bound to the first
position of an end state, or the marked state; and at a state that is no end state
the host lacks a rule exactly when the module does.
-/
theorem instance_simulates_module (program : Program) (name : String) (invocation : Nat)
    (table : List Rule) (entryState : StateName) (hostEnds exits : List StateName)
    (starts : program.isEnd program.start = false)
    (exitCount : exits.length = program.ends.length)
    (entryFree : forall rule, rule ∈ table -> rule.state ≠ entryState)
    (markedFree : forall rule, rule ∈ table -> forall state,
      rule.state ≠ marked name invocation state)
    (entryUnmarked : forall state, entryState ≠ marked name invocation state)
    (entryGoing : Not (entryState ∈ hostEnds))
    (markedGoing : forall state, Not (marked name invocation state ∈ hostEnds)) :
    Exists fun added : List Rule => Exists fun entry : Module.Entry =>
      Module.Entry.instantiate ⟨declare name program, invocation⟩ entryState exits =
          .ok (added, entry) ∧
        forall (tape : Tape) (count : Nat) (inner outer : Machine),
          inner = (Machine.onTape program tape).afterCalls count ->
          outer = (Machine.onTape ⟨entryState, hostEnds, table ++ added⟩ tape).afterCalls
            (count + 1) ->
          inner.steps = count ->
            outer.steps = count + 1 ∧ outer.tape = inner.tape ∧
              (program.isEnd inner.state = true ->
                exits[program.ends.idxOf inner.state]? = some outer.state) ∧
              (program.isEnd inner.state = false ->
                outer.state = marked name invocation inner.state ∧
                  (inner.transition? = none ↔ outer.transition? = none)) := by
  let host : Program := ⟨entryState, hostEnds,
    table ++ rules (declare name program) (invocationScope invocation) entryState exits⟩
  have placed : Placed program name invocation entryState exits host :=
    .of_rules (List.append_nil _).symm exitCount entryFree markedFree
      (fun _ impossible => False.elim (List.not_mem_nil impossible)) entryUnmarked
      (by simpa [host, Program.isEnd] using entryGoing)
      (fun state => by simpa [host, Program.isEnd] using markedGoing state)
  refine ⟨_, _, instantiate_declare exitCount, ?_⟩
  rintro tape count inner outer innerSame rfl counted
  have innerReached : program.after? count (program.initial tape) = some inner.here := by
    apply (Machine.after?_eq_some_iff (Machine.onTape program tape) count inner.here).mpr
    rw [← innerSame]
    exact ⟨counted.trans (Nat.zero_add count).symm, rfl⟩
  have innerMoved : inner = (Machine.onTape program tape).moveTo inner.here count := by
    rw [← Machine.afterCalls_eq_moveTo innerReached]
    exact innerSame
  have outerReached : host.after? (count + 1) (host.initial tape) =
      some ⟨outside program name invocation exits inner.state, inner.tape⟩ :=
    placed.run_from_entry starts innerReached
  rw [show (Machine.onTape host tape).afterCalls (count + 1) = _ from
    Machine.afterCalls_eq_moveTo outerReached]
  refine ⟨Nat.zero_add _, rfl, ?_, ?_⟩
  · intro final
    exact (getElem?_idxOf_of_isEnd exitCount final).trans rfl
  · intro going
    have stateMarked : outside program name invocation exits inner.state =
        marked name invocation inner.state := outside_of_not_mem exitCount going
    refine ⟨stateMarked, ?_⟩
    rw [Machine.transition?_eq_first?, Machine.transition?_eq_first?, innerMoved]
    have sameRules := placed.first?_eq_none_iff inner.state inner.tape.focus
    rw [← stateMarked] at sameRules
    exact sameRules.symm

/-- A module with two end states. -/
def twoWays : Program := ⟨"s", ["a", "b"], [⟨"s", .one, "b", .zero, .right⟩]⟩

/-- A host with a rule of its own behind the second exit, and with the copy that the second
call of the module has made. -/
def calledTwice : List Rule :=
  [⟨"y", .zero, "A", .one, .left⟩, ⟨marked "two" 1 "s", .one, "A", .zero, .right⟩]

/-- The third call.  One step of the module leads to its second end state, so the second
step of the host leads to the second exit. -/
theorem instance_simulates_third_call :
    Exists fun added : List Rule => Exists fun entry : Module.Entry =>
      Module.Entry.instantiate ⟨declare "two" twoWays, 2⟩ "A" ["x", "y"] =
          .ok (added, entry) ∧
        ((Machine.onTape ⟨"A", ["x"], calledTwice ++ added⟩ ⟨[], .one, []⟩).afterCalls
          2).steps = 2 ∧
        ((Machine.onTape ⟨"A", ["x"], calledTwice ++ added⟩ ⟨[], .one, []⟩).afterCalls
          2).state = "y" := by
  have unmarked : forall other, Names.Unclosed other -> forall state,
      other ≠ marked "two" 2 state := fun other unclosed state =>
    (Names.marked_ne_of_unclosed "two" 2 state unclosed).symm
  have entryFree : forall rule, rule ∈ calledTwice -> rule.state ≠ "A" := by
    simp only [calledTwice, List.forall_mem_cons]
    exact ⟨by decide, Names.marked_ne_of_unclosed "two" 1 "s" (by decide),
      fun _ impossible => nomatch impossible⟩
  have markedFree : forall rule, rule ∈ calledTwice -> forall state,
      rule.state ≠ marked "two" 2 state := by
    simp only [calledTwice, List.forall_mem_cons]
    refine ⟨unmarked "y" (by decide), fun state same => ?_, fun _ impossible => nomatch impossible⟩
    have calls := (Names.marked_decode (by decide) (by decide) same).2
    cases calls
  rcases instance_simulates_module twoWays "two" 2 calledTwice "A" ["x"] ["x", "y"] rfl rfl
      entryFree markedFree (unmarked "A" (by decide)) (by decide)
      (fun state member => unmarked "x" (by decide) state (List.mem_singleton.mp member).symm) with
    ⟨added, entry, instantiated, simulated⟩
  have moved : (Machine.onTape twoWays ⟨[], .one, []⟩).afterCalls 1 =
      Machine.moveTo _ ⟨"b", ⟨[.zero], .zero, []⟩⟩ 1 :=
    Machine.afterCalls_eq_moveTo rfl
  rcases simulated ⟨[], .one, []⟩ 1 _ _ rfl rfl (by rw [moved]; rfl) with ⟨counted, -, exited, -⟩
  rw [moved] at exited
  exact ⟨added, entry, instantiated, counted, (Option.some.inj (exited rfl)).symm⟩

end Instance

end BinaryTape
