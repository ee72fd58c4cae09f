import BinaryTape.Proofs.Runs

namespace BinaryTape

/-!
# Runs under different limits

A bounded run looks for an end state in three places: before a step, behind a step, and
when the limit is reached.  What is observed on the way is what the steps leave running.
The laws here say that the limit only decides when a run is interrupted.  A run that is
interrupted can be taken up again where it was left, and the parts make up the run under
the sum of the limits; a run that has come to its end is the same under every larger
limit.

A machine carries its limit with it, so machines of runs under different limits are
never equal as they stand.  They are compared with the same limit put into both of them.
-/

namespace Machine

/-! ## What a step can do -/

theorem step_cases (machine : Machine) :
    (Exists fun next : Machine =>
      machine.step = (.running, next) ∧ next.steps = machine.steps + 1) ∨
    (Exists fun final : Machine => machine.step = (.halted, final)) ∨
    (machine.isHalted = false ∧
      machine.step = (.stuck machine.state machine.symbol, machine)) := by
  cases next : machine.program.successor? machine.here with
  | none =>
      rw [step_of_no_successor? next, isHalted]
      cases machine.program.isEnd machine.state with
      | true => exact Or.inr (Or.inl ⟨machine, rfl⟩)
      | false => exact Or.inr (Or.inr ⟨rfl, rfl⟩)
  | some there =>
      rw [step_of_successor? next]
      cases machine.program.isEnd there.state with
      | true => exact Or.inr (Or.inl ⟨_, rfl⟩)
      | false => exact Or.inl ⟨_, rfl, rfl⟩

/-- A step after which the machine does not go on ends every run, whatever its limit. -/
theorem running_or_stops (machine : Machine) :
    (Exists fun next : Machine =>
      machine.step = (.running, next) ∧ next.steps = machine.steps + 1) ∨
    Exists fun verdict : Verdict => verdict ≠ .stepLimit ∧
      forall {σ : Type} (observe : σ -> Machine -> σ) (limit : Nat) (seen : σ),
        runFor observe (limit + 1) machine seen = (verdict, machine.step.2, seen) := by
  rcases machine.step_cases with running | ⟨final, halts⟩ | ⟨_, stuck⟩
  · exact Or.inl running
  · refine Or.inr ⟨.halted, by simp, fun observe limit seen => ?_⟩
    simp only [runFor, halts]
  · refine Or.inr ⟨.stuck machine.state machine.symbol, by simp, fun observe limit seen => ?_⟩
    simp only [runFor, stuck]

/-! ## Interrupted runs and runs that have ended -/

section

variable {σ : Type} {observe : σ -> Machine -> σ} {limit : Nat} {machine next after : Machine}
  {seen later : σ} {verdict : Verdict}

theorem runFor_of_running (goesOn : machine.step = (.running, next)) :
    runFor observe (limit + 1) machine seen =
      runFor observe limit next (observe seen next) := by
  simp only [runFor, goesOn]

theorem runFor_of_isHalted (halted : machine.isHalted = true) (limit : Nat) :
    runFor observe limit machine seen = (.halted, machine, seen) := by
  cases limit with
  | zero => simp only [runFor, halted, if_true]
  | succ limit => simp only [runFor, step, halted, if_true]

/-- Under no limit at all a run ends in an end state, and is interrupted elsewhere. -/
theorem runFor_zero_cases (ended : runFor observe 0 machine seen = (verdict, after, later)) :
    after = machine ∧ later = seen ∧
      (machine.isHalted = true ∧ verdict = .halted ∨
        machine.isHalted = false ∧ verdict = .stepLimit) := by
  cases halted : machine.isHalted with
  | true =>
      rw [runFor_of_isHalted halted] at ended
      cases ended
      exact ⟨rfl, rfl, Or.inl ⟨rfl, rfl⟩⟩
  | false =>
      simp only [runFor, halted, Bool.false_eq_true, if_false] at ended
      cases ended
      exact ⟨rfl, rfl, Or.inr ⟨rfl, rfl⟩⟩

/-- An interrupted run is taken up again where it was left. -/
theorem runFor_add (interrupted : runFor observe limit machine seen = (.stepLimit, after, later))
    (more : Nat) :
    runFor observe (limit + more) machine seen = runFor observe more after later := by
  induction limit generalizing machine seen with
  | zero =>
      rcases runFor_zero_cases interrupted with ⟨rfl, rfl, _⟩
      rw [Nat.zero_add]
  | succ limit inductionHypothesis =>
      rcases machine.running_or_stops with ⟨next, goesOn, _⟩ | ⟨verdict, ends, stops⟩
      · rw [runFor_of_running goesOn] at interrupted
        rw [Nat.succ_add, runFor_of_running goesOn]
        exact inductionHypothesis interrupted
      · rw [stops] at interrupted
        exact absurd (congrArg Prod.fst interrupted) ends

/-- A run that has ended is the same under every larger limit. -/
theorem runFor_of_le (ended : runFor observe limit machine seen = (verdict, after, later))
    (ends : verdict ≠ .stepLimit) {larger : Nat} (atLeast : limit ≤ larger) :
    runFor observe larger machine seen = (verdict, after, later) := by
  induction limit generalizing machine seen larger with
  | zero =>
      rcases runFor_zero_cases ended with ⟨rfl, rfl, ⟨halted, rfl⟩ | ⟨_, rfl⟩⟩
      · exact runFor_of_isHalted halted larger
      · exact absurd rfl ends
  | succ limit inductionHypothesis =>
      rcases Nat.exists_eq_add_of_le' atLeast with ⟨more, rfl⟩
      rw [← Nat.add_assoc]
      rcases machine.running_or_stops with ⟨next, goesOn, _⟩ | ⟨_, _, stops⟩
      · rw [runFor_of_running goesOn] at ended ⊢
        exact inductionHypothesis ended (Nat.le_add_left limit more)
      · rw [stops] at ended ⊢
        exact ended

/-! ## What is observed -/

/-- The machine after each of the next so many steps. -/
def snapshots (machine : Machine) (count : Nat) : List Machine :=
  (List.range count).map (fun earlier => machine.afterCalls (earlier + 1))

theorem snapshots_succ (machine : Machine) (count : Nat) :
    machine.snapshots (count + 1) = machine.step.2 :: machine.step.2.snapshots count := by
  simp only [snapshots, List.range_succ_eq_map, List.map_cons, List.map_map]
  rfl

/-- An interrupted run has taken as many steps as its limit allows and has observed the
machine after each of them. -/
theorem runFor_of_stepLimit
    (interrupted : runFor observe limit machine seen = (.stepLimit, after, later)) :
    after = machine.afterCalls limit ∧ after.steps = machine.steps + limit ∧
      after.isHalted = false ∧ later = (machine.snapshots limit).foldl observe seen := by
  induction limit generalizing machine seen with
  | zero =>
      rcases runFor_zero_cases interrupted with ⟨rfl, rfl, ⟨_, impossible⟩ | ⟨going, _⟩⟩
      · cases impossible
      · exact ⟨rfl, rfl, going, rfl⟩
  | succ limit inductionHypothesis =>
      rcases machine.running_or_stops with ⟨next, goesOn, counted⟩ | ⟨verdict, ends, stops⟩
      · rw [runFor_of_running goesOn] at interrupted
        rcases inductionHypothesis interrupted with ⟨reached, steps, going, observed⟩
        have stepped : machine.step.2 = next := congrArg Prod.snd goesOn
        refine ⟨?_, ?_, going, ?_⟩
        · rw [afterCalls, stepped]
          exact reached
        · rw [steps, counted, Nat.add_assoc, Nat.add_comm 1]
        · rw [snapshots_succ, stepped]
          exact observed
      · rw [stops] at interrupted
        exact absurd (congrArg Prod.fst interrupted) ends

/-- A run that is stuck has come under a smaller limit to a machine that is stuck there. -/
theorem exists_stepLimit_of_stuck {state : StateName} {symbol : Symbol}
    (stuck : runFor observe limit machine seen = (.stuck state symbol, after, later)) :
    Exists fun count : Nat => count < limit ∧
      runFor observe count machine seen = (.stepLimit, after, later) ∧
      after.step = (.stuck state symbol, after) := by
  induction limit generalizing machine seen with
  | zero =>
      rcases runFor_zero_cases stuck with ⟨_, _, ⟨_, impossible⟩ | ⟨_, impossible⟩⟩ <;>
        cases impossible
  | succ limit inductionHypothesis =>
      rcases machine.step_cases with ⟨next, goesOn, _⟩ | ⟨final, halts⟩ | ⟨going, stays⟩
      · rw [runFor_of_running goesOn] at stuck
        rcases inductionHypothesis stuck with ⟨count, fewer, interrupted, refused⟩
        refine ⟨count + 1, Nat.succ_lt_succ fewer, ?_, refused⟩
        rw [runFor_of_running goesOn]
        exact interrupted
      · simp only [runFor, halts] at stuck
        cases stuck
      · simp only [runFor, stays] at stuck
        cases stuck
        refine ⟨0, Nat.succ_pos limit, ?_, stays⟩
        simp only [runFor, going, Bool.false_eq_true, if_false]

end

/-! ## Recorded runs -/

/-- Whatever is observed of a run, it is observed of the machines that the run records. -/
theorem runFor_foldl {σ : Type} (observe : σ -> Machine -> σ) (limit : Nat) (machine : Machine)
    (recorded : Array Machine) (seen : σ) :
    runFor observe limit machine (recorded.foldl observe seen) =
      ((runFor Array.push limit machine recorded).1,
        (runFor Array.push limit machine recorded).2.1,
        (runFor Array.push limit machine recorded).2.2.foldl observe seen) := by
  induction limit generalizing machine recorded with
  | zero => rfl
  | succ limit inductionHypothesis =>
      rcases machine.running_or_stops with ⟨next, goesOn, _⟩ | ⟨verdict, _, stops⟩
      · rw [runFor_of_running goesOn, runFor_of_running goesOn, ← inductionHypothesis,
          Array.foldl_push]
      · rw [stops, stops]

/-- The limit that a machine carries does not matter for its next step. -/
theorem step_withLimit (machine : Machine) (limit : Nat) :
    (machine.withLimit limit).step = (machine.step.1, machine.step.2.withLimit limit) := by
  cases next : machine.program.successor? machine.here with
  | none => rw [step_of_no_successor? next]; exact step_of_no_successor? next
  | some there => rw [step_of_successor? next]; exact step_of_successor? next

theorem runFor_withLimit (limit other : Nat) (machine : Machine) (seen : Array Machine) :
    runFor Array.push limit (machine.withLimit other) (seen.map (withLimit · other)) =
      ((runFor Array.push limit machine seen).1,
        (runFor Array.push limit machine seen).2.1.withLimit other,
        (runFor Array.push limit machine seen).2.2.map (withLimit · other)) := by
  induction limit generalizing machine seen with
  | zero =>
      simp only [runFor]
      rfl
  | succ limit inductionHypothesis =>
      simp only [runFor, step_withLimit]
      rcases machine.step with ⟨_ | _ | ⟨state, symbol⟩, next⟩
      · rw [← inductionHypothesis, Array.map_push]
      · rfl
      · rfl

/-- A recorded run, told without the limit that its machines carry. -/
theorem trace_withLimit (machine : Machine) (limit : Nat) :
    (machine.withLimit limit).trace =
      ((runFor Array.push limit machine #[]).1,
        (runFor Array.push limit machine #[]).2.1.withLimit limit,
        (runFor Array.push limit machine #[]).2.2.map (withLimit · limit)) := by
  rw [← runFor_withLimit, Array.map_empty]
  rfl

/--
The limit only decides when a run is interrupted.  Whatever is observed of a run, it is
observed of the machines that the run records.  A run that is interrupted has taken
exactly as many steps as its limit, has recorded the machine after each of them and has
not come to an end state; taken up again under any further limit it ends with the verdict
and the machine of one run under the sum of both limits, which records what the two parts
record, one after the other.  A run that halts or is stuck does so under every larger
limit, with the same record and the same machine; and a run that is stuck leaves the
machine as it was before the step that found no rule.
-/
theorem limits_only_interrupt (machine : Machine) (limit : Nat) :
    (forall {σ : Type} (observe : σ -> Machine -> σ) (seen : σ),
      runFor observe limit (machine.withLimit limit) seen =
        ((machine.withLimit limit).trace.1, (machine.withLimit limit).trace.2.1,
          (machine.withLimit limit).trace.2.2.foldl observe seen)) ∧
    (forall (after : Machine) (seen : Array Machine),
      (machine.withLimit limit).trace = (.stepLimit, after, seen) ->
        after = (machine.withLimit limit).afterCalls limit ∧
        after.steps = machine.steps + limit ∧ after.isHalted = false ∧
        seen.toList = (machine.withLimit limit).snapshots limit ∧
        forall (more : Nat) (verdict : Verdict) (last : Machine) (later : Array Machine),
          (after.withLimit more).trace = (verdict, last, later) ->
            (machine.withLimit (limit + more)).trace =
              (verdict, last.withLimit (limit + more),
                (seen ++ later).map (withLimit · (limit + more)))) ∧
    (forall (verdict : Verdict) (after : Machine) (seen : Array Machine),
      (machine.withLimit limit).trace = (verdict, after, seen) -> verdict ≠ .stepLimit ->
        forall larger, limit ≤ larger ->
          (machine.withLimit larger).trace =
            (verdict, after.withLimit larger, seen.map (withLimit · larger))) ∧
    (forall (state : StateName) (symbol : Symbol) (after : Machine) (seen : Array Machine),
      (machine.withLimit limit).trace = (.stuck state symbol, after, seen) ->
        seen.size < limit ∧ after = (machine.withLimit limit).afterCalls seen.size ∧
          after.steps = machine.steps + seen.size ∧
          after.step = (.stuck state symbol, after)) := by
  -- The machine from which all runs start carries the first limit; the others replace it.
  have recorded : forall other, (machine.withLimit other).trace =
      ((runFor Array.push other (machine.withLimit limit) #[]).1,
        (runFor Array.push other (machine.withLimit limit) #[]).2.1.withLimit other,
        (runFor Array.push other (machine.withLimit limit) #[]).2.2.map (withLimit · other)) :=
    (machine.withLimit limit).trace_withLimit
  have traced : (machine.withLimit limit).trace =
      runFor Array.push limit (machine.withLimit limit) #[] := rfl
  rw [traced]
  refine ⟨fun observe => runFor_foldl observe limit (machine.withLimit limit) #[], ?_, ?_, ?_⟩
  · intro after seen interrupted
    rcases runFor_of_stepLimit interrupted with ⟨reached, steps, going, observed⟩
    refine ⟨reached, steps, going, ?_, ?_⟩
    · rw [observed, List.foldl_push_eq_append']
      simp
    · intro more verdict last later continued
      rw [trace_withLimit] at continued
      cases continued
      have joined : runFor Array.push more after seen =
          ((runFor Array.push more after #[]).1, (runFor Array.push more after #[]).2.1,
            seen ++ (runFor Array.push more after #[]).2.2) := by
        have observed := runFor_foldl Array.push more after #[] seen
        rwa [← Array.foldl_toList, List.foldl_push_eq_append', Array.toArray_toList] at observed
      rw [recorded, runFor_add interrupted, joined, Array.map_append, Array.map_append,
        Array.map_map]
      rfl
  · intro verdict after seen ended ends larger atLeast
    rw [recorded, runFor_of_le ended ends atLeast]
  · intro state symbol after seen stuck
    rcases exists_stepLimit_of_stuck stuck with ⟨count, fewer, interrupted, refused⟩
    rcases runFor_of_stepLimit interrupted with ⟨reached, steps, _, observed⟩
    have size : seen.size = count := by
      rw [observed, List.foldl_push_eq_append']
      simp [snapshots]
    rw [size]
    exact ⟨fewer, reached, steps, refused⟩

/-- A machine that goes right over ones and halts at the first zero, on two ones. -/
def scanningOnes : Machine :=
  onTape ⟨"A", ["E"], [⟨"A", .one, "A", .one, .right⟩, ⟨"A", .zero, "E", .zero, .stay⟩]⟩
    ⟨[], .one, [.one]⟩

/-- The same machine after its first step. -/
def scanningSecond : Machine := (scanningOnes.withLimit 1).moveTo ⟨"A", ⟨[.one], .one, []⟩⟩ 1

/-- Interrupted after one step and taken up again for two, the scan halts as it does under a
limit of three, and under any larger one. -/
theorem limits_only_interrupt_of_scan :
    (scanningOnes.withLimit 1).trace = (.stepLimit, scanningSecond, #[scanningSecond]) ∧
      Exists fun last : Machine => Exists fun later : Array Machine =>
        (scanningSecond.withLimit 2).trace = (.halted, last, later) ∧
          (scanningOnes.withLimit 3).trace =
            (.halted, last.withLimit 3, (#[scanningSecond] ++ later).map (withLimit · 3)) ∧
          (scanningOnes.withLimit 7).trace.1 = .halted := by
  have first : (scanningOnes.withLimit 1).step = (.running, scanningSecond) :=
    @step_of_successor? (scanningOnes.withLimit 1) _ rfl
  have interrupted : (scanningOnes.withLimit 1).trace =
      (.stepLimit, scanningSecond, #[scanningSecond]) := runFor_of_running first
  have halts : scanningSecond.program.after? 2 scanningSecond.here =
      some ⟨"E", ⟨[.one, .one], .zero, []⟩⟩ := rfl
  rcases exists_ending Array.push 2 (scanningSecond.withLimit 2) #[] with
    ⟨verdict, there, steps, later, ending, continued⟩
  rcases ending.eq_halted halts rfl (Nat.le_refl 2) with ⟨rfl, rfl, rfl⟩
  rcases (limits_only_interrupt scanningOnes 1).2.1 _ _ interrupted with ⟨_, _, _, _, joined⟩
  have whole := joined 2 _ _ _ continued
  have larger := (limits_only_interrupt scanningOnes 3).2.2.1 _ _ _ whole nofun 7 (by decide)
  exact ⟨interrupted, _, later, continued, whole, congrArg Prod.fst larger⟩

end Machine

end BinaryTape
