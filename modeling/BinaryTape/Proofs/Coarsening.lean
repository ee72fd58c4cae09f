import BinaryTape.Proofs.Runs

namespace BinaryTape

/-!
# Programs with the same runs

A pass over a table may let one rule do what several rules did before.  Its
program then goes through fewer configurations, and the comparison of two
programs cannot be step by step.  What is compared is how a run ends: at which
configuration it halts, where it is stuck, or that it does not end at all.

`Coarsens` lists what has to be known of a single step of the program that takes
the larger steps.  Nothing has to be known of the other direction: a run of the
coarse program goes one of three ways, the fine program goes the same way, and a
program goes only one of them.
-/

namespace Program

/--
On every tape both programs halt at the same configuration, are stuck at the same
state, symbol and configuration, or run forever; and `second` never takes more
steps to halt than `first`.
-/
structure SameRuns (first second : Program) : Prop where
  halts : forall tape there,
    (Exists fun steps : Nat => first.HaltsAt tape steps there) ↔
      Exists fun steps : Nat => second.HaltsAt tape steps there
  no_slower : forall tape slow fast there,
    first.HaltsAt tape slow there -> second.HaltsAt tape fast there -> fast ≤ slow
  stuck : forall tape state symbol there,
    first.StuckAt tape state symbol there ↔ second.StuckAt tape state symbol there
  forever : forall tape, first.RunsForever tape ↔ second.RunsForever tape

theorem SameRuns.trans {first second third : Program} (one : SameRuns first second)
    (other : SameRuns second third) : SameRuns first third where
  halts tape there := (one.halts tape there).trans (other.halts tape there)
  no_slower tape slow fast there slowHalts fastHalts := by
    rcases (one.halts tape there).mp ⟨slow, slowHalts⟩ with ⟨middle, middleHalts⟩
    exact Nat.le_trans (other.no_slower tape middle fast there middleHalts fastHalts)
      (one.no_slower tape slow middle there slowHalts middleHalts)
  stuck tape state symbol there :=
    (one.stuck tape state symbol there).trans (other.stuck tape state symbol there)
  forever tape := (one.forever tape).trans (other.forever tape)

/--
What one step of the coarse program must be for its runs to be those of the fine
one: wherever the invariant holds, a step of the coarse program is one or more
steps of the fine program to the same configuration, and the coarse program
stops only where the fine one does.
-/
structure Coarsens (coarse fine : Program) (invariant : Configuration -> Prop) : Prop where
  start_eq : coarse.start = fine.start
  ends_eq : coarse.ends = fine.ends
  initially : forall tape, invariant (coarse.initial tape)
  kept : forall {here there : Configuration}, invariant here ->
    coarse.successor? here = some there -> invariant there
  followed : forall {here there : Configuration}, invariant here ->
    coarse.successor? here = some there ->
      Exists fun extra : Nat => fine.after? (extra + 1) here = some there
  stops : forall {here : Configuration}, invariant here ->
    coarse.successor? here = none -> fine.successor? here = none

namespace Coarsens

variable {coarse fine : Program} {invariant : Configuration -> Prop}

theorem isEnd_eq (relation : Coarsens coarse fine invariant) (state : StateName) :
    coarse.isEnd state = fine.isEnd state := by
  rw [isEnd, isEnd, relation.ends_eq]

theorem initial_eq (relation : Coarsens coarse fine invariant) (tape : Tape) :
    coarse.initial tape = fine.initial tape := by
  rw [initial, initial, relation.start_eq]

/-- A whole run of the coarse program is a run of the fine one that is at least
as long. -/
theorem run (relation : Coarsens coarse fine invariant) {steps : Nat}
    {here there : Configuration} (holds : invariant here)
    (reached : coarse.after? steps here = some there) :
    invariant there ∧ Exists fun count : Nat =>
      steps ≤ count ∧ fine.after? count here = some there := by
  induction steps generalizing here with
  | zero =>
      have same : here = there := Option.some.inj reached
      subst same
      exact ⟨holds, 0, Nat.le_refl 0, rfl⟩
  | succ steps inductionHypothesis =>
      rcases Option.bind_eq_some_iff.mp reached with ⟨middle, next, rest⟩
      rcases relation.followed holds next with ⟨extra, firstPart⟩
      rcases inductionHypothesis (relation.kept holds next) rest with
        ⟨stillHolds, count, atLeast, secondPart⟩
      exact ⟨stillHolds, extra + 1 + count, by omega, after?_trans firstPart secondPart⟩

theorem haltsAt (relation : Coarsens coarse fine invariant) {tape : Tape} {steps : Nat}
    {there : Configuration} (halts : coarse.HaltsAt tape steps there) :
    Exists fun count : Nat => steps ≤ count ∧ fine.HaltsAt tape count there := by
  rcases (coarse.haltsAt_iff tape steps there).mp halts with ⟨reached, final⟩
  rcases relation.run (relation.initially tape) reached with ⟨-, count, atLeast, followed⟩
  rw [relation.initial_eq] at followed
  rw [relation.isEnd_eq] at final
  exact ⟨count, atLeast, (fine.haltsAt_iff tape count there).mpr ⟨followed, final⟩⟩

theorem stuckAt (relation : Coarsens coarse fine invariant) {tape : Tape}
    {state : StateName} {symbol : Symbol} {there : Configuration}
    (stuck : coarse.StuckAt tape state symbol there) :
    fine.StuckAt tape state symbol there := by
  rcases (coarse.stuckAt_iff tape state symbol there).mp stuck with
    ⟨stateSame, symbolSame, going, missing, steps, reached⟩
  rcases relation.run (relation.initially tape) reached with ⟨holds, count, -, followed⟩
  rw [relation.initial_eq] at followed
  have fineGoing := (relation.isEnd_eq there.state).symm.trans going
  have fineStops := relation.stops holds (successor?_eq_none_iff.mpr (Or.inr missing))
  have fineMissing := (successor?_eq_none_iff.mp fineStops).resolve_left
    (by rw [fineGoing]; exact Bool.false_ne_true)
  exact (fine.stuckAt_iff tape state symbol there).mpr
    ⟨stateSame, symbolSame, fineGoing, fineMissing, count, followed⟩

theorem runsForever (relation : Coarsens coarse fine invariant) {tape : Tape}
    (forever : coarse.RunsForever tape) : fine.RunsForever tape := by
  apply (fine.runsForever_iff tape).mpr
  intro steps
  rcases (coarse.runsForever_iff tape).mp forever steps with ⟨there, reached⟩
  rcases relation.run (relation.initially tape) reached with ⟨-, count, atLeast, followed⟩
  rw [relation.initial_eq] at followed
  rcases exists_after?_of_le followed atLeast with ⟨middle, middleReached, -⟩
  exact ⟨middle, middleReached⟩

/-- Since a run of the coarse program goes one of three ways and the fine program
goes the same way, the two have the same runs. -/
theorem sameRuns (relation : Coarsens coarse fine invariant) : SameRuns fine coarse where
  halts tape there := by
    constructor
    · rintro ⟨steps, fineHalts⟩
      rcases coarse.halts_or_stuck_or_runsForever tape with
        ⟨count, other, halts⟩ | ⟨state, symbol, other, stuck⟩ | forever
      · rcases relation.haltsAt halts with ⟨fineCount, -, followed⟩
        rw [(haltsAt_unique fineHalts followed).2]
        exact ⟨count, halts⟩
      · exact False.elim (not_stuckAt_of_haltsAt fineHalts _ _ _ (relation.stuckAt stuck))
      · exact False.elim (not_runsForever_of_haltsAt fineHalts (relation.runsForever forever))
    · rintro ⟨steps, halts⟩
      rcases relation.haltsAt halts with ⟨count, -, followed⟩
      exact ⟨count, followed⟩
  no_slower tape slow fast there fineHalts halts := by
    rcases relation.haltsAt halts with ⟨count, atLeast, followed⟩
    have same := (haltsAt_unique fineHalts followed).1
    omega
  stuck tape state symbol there := by
    constructor
    · intro fineStuck
      rcases coarse.halts_or_stuck_or_runsForever tape with
        ⟨count, other, halts⟩ | ⟨otherState, otherSymbol, other, stuck⟩ | forever
      · rcases relation.haltsAt halts with ⟨fineCount, -, followed⟩
        exact False.elim (not_stuckAt_of_haltsAt followed _ _ _ fineStuck)
      · rcases stuckAt_unique fineStuck (relation.stuckAt stuck) with ⟨stateSame, symbolSame, same⟩
        rw [stateSame, symbolSame, same]
        exact stuck
      · exact False.elim (not_runsForever_of_stuckAt fineStuck (relation.runsForever forever))
    · exact relation.stuckAt
  forever tape := by
    constructor
    · intro fineForever
      rcases coarse.halts_or_stuck_or_runsForever tape with
        ⟨count, other, halts⟩ | ⟨state, symbol, other, stuck⟩ | forever
      · rcases relation.haltsAt halts with ⟨fineCount, -, followed⟩
        exact False.elim (not_runsForever_of_haltsAt followed fineForever)
      · exact False.elim (not_runsForever_of_stuckAt (relation.stuckAt stuck) fineForever)
      · exact forever
    · exact relation.runsForever

end Coarsens

end Program

end BinaryTape
