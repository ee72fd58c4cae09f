import BinaryTape.Proofs.Instances
import BinaryTape.Proofs.Readings

namespace BinaryTape
namespace Source

open BinaryTape.Module (marked declare)

/-!
# Running a source

A source can be run without a table.  Control is at one of its constructs, counted
from zero, or at a state name.  Moves and writes act on the tape and go on behind
themselves, a jump goes to its name, and behind the last construct control goes to
the first end state.  A call runs the table of the module on the tape as it is, to
its end, and leaves through the exit that the binding gives to the end state.  A
name that is no end state goes to where it first stands: the start state before the
first construct, every other name behind its first jump.

Such a run halts at an end state.  It is stuck at a name that stands nowhere and in
a call whose module is stuck, and it goes on forever by itself or in a call whose
module does.
-/

/-- The states of a header, the constructs behind it and the tables they may call. -/
structure Script where
  start : StateName
  ends : List StateName
  constructs : List Construct
  library : Library

/-- Where a run is: before a construct or at a name. -/
inductive Control where
  | index (position : Nat)
  | name (state : StateName)
  deriving DecidableEq, Repr

/-- Where a run is, and its tape. -/
structure Point where
  control : Control
  tape : Tape
  deriving DecidableEq, Repr

/-- The name that stands behind a construct, if it is a jump. -/
def Construct.label? : Construct -> Option StateName
  | .jump target => some target
  | _ => none

/-- Where an exit leads; no name is the default, the construct behind the call. -/
def Control.ofExit (next : Nat) (exit : StateName) : Control :=
  if exit = "" then .index next else .name exit

namespace Script

/-- The names that stand before the constructs and behind the last one. -/
def labels (script : Script) : List (Option StateName) :=
  some script.start :: script.constructs.map Construct.label?

/-- Where a name stands first. -/
def label? (script : Script) (state : StateName) : Option Nat :=
  script.labels.findIdx? (fun label => label == some state)

inductive Step (script : Script) : Point -> Point -> Prop where
  | move {position : Nat} {tape : Tape} {direction : Direction}
      (found : script.constructs[position]? = some (.move direction)) :
      Step script ⟨.index position, tape⟩ ⟨.index (position + 1), tape.move direction⟩
  | write {position : Nat} {tape : Tape} {symbol : Symbol}
      (found : script.constructs[position]? = some (.write symbol)) :
      Step script ⟨.index position, tape⟩ ⟨.index (position + 1), tape.write symbol⟩
  | jump {position : Nat} {tape : Tape} {target : StateName}
      (found : script.constructs[position]? = some (.jump target)) :
      Step script ⟨.index position, tape⟩ ⟨.name target, tape⟩
  | call {position steps : Nat} {tape : Tape} {name binding : String} {table : Program}
      {exits : List StateName} {exit : StateName} {halted : Configuration}
      (found : script.constructs[position]? = some (.call name binding))
      (loaded : script.library.load name = .ok table)
      (resolved : Binding.exits (declare name table) binding "" = .ok exits)
      (halts : table.HaltsAt tape steps halted)
      (bound : exits[table.ends.idxOf halted.state]? = some exit) :
      Step script ⟨.index position, tape⟩ ⟨.ofExit (position + 1) exit, halted.tape⟩
  | finish {tape : Tape} {final : StateName} (first : script.ends.head? = some final) :
      Step script ⟨.index script.constructs.length, tape⟩ ⟨.name final, tape⟩
  | enter {position : Nat} {tape : Tape} {state : StateName}
      (going : Not (state ∈ script.ends)) (stands : script.label? state = some position) :
      Step script ⟨.name state, tape⟩ ⟨.index position, tape⟩

/-- A run of so many steps. -/
inductive Reaches (script : Script) (first : Point) : Nat -> Point -> Prop where
  | here : Reaches script first 0 first
  | later {count : Nat} {middle last : Point} (reached : Reaches script first count middle)
      (step : script.Step middle last) : Reaches script first (count + 1) last

/-- Runs start at the name of the start state. -/
def initial (script : Script) (tape : Tape) : Point := ⟨.name script.start, tape⟩

/-- A run comes to an end state. -/
def HaltsAt (script : Script) (tape : Tape) (there : Configuration) : Prop :=
  there.state ∈ script.ends ∧ Exists fun count : Nat =>
    script.Reaches (script.initial tape) count ⟨.name there.state, there.tape⟩

/-- A point without a step, and where a table that means the script is stuck: at the
name that stands nowhere, or at the marked state of the module that was called. -/
inductive Blocked (script : Script) : Point -> Configuration -> Prop where
  | nowhere {state : StateName} {tape : Tape} (going : Not (state ∈ script.ends))
      (missing : script.label? state = none) :
      Blocked script ⟨.name state, tape⟩ ⟨state, tape⟩
  | inside {position : Nat} {tape : Tape} {name binding : String} {table : Program}
      {state : StateName} {symbol : Symbol} {inner : Configuration}
      (found : script.constructs[position]? = some (.call name binding))
      (loaded : script.library.load name = .ok table)
      (stuck : table.StuckAt tape state symbol inner) :
      Blocked script ⟨.index position, tape⟩
        ⟨marked name (callsOf name (script.constructs.take position)) inner.state, inner.tape⟩

/-- A run comes to a point without a step. -/
def StuckAt (script : Script) (tape : Tape) (there : Configuration) : Prop :=
  Exists fun count : Nat => Exists fun point : Point =>
    script.Reaches (script.initial tape) count point ∧ script.Blocked point there

/-- A call whose module runs forever. -/
inductive Absorbed (script : Script) : Point -> Prop where
  | inside {position : Nat} {tape : Tape} {name binding : String} {table : Program}
      (found : script.constructs[position]? = some (.call name binding))
      (loaded : script.library.load name = .ok table) (forever : table.RunsForever tape) :
      Absorbed script ⟨.index position, tape⟩

/-- There are runs of all lengths, or one comes to a call that never returns. -/
def RunsForever (script : Script) (tape : Tape) : Prop :=
  (forall count, Exists fun point : Point =>
    script.Reaches (script.initial tape) count point) ∨
  Exists fun count : Nat => Exists fun point : Point =>
    script.Reaches (script.initial tape) count point ∧ script.Absorbed point

/-! ## Every run ends in one of these ways -/

/-- All calls find their module and all bindings can be resolved. -/
structure Resolved (script : Script) : Prop where
  ends_ne_nil : script.ends ≠ []
  resolved : forall name binding, .call name binding ∈ script.constructs ->
    Exists fun table : Program => Exists fun exits : List StateName =>
      script.library.load name = .ok table ∧
        Binding.exits (declare name table) binding "" = .ok exits ∧
        exits.length = table.ends.length

/-- Positions do not go beyond the end. -/
def Inside (script : Script) : Control -> Prop
  | .index position => position ≤ script.constructs.length
  | .name _ => True

variable {script : Script} {tape : Tape} {point next : Point} {count : Nat}

theorem inside_of_getElem? {position : Nat} {construct : Construct}
    (found : script.constructs[position]? = some construct) :
    script.Inside (.index (position + 1)) := by
  rcases List.getElem?_eq_some_iff.mp found with ⟨bound, _⟩
  exact bound

theorem label?_le {state : StateName} {position : Nat}
    (stands : script.label? state = some position) : position ≤ script.constructs.length := by
  rcases List.findIdx?_eq_some_iff_getElem.mp stands with ⟨bound, _⟩
  simp only [labels, List.length_cons, List.length_map] at bound
  exact Nat.le_of_lt_succ bound

theorem Step.inside (step : script.Step point next) : script.Inside next.control := by
  cases step with
  | move found => exact inside_of_getElem? found
  | write found => exact inside_of_getElem? found
  | jump found => exact trivial
  | @call _ _ _ _ _ _ _ exit _ found _ _ _ _ =>
      dsimp only
      unfold Control.ofExit
      split
      · exact inside_of_getElem? found
      · exact trivial
  | finish first => exact trivial
  | enter going stands => exact label?_le stands

theorem Reaches.inside (reached : script.Reaches (script.initial tape) count point) :
    script.Inside point.control := by
  cases reached with
  | here => exact trivial
  | later _ step => exact step.inside

/-- A point halts, is blocked, is absorbed by a call, or has a step. -/
theorem Resolved.progress (resolved : script.Resolved) (inside : script.Inside point.control) :
    (Exists fun state : StateName => point.control = .name state ∧ state ∈ script.ends) ∨
      (Exists fun there : Configuration => script.Blocked point there) ∨
      script.Absorbed point ∨ Exists fun next : Point => script.Step point next := by
  rcases point with ⟨position | state, tape⟩
  · cases found : script.constructs[position]? with
    | none =>
        have atEnd : position = script.constructs.length :=
          Nat.le_antisymm inside (List.getElem?_eq_none_iff.mp found)
        subst atEnd
        have first := List.head?_eq_some_head resolved.ends_ne_nil
        exact Or.inr (Or.inr (Or.inr ⟨_, .finish first⟩))
    | some construct =>
        cases construct with
        | move direction => exact Or.inr (Or.inr (Or.inr ⟨_, .move found⟩))
        | write symbol => exact Or.inr (Or.inr (Or.inr ⟨_, .write found⟩))
        | jump target => exact Or.inr (Or.inr (Or.inr ⟨_, .jump found⟩))
        | call name binding =>
            rcases resolved.resolved name binding (List.mem_of_getElem? found) with
              ⟨table, exits, loaded, bound, lengths⟩
            rcases table.halts_or_stuck_or_runsForever tape with
              ⟨steps, halted, halts⟩ | ⟨state, symbol, inner, stuck⟩ | forever
            · have final := ((table.haltsAt_iff tape steps halted).mp halts).2
              have member : halted.state ∈ table.ends := by
                simpa [Program.isEnd] using final
              have within : table.ends.idxOf halted.state < exits.length := by
                rw [lengths]
                exact List.idxOf_lt_length_of_mem member
              have exit := List.getElem?_eq_getElem within
              exact Or.inr (Or.inr (Or.inr ⟨_, .call found loaded bound halts exit⟩))
            · exact Or.inr (Or.inl ⟨_, .inside found loaded stuck⟩)
            · exact Or.inr (Or.inr (Or.inl (.inside found loaded forever)))
  · by_cases final : state ∈ script.ends
    · exact Or.inl ⟨state, rfl, final⟩
    · cases stands : script.label? state with
      | none => exact Or.inr (Or.inl ⟨_, .nowhere final stands⟩)
      | some position => exact Or.inr (Or.inr (Or.inr ⟨_, .enter final stands⟩))

/-- A run that can be prolonged as long as it neither halts nor is stuck nor is
absorbed does one of these or goes on forever. -/
theorem Resolved.halts_or_stuck_or_runsForever (resolved : script.Resolved) (tape : Tape) :
    (Exists fun there : Configuration => script.HaltsAt tape there) ∨
      (Exists fun there : Configuration => script.StuckAt tape there) ∨
      script.RunsForever tape := by
  by_cases ends : (Exists fun there : Configuration => script.HaltsAt tape there) ∨
      (Exists fun there : Configuration => script.StuckAt tape there) ∨
      Exists fun count : Nat => Exists fun point : Point =>
        script.Reaches (script.initial tape) count point ∧ script.Absorbed point
  · rcases ends with halts | stuck | absorbed
    · exact Or.inl halts
    · exact Or.inr (Or.inl stuck)
    · exact Or.inr (Or.inr (Or.inr absorbed))
  · refine Or.inr (Or.inr (Or.inl ?_))
    intro count
    induction count with
    | zero => exact ⟨_, .here⟩
    | succ count inductionHypothesis =>
        rcases inductionHypothesis with ⟨point, reached⟩
        rcases resolved.progress reached.inside with
          ⟨state, control, final⟩ | ⟨there, blocked⟩ | absorbed | ⟨next, step⟩
        · refine absurd (Or.inl ⟨⟨state, point.tape⟩, final, count, ?_⟩) ends
          rw [← control]
          exact reached
        · exact absurd (Or.inr (Or.inl ⟨there, count, point, reached, blocked⟩)) ends
        · exact absurd (Or.inr (Or.inr ⟨count, point, reached, absorbed⟩)) ends
        · exact ⟨next, .later reached step⟩

end Script

end Source
end BinaryTape
