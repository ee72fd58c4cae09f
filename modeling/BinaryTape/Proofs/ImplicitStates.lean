import Mathlib.Data.List.Nodup
import BinaryTape.Proofs.Readings

namespace BinaryTape
namespace Source

/-!
# Implicit states

Implicit states are named by a counter, and a construct that needs a state to go on
at takes the number that the counter is at.  A reading therefore takes the numerals
from zero up, each of them once, and a numeral is never the target of a jump, because
jumps are written with identifiers.

The names of a header and the targets of a binding are only cut at white space.  They
may be numerals, and such a name does meet an implicit state, as soon as the source
has enough constructs to come to its number.  Nothing else meets: a name with one
character that is no digit is never an implicit state.
-/

/-- The implicit state that a stage took from the counter, if it took one. -/
def Stage.implicit? (stage : Stage) : Option StateName :=
  if stage.before.nextImplicit < stage.after.nextImplicit then
    some stage.before.implicitState
  else none

/-- The implicit states that were taken, in order. -/
def implicitStates (made : List Stage) : List StateName := made.filterMap Stage.implicit?

/-- The targets that a construct writes down in a binding. -/
def Construct.bound : Construct -> List StateName
  | .call _ binding => Binding.written binding
  | _ => []

/-- The names that a source gives to states without jumping to them: the start state
and the end states of its header, and the targets of its bindings. -/
def givenNames (program : Program) (text : String) : List StateName :=
  program.start :: program.ends ++ (constructs text).flatMap Construct.bound

/-! ## What the counter gives out -/

/-- The numerals below a number, from zero up. -/
def numerals (count : Nat) : List StateName := (List.range count).map toString

theorem numerals_succ (count : Nat) :
    numerals (count + 1) = numerals count ++ [toString count] := by
  simp [numerals, List.range_succ]

theorem mem_numerals_iff {count : Nat} {name : StateName} :
    name ∈ numerals count ↔ Exists fun number : Nat => number < count ∧ name = toString number := by
  simp only [numerals, List.mem_map, List.mem_range, eq_comm]

theorem nodup_numerals (count : Nat) : (numerals count).Nodup :=
  List.Nodup.map (fun _ _ same => Names.numeral_injective same) List.nodup_range

theorem not_mem_numerals_of_identifier (count : Nat) {name : StateName}
    (identifier : isIdentifier name = true) : Not (name ∈ numerals count) := by
  intro member
  rcases mem_numerals_iff.mp member with ⟨number, _, same⟩
  exact Names.numeral_ne_identifier number identifier same.symm

/-- A numeral has nothing but digits. -/
theorem not_mem_numerals_of_character (count : Nat) {name : StateName} {character : Char}
    (inside : character ∈ name.toList) (other : character.isDigit = false) :
    Not (name ∈ numerals count) := by
  intro member
  rcases mem_numerals_iff.mp member with ⟨number, _, same⟩
  rw [same] at inside
  rw [Names.isDigit_of_mem_numeral inside] at other
  cases other

variable {library : Library} {made : List Stage} {draft : Draft}

theorem Stage.Made.implicit?_eq {stage : Stage} (step : stage.Made) :
    stage.implicit? =
      if stage.construct.implicits = 0 then none else some stage.before.implicitState := by
  unfold Stage.implicit?
  rw [step.effect.implicits_eq]
  cases stage.construct <;> simp [Construct.implicits]

/-- A reading has taken the numerals up to its counter. -/
theorem Drafted.implicitStates_eq (drafted : Drafted library made draft) :
    implicitStates made = numerals (implicitsOf (constructsOf made)) := by
  induction drafted with
  | empty => rfl
  | noted _ _ inductionHypothesis => exact inductionHypothesis
  | declared _ _ inductionHypothesis => exact inductionHypothesis
  | headed _ _ _ inductionHypothesis => exact inductionHypothesis
  | @performed stages stage begun _ _ step inductionHypothesis =>
      have taken : implicitStates (stages ++ [stage]) =
          implicitStates stages ++ stage.implicit?.toList := by
        cases found : stage.implicit? <;> simp [implicitStates, found]
      have named : stage.before.implicitState = toString (implicitsOf (constructsOf stages)) := by
        rw [Draft.implicitState, begun.nextImplicit_eq]
      have counted : implicitsOf (constructsOf (stages ++ [stage])) =
          implicitsOf (constructsOf stages) + stage.construct.implicits := by
        rw [constructsOf_append, implicitsOf_append]
        rfl
      rw [taken, step.implicit?_eq, counted, named, inductionHypothesis]
      cases stage.construct with
      | jump target => exact List.append_nil _
      | move direction => exact (numerals_succ _).symm
      | write symbol => exact (numerals_succ _).symm
      | call name binding => exact (numerals_succ _).symm

/-- Jumps are well written in every source that was read. -/
theorem Drafted.identifier_of_jump (drafted : Drafted library made draft) {target : StateName}
    (jumped : .jump target ∈ constructsOf made) : isIdentifier target = true := by
  rcases List.mem_map.mp jumped with ⟨stage, among, construct⟩
  rcases List.append_of_mem among with ⟨earlier, later, parts⟩
  rcases drafted.split parts with ⟨_, _, written, _⟩
  rw [construct] at written
  exact written

/--
Implicit states and written names.  The implicit states that a reading takes are
pairwise different, and none of them is the target of a jump.  They differ from all
names of the header and from all targets of bindings exactly when none of these is the
numeral of a number below the number of moves, writes and calls; and that is so when
each of these names has a character that is no digit.
-/
theorem implicit_states_apart_iff {text : String} {program : Program} {registry : Registry}
    (parsed : parse library text = .ok (program, registry)) :
    (implicitStates (stages library text)).Nodup ∧
    (forall target, .jump target ∈ constructs text ->
      Not (target ∈ implicitStates (stages library text))) ∧
    ((forall name, name ∈ givenNames program text ->
        Not (name ∈ implicitStates (stages library text))) ↔
      forall name, name ∈ givenNames program text ->
        forall number, number < implicitsOf (constructs text) -> name ≠ toString number) ∧
    ((forall name, name ∈ givenNames program text ->
        Exists fun character : Char => character ∈ name.toList ∧ character.isDigit = false) ->
      forall name, name ∈ givenNames program text ->
        Not (name ∈ implicitStates (stages library text))) := by
  rcases drafted_of_parse parsed with ⟨last, header, drafted, _, _, items, _⟩
  have taken : implicitStates (stages library text) =
      numerals (implicitsOf (constructs text)) := by
    rw [drafted.implicitStates_eq, items]
  rw [taken]
  refine ⟨nodup_numerals _, ?_, ⟨?_, ?_⟩, ?_⟩
  · intro target jumped
    rw [← items] at jumped
    exact not_mem_numerals_of_identifier _ (drafted.identifier_of_jump jumped)
  · intro apart name given number below same
    exact apart name given (mem_numerals_iff.mpr ⟨number, below, same⟩)
  · intro apart name given member
    rcases mem_numerals_iff.mp member with ⟨number, below, same⟩
    exact apart name given number below same
  · intro marked name given
    rcases marked name given with ⟨character, inside, other⟩
    exact not_mem_numerals_of_character _ inside other

/-- A loop with a call that is bound to its label.  The header has a number in one of
its names, and the label as well. -/
theorem implicit_states_apart_iff_of_loop :
    Exists fun program : Program => Exists fun registry : Registry =>
      parse (Library.ofTexts [("m", "s e\ns 0 e 1 -\n")])
          "A0 B\n!module m\nx1: > m(x1) 1\n" = .ok (program, registry) ∧
        implicitStates (stages (Library.ofTexts [("m", "s e\ns 0 e 1 -\n")])
          "A0 B\n!module m\nx1: > m(x1) 1\n") = ["0", "1", "2"] ∧
        givenNames program "A0 B\n!module m\nx1: > m(x1) 1\n" = ["A0", "B", "x1"] ∧
        forall name, name ∈ givenNames program "A0 B\n!module m\nx1: > m(x1) 1\n" ->
          Not (name ∈ implicitStates (stages (Library.ofTexts [("m", "s e\ns 0 e 1 -\n")])
            "A0 B\n!module m\nx1: > m(x1) 1\n")) := by
  have shape : (parse (Library.ofTexts [("m", "s e\ns 0 e 1 -\n")])
      "A0 B\n!module m\nx1: > m(x1) 1\n").toOption.map
        (fun result => givenNames result.1 "A0 B\n!module m\nx1: > m(x1) 1\n") =
          some ["A0", "B", "x1"] := by
    decide +kernel
  cases parsed : parse (Library.ofTexts [("m", "s e\ns 0 e 1 -\n")])
      "A0 B\n!module m\nx1: > m(x1) 1\n" with
  | error error =>
      rw [parsed] at shape
      cases shape
  | ok result =>
      rcases result with ⟨program, registry⟩
      rw [parsed] at shape
      have given : givenNames program "A0 B\n!module m\nx1: > m(x1) 1\n" = ["A0", "B", "x1"] :=
        Option.some.inj shape
      refine ⟨program, registry, rfl, by decide +kernel, given, ?_⟩
      apply (implicit_states_apart_iff parsed).2.2.2
      intro name member
      rw [given] at member
      simp only [List.mem_cons, List.not_mem_nil, or_false] at member
      rcases member with rfl | rfl | rfl
      · exact ⟨'A', by decide, rfl⟩
      · exact ⟨'B', by decide, rfl⟩
      · exact ⟨'x', by decide, rfl⟩

/-- A source whose end state is a numeral.  It moves twice, and the first of the two
implicit states is its end state. -/
theorem implicit_state_meets_end :
    Exists fun program : Program => Exists fun registry : Registry =>
      parse (Library.ofTexts []) "A 0\n>>\n" = .ok (program, registry) ∧
        Not (forall state, state ∈ program.ends ->
          Not (state ∈ implicitStates (stages (Library.ofTexts []) "A 0\n>>\n"))) := by
  have taken : implicitStates (stages (Library.ofTexts []) "A 0\n>>\n") = ["0", "1"] := by
    decide +kernel
  rw [taken]
  refine ⟨_, _, rfl, ?_⟩
  intro apart
  exact apart "0" List.mem_cons_self List.mem_cons_self

end Source
end BinaryTape
