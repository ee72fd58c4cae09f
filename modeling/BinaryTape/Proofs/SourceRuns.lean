import BinaryTape.Proofs.Encapsulation
import BinaryTape.Proofs.Scripts

namespace BinaryTape
namespace Source

open BinaryTape.Module (marked declare)

/-!
# A parsed table runs as its source

A position of a source is realized by the state in which the stages before it leave
the draft.  Several positions may have the same state, when a name is jumped to
twice; the table then finds the rules of the first of them, and so does the run of
the source, because a name leads to where it first stands.  All other positions
stand at implicit states, which are numbered and therefore never come back.  A run
of the source is followed step by step: moves, writes, jumps and the end of the
source take one step of the table, a call takes one step more than its module, and
looking up a name takes none.  The rest follows because the runs of both sides end
in exactly one way.
-/

/-- A reading in which all names are identifiers, and whose calls have something to do. -/
structure Named (library : Library) (made : List Stage) (last : Draft) (header : Header) :
    Prop where
  drafted : Drafted library made last
  headed : last.header = some header
  start_written : isIdentifier header.start = true
  ends_written : forall state, state ∈ header.ends -> isIdentifier state = true
  targets_written : forall name binding, .call name binding ∈ constructsOf made ->
    forall target, target ∈ Binding.written binding -> isIdentifier target = true
  starts : forall name binding table, .call name binding ∈ constructsOf made ->
    library.load name = .ok table -> Not (table.start ∈ table.ends)

/-- The table that a reading ends as. -/
def tableOf (made : List Stage) (last : Draft) (header : Header) : Program :=
  ⟨header.start, header.ends,
    made.flatMap Stage.rules ++ Rule.handOver last.current header.firstEnd⟩

/-- What a reading was a reading of. -/
def scriptOf (library : Library) (made : List Stage) (header : Header) : Script :=
  ⟨header.start, header.ends, constructsOf made, library⟩

namespace Named

variable {library : Library} {made earlier later : List Stage} {last : Draft}
  {header : Header} {stage : Stage}

/-! ## The states of positions -/

theorem start_unclosed (named : Named library made last header) :
    Names.Unclosed header.start := Names.unclosed_identifier named.start_written

theorem ends_unclosed (named : Named library made last header) :
    forall state, state ∈ header.ends -> Names.Unclosed state :=
  fun state member => Names.unclosed_identifier (named.ends_written state member)

/-- A stage starts where the stages before it left the draft. -/
theorem before_eq (named : Named library made last header)
    (parts : made = earlier ++ stage :: later) :
    stage.before.current = standing header.start earlier := by
  rcases named.drafted.split parts with ⟨begun, sameHeader, _, _⟩
  exact begun.current_eq (sameHeader.trans named.headed)

theorem standing_unclosed (named : Named library made last header)
    (parts : made = earlier ++ later) : Names.Unclosed (standing header.start earlier) := by
  cases later with
  | nil =>
      rw [List.append_nil] at parts
      rw [← parts, ← named.drafted.current_eq named.headed]
      exact named.drafted.unclosed_current named.headed named.start_unclosed
  | cons stage later =>
      rcases named.drafted.split parts with ⟨begun, sameHeader, _, _⟩
      rw [← named.before_eq parts]
      exact begun.unclosed_current (sameHeader.trans named.headed) named.start_unclosed

/-- An identifier is the state of exactly the positions at which it stands. -/
theorem standing_eq_iff (named : Named library made last header)
    (parts : made = earlier ++ later) {state : StateName}
    (identifier : isIdentifier state = true) :
    standing header.start earlier = state ↔
      (scriptOf library made header).labels[earlier.length]? = some (some state) := by
  rcases List.eq_nil_or_concat earlier with rfl | ⟨front, stage, rfl⟩
  · simp [standing, Script.labels, scriptOf]
  · rw [List.concat_eq_append] at parts ⊢
    have regrouped : made = front ++ stage :: later := by
      rw [parts]
      simp
    rcases named.drafted.split regrouped with ⟨_, _, _, step⟩
    have label : (scriptOf library made header).labels[(front ++ [stage]).length]? =
        some stage.construct.label? := by
      simp [Script.labels, scriptOf, constructsOf, regrouped]
    have foreign : stage.before.implicitState ≠ state :=
      Names.numeral_ne_identifier _ identifier
    rw [standing_concat, label, step.effect.current_eq]
    cases stage.construct with
    | jump target => simp [Construct.continuation, Construct.label?]
    | move direction => simpa [Construct.continuation, Construct.label?] using foreign
    | write symbol => simpa [Construct.continuation, Construct.label?] using foreign
    | call name binding => simpa [Construct.continuation, Construct.label?] using foreign

/-- The next implicit state is the state of no position so far. -/
theorem standing_ne_implicitState (named : Named library made last header)
    {front between : List Stage} (parts : made = (front ++ between) ++ stage :: later) :
    standing header.start front ≠ stage.before.implicitState := by
  rcases List.eq_nil_or_concat front with rfl | ⟨first, other, rfl⟩
  · exact (Names.numeral_ne_identifier _ named.start_written).symm
  · rw [List.concat_eq_append] at parts ⊢
    have otherParts : made = first ++ other :: (between ++ stage :: later) := by
      rw [parts]
      simp
    rcases named.drafted.split parts with ⟨begun, _, _, _⟩
    rcases named.drafted.split otherParts with ⟨otherBegun, _, written, step⟩
    rw [standing_concat, step.effect.current_eq]
    have numbers : other.construct.implicits = 1 ->
        other.before.implicitState ≠ stage.before.implicitState := by
      intro one same
      have equal := Names.numeral_injective same
      rw [begun.nextImplicit_eq, otherBegun.nextImplicit_eq] at equal
      simp [constructsOf, implicitsOf_append, implicitsOf, one] at equal
    cases construct : other.construct with
    | jump target =>
        rw [construct] at written
        exact (Names.numeral_ne_identifier _ written).symm
    | move direction => exact numbers (by rw [construct]; rfl)
    | write symbol => exact numbers (by rw [construct]; rfl)
    | call name binding => exact numbers (by rw [construct]; rfl)

/-! ## First positions -/

/-- Stages whose state was not the state of a beginning of them, and is no end state. -/
structure First (header : Header) (earlier : List Stage) : Prop where
  new : forall front between, earlier = front ++ between -> between ≠ [] ->
    standing header.start front ≠ standing header.start earlier
  going : Not (standing header.start earlier ∈ header.ends)

/-- Behind a construct that takes an implicit state there is a new state. -/
theorem first_concat (named : Named library made last header)
    (parts : made = earlier ++ stage :: later)
    (implicit : stage.construct.implicits = 1) : First header (earlier ++ [stage]) := by
  rcases named.drafted.split parts with ⟨_, _, _, step⟩
  have here := step.current_of_implicit implicit
  constructor
  · intro front between split nonempty
    rw [standing_concat, here]
    rcases List.eq_nil_or_concat between with rfl | ⟨others, final, rfl⟩
    · exact absurd rfl nonempty
    · rw [List.concat_eq_append, ← List.append_assoc] at split
      rcases List.append_inj' split rfl with ⟨rfl, _⟩
      exact named.standing_ne_implicitState parts
  · rw [standing_concat, here]
    intro final
    exact Names.numeral_ne_identifier _ (named.ends_written _ final) rfl

/-- Where a name first stands, it stands first. -/
theorem first_of_label? (named : Named library made last header) {state : StateName}
    {position : Nat} (identifier : isIdentifier state = true)
    (going : Not (state ∈ header.ends))
    (stands : (scriptOf library made header).label? state = some position) :
    Exists fun earlier : List Stage => Exists fun later : List Stage =>
      made = earlier ++ later ∧ earlier.length = position ∧
        standing header.start earlier = state ∧ First header earlier := by
  have inside := Script.label?_le stands
  rcases List.findIdx?_eq_some_iff_getElem.mp stands with ⟨bound, found, before⟩
  have label : (scriptOf library made header).labels[position]? = some (some state) := by
    rw [List.getElem?_eq_getElem bound, eq_of_beq found]
  have length : (made.take position).length = position := by
    rw [List.length_take]
    simp only [scriptOf, constructsOf, List.length_map] at inside
    omega
  have whole : made = made.take position ++ made.drop position :=
    (List.take_append_drop position made).symm
  have same : standing header.start (made.take position) = state := by
    apply (named.standing_eq_iff whole identifier).mpr
    rw [length]
    exact label
  refine ⟨_, _, whole, length, same, ?_, by rw [same]; exact going⟩
  intro front between split nonempty
  rw [same]
  intro early
  have shorter : front.length < position := by
    have lengths := congrArg List.length split
    have positive := List.length_pos_iff.mpr nonempty
    rw [length, List.length_append] at lengths
    omega
  have frontParts : made = front ++ (between ++ made.drop position) := by
    rw [← List.append_assoc, ← split]
    exact whole
  have frontLabel := (named.standing_eq_iff frontParts identifier).mp early
  rcases List.getElem?_eq_some_iff.mp frontLabel with ⟨_, frontFound⟩
  have different := before front.length shorter
  rw [frontFound] at different
  simp at different

/-- Before a first position no rule starts at its state. -/
theorem rule_state_ne (named : Named library made last header)
    (parts : made = earlier ++ later) (first : First header earlier) :
    forall rule, rule ∈ earlier.flatMap Stage.rules ->
      rule.state ≠ standing header.start earlier := by
  intro rule member same
  rcases List.mem_flatMap.mp member with ⟨other, among, inside⟩
  rcases List.append_of_mem among with ⟨front, between, split⟩
  have otherParts : made = front ++ other :: (between ++ later) := by
    rw [parts, split]
    simp
  rcases (named.drafted.rule_cases otherParts inside).1 with origin | ⟨own, found, internal⟩
  · apply first.new front (other :: between) split (List.cons_ne_nil _ _)
    rw [← named.before_eq otherParts, ← origin]
    exact same
  · rcases named.drafted.instantiation_of_some otherParts found with ⟨_, _, _, known⟩
    rw [same] at internal
    exact known.not_internal (named.standing_unclosed parts) internal

/-- A table finds no rule where no name stands. -/
theorem first?_eq_none_of_label? (named : Named library made last header)
    {state : StateName} (identifier : isIdentifier state = true)
    (missing : (scriptOf library made header).label? state = none) (symbol : Symbol) :
    Rule.first? (tableOf made last header).rules (state, symbol) = none := by
  have nowhere : forall front rest, made = front ++ rest ->
      standing header.start front ≠ state := by
    intro front rest parts same
    have label := (named.standing_eq_iff parts identifier).mp same
    have absent := List.findIdx?_eq_none_iff.mp missing _ (List.mem_of_getElem? label)
    simp at absent
  apply Rule.first?_eq_none_of_state
  intro rule member same
  rcases List.mem_append.mp member with staged | closing
  · rcases List.mem_flatMap.mp staged with ⟨other, among, inside⟩
    rcases List.append_of_mem among with ⟨front, behind, parts⟩
    rcases (named.drafted.rule_cases parts inside).1 with origin | ⟨own, found, internal⟩
    · apply nowhere front _ parts
      rw [← named.before_eq parts, ← origin]
      exact same
    · rcases named.drafted.instantiation_of_some parts found with ⟨_, _, _, known⟩
      rw [same] at internal
      exact known.not_internal (Names.unclosed_identifier identifier) internal
  · rcases List.mem_map.mp closing with ⟨read, _, rfl⟩
    apply nowhere made [] (List.append_nil made).symm
    rw [← named.drafted.current_eq named.headed]
    exact same

/-! ## The table at a first position -/

theorem isEnd_standing (first : First header earlier) :
    (tableOf made last header).isEnd (standing header.start earlier) = false := by
  simpa [Program.isEnd, tableOf] using first.going

private theorem rules_of_parts (last : Draft) (header : Header)
    (parts : made = earlier ++ stage :: later) :
    (tableOf made last header).rules =
      earlier.flatMap Stage.rules ++ stage.rules ++
        (later.flatMap Stage.rules ++ Rule.handOver last.current header.firstEnd) := by
  rw [tableOf, parts]
  simp

/-- The table finds the rules of the stage at a first position. -/
theorem successor?_of_stage (named : Named library made last header)
    (parts : made = earlier ++ stage :: later) (first : First header earlier) {tape : Tape}
    {rule : Rule}
    (found : Rule.first? stage.rules (stage.before.current, tape.focus) = some rule) :
    (tableOf made last header).successor? ⟨standing header.start earlier, tape⟩ =
      some (Configuration.apply ⟨standing header.start earlier, tape⟩ rule) := by
  apply Program.successor?_of_first? (isEnd_standing first)
  rw [named.before_eq parts] at found
  rw [rules_of_parts last header parts, Rule.first?_append, Rule.first?_append,
    Rule.first?_eq_none_of_state (named.rule_state_ne parts first)]
  simp [found]

/-- Behind the last stage the table hands control to the first end state. -/
theorem successor?_of_end (named : Named library made last header)
    (first : First header made) (tape : Tape) :
    (tableOf made last header).successor? ⟨standing header.start made, tape⟩ =
      some ⟨header.firstEnd, tape⟩ := by
  have found : Rule.first? (tableOf made last header).rules
      (standing header.start made, tape.focus) =
        some ⟨standing header.start made, tape.focus, header.firstEnd, tape.focus, .stay⟩ := by
    rw [tableOf, Rule.first?_append, Rule.first?_eq_none_of_state
      (named.rule_state_ne (List.append_nil made).symm first),
      named.drafted.current_eq named.headed, Rule.first?_handOver]
    rfl
  rw [Program.successor?_of_first? (isEnd_standing first) found]
  rfl

theorem mem_constructsOf (parts : made = earlier ++ stage :: later) {construct : Construct}
    (same : stage.construct = construct) : construct ∈ constructsOf made := by
  rw [parts, constructsOf, ← same]
  simp

/-- The copy of a module is placed in the table at the first position of its call. -/
theorem placed (named : Named library made last header)
    (parts : made = earlier ++ stage :: later) (first : First header earlier)
    {name binding : String} (construct : stage.construct = .call name binding) :
    Exists fun table : Program => Exists fun exits : List StateName =>
      library.load name = .ok table ∧
        Binding.exits (declare name table) binding stage.before.implicitState = .ok exits ∧
        table.isEnd table.start = false ∧
        Instance.Placed table name (callsOf name (constructsOf earlier))
          (standing header.start earlier) exits (tableOf made last header) := by
  rcases named.drafted.instantiation_of_call parts construct with ⟨call, found, known⟩
  have apart := named.drafted.encapsulated named.headed named.start_unclosed
    named.ends_unclosed parts found
  have rules := rules_of_parts last header parts
  rcases named.drafted.split parts with ⟨begun, _, _, step⟩
  rcases begun.called step construct with ⟨table, exits, loaded, _, resolved, lengths, added⟩
  rw [added, named.before_eq parts] at rules
  have starts := named.starts name binding table (mem_constructsOf parts construct) loaded
  refine ⟨table, exits, loaded, resolved, by simpa [Program.isEnd] using starts, ?_⟩
  have outer : forall rule, rule ∈ earlier.flatMap Stage.rules ++ later.flatMap Stage.rules ++
      Rule.handOver last.current header.firstEnd -> forall inner,
        rule.state ≠ marked name (callsOf name (constructsOf earlier)) inner := by
    intro rule member inner same
    exact apart.outer_state rule member ((known.internal_iff _).mpr ⟨inner, same⟩)
  apply Instance.Placed.of_rules rules lengths (named.rule_state_ne parts first)
  · intro rule member
    exact outer rule (List.mem_append_left _ (List.mem_append_left _ member))
  · intro rule member
    rcases List.mem_append.mp member with staged | closing
    · exact outer rule (List.mem_append_left _ (List.mem_append_right _ staged))
    · exact outer rule (List.mem_append_right _ closing)
  · intro inner
    exact (Names.marked_ne_of_unclosed _ _ _ (named.standing_unclosed parts)).symm
  · exact isEnd_standing first
  · intro inner
    apply Bool.eq_false_iff.mpr
    intro final
    have member : marked name (callsOf name (constructsOf earlier)) inner ∈ header.ends := by
      simpa [Program.isEnd, tableOf] using final
    exact Names.marked_ne_of_unclosed _ _ _ (named.ends_unclosed _ member) rfl

end Named

/-! ## Following a run of the source -/

/-- A configuration of the table realizes a point of the source: names are states,
and a position is first for the state that stands there. -/
inductive Matches (made : List Stage) (header : Header) : Point -> Configuration -> Prop where
  | name {state : StateName} {tape : Tape} (identifier : isIdentifier state = true) :
      Matches made header ⟨.name state, tape⟩ ⟨state, tape⟩
  | index {earlier later : List Stage} {tape : Tape} (parts : made = earlier ++ later)
      (first : Named.First header earlier) :
      Matches made header ⟨.index earlier.length, tape⟩ ⟨standing header.start earlier, tape⟩

/-- How many steps of the source may have been taken ahead of the table. -/
def Control.lead : Control -> Nat
  | .index _ => 1
  | .name _ => 0

/-- What a step of the source takes of the table. -/
def Followed (made : List Stage) (last : Draft) (header : Header) (here : Configuration)
    (point next : Point) : Prop :=
  Exists fun steps : Nat => Exists fun there : Configuration =>
    (tableOf made last header).after? steps here = some there ∧
      Matches made header next there ∧
      1 + point.control.lead ≤ 2 * steps + next.control.lead

section Following

variable {library : Library} {made earlier later : List Stage} {last : Draft}
  {header : Header} {stage : Stage} {point next : Point} {here : Configuration}
  {position : Nat} {tape : Tape}

theorem Matches.exists_parts
    (matched : Matches made header ⟨.index position, tape⟩ here) :
    Exists fun earlier : List Stage => Exists fun later : List Stage =>
      made = earlier ++ later ∧ earlier.length = position ∧ Named.First header earlier ∧
        here = ⟨standing header.start earlier, tape⟩ := by
  cases matched with
  | index parts first => exact ⟨_, _, parts, rfl, first, rfl⟩

/-- The stage at a position of the source. -/
theorem Matches.exists_stage {construct : Construct}
    (matched : Matches made header ⟨.index position, tape⟩ here)
    (found : (scriptOf library made header).constructs[position]? = some construct) :
    Exists fun earlier : List Stage => Exists fun stage : Stage =>
      Exists fun later : List Stage =>
        made = earlier ++ stage :: later ∧ earlier.length = position ∧
          stage.construct = construct ∧ Named.First header earlier ∧
          here = ⟨standing header.start earlier, tape⟩ := by
  rcases matched.exists_parts with ⟨earlier, later, parts, rfl, first, same⟩
  cases later with
  | nil => simp [scriptOf, constructsOf, parts] at found
  | cons stage later =>
      have construct : stage.construct = construct := by
        simpa [scriptOf, constructsOf, parts] using found
      exact ⟨earlier, stage, later, parts, rfl, construct, first, same⟩

/-- A construct that takes an implicit state goes on at the position behind it. -/
theorem Named.matches_next (named : Named library made last header)
    (parts : made = earlier ++ stage :: later)
    (implicit : stage.construct.implicits = 1) (tape : Tape) :
    Matches made header ⟨.index (earlier.length + 1), tape⟩
      ⟨stage.before.implicitState, tape⟩ := by
  have regrouped : made = (earlier ++ [stage]) ++ later := by
    rw [parts]
    simp
  have matched : Matches made header ⟨.index (earlier ++ [stage]).length, tape⟩
      ⟨standing header.start (earlier ++ [stage]), tape⟩ :=
    .index regrouped (named.first_concat parts implicit)
  rcases named.drafted.split parts with ⟨_, _, _, step⟩
  rw [standing_concat, step.current_of_implicit implicit, List.length_append] at matched
  exact matched

/-- Such a construct takes the one step that its rule says. -/
theorem Named.followed_by_next (named : Named library made last header)
    (parts : made = earlier ++ stage :: later) (first : First header earlier)
    (implicit : stage.construct.implicits = 1) {rule : Rule}
    (found : Rule.first? stage.rules (stage.before.current, tape.focus) = some rule)
    (continues : rule.next = stage.before.implicitState) :
    Followed made last header ⟨standing header.start earlier, tape⟩
      ⟨.index earlier.length, tape⟩
      ⟨.index (earlier.length + 1), (tape.write rule.write).move rule.move⟩ := by
  have next := named.successor?_of_stage parts first found
  rw [Configuration.apply, continues] at next
  exact ⟨1, _, Program.after?_one next, named.matches_next parts implicit _,
    by simp [Control.lead]⟩

theorem Named.followed_by_move (named : Named library made last header)
    (parts : made = earlier ++ stage :: later) (first : First header earlier)
    {direction : Direction} (construct : stage.construct = .move direction) :
    Followed made last header ⟨standing header.start earlier, tape⟩
      ⟨.index earlier.length, tape⟩ ⟨.index (earlier.length + 1), tape.move direction⟩ := by
  rcases named.drafted.split parts with ⟨_, _, _, step⟩
  have found := Rule.first?_moving stage.before.current stage.before.implicitState direction
    tape.focus
  rw [← step.rules_move construct] at found
  exact named.followed_by_next parts first (by rw [construct]; rfl) found rfl

theorem Named.followed_by_write (named : Named library made last header)
    (parts : made = earlier ++ stage :: later) (first : First header earlier)
    {symbol : Symbol} (construct : stage.construct = .write symbol) :
    Followed made last header ⟨standing header.start earlier, tape⟩
      ⟨.index earlier.length, tape⟩ ⟨.index (earlier.length + 1), tape.write symbol⟩ := by
  rcases named.drafted.split parts with ⟨_, _, _, step⟩
  have found := Rule.first?_writing stage.before.current stage.before.implicitState symbol
    tape.focus
  rw [← step.rules_write construct] at found
  exact named.followed_by_next parts first (by rw [construct]; rfl) found rfl

theorem Named.followed_by_jump (named : Named library made last header)
    (parts : made = earlier ++ stage :: later) (first : First header earlier)
    {target : StateName} (construct : stage.construct = .jump target) :
    Followed made last header ⟨standing header.start earlier, tape⟩
      ⟨.index earlier.length, tape⟩ ⟨.name target, tape⟩ := by
  rcases named.drafted.split parts with ⟨_, _, written, step⟩
  rw [construct] at written
  have found := Rule.first?_handOver stage.before.current target tape.focus
  rw [← step.rules_jump construct] at found
  exact ⟨1, _, Program.after?_one (named.successor?_of_stage parts first found),
    .name written, by simp [Control.lead]⟩

/-- A call takes one step more than its module and leaves through the same exit. -/
theorem Named.followed_by_exit (named : Named library made last header)
    (parts : made = earlier ++ stage :: later) (first : First header earlier)
    {name binding : String} {table : Program} {exits : List StateName} {exit : StateName}
    {steps : Nat} {halted : Configuration}
    (construct : stage.construct = .call name binding)
    (loaded : library.load name = .ok table)
    (resolved : Binding.exits (declare name table) binding "" = .ok exits)
    (halts : table.HaltsAt tape steps halted)
    (bound : exits[table.ends.idxOf halted.state]? = some exit) :
    Followed made last header ⟨standing header.start earlier, tape⟩
      ⟨.index earlier.length, tape⟩ ⟨.ofExit (earlier.length + 1) exit, halted.tape⟩ := by
  rcases named.placed parts first construct with
    ⟨other, hostExits, otherLoaded, hostResolved, starts, placed⟩
  rw [loaded] at otherLoaded
  cases otherLoaded
  have reached := placed.run_from_entry starts ((table.haltsAt_iff tape steps halted).mp halts).1
  rcases Binding.exit_cases resolved hostResolved bound with
    ⟨unnamed, hostBound⟩ | ⟨filled, writes, hostBound⟩
  · have control : Control.ofExit (earlier.length + 1) exit = .index (earlier.length + 1) :=
      if_pos unnamed
    have implicit : stage.construct.implicits = 1 := by
      rw [construct]
      rfl
    rw [Instance.outside_of_getElem? hostBound] at reached
    rw [control]
    refine ⟨_, _, reached, named.matches_next parts implicit _, ?_⟩
    simp only [Control.lead]
    omega
  · have control : Control.ofExit (earlier.length + 1) exit = .name exit := if_neg filled
    have member := Named.mem_constructsOf parts construct
    rw [Instance.outside_of_getElem? hostBound] at reached
    rw [control]
    refine ⟨_, _, reached, .name (named.targets_written name binding member exit writes), ?_⟩
    simp only [Control.lead]
    omega

/-- Every step of the source is followed by the table. -/
theorem Named.followed (named : Named library made last header)
    (matched : Matches made header point here)
    (step : (scriptOf library made header).Step point next) :
    Followed made last header here point next := by
  cases step with
  | move found =>
      rcases matched.exists_stage found with
        ⟨earlier, stage, later, parts, rfl, construct, first, rfl⟩
      exact named.followed_by_move parts first construct
  | write found =>
      rcases matched.exists_stage found with
        ⟨earlier, stage, later, parts, rfl, construct, first, rfl⟩
      exact named.followed_by_write parts first construct
  | jump found =>
      rcases matched.exists_stage found with
        ⟨earlier, stage, later, parts, rfl, construct, first, rfl⟩
      exact named.followed_by_jump parts first construct
  | call found loaded resolved halts bound =>
      rcases matched.exists_stage found with
        ⟨earlier, stage, later, parts, rfl, construct, first, rfl⟩
      exact named.followed_by_exit parts first construct loaded resolved halts bound
  | @finish tape final isFirst =>
      rcases matched.exists_parts with ⟨earlier, later, parts, length, first, rfl⟩
      have atEnd : made = earlier := by
        have nothing : later = [] := by
          simpa [scriptOf, constructsOf, parts] using length
        rw [parts, nothing, List.append_nil]
      subst atEnd
      have same : final = header.firstEnd :=
        (Option.some.inj ((List.head?_eq_some_head header.ends_ne_nil).symm.trans isFirst)).symm
      rw [same]
      exact ⟨1, _, Program.after?_one (named.successor?_of_end first tape),
        .name (named.ends_written _ (List.head_mem _)), by simp [Control.lead]⟩
  | @enter position tape state going stands =>
      cases matched with
      | name identifier =>
          rcases named.first_of_label? identifier going stands with
            ⟨earlier, later, parts, rfl, same, first⟩
          refine ⟨0, _, rfl, ?_, by simp [Control.lead]⟩
          rw [← same]
          exact .index parts first

/-- Every run of the source is followed by the table, which is never far behind. -/
theorem Named.reaches (named : Named library made last header) {count : Nat}
    (reached : (scriptOf library made header).Reaches
      ((scriptOf library made header).initial tape) count point) :
    Exists fun steps : Nat => Exists fun there : Configuration =>
      (tableOf made last header).after? steps ((tableOf made last header).initial tape) =
          some there ∧
        Matches made header point there ∧ count ≤ 2 * steps + point.control.lead := by
  induction reached with
  | here => exact ⟨0, _, rfl, .name named.start_written, Nat.zero_le _⟩
  | later _ step inductionHypothesis =>
      rcases inductionHypothesis with ⟨steps, middle, before, matched, behind⟩
      rcases named.followed matched step with ⟨more, there, after, nextMatched, taken⟩
      refine ⟨steps + more, there, Program.after?_trans before after, nextMatched, ?_⟩
      omega

/-! ## Endings -/

theorem Named.haltsAt (named : Named library made last header) {there : Configuration}
    (halts : (scriptOf library made header).HaltsAt tape there) :
    Exists fun steps : Nat => (tableOf made last header).HaltsAt tape steps there := by
  rcases halts with ⟨final, count, reached⟩
  rcases named.reaches reached with ⟨steps, found, after, matched, _⟩
  cases matched with
  | name identifier =>
      refine ⟨steps, (Program.haltsAt_iff _ tape steps there).mpr ⟨after, ?_⟩⟩
      simpa [Program.isEnd, tableOf, scriptOf] using final

/-- A module that is called is run by the table from the position of the call. -/
theorem Named.run_call (named : Named library made last header)
    (parts : made = earlier ++ stage :: later) (first : First header earlier)
    {name binding : String} {table : Program}
    (construct : stage.construct = .call name binding)
    (loaded : library.load name = .ok table) :
    Exists fun exits : List StateName =>
      Instance.Placed table name (callsOf name (constructsOf earlier))
        (standing header.start earlier) exits (tableOf made last header) ∧
      forall steps there, table.after? steps (table.initial tape) = some there ->
        (tableOf made last header).after? (steps + 1) ⟨standing header.start earlier, tape⟩ =
          some ⟨Instance.outside table name (callsOf name (constructsOf earlier)) exits
            there.state, there.tape⟩ := by
  rcases named.placed parts first construct with ⟨other, exits, otherLoaded, _, starts, placed⟩
  rw [loaded] at otherLoaded
  cases otherLoaded
  exact ⟨exits, placed, fun _ _ reached => placed.run_from_entry starts reached⟩

theorem Named.stuckAt (named : Named library made last header) {there : Configuration}
    (stuck : (scriptOf library made header).StuckAt tape there) :
    (tableOf made last header).StuckAt tape there.state there.tape.focus there := by
  rcases stuck with ⟨count, point, reached, blocked⟩
  rcases named.reaches reached with ⟨steps, found, after, matched, _⟩
  apply (Program.stuckAt_iff _ tape _ _ there).mpr
  refine ⟨rfl, rfl, ?_⟩
  cases blocked with
  | nowhere going missing =>
      cases matched with
      | name identifier =>
          refine ⟨?_, named.first?_eq_none_of_label? identifier missing _, steps, after⟩
          simpa [Program.isEnd, tableOf, scriptOf] using going
  | @inside position moment name binding table state symbol inner located loaded innerStuck =>
      rcases matched.exists_stage located with
        ⟨earlier, stage, later, parts, rfl, construct, first, rfl⟩
      rcases named.run_call parts first construct loaded with ⟨exits, placed, run⟩
      rcases (Program.stuckAt_iff table moment state symbol inner).mp innerStuck with
        ⟨_, _, going, missing, more, innerReached⟩
      have entered := run more inner innerReached
      rw [Instance.outside_of_not_mem placed.exit_count going] at entered
      have number : (scriptOf library made header).constructs.take earlier.length =
          constructsOf earlier := by
        simp [scriptOf, constructsOf, parts]
      rw [number]
      exact ⟨placed.inner_going _, (placed.first?_eq_none_iff _ _).mpr missing, _,
        Program.after?_trans after entered⟩

theorem Named.runsForever (named : Named library made last header)
    (forever : (scriptOf library made header).RunsForever tape) :
    (tableOf made last header).RunsForever tape := by
  apply Program.runsForever_of_unbounded
  intro bound
  rcases forever with unbounded | ⟨count, point, reached, absorbed⟩
  · rcases unbounded (2 * bound + 1) with ⟨point, reached⟩
    rcases named.reaches reached with ⟨steps, there, after, _, behind⟩
    have lead : point.control.lead ≤ 1 := by
      cases point.control <;> simp [Control.lead]
    exact ⟨steps, there, by omega, after⟩
  · rcases named.reaches reached with ⟨steps, found, after, matched, _⟩
    cases absorbed with
    | @inside position moment name binding table located loaded innerForever =>
        rcases matched.exists_stage located with
          ⟨earlier, stage, later, parts, rfl, construct, first, rfl⟩
        rcases named.run_call parts first construct loaded with ⟨exits, _, run⟩
        rcases (Program.runsForever_iff table moment).mp innerForever bound with
          ⟨inner, innerReached⟩
        exact ⟨_, _, by omega, Program.after?_trans after (run bound inner innerReached)⟩

/-- All calls of a reading were resolved. -/
theorem Named.resolved (named : Named library made last header) :
    (scriptOf library made header).Resolved := by
  refine ⟨header.ends_ne_nil, ?_⟩
  intro name binding member
  rcases List.mem_map.mp member with ⟨stage, among, construct⟩
  rcases List.append_of_mem among with ⟨earlier, later, parts⟩
  rcases named.drafted.split parts with ⟨begun, _, _, step⟩
  rcases begun.called step construct with ⟨table, exits, loaded, _, resolved, lengths, _⟩
  rcases Binding.exists_routed resolved with ⟨routes, routed, rfl⟩
  refine ⟨table, _, loaded, routed.2 "", ?_⟩
  simpa using lengths

end Following

/-- The run of a source: with the states of its header, the constructs of its text and
the tables of its library. -/
def Script.ofSource (library : Library) (text : String) (program : Program) : Script :=
  ⟨program.start, program.ends, Source.constructs text, library⟩

/--
A parsed table means what its source says.  Header states and targets of bindings
are identifiers, and no module that is called starts in one of its end states.  Then
the table has the states of the header, and the table and the source run alike on
every tape: they halt in the same end states with the same tapes, they are stuck at
the same states, symbols and tapes, where a call that is stuck shows the marked state
of its module, and they run forever on the same tapes.
-/
theorem parsed_table_runs_as_source {library : Library} {text : String} {program : Program}
    {registry : Registry} (parsed : parse library text = .ok (program, registry))
    (startWritten : isIdentifier program.start = true)
    (endsWritten : forall state, state ∈ program.ends -> isIdentifier state = true)
    (targetsWritten : forall name binding, .call name binding ∈ constructs text ->
      forall target, target ∈ Binding.written binding -> isIdentifier target = true)
    (starts : forall name binding table, .call name binding ∈ constructs text ->
      library.load name = .ok table -> Not (table.start ∈ table.ends))
    (tape : Tape) :
    (header? text).map (fun header => (header.start, header.ends)) =
      some (program.start, program.ends) ∧
    (forall there, (Exists fun steps : Nat => program.HaltsAt tape steps there) ↔
      (Script.ofSource library text program).HaltsAt tape there) ∧
    (forall state symbol there, program.StuckAt tape state symbol there ↔
      there.state = state ∧ there.tape.focus = symbol ∧
        (Script.ofSource library text program).StuckAt tape there) ∧
    (program.RunsForever tape ↔
      (Script.ofSource library text program).RunsForever tape) := by
  rcases drafted_of_parse parsed with ⟨last, header, drafted, headed, found, items, same⟩
  have table : program = tableOf (stages library text) last header := same
  subst table
  rw [← items] at targetsWritten starts
  have named : Named library (stages library text) last header :=
    ⟨drafted, headed, startWritten, endsWritten, targetsWritten, starts⟩
  have script : Script.ofSource library text (tableOf (stages library text) last header) =
      scriptOf library (stages library text) header := by
    rw [Script.ofSource, scriptOf, items]
    rfl
  rw [script]
  refine ⟨by rw [found]; rfl, ?_⟩
  exact Program.endings_exact (named.resolved.halts_or_stuck_or_runsForever tape)
    (fun _ => named.haltsAt) (fun _ => named.stuckAt) named.runsForever

/-- A module that tells by its end state which symbol is under the head. -/
def looking : Library := .ofTexts [("look", "s zero one\ns 0 zero 0 -\ns 1 one 1 -\n")]

/-- A loop that goes right until its module finds a zero, and then writes a one. -/
def lookingLoop : String := "A B\n!module look\nagain: > look(one:again)\n1\n"

/-- On a tape with two ones the module leaves through the named exit first, which takes the
run back to the jump, and then through the default.  The parsed table halts because the
source does. -/
theorem parsed_table_runs_as_source_of_loop :
    Exists fun program : Program => Exists fun registry : Registry =>
      parse looking lookingLoop = .ok (program, registry) ∧
        Exists fun steps : Nat =>
          program.HaltsAt ⟨[], .one, [.one, .zero]⟩ steps
            ⟨"B", ⟨[.one, .one], .one, []⟩⟩ := by
  have shape : (parse looking lookingLoop).toOption.map
      (fun result => (result.1.start, result.1.ends)) = some ("A", ["B"]) := by
    decide +kernel
  have cutText : constructs lookingLoop =
      [.jump "again", .move .right, .call "look" "one:again", .write .one] := by
    decide +kernel
  have loaded : looking.load "look" = .ok ⟨"s", ["zero", "one"],
      [⟨"s", .zero, "zero", .zero, .stay⟩, ⟨"s", .one, "one", .one, .stay⟩]⟩ := rfl
  have onlyCall : forall name binding, .call name binding ∈ constructs lookingLoop ->
      name = "look" ∧ binding = "one:again" := by
    rw [cutText]
    simp
  have halts : Script.HaltsAt
      ⟨"A", ["B"], [.jump "again", .move .right, .call "look" "one:again", .write .one], looking⟩
      ⟨[], .one, [.one, .zero]⟩ ⟨"B", ⟨[.one, .one], .one, []⟩⟩ := by
    refine ⟨List.mem_cons_self, 10, ?_⟩
    -- The name of the start state, jump, name, move, call with the named exit; and then
    -- name, move, call with the default exit, write, end.
    refine .later (.later (.later (.later (.later (.later (.later (.later (.later (.later .here
      (.enter (by decide) rfl)) (.jump rfl)) (.enter (by decide) rfl)) (.move rfl))
      (.call rfl loaded rfl ((Program.haltsAt_iff _ _ 1 ⟨"one", _⟩).mpr ⟨rfl, rfl⟩) rfl))
      (.enter (by decide) rfl)) (.move rfl))
      (.call rfl loaded rfl ((Program.haltsAt_iff _ _ 1 ⟨"zero", _⟩).mpr ⟨rfl, rfl⟩) rfl))
      (.write rfl)) (.finish rfl)
  cases parsed : parse looking lookingLoop with
  | error error =>
      rw [parsed] at shape
      cases shape
  | ok result =>
      rcases result with ⟨program, registry⟩
      rw [parsed] at shape
      have header : program.start = "A" ∧ program.ends = ["B"] := by
        simpa [Except.toOption] using shape
      refine ⟨program, registry, rfl, ?_⟩
      apply ((parsed_table_runs_as_source parsed (by rw [header.1]; decide)
        (by rw [header.2]; decide) ?_ ?_ ⟨[], .one, [.one, .zero]⟩).2.1 _).mpr
      · rw [Script.ofSource, header.1, header.2, cutText]
        exact halts
      · intro name binding member
        rcases onlyCall name binding member with ⟨rfl, rfl⟩
        decide +kernel
      · intro name binding table member found
        rcases onlyCall name binding member with ⟨rfl, rfl⟩
        rw [loaded] at found
        cases found
        decide

end Source
end BinaryTape
