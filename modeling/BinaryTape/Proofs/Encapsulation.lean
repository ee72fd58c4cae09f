import BinaryTape.Proofs.Readings

namespace BinaryTape
namespace Source

open Names (Unclosed)
open BinaryTape.Module (marked)

/-!
# Instances are encapsulated

Every call of a source copies a module into the program under names of its own.
The copies cannot be told apart by looking at the states of the modules, which may
be called anything; they are told apart by the name of the module, which is an
identifier because a call was written with it, and by the number of the call, which
the registry has counted.  The caller itself is only ever in states that do not
close a parenthesis, and bindings are cut off before the first closing one.  So no
rule outside a copy starts at a state of the copy or leads into it, except for the
two rules through which the call enters.
-/

/-- What a call added: the module it found, where it was called from, and the exits. -/
structure Instantiation where
  entry : Module.Entry
  origin : StateName
  exits : List StateName

namespace Instantiation

/-- The rules that hand control to the copy. -/
def entryRules (call : Instantiation) : List Rule :=
  Rule.handOver call.origin (call.entry.declared.start ++ call.entry.scope)

/-- The copies of the module's rules. -/
def copiedRules (call : Instantiation) : List Rule :=
  call.entry.declared.rules.map
    (Instance.copy call.entry.declared call.entry.scope call.exits)

/-- The states of the copy, whatever the states of the module are called. -/
def Internal (call : Instantiation) (state : StateName) : Prop :=
  Exists fun inner : StateName =>
    state = marked call.entry.declared.name call.entry.invocations inner

/-- What keeps a copy apart from the rest of a program: from the other stages, the
states of the caller and the rules outside of it. -/
structure Encapsulated (call : Instantiation) (others : List Instantiation)
    (callers : List StateName) (outer : List Rule) : Prop where
  disjoint : forall other, other ∈ others -> forall state,
    call.Internal state -> Not (other.Internal state)
  not_caller : forall state, state ∈ callers -> Not (call.Internal state)
  not_exit : forall other, other ∈ call :: others -> forall state, state ∈ other.exits ->
    Not (call.Internal state)
  entered : forall rule, rule ∈ call.entryRules ->
    Not (call.Internal rule.state) ∧ call.Internal rule.next
  copied : forall rule, rule ∈ call.copiedRules -> call.Internal rule.state
  outer_state : forall rule, rule ∈ outer -> Not (call.Internal rule.state)
  outer_next : forall rule, rule ∈ outer -> Not (call.Internal rule.next)

end Instantiation

/-- What a stage instantiated, if it was a call. -/
def Stage.instantiation? (stage : Stage) : Option Instantiation :=
  match stage.construct with
  | .call name binding =>
      match stage.before.registry.get? name with
      | none => none
      | some entry =>
          match Binding.exits entry.declared binding stage.before.implicitState with
          | .ok exits => some ⟨entry, stage.before.current, exits⟩
          | .error _ => none
  | _ => none

/-- The states that the caller goes through while a source is read. -/
def callerStates (start : StateName) (made : List Stage) : List StateName :=
  start :: made.map (fun stage => stage.after.current)

/-! ## The states of the caller -/

section Drafted

variable {library : Library} {made earlier later : List Stage} {draft : Draft}
  {stage : Stage} {call : Instantiation} {header : Header}

/-- A construct continues at an identifier or at a numeral. -/
theorem Stage.Made.unclosed_current (step : stage.Made)
    (written : stage.construct.WellWritten) : Unclosed stage.after.current := by
  rw [step.effect.current_eq]
  cases construct : stage.construct with
  | jump target =>
      rw [construct] at written
      exact Names.unclosed_identifier written
  | move direction => exact Names.unclosed_numeral _
  | write symbol => exact Names.unclosed_numeral _
  | call name binding => exact Names.unclosed_numeral _

theorem Drafted.unclosed_callerStates (drafted : Drafted library made draft)
    {start : StateName} (startUnclosed : Unclosed start) :
    forall state, state ∈ callerStates start made -> Unclosed state := by
  intro state member
  rcases List.mem_cons.mp member with same | later
  · rw [same]
    exact startUnclosed
  · rcases List.mem_map.mp later with ⟨stage, inside, rfl⟩
    rcases List.append_of_mem inside with ⟨_, _, parts⟩
    rcases drafted.split parts with ⟨_, _, written, step⟩
    exact step.unclosed_current written

theorem Drafted.mem_callerStates (drafted : Drafted library made draft)
    (headed : draft.header = some header) :
    draft.current ∈ callerStates header.start made := by
  rw [drafted.current_eq headed, standing]
  cases last : made.getLast? with
  | none => exact List.mem_cons_self
  | some stage =>
      exact List.mem_cons_of_mem _
        (List.mem_map.mpr ⟨stage, List.mem_of_getLast? last, rfl⟩)

theorem Drafted.unclosed_current (drafted : Drafted library made draft)
    (headed : draft.header = some header) (startUnclosed : Unclosed header.start) :
    Unclosed draft.current :=
  drafted.unclosed_callerStates startUnclosed _ (drafted.mem_callerStates headed)

/-! ## The states of a copy -/

/-- What the stage of a call instantiated. -/
structure Instantiation.Of (call : Instantiation) (library : Library) (earlier : List Stage)
    (stage : Stage) (name binding : String) : Prop where
  identifier : isIdentifier name = true
  entry_eq : Exists fun program : Program => library.load name = .ok program ∧
    call.entry = ⟨.declare name program, callsOf name (constructsOf earlier)⟩
  origin_eq : call.origin = stage.before.current
  exits_unclosed : forall exit, exit ∈ call.exits -> Unclosed exit
  rules_eq : stage.rules = call.entryRules ++ call.copiedRules

theorem Drafted.instantiation_of_call (drafted : Drafted library made draft)
    (parts : made = earlier ++ stage :: later) {name binding : String}
    (construct : stage.construct = .call name binding) :
    Exists fun call : Instantiation => stage.instantiation? = some call ∧
      call.Of library earlier stage name binding := by
  rcases drafted.split parts with ⟨begun, _, written, step⟩
  rw [construct] at written
  rcases begun.called step construct with ⟨program, exits, loaded, found, resolved, _, rules⟩
  refine ⟨⟨_, stage.before.current, exits⟩, ?_, written.1, ⟨program, loaded, rfl⟩, rfl, ?_,
    rules⟩
  · simp only [Stage.instantiation?, construct, found, resolved]
  · intro exit member
    rcases Binding.mem_written_of_mem_exits resolved member with same | target
    · rw [same]
      exact Names.unclosed_numeral _
    · apply Names.unclosed_of_not_mem
      intro inside
      exact written.2 (Binding.mem_of_mem_written target inside)

/-- Only calls instantiate. -/
theorem Drafted.instantiation_of_some (drafted : Drafted library made draft)
    (parts : made = earlier ++ stage :: later) (found : stage.instantiation? = some call) :
    Exists fun name : String => Exists fun binding : String =>
      stage.construct = .call name binding ∧ call.Of library earlier stage name binding := by
  cases construct : stage.construct with
  | move direction => simp [Stage.instantiation?, construct] at found
  | write symbol => simp [Stage.instantiation?, construct] at found
  | jump target => simp [Stage.instantiation?, construct] at found
  | call name binding =>
      rcases drafted.instantiation_of_call parts construct with ⟨other, same, known⟩
      rw [found] at same
      cases same
      exact ⟨name, binding, rfl, known⟩

theorem Instantiation.Of.internal_iff {name binding : String}
    (known : call.Of library earlier stage name binding) (state : StateName) :
    call.Internal state ↔ Exists fun inner : StateName =>
      state = marked name (callsOf name (constructsOf earlier)) inner := by
  rcases known.entry_eq with ⟨program, _, entry⟩
  unfold Instantiation.Internal
  rw [entry]
  rfl

theorem Instantiation.Of.not_internal {name binding : String}
    (known : call.Of library earlier stage name binding) {state : StateName}
    (unclosed : Unclosed state) : Not (call.Internal state) := by
  intro internal
  rcases (known.internal_iff state).mp internal with ⟨inner, same⟩
  exact Names.marked_ne_of_unclosed _ _ _ unclosed same.symm

theorem Instantiation.Of.entered {name binding : String}
    (known : call.Of library earlier stage name binding) {rule : Rule}
    (member : rule ∈ call.entryRules) :
    rule.state = stage.before.current ∧ call.Internal rule.next := by
  rcases known.entry_eq with ⟨program, _, entry⟩
  rcases List.mem_map.mp member with ⟨symbol, _, rfl⟩
  refine ⟨known.origin_eq, (known.internal_iff _).mpr ⟨program.start, ?_⟩⟩
  rw [entry]
  rfl

/-- A copied rule starts inside the copy and stays there or leaves through an exit. -/
theorem Instantiation.Of.copied {name binding : String}
    (known : call.Of library earlier stage name binding) {rule : Rule}
    (member : rule ∈ call.copiedRules) :
    call.Internal rule.state ∧ (call.Internal rule.next ∨ rule.next ∈ call.exits) := by
  rcases known.entry_eq with ⟨program, _, entry⟩
  rcases List.mem_map.mp member with ⟨declared, inside, rfl⟩
  rw [entry] at inside
  rcases List.mem_map.mp inside with ⟨original, _, rfl⟩
  refine ⟨(known.internal_iff _).mpr ⟨original.state, by rw [entry]; rfl⟩, ?_⟩
  simp only [Instance.copy, Instance.target]
  cases bound : (call.entry.declared.ends.zip call.exits).lookup
      (Module.qualify name original.next) with
  | none => exact Or.inl ((known.internal_iff _).mpr ⟨original.next, by rw [entry]; rfl⟩)
  | some exit => exact Or.inr (List.of_mem_zip (mem_of_lookup bound)).2

/-! ## Two stages -/

theorem callsOf_lt (name binding : String) (earlier between : List Stage) (stage : Stage)
    (construct : stage.construct = .call name binding) :
    callsOf name (constructsOf earlier) <
      callsOf name (constructsOf (earlier ++ stage :: between)) := by
  simp [callsOf, constructsOf, construct, Construct.isCallOf]

/-- Of two calls the later one has another name or a higher number. -/
theorem Drafted.disjoint (drafted : Drafted library made draft) {between : List Stage}
    {second : Stage} {other : Instantiation}
    (parts : made = earlier ++ stage :: (between ++ second :: later))
    (found : stage.instantiation? = some call)
    (otherFound : second.instantiation? = some other) {state : StateName}
    (internal : call.Internal state) : Not (other.Internal state) := by
  intro otherInternal
  have regrouped : made = (earlier ++ stage :: between) ++ second :: later := by
    rw [parts]
    simp
  rcases drafted.instantiation_of_some parts found with ⟨name, binding, construct, known⟩
  rcases drafted.instantiation_of_some regrouped otherFound with
    ⟨otherName, otherBinding, _, otherKnown⟩
  rcases (known.internal_iff state).mp internal with ⟨inner, same⟩
  rcases (otherKnown.internal_iff state).mp otherInternal with ⟨otherInner, otherSame⟩
  have foreign : isNamePart '(' = false := by decide
  rcases Names.marked_decode (Names.not_mem_identifier known.identifier foreign)
    (Names.not_mem_identifier otherKnown.identifier foreign) (same.symm.trans otherSame) with
    ⟨rfl, numbers⟩
  have increased := callsOf_lt name binding earlier between stage construct
  omega

/-- The rules of a stage lie between a state of the caller and states that are
unclosed, except inside the stage's own copy. -/
theorem Drafted.rule_cases (drafted : Drafted library made draft)
    (parts : made = earlier ++ stage :: later) {rule : Rule} (member : rule ∈ stage.rules) :
    (rule.state = stage.before.current ∨
      Exists fun own : Instantiation =>
        stage.instantiation? = some own ∧ own.Internal rule.state) ∧
    (Unclosed rule.next ∨
      Exists fun own : Instantiation =>
        stage.instantiation? = some own ∧ own.Internal rule.next) := by
  rcases drafted.split parts with ⟨_, _, written, step⟩
  rcases stage.construct.call_or_simple with ⟨name, binding, construct⟩ | simple
  · rcases drafted.instantiation_of_call parts construct with ⟨own, found, known⟩
    rw [known.rules_eq] at member
    rcases List.mem_append.mp member with entry | copy
    · rcases known.entered entry with ⟨origin, inside⟩
      exact ⟨Or.inl origin, Or.inr ⟨own, found, inside⟩⟩
    · rcases known.copied copy with ⟨origin, inside | exit⟩
      · exact ⟨Or.inr ⟨own, found, origin⟩, Or.inr ⟨own, found, inside⟩⟩
      · exact ⟨Or.inr ⟨own, found, origin⟩, Or.inl (known.exits_unclosed _ exit)⟩
  · rcases step.rule_between simple member with ⟨origin, next⟩
    rw [next]
    exact ⟨Or.inl origin, Or.inl (step.unclosed_current written)⟩

private theorem mem_of_parts (parts : made = earlier ++ stage :: later) {other : Stage}
    (member : other ∈ earlier ++ later) : other ∈ made := by
  rw [parts]
  rcases List.mem_append.mp member with before | behind
  · exact List.mem_append_left _ before
  · exact List.mem_append_right _ (List.mem_cons_of_mem _ behind)

/-- The copy of a call shares no state with the copy of another call, which stands
before it or behind it. -/
theorem Drafted.apart (drafted : Drafted library made draft)
    (parts : made = earlier ++ stage :: later) (found : stage.instantiation? = some call)
    {other : Stage} (member : other ∈ earlier ++ later) {own : Instantiation}
    (ownFound : other.instantiation? = some own) {state : StateName}
    (internal : call.Internal state) : Not (own.Internal state) := by
  rcases List.mem_append.mp member with before | behind
  · rcases List.append_of_mem before with ⟨first, between, rfl⟩
    have regrouped : made = first ++ other :: (between ++ stage :: later) := by
      rw [parts]
      simp
    intro ownInternal
    exact drafted.disjoint regrouped ownFound found ownInternal internal
  · rcases List.append_of_mem behind with ⟨between, final, rfl⟩
    exact drafted.disjoint parts found ownFound internal

/-- The rules of other stages do not touch the copy of a call. -/
theorem Drafted.rule_outside (drafted : Drafted library made draft)
    (headed : draft.header = some header) (startUnclosed : Unclosed header.start)
    (parts : made = earlier ++ stage :: later) (found : stage.instantiation? = some call)
    {other : Stage} (member : other ∈ earlier ++ later) {rule : Rule}
    (inside : rule ∈ other.rules) :
    Not (call.Internal rule.state) ∧ Not (call.Internal rule.next) := by
  rcases drafted.instantiation_of_some parts found with ⟨_, _, _, known⟩
  rcases List.append_of_mem (mem_of_parts parts member) with ⟨_, _, otherParts⟩
  rcases drafted.rule_cases otherParts inside with ⟨origin, next⟩
  constructor
  · rcases origin with same | ⟨own, ownFound, internal⟩
    · rcases drafted.split otherParts with ⟨begun, sameHeader, _, _⟩
      rw [same]
      exact known.not_internal
        (begun.unclosed_current (sameHeader.trans headed) startUnclosed)
    · exact fun shared => drafted.apart parts found member ownFound shared internal
  · rcases next with unclosed | ⟨own, ownFound, internal⟩
    · exact known.not_internal unclosed
    · exact fun shared => drafted.apart parts found member ownFound shared internal

/-- The copy of every call is encapsulated in the program that the draft ends as. -/
theorem Drafted.encapsulated (drafted : Drafted library made draft)
    (headed : draft.header = some header) (startUnclosed : Unclosed header.start)
    (endsUnclosed : forall state, state ∈ header.ends -> Unclosed state)
    (parts : made = earlier ++ stage :: later) (found : stage.instantiation? = some call) :
    call.Encapsulated ((earlier ++ later).filterMap Stage.instantiation?)
      (callerStates header.start made)
      (earlier.flatMap Stage.rules ++ later.flatMap Stage.rules ++
        Rule.handOver draft.current header.firstEnd) := by
  rcases drafted.instantiation_of_some parts found with ⟨_, _, _, known⟩
  have outer : forall rule, rule ∈ earlier.flatMap Stage.rules ++ later.flatMap Stage.rules ++
      Rule.handOver draft.current header.firstEnd ->
        Not (call.Internal rule.state) ∧ Not (call.Internal rule.next) := by
    intro rule member
    rw [← List.flatMap_append] at member
    rcases List.mem_append.mp member with staged | closing
    · rcases List.mem_flatMap.mp staged with ⟨other, among, inside⟩
      exact drafted.rule_outside headed startUnclosed parts found among inside
    · rcases List.mem_map.mp closing with ⟨symbol, _, rfl⟩
      exact ⟨known.not_internal (drafted.unclosed_current headed startUnclosed),
        known.not_internal (endsUnclosed _ (List.head_mem _))⟩
  constructor
  case disjoint =>
    intro own member state internal
    rcases List.mem_filterMap.mp member with ⟨other, among, ownFound⟩
    exact drafted.apart parts found among ownFound internal
  case not_caller =>
    intro state member
    exact known.not_internal (drafted.unclosed_callerStates startUnclosed state member)
  case not_exit =>
    intro own member state exit
    apply known.not_internal
    rcases List.mem_cons.mp member with rfl | among
    · exact known.exits_unclosed state exit
    · rcases List.mem_filterMap.mp among with ⟨other, inside, ownFound⟩
      rcases List.append_of_mem (mem_of_parts parts inside) with ⟨_, _, otherParts⟩
      rcases drafted.instantiation_of_some otherParts ownFound with ⟨_, _, _, otherKnown⟩
      exact otherKnown.exits_unclosed state exit
  case entered =>
    intro rule member
    rcases known.entered member with ⟨origin, inside⟩
    rcases drafted.split parts with ⟨begun, sameHeader, _, _⟩
    rw [origin]
    exact ⟨known.not_internal
      (begun.unclosed_current (sameHeader.trans headed) startUnclosed), inside⟩
  case copied =>
    intro rule member
    exact (known.copied member).1
  case outer_state =>
    intro rule member
    exact (outer rule member).1
  case outer_next =>
    intro rule member
    exact (outer rule member).2

end Drafted

/--
Module instances are encapsulated.  The rules of a parsed program are those of its
stages, one stage for each construct of the source, and two closing rules.  Every
call made an instance, whose rules are two entry rules and copies of the module's
rules; its internal states are no states of other instances, of the caller or of any
exits, all copied rules start at internal states, and apart from the copied rules
and the entry rules no rule of the program starts at one or leads to one.
-/
theorem instances_encapsulated {library : Library} {text : String} {program : Program}
    {registry : Registry} (parsed : parse library text = .ok (program, registry))
    (startUnclosed : Unclosed program.start)
    (endsUnclosed : forall state, state ∈ program.ends -> Unclosed state) :
    constructsOf (stages library text) = constructs text ∧
    Exists fun closing : List Rule =>
      program.rules = (stages library text).flatMap Stage.rules ++ closing ∧
        forall (earlier later : List Stage) (stage : Stage) (name binding : String),
          stages library text = earlier ++ stage :: later ->
          stage.construct = .call name binding ->
          Exists fun call : Instantiation =>
            stage.instantiation? = some call ∧
              call.entry.declared.name = name ∧
              stage.rules = call.entryRules ++ call.copiedRules ∧
              call.Encapsulated ((earlier ++ later).filterMap Stage.instantiation?)
                (callerStates program.start (stages library text))
                (earlier.flatMap Stage.rules ++ later.flatMap Stage.rules ++ closing) := by
  rcases drafted_of_parse parsed with ⟨last, header, drafted, headed, _, items, rfl⟩
  refine ⟨items, _, rfl, ?_⟩
  intro earlier later stage name binding parts construct
  rcases drafted.instantiation_of_call parts construct with ⟨call, found, known⟩
  rcases known.entry_eq with ⟨module, _, entry⟩
  refine ⟨call, found, by rw [entry]; rfl, known.rules_eq, ?_⟩
  exact drafted.encapsulated headed startUnclosed endsUnclosed parts found

/-- Two calls of one module, the second with a binding back to the start.  The state
of the module is called as if it were marked already. -/
theorem instances_encapsulated_called_twice :
    Exists fun program : Program => Exists fun registry : Registry =>
      parse (Library.ofTexts [("m", "s_i0)( e\ns_i0)( 0 e 1 -\n")])
          "A B\n!module m\nm m(A)\n" = .ok (program, registry) ∧
        Exists fun first : Stage => Exists fun second : Stage =>
          stages (Library.ofTexts [("m", "s_i0)( e\ns_i0)( 0 e 1 -\n")])
              "A B\n!module m\nm m(A)\n" = [first, second] ∧
            Exists fun one : Instantiation => Exists fun other : Instantiation =>
              first.instantiation? = some one ∧ second.instantiation? = some other ∧
                forall state, one.Internal state -> Not (other.Internal state) := by
  have shape : (parse (Library.ofTexts [("m", "s_i0)( e\ns_i0)( 0 e 1 -\n")])
      "A B\n!module m\nm m(A)\n").toOption.map
        (fun result => (result.1.start, result.1.ends)) = some ("A", ["B"]) := by
    decide +kernel
  have cutText : constructs "A B\n!module m\nm m(A)\n" = [.call "m" "", .call "m" "A"] := by
    decide +kernel
  cases parsed : parse (Library.ofTexts [("m", "s_i0)( e\ns_i0)( 0 e 1 -\n")])
      "A B\n!module m\nm m(A)\n" with
  | error error =>
      rw [parsed] at shape
      cases shape
  | ok result =>
      rcases result with ⟨program, registry⟩
      rw [parsed] at shape
      have header : program.start = "A" ∧ program.ends = ["B"] := by
        simpa [Except.toOption] using shape
      rcases instances_encapsulated parsed (by rw [header.1]; decide)
        (by rw [header.2]; decide) with ⟨items, _, _, calls⟩
      rcases List.map_eq_cons_iff.mp (items.trans cutText) with
        ⟨first, rest, both, firstCall, others⟩
      rcases List.map_eq_cons_iff.mp others with ⟨second, behind, rfl, secondCall, nothing⟩
      rw [List.map_eq_nil_iff.mp nothing] at both
      rcases calls [] [second] first "m" "" both firstCall with ⟨one, found, _, _, kept⟩
      rcases calls [first] [] second "m" "A" both secondCall with ⟨other, otherFound, _⟩
      refine ⟨program, registry, rfl, first, second, both, one, other, found, otherFound, ?_⟩
      exact kept.disjoint other (by simp [otherFound])

end Source
end BinaryTape
