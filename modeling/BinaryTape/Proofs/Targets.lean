import BinaryTape.Proofs.Completeness
import BinaryTape.Proofs.Origins

namespace BinaryTape

/-!
# Targets without rules

A table resolves a state that is an end state or has a rule.  A run comes to an
unresolved state only to be stuck there.  Chains are checked: one that leads to an
unresolved state fails to collapse.  Rules that move are not, and a compiled program may
move into a state that nothing is known of.

What a source moves by itself goes to an implicit state, where the next construct adds
its rules.  So an unresolved target comes from a module: from a rule that moves to a
state without rules in the module's own table, or from one that moves to an end state
which the binding sends to a name that stands nowhere in the source.  The passes add
nothing to that.  A target of a rule that moves is reachable along with the rule, and
dropping rules cannot take its rules away.
-/

namespace Program

/-- The table has a rule that starts at the state. -/
def Defines (program : Program) (state : StateName) : Prop :=
  Exists fun rule : Rule => rule ∈ program.rules ∧ rule.state = state

/-- The state is an end state or has a rule. -/
def Resolves (program : Program) (state : StateName) : Prop :=
  state ∈ program.ends ∨ program.Defines state

instance (program : Program) (state : StateName) : Decidable (program.Defines state) :=
  inferInstanceAs (Decidable (Exists fun rule : Rule => rule ∈ program.rules ∧ _))

instance (program : Program) (state : StateName) : Decidable (program.Resolves state) :=
  inferInstanceAs (Decidable (_ ∨ _))

/-- A table whose moving rules lead to resolved states. -/
def MovesResolved (program : Program) : Prop :=
  forall rule, rule ∈ program.rules -> rule.move.moves = true -> program.Resolves rule.next

instance (program : Program) : Decidable program.MovesResolved :=
  inferInstanceAs (Decidable (forall rule, rule ∈ program.rules -> _))

theorem defines_iff_address {program : Program} {state : StateName} :
    program.Defines state ↔ Exists fun address : StateName × Symbol =>
      address ∈ program.rules.map Rule.address ∧ address.1 = state := by
  constructor
  · rintro ⟨rule, member, same⟩
    exact ⟨rule.address, List.mem_map_of_mem member, same⟩
  · rintro ⟨address, member, same⟩
    rcases List.mem_map.mp member with ⟨rule, inside, rfl⟩
    exact ⟨rule, inside, same⟩

theorem defines_of_serves {program : Program} {state : StateName}
    (serves : Rule.Serves program.rules state) : program.Defines state := by
  rcases serves .zero with ⟨rule, member, addressed⟩
  exact ⟨rule, member, congrArg Prod.fst addressed⟩

/-! ## The passes -/

variable {compiled table : Program}

/-- The passes keep the rules of exactly the states that can be reached. -/
theorem Condenses.defines_iff (condenses : compiled.Condenses table) {state : StateName} :
    compiled.Defines state ↔
      table.Defines state ∧ Reachability.Reaches compiled.rules compiled.start state := by
  rw [defines_iff_address, defines_iff_address, condenses.addresses_eq]
  constructor
  · rintro ⟨address, member, rfl⟩
    rcases List.mem_filter.mp member with ⟨given, kept⟩
    exact ⟨⟨address, given, rfl⟩, (Reachability.contains_reachable_iff _ _ _).mp kept⟩
  · rintro ⟨⟨address, given, rfl⟩, reached⟩
    exact ⟨address, List.mem_filter.mpr
      ⟨given, (Reachability.contains_reachable_iff _ _ _).mpr reached⟩, rfl⟩

/-- Compiled rules that do not move lead to end states of the table. -/
theorem Condenses.final_of_stay (condenses : compiled.Condenses table) {rule : Rule}
    (member : rule ∈ compiled.rules) (stays : rule.move.moves = false) :
    rule.next ∈ table.ends := by
  rw [← condenses.ends_eq]
  exact condenses.normal.lands rule member ((Direction.moves_eq_false_iff _).mp stays)

/-- A target is resolved by a compiled program if it is by the table. -/
theorem Condenses.resolves_iff (condenses : compiled.Condenses table) {rule : Rule}
    (member : rule ∈ compiled.rules) :
    compiled.Resolves rule.next ↔ table.Resolves rule.next := by
  unfold Resolves
  rw [condenses.ends_eq, condenses.defines_iff]
  constructor
  · exact fun resolved => resolved.imp_right And.left
  · rintro (final | defined)
    · exact Or.inl final
    · cases moves : rule.move.moves with
      | false => exact Or.inl (condenses.final_of_stay member moves)
      | true =>
          have here := condenses.normal.reached rule member
          exact Or.inr ⟨defined, .step member moves here⟩

/-- A compiled program resolves its targets if the table resolves its moves. -/
theorem Condenses.resolves_next (condenses : compiled.Condenses table)
    (resolved : table.MovesResolved) {rule : Rule} (member : rule ∈ compiled.rules) :
    compiled.Resolves rule.next := by
  apply (condenses.resolves_iff member).mpr
  cases moves : rule.move.moves with
  | false => exact Or.inl (condenses.final_of_stay member moves)
  | true =>
      rcases condenses.effects rule member with ⟨given, inside, next, move⟩
      rw [← next]
      exact resolved given inside (by rw [move, moves])

end Program

namespace Source

variable {library : Library} {made earlier later : List Stage} {last : Draft}
  {header : Header} {stage : Stage}

/-! ## Tables that were read -/

/-- A table that was read has rules where the caller has been and where a module has
rules in one of its copies. -/
theorem Drafted.defines_iff (drafted : Drafted library made last)
    (headed : last.header = some header) {state : StateName} :
    (tableOf made last header).Defines state ↔
      state ∈ callerStates header.start made ∨
        Exists fun stage : Stage => stage ∈ made ∧ Exists fun rule : Rule =>
          rule ∈ stage.copies ∧ rule.state = state := by
  rw [Program.defines_iff_address]
  have parted := drafted.perm_addresses headed
  constructor
  · rintro ⟨address, member, rfl⟩
    rcases List.mem_append.mp (parted.mem_iff.mp member) with caller | copies
    · rcases List.mem_flatMap.mp caller with ⟨state, passed, addressed⟩
      rw [Rule.mem_addressesAt_iff.mp addressed]
      exact Or.inl passed
    · rcases List.mem_flatMap.mp copies with ⟨stage, among, copied⟩
      rcases List.mem_map.mp copied with ⟨rule, inside, rfl⟩
      exact Or.inr ⟨stage, among, rule, inside, rfl⟩
  · rintro (passed | ⟨stage, among, rule, inside, rfl⟩)
    · refine ⟨(state, .zero), parted.mem_iff.mpr (List.mem_append_left _ ?_), rfl⟩
      exact List.mem_flatMap.mpr ⟨state, passed, Rule.mem_addressesAt_iff.mpr rfl⟩
    · refine ⟨rule.address, parted.mem_iff.mpr (List.mem_append_right _ ?_), rfl⟩
      exact List.mem_flatMap.mpr ⟨stage, among, List.mem_map_of_mem inside⟩

/-- Names that are known to the header or to a jump are resolved. -/
theorem Drafted.resolves_known (drafted : Drafted library made last)
    (headed : last.header = some header) {target : StateName}
    (known : Drafted.Known header (constructsOf made) target) :
    (tableOf made last header).Resolves target := by
  rcases known with final | start | jumped
  · exact Or.inl final
  · rw [start]
    exact Or.inr (Program.defines_of_serves (drafted.serves_standing headed [] made rfl))
  · exact Or.inr (Program.defines_of_serves (drafted.serves_jump headed jumped))

/-- Moves of a called module, whose own moves are resolved and whose binding leads to
known names, are resolved. -/
theorem Drafted.call_resolves (drafted : Drafted library made last)
    (headed : last.header = some header) (parts : made = earlier ++ stage :: later)
    {name binding : String} (construct : stage.construct = .call name binding)
    (resolved : forall table, library.load name = .ok table -> table.MovesResolved)
    (known : forall target, target ∈ Binding.written binding ->
      Drafted.Known header (constructsOf made) target) {rule : Rule}
    (member : rule ∈ stage.rules) (moves : rule.move.moves = true) :
    (tableOf made last header).Resolves rule.next := by
  rcases drafted.split parts with ⟨begun, _, _, step⟩
  rcases begun.called step construct with ⟨table, exits, loaded, _, bound, lengths, rules⟩
  have staged : forall other, other ∈ stage.rules ->
      (tableOf made last header).Defines other.state :=
    fun other inside => ⟨other, Drafted.mem_tableOf parts inside, rfl⟩
  rw [rules, Instance.rules, Instance.map_copy_declare lengths] at member staged
  rcases List.mem_append.mp member with entry | copied
  · rcases List.mem_map.mp entry with ⟨symbol, _, rfl⟩
    cases moves
  · rcases List.mem_map.mp copied with ⟨original, inside, rfl⟩
    by_cases final : original.next ∈ table.ends
    · have ending : table.isEnd original.next = true := by simpa [Program.isEnd] using final
      have exit : Instance.outside table name (callsOf name (constructsOf earlier)) exits
          original.next ∈ exits :=
        List.mem_of_getElem? (Instance.getElem?_idxOf_of_isEnd lengths ending)
      rcases Binding.mem_written_of_mem_exits bound exit with default | written
      · have goesOn : stage.after.current = stage.before.implicitState :=
          step.current_of_implicit (by rw [construct]; rfl)
        simp only [Instance.image]
        rw [default, ← goesOn]
        exact Or.inr (Program.defines_of_serves (drafted.serves_after headed parts))
      · exact drafted.resolves_known headed (known _ written)
    · have going : table.isEnd original.next = false := by simpa [Program.isEnd] using final
      rcases resolved table loaded original inside moves with impossible | ⟨other, own, same⟩
      · exact absurd impossible final
      · have copy := staged _ (List.mem_append_right _ (List.mem_map_of_mem own))
        simp only [Instance.image] at copy ⊢
        rw [Instance.outside_of_not_mem lengths going, ← same]
        exact Or.inr copy

/-- Sources whose modules resolve their moves and whose bindings lead to known names are
read into tables that resolve their moves. -/
theorem Drafted.movesResolved (drafted : Drafted library made last)
    (headed : last.header = some header)
    (resolved : forall name binding table, .call name binding ∈ constructsOf made ->
      library.load name = .ok table -> table.MovesResolved)
    (known : forall name binding target, .call name binding ∈ constructsOf made ->
      target ∈ Binding.written binding -> Drafted.Known header (constructsOf made) target) :
    (tableOf made last header).MovesResolved := by
  intro rule member moves
  rcases List.mem_append.mp member with staged | closing
  · rcases List.mem_flatMap.mp staged with ⟨stage, among, inside⟩
    rcases List.append_of_mem among with ⟨earlier, later, parts⟩
    rcases stage.construct.call_or_simple with ⟨name, binding, construct⟩ | simple
    · have called := Named.mem_constructsOf parts construct
      exact drafted.call_resolves headed parts construct
        (fun table => resolved name binding table called)
        (fun target => known name binding target called) inside moves
    · rcases drafted.split parts with ⟨_, _, _, step⟩
      rw [(step.rule_between simple inside).2]
      exact Or.inr (Program.defines_of_serves (drafted.serves_after headed parts))
  · rcases List.mem_map.mp closing with ⟨symbol, _, rfl⟩
    cases moves

end Source

namespace Compilation

open Source

/--
Where compiled programs move into states without rules.  A target of a compiled rule is
an end state or has a compiled rule exactly when it is an end state, a state that the
caller goes through, or a state of a copy for which the module has a rule.  This is so
for all targets if every module that is called moves only to its end states and to states
with rules, and every target written in a binding is an end state or the start state of
the header or is jumped to somewhere.
-/
theorem compiled_targets_resolved_iff {texts : List (String × String)} {text : String}
    {compilation : Compilation}
    (compiled : compile (Library.ofTexts texts) text = .ok compilation) :
    (forall rule, rule ∈ compilation.program.rules ->
      (compilation.program.Resolves rule.next ↔
        rule.next ∈ compilation.program.ends ∨
          rule.next ∈ callerStates compilation.program.start
            (stages (Library.ofTexts texts) text) ∨
          Exists fun stage : Stage => stage ∈ stages (Library.ofTexts texts) text ∧
            Exists fun copy : Rule => copy ∈ stage.copies ∧ copy.state = rule.next)) ∧
    ((forall name binding table, .call name binding ∈ constructs text ->
        (Library.ofTexts texts).load name = .ok table -> table.MovesResolved) ->
      (forall name binding target, .call name binding ∈ constructs text ->
        target ∈ Binding.written binding ->
          target ∈ compilation.program.ends ∨ target = compilation.program.start ∨
            .jump target ∈ constructs text) ->
      forall rule, rule ∈ compilation.program.rules ->
        compilation.program.Resolves rule.next) := by
  rcases condenses_of_compile compiled with ⟨last, header, drafted, headed, items, condenses⟩
  have start : compilation.program.start = header.start := condenses.start_eq
  have ends : compilation.program.ends = header.ends := condenses.ends_eq
  rw [start, ends, ← items]
  constructor
  · intro rule member
    rw [condenses.resolves_iff member, Program.Resolves, drafted.defines_iff headed]
    rfl
  · intro resolved known rule member
    exact condenses.resolves_next (drafted.movesResolved headed resolved known) member

/-- A source that calls a module at its start state and binds the module back to it.  The
module moves to its end state and to its start state. -/
theorem compiled_targets_resolved_iff_of_start :
    Exists fun compilation : Compilation =>
      compile (Library.ofTexts [("m", "s e\ns 0 e 1 >\ns 1 s 1 >\n")])
          "A B\n!module m\nm(A)\n" = .ok compilation ∧
        forall rule, rule ∈ compilation.program.rules ->
          compilation.program.Resolves rule.next := by
  have cutText : constructs "A B\n!module m\nm(A)\n" = [.call "m" "A"] := by
    decide +kernel
  have onlyCall : forall name binding,
      .call name binding ∈ constructs "A B\n!module m\nm(A)\n" ->
        name = "m" ∧ binding = "A" := by
    rw [cutText]
    simp
  have loaded : (Library.ofTexts [("m", "s e\ns 0 e 1 >\ns 1 s 1 >\n")]).load "m" =
      .ok ⟨"s", ["e"], [⟨"s", .zero, "e", .one, .right⟩, ⟨"s", .one, "s", .one, .right⟩]⟩ := rfl
  have read : (parse (Library.ofTexts [("m", "s e\ns 0 e 1 >\ns 1 s 1 >\n")])
      "A B\n!module m\nm(A)\n").toOption.map Prod.fst =
        some ⟨"A", ["B"],
          [⟨"A", .zero, "m(s_i0)", .zero, .stay⟩, ⟨"A", .one, "m(s_i0)", .one, .stay⟩,
           ⟨"m(s_i0)", .zero, "A", .one, .right⟩, ⟨"m(s_i0)", .one, "m(s_i0)", .one, .right⟩,
           ⟨"0", .zero, "B", .zero, .stay⟩, ⟨"0", .one, "B", .one, .stay⟩]⟩ := by
    decide +kernel
  rcases exists_compile read (.cons ⟨1, .taken rfl rfl (.closed rfl)⟩
    (.cons ⟨1, .taken rfl rfl (.closed rfl)⟩ (.cons ⟨0, .closed rfl⟩ (.cons ⟨0, .closed rfl⟩
      (.cons ⟨0, .closed rfl⟩ (.cons ⟨0, .closed rfl⟩ .nil)))))) with
    ⟨compilation, compiled, program⟩
  refine ⟨compilation, compiled, (compiled_targets_resolved_iff compiled).2 ?_ ?_⟩
  · intro name binding table called found
    rcases onlyCall name binding called with ⟨rfl, rfl⟩
    rw [loaded] at found
    cases found
    decide
  · intro name binding target called written
    rcases onlyCall name binding called with ⟨rfl, rfl⟩
    have bound : Binding.written "A" = ["A"] := by decide +kernel
    rw [bound] at written
    rw [List.mem_singleton.mp written, program]
    exact Or.inr (Or.inl rfl)

/-- A module that moves to its end state, which is bound to a name that stands nowhere in
the source.  The compiled program moves there and has no rule to go on. -/
theorem compiled_target_unresolved :
    Exists fun compilation : Compilation =>
      compile (Library.ofTexts [("m", "s e\ns 0 e 0 >\ns 1 e 1 >\n")])
          "!module m\nA END\nm(nowhere)\n" = .ok compilation ∧
        Not (forall rule, rule ∈ compilation.program.rules ->
          compilation.program.Resolves rule.next) := by
  have read : (parse (Library.ofTexts [("m", "s e\ns 0 e 0 >\ns 1 e 1 >\n")])
      "!module m\nA END\nm(nowhere)\n").toOption.map Prod.fst =
        some ⟨"A", ["END"],
          [⟨"A", .zero, "m(s_i0)", .zero, .stay⟩, ⟨"A", .one, "m(s_i0)", .one, .stay⟩,
           ⟨"m(s_i0)", .zero, "nowhere", .zero, .right⟩,
           ⟨"m(s_i0)", .one, "nowhere", .one, .right⟩,
           ⟨"0", .zero, "END", .zero, .stay⟩, ⟨"0", .one, "END", .one, .stay⟩]⟩ := by
    decide +kernel
  rcases exists_compile read (.cons ⟨1, .taken rfl rfl (.closed rfl)⟩
    (.cons ⟨1, .taken rfl rfl (.closed rfl)⟩ (.cons ⟨0, .closed rfl⟩ (.cons ⟨0, .closed rfl⟩
      (.cons ⟨0, .closed rfl⟩ (.cons ⟨0, .closed rfl⟩ .nil)))))) with
    ⟨compilation, compiled, program⟩
  refine ⟨compilation, compiled, fun resolved => ?_⟩
  rw [program] at resolved
  have emitted := resolved ⟨"A", .zero, "nowhere", .zero, .right⟩
    (List.mem_filter.mpr
      ⟨List.mem_cons_self, (Reachability.contains_reachable_iff _ _ _).mpr .start⟩)
  rcases emitted with final | ⟨other, member, same⟩
  · revert final
    decide
  · have given := (List.mem_filter.mp member).1
    clear member
    revert same
    revert other
    decide

end Compilation

end BinaryTape
