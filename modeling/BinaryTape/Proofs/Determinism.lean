import Mathlib.Data.List.Induction
import BinaryTape.Proofs.Origins

namespace BinaryTape

open Rule (addressesAt)

/-!
# Deterministic tables

A table is deterministic when it has at most one rule for each address.  Nothing
checks this while a source is read.  The copies of deterministic modules are
deterministic and share no address with each other or with the caller, whose states do
not close a parenthesis.  So the table of a source is as deterministic as the way of
its caller: a state that the caller goes through twice gets two pairs of rules.  The
counter never gives out a state twice; a jump to the start state, or a second jump to
the same name, does come back to a state.  A module that is not deterministic brings its
doubled addresses into every copy, and there is no third way to a doubled address.

A compiled program keeps all rules of the states that it can reach.  Of two pairs at
such a state both stay in the table, and the second one is never used.
-/

/-- A table with at most one rule for each address. -/
def Program.Deterministic (program : Program) : Prop := (program.rules.map Rule.address).Nodup

instance (program : Program) : Decidable program.Deterministic :=
  inferInstanceAs (Decidable (List.Nodup _))

/-- What holds of every element and every later one holds pairwise. -/
theorem pairwise_of_parts {relation : α -> α -> Prop} {values : List α}
    (holds : forall front first between second behind,
      values = front ++ first :: (between ++ second :: behind) -> relation first second) :
    values.Pairwise relation := by
  induction values with
  | nil => exact .nil
  | cons value values inductionHypothesis =>
      refine .cons ?_ (inductionHypothesis ?_)
      · intro other member
        rcases List.append_of_mem member with ⟨between, behind, parts⟩
        exact holds [] value between other behind (by rw [parts]; rfl)
      · intro front first between second behind parts
        exact holds (value :: front) first between second behind (by rw [parts]; rfl)

/-- No value is kept twice when those that are kept occur once. -/
theorem nodup_filter_iff [BEq α] [LawfulBEq α] {keep : α -> Bool} {values : List α} :
    (values.filter keep).Nodup ↔
      forall value, keep value = true -> values.count value ≤ 1 := by
  rw [List.nodup_iff_count_le_one]
  constructor
  · intro counts value kept
    rw [← List.count_filter kept]
    exact counts value
  · intro counts value
    cases kept : keep value with
    | true =>
        rw [List.count_filter kept]
        exact counts value kept
    | false =>
        have dropped : Not (value ∈ values.filter keep) := by simp [kept]
        rw [List.count_eq_zero_of_not_mem dropped]
        exact Nat.zero_le 1

namespace Source

variable {library : Library} {made earlier later : List Stage} {last : Draft}
  {header : Header} {stage : Stage}

/-! ## Copies -/

/-- What a stage has copied starts inside the copy. -/
theorem Drafted.internal_of_copies (drafted : Drafted library made last)
    (parts : made = earlier ++ stage :: later) {rule : Rule} (copied : rule ∈ stage.copies) :
    Exists fun call : Instantiation => stage.instantiation? = some call ∧
      call.Internal rule.state := by
  rcases Stage.mem_copies_iff.mp copied with ⟨call, found, member⟩
  rcases drafted.instantiation_of_some parts found with ⟨_, _, _, known⟩
  exact ⟨call, found, (known.copied member).1⟩

/-- A copy has an address twice exactly when its table has. -/
theorem Drafted.nodup_copies_iff (drafted : Drafted library made last)
    (parts : made = earlier ++ stage :: later) :
    (stage.copies.map Rule.address).Nodup ↔
      forall name binding table, stage.construct = .call name binding ->
        library.load name = .ok table -> table.Deterministic := by
  cases found : stage.instantiation? with
  | none =>
      have uncalled : forall name binding, stage.construct ≠ .call name binding := by
        intro name binding construct
        rcases drafted.instantiation_of_call parts construct with ⟨_, some, _⟩
        rw [found] at some
        cases some
      simp [Stage.copies, found, uncalled]
  | some call =>
      rcases drafted.instantiation_of_some parts found with ⟨name, binding, construct, known⟩
      rcases known.addresses with ⟨table, loaded, addresses⟩
      have injective : Function.Injective (fun address : StateName × Symbol =>
          (Module.marked name (callsOf name (constructsOf earlier)) address.1, address.2)) := by
        intro one other same
        rcases Prod.mk.inj same with ⟨states, symbols⟩
        exact Prod.ext (Names.marked_injective states) symbols
      simp only [Stage.copies, found, Option.map_some, Option.getD_some, addresses,
        List.nodup_map_iff injective]
      constructor
      · intro distinct other otherBinding otherTable called otherLoaded
        rw [construct] at called
        cases called
        rw [loaded] at otherLoaded
        cases otherLoaded
        exact distinct
      · intro deterministic
        exact deterministic name binding table construct loaded

/-- Two copies share no address, so all of them together have an address twice exactly
when one of the tables has. -/
theorem Drafted.nodup_allCopies_iff (drafted : Drafted library made last) :
    (made.flatMap (fun stage => stage.copies.map Rule.address)).Nodup ↔
      forall name binding table, .call name binding ∈ constructsOf made ->
        library.load name = .ok table -> table.Deterministic := by
  have apart : made.Pairwise (Function.onFun List.Disjoint
      (fun stage : Stage => stage.copies.map Rule.address)) := by
    apply pairwise_of_parts
    intro front first between second behind parts address one other
    rcases List.mem_map.mp one with ⟨rule, copied, rfl⟩
    rcases List.mem_map.mp other with ⟨otherRule, otherCopied, same⟩
    have regrouped : made = (front ++ first :: between) ++ second :: behind := by
      rw [parts]
      simp
    rcases drafted.internal_of_copies parts copied with ⟨call, found, inside⟩
    rcases drafted.internal_of_copies regrouped otherCopied with ⟨own, ownFound, ownInside⟩
    have sameState : otherRule.state = rule.state := congrArg Prod.fst same
    rw [sameState] at ownInside
    exact drafted.disjoint parts found ownFound inside ownInside
  rw [List.nodup_flatMap, and_iff_left apart]
  constructor
  · intro distinct name binding table called
    rcases List.mem_map.mp called with ⟨stage, member, construct⟩
    rcases List.append_of_mem member with ⟨earlier, later, parts⟩
    exact (drafted.nodup_copies_iff parts).mp (distinct stage member) name binding table construct
  · intro deterministic stage member
    rcases List.append_of_mem member with ⟨earlier, later, parts⟩
    apply (drafted.nodup_copies_iff parts).mpr
    intro name binding table construct
    exact deterministic name binding table (construct ▸ List.mem_map_of_mem member)

/-- What a stage has copied starts at no unclosed state. -/
theorem Drafted.copied_ne_of_unclosed (drafted : Drafted library made last)
    (member : stage ∈ made) {rule : Rule} (copied : rule ∈ stage.copies) {state : StateName}
    (unclosed : Names.Unclosed state) : rule.state ≠ state := by
  rintro rfl
  rcases List.append_of_mem member with ⟨_, _, parts⟩
  rcases drafted.internal_of_copies parts copied with ⟨call, found, inside⟩
  rcases drafted.instantiation_of_some parts found with ⟨_, _, _, known⟩
  exact known.not_internal unclosed inside

/-- A state that the caller comes to is in no copy. -/
theorem Drafted.copied_ne_current (drafted : Drafted library made last) {other : Stage}
    (member : stage ∈ made) (among : other ∈ made) {rule : Rule}
    (copied : rule ∈ stage.copies) : rule.state ≠ other.after.current := by
  rcases List.append_of_mem among with ⟨_, _, parts⟩
  rcases drafted.split parts with ⟨_, _, written, step⟩
  exact drafted.copied_ne_of_unclosed member copied (step.unclosed_current written)

/-! ## Tables that were read -/

/-- Of a table that was read, the addresses of some states are all different exactly
when the caller goes through each of these states once, the copies have none of their
addresses twice and, if the start state is among them, no copy has a rule there. -/
theorem Drafted.nodup_parts_iff (drafted : Drafted library made last)
    (headed : last.header = some header) (keep : StateName -> Bool) :
    (((tableOf made last header).rules.map Rule.address).filter
        (fun address => keep address.1)).Nodup ↔
      ((callerStates header.start made).filter keep).Nodup ∧
        ((made.flatMap (fun stage => stage.copies.map Rule.address)).filter
          (fun address => keep address.1)).Nodup ∧
        (keep header.start = true -> forall stage, stage ∈ made ->
          forall rule, rule ∈ stage.copies -> rule.state ≠ header.start) := by
  have parted := (drafted.perm_addresses headed).filter (fun address => keep address.1)
  rw [parted.nodup_iff, List.filter_append, Rule.filter_flatMap_addressesAt,
    List.nodup_append', Rule.nodup_flatMap_addressesAt_iff]
  refine and_congr_right (fun _ => and_congr_right (fun _ => ?_))
  constructor
  · intro disjoint kept stage member rule copied same
    have start : header.start ∈ (callerStates header.start made).filter keep :=
      List.mem_filter.mpr ⟨List.mem_cons_self, kept⟩
    have called : rule.address ∈ ((callerStates header.start made).filter keep).flatMap
        addressesAt :=
      List.mem_flatMap.mpr ⟨header.start, start, Rule.mem_addressesAt_iff.mpr same⟩
    have inside : rule.address ∈ made.flatMap (fun stage => stage.copies.map Rule.address) :=
      List.mem_flatMap.mpr ⟨stage, member, List.mem_map_of_mem copied⟩
    rw [← same] at kept
    exact disjoint called (List.mem_filter.mpr ⟨inside, kept⟩)
  · intro free address called inside
    rcases List.mem_flatMap.mp called with ⟨state, passed, at_state⟩
    rcases List.mem_flatMap.mp (List.mem_filter.mp inside).1 with ⟨stage, member, copied⟩
    rcases List.mem_map.mp copied with ⟨rule, among, rfl⟩
    have same : rule.state = state := Rule.mem_addressesAt_iff.mp at_state
    rcases List.mem_filter.mp passed with ⟨caller, kept⟩
    rcases List.mem_cons.mp caller with start | reached
    · rw [start] at same kept
      exact free kept stage member rule among same
    · rcases List.mem_map.mp reached with ⟨other, otherMember, current⟩
      rw [← current] at same
      exact drafted.copied_ne_current member otherMember among same

/-- When the modules are deterministic, only the caller decides. -/
theorem Drafted.nodup_kept_iff (drafted : Drafted library made last)
    (headed : last.header = some header)
    (deterministic : forall name binding table, .call name binding ∈ constructsOf made ->
      library.load name = .ok table -> table.Deterministic) (keep : StateName -> Bool) :
    (((tableOf made last header).rules.map Rule.address).filter
        (fun address => keep address.1)).Nodup ↔
      ((callerStates header.start made).filter keep).Nodup ∧
        (keep header.start = true -> forall stage, stage ∈ made ->
          forall rule, rule ∈ stage.copies -> rule.state ≠ header.start) := by
  have copies := (drafted.nodup_allCopies_iff.mpr deterministic).filter
    (fun address => keep address.1)
  rw [drafted.nodup_parts_iff headed keep, and_iff_right copies]

/-- With an identifier for a start state, the caller comes back only by a jump. -/
theorem Drafted.nodup_callerStates_iff (drafted : Drafted library made last)
    {start : StateName} (identifier : isIdentifier start = true) :
    (callerStates start made).Nodup ↔ (start :: jumpTargets (constructsOf made)).Nodup := by
  rw [(drafted.perm_callerStates start).nodup_iff, drafted.implicitStates_eq]
  rw [List.nodup_cons, List.nodup_cons, List.nodup_append', List.mem_append]
  have fresh := not_mem_numerals_of_identifier (implicitsOf (constructsOf made)) identifier
  have apart : List.Disjoint (numerals (implicitsOf (constructsOf made)))
      (jumpTargets (constructsOf made)) := by
    intro name numeral jumped
    have written := drafted.identifier_of_jump (mem_jumpTargets_iff.mp jumped)
    exact not_mem_numerals_of_identifier _ written numeral
  constructor
  · rintro ⟨absent, _, distinct, _⟩
    exact ⟨fun jumped => absent (Or.inr jumped), distinct⟩
  · rintro ⟨absent, distinct⟩
    exact ⟨fun member => member.elim fresh absent, nodup_numerals _, distinct, apart⟩

/-- Of the start state and the targets of jumps, one comes twice exactly when a jump goes
to the start state or to where a jump before it went. -/
theorem not_nodup_jumpTargets_iff {start : StateName} {items : List Construct} :
    Not (start :: jumpTargets items).Nodup ↔
      Exists fun front : List Construct => Exists fun target : StateName =>
        Exists fun behind : List Construct => items = front ++ .jump target :: behind ∧
          (target = start ∨ .jump target ∈ front) := by
  constructor
  · intro repeated
    induction items using List.reverseRecOn with
    | nil => exact absurd (List.nodup_singleton start) repeated
    | append_singleton items construct inductionHypothesis =>
        by_cases distinct : (start :: jumpTargets items).Nodup
        · -- The last construct is the first to come back, so it is a jump.
          have idle : construct.label? = none -> False := by
            intro unlabelled
            apply repeated
            simpa [jumpTargets, unlabelled] using distinct
          cases construct with
          | jump target =>
              have jumped : start :: jumpTargets (items ++ [.jump target]) =
                  (start :: jumpTargets items).concat target := by
                simp [jumpTargets, Construct.label?]
              rw [jumped] at repeated
              have known : target ∈ start :: jumpTargets items :=
                Classical.byContradiction (fun fresh => repeated (distinct.concat fresh))
              exact ⟨items, target, [], rfl,
                (List.mem_cons.mp known).imp_right mem_jumpTargets_iff.mp⟩
          | move direction => exact (idle rfl).elim
          | write symbol => exact (idle rfl).elim
          | call name binding => exact (idle rfl).elim
        · rcases inductionHypothesis distinct with ⟨front, target, behind, rfl, known⟩
          exact ⟨front, target, behind ++ [construct], by simp, known⟩
  · rintro ⟨front, target, behind, rfl, known⟩ distinct
    have split : start :: jumpTargets (front ++ .jump target :: behind) =
        (start :: jumpTargets front) ++ target :: jumpTargets behind := by
      simp [jumpTargets, Construct.label?]
    rw [split] at distinct
    exact List.disjoint_of_nodup_append distinct
      (List.mem_cons.mpr (known.imp_right mem_jumpTargets_iff.mpr)) List.mem_cons_self

/--
When a parsed table has two rules for one address.  If the start state is an identifier,
this is so exactly when a jump goes to the start state or to the target of an earlier
jump, or the table of a module that is called has two rules for one address itself.
-/
theorem parsed_table_ambiguous_iff {text : String} {program : Program} {registry : Registry}
    (parsed : parse library text = .ok (program, registry))
    (identifier : isIdentifier program.start = true) :
    Not program.Deterministic ↔
      (Exists fun front : List Construct => Exists fun target : StateName =>
        Exists fun behind : List Construct =>
          constructs text = front ++ .jump target :: behind ∧
            (target = program.start ∨ .jump target ∈ front)) ∨
      (Exists fun name : String => Exists fun binding : String =>
        Exists fun table : Program => .call name binding ∈ constructs text ∧
          library.load name = .ok table ∧ Not table.Deterministic) := by
  rcases drafted_of_parse parsed with ⟨last, header, drafted, headed, _, items, same⟩
  have table : program = tableOf (stages library text) last header := same
  subst table
  have start : (tableOf (stages library text) last header).start = header.start := rfl
  rw [start] at identifier ⊢
  have apart : forall stage, stage ∈ stages library text ->
      forall rule, rule ∈ stage.copies -> rule.state ≠ header.start :=
    fun stage member rule copied =>
      drafted.copied_ne_of_unclosed member copied (Names.unclosed_identifier identifier)
  have parts := drafted.nodup_parts_iff headed (fun _ => true)
  simp only [List.filter_true, forall_const, and_iff_left apart] at parts
  rw [Program.Deterministic, parts, drafted.nodup_callerStates_iff identifier,
    drafted.nodup_allCopies_iff, items, Classical.not_and_iff_not_or_not,
    not_nodup_jumpTargets_iff]
  refine or_congr_right ?_
  simp only [Classical.not_forall, exists_prop]

/-- A source that jumps to its label a second time, out of the module that it calls there.
The module itself has one rule for each address. -/
theorem parsed_table_ambiguous_iff_of_label :
    Exists fun program : Program => Exists fun registry : Registry =>
      parse (Library.ofTexts [("m", "s e\ns 0 e 1 >\ns 1 s 1 >\n")])
          "A B\n!module m\nx: m(x) x:\n" = .ok (program, registry) ∧
        isIdentifier program.start = true ∧ Not program.Deterministic := by
  have shape : (parse (Library.ofTexts [("m", "s e\ns 0 e 1 >\ns 1 s 1 >\n")])
      "A B\n!module m\nx: m(x) x:\n").toOption.map (fun result => result.1.start) =
        some "A" := by
    decide +kernel
  have cutText : constructs "A B\n!module m\nx: m(x) x:\n" =
      [.jump "x", .call "m" "x", .jump "x"] := by
    decide +kernel
  cases parsed : parse (Library.ofTexts [("m", "s e\ns 0 e 1 >\ns 1 s 1 >\n")])
      "A B\n!module m\nx: m(x) x:\n" with
  | error error =>
      rw [parsed] at shape
      cases shape
  | ok result =>
      rcases result with ⟨program, registry⟩
      rw [parsed] at shape
      have start : program.start = "A" := Option.some.inj shape
      have identifier : isIdentifier program.start = true := by
        rw [start]
        decide
      refine ⟨program, registry, rfl, identifier, ?_⟩
      apply (parsed_table_ambiguous_iff parsed identifier).mpr
      refine Or.inl ⟨[.jump "x", .call "m" "x"], "x", [], cutText, Or.inr ?_⟩
      exact List.mem_cons_self

end Source

namespace Compilation

open Source

/--
When compiled tables are deterministic.  The modules that are called are deterministic.
Then the compiled program has at most one rule for each address exactly when the caller
goes at most once through every state that the compiled program can reach, and no copy
of a module has a rule at the start state.  If the start state is an identifier, it is
enough that no jump goes to the start state or to the target of an earlier jump.
-/
theorem compiled_table_deterministic_iff {texts : List (String × String)} {text : String}
    {compilation : Compilation}
    (deterministic : forall name binding table, .call name binding ∈ constructs text ->
      (Library.ofTexts texts).load name = .ok table -> table.Deterministic)
    (compiled : compile (Library.ofTexts texts) text = .ok compilation) :
    (compilation.program.Deterministic ↔
      (forall state, Reachability.Reaches compilation.program.rules compilation.program.start
          state ->
        (callerStates compilation.program.start
          (stages (Library.ofTexts texts) text)).count state ≤ 1) ∧
      forall stage, stage ∈ stages (Library.ofTexts texts) text ->
        forall rule, rule ∈ stage.copies -> rule.state ≠ compilation.program.start) ∧
    (isIdentifier compilation.program.start = true ->
      (compilation.program.start :: jumpTargets (constructs text)).Nodup ->
        compilation.program.Deterministic) := by
  rcases condenses_of_compile compiled with ⟨last, header, drafted, headed, items, condenses⟩
  rw [← items] at deterministic ⊢
  have kept := drafted.nodup_kept_iff headed deterministic
    (Reachability.reachable compilation.program.rules compilation.program.start).contains
  have start : compilation.program.start = header.start := condenses.start_eq
  rw [← condenses.addresses_eq, ← start, nodup_filter_iff] at kept
  simp only [Reachability.contains_reachable_iff, Reachability.Reaches.start, forall_const]
    at kept
  refine ⟨kept, fun identifier distinct => kept.mpr ⟨?_, ?_⟩⟩
  · intro state _
    exact List.nodup_iff_count_le_one.mp
      ((drafted.nodup_callerStates_iff identifier).mpr distinct) state
  · intro stage member rule copied
    exact drafted.copied_ne_of_unclosed member copied (Names.unclosed_identifier identifier)

/-- A source that calls a module at its label and binds the module back to it.  The
label is jumped to once. -/
theorem compiled_table_deterministic_iff_of_label :
    Exists fun compilation : Compilation =>
      compile (Library.ofTexts [("m", "s e\ns 0 e 1 >\ns 1 s 1 >\n")])
          "A B\n!module m\nx: m(x)\n" = .ok compilation ∧
        compilation.program.start = "A" ∧
        jumpTargets (constructs "A B\n!module m\nx: m(x)\n") = ["x"] ∧
        compilation.program.Deterministic := by
  have cutText : constructs "A B\n!module m\nx: m(x)\n" = [.jump "x", .call "m" "x"] := by
    decide +kernel
  have loaded : (Library.ofTexts [("m", "s e\ns 0 e 1 >\ns 1 s 1 >\n")]).load "m" =
      .ok ⟨"s", ["e"], [⟨"s", .zero, "e", .one, .right⟩, ⟨"s", .one, "s", .one, .right⟩]⟩ := rfl
  have read : (parse (Library.ofTexts [("m", "s e\ns 0 e 1 >\ns 1 s 1 >\n")])
      "A B\n!module m\nx: m(x)\n").toOption.map Prod.fst =
        some ⟨"A", ["B"],
          [⟨"A", .zero, "x", .zero, .stay⟩, ⟨"A", .one, "x", .one, .stay⟩,
           ⟨"x", .zero, "m(s_i0)", .zero, .stay⟩, ⟨"x", .one, "m(s_i0)", .one, .stay⟩,
           ⟨"m(s_i0)", .zero, "x", .one, .right⟩, ⟨"m(s_i0)", .one, "m(s_i0)", .one, .right⟩,
           ⟨"0", .zero, "B", .zero, .stay⟩, ⟨"0", .one, "B", .one, .stay⟩]⟩ := by
    decide +kernel
  rcases exists_compile read (.cons ⟨2, .taken rfl rfl (.taken rfl rfl (.closed rfl))⟩
    (.cons ⟨2, .taken rfl rfl (.taken rfl rfl (.closed rfl))⟩
      (.cons ⟨1, .taken rfl rfl (.closed rfl)⟩ (.cons ⟨1, .taken rfl rfl (.closed rfl)⟩
        (.cons ⟨0, .closed rfl⟩ (.cons ⟨0, .closed rfl⟩
          (.cons ⟨0, .closed rfl⟩ (.cons ⟨0, .closed rfl⟩ .nil)))))))) with
    ⟨compilation, compiled, program⟩
  have start : compilation.program.start = "A" := by
    rw [program]
    rfl
  have jumped : jumpTargets (constructs "A B\n!module m\nx: m(x)\n") = ["x"] := by
    rw [cutText]
    rfl
  refine ⟨compilation, compiled, start, jumped, ?_⟩
  refine (compiled_table_deterministic_iff ?_ compiled).2 ?_ ?_
  · intro name binding table called found
    rw [cutText] at called
    have same : name = "m" ∧ binding = "x" := by simpa using called
    rw [same.1, loaded] at found
    cases found
    decide
  · rw [start]
    decide
  · rw [start, jumped]
    decide

/-- A source that jumps back to its start state and goes on from there.  Both ways on
stay in the compiled table, and there is no module that could be to blame. -/
theorem compiled_table_not_deterministic :
    Exists fun compilation : Compilation =>
      compile (Library.ofTexts []) "A END\n> A: <\n" = .ok compilation ∧
        (forall name table, (Library.ofTexts []).load name = .ok table ->
          table.Deterministic) ∧
        Not compilation.program.Deterministic := by
  have read : (parse (Library.ofTexts []) "A END\n> A: <\n").toOption.map Prod.fst =
      some ⟨"A", ["END"],
        [⟨"A", .zero, "0", .zero, .right⟩, ⟨"A", .one, "0", .one, .right⟩,
         ⟨"0", .zero, "A", .zero, .stay⟩, ⟨"0", .one, "A", .one, .stay⟩,
         ⟨"A", .zero, "1", .zero, .left⟩, ⟨"A", .one, "1", .one, .left⟩,
         ⟨"1", .zero, "END", .zero, .stay⟩, ⟨"1", .one, "END", .one, .stay⟩]⟩ := by
    decide +kernel
  rcases exists_compile read (.cons ⟨0, .closed rfl⟩ (.cons ⟨0, .closed rfl⟩
    (.cons ⟨1, .taken rfl rfl (.closed rfl)⟩ (.cons ⟨1, .taken rfl rfl (.closed rfl)⟩
      (.cons ⟨0, .closed rfl⟩ (.cons ⟨0, .closed rfl⟩
        (.cons ⟨0, .closed rfl⟩ (.cons ⟨0, .closed rfl⟩ .nil)))))))) with
    ⟨compilation, compiled, program⟩
  refine ⟨compilation, compiled, fun name table found => (nomatch found), ?_⟩
  intro deterministic
  rw [program, Program.Deterministic, Reachability.addresses_eliminate, nodup_filter_iff]
    at deterministic
  have counted := deterministic ("A", .zero)
    ((Reachability.contains_reachable_iff _ _ _).mpr .start)
  revert counted
  decide

end Compilation

end BinaryTape
