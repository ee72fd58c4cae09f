import BinaryTape.Proofs.ChainEnds

namespace BinaryTape

/-!
# The normal form of compiled tables

A table is normal when its rules that do not move land on end states and all of its
rules start at states that its own moving rules lead to.  The two passes bring every
table they accept into this form.  Reachability is found on the larger table, but the
rules along the way to a kept rule start at reachable states themselves, so dropping
the others cuts no way.  On a normal table neither pass has anything left to do.
-/

namespace Program

/-- A table without chains and without rules that cannot be reached. -/
structure Normal (program : Program) : Prop where
  lands : forall rule, rule ∈ program.rules -> rule.move = .stay ->
    rule.next ∈ program.ends
  reached : forall rule, rule ∈ program.rules ->
    Reachability.Reaches program.rules program.start rule.state

end Program

/-! ## Tables that a pass leaves as they are -/

namespace Chain

theorem isOpen_eq_false_iff (ends : List StateName) (rule : Rule) :
    isOpen ends rule = false ↔ (rule.move = .stay -> rule.next ∈ ends) := by
  cases stays : rule.move <;> simp [isOpen, stays]

/-- Where no rule is open, every chain has ended already. -/
theorem collapse_of_closed {ends : List StateName} {rules : List Rule}
    (closed : forall rule, rule ∈ rules -> isOpen ends rule = false) :
    collapse ends rules = (rules, .ok 0) := by
  have leads : List.Forall₂ (fun rule last => Exists fun length : Nat =>
      Leads ends rules rule length last) rules rules :=
    List.forall₂_same.mpr (fun rule member => ⟨0, .closed (closed rule member)⟩)
  have noneOpen : rules.countP (isOpen ends) = 0 := by
    apply List.countP_eq_zero.mpr
    intro rule member opened
    rw [closed rule member] at opened
    cases opened
  rw [collapse_of_leads leads, noneOpen]

end Chain

namespace Reachability

variable {program : Program}

/-- The way to a reachable state is kept. -/
theorem Reaches.kept {state : StateName}
    (reached : Reaches program.rules program.start state) :
    Reaches (eliminate program).rules (eliminate program).start state := by
  induction reached with
  | start => exact .start
  | @step rule member moves reached inductionHypothesis =>
      have stays : rule ∈ (eliminate program).rules :=
        List.mem_filter.mpr ⟨member, (contains_reachable_iff _ _ _).mpr reached⟩
      exact .step stays moves inductionHypothesis

/-- Dropping the rules of unreachable states leaves the same states reachable. -/
theorem reaches_eliminate_iff {state : StateName} :
    Reaches (eliminate program).rules (eliminate program).start state ↔
      Reaches program.rules program.start state := by
  constructor
  · intro reached
    induction reached with
    | start => exact .start
    | step member moves _ inductionHypothesis =>
        exact .step (List.mem_filter.mp member).1 moves inductionHypothesis
  · exact Reaches.kept

/-- Nothing is dropped from a table whose rules all start at reachable states. -/
theorem eliminate_of_reached (reached : forall rule, rule ∈ program.rules ->
    Reaches program.rules program.start rule.state) : eliminate program = program := by
  have kept : program.rules.filter
      (fun rule => (reachable program.rules program.start).contains rule.state) =
        program.rules := by
    apply List.filter_eq_self.mpr
    intro rule member
    exact (contains_reachable_iff _ _ _).mpr (reached rule member)
  exact congrArg (fun rules => { program with rules := rules }) kept

end Reachability

/-! ## The passes -/

namespace Program

/-- Dropping the unreachable rules of a table without open rules makes it normal. -/
theorem Normal.of_eliminate {program : Program}
    (closed : forall rule, rule ∈ program.rules -> Chain.isOpen program.ends rule = false) :
    Normal (Reachability.eliminate program) where
  lands rule member := by
    have given := (List.mem_filter.mp member).1
    exact (Chain.isOpen_eq_false_iff program.ends rule).mp (closed rule given)
  reached rule member := by
    have found := (List.mem_filter.mp member).2
    exact ((Reachability.contains_reachable_iff _ _ _).mp found).kept

variable {program : Program}

theorem Normal.collapse_eq (normal : program.Normal) :
    Chain.collapse program.ends program.rules = (program.rules, .ok 0) := by
  apply Chain.collapse_of_closed
  intro rule member
  exact (Chain.isOpen_eq_false_iff _ _).mpr (normal.lands rule member)

theorem Normal.eliminate_eq (normal : program.Normal) :
    Reachability.eliminate program = program :=
  Reachability.eliminate_of_reached normal.reached

theorem Normal.removedCount_eq (normal : program.Normal) :
    Reachability.removedCount program = 0 := by
  rw [Reachability.removedCount, normal.eliminate_eq, Nat.sub_self]

end Program

namespace Compilation

/--
Compiled tables are in normal form: rules that do not move land on end states, and
every rule starts at a state that moving rules of the compiled table lead to.  Both
passes, applied once more, count nothing and leave the table as it is.
-/
theorem compiled_table_normal {library : Library} {text : String} {compilation : Compilation}
    (compiled : compile library text = .ok compilation) :
    (forall rule, rule ∈ compilation.program.rules -> rule.move = .stay ->
      rule.next ∈ compilation.program.ends) ∧
    (forall rule, rule ∈ compilation.program.rules ->
      Reachability.Reaches compilation.program.rules compilation.program.start rule.state) ∧
    Chain.collapse compilation.program.ends compilation.program.rules =
      (compilation.program.rules, .ok 0) ∧
    Reachability.eliminate compilation.program = compilation.program ∧
    Reachability.removedCount compilation.program = 0 := by
  rcases compile_eq_ok_iff.mp compiled with
    ⟨parsed, registry, collapsed, count, read, succeeded, rfl⟩
  have normal : (ofCollapsed parsed registry collapsed count).program.Normal :=
    .of_eliminate (fun _ member => Chain.isOpen_eq_false_of_collapse succeeded member)
  exact ⟨normal.lands, normal.reached, normal.collapse_eq, normal.eliminate_eq,
    normal.removedCount_eq⟩

/-- A source that writes and then moves.  The write is collapsed into the move behind
it, and the rules of the move itself cannot be reached any more. -/
theorem compiled_table_normal_of_write :
    Exists fun compilation : Compilation =>
      compile (Library.ofTexts []) "A E\n0 >\n" = .ok compilation ∧
        compilation.program = Reachability.eliminate
          ⟨"A", ["E"],
            [⟨"A", .zero, "1", .zero, .right⟩, ⟨"A", .one, "1", .zero, .right⟩,
             ⟨"0", .zero, "1", .zero, .right⟩, ⟨"0", .one, "1", .one, .right⟩,
             ⟨"1", .zero, "E", .zero, .stay⟩, ⟨"1", .one, "E", .one, .stay⟩]⟩ ∧
        (forall rule, rule ∈ compilation.program.rules -> rule.move = .stay ->
          rule.next ∈ compilation.program.ends) ∧
        Reachability.eliminate compilation.program = compilation.program := by
  have read : (Source.parse (Library.ofTexts []) "A E\n0 >\n").toOption.map Prod.fst =
      some ⟨"A", ["E"],
        [⟨"A", .zero, "0", .zero, .stay⟩, ⟨"A", .one, "0", .zero, .stay⟩,
         ⟨"0", .zero, "1", .zero, .right⟩, ⟨"0", .one, "1", .one, .right⟩,
         ⟨"1", .zero, "E", .zero, .stay⟩, ⟨"1", .one, "E", .one, .stay⟩]⟩ := by
    decide +kernel
  rcases exists_compile read (.cons ⟨1, .taken rfl rfl (.closed rfl)⟩
    (.cons ⟨1, .taken rfl rfl (.closed rfl)⟩ (.cons ⟨0, .closed rfl⟩ (.cons ⟨0, .closed rfl⟩
      (.cons ⟨0, .closed rfl⟩ (.cons ⟨0, .closed rfl⟩ .nil)))))) with
    ⟨compilation, compiled, program⟩
  rcases compiled_table_normal compiled with ⟨lands, _, _, kept, _⟩
  exact ⟨compilation, compiled, program, lands, kept⟩

end Compilation

end BinaryTape
