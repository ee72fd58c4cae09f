import BinaryTape.Compilation
import BinaryTape.Proofs.Collapsing
import BinaryTape.Proofs.Elimination

namespace BinaryTape

/-!
# The passes of a compilation

A compilation reads a source into a table and applies two passes to it.  The
first turns chains into single rules, the second drops what the first has made
unreachable.  The order matters: the second pass follows moving rules only, which
is enough because the first one leaves no open rule behind.
-/

/-- The two passes together, on a table whose chains all come to an end. -/
theorem Program.SameRuns.of_passes {program : Program} {collapsed : List Rule} {count : Nat}
    (succeeded : Chain.collapse program.ends program.rules = (collapsed, .ok count)) :
    Program.SameRuns program (Reachability.eliminate { program with rules := collapsed }) := by
  have collapsing := (Chain.coarsens_of_collapse succeeded).sameRuns
  have closed : forall rule, rule ∈ collapsed -> Chain.isOpen program.ends rule = false :=
    fun _ member => Chain.isOpen_eq_false_of_collapse succeeded member
  have eliminating : Program.SameRuns { program with rules := collapsed }
      (Reachability.eliminate { program with rules := collapsed }) :=
    (Reachability.coarsens_eliminate closed).sameRuns
  exact collapsing.trans eliminating

namespace Compilation

/-- The compilation of a table that was read, given what its chains collapse to. -/
def ofCollapsed (parsed : Program) (registry : Registry) (collapsed : List Rule)
    (count : Nat) : Compilation where
  program := Reachability.eliminate { parsed with rules := collapsed }
  unusedModules := registry.unused
  parsedRules := parsed.rules.length
  collapsedRules := count
  removedRules := Reachability.removedCount { parsed with rules := collapsed }

/-- A compilation succeeds exactly when its source can be read and all chains of
the table come to an end. -/
theorem compile_eq_ok_iff {library : Library} {text : String} {compilation : Compilation} :
    compile library text = .ok compilation ↔
      Exists fun parsed : Program => Exists fun registry : Registry =>
        Exists fun collapsed : List Rule => Exists fun count : Nat =>
          Source.parse library text = .ok (parsed, registry) ∧
            Chain.collapse parsed.ends parsed.rules = (collapsed, .ok count) ∧
            compilation = ofCollapsed parsed registry collapsed count := by
  unfold compile compileLogged Source.parse
  cases reading : Source.readAll library text with
  | mk draft failure =>
      cases failure with
      | some error => simp
      | none =>
          cases finished : draft.finish with
          | error error => simp [finished, bind, Except.bind]
          | ok parsed =>
              simp only [finished, bind, Except.bind, pure, Except.pure, ofParsed]
              cases passed : Chain.collapse parsed.ends parsed.rules with
              | mk collapsed outcome =>
                  cases outcome with
                  | error error =>
                      simp only [reduceCtorEq, false_iff]
                      rintro ⟨other, registry, rules, count, same, succeeded, -⟩
                      cases same
                      rw [passed] at succeeded
                      cases succeeded
                  | ok count =>
                      constructor
                      · intro same
                        cases same
                        exact ⟨parsed, draft.registry, collapsed, count, rfl, passed, rfl⟩
                      · rintro ⟨other, registry, rules, total, same, succeeded, rfl⟩
                        cases same
                        rw [passed] at succeeded
                        cases succeeded
                        rfl

/--
Both passes keep the runs of every table they accept, whatever its start state,
end states and rules are.  In particular the compiled program has the runs of
the table that its source was read into.
-/
theorem passes_keep_runs :
    (forall (program : Program) (collapsed : List Rule) (count : Nat),
      Chain.collapse program.ends program.rules = (collapsed, .ok count) ->
        program.SameRuns (Reachability.eliminate { program with rules := collapsed })) ∧
    (forall (library : Library) (text : String) (compilation : Compilation),
      compile library text = .ok compilation ->
        Exists fun parsed : Program => Exists fun registry : Registry =>
          Source.parse library text = .ok (parsed, registry) ∧
            parsed.SameRuns compilation.program) := by
  constructor
  · intro program collapsed count succeeded
    exact .of_passes succeeded
  · intro library text compilation compiled
    rcases compile_eq_ok_iff.mp compiled with
      ⟨parsed, registry, collapsed, count, read, succeeded, rfl⟩
    exact ⟨parsed, registry, read, .of_passes succeeded⟩

/-- A table with a chain of two rules and an unreachable rule, and a source that
moves once. -/
theorem passes_keep_runs_of_chain :
    (Program.SameRuns
      ⟨"A", ["E"], [⟨"A", .zero, "b", .one, .stay⟩, ⟨"b", .one, "E", .zero, .right⟩]⟩
      (Reachability.eliminate
        ⟨"A", ["E"], [⟨"A", .zero, "E", .zero, .right⟩, ⟨"b", .one, "E", .zero, .right⟩]⟩)) ∧
    Exists fun parsed : Program => Exists fun registry : Registry =>
      Source.parse (Library.ofTexts []) "A E\n>\n" = .ok (parsed, registry) ∧
        parsed.SameRuns (Reachability.eliminate
          ⟨"A", ["E"],
            [⟨"A", .zero, "0", .zero, .right⟩, ⟨"A", .one, "0", .one, .right⟩,
             ⟨"0", .zero, "E", .zero, .stay⟩, ⟨"0", .one, "E", .one, .stay⟩]⟩) := by
  constructor
  · refine passes_keep_runs.1
      ⟨"A", ["E"], [⟨"A", .zero, "b", .one, .stay⟩, ⟨"b", .one, "E", .zero, .right⟩]⟩ _ 1 ?_
    simp [Chain.collapse, Chain.collapseFrom, Chain.follow, RuleIndex.position?_ofRules,
      List.findIdx?_cons, Chain.isOpen, Rule.target, Rule.address, Chain.takeOver]
  · refine passes_keep_runs.2 (Library.ofTexts []) "A E\n>\n"
      (ofCollapsed
        ⟨"A", ["E"],
          [⟨"A", .zero, "0", .zero, .right⟩, ⟨"A", .one, "0", .one, .right⟩,
           ⟨"0", .zero, "E", .zero, .stay⟩, ⟨"0", .one, "E", .one, .stay⟩]⟩ ⟨[]⟩ _ 0) ?_
    apply compile_eq_ok_iff.mpr
    refine ⟨_, _, _, _, ?_, ?_, rfl⟩
    · rfl
    · simp [Chain.collapse, Chain.collapseFrom, Chain.isOpen]

end Compilation

end BinaryTape
