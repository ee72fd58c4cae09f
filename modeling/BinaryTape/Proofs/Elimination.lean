import BinaryTape.Chain
import BinaryTape.Reachability
import BinaryTape.Proofs.Coarsening

namespace BinaryTape

/-!
# Dropping unreachable rules

`Reaches` is the least set of states with the start state that is closed under
the moving rules of a table.  The search of the library, with its stack on which a
state may stand many times, finds exactly this set.

A machine leaves the set only by a rule that does not move.  When every such rule
lands on an end state, the machine halts there, so all configurations of a run
that are not final are in reachable states.  Their rules are kept, in their order,
and a run does not notice the others missing.
-/

namespace Reachability

/-- The states that moving rules lead to from a start state. -/
inductive Reaches (rules : List Rule) (start : StateName) : StateName -> Prop where
  | start : Reaches rules start start
  | step {rule : Rule} (member : rule ∈ rules) (moves : rule.move.moves = true)
      (reached : Reaches rules start rule.state) : Reaches rules start rule.next

theorem mem_getD_successors_iff (rules : List Rule) (state target : StateName) :
    target ∈ (successors rules).getD state [] ↔
      Exists fun rule : Rule => rule ∈ rules ∧ rule.move.moves = true ∧
        rule.state = state ∧ rule.next = target := by
  simp [getD_successors, and_assoc]

/-! ## The search -/

namespace Search

@[simp] theorem rules_visit (search : Search) (state : StateName) (rest : List StateName) :
    (search.visit state rest).rules = search.rules := by
  cases seen : search.visited.contains state with
  | true => rw [visit_of_seen seen]
  | false => rw [visit_of_fresh seen]

/-- A state that has been visited or will be. -/
def Knows (search : Search) (state : StateName) : Prop :=
  state ∈ search.visited ∨ state ∈ search.stack

variable {search : Search} {state : StateName} {rest : List StateName}

/-- A round forgets nothing. -/
theorem Knows.visit {other : StateName} (knows : search.Knows other)
    (stacked : search.stack = state :: rest) : (search.visit state rest).Knows other := by
  unfold Knows at knows
  rw [stacked] at knows
  cases seen : search.visited.contains state with
  | true =>
      rw [visit_of_seen seen]
      rcases knows with before | later
      · exact Or.inl before
      · rcases List.mem_cons.mp later with same | later
        · rw [same]
          exact Or.inl (Std.HashSet.contains_iff_mem.mp seen)
        · exact Or.inr later
  | false =>
      rw [visit_of_fresh seen]
      rcases knows with before | later
      · exact Or.inl (Std.HashSet.mem_insert.mpr (Or.inr before))
      · rcases List.mem_cons.mp later with same | later
        · rw [same]
          exact Or.inl Std.HashSet.mem_insert_self
        · exact Or.inr (List.mem_append_right _ later)

end Search

/--
What the search can rely on at any moment: the targets of visited states are visited or
on the stack, and nothing was visited or stacked that cannot be reached.
-/
structure Searching (start : StateName) (search : Search) : Prop where
  covered : forall state, state ∈ search.visited ->
    forall target, target ∈ (successors search.rules).getD state [] -> search.Knows target
  sound : forall state, search.Knows state -> Reaches search.rules start state

namespace Searching

variable {search : Search} {start state : StateName} {rest : List StateName}

theorem initial (rules : List Rule) (start : StateName) :
    Searching start (Search.initial rules start) where
  covered state visited := False.elim (Std.HashSet.not_mem_empty visited)
  sound state known := by
    rcases known with visited | stacked
    · exact False.elim (Std.HashSet.not_mem_empty visited)
    · rw [List.mem_singleton.mp stacked]
      exact .start

/-- Taking a state from the stack that was visited before. -/
theorem skip (searching : Searching start search) (stacked : search.stack = state :: rest)
    (seen : search.visited.contains state = true) :
    Searching start (search.visit state rest) := by
  refine ⟨?_, ?_⟩
  · intro other member target behind
    rw [Search.rules_visit] at behind
    rw [Search.visit_of_seen seen] at member
    exact (searching.covered other member target behind).visit stacked
  · intro other known
    rw [Search.visit_of_seen seen] at known
    rw [Search.rules_visit]
    apply searching.sound
    rcases known with before | later
    · exact Or.inl before
    · exact Or.inr (stacked ▸ List.mem_cons_of_mem _ later)

/-- Visiting a new state: a target that is not pushed has been visited. -/
theorem enter (searching : Searching start search) (stacked : search.stack = state :: rest)
    (fresh : search.visited.contains state = false) :
    Searching start (search.visit state rest) := by
  have reached : Reaches search.rules start state :=
    searching.sound state (Or.inr (stacked ▸ List.mem_cons_self))
  refine ⟨?_, ?_⟩
  · intro other member target behind
    rw [Search.rules_visit] at behind
    rw [Search.visit_of_fresh fresh] at member
    rcases Std.HashSet.mem_insert.mp member with same | before
    · rw [← eq_of_beq same, ← search.targets_eq] at behind
      rw [Search.visit_of_fresh fresh]
      cases seen : (search.visited.insert state).contains target with
      | true => exact Or.inl (Std.HashSet.contains_iff_mem.mp seen)
      | false =>
          refine Or.inr (List.mem_append_left _ (List.mem_reverse.mpr (List.mem_filter.mpr ?_)))
          exact ⟨behind, by simp only [seen, Bool.not_false]⟩
    · exact (searching.covered other before target behind).visit stacked
  · intro other known
    rw [Search.visit_of_fresh fresh] at known
    rw [Search.rules_visit]
    rcases known with member | later
    · rcases Std.HashSet.mem_insert.mp member with same | before
      · rw [← eq_of_beq same]
        exact reached
      · exact searching.sound other (Or.inl before)
    · rcases List.mem_append.mp later with pushed | later
      · have target := (List.mem_filter.mp (List.mem_reverse.mp pushed)).1
        rw [search.targets_eq] at target
        rcases (mem_getD_successors_iff search.rules state other).mp target with
          ⟨rule, member, moves, rfl, rfl⟩
        exact .step member moves reached
      · exact searching.sound other (Or.inr (stacked ▸ List.mem_cons_of_mem _ later))

theorem visit (searching : Searching start search) (stacked : search.stack = state :: rest) :
    Searching start (search.visit state rest) := by
  cases seen : search.visited.contains state with
  | true => exact searching.skip stacked seen
  | false => exact searching.enter stacked seen

/-- The search ends with an empty stack and has lost nothing on the way. -/
theorem exists_last (searching : Searching start search) :
    Exists fun last : Search => Searching start last ∧ last.rules = search.rules ∧
      last.stack = [] ∧ last.visited = search.states ∧
      forall state, search.Knows state -> last.Knows state := by
  fun_induction Search.states search with
  | case1 search finished => exact ⟨search, searching, rfl, finished, rfl, fun _ knows => knows⟩
  | case2 search state rest stacked nearer inductionHypothesis =>
      rcases inductionHypothesis (searching.visit stacked) with
        ⟨last, lastSearching, rules, finished, visited, kept⟩
      exact ⟨last, lastSearching, rules.trans (search.rules_visit state rest), finished, visited,
        fun other knows => kept other (knows.visit stacked)⟩

end Searching

/-- The search finds exactly the reachable states. -/
theorem contains_reachable_iff (rules : List Rule) (start state : StateName) :
    (reachable rules start).contains state = true ↔ Reaches rules start state := by
  rcases (Searching.initial rules start).exists_last with
    ⟨last, searching, sameRules, finished, visited, kept⟩
  have known_iff : forall other, last.Knows other ↔ other ∈ reachable rules start := by
    intro other
    rw [Search.Knows, finished, visited]
    simp only [List.not_mem_nil, or_false]
    rfl
  have rulesSame : last.rules = rules := sameRules
  rw [Std.HashSet.contains_iff_mem, ← known_iff]
  constructor
  · intro knows
    rw [← rulesSame]
    exact searching.sound state knows
  · intro reached
    induction reached with
    | start => exact kept start (Or.inr (List.mem_singleton.mpr rfl))
    | @step rule member moves _ inductionHypothesis =>
        have behind : rule.next ∈ (successors last.rules).getD rule.state [] := by
          rw [rulesSame]
          exact (mem_getD_successors_iff rules rule.state rule.next).mpr
            ⟨rule, member, moves, rfl, rfl⟩
        refine searching.covered rule.state ?_ rule.next behind
        rw [visited]
        exact (known_iff rule.state).mp inductionHypothesis

/-! ## Runs of the smaller table -/

/-- Where a run can be once every rule that does not move lands on an end state. -/
def Visited (program : Program) (here : Configuration) : Prop :=
  program.isEnd here.state = true ∨ Reaches program.rules program.start here.state

/-- At a visited configuration the smaller table does what the whole table does. -/
theorem successor?_eliminate {program : Program} {here : Configuration}
    (visited : Visited program here) :
    (eliminate program).successor? here = program.successor? here := by
  rcases visited with final | reached
  · rw [Program.successor?_of_isEnd final]
    exact Program.successor?_of_isEnd final
  · have kept := (contains_reachable_iff program.rules program.start here.state).mpr reached
    have same : Rule.first? (eliminate program).rules (here.state, here.tape.focus) =
        Rule.first? program.rules (here.state, here.tape.focus) :=
      Rule.first?_filter_state (reachable program.rules program.start).contains kept _
    unfold Program.successor?
    rw [same]
    rfl

/-- A run stays among the visited configurations. -/
theorem Visited.successor? {program : Program}
    (closed : forall rule, rule ∈ program.rules -> Chain.isOpen program.ends rule = false)
    {here there : Configuration} (visited : Visited program here)
    (next : program.successor? here = some there) : Visited program there := by
  rcases Program.successor?_eq_some_iff.mp next with ⟨going, rule, found, rfl⟩
  have member := Rule.mem_of_first? found
  have stateSame : rule.state = here.state :=
    congrArg Prod.fst (Rule.address_of_first? found)
  have reached : Reaches program.rules program.start rule.state := by
    rw [stateSame]
    exact visited.resolve_left (by rw [going]; exact Bool.false_ne_true)
  cases moves : rule.move.moves with
  | true => exact Or.inr (.step member moves reached)
  | false =>
      have stay := (Direction.moves_eq_false_iff rule.move).mp moves
      have shut := closed rule member
      simp only [Chain.isOpen, stay, beq_self_eq_true, Bool.true_and,
        Bool.not_eq_false'] at shut
      exact Or.inl shut

/-- Dropping the unreachable rules of a table without open rules changes no step
of any run. -/
theorem coarsens_eliminate {program : Program}
    (closed : forall rule, rule ∈ program.rules -> Chain.isOpen program.ends rule = false) :
    Program.Coarsens (eliminate program) program (Visited program) where
  start_eq := rfl
  ends_eq := rfl
  initially _ := Or.inr .start
  kept visited next := visited.successor? closed (by rw [← successor?_eliminate visited, next])
  followed visited next :=
    ⟨0, Program.after?_one (by rw [← successor?_eliminate visited, next])⟩
  stops visited stops := by rw [← successor?_eliminate visited, stops]

end Reachability

end BinaryTape
