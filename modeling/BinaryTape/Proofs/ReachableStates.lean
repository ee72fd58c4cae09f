import Mathlib.Order.Bounds.Basic
import BinaryTape.Proofs.NormalForm

namespace BinaryTape
namespace Reachability

/-!
# The states that the search finds

The search takes one state from its stack in every round.  A state may stand there many
times, and all but one of these rounds only throw it away; but its targets are pushed
once, when it is visited, so all that is ever pushed is the start state and at most one
target for each moving rule.  This bounds the rounds by the number of moving rules,
whatever loops the table has.

What the search finds is the least set of states that holds the start state and is
closed under moving rules.  Such a set has no order: it is the same for every
arrangement of the rules, and so are the rules that are kept.  Dropping the others
takes nothing away from it, because the rules that justify a state start at states of
the set themselves.
-/

/-! ## Rounds -/

namespace Search

/-- One round; with an empty stack there is none left to do. -/
def round (search : Search) : Search :=
  match search.stack with
  | [] => search
  | state :: rest => search.visit state rest

def afterRounds (search : Search) : Nat -> Search
  | 0 => search
  | rounds + 1 => search.round.afterRounds rounds

variable {search : Search}

theorem round_of_nil (finished : search.stack = []) : search.round = search := by
  rw [round, finished]

theorem round_of_cons {state : StateName} {rest : List StateName}
    (stacked : search.stack = state :: rest) : search.round = search.visit state rest := by
  rw [round, stacked]

/-- A search with an empty stack has found what it has visited. -/
theorem states_of_nil (finished : search.stack = []) : search.states = search.visited := by
  fun_cases Search.states search with
  | case1 => rfl
  | case2 state rest stacked =>
      rw [finished] at stacked
      cases stacked

/-- A round does not change what will be found. -/
theorem states_round (search : Search) : search.round.states = search.states := by
  fun_cases Search.states search with
  | case1 finished => rw [round_of_nil finished, states_of_nil finished]
  | case2 state rest stacked => rw [round_of_cons stacked]

theorem states_afterRounds (search : Search) (rounds : Nat) :
    (search.afterRounds rounds).states = search.states := by
  induction rounds generalizing search with
  | zero => rfl
  | succ rounds inductionHypothesis =>
      rw [afterRounds, inductionHypothesis, states_round]

/-- A round that finds a state on the stack brings the end nearer. -/
theorem ahead_round (unfinished : search.stack ≠ []) : search.round.ahead < search.ahead := by
  cases stacked : search.stack with
  | nil => exact absurd stacked unfinished
  | cons state rest =>
      rw [round_of_cons stacked]
      exact ahead_visit stacked

theorem afterRounds_of_nil (finished : search.stack = []) (rounds : Nat) :
    search.afterRounds rounds = search := by
  induction rounds with
  | zero => rfl
  | succ rounds inductionHypothesis =>
      rw [afterRounds, round_of_nil finished, inductionHypothesis]

/-- The stack is empty after as many rounds as are ahead. -/
theorem stack_afterRounds {rounds : Nat} (enough : search.ahead ≤ rounds) :
    (search.afterRounds rounds).stack = [] := by
  induction rounds generalizing search with
  | zero =>
      have nothing : search.stack.length = 0 := by
        unfold ahead at enough
        omega
      exact List.length_eq_zero_iff.mp nothing
  | succ rounds inductionHypothesis =>
      by_cases finished : search.stack = []
      · rw [afterRounds_of_nil finished]
        exact finished
      · have nearer := ahead_round finished
        exact inductionHypothesis (by omega)

end Search

/-- The first state and one round for each moving rule: so many rounds are enough. -/
theorem ahead_initial (rules : List Rule) (start : StateName) :
    (Search.initial rules start).ahead = rules.countP (fun rule => rule.move.moves) + 1 := by
  simp [Search.ahead, Search.initial, Search.owed, Nat.add_comm]

/-! ## The least closed set -/

/-- A set of states with the start state that is closed under moving rules. -/
def ClosedFrom (rules : List Rule) (start : StateName) (states : Set StateName) : Prop :=
  start ∈ states ∧ forall rule, rule ∈ rules -> rule.move = .left ∨ rule.move = .right ->
    rule.state ∈ states -> rule.next ∈ states

theorem mem_reachable_iff {rules : List Rule} {start state : StateName} :
    state ∈ reachable rules start ↔ Reaches rules start state := by
  rw [← contains_reachable_iff, Std.HashSet.contains_iff_mem]

/-- What is reached lies in every closed set. -/
theorem Reaches.mem_of_closedFrom {rules : List Rule} {start state : StateName}
    {states : Set StateName} (reached : Reaches rules start state)
    (closed : ClosedFrom rules start states) : state ∈ states := by
  induction reached with
  | start => exact closed.1
  | step member moves _ inductionHypothesis =>
      exact closed.2 _ member ((Direction.moves_eq_true_iff _).mp moves) inductionHypothesis

/--
The search computes reachability exactly.  After one round more than there are moving
rules its stack is empty and what it has visited is its result; and the result is the
least set of states that holds the start state and, with the state of a rule that moves
left or right, the state behind the rule.
-/
theorem search_finds_least_closed_set (rules : List Rule) (start : StateName) :
    ((Search.initial rules start).afterRounds
      (rules.countP (fun rule => rule.move.moves) + 1)).stack = [] ∧
    ((Search.initial rules start).afterRounds
      (rules.countP (fun rule => rule.move.moves) + 1)).visited = reachable rules start ∧
    IsLeast { states : Set StateName | ClosedFrom rules start states }
      { state | state ∈ reachable rules start } := by
  have finished := Search.stack_afterRounds (Nat.le_of_eq (ahead_initial rules start))
  refine ⟨finished, ?_, ⟨mem_reachable_iff.mpr .start, ?_⟩, ?_⟩
  · rw [← Search.states_of_nil finished, Search.states_afterRounds]
    rfl
  · intro rule member moves reached
    exact mem_reachable_iff.mpr
      (.step member ((Direction.moves_eq_true_iff _).mpr moves) (mem_reachable_iff.mp reached))
  · intro states closed state found
    exact (mem_reachable_iff.mp found).mem_of_closedFrom closed

/-! ## Arrangements of the rules -/

variable {program : Program}

/-- Only the rules matter for what is reached, not their order. -/
theorem reaches_iff_of_perm {rules permuted : List Rule} (same : permuted.Perm rules)
    {start state : StateName} : Reaches permuted start state ↔ Reaches rules start state := by
  have carried : forall {given other : List Rule}, given.Perm other ->
      Reaches given start state -> Reaches other start state := by
    intro given other arranged reached
    induction reached with
    | start => exact .start
    | step member moves _ inductionHypothesis =>
        exact .step (arranged.mem_iff.mp member) moves inductionHypothesis
  exact ⟨carried same, carried same.symm⟩

/-- Of an arrangement of the rules, an arrangement of the same rules is kept. -/
theorem perm_eliminate {permuted : List Rule} (same : permuted.Perm program.rules) :
    (eliminate { program with rules := permuted }).rules.Perm (eliminate program).rules := by
  have states : (fun rule : Rule => (reachable permuted program.start).contains rule.state) =
      fun rule => (reachable program.rules program.start).contains rule.state := by
    funext rule
    rw [Bool.eq_iff_iff, contains_reachable_iff, contains_reachable_iff]
    exact reaches_iff_of_perm same
  simp only [eliminate, states]
  exact same.filter _

theorem length_eliminate_add_removedCount (program : Program) :
    (eliminate program).rules.length + removedCount program = program.rules.length := by
  have shorter : (eliminate program).rules.length ≤ program.rules.length :=
    List.length_filter_le _ _
  rw [removedCount]
  omega

/--
Elimination is idempotent and does not depend on the order of the rules.  It leaves the
same states reachable, so a second pass drops nothing.  The rules that are kept, which
are those of reachable states, stand in their order, and with those that are counted as
removed they are all.  For every arrangement of the rules an arrangement of the same
rules is kept and as many are removed.
-/
theorem elimination_idempotent_in_any_order (program : Program) :
    (forall state, state ∈ reachable (eliminate program).rules (eliminate program).start ↔
      state ∈ reachable program.rules program.start) ∧
    removedCount (eliminate program) = 0 ∧ eliminate (eliminate program) = eliminate program ∧
    (eliminate program).rules.Sublist program.rules ∧
    (forall rule, rule ∈ program.rules -> (rule ∈ (eliminate program).rules ↔
      rule.state ∈ reachable program.rules program.start)) ∧
    (eliminate program).rules.length + removedCount program = program.rules.length ∧
    forall permuted : List Rule, permuted.Perm program.rules ->
      (eliminate { program with rules := permuted }).rules.Perm (eliminate program).rules ∧
        removedCount { program with rules := permuted } = removedCount program := by
  have again : eliminate (eliminate program) = eliminate program :=
    eliminate_of_reached (fun rule member =>
      ((contains_reachable_iff _ _ _).mp (List.mem_filter.mp member).2).kept)
  refine ⟨fun state => ?_, ?_, again, List.filter_sublist, ?_,
    length_eliminate_add_removedCount program, fun permuted same => ⟨perm_eliminate same, ?_⟩⟩
  · rw [mem_reachable_iff, mem_reachable_iff]
    exact reaches_eliminate_iff
  · rw [removedCount, again, Nat.sub_self]
  · intro rule member
    exact ⟨fun kept => Std.HashSet.contains_iff_mem.mp (List.mem_filter.mp kept).2,
      fun found => List.mem_filter.mpr ⟨member, Std.HashSet.contains_iff_mem.mpr found⟩⟩
  · rw [removedCount, removedCount, (perm_eliminate same).length_eq, same.length_eq]

/-- A table with a loop, a rule twice, and two states that only reach each other and
the loop. -/
def loopTable : Program :=
  ⟨"A", ["E"],
    [⟨"A", .zero, "b", .zero, .right⟩, ⟨"A", .zero, "b", .zero, .right⟩,
     ⟨"b", .zero, "A", .one, .left⟩, ⟨"b", .one, "E", .one, .stay⟩,
     ⟨"d", .zero, "b", .zero, .right⟩, ⟨"d", .one, "e", .one, .right⟩,
     ⟨"e", .zero, "d", .zero, .left⟩]⟩

/-- From the last rule to the first, the rule from `d` to `b` is dropped as well. -/
theorem elimination_idempotent_in_any_order_of_loop :
    loopTable.rules.reverse.Perm loopTable.rules ∧
      (eliminate { loopTable with rules := loopTable.rules.reverse }).rules.Perm
        (eliminate loopTable).rules ∧
      Not (⟨"d", .zero, "b", .zero, .right⟩ ∈
        (eliminate { loopTable with rules := loopTable.rules.reverse }).rules) ∧
      removedCount { loopTable with rules := loopTable.rules.reverse } =
        removedCount loopTable := by
  have closed : ClosedFrom loopTable.rules loopTable.start { "A", "b" } := by
    refine ⟨Or.inl rfl, ?_⟩
    simp only [Set.mem_insert_iff, Set.mem_singleton_iff]
    decide
  have unreached : Not ("d" ∈ reachable loopTable.rules loopTable.start) := by
    intro found
    have inside := (mem_reachable_iff.mp found).mem_of_closedFrom closed
    simp at inside
  rcases elimination_idempotent_in_any_order loopTable with ⟨_, _, _, _, kept_iff, _, arranged⟩
  rcases arranged loopTable.rules.reverse (List.reverse_perm _) with ⟨same, removed⟩
  refine ⟨List.reverse_perm _, same, fun member => ?_, removed⟩
  exact unreached ((kept_iff _ (by decide)).mp (same.mem_iff.mp member))

end Reachability
end BinaryTape
