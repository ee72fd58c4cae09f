import Std.Data.HashMap
import Std.Data.HashSet
import BinaryTape.Program

namespace BinaryTape

/-!
# Reachable states

Only moving rules are followed.  Once chains are collapsed, the non-moving rules
that are left land on end states, and those lead nowhere.

The search keeps a stack of states.  In every round the state that was pushed last
is taken from it.  If the state was visited before, nothing else happens; otherwise
it is visited now, and the states that moving rules lead to from there are pushed,
as far as they are not visited themselves.  A state may be pushed many times before
it is visited, but its own targets are pushed only then, so each moving rule pays for
one push and the search ends.
-/

namespace Reachability

/-! ## Where moving rules lead -/

/-- For each state, the states that moving rules lead to from there. -/
abbrev Successors := Std.HashMap StateName (List StateName)

/-- Enter the target of a rule behind the targets that its state has already. -/
def enterTarget (entered : Successors) (rule : Rule) : Successors :=
  entered.insert rule.state (entered.getD rule.state [] ++ [rule.next])

/-- Where the moving rules of a table lead from each of its states, in table order. -/
def successors (rules : List Rule) : Successors :=
  (rules.filter (fun rule => rule.move.moves)).foldl enterTarget ∅

theorem getD_foldl_enterTarget (rules : List Rule) (entered : Successors) (state : StateName) :
    (rules.foldl enterTarget entered).getD state [] =
      entered.getD state [] ++ (rules.filter (fun rule => rule.state == state)).map Rule.next := by
  induction rules generalizing entered with
  | nil => simp
  | cons rule rules inductionHypothesis =>
      rw [List.foldl_cons, inductionHypothesis, enterTarget, Std.HashMap.getD_insert]
      by_cases here : rule.state = state
      · subst here
        simp
      · simp [here]

/-- The targets entered for a state are those of the moving rules from there, in table
order. -/
theorem getD_successors (rules : List Rule) (state : StateName) :
    (successors rules).getD state [] =
      (rules.filter (fun rule => rule.move.moves && rule.state == state)).map Rule.next := by
  rw [successors, getD_foldl_enterTarget, Std.HashMap.getD_empty, List.nil_append,
    List.filter_filter]
  simp only [Bool.and_comm]

/-! ## The search -/

/-- The search between two rounds.  What was pushed last stands first on the stack. -/
structure Search where
  rules : List Rule
  targets : Successors
  stack : List StateName
  visited : Std.HashSet StateName
  targets_eq : targets = successors rules

namespace Search

/-- The search before its first round. -/
def initial (rules : List Rule) (start : StateName) : Search where
  rules := rules
  targets := successors rules
  stack := [start]
  visited := ∅
  targets_eq := rfl

/-- One round, with a state that was taken from the stack and what is left there: unless
the state was visited before, it is visited and its unvisited targets are pushed. -/
def visit (search : Search) (state : StateName) (rest : List StateName) : Search :=
  if search.visited.contains state then { search with stack := rest }
  else
    let visited := search.visited.insert state
    let next := (search.targets.getD state []).filter (fun target => !visited.contains target)
    { search with stack := next.reverse ++ rest, visited := visited }

section Visit

variable {search : Search} {state : StateName}

theorem visit_of_seen (seen : search.visited.contains state = true) (rest : List StateName) :
    search.visit state rest = { search with stack := rest } :=
  if_pos seen

theorem visit_of_fresh (fresh : search.visited.contains state = false)
    (rest : List StateName) :
    search.visit state rest = { search with
      stack := ((search.targets.getD state []).filter
        (fun target => !(search.visited.insert state).contains target)).reverse ++ rest
      visited := search.visited.insert state } :=
  if_neg (ne_true_of_eq_false fresh)

end Visit

/-- The number of moving rules that start at states which have not been visited.  Their
targets have not been pushed. -/
def owed (rules : List Rule) (visited : Std.HashSet StateName) : Nat :=
  rules.countP (fun rule => rule.move.moves && !visited.contains rule.state)

/-- Visiting a new state pays for the rules that start there and for no others. -/
theorem owed_insert (rules : List Rule) {visited : Std.HashSet StateName} {state : StateName}
    (fresh : visited.contains state = false) :
    owed rules (visited.insert state) + ((successors rules).getD state []).length =
      owed rules visited := by
  rw [getD_successors, List.length_map, ← List.countP_eq_length_filter]
  induction rules with
  | nil => rfl
  | cons rule rules inductionHypothesis =>
      simp only [owed, List.countP_cons] at inductionHypothesis ⊢
      have counted : (if (rule.move.moves && !(visited.insert state).contains rule.state) = true
            then 1 else 0) +
          (if (rule.move.moves && rule.state == state) = true then 1 else 0) =
            if (rule.move.moves && !visited.contains rule.state) = true then 1 else 0 := by
        by_cases here : rule.state = state
        · simp [here, fresh]
        · simp [here, Ne.symm here]
      omega

/-- The rounds that a search can still need: one for each state on the stack and one for
each target that may be pushed. -/
def ahead (search : Search) : Nat := search.stack.length + owed search.rules search.visited

/-- Every round brings the end nearer. -/
theorem ahead_visit {search : Search} {state : StateName} {rest : List StateName}
    (stacked : search.stack = state :: rest) :
    (search.visit state rest).ahead < search.ahead := by
  cases seen : search.visited.contains state with
  | true =>
      rw [visit_of_seen seen, ahead, ahead, stacked, List.length_cons]
      dsimp only
      omega
  | false =>
      have paid := owed_insert search.rules seen
      have pushed := List.length_filter_le
        (fun target => !(search.visited.insert state).contains target)
        (search.targets.getD state [])
      rw [← search.targets_eq] at paid
      rw [visit_of_fresh seen, ahead, ahead, stacked, List.length_cons, List.length_append,
        List.length_reverse]
      dsimp only
      omega

/-- Go on until nothing is left on the stack; the states that have been visited then. -/
def states (search : Search) : Std.HashSet StateName :=
  match stacked : search.stack with
  | [] => search.visited
  | state :: rest =>
      have := ahead_visit stacked
      (search.visit state rest).states
termination_by search.ahead

end Search

/-- The states reachable from a start state, which is always one of them. -/
def reachable (rules : List Rule) (start : StateName) : Std.HashSet StateName :=
  (Search.initial rules start).states

/-! ## Elimination -/

/-- Drop every rule that starts in an unreachable state. -/
def eliminate (program : Program) : Program :=
  let states := reachable program.rules program.start
  { program with
    rules := program.rules.filter (fun rule => states.contains rule.state) }

def removedCount (program : Program) : Nat :=
  program.rules.length - (eliminate program).rules.length

/-- Text order. -/
def inTextOrder (left right : StateName) : Bool := decide (left < right) || left == right

/-- The states of rules that are not reachable, each once and in text order. -/
def unreachable (program : Program) : List StateName :=
  let states := reachable program.rules program.start
  let missing := (program.rules.map Rule.state).filter
    (fun state => !states.contains state)
  (Std.HashSet.ofList missing).toList.mergeSort inTextOrder

/-- The reachable states in text order. -/
def reachableSorted (rules : List Rule) (start : StateName) : List StateName :=
  (reachable rules start).toList.mergeSort inTextOrder

end Reachability

end BinaryTape
