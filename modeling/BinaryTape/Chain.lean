import Std.Data.HashSet
import BinaryTape.Error
import BinaryTape.RuleIndex

namespace BinaryTape

/-!
# Chains of non-moving rules

Program text and module calls produce many rules that neither move the head nor
end the run; all they do is lead to the rule for their own target.  A rule of
this kind is *open*.  Collapsing replaces the effect of every open rule by the
effect of the first rule along its chain that moves or lands on an end state.

The table is rewritten in place, from the first rule to the last, and later
chains run through rules that have been rewritten already.  Only effects change,
never addresses, so the index of the given table stays right throughout.  When a
chain fails, the rules before it keep their new effects.
-/

namespace Chain

/-- A rule that neither moves nor lands on an end state. -/
def isOpen (ends : List StateName) (rule : Rule) : Bool :=
  rule.move == .stay && !ends.contains rule.next

/-- Take over the effect of another rule and keep the address. -/
def takeOver (rule other : Rule) : Rule :=
  { rule with next := other.next, write := other.write, move := other.move }

/-! ## Positions that a chain has not visited -/

/-- The number of positions below `size` outside a set. -/
def unvisited (size : Nat) (visited : Std.HashSet Nat) : Nat :=
  (List.range size).countP (fun position => !visited.contains position)

private theorem countP_lt_countP {stronger weaker : Nat -> Bool} {values : List Nat}
    {value : Nat} (implies : forall x, stronger x = true -> weaker x = true)
    (member : value ∈ values) (holds : weaker value = true)
    (fails : stronger value = false) :
    values.countP stronger < values.countP weaker := by
  induction values with
  | nil => cases member
  | cons head tail inductionHypothesis =>
      rcases List.mem_cons.mp member with same | inTail
      · subst same
        simp only [List.countP_cons, holds, fails, if_true]
        have atMost := List.countP_mono_left
          (fun x (_ : x ∈ tail) => implies x)
        simp only [Bool.false_eq_true, if_false]
        omega
      · have smaller := inductionHypothesis inTail
        simp only [List.countP_cons]
        have headwise := implies head
        by_cases strong : stronger head = true
        · simp only [strong, headwise strong, if_true]
          omega
        · simp only [strong]
          by_cases weak : weaker head = true <;> simp [weak] <;> omega

/-- Visiting a new position leaves fewer unvisited ones. -/
theorem unvisited_insert_lt {size position : Nat} {visited : Std.HashSet Nat}
    (bounded : position < size) (fresh : visited.contains position = false) :
    unvisited size (visited.insert position) < unvisited size visited := by
  refine countP_lt_countP ?_ (List.mem_range.mpr bounded) ?_ ?_
  · intro x outside
    simp only [Std.HashSet.contains_insert, Bool.not_or, Bool.and_eq_true] at outside
    exact outside.2
  · simp [fresh]
  · simp

/-! ## Collapsing -/

/--
Follow the chain of a rule to its end.  A chain that comes back to a rule it has
passed loops; a chain that finds no rule for its target dangles.
-/
def follow (ends : List StateName) (index : RuleIndex) (rules : Array Rule)
    (rule : Rule) (visited : Std.HashSet Nat) : Except Error Rule :=
  if isOpen ends rule then
    match index.position? rule.target with
    | none => .error (.danglingChain rule.next rule.write)
    | some position =>
        if unseen : position < rules.size ∧ visited.contains position = false then
          have bounded := unseen.1
          follow ends index rules (takeOver rule rules[position])
            (visited.insert position)
        else .error (.cyclicChain rule.next rule.write)
  else .ok rule
termination_by unvisited rules.size visited
decreasing_by exact unvisited_insert_lt unseen.1 unseen.2

/--
Collapse the chains of all rules from a position on.  The result is the table as
far as it was rewritten, with the number of collapsed rules or the first error.
-/
def collapseFrom (ends : List StateName) (index : RuleIndex) (position : Nat)
    (rules : Array Rule) (collapsed : Nat) : Array Rule × Except Error Nat :=
  if bounded : position < rules.size then
    let rule := rules[position]
    if isOpen ends rule then
      match follow ends index rules rule ∅ with
      | .error error => (rules, .error error)
      | .ok collapsedRule =>
          collapseFrom ends index (position + 1)
            (rules.set position collapsedRule) (collapsed + 1)
    else collapseFrom ends index (position + 1) rules collapsed
  else (rules, .ok collapsed)
termination_by rules.size - position

/-- Collapse every chain of a table. -/
def collapse (ends : List StateName) (rules : List Rule) :
    List Rule × Except Error Nat :=
  let result := collapseFrom ends (RuleIndex.ofRules rules) 0 rules.toArray 0
  (result.1.toList, result.2)

end Chain

end BinaryTape
