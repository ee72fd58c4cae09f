import BinaryTape.Proofs.Collapsing

namespace BinaryTape

/-!
# Lookups agree

A program goes through its rules from the first to the last, a machine asks the index
that was made with it, and the chain pass asks the index of the table that it was given.
All three select the rule in the first place for an address.  Further rules for the
address may stand behind it, and none of the lookups ever sees them.

The pass rewrites the rules under its index.  What it puts in the place of a rule is the
end of that rule's chain, which has kept the address.  Places are found by addresses
alone, so the index is that of every table on the way.
-/

namespace Rule

/-- The first place of a table that holds a rule for the address, or nothing if none
does. -/
inductive FirstPlace (rules : List Rule) (address : StateName × Symbol) :
    Option Nat -> Prop where
  | found {place : Nat} {rule : Rule} (here : rules[place]? = some rule)
      (addressed : rule.address = address)
      (before : forall earlier other, earlier < place -> rules[earlier]? = some other ->
        other.address ≠ address) : FirstPlace rules address (some place)
  | absent (nowhere : forall rule, rule ∈ rules -> rule.address ≠ address) :
      FirstPlace rules address none

end Rule

namespace RuleIndex

open Rule (FirstPlace)

/-- What the index of a table says about an address, without the index. -/
theorem firstPlace_position? (rules : List Rule) (address : StateName × Symbol) :
    FirstPlace rules address ((ofRules rules).position? address) := by
  rw [position?_ofRules]
  cases searched : rules.findIdx? (fun rule => rule.address == address) with
  | none =>
      refine .absent (fun rule member same => ?_)
      have differs := List.findIdx?_eq_none_iff.mp searched rule member
      rw [same, beq_self_eq_true] at differs
      cases differs
  | some place =>
      rcases List.findIdx?_eq_some_iff_getElem.mp searched with ⟨bounded, same, differ⟩
      refine .found (List.getElem?_eq_getElem bounded) (eq_of_beq same) ?_
      intro earlier other less held equal
      have inside : earlier < rules.length := Nat.lt_trans less bounded
      rw [List.getElem?_eq_getElem inside] at held
      apply differ earlier less
      rw [Option.some.inj held, equal]
      exact beq_self_eq_true address

/-- The index of a table depends on nothing but the addresses of its rules. -/
theorem position?_of_addresses {rules others : List Rule}
    (same : rules.map Rule.address = others.map Rule.address) (address : StateName × Symbol) :
    (ofRules rules).position? address = (ofRules others).position? address := by
  have byAddress : forall table : List Rule, (ofRules table).position? address =
      (table.map Rule.address).findIdx? (fun other => other == address) := by
    intro table
    rw [position?_ofRules, List.findIdx?_map]
    rfl
  rw [byAddress, byAddress, same]

end RuleIndex

namespace Chain

variable {ends : List StateName} {given : List Rule} {position : Nat} {table : Array Rule}

/-- Whatever the pass has done so far, every address stands where it stood. -/
theorem CollapsedTo.map_address (state : CollapsedTo ends given position table) :
    table.toList.map Rule.address = given.map Rule.address := by
  apply List.ext_getElem?
  intro place
  rw [List.getElem?_map, List.getElem?_map, Array.getElem?_toList]
  by_cases passed : place < position
  · by_cases inside : place < given.length
    · rcases state.before place inside passed with ⟨_, last, held, leads⟩
      rw [held, List.getElem?_eq_getElem inside]
      exact congrArg some leads.address_eq
    · have outside : table.size ≤ place := state.size_eq ▸ Nat.le_of_not_lt inside
      rw [Array.getElem?_eq_none outside, List.getElem?_eq_none (Nat.le_of_not_lt inside)]
  · rw [state.behind place (Nat.le_of_not_lt passed)]

/-! ## Tables on the way -/

/-- The pass over a given table has come to a position, and by then the table is this
one.  Each rule is passed by putting the end of its chain in its place, if it is open, and
by leaving it alone otherwise. -/
inductive Underway (ends : List StateName) (given : List Rule) : Nat -> Array Rule -> Prop where
  | begun : Underway ends given 0 given.toArray
  | replaced {position : Nat} {table : Array Rule} {last : Rule}
      (underway : Underway ends given position table) (bounded : position < table.size)
      (opened : isOpen ends table[position] = true)
      (followed : follow ends (RuleIndex.ofRules given) table table[position] ∅ = .ok last) :
      Underway ends given (position + 1) (table.set position last)
  | left {position : Nat} {table : Array Rule}
      (underway : Underway ends given position table) (bounded : position < table.size)
      (shut : isOpen ends table[position] = false) : Underway ends given (position + 1) table

namespace Underway

theorem collapsedTo (underway : Underway ends given position table) :
    CollapsedTo ends given position table := by
  induction underway with
  | begun => exact .initial ends given
  | replaced _ bounded _ followed inductionHypothesis =>
      rcases inductionHypothesis.leads_of_follow followed with ⟨length, leads⟩
      exact inductionHypothesis.next bounded leads
  | @left position table _ bounded shut inductionHypothesis =>
      have stays : Leads ends given table[position] 0 table[position] := .closed shut
      have advanced := inductionHypothesis.next bounded stays
      rwa [Array.set_getElem_self] at advanced

/-- Going on from a table on the way comes to the result of the whole pass. -/
theorem exists_collapseFrom_eq (underway : Underway ends given position table) :
    Exists fun count : Nat =>
      collapseFrom ends (RuleIndex.ofRules given) position table count =
        collapseFrom ends (RuleIndex.ofRules given) 0 given.toArray 0 := by
  induction underway with
  | begun => exact ⟨0, rfl⟩
  | replaced _ bounded opened followed inductionHypothesis =>
      rcases inductionHypothesis with ⟨count, same⟩
      refine ⟨count + 1, ?_⟩
      rw [← same]
      conv => rhs; rw [collapseFrom]
      simp only [bounded, opened, followed, dite_true, if_true]
  | left _ bounded shut inductionHypothesis =>
      rcases inductionHypothesis with ⟨count, same⟩
      refine ⟨count, ?_⟩
      rw [← same]
      conv => rhs; rw [collapseFrom]
      simp only [bounded, shut, dite_true, Bool.false_eq_true, if_false]

/-- The table that the pass leaves behind, also where it fails, is one of them. -/
theorem exists_of_collapseFrom (underway : Underway ends given position table) (count : Nat) :
    Exists fun final : Nat => Underway ends given final
      (collapseFrom ends (RuleIndex.ofRules given) position table count).1 := by
  fun_induction collapseFrom ends (RuleIndex.ofRules given) position table count with
  | case1 position table count bounded rule opened error failed => exact ⟨position, underway⟩
  | case2 position table count bounded rule opened last followed inductionHypothesis =>
      exact inductionHypothesis (underway.replaced bounded opened followed)
  | case3 position table count bounded rule shut inductionHypothesis =>
      exact inductionHypothesis (underway.left bounded (by simpa using shut))
  | case4 position table count outside => exact ⟨position, underway⟩

/-- The index of the given table is the index of every table on the way. -/
theorem position?_eq (underway : Underway ends given position table)
    (address : StateName × Symbol) :
    (RuleIndex.ofRules table.toList).position? address =
      (RuleIndex.ofRules given).position? address :=
  RuleIndex.position?_of_addresses underway.collapsedTo.map_address address

/-- Looking up a rule of a table on the way through the index of the given table. -/
theorem first?_eq (underway : Underway ends given position table)
    (address : StateName × Symbol) :
    Rule.first? table.toList address =
      ((RuleIndex.ofRules given).position? address).bind (fun place => table[place]?) := by
  rw [← RuleIndex.bind_position?_ofRules, underway.position?_eq]
  simp only [Array.getElem?_toList]

end Underway

end Chain

open Chain (Underway)

/--
All lookups select the same rule.  For a state and a symbol there is one place, or none,
which the index of a machine and the index of the chain pass hold: the first place of
the table with a rule for them.  The rule there is what going through the program finds
and what every machine for the program applies in that state under that symbol.  The
chain pass goes through a number of tables, from the one it is given to the one it leaves;
in all of them the first place is still the same, and the index of the given table
still finds the first rule.
-/
theorem rule_lookups_agree (program : Program) (state : StateName) (symbol : Symbol) :
    Exists fun selected : Option Nat =>
      Rule.FirstPlace program.rules (state, symbol) selected ∧
      (Machine.ofProgram program).index.position? (state, symbol) = selected ∧
      (RuleIndex.ofRules program.rules).position? (state, symbol) = selected ∧
      program.rule? state symbol = selected.bind (fun place => program.rules[place]?) ∧
      (forall machine : Machine, machine.program = program -> machine.state = state ->
        machine.symbol = symbol -> machine.transition? = program.rule? state symbol) ∧
      forall ends : List StateName,
        (Exists fun position : Nat => Underway ends program.rules position
          (Chain.collapse ends program.rules).1.toArray) ∧
        forall (position : Nat) (table : Array Rule),
          Underway ends program.rules position table ->
            (Exists fun count : Nat =>
              Chain.collapseFrom ends (RuleIndex.ofRules program.rules) position table count =
                Chain.collapseFrom ends (RuleIndex.ofRules program.rules) 0
                  program.rules.toArray 0) ∧
            Rule.FirstPlace table.toList (state, symbol) selected ∧
            Program.rule? { program with rules := table.toList } state symbol =
              selected.bind (fun place => table[place]?) := by
  refine ⟨(RuleIndex.ofRules program.rules).position? (state, symbol),
    RuleIndex.firstPlace_position? program.rules (state, symbol), rfl, rfl, ?_, ?_, ?_⟩
  · rw [Program.rule?_eq_first?, RuleIndex.bind_position?_ofRules]
  · rintro machine rfl rfl rfl
    rw [machine.transition?_eq_first?, Program.rule?_eq_first?]
  · intro ends
    constructor
    · exact Underway.begun.exists_of_collapseFrom 0
    · intro position table underway
      refine ⟨underway.exists_collapseFrom_eq, ?_, underway.first?_eq (state, symbol)⟩
      have placed := RuleIndex.firstPlace_position? table.toList (state, symbol)
      rwa [underway.position?_eq] at placed

/-- A rule that leads to an address for which there are two rules. -/
def repeatedAddress : Program where
  start := "A"
  ends := ["E"]
  rules :=
    [⟨"A", .zero, "b", .one, .stay⟩, ⟨"b", .one, "E", .zero, .right⟩,
     ⟨"b", .one, "A", .one, .left⟩]

/-- The machine that has applied the first rule stands at the address, and the pass that has
collapsed the first rule has used one of the two.  Both mean the rule in the second place. -/
theorem rule_lookups_agree_on_repeated_address :
    (Machine.ofProgram repeatedAddress).index.position? ("b", .one) = some 1 ∧
      ((Machine.ofProgram repeatedAddress).apply
        ⟨"A", .zero, "b", .one, .stay⟩).transition? = some ⟨"b", .one, "E", .zero, .right⟩ ∧
      Program.rule? { repeatedAddress with
          rules := ⟨"A", .zero, "E", .zero, .right⟩ :: repeatedAddress.rules.tail }
        "b" .one = some ⟨"b", .one, "E", .zero, .right⟩ := by
  have followed : Chain.follow ["E"] (RuleIndex.ofRules repeatedAddress.rules)
      repeatedAddress.rules.toArray ⟨"A", .zero, "b", .one, .stay⟩ ∅ =
        .ok ⟨"A", .zero, "E", .zero, .right⟩ := by
    simp [repeatedAddress, Chain.follow, RuleIndex.position?_ofRules, List.findIdx?_cons,
      Chain.isOpen, Rule.target, Rule.address, Chain.takeOver]
  have second : (Machine.ofProgram repeatedAddress).index.position? ("b", .one) = some 1 := by
    rw [Machine.ofProgram, RuleIndex.position?_ofRules]
    rfl
  rcases rule_lookups_agree repeatedAddress "b" .one with
    ⟨selected, _, indexed, _, searched, machines, passes⟩
  have place : selected = some 1 := indexed.symm.trans second
  subst place
  have stands := machines ((Machine.ofProgram repeatedAddress).apply
    ⟨"A", .zero, "b", .one, .stay⟩) rfl rfl rfl
  have collapsed := (passes ["E"]).2 _ _
    (Underway.begun.replaced (by decide) (by decide) followed)
  exact ⟨second, stands.trans searched, collapsed.2.2⟩

end BinaryTape
