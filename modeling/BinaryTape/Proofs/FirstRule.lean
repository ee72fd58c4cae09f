import BinaryTape.Machine

namespace BinaryTape

/-!
# The first rule for an address

Three places look rules up: a program by going through its table, a machine
through the index of its program, and the chain pass through the index of the
table it started from.  All of them mean the first rule for an address.  This
layer says so once and then follows the first rule through the operations that
tables are built with: appending, dropping rules by their state, and the pairs of
rules that serve both symbols.
-/

namespace Rule

/-- The first rule of a table for an address. -/
def first? (rules : List Rule) (address : StateName × Symbol) : Option Rule :=
  rules.find? (fun rule => rule.address == address)

theorem address_of_first? {rules : List Rule} {address : StateName × Symbol}
    {rule : Rule} (found : first? rules address = some rule) :
    rule.address = address := by
  have matching := List.find?_some found
  exact eq_of_beq matching

theorem mem_of_first? {rules : List Rule} {address : StateName × Symbol}
    {rule : Rule} (found : first? rules address = some rule) : rule ∈ rules :=
  List.mem_of_find?_eq_some found

theorem first?_append (before behind : List Rule) (address : StateName × Symbol) :
    first? (before ++ behind) address =
      (first? before address).or (first? behind address) := by
  unfold first?
  exact List.find?_append

/-- Only the states of the rules matter for having no rule at a state. -/
theorem first?_eq_none_of_state {rules : List Rule} {state : StateName}
    (absent : forall rule, rule ∈ rules -> rule.state ≠ state) (symbol : Symbol) :
    first? rules (state, symbol) = none := by
  apply List.find?_eq_none.mpr
  intro rule member equal
  have addressEqual : rule.address = (state, symbol) := eq_of_beq equal
  exact absent rule member (congrArg Prod.fst addressEqual)

/-- Dropping rules by their state leaves the first rules of every kept state. -/
theorem first?_filter_state {rules : List Rule} (keep : StateName -> Bool)
    {state : StateName} (kept : keep state = true) (symbol : Symbol) :
    first? (rules.filter (fun rule => keep rule.state)) (state, symbol) =
      first? rules (state, symbol) := by
  induction rules with
  | nil => rfl
  | cons rule rules inductionHypothesis =>
      unfold first? at inductionHypothesis ⊢
      by_cases same : rule.address = (state, symbol)
      · have stateSame : rule.state = state := congrArg Prod.fst same
        simp [stateSame, kept, same]
      · cases keeps : keep rule.state <;>
          simp [keeps, same, inductionHypothesis]

/-! ## Pairs of rules that serve both symbols -/

/-- A pair of rules with one effect for each symbol has exactly that effect. -/
theorem first?_pair (origin : StateName) (effect : Symbol -> Rule)
    (addressed : forall symbol, (effect symbol).address = (origin, symbol))
    (symbol : Symbol) :
    first? (Symbol.all.map effect) (origin, symbol) = some (effect symbol) := by
  cases symbol <;> simp [first?, Symbol.all, addressed]

theorem first?_handOver (origin destination : StateName) (symbol : Symbol) :
    first? (handOver origin destination) (origin, symbol) =
      some ⟨origin, symbol, destination, symbol, .stay⟩ :=
  first?_pair origin _ (fun _ => rfl) symbol

theorem first?_moving (origin destination : StateName) (move : Direction)
    (symbol : Symbol) :
    first? (moving origin destination move) (origin, symbol) =
      some ⟨origin, symbol, destination, symbol, move⟩ :=
  first?_pair origin _ (fun _ => rfl) symbol

theorem first?_writing (origin destination : StateName) (write symbol : Symbol) :
    first? (writing origin destination write) (origin, symbol) =
      some ⟨origin, symbol, destination, write, .stay⟩ :=
  first?_pair origin _ (fun _ => rfl) symbol

end Rule

theorem Program.rule?_eq_first? (program : Program) (state : StateName)
    (symbol : Symbol) :
    program.rule? state symbol = Rule.first? program.rules (state, symbol) := rfl

/-! ## The index -/

namespace RuleIndex

/-- Entering rules one after the other keeps every position that is known and
adds, for the other addresses, the first new one. -/
private theorem position?_foldl_enter (rules : List Rule) (offset : Nat)
    (index : RuleIndex) (address : StateName × Symbol) :
    ((rules.zipIdx offset).foldl enter index).position? address =
      (index.position? address).or
        ((rules.findIdx? (fun rule => rule.address == address)).map (· + offset)) := by
  induction rules generalizing offset index with
  | nil => simp
  | cons rule rules inductionHypothesis =>
      rw [List.zipIdx_cons, List.foldl_cons, inductionHypothesis, List.findIdx?_cons]
      simp only [position?, enter, Std.HashMap.getElem?_insertIfNew]
      by_cases same : rule.address = address
      · subst same
        by_cases known : rule.address ∈ index.positions <;> simp [known]
      · have different : (rule.address == address) = false := by
          simpa using same
        simp only [different, Bool.false_eq_true, false_and, if_false]
        congr 1
        cases rules.findIdx? (fun rule => rule.address == address) with
        | none => rfl
        | some position => simp only [Option.map_some, Option.some.injEq]; omega

/-- The index of a table holds the position of the first rule for each address. -/
theorem position?_ofRules (rules : List Rule) (address : StateName × Symbol) :
    (ofRules rules).position? address =
      rules.findIdx? (fun rule => rule.address == address) := by
  have entered := position?_foldl_enter rules 0 empty address
  have nothing : empty.position? address = none := by
    simp [empty, position?]
  rw [nothing] at entered
  simpa [ofRules] using entered

/-- Looking a rule up through the index finds the first rule for the address. -/
theorem bind_position?_ofRules (rules : List Rule) (address : StateName × Symbol) :
    ((ofRules rules).position? address).bind (fun position => rules[position]?) =
      Rule.first? rules address := by
  rw [position?_ofRules]
  exact List.find?_eq_bind_findIdx?_getElem?.symm

end RuleIndex

/-- A machine applies the first rule of its program's table. -/
theorem Machine.transition?_eq_first? (machine : Machine) :
    machine.transition? =
      Rule.first? machine.program.rules (machine.state, machine.symbol) := by
  unfold Machine.transition?
  rw [machine.index_eq]
  exact RuleIndex.bind_position?_ofRules _ _

end BinaryTape
