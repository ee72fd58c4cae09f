import Mathlib.Data.List.Forall2
import BinaryTape.Chain
import BinaryTape.Proofs.Coarsening

namespace BinaryTape

/-!
# Collapsing chains keeps every run

The chain of a rule is told here against the table as it was given: `Leads`
takes over the effect of the first rule for the target as long as the rule is
open.  The pass itself works in place, and its later chains run through rules
that carry the end of their own chain already.  Such a rule is closed, so a chain
that meets it is at its end, and the end is the one it would have come to by
following the given table.

A machine that applies the first rule of a chain takes one step for every rule of
the chain before it is where the collapsed rule brings it at once.  None of the
configurations in between is in an end state, because a chain stops there.
-/

namespace Chain

/-- In the table `rules`, the chain of a rule takes over so many effects and ends
with the last rule. -/
inductive Leads (ends : List StateName) (rules : List Rule) : Rule -> Nat -> Rule -> Prop where
  | closed {rule : Rule} (shut : isOpen ends rule = false) : Leads ends rules rule 0 rule
  | taken {rule other last : Rule} {length : Nat} (opened : isOpen ends rule = true)
      (found : Rule.first? rules rule.target = some other)
      (rest : Leads ends rules (takeOver rule other) length last) :
      Leads ends rules rule (length + 1) last

namespace Leads

variable {ends : List StateName} {rules : List Rule} {rule last : Rule} {length : Nat}

theorem last_closed (leads : Leads ends rules rule length last) :
    isOpen ends last = false := by
  induction leads with
  | closed shut => exact shut
  | taken _ _ _ inductionHypothesis => exact inductionHypothesis

theorem address_eq (leads : Leads ends rules rule length last) :
    last.address = rule.address := by
  induction leads with
  | closed => rfl
  | taken _ _ _ inductionHypothesis => exact inductionHypothesis

theorem eq_of_closed (leads : Leads ends rules rule length last)
    (shut : isOpen ends rule = false) : last = rule := by
  cases leads with
  | closed => rfl
  | taken opened =>
      rw [shut] at opened
      cases opened

/-- Only the effect of a rule decides on its chain, so a rule that has taken over
the first effect of a chain can take over the last one as well. -/
theorem takeOver (front : Rule) (leads : Leads ends rules rule length last) :
    Leads ends rules (Chain.takeOver front rule) length (Chain.takeOver front last) := by
  induction leads with
  | closed shut => exact .closed shut
  | taken opened found _ inductionHypothesis => exact .taken opened found inductionHypothesis

/-- The machine passes every rule of a chain, one step for each. -/
theorem after?_apply {program : Program}
    (leads : Leads program.ends program.rules rule length last) (here : Configuration) :
    program.after? length (here.apply rule) = some (here.apply last) := by
  induction leads with
  | closed => rfl
  | @taken rule other last length opened found _ inductionHypothesis =>
      rcases Bool.and_eq_true_iff.mp opened with ⟨stays, outside⟩
      have stay : rule.move = .stay := eq_of_beq stays
      have going : program.isEnd (here.apply rule).state = false := by
        simpa [Configuration.apply, Program.isEnd] using outside
      have written : here.apply rule = ⟨rule.next, here.tape.write rule.write⟩ := by
        simp only [Configuration.apply, stay, Tape.move]
      have next : program.successor? (here.apply rule) =
          some ((here.apply rule).apply other) := by
        apply Program.successor?_of_first? going
        rw [written]
        exact found
      have overwritten : (here.apply rule).apply other =
          here.apply (Chain.takeOver rule other) := by
        rw [written]
        rfl
      simp only [Program.after?, next, Option.bind_some, overwritten]
      exact inductionHypothesis

end Leads

/-! ## The pass in place -/

/--
The state of the pass before a position: the rules in front of it hold the ends
of their chains, the rules from there on are as they were given.
-/
structure CollapsedTo (ends : List StateName) (given : List Rule) (position : Nat)
    (rules : Array Rule) : Prop where
  size_eq : rules.size = given.length
  before : forall place (bounded : place < given.length), place < position ->
    Exists fun length : Nat => Exists fun last : Rule =>
      rules[place]? = some last ∧ Leads ends given given[place] length last
  behind : forall place, position ≤ place -> rules[place]? = given[place]?

/-- A rule found during the pass has the same chain as the rule that was given in
its place, only shorter. -/
theorem CollapsedTo.leads_of_found {ends : List StateName} {given : List Rule}
    {position place length : Nat} {rules : Array Rule} {rule last : Rule}
    (state : CollapsedTo ends given position rules) (opened : isOpen ends rule = true)
    (found : (RuleIndex.ofRules given).position? rule.target = some place)
    (bounded : place < rules.size)
    (leads : Leads ends given (takeOver rule rules[place]) length last) :
    Exists fun whole : Nat => Leads ends given rule whole last := by
  have insideGiven : place < given.length := by
    rw [← state.size_eq]
    exact bounded
  have first : Rule.first? given rule.target = some given[place] := by
    rw [← RuleIndex.bind_position?_ofRules, found]
    exact List.getElem?_eq_getElem insideGiven
  have current : rules[place]? = some rules[place] := Array.getElem?_eq_getElem bounded
  by_cases passed : place < position
  · rcases state.before place insideGiven passed with ⟨rest, final, held, chain⟩
    have same : rules[place] = final := Option.some.inj (current.symm.trans held)
    rw [same] at leads
    -- The rule in this place is closed already, so the chain ends with it.
    have ended : last = takeOver rule final := leads.eq_of_closed chain.last_closed
    rw [ended]
    exact ⟨rest + 1, .taken opened first (chain.takeOver rule)⟩
  · have untouched := state.behind place (Nat.le_of_not_lt passed)
    rw [current, List.getElem?_eq_getElem insideGiven] at untouched
    rw [Option.some.inj untouched] at leads
    exact ⟨length + 1, .taken opened first leads⟩

/-- Following a chain through the table in the making finds the end that the
chain has in the given table. -/
theorem CollapsedTo.leads_of_follow {ends : List StateName} {given : List Rule}
    {position : Nat} {rules : Array Rule} {rule last : Rule} {visited : Std.HashSet Nat}
    (state : CollapsedTo ends given position rules)
    (followed : follow ends (RuleIndex.ofRules given) rules rule visited = .ok last) :
    Exists fun length : Nat => Leads ends given rule length last := by
  fun_induction follow ends (RuleIndex.ofRules given) rules rule visited with
  | case1 rule visited opened missing => cases followed
  | case2 rule visited opened place found unseen bounded inductionHypothesis =>
      rcases inductionHypothesis followed with ⟨length, leads⟩
      exact state.leads_of_found opened found bounded leads
  | case3 rule visited opened place found seen => cases followed
  | case4 rule visited shut =>
      cases followed
      exact ⟨0, .closed (by simpa using shut)⟩

theorem CollapsedTo.initial (ends : List StateName) (given : List Rule) :
    CollapsedTo ends given 0 given.toArray where
  size_eq := List.size_toArray
  before _ _ impossible := False.elim (Nat.not_lt_zero _ impossible)
  behind _ _ := List.getElem?_toArray

/-- The pass over one rule: whatever is put in its place ends the chain of the
rule that stood there. -/
theorem CollapsedTo.next {ends : List StateName} {given : List Rule} {position length : Nat}
    {rules : Array Rule} {last : Rule} (state : CollapsedTo ends given position rules)
    (bounded : position < rules.size)
    (leads : Leads ends given rules[position] length last) :
    CollapsedTo ends given (position + 1) (rules.set position last) where
  size_eq := (Array.size_set bounded).trans state.size_eq
  before place inside passed := by
    by_cases here : position = place
    · subst here
      have untouched := state.behind position (Nat.le_refl position)
      rw [Array.getElem?_eq_getElem bounded, List.getElem?_eq_getElem inside] at untouched
      rw [Option.some.inj untouched] at leads
      exact ⟨length, last, Array.getElem?_set_self bounded, leads⟩
    · rcases state.before place inside (by omega) with ⟨count, final, held, chain⟩
      refine ⟨count, final, ?_, chain⟩
      rw [Array.getElem?_set_ne bounded here]
      exact held
  behind place later := by
    rw [Array.getElem?_set_ne bounded (by omega)]
    exact state.behind place (by omega)

/-- A pass that succeeds has put the end of its chain in the place of every rule. -/
theorem CollapsedTo.of_collapseFrom {ends : List StateName} {given : List Rule}
    {position count total : Nat} {rules result : Array Rule}
    (state : CollapsedTo ends given position rules)
    (succeeded : collapseFrom ends (RuleIndex.ofRules given) position rules count =
      (result, .ok total)) :
    CollapsedTo ends given given.length result := by
  fun_induction collapseFrom ends (RuleIndex.ofRules given) position rules count with
  | case1 position rules count bounded rule opened error failed => cases succeeded
  | case2 position rules count bounded rule opened last followed inductionHypothesis =>
      rcases state.leads_of_follow followed with ⟨length, leads⟩
      exact inductionHypothesis (state.next bounded leads) succeeded
  | case3 position rules count bounded rule shut inductionHypothesis =>
      have leads : Leads ends given rule 0 rule := .closed (by simpa using shut)
      have advanced := state.next bounded leads
      rw [Array.set_getElem_self] at advanced
      exact inductionHypothesis advanced succeeded
  | case4 position rules count outside =>
      cases succeeded
      refine ⟨state.size_eq, fun place inside _ => state.before place inside ?_, ?_⟩
      · have size := state.size_eq
        omega
      · intro place later
        rw [List.getElem?_eq_none later, Array.getElem?_eq_none]
        rw [state.size_eq]
        exact later

/-- The rules in front of the position are the ends of the chains that were given there. -/
theorem CollapsedTo.forall₂_take {ends : List StateName} {given : List Rule} {position : Nat}
    {rules : Array Rule} (state : CollapsedTo ends given position rules) :
    List.Forall₂ (fun rule last => Exists fun length : Nat => Leads ends given rule length last)
      (given.take position) (rules.toList.take position) := by
  apply List.forall₂_iff_get.mpr
  constructor
  · rw [List.length_take, List.length_take, ← state.size_eq]
    rfl
  · intro place inside within
    rw [List.length_take] at inside
    rcases state.before place (by omega) (by omega) with ⟨length, last, held, leads⟩
    have same : rules.toList[place]? = some last := by
      rw [Array.getElem?_toList]
      exact held
    rw [List.get_eq_getElem, List.get_eq_getElem, List.getElem_take, List.getElem_take,
      (List.getElem?_eq_some_iff.mp same).2]
    exact ⟨length, leads⟩

/-- After a successful pass every rule carries the end of the chain that it had in
the given table, and no rule has changed its place. -/
theorem forall₂_leads_of_collapse {ends : List StateName} {given collapsed : List Rule}
    {count : Nat} (succeeded : collapse ends given = (collapsed, .ok count)) :
    List.Forall₂ (fun rule last => Exists fun length : Nat => Leads ends given rule length last)
      given collapsed := by
  rcases Prod.mk.inj succeeded with ⟨tableSame, countSame⟩
  have whole := (CollapsedTo.initial ends given).of_collapseFrom
    (Prod.ext rfl countSame : collapseFrom ends (RuleIndex.ofRules given) 0 given.toArray 0 =
      (_, .ok count))
  subst tableSame
  have related := whole.forall₂_take
  rwa [List.take_length, List.take_of_length_le (Nat.le_of_eq whole.size_eq)] at related

/-- A collapsed rule is the end of the chain of a given one. -/
theorem exists_leads_of_collapse {ends : List StateName} {given collapsed : List Rule}
    {count : Nat} {final : Rule} (succeeded : collapse ends given = (collapsed, .ok count))
    (member : final ∈ collapsed) :
    Exists fun rule : Rule => Exists fun length : Nat =>
      rule ∈ given ∧ Leads ends given rule length final := by
  rcases List.mem_iff_get.mp member with ⟨place, rfl⟩
  have related := List.forall₂_iff_get.mp (forall₂_leads_of_collapse succeeded)
  have bounded : place.1 < given.length := by
    rw [related.1]
    exact place.2
  rcases related.2 place.1 bounded place.2 with ⟨length, leads⟩
  exact ⟨_, length, List.get_mem given ⟨place.1, bounded⟩, leads⟩

/-! ## Runs of the collapsed table -/

/-- In a table with the same addresses in the same places, the first rule for an
address stands in the place of the first rule that was given for it. -/
theorem rel_first? {relation : Rule -> Rule -> Prop} {given result : List Rule}
    (addressed : forall {rule other : Rule}, relation rule other ->
      other.address = rule.address)
    (related : List.Forall₂ relation given result) (address : StateName × Symbol) :
    Option.Rel relation (Rule.first? given address) (Rule.first? result address) := by
  induction related with
  | nil => exact .none
  | @cons rule other given result head _ inductionHypothesis =>
      unfold Rule.first? at inductionHypothesis ⊢
      rw [List.find?_cons, List.find?_cons, addressed head]
      cases rule.address == address with
      | true => exact .some head
      | false => exact inductionHypothesis

/-- No rule of a collapsed table is open. -/
theorem isOpen_eq_false_of_collapse {ends : List StateName} {given collapsed : List Rule}
    {count : Nat} (succeeded : collapse ends given = (collapsed, .ok count))
    {rule : Rule} (member : rule ∈ collapsed) : isOpen ends rule = false := by
  have shut : List.Forall₂ (fun _ last => isOpen ends last = false) given collapsed :=
    (forall₂_leads_of_collapse succeeded).imp (fun _ _ ⟨_, leads⟩ => leads.last_closed)
  clear succeeded
  induction shut with
  | nil => cases member
  | cons head _ inductionHypothesis =>
      rcases List.mem_cons.mp member with same | later
      · rw [same]
        exact head
      · exact inductionHypothesis later

/-- A step with the collapsed table is a chain of steps with the given one. -/
theorem coarsens_of_collapse {program : Program} {collapsed : List Rule} {count : Nat}
    (succeeded : collapse program.ends program.rules = (collapsed, .ok count)) :
    Program.Coarsens { program with rules := collapsed } program (fun _ => True) := by
  have related := forall₂_leads_of_collapse succeeded
  have addressed : forall {rule other : Rule},
      (Exists fun length : Nat => Leads program.ends program.rules rule length other) ->
        other.address = rule.address := by
    rintro rule other ⟨length, leads⟩
    exact leads.address_eq
  refine
    { start_eq := rfl
      ends_eq := rfl
      initially := fun _ => True.intro
      kept := fun _ _ => True.intro
      followed := ?_
      stops := ?_ }
  · intro here there _ next
    rcases Program.successor?_eq_some_iff.mp next with ⟨going, last, found, rfl⟩
    have matching := rel_first? addressed related (here.state, here.tape.focus)
    rw [show Rule.first? collapsed _ = _ from found] at matching
    cases given : Rule.first? program.rules (here.state, here.tape.focus) with
    | none =>
        rw [given] at matching
        cases matching
    | some rule =>
        rw [given] at matching
        cases matching with
        | some chain =>
            rcases chain with ⟨length, leads⟩
            have firstStep := Program.successor?_of_first?
              (show program.isEnd here.state = false from going) given
            refine ⟨length, ?_⟩
            simp only [Program.after?, firstStep, Option.bind_some]
            exact leads.after?_apply here
  · intro here _ stops
    rcases Program.successor?_eq_none_iff.mp stops with final | missing
    · exact Program.successor?_of_isEnd final
    · have matching := rel_first? addressed related (here.state, here.tape.focus)
      rw [show Rule.first? collapsed _ = _ from missing] at matching
      cases given : Rule.first? program.rules (here.state, here.tape.focus) with
      | none => exact Program.successor?_eq_none_iff.mpr (Or.inr given)
      | some rule =>
          rw [given] at matching
          cases matching

end Chain

end BinaryTape
