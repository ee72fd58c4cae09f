import BinaryTape.Proofs.Passes

namespace BinaryTape

/-!
# Where chains end

What the chain pass does to a table that it accepts is told by the chains of the table
as it was given.  Here is the other direction: when every chain of a table comes to an
end, the pass accepts the table and puts these ends in their places.

A chain with an end does not pass a rule twice.  The rest of a chain depends only on
the effect that was taken over last, so behind a rule there are always as many rules
to go, and behind its second occurrence there would be fewer.
-/

namespace Chain

variable {ends : List StateName} {rules given : List Rule} {rule last : Rule} {length : Nat}

theorem Leads.unique (leads : Leads ends rules rule length last) {count : Nat} {final : Rule}
    (other : Leads ends rules rule count final) : length = count ∧ last = final := by
  induction leads generalizing count with
  | closed shut =>
      cases other with
      | closed => exact ⟨rfl, rfl⟩
      | taken opened =>
          rw [shut] at opened
          cases opened
  | taken opened found rest inductionHypothesis =>
      cases other with
      | closed shut =>
          rw [shut] at opened
          cases opened
      | taken _ otherFound otherRest =>
          rw [found] at otherFound
          cases otherFound
          rcases inductionHypothesis otherRest with ⟨lengths, lasts⟩
          exact ⟨congrArg Nat.succ lengths, lasts⟩

/-- What is left of a chain behind a rule is the same for all that come to the rule. -/
theorem Leads.length_takeOver {front other : Rule} {count : Nat} {final : Rule}
    (leads : Leads ends rules (Chain.takeOver rule other) length last)
    (second : Leads ends rules (Chain.takeOver front other) count final) : length = count := by
  have moved : Leads ends rules (Chain.takeOver front other) length
      (Chain.takeOver front last) := leads.takeOver front
  exact (moved.unique second).1

/-- The places that a chain has passed lie on longer chains only. -/
def Behind (ends : List StateName) (given : List Rule) (visited : Std.HashSet Nat)
    (length : Nat) : Prop :=
  forall place, visited.contains place = true -> forall (other last : Rule) (count : Nat),
    (RuleIndex.ofRules given).position? other.target = some place ->
      isOpen ends other = true -> Leads ends given other count last -> length < count

/-- Passing the next rule of a chain. -/
theorem Behind.insert {visited : Std.HashSet Nat} {place : Nat} {next : Rule}
    (behind : Behind ends given visited (length + 1))
    (found : (RuleIndex.ofRules given).position? rule.target = some place)
    (first : Rule.first? given rule.target = some next)
    (rest : Leads ends given (takeOver rule next) length last) :
    Behind ends given (visited.insert place) length := by
  intro passed member other final count otherFound opened leads
  rw [Std.HashSet.contains_insert] at member
  rcases Bool.or_eq_true_iff.mp member with same | before
  · have samePlace : place = passed := eq_of_beq same
    subst samePlace
    have otherFirst : Rule.first? given other.target = some next := by
      rw [← RuleIndex.bind_position?_ofRules, otherFound, ← found,
        RuleIndex.bind_position?_ofRules]
      exact first
    cases leads with
    | closed shut =>
        rw [shut] at opened
        cases opened
    | taken _ otherNext otherRest =>
        rw [otherFirst] at otherNext
        cases otherNext
        have lengths := rest.length_takeOver otherRest
        omega
  · have longer := behind passed before other final count otherFound opened leads
    omega

/-- Following a chain that has an end, in the table as far as it was rewritten. -/
theorem CollapsedTo.follow_of_leads {position : Nat} {table : Array Rule}
    {visited : Std.HashSet Nat} (state : CollapsedTo ends given position table)
    (leads : Leads ends given rule length last) (behind : Behind ends given visited length) :
    follow ends (RuleIndex.ofRules given) table rule visited = .ok last := by
  induction leads generalizing visited with
  | @closed rule shut =>
      rw [follow]
      simp [shut]
  | @taken rule next last length opened first rest inductionHypothesis =>
      cases found : (RuleIndex.ofRules given).position? rule.target with
      | none =>
          rw [← RuleIndex.bind_position?_ofRules, found] at first
          cases first
      | some place =>
          have given_eq : given[place]? = some next := by
            rw [← RuleIndex.bind_position?_ofRules, found] at first
            exact first
          have insideGiven : place < given.length := (List.getElem?_eq_some_iff.mp given_eq).1
          have bounded : place < table.size := by
            rw [state.size_eq]
            exact insideGiven
          have unseen : visited.contains place = false := by
            apply Bool.eq_false_iff.mpr
            intro seen
            exact Nat.lt_irrefl _
              (behind place seen rule last _ found opened (.taken opened first rest))
          rw [follow]
          simp only [opened, if_true, found, bounded, unseen, and_self, dite_true]
          have current : table[place]? = some table[place] := Array.getElem?_eq_getElem bounded
          by_cases passed : place < position
          · rcases state.before place insideGiven passed with ⟨count, final, held, chain⟩
            have sameRule : table[place] = final :=
              Option.some.inj (current.symm.trans held)
            have sameNext : given[place] = next :=
              Option.some.inj ((List.getElem?_eq_getElem insideGiven).symm.trans given_eq)
            rw [sameNext] at chain
            -- The rule in this place holds the end of its chain, which is the end of this one.
            have ended : last = takeOver rule final := (rest.unique (chain.takeOver rule)).2
            have shut : isOpen ends (takeOver rule final) = false := chain.last_closed
            rw [sameRule, ended, follow]
            simp [shut]
          · have untouched := state.behind place (Nat.le_of_not_lt passed)
            rw [current, given_eq] at untouched
            rw [Option.some.inj untouched]
            exact inductionHypothesis (behind.insert found first rest)

theorem Behind.empty : Behind ends given ∅ length := by
  intro place seen
  simp at seen

/-- The rules from the position on are those that were given. -/
theorem CollapsedTo.drop_eq {position : Nat} {table : Array Rule}
    (state : CollapsedTo ends given position table) (bounded : position < table.size) :
    given.drop position = table[position] :: given.drop (position + 1) := by
  have inside : position < given.length := state.size_eq ▸ bounded
  have untouched := state.behind position (Nat.le_refl position)
  rw [Array.getElem?_eq_getElem bounded, List.getElem?_eq_getElem inside] at untouched
  rw [Option.some.inj untouched]
  exact List.drop_eq_getElem_cons inside

/-- From a position on, the pass finds the rules that were given there, and collapses
those that are open. -/
theorem CollapsedTo.collapseFrom_of_leads {position : Nat} {table : Array Rule}
    (state : CollapsedTo ends given position table) (count : Nat)
    (leads : forall rule, rule ∈ given -> Exists fun length : Nat => Exists fun last : Rule =>
      Leads ends given rule length last) :
    (collapseFrom ends (RuleIndex.ofRules given) position table count).2 =
      .ok (count + (given.drop position).countP (isOpen ends)) := by
  fun_induction collapseFrom ends (RuleIndex.ofRules given) position table count with
  | case1 position table count bounded rule opened error failed =>
      have given := List.mem_of_mem_drop (state.drop_eq bounded ▸ List.mem_cons_self)
      rcases leads rule given with ⟨length, last, chain⟩
      have followed := state.follow_of_leads chain .empty
      rw [failed] at followed
      cases followed
  | case2 position table count bounded rule opened last followed inductionHypothesis =>
      rcases state.leads_of_follow followed with ⟨length, chain⟩
      rw [inductionHypothesis (state.next bounded chain), state.drop_eq bounded,
        List.countP_cons_of_pos opened]
      exact congrArg Except.ok (by omega)
  | case3 position table count bounded rule shut inductionHypothesis =>
      have chain : Leads ends given rule 0 rule := .closed (by simpa using shut)
      have advanced := state.next bounded chain
      rw [Array.set_getElem_self] at advanced
      rw [inductionHypothesis advanced, state.drop_eq bounded, List.countP_cons_of_neg shut]
  | case4 position table count outside =>
      have nothing : given.drop position = [] := by
        apply List.drop_eq_nil_of_le
        rw [← state.size_eq]
        exact Nat.le_of_not_lt outside
      rw [nothing]
      rfl

/-- When every chain of a table ends, the pass succeeds: each rule is replaced by the
end of its chain, and as many rules are collapsed as were open. -/
theorem collapse_of_leads {collapsed : List Rule}
    (leads : List.Forall₂ (fun rule last => Exists fun length : Nat =>
      Leads ends given rule length last) given collapsed) :
    collapse ends given = (collapsed, .ok (given.countP (isOpen ends))) := by
  have each : forall rule, rule ∈ given -> Exists fun length : Nat =>
      Exists fun last : Rule => Leads ends given rule length last := by
    intro rule member
    rcases List.mem_iff_get.mp member with ⟨place, rfl⟩
    have related := List.forall₂_iff_get.mp leads
    rcases related.2 place.1 place.2 (related.1 ▸ place.2) with ⟨length, chain⟩
    exact ⟨length, _, chain⟩
  have counted : (collapse ends given).2 = .ok (given.countP (isOpen ends)) := by
    have total := (CollapsedTo.initial ends given).collapseFrom_of_leads 0 each
    rw [List.drop_zero, Nat.zero_add] at total
    exact total
  have ended := forall₂_leads_of_collapse (Prod.ext rfl counted)
  have functional : Relator.RightUnique (fun rule last => Exists fun length : Nat =>
      Leads ends given rule length last) := by
    rintro rule first second ⟨length, one⟩ ⟨count, other⟩
    exact (one.unique other).2
  exact Prod.ext (functional.forall₂ ended leads) counted

end Chain

/-- A source compiles when the chains of the table it is read into all come to an end. -/
theorem Compilation.exists_compile {library : Library} {text : String} {parsed : Program}
    {collapsed : List Rule}
    (read : (Source.parse library text).toOption.map Prod.fst = some parsed)
    (leads : List.Forall₂ (fun rule last => Exists fun length : Nat =>
      Chain.Leads parsed.ends parsed.rules rule length last) parsed.rules collapsed) :
    Exists fun compilation : Compilation => compile library text = .ok compilation ∧
      compilation.program = Reachability.eliminate { parsed with rules := collapsed } := by
  cases result : Source.parse library text with
  | error error =>
      rw [result] at read
      cases read
  | ok both =>
      rw [result] at read
      have same : both.1 = parsed := Option.some.inj read
      subst same
      have compiled := compile_eq_ok_iff.mpr
        ⟨both.1, both.2, collapsed, _, result, Chain.collapse_of_leads leads, rfl⟩
      exact ⟨_, compiled, rfl⟩

end BinaryTape
