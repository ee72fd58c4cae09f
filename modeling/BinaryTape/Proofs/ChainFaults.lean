import BinaryTape.Proofs.ChainEnds

namespace BinaryTape

/-!
# Chains that come to no end

A chain of a table can do three things: it ends, it comes to an address without a rule,
or it comes back to an address that it has passed.  In the last case it never stops.
Behind the second visit lies what lay behind the first one, so a place to stop would be
at two distances from it.

The pass reports what the chain does in the table as it was given, although it follows
the chain through a table that is rewritten in front of it.  A rule in front holds the
end of a chain.  A chain that runs into such a rule ends there; one that fails has only
met rules that were not touched yet, and it has met them in the order of the given table.
-/

namespace Chain

/-- In the table `rules`, a rule takes over the effects found at these addresses, one
after the other, and is the last rule then. -/
inductive Passes (ends : List StateName) (rules : List Rule) :
    Rule -> List (StateName × Symbol) -> Rule -> Prop where
  | here {rule : Rule} : Passes ends rules rule [] rule
  | taken {rule other last : Rule} {passed : List (StateName × Symbol)}
      (opened : isOpen ends rule = true)
      (found : Rule.first? rules rule.target = some other)
      (rest : Passes ends rules (takeOver rule other) passed last) :
      Passes ends rules rule (rule.target :: passed) last

/-- A chain does not go on behind a rule that is closed or has nothing to take over. -/
def Stops (ends : List StateName) (rules : List Rule) (rule : Rule) : Prop :=
  isOpen ends rule = false ∨ Rule.first? rules rule.target = none

/-- A chain that does not stop anywhere. -/
def Endless (ends : List StateName) (rules : List Rule) (rule : Rule) : Prop :=
  forall (passed : List (StateName × Symbol)) (current : Rule),
    Passes ends rules rule passed current -> Not (Stops ends rules current)

/-- How the chain of a rule fails: at the first address that has no rule, or at the first
one that it has passed before. -/
inductive Fails (ends : List StateName) (rules : List Rule) (rule : Rule) : Error -> Prop where
  | dangles {passed : List (StateName × Symbol)} {current : Rule}
      (passes : Passes ends rules rule passed current) (opened : isOpen ends current = true)
      (missing : Rule.first? rules current.target = none) :
      Fails ends rules rule (.danglingChain current.next current.write)
  | loops {passed : List (StateName × Symbol)} {current : Rule}
      (passes : Passes ends rules rule passed current) (opened : isOpen ends current = true)
      (different : passed.Nodup) (again : current.target ∈ passed) :
      Fails ends rules rule (.cyclicChain current.next current.write)

/-- The chain of a rule ends with the other rule, which has kept the address. -/
def EndsWith (ends : List StateName) (rules : List Rule) (rule last : Rule) : Prop :=
  last.address = rule.address ∧ Exists fun length : Nat => Leads ends rules rule length last

variable {ends : List StateName} {rules given : List Rule} {rule current last : Rule}
  {passed : List (StateName × Symbol)} {error : Error}

theorem Leads.endsWith {length : Nat} (leads : Leads ends rules rule length last) :
    EndsWith ends rules rule last :=
  ⟨leads.address_eq, length, leads⟩

theorem Leads.exists_passes {length : Nat} (leads : Leads ends rules rule length last) :
    Exists fun passed : List (StateName × Symbol) => Passes ends rules rule passed last := by
  induction leads with
  | closed => exact ⟨[], .here⟩
  | taken opened found _ inductionHypothesis =>
      rcases inductionHypothesis with ⟨passed, rest⟩
      exact ⟨_, .taken opened found rest⟩

/-! ## Passing addresses -/

namespace Passes

theorem append {front back : List (StateName × Symbol)}
    (one : Passes ends rules rule front current) (other : Passes ends rules current back last) :
    Passes ends rules rule (front ++ back) last := by
  induction one with
  | here => exact other
  | taken opened found _ inductionHypothesis =>
      exact .taken opened found (inductionHypothesis other)

/-- One more effect at the end. -/
theorem concat {other : Rule} (passes : Passes ends rules rule passed current)
    (opened : isOpen ends current = true)
    (found : Rule.first? rules current.target = some other) :
    Passes ends rules rule (passed ++ [current.target]) (Chain.takeOver current other) :=
  passes.append (.taken opened found .here)

theorem split {front back : List (StateName × Symbol)}
    (passes : Passes ends rules rule (front ++ back) last) :
    Exists fun middle : Rule => Passes ends rules rule front middle ∧
      Passes ends rules middle back last := by
  induction front generalizing rule with
  | nil => exact ⟨rule, .here, passes⟩
  | cons address front inductionHypothesis =>
      cases passes with
      | taken opened found rest =>
          rcases inductionHypothesis rest with ⟨middle, before, behind⟩
          exact ⟨middle, .taken opened found before, behind⟩

/-- Only the effect of a rule decides on what its chain passes. -/
theorem takeOver (front : Rule) (passes : Passes ends rules rule passed last) :
    Passes ends rules (Chain.takeOver front rule) passed (Chain.takeOver front last) := by
  induction passes with
  | here => exact .here
  | taken opened found _ inductionHypothesis => exact .taken opened found inductionHypothesis

/-- A chain that stops somewhere goes there from everything that it passes. -/
theorem exists_rest {all : List (StateName × Symbol)}
    (passes : Passes ends rules rule passed current)
    (whole : Passes ends rules rule all last) (stops : Stops ends rules last) :
    Exists fun rest : List (StateName × Symbol) =>
      all = passed ++ rest ∧ Passes ends rules current rest last := by
  induction passes generalizing all with
  | here => exact ⟨all, rfl, whole⟩
  | @taken rule other current passed opened found rest inductionHypothesis =>
      cases whole with
      | here =>
          rcases stops with shut | missing
          · rw [shut] at opened
            cases opened
          · rw [missing] at found
            cases found
      | taken _ sameFound wholeRest =>
          rw [found] at sameFound
          cases sameFound
          rcases inductionHypothesis wholeRest with ⟨later, split, reached⟩
          exact ⟨later, congrArg (rule.target :: ·) split, reached⟩

theorem eq_nil_of_stops (passes : Passes ends rules rule passed last)
    (stops : Stops ends rules rule) : passed = [] ∧ last = rule := by
  rcases exists_rest passes .here stops with ⟨rest, split, _⟩
  have nothing : passed = [] := (List.append_eq_nil_iff.mp split.symm).1
  rw [nothing] at passes
  cases passes with
  | here => exact ⟨nothing, rfl⟩

/-- A chain stops in one place only, and comes there in one way. -/
theorem unique_of_stops {all : List (StateName × Symbol)}
    (passes : Passes ends rules rule passed current) (currentStops : Stops ends rules current)
    (whole : Passes ends rules rule all last) (lastStops : Stops ends rules last) :
    passed = all ∧ current = last := by
  rcases passes.exists_rest whole lastStops with ⟨rest, split, reached⟩
  rcases reached.eq_nil_of_stops currentStops with ⟨nothing, same⟩
  rw [split, nothing, List.append_nil]
  exact ⟨rfl, same.symm⟩

/-- A chain that comes back to an address goes on forever. -/
theorem endless_of_mem (passes : Passes ends rules rule passed current)
    (opened : isOpen ends current = true) (again : current.target ∈ passed) :
    Endless ends rules rule := by
  intro all last whole stops
  rcases passes.exists_rest whole stops with ⟨rest, _, reached⟩
  rcases List.append_of_mem again with ⟨front, back, inPassed⟩
  rw [inPassed] at passes
  rcases passes.split with ⟨middle, _, behind⟩
  generalize address : current.target = pair at behind again
  cases behind with
  | @taken _ other _ _ _ found fromMiddle =>
      -- Both rules have the same target, so behind them lie the same addresses.
      have currentFound : Rule.first? rules current.target = some other := address ▸ found
      cases reached with
      | here =>
          rcases stops with shut | missing
          · rw [shut] at opened
            cases opened
          · rw [missing] at currentFound
            cases currentFound
      | @taken _ next _ later _ nextFound fromCurrent =>
          rw [currentFound] at nextFound
          cases nextFound
          have moved : Passes ends rules (Chain.takeOver middle other) later
              (Chain.takeOver middle last) := fromCurrent.takeOver middle
          have longer : Passes ends rules (Chain.takeOver middle other)
              (back ++ current.target :: later) last :=
            fromMiddle.append (.taken opened currentFound fromCurrent)
          have stopsToo : Stops ends rules (Chain.takeOver middle last) := stops
          have same := (moved.unique_of_stops stopsToo longer stops).1
          have lengths := congrArg List.length same
          rw [List.length_append, List.length_cons] at lengths
          omega

end Passes

/-! ## Failing chains -/

/-- A chain that fails has no end. -/
theorem Fails.not_leads (fails : Fails ends rules rule error) {length : Nat} {final : Rule} :
    Not (Leads ends rules rule length final) := by
  intro leads
  rcases leads.exists_passes with ⟨all, whole⟩
  have shut : Stops ends rules final := Or.inl leads.last_closed
  cases fails with
  | dangles passes opened missing =>
      have same := (passes.unique_of_stops (Or.inr missing) whole shut).2
      rw [same, leads.last_closed] at opened
      cases opened
  | loops passes opened _ again => exact passes.endless_of_mem opened again all final whole shut

/-- The chains that are called cyclic are those that go on forever. -/
theorem Fails.endless_iff (fails : Fails ends rules rule error) :
    Endless ends rules rule ↔ Exists fun state : StateName => Exists fun symbol : Symbol =>
      error = .cyclicChain state symbol := by
  cases fails with
  | dangles passes _ missing =>
      constructor
      · intro endless
        exact absurd (Or.inr missing) (endless _ _ passes)
      · rintro ⟨_, _, impossible⟩
        cases impossible
  | loops passes opened _ again =>
      exact ⟨fun _ => ⟨_, _, rfl⟩, fun _ => passes.endless_of_mem opened again⟩

/-! ## Following a chain that fails -/

/-- Two addresses with their first rule in one place are the same. -/
theorem address_of_position? {one other : StateName × Symbol} {place : Nat}
    (found : (RuleIndex.ofRules given).position? one = some place)
    (otherFound : (RuleIndex.ofRules given).position? other = some place) : one = other := by
  rw [RuleIndex.position?_ofRules] at found otherFound
  rcases List.findIdx?_eq_some_iff_getElem.mp found with ⟨_, same, _⟩
  rcases List.findIdx?_eq_some_iff_getElem.mp otherFound with ⟨_, otherSame, _⟩
  exact (eq_of_beq same).symm.trans (eq_of_beq otherSame)

/-- The marks of a chain: the places of the addresses that it has passed. -/
def Marks (given : List Rule) (passed : List (StateName × Symbol))
    (visited : Std.HashSet Nat) : Prop :=
  forall place, visited.contains place = true ↔
    Exists fun address : StateName × Symbol =>
      address ∈ passed ∧ (RuleIndex.ofRules given).position? address = some place

theorem Marks.insert {visited : Std.HashSet Nat} {address : StateName × Symbol} {place : Nat}
    (marks : Marks given passed visited)
    (found : (RuleIndex.ofRules given).position? address = some place) :
    Marks given (passed ++ [address]) (visited.insert place) := by
  intro other
  rw [Std.HashSet.contains_insert, Bool.or_eq_true, marks other, beq_iff_eq]
  constructor
  · rintro (rfl | ⟨before, member, placed⟩)
    · exact ⟨address, List.mem_append_right _ (List.mem_singleton_self _), found⟩
    · exact ⟨before, List.mem_append_left _ member, placed⟩
  · rintro ⟨before, member, placed⟩
    rcases List.mem_append.mp member with earlier | same
    · exact Or.inr ⟨before, earlier, placed⟩
    · rw [List.mem_singleton.mp same, found] at placed
      exact Or.inl (Option.some.inj placed)

/-- When following a chain fails in the table as far as it was rewritten, the chain fails
in the given table, and in the same way. -/
theorem CollapsedTo.fails_of_follow {position : Nat} {table : Array Rule}
    {visited : Std.HashSet Nat} (state : CollapsedTo ends given position table)
    (passes : Passes ends given rule passed current) (different : passed.Nodup)
    (marks : Marks given passed visited)
    (failed : follow ends (RuleIndex.ofRules given) table current visited = .error error) :
    Fails ends given rule error := by
  fun_induction follow ends (RuleIndex.ofRules given) table current visited
      generalizing passed with
  | case1 current visited opened missing =>
      cases failed
      refine .dangles passes opened ?_
      rw [← RuleIndex.bind_position?_ofRules, missing]
      rfl
  | case2 current visited opened place found unseen bounded inductionHypothesis =>
      have insideGiven : place < given.length := state.size_eq ▸ bounded
      by_cases rewritten : place < position
      · -- The chain would be at its end in this place.
        rcases state.before place insideGiven rewritten with ⟨_, last, held, chain⟩
        have same : table[place] = last :=
          Option.some.inj ((Array.getElem?_eq_getElem bounded).symm.trans held)
        have shut : isOpen ends (takeOver current last) = false := chain.last_closed
        rw [same, follow] at failed
        simp [shut] at failed
      · have untouched := state.behind place (Nat.le_of_not_lt rewritten)
        rw [Array.getElem?_eq_getElem bounded, List.getElem?_eq_getElem insideGiven] at untouched
        have first : Rule.first? given current.target = some table[place] := by
          rw [← RuleIndex.bind_position?_ofRules, found, Option.some.inj untouched]
          exact List.getElem?_eq_getElem insideGiven
        have fresh : Not (current.target ∈ passed) := by
          intro before
          have seen := (marks place).mpr ⟨current.target, before, found⟩
          rw [unseen.2] at seen
          cases seen
        have stillDifferent : (passed ++ [current.target]).Nodup := by
          refine List.nodup_append.mpr ⟨different, by simp, ?_⟩
          rintro before member _ same rfl
          exact fresh (List.mem_singleton.mp same ▸ member)
        exact inductionHypothesis (passes.concat opened first) stillDifferent
          (marks.insert found) failed
  | case3 current visited opened place found seen =>
      cases failed
      have insideGiven : place < given.length := by
        rw [RuleIndex.position?_ofRules] at found
        exact (List.findIdx?_eq_some_iff_getElem.mp found).1
      have marked : visited.contains place = true := by
        apply Bool.of_not_eq_false
        intro unseen
        exact seen ⟨state.size_eq ▸ insideGiven, unseen⟩
      rcases (marks place).mp marked with ⟨before, member, placed⟩
      rw [address_of_position? placed found] at member
      exact .loops passes opened different member
  | case4 => cases failed

/-- A pass that fails has come to a rule whose chain fails.  The rules in front of it hold
the ends of their chains, and it has touched nothing else. -/
theorem CollapsedTo.exists_of_collapseFrom_error {position count : Nat}
    {table result : Array Rule} (state : CollapsedTo ends given position table)
    (failed : collapseFrom ends (RuleIndex.ofRules given) position table count =
      (result, .error error)) :
    Exists fun place : Nat => Exists fun rule : Rule => given[place]? = some rule ∧
      Fails ends given rule error ∧ CollapsedTo ends given place result := by
  fun_induction collapseFrom ends (RuleIndex.ofRules given) position table count with
  | case1 position table count bounded rule opened error found =>
      cases failed
      have unmarked : Marks given [] ∅ := by simp [Marks]
      have untouched := state.behind position (Nat.le_refl position)
      rw [Array.getElem?_eq_getElem bounded] at untouched
      exact ⟨position, rule, untouched.symm,
        state.fails_of_follow .here List.nodup_nil unmarked found, state⟩
  | case2 position table count bounded rule opened last followed inductionHypothesis =>
      rcases state.leads_of_follow followed with ⟨length, leads⟩
      exact inductionHypothesis (state.next bounded leads) failed
  | case3 position table count bounded rule shut inductionHypothesis =>
      have leads : Leads ends given rule 0 rule := .closed (by simpa using shut)
      have advanced := state.next bounded leads
      rw [Array.set_getElem_self] at advanced
      exact inductionHypothesis advanced failed
  | case4 => cases failed

/-! ## The whole pass -/

/-- The rules from the position on are as they were given. -/
theorem CollapsedTo.drop_toList {position : Nat} {table : Array Rule}
    (state : CollapsedTo ends given position table) :
    table.toList.drop position = given.drop position := by
  apply List.ext_getElem?
  intro place
  rw [List.getElem?_drop, List.getElem?_drop, Array.getElem?_toList]
  exact state.behind _ (Nat.le_add_right position place)

theorem collapse_eq_ok_iff {collapsed : List Rule} {count : Nat} :
    collapse ends given = (collapsed, .ok count) ↔
      List.Forall₂ (EndsWith ends given) given collapsed ∧
        count = given.countP (isOpen ends) := by
  constructor
  · intro succeeded
    have leads := forall₂_leads_of_collapse succeeded
    have counted := collapse_of_leads leads
    rw [succeeded] at counted
    cases counted
    exact ⟨leads.imp (fun _ _ ⟨_, chain⟩ => chain.endsWith), rfl⟩
  · rintro ⟨ended, rfl⟩
    exact collapse_of_leads (ended.imp (fun _ _ both => both.2))

theorem exists_of_collapse_error {collapsed : List Rule}
    (failed : collapse ends given = (collapsed, .error error)) :
    Exists fun place : Nat => Exists fun rule : Rule => given[place]? = some rule ∧
      Fails ends given rule error ∧
      List.Forall₂ (EndsWith ends given) (given.take place) (collapsed.take place) ∧
      collapsed.drop place = given.drop place := by
  rcases Prod.mk.inj failed with ⟨tableSame, errorSame⟩
  subst tableSame
  rcases (CollapsedTo.initial ends given).exists_of_collapseFrom_error (Prod.ext rfl errorSame) with
    ⟨place, rule, found, fails, state⟩
  have front := state.forall₂_take.imp (fun _ _ ⟨_, leads⟩ => leads.endsWith)
  exact ⟨place, rule, found, fails, front, state.drop_toList⟩

/-- The pass succeeds exactly when all chains come to an end. -/
theorem exists_collapse_ok_iff :
    (Exists fun collapsed : List Rule => Exists fun count : Nat =>
      collapse ends given = (collapsed, .ok count)) ↔
    forall rule, rule ∈ given -> Exists fun last : Rule => EndsWith ends given rule last := by
  constructor
  · rintro ⟨collapsed, count, succeeded⟩ rule member
    rcases List.mem_iff_get.mp member with ⟨place, rfl⟩
    have related := List.forall₂_iff_get.mp (collapse_eq_ok_iff.mp succeeded).1
    exact ⟨_, related.2 place.1 place.2 (related.1 ▸ place.2)⟩
  · intro ended
    cases result : collapse ends given with
    | mk collapsed outcome =>
        cases outcome with
        | ok count => exact ⟨collapsed, count, rfl⟩
        | error error =>
            rcases exists_of_collapse_error result with ⟨place, rule, found, fails, _, _⟩
            rcases ended rule (List.mem_of_getElem? found) with ⟨last, _, length, leads⟩
            exact absurd leads fails.not_leads

/--
The pass in place does what the chains of the given table say.  It succeeds exactly when
all of them come to an end; each rule, in its old place and with its old address, is the
end of its chain then, and as many rules are counted as were open.  Otherwise the error is
that of the first rule whose chain has no end: the first address without a rule, or the
first address that is passed again, which is reported for the chains that go on forever
and for no others.  The rules in front of that rule are the ends of their chains, and the
rules from there on are as they were given.
-/
theorem collapse_keeps_to_given_chains (ends : List StateName) (given : List Rule) :
    ((Exists fun collapsed : List Rule => Exists fun count : Nat =>
        collapse ends given = (collapsed, .ok count)) ↔
      forall rule, rule ∈ given -> Exists fun last : Rule => EndsWith ends given rule last) ∧
    (forall (collapsed : List Rule) (count : Nat),
      collapse ends given = (collapsed, .ok count) ↔
        List.Forall₂ (EndsWith ends given) given collapsed ∧
          count = given.countP (isOpen ends)) ∧
    (forall (collapsed : List Rule) (error : Error),
      collapse ends given = (collapsed, .error error) ->
        Exists fun place : Nat => Exists fun rule : Rule => given[place]? = some rule ∧
          (forall last, Not (EndsWith ends given rule last)) ∧
          Fails ends given rule error ∧
          (Endless ends given rule ↔ Exists fun state : StateName =>
            Exists fun symbol : Symbol => error = .cyclicChain state symbol) ∧
          List.Forall₂ (EndsWith ends given) (given.take place) (collapsed.take place) ∧
          collapsed.drop place = given.drop place) := by
  refine ⟨exists_collapse_ok_iff, fun _ _ => collapse_eq_ok_iff, ?_⟩
  intro collapsed error failed
  rcases exists_of_collapse_error failed with ⟨place, rule, found, fails, front, back⟩
  refine ⟨place, rule, found, ?_, fails, fails.endless_iff, front, back⟩
  rintro last ⟨_, length, leads⟩
  exact fails.not_leads leads

/-- Two rules with an end, and behind them two that lead to each other. -/
def loopingTable : List Rule :=
  [⟨"A", .zero, "b", .one, .stay⟩, ⟨"b", .one, "E", .zero, .right⟩,
   ⟨"c", .zero, "d", .zero, .stay⟩, ⟨"d", .zero, "c", .zero, .stay⟩]

/-- The first rule is collapsed.  The chain of the third one comes to `d`, then to `c` and
then to `d` again. -/
theorem collapse_keeps_to_given_chains_of_loop :
    collapse ["E"] loopingTable =
      (⟨"A", .zero, "E", .zero, .right⟩ :: loopingTable.tail,
        .error (.cyclicChain "d" .zero)) ∧
    Exists fun place : Nat => Exists fun rule : Rule => loopingTable[place]? = some rule ∧
      Fails ["E"] loopingTable rule (.cyclicChain "d" .zero) ∧
      Endless ["E"] loopingTable rule := by
  have failed : collapse ["E"] loopingTable =
      (⟨"A", .zero, "E", .zero, .right⟩ :: loopingTable.tail,
        .error (.cyclicChain "d" .zero)) := by
    simp [loopingTable, collapse, collapseFrom, follow, RuleIndex.position?_ofRules,
      List.findIdx?_cons, isOpen, Rule.target, Rule.address, takeOver]
  rcases (collapse_keeps_to_given_chains ["E"] loopingTable).2.2 _ _ failed with
    ⟨place, rule, found, _, fails, endless, _, _⟩
  exact ⟨failed, place, rule, found, fails, endless.mpr ⟨_, _, rfl⟩⟩

end Chain

end BinaryTape
