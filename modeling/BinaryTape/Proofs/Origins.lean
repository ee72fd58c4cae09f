import Mathlib.Data.List.Nodup
import Mathlib.Data.List.Perm.Basic
import BinaryTape.Proofs.ImplicitStates
import BinaryTape.Proofs.NormalForm
import BinaryTape.Proofs.SourceRuns

namespace BinaryTape

open BinaryTape.Module (marked)

/-!
# Where the rules of a table start

Every construct adds a pair of rules at the state in which it finds the draft, and a
call adds copies of the rules of a module, which start inside the copy.  Behind the
last construct the closing pair is added.  So the addresses of a table that was read
are, in some order, the pairs at the states that the caller goes through and the
addresses of the copies.  The caller itself goes through the start state, the implicit
states and the targets of jumps, each time that they are taken or jumped to.

The passes do not touch this.  Collapsing changes effects and never addresses, and
dropping unreachable rules keeps all rules of a state or none.
-/

namespace Rule

/-- The addresses of a state, one for each symbol. -/
def addressesAt (state : StateName) : List (StateName × Symbol) :=
  Symbol.all.map (fun symbol => (state, symbol))

theorem mem_addressesAt_iff {state : StateName} {address : StateName × Symbol} :
    address ∈ addressesAt state ↔ address.1 = state := by
  constructor
  · intro member
    rcases List.mem_map.mp member with ⟨symbol, _, rfl⟩
    rfl
  · rintro rfl
    exact List.mem_map_of_mem (Symbol.mem_all address.2)

theorem nodup_addressesAt (state : StateName) : (addressesAt state).Nodup := by
  simp [addressesAt, Symbol.all]

/-- Pairs at different states have no address in common. -/
theorem nodup_flatMap_addressesAt_iff {states : List StateName} :
    (states.flatMap addressesAt).Nodup ↔ states.Nodup := by
  have disjoint_iff : forall first second : StateName,
      Function.onFun List.Disjoint addressesAt first second ↔ first ≠ second := by
    intro first second
    constructor
    · rintro disjoint rfl
      have member : (first, Symbol.zero) ∈ addressesAt first := mem_addressesAt_iff.mpr rfl
      exact disjoint member member
    · intro different address one other
      exact different ((mem_addressesAt_iff.mp one).symm.trans (mem_addressesAt_iff.mp other))
  rw [List.nodup_flatMap]
  constructor
  · intro both
    exact both.2.imp (fun disjoint => (disjoint_iff _ _).mp disjoint)
  · intro distinct
    exact ⟨fun state _ => nodup_addressesAt state,
      distinct.imp (fun different => (disjoint_iff _ _).mpr different)⟩

/-- Keeping addresses by their state keeps both addresses of a state or none. -/
theorem filter_flatMap_addressesAt (keep : StateName -> Bool) (states : List StateName) :
    (states.flatMap addressesAt).filter (fun address => keep address.1) =
      (states.filter keep).flatMap addressesAt := by
  induction states with
  | nil => rfl
  | cons state states inductionHypothesis =>
      rw [List.flatMap_cons, List.filter_append, inductionHypothesis]
      cases kept : keep state <;> simp [addressesAt, Symbol.all, kept]

end Rule

open Rule (addressesAt)

namespace Source

/-- The rules that a stage copied from a module.  Only calls copy. -/
def Stage.copies (stage : Stage) : List Rule :=
  (stage.instantiation?.map Instantiation.copiedRules).getD []

/-- The targets of jumps, in order. -/
def jumpTargets (constructs : List Construct) : List StateName :=
  constructs.filterMap Construct.label?

theorem mem_jumpTargets_iff {constructs : List Construct} {target : StateName} :
    target ∈ jumpTargets constructs ↔ .jump target ∈ constructs := by
  unfold jumpTargets
  rw [List.mem_filterMap]
  constructor
  · rintro ⟨construct, member, label⟩
    cases construct with
    | jump other =>
        cases label
        exact member
    | move direction => cases label
    | write symbol => cases label
    | call name binding => cases label
  · intro member
    exact ⟨_, member, rfl⟩

variable {library : Library} {made earlier later : List Stage} {last : Draft}
  {header : Header} {stage : Stage}

theorem Stage.mem_copies_iff {rule : Rule} :
    rule ∈ stage.copies ↔ Exists fun call : Instantiation =>
      stage.instantiation? = some call ∧ rule ∈ call.copiedRules := by
  unfold Stage.copies
  cases stage.instantiation? <;> simp

/-! ## The addresses of a stage -/

/-- The addresses of a copy are those of the table, with marked states. -/
theorem Instantiation.Of.addresses {call : Instantiation} {name binding : String}
    (known : call.Of library earlier stage name binding) :
    Exists fun table : Program => library.load name = .ok table ∧
      call.copiedRules.map Rule.address =
        (table.rules.map Rule.address).map (fun address =>
          (marked name (callsOf name (constructsOf earlier)) address.1, address.2)) := by
  rcases known.entry_eq with ⟨table, loaded, entry⟩
  refine ⟨table, loaded, ?_⟩
  simp only [Instantiation.copiedRules, entry, Module.declare, List.map_map]
  rfl

/-- A stage serves the state it starts from and adds its copies. -/
theorem Drafted.addresses_of_stage (drafted : Drafted library made last)
    (parts : made = earlier ++ stage :: later) :
    stage.rules.map Rule.address =
      addressesAt stage.before.current ++ stage.copies.map Rule.address := by
  rcases drafted.split parts with ⟨_, _, _, step⟩
  cases construct : stage.construct with
  | move direction =>
      simp only [step.rules_move construct, Stage.copies, Stage.instantiation?, construct]
      rfl
  | write symbol =>
      simp only [step.rules_write construct, Stage.copies, Stage.instantiation?, construct]
      rfl
  | jump target =>
      simp only [step.rules_jump construct, Stage.copies, Stage.instantiation?, construct]
      rfl
  | call name binding =>
      rcases drafted.instantiation_of_call parts construct with ⟨call, found, known⟩
      simp only [known.rules_eq, Stage.copies, found, List.map_append, ← known.origin_eq]
      rfl

/-! ## The states of the caller -/

/-- The caller is, before each stage and at the end, where the draft is. -/
theorem Drafted.callerStates_eq (drafted : Drafted library made last)
    (headed : last.header = some header) :
    callerStates header.start made =
      made.map (fun stage => stage.before.current) ++ [last.current] := by
  induction drafted with
  | empty => cases headed
  | noted _ _ inductionHypothesis => exact inductionHypothesis headed
  | declared _ _ inductionHypothesis => exact inductionHypothesis headed
  | headed other begun first _ =>
      rw [eq_nil_of_header begun first]
      exact congrArg (fun header => [Header.start header]) (Option.some.inj headed).symm
  | @performed stages stage _ _ _ step inductionHypothesis =>
      rw [step.effect.header_same] at headed
      have front := inductionHypothesis headed
      simp only [callerStates, List.map_append, List.map_singleton] at front ⊢
      rw [← List.cons_append, front]

/-- A construct goes on at the implicit state it took or at the target it jumped to. -/
theorem Stage.Made.current_eq_singleton (step : stage.Made) :
    [stage.after.current] = stage.implicit?.toList ++ stage.construct.label?.toList := by
  rw [step.effect.current_eq, step.implicit?_eq]
  cases stage.construct <;> rfl

/-- The caller goes through the start state, the implicit states and the targets of
jumps. -/
theorem Drafted.perm_callerStates (drafted : Drafted library made last) (start : StateName) :
    (callerStates start made).Perm
      (start :: (implicitStates made ++ jumpTargets (constructsOf made))) := by
  refine List.Perm.cons start ?_
  induction drafted with
  | empty => exact List.Perm.refl _
  | noted _ _ inductionHypothesis => exact inductionHypothesis
  | declared _ _ inductionHypothesis => exact inductionHypothesis
  | headed _ _ _ inductionHypothesis => exact inductionHypothesis
  | @performed stages stage _ _ _ step inductionHypothesis =>
      have taken : implicitStates (stages ++ [stage]) =
          implicitStates stages ++ stage.implicit?.toList := by
        cases found : stage.implicit? <;> simp [implicitStates, found]
      have jumped : jumpTargets (constructsOf (stages ++ [stage])) =
          jumpTargets (constructsOf stages) ++ stage.construct.label?.toList := by
        cases found : stage.construct.label? <;> simp [jumpTargets, constructsOf, found]
      rw [taken, jumped, List.map_append, List.map_singleton, step.current_eq_singleton]
      apply List.perm_iff_count.mpr
      intro state
      have counts := inductionHypothesis.count_eq state
      simp only [List.count_append] at counts ⊢
      omega

/-! ## The addresses of a table -/

/-- The addresses of a table that was read, those of the caller first. -/
theorem Drafted.perm_addresses (drafted : Drafted library made last)
    (headed : last.header = some header) :
    ((tableOf made last header).rules.map Rule.address).Perm
      ((callerStates header.start made).flatMap addressesAt ++
        made.flatMap (fun stage => stage.copies.map Rule.address)) := by
  have staged : made.flatMap (fun stage => stage.rules.map Rule.address) =
      made.flatMap (fun stage =>
        addressesAt stage.before.current ++ stage.copies.map Rule.address) := by
    apply List.flatMap_congr
    intro stage member
    rcases List.append_of_mem member with ⟨earlier, later, parts⟩
    exact drafted.addresses_of_stage parts
  have closing : (Rule.handOver last.current header.firstEnd).map Rule.address =
      addressesAt last.current := rfl
  have caller : (callerStates header.start made).flatMap addressesAt =
      made.flatMap (fun stage => addressesAt stage.before.current) ++
        addressesAt last.current := by
    rw [drafted.callerStates_eq headed, List.flatMap_append, List.flatMap_map]
    simp
  rw [tableOf, List.map_append, List.map_flatMap, staged, closing, caller]
  have parted := List.flatMap_append_perm made
    (fun stage => addressesAt stage.before.current)
    (fun stage => stage.copies.map Rule.address)
  apply List.perm_iff_count.mpr
  intro address
  have counts := parted.count_eq address
  simp only [List.count_append] at counts ⊢
  omega

end Source

/-! ## The passes -/

/-- Collapsing changes no address. -/
theorem Chain.addresses_of_collapse {ends : List StateName} {given collapsed : List Rule}
    {count : Nat} (succeeded : collapse ends given = (collapsed, .ok count)) :
    collapsed.map Rule.address = given.map Rule.address := by
  have same : List.Forall₂ (fun rule last => last.address = rule.address) given collapsed :=
    (forall₂_leads_of_collapse succeeded).imp (fun _ _ ⟨_, leads⟩ => leads.address_eq)
  clear succeeded
  induction same with
  | nil => rfl
  | cons head _ inductionHypothesis =>
      rw [List.map_cons, List.map_cons, head, inductionHypothesis]

namespace Reachability

variable {program : Program}

/-- The addresses that are left are those of the states that are still reachable. -/
theorem addresses_eliminate :
    (eliminate program).rules.map Rule.address =
      (program.rules.map Rule.address).filter (fun address =>
        (reachable (eliminate program).rules (eliminate program).start).contains address.1) := by
  rw [List.filter_map]
  refine congrArg (List.map Rule.address) (List.filter_congr ?_)
  intro rule _
  rw [Bool.eq_iff_iff, contains_reachable_iff]
  exact (reaches_eliminate_iff.symm.trans (contains_reachable_iff _ _ _).symm)

end Reachability

/-- What the passes make of a table: a normal one, with the addresses whose states can be
reached and with effects that the table had. -/
structure Program.Condenses (compiled table : Program) : Prop where
  start_eq : compiled.start = table.start
  ends_eq : compiled.ends = table.ends
  normal : compiled.Normal
  addresses_eq : compiled.rules.map Rule.address =
    (table.rules.map Rule.address).filter (fun address =>
      (Reachability.reachable compiled.rules compiled.start).contains address.1)
  effects : forall rule, rule ∈ compiled.rules -> Exists fun given : Rule =>
    given ∈ table.rules ∧ given.next = rule.next ∧ given.move = rule.move

/-- A chain ends with the effect of a rule of the table. -/
theorem Chain.Leads.effect {ends : List StateName} {rules : List Rule} {rule final : Rule}
    {length : Nat} (leads : Leads ends rules rule length final)
    (known : Exists fun given : Rule =>
      given ∈ rules ∧ given.next = rule.next ∧ given.move = rule.move) :
    Exists fun given : Rule =>
      given ∈ rules ∧ given.next = final.next ∧ given.move = final.move := by
  induction leads with
  | closed => exact known
  | @taken _ other _ _ _ found _ inductionHypothesis =>
      exact inductionHypothesis ⟨other, Rule.mem_of_first? found, rfl, rfl⟩

theorem Program.Condenses.of_passes {table : Program} {collapsed : List Rule} {count : Nat}
    (succeeded : Chain.collapse table.ends table.rules = (collapsed, .ok count)) :
    Condenses (Reachability.eliminate { table with rules := collapsed }) table where
  start_eq := rfl
  ends_eq := rfl
  normal := .of_eliminate (fun _ member => Chain.isOpen_eq_false_of_collapse succeeded member)
  addresses_eq := by
    rw [← Chain.addresses_of_collapse succeeded]
    exact Reachability.addresses_eliminate
  effects rule member := by
    rcases Chain.exists_leads_of_collapse succeeded (List.mem_filter.mp member).1 with
      ⟨given, length, among, leads⟩
    exact leads.effect ⟨given, among, rfl, rfl⟩

/-- A compiled program condenses the table that its source is drafted into. -/
theorem Compilation.condenses_of_compile {library : Library} {text : String}
    {compilation : Compilation} (compiled : compile library text = .ok compilation) :
    Exists fun last : Source.Draft => Exists fun header : Header =>
      Source.Drafted library (Source.stages library text) last ∧
        last.header = some header ∧
        Source.constructsOf (Source.stages library text) = Source.constructs text ∧
        compilation.program.Condenses
          (Source.tableOf (Source.stages library text) last header) := by
  rcases compile_eq_ok_iff.mp compiled with
    ⟨parsed, registry, collapsed, count, read, succeeded, rfl⟩
  rcases Source.drafted_of_parse read with ⟨last, header, drafted, headed, _, items, rfl⟩
  exact ⟨last, header, drafted, headed, items, .of_passes succeeded⟩

end BinaryTape
