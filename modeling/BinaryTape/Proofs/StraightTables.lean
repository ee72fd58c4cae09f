import Mathlib.Data.List.Nodup
import Mathlib.Data.List.Perm.Basic
import BinaryTape.Header
import BinaryTape.Proofs.Names
import BinaryTape.Proofs.NormalForm

namespace BinaryTape
namespace Straight

/-!
# Tables of straight text

Straight text writes and moves and does nothing else.  Its table has one pair of rules
for each place of the text: one for the place before each action, which leads to the
place behind it, and one for the end, which leads to the first end state.

Writes do not move, so their rules are collapsed.  From a place the chain goes on over
all writes up to the next move or the end, and of these writes only the last one is
left.  The places behind a write are then skipped by every rule, and their pairs are
dropped.  What is left is the place at the start and one place behind each move, where
a run arrives with its next step.
-/

/-- What a character of straight text does. -/
inductive Action where
  | write (symbol : Symbol)
  | move (direction : Direction) (moves : direction.moves = true)
  deriving DecidableEq, Repr

namespace Action

def isMove : Action -> Bool
  | write _ => false
  | move _ _ => true

def perform (tape : Tape) : Action -> Tape
  | write symbol => tape.write symbol
  | move direction _ => tape.move direction

end Action

/-! ## Places -/

/-- A place in a straight text: its state, the number of the next implicit state and the
actions that are still to come. -/
structure Place where
  state : StateName
  number : Nat
  rest : List Action

/-- The places behind the actions of a text. -/
def behind : Nat -> List Action -> List Place
  | _, [] => []
  | number, _ :: rest => ⟨toString number, number + 1, rest⟩ :: behind (number + 1) rest

/-- The places behind the moves of a text. -/
def arrivals : Nat -> List Action -> List Place
  | _, [] => []
  | number, .write _ :: rest => arrivals (number + 1) rest
  | number, .move _ _ :: rest =>
      ⟨toString number, number + 1, rest⟩ :: arrivals (number + 1) rest

/-- All places of a text. -/
def places (start : StateName) (actions : List Action) : List Place :=
  ⟨start, 0, actions⟩ :: behind 0 actions

/-- The places that a run of the compiled text comes to. -/
def stops (start : StateName) (actions : List Action) : List Place :=
  ⟨start, 0, actions⟩ :: arrivals 0 actions

/-- A pair of rules at each of some places. -/
def pairs (rule : Place -> Symbol -> Rule) (places : List Place) : List Rule :=
  places.flatMap (fun place => Symbol.all.map (rule place))

/-- The rule that is read at a place. -/
def Place.given (final : StateName) (place : Place) (read : Symbol) : Rule :=
  match place.rest with
  | [] => ⟨place.state, read, final, read, .stay⟩
  | .write symbol :: _ => ⟨place.state, read, toString place.number, symbol, .stay⟩
  | .move direction _ :: _ => ⟨place.state, read, toString place.number, read, direction⟩

/-- The rule at an address that goes over writes, with the symbol written last, and takes
the next move or ends the text. -/
def ended (final state : StateName) (read : Symbol) : Nat -> Symbol -> List Action -> Rule
  | _, held, [] => ⟨state, read, final, held, .stay⟩
  | number, _, .write symbol :: rest => ended final state read (number + 1) symbol rest
  | number, held, .move direction _ :: _ => ⟨state, read, toString number, held, direction⟩

/-- The rule that is left at a place when chains are collapsed. -/
def Place.collapsed (final : StateName) (place : Place) (read : Symbol) : Rule :=
  ended final place.state read place.number read place.rest

theorem Place.address_given (final : StateName) (place : Place) (read : Symbol) :
    (place.given final read).address = (place.state, read) := by
  unfold Place.given
  split <;> rfl

theorem address_ended (final state : StateName) (read : Symbol) (number : Nat) (held : Symbol)
    (rest : List Action) :
    (ended final state read number held rest).address = (state, read) := by
  fun_induction ended final state read number held rest with
  | case1 => rfl
  | case2 _ _ _ _ inductionHypothesis => exact inductionHypothesis
  | case3 => rfl

theorem Place.address_collapsed (final : StateName) (place : Place) (read : Symbol) :
    (place.collapsed final read).address = (place.state, read) :=
  address_ended final place.state read place.number read place.rest

/-! ## Pairs -/

section Pairs

variable {rule other : Place -> Symbol -> Rule} {given : List Place} {place : Place}

theorem pairs_cons (rule : Place -> Symbol -> Rule) (first : Place) (given : List Place) :
    pairs rule (first :: given) = Symbol.all.map (rule first) ++ pairs rule given := rfl

theorem mem_pairs (member : place ∈ given) (read : Symbol) :
    rule place read ∈ pairs rule given :=
  List.mem_flatMap.mpr ⟨place, member, List.mem_map_of_mem (Symbol.mem_all read)⟩

theorem length_pairs (rule : Place -> Symbol -> Rule) (given : List Place) :
    (pairs rule given).length = 2 * given.length := by
  induction given with
  | nil => rfl
  | cons place given inductionHypothesis =>
      have two : Symbol.all.length = 2 := rfl
      rw [pairs_cons, List.length_append, inductionHypothesis, List.length_map, List.length_cons]
      omega

/-- Where no two places have the same state, each finds its own pair. -/
theorem first?_pairs (addressed : forall place read,
      (rule place read).address = (place.state, read))
    (distinct : (given.map Place.state).Nodup) (member : place ∈ given) (read : Symbol) :
    Rule.first? (pairs rule given) (place.state, read) = some (rule place read) := by
  induction given with
  | nil => cases member
  | cons first given inductionHypothesis =>
      rw [List.map_cons, List.nodup_cons] at distinct
      rw [pairs_cons, Rule.first?_append]
      rcases List.mem_cons.mp member with same | later
      · rw [same, Rule.first?_pair first.state (rule first) (addressed first)]
        rfl
      · have elsewhere : forall own, own ∈ Symbol.all.map (rule first) ->
            own.state ≠ place.state := by
          intro own inside same
          rcases List.mem_map.mp inside with ⟨symbol, _, rfl⟩
          have state : (rule first symbol).state = first.state :=
            congrArg Prod.fst (addressed first symbol)
          rw [state] at same
          exact distinct.1 (same ▸ List.mem_map_of_mem later)
        rw [Rule.first?_eq_none_of_state elsewhere, Option.none_or]
        exact inductionHypothesis distinct.2 later

/-- Keeping rules by their state keeps the pair of a place or drops it. -/
theorem filter_pairs (addressed : forall place read,
      (rule place read).address = (place.state, read)) (keep : StateName -> Bool) :
    (pairs rule given).filter (fun own => keep own.state) =
      pairs rule (given.filter (fun place => keep place.state)) := by
  have states : forall place read, (rule place read).state = place.state :=
    fun place read => congrArg Prod.fst (addressed place read)
  induction given with
  | nil => rfl
  | cons first given inductionHypothesis =>
      rw [pairs_cons, List.filter_append, inductionHypothesis]
      cases kept : keep first.state <;> simp [pairs, Symbol.all, states, kept]

theorem forall₂_pairs {relation : Rule -> Rule -> Prop}
    (related : forall place, place ∈ given -> forall read,
      relation (rule place read) (other place read)) :
    List.Forall₂ relation (pairs rule given) (pairs other given) := by
  induction given with
  | nil => exact .nil
  | cons first given inductionHypothesis =>
      have here := related first List.mem_cons_self
      exact .cons (here .zero) (.cons (here .one) (inductionHypothesis (fun place member =>
        related place (List.mem_cons_of_mem _ member))))

end Pairs

/-! ## The states of places -/

/-- Behind the actions stand the implicit states, in order. -/
theorem states_behind (number : Nat) (actions : List Action) :
    (behind number actions).map Place.state =
      (List.range' number actions.length).map toString := by
  induction actions generalizing number with
  | nil => rfl
  | cons action rest inductionHypothesis =>
      rw [behind, List.map_cons, inductionHypothesis, List.length_cons, List.range'_succ,
        List.map_cons]

theorem exists_numeral_of_mem_behind {place : Place} {number : Nat} {actions : List Action}
    (member : place ∈ behind number actions) :
    Exists fun other : Nat => place.state = toString other := by
  have state := List.mem_map_of_mem (f := Place.state) member
  rw [states_behind] at state
  rcases List.mem_map.mp state with ⟨other, _, same⟩
  exact ⟨other, same.symm⟩

/-- An action leads from a place to the place behind it. -/
theorem next_mem_behind {state : StateName} {number other : Nat} {action : Action}
    {rest actions : List Action} (member : ⟨state, other, action :: rest⟩ ∈ behind number actions) :
    ⟨toString other, other + 1, rest⟩ ∈ behind number actions := by
  induction actions generalizing number with
  | nil => cases member
  | cons first actions inductionHypothesis =>
      rcases List.mem_cons.mp member with same | later
      · cases same
        exact List.mem_cons_of_mem _ List.mem_cons_self
      · exact List.mem_cons_of_mem _ (inductionHypothesis later)

theorem next_mem_places {start state : StateName} {number : Nat} {action : Action}
    {rest actions : List Action} (member : ⟨state, number, action :: rest⟩ ∈ places start actions) :
    ⟨toString number, number + 1, rest⟩ ∈ places start actions := by
  rcases List.mem_cons.mp member with same | later
  · cases same
    exact List.mem_cons_of_mem _ List.mem_cons_self
  · exact List.mem_cons_of_mem _ (next_mem_behind later)

theorem arrivals_sublist_behind (number : Nat) (actions : List Action) :
    (arrivals number actions).Sublist (behind number actions) := by
  induction actions generalizing number with
  | nil => exact .slnil
  | cons action rest inductionHypothesis =>
      cases action with
      | write symbol => exact (inductionHypothesis (number + 1)).cons _
      | move direction moves => exact (inductionHypothesis (number + 1)).cons_cons _

theorem stops_sublist_places (start : StateName) (actions : List Action) :
    (stops start actions).Sublist (places start actions) :=
  (arrivals_sublist_behind 0 actions).cons_cons _

theorem length_arrivals (number : Nat) (actions : List Action) :
    (arrivals number actions).length = actions.countP Action.isMove := by
  induction actions generalizing number with
  | nil => rfl
  | cons action rest inductionHypothesis =>
      cases action with
      | write symbol => exact inductionHypothesis (number + 1)
      | move direction moves =>
          rw [arrivals, List.length_cons, inductionHypothesis,
            List.countP_cons_of_pos (by rfl)]

theorem arrivals_subset_of_behind {place : Place} {number : Nat} {actions : List Action}
    (member : place ∈ behind number actions) :
    arrivals place.number place.rest ⊆ arrivals number actions := by
  induction actions generalizing number with
  | nil => cases member
  | cons action rest inductionHypothesis =>
      have later : arrivals (number + 1) rest ⊆ arrivals number (action :: rest) := by
        cases action with
        | write symbol => exact List.Subset.refl _
        | move direction moves => exact List.subset_cons_self _ _
      rcases List.mem_cons.mp member with same | further
      · rw [same]
        exact later
      · exact List.Subset.trans (inductionHypothesis further) later

/-- What a run from a place can still come to, a run from the start can come to. -/
theorem arrivals_subset {start : StateName} {place : Place} {actions : List Action}
    (member : place ∈ places start actions) :
    arrivals place.number place.rest ⊆ arrivals 0 actions := by
  rcases List.mem_cons.mp member with same | later
  · rw [same]
    exact List.Subset.refl _
  · exact arrivals_subset_of_behind later

/-- The states of a header that a straight text can do with: the start state goes on, and
no state that is named by the header is the name of an implicit one. -/
structure Apart (header : Header) : Prop where
  start_going : Not (header.start ∈ header.ends)
  start_named : forall number : Nat, header.start ≠ toString number
  ends_named : forall number : Nat, Not (toString number ∈ header.ends)

namespace Apart

variable {header : Header} {actions : List Action} {place : Place}

theorem nodup_states (apart : Apart header) (actions : List Action) :
    ((places header.start actions).map Place.state).Nodup := by
  rw [places, List.map_cons, states_behind, List.nodup_cons]
  constructor
  · intro member
    rcases List.mem_map.mp member with ⟨number, _, same⟩
    exact apart.start_named number same.symm
  · exact (List.nodup_range' 1).map (fun _ _ => Names.numeral_injective)

theorem going (apart : Apart header) (member : place ∈ places header.start actions) :
    Not (place.state ∈ header.ends) := by
  rcases List.mem_cons.mp member with same | later
  · rw [same]
    exact apart.start_going
  · rcases exists_numeral_of_mem_behind later with ⟨number, state⟩
    rw [state]
    exact apart.ends_named number

end Apart

/-! ## Collapsing -/

/-- The table that straight text is read into. -/
def readTable (header : Header) (actions : List Action) : Program :=
  ⟨header.start, header.ends, pairs (Place.given header.firstEnd) (places header.start actions)⟩

/-- The table that is left when its chains are collapsed. -/
def collapsedTable (header : Header) (actions : List Action) : Program :=
  ⟨header.start, header.ends,
    pairs (Place.collapsed header.firstEnd) (places header.start actions)⟩

/-- The table that is left when the rules of skipped places are dropped as well. -/
def compiledTable (header : Header) (actions : List Action) : Program :=
  ⟨header.start, header.ends, pairs (Place.collapsed header.firstEnd) (stops header.start actions)⟩

variable {header : Header} {actions : List Action}

theorem firstEnd_mem (header : Header) : header.firstEnd ∈ header.ends :=
  List.head_mem header.ends_ne_nil

/-- A rule that takes over the rule of a place goes on to the next move or to the end. -/
theorem leads_ended (apart : Apart header) {state : StateName} {number : Nat}
    {rest : List Action} (member : ⟨state, number, rest⟩ ∈ places header.start actions)
    (front : Rule) (held : Symbol) :
    Exists fun length : Nat =>
      Chain.Leads header.ends (readTable header actions).rules
        (Chain.takeOver front (Place.given header.firstEnd ⟨state, number, rest⟩ held)) length
        (ended header.firstEnd front.state front.read number held rest) := by
  -- The chain keeps the address it started from, so the rule in front stays the same while
  -- the place goes on.
  induction rest generalizing state number held with
  | nil =>
      refine ⟨0, .closed ?_⟩
      exact (Chain.isOpen_eq_false_iff _ _).mpr (fun _ => firstEnd_mem header)
  | cons action rest inductionHypothesis =>
      have next := next_mem_places member
      cases action with
      | move direction moves =>
          refine ⟨0, .closed ((Chain.isOpen_eq_false_iff _ _).mpr (fun stays => ?_))⟩
          have stay : direction = .stay := stays
          rw [stay] at moves
          cases moves
      | write symbol =>
          have found := first?_pairs (Place.address_given header.firstEnd)
            (apart.nodup_states actions) next symbol
          have opened : Chain.isOpen header.ends (Chain.takeOver front
              (Place.given header.firstEnd ⟨state, number, .write symbol :: rest⟩ held)) = true := by
            apply eq_true_of_ne_false
            intro shut
            exact apart.ends_named number ((Chain.isOpen_eq_false_iff _ _).mp shut rfl)
          rcases inductionHypothesis next symbol with ⟨length, leads⟩
          exact ⟨length + 1, .taken opened found leads⟩

/-- Collapsing leaves one step to the next move or to the end at each place. -/
theorem forall₂_leads (apart : Apart header) (actions : List Action) :
    List.Forall₂ (fun rule last => Exists fun length : Nat =>
      Chain.Leads header.ends (readTable header actions).rules rule length last)
      (readTable header actions).rules (collapsedTable header actions).rules := by
  apply forall₂_pairs
  intro place member read
  have leads := leads_ended apart member (place.given header.firstEnd read) read
  have address := place.address_given header.firstEnd read
  have state : (place.given header.firstEnd read).state = place.state :=
    congrArg Prod.fst address
  have symbol : (place.given header.firstEnd read).read = read := congrArg Prod.snd address
  rw [state, symbol] at leads
  exact leads

/-! ## Dropping the places that are skipped -/

theorem next_ended_mem {last state : StateName} {read held : Symbol} {number : Nat}
    {rest : List Action} (moves : (ended last state read number held rest).move.moves = true) :
    (ended last state read number held rest).next ∈ (arrivals number rest).map Place.state := by
  fun_induction ended last state read number held rest with
  | case1 => cases moves
  | case2 number held symbol rest inductionHypothesis => exact inductionHypothesis moves
  | case3 => exact List.mem_cons_self

/-- A table with the rules of all places of a text reaches the places behind its moves. -/
theorem reaches_arrivals {rules : List Rule} {start last state : StateName}
    {read held : Symbol} {number : Nat} {rest : List Action} {place : Place}
    (reached : Reachability.Reaches rules start state)
    (listed : ended last state read number held rest ∈ rules)
    (behindListed : forall later, later ∈ behind number rest -> forall symbol,
      later.collapsed last symbol ∈ rules)
    (member : place ∈ arrivals number rest) :
    Reachability.Reaches rules start place.state := by
  induction rest generalizing state read held number with
  | nil => cases member
  | cons action rest inductionHypothesis =>
      have further : forall later, later ∈ behind (number + 1) rest -> forall symbol,
          later.collapsed last symbol ∈ rules :=
        fun later inside => behindListed later (List.mem_cons_of_mem _ inside)
      cases action with
      | write symbol => exact inductionHypothesis reached listed further member
      | move direction moves =>
          have arrived : Reachability.Reaches rules start (toString number) :=
            .step listed moves reached
          rcases List.mem_cons.mp member with same | later
          · rw [same]
            exact arrived
          · exact inductionHypothesis arrived (behindListed _ List.mem_cons_self .zero) further later

theorem reaches_iff (header : Header) (actions : List Action) (state : StateName) :
    Reachability.Reaches (collapsedTable header actions).rules header.start state ↔
      state ∈ (stops header.start actions).map Place.state := by
  constructor
  · intro reached
    cases reached with
    | start => exact List.mem_cons_self
    | step member moves _ =>
        rcases List.mem_flatMap.mp member with ⟨place, inside, pair⟩
        rcases List.mem_map.mp pair with ⟨read, _, rfl⟩
        have later := List.map_subset Place.state (arrivals_subset inside) (next_ended_mem moves)
        exact List.mem_cons_of_mem _ later
  · intro member
    rcases List.mem_map.mp member with ⟨place, inside, rfl⟩
    rcases List.mem_cons.mp inside with same | later
    · rw [same]
      exact .start
    · have listed : forall {other : Place}, other ∈ places header.start actions ->
          forall symbol, other.collapsed header.firstEnd symbol ∈
            (collapsedTable header actions).rules := fun known symbol => mem_pairs known symbol
      exact reaches_arrivals .start (listed List.mem_cons_self .zero)
        (fun other known symbol => listed (List.mem_cons_of_mem _ known) symbol) later

/-- Exactly the places that a run comes to keep their rules. -/
theorem eliminate_collapsedTable (apart : Apart header) (actions : List Action) :
    Reachability.eliminate (collapsedTable header actions) = compiledTable header actions := by
  have distinct := apart.nodup_states actions
  have nodup : (places header.start actions).Nodup := .of_map _ distinct
  have sublist := stops_sublist_places header.start actions
  let keep := fun state : StateName =>
    (Reachability.reachable (collapsedTable header actions).rules header.start).contains state
  have kept : forall state, keep state = true ↔
      state ∈ (stops header.start actions).map Place.state := by
    intro state
    rw [Reachability.contains_reachable_iff, reaches_iff]
  have same : (places header.start actions).filter (fun place => keep place.state) =
      stops header.start actions := by
    -- Both are parts of the places in order, so the same members make them equal.
    apply (nodup.perm_iff_eq_of_sublist List.filter_sublist sublist).mp
    apply (List.perm_ext_iff_of_nodup (nodup.filter _) (sublist.nodup nodup)).mpr
    intro place
    rw [List.mem_filter, kept]
    constructor
    · rintro ⟨inside, state⟩
      rcases List.mem_map.mp state with ⟨other, stop, equal⟩
      rw [List.inj_on_of_nodup_map distinct inside (sublist.subset stop) equal.symm]
      exact stop
    · intro stop
      exact ⟨sublist.subset stop, List.mem_map_of_mem stop⟩
  apply congrArg (Program.mk header.start header.ends)
  rw [← same]
  exact filter_pairs (Place.address_collapsed header.firstEnd) keep

/-- The start and each move have a pair of rules. -/
theorem length_compiledTable (header : Header) (actions : List Action) :
    (compiledTable header actions).rules.length = 2 * (actions.countP Action.isMove + 1) := by
  have length := length_pairs (Place.collapsed header.firstEnd) (stops header.start actions)
  rw [stops, List.length_cons, length_arrivals] at length
  exact length

/-! ## Running -/

/-- A run from a place takes one step for each move that is still to come and one for the
end, and each step leaves the symbol that was written last. -/
theorem after?_ended {program : Program} {last : StateName} {number : Nat} {held : Symbol}
    {rest : List Action} {here : Configuration}
    (next : program.successor? here =
      some (here.apply (ended last here.state here.tape.focus number held rest)))
    (arrived : forall place, place ∈ arrivals number rest -> forall tape,
      program.successor? ⟨place.state, tape⟩ =
        some (Configuration.apply ⟨place.state, tape⟩ (place.collapsed last tape.focus))) :
    program.after? (rest.countP Action.isMove + 1) here =
      some ⟨last, rest.foldl Action.perform (here.tape.write held)⟩ := by
  induction rest generalizing here number held with
  | nil => exact Program.after?_one next
  | cons action rest inductionHypothesis =>
      cases action with
      -- The write of this action replaces the symbol held so far and takes no step.
      | write symbol => exact inductionHypothesis next arrived
      | move direction moves =>
          have first := arrived ⟨toString number, number + 1, rest⟩ List.mem_cons_self
            ((here.tape.write held).move direction)
          rw [List.countP_cons_of_pos (by rfl), Program.after?, next]
          exact inductionHypothesis first
            (fun place member => arrived place (List.mem_cons_of_mem _ member))

/-- The compiled table of a straight text halts in the first end state, a step behind the
last move, with the tape on which all actions were performed. -/
theorem after?_compiledTable (apart : Apart header) (actions : List Action) (tape : Tape) :
    (compiledTable header actions).after? (actions.countP Action.isMove + 1)
        ⟨header.start, tape⟩ =
      some ⟨header.firstEnd, actions.foldl Action.perform tape⟩ := by
  have sublist := stops_sublist_places header.start actions
  have distinct : ((stops header.start actions).map Place.state).Nodup :=
    (sublist.map Place.state).nodup (apart.nodup_states actions)
  have step : forall place, place ∈ stops header.start actions -> forall tape,
      (compiledTable header actions).successor? ⟨place.state, tape⟩ =
        some (Configuration.apply ⟨place.state, tape⟩
          (place.collapsed header.firstEnd tape.focus)) := by
    intro place member tape
    apply Program.successor?_of_first?
    · have outside := apart.going (sublist.subset member)
      simpa [Program.isEnd, compiledTable] using outside
    · exact first?_pairs (Place.address_collapsed header.firstEnd) distinct member tape.focus
  exact after?_ended (step _ List.mem_cons_self tape)
    (fun place member => step place (List.mem_cons_of_mem _ member))

end Straight
end BinaryTape
