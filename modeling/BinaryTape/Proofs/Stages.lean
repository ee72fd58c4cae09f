import BinaryTape.Proofs.Bindings

namespace BinaryTape

/-!
# Stages of a reading

A stage is a construct of a source together with the drafts before and after it.
The stages of a source are all that its reading adds to a program.  `Drafted` says
how a draft comes about: lines that are no program text change the registry, the
log and once the header, and every construct adds a stage.  What is known of a
draft is proved by induction on this relation, one case for each way to go on; and
because every beginning of a reading is a reading, it is known before every stage
as well.
-/

namespace Registry

/-- A declaration succeeds for a new name that the library knows. -/
theorem declare_eq_ok {registry grown : Registry} {library : Library} {name : String}
    (declared : registry.declare library name = .ok grown) :
    registry.get? name = none ∧ Exists fun program : Program =>
      library.load name = .ok program ∧
        grown.entries = registry.entries ++ [.ofModule (.declare name program)] := by
  unfold declare at declared
  cases known : registry.get? name with
  | some entry =>
      rw [known] at declared
      cases declared
  | none =>
      rw [known] at declared
      cases loaded : library.load name with
      | error error =>
          rw [loaded] at declared
          cases declared
      | ok program =>
          rw [loaded] at declared
          have same := Except.ok.inj declared
          exact ⟨rfl, program, rfl, by rw [← same]⟩

theorem get?_append_ofModule {registry grown : Registry} {name : String} {program : Program}
    (entries : grown.entries = registry.entries ++ [.ofModule (.declare name program)])
    (other : String) :
    grown.get? other =
      (registry.get? other).or
        (if name = other then some (.ofModule (.declare name program)) else none) := by
  unfold get?
  rw [entries, List.find?_append]
  by_cases same : name = other <;>
    simp [Module.Entry.ofModule, Module.declare, same]

theorem get?_advance (registry : Registry) (name other : String) :
    (registry.advance name).get? other =
      (registry.get? other).map
        (fun entry => if name = other then entry.advance else entry) := by
  unfold get? advance
  rw [List.find?_map]
  have sameNames : ((fun entry : Module.Entry => entry.declared.name == other) ∘
      fun entry => if entry.declared.name == name then entry.advance else entry) =
        fun entry => entry.declared.name == other := by
    funext entry
    simp only [Function.comp]
    split <;> rfl
  rw [sameNames]
  cases found : registry.entries.find? (fun entry => entry.declared.name == other) with
  | none => rfl
  | some entry =>
      have matching := List.find?_some found
      have called : entry.declared.name = other := eq_of_beq matching
      by_cases same : name = other
      · simp [called, same]
      · simp [called, same, Ne.symm same]

end Registry

namespace Source

/-! ## What a construct does to a draft -/

/-- The number of implicit states that a construct takes. -/
def Construct.implicits : Construct -> Nat
  | .jump _ => 0
  | _ => 1

/-- The state at which a draft goes on, given the next implicit one. -/
def Construct.continuation (implicit : StateName) : Construct -> StateName
  | .jump target => target
  | _ => implicit

/-- Whether a construct is a call of the module with this name. -/
def Construct.isCallOf (name : String) : Construct -> Bool
  | .call other _ => other == name
  | _ => false

theorem Construct.call_or_simple (construct : Construct) :
    (Exists fun name : String => Exists fun binding : String =>
      construct = .call name binding) ∨
    forall name binding, construct ≠ .call name binding := by
  cases construct with
  | call name binding => exact Or.inl ⟨name, binding, rfl⟩
  | move direction => exact Or.inr (fun _ _ impossible => nomatch impossible)
  | write symbol => exact Or.inr (fun _ _ impossible => nomatch impossible)
  | jump target => exact Or.inr (fun _ _ impossible => nomatch impossible)

/-- The registry after a construct: calls are counted. -/
def Construct.count (registry : Registry) : Construct -> Registry
  | .call name _ => registry.advance name
  | _ => registry

/-- The number of calls of a module. -/
def callsOf (name : String) (constructs : List Construct) : Nat :=
  constructs.countP (Construct.isCallOf name)

/-- The number of implicit states taken. -/
def implicitsOf : List Construct -> Nat
  | [] => 0
  | construct :: rest => construct.implicits + implicitsOf rest

theorem implicitsOf_append (front rest : List Construct) :
    implicitsOf (front ++ rest) = implicitsOf front + implicitsOf rest := by
  induction front with
  | nil => exact (Nat.zero_add _).symm
  | cons construct front inductionHypothesis =>
      simp only [List.cons_append, implicitsOf, inductionHypothesis, Nat.add_assoc]

/-- What a successful call adds to a draft. -/
theorem call_eq_ok {draft after : Draft} {name binding line : String}
    (called : draft.call name binding line = .ok after) :
    Exists fun entry : Module.Entry => Exists fun exits : List StateName =>
      Exists fun log : Array Log.Event =>
        draft.registry.get? name = some entry ∧
          Binding.exits entry.declared binding draft.implicitState = .ok exits ∧
          entry.declared.ends.length = exits.length ∧
          after =
            { draft.advance (Instance.rules entry.declared entry.scope draft.current exits) with
              log := log
              registry := draft.registry.advance name } := by
  unfold Draft.call at called
  cases found : draft.registry.get? name with
  | none =>
      rw [found] at called
      cases called
  | some entry =>
      rw [found] at called
      cases resolved : Binding.exits entry.declared binding draft.implicitState with
      | error error =>
          simp [resolved, bind, Except.bind] at called
      | ok exits =>
          by_cases lengths : entry.declared.ends.length = exits.length
          · simp only [resolved, bind, Except.bind, Module.Entry.instantiate, if_pos lengths,
              pure, Except.pure] at called
            exact ⟨entry, exits, _, rfl, resolved, lengths, (Except.ok.inj called).symm⟩
          · simp [resolved, bind, Except.bind, Module.Entry.instantiate, lengths] at called

/-- A construct and the drafts before and after it. -/
structure Stage where
  before : Draft
  construct : Construct
  after : Draft

namespace Stage

/-- The construct did take effect. -/
def Made (stage : Stage) : Prop :=
  Exists fun line : String => stage.construct.execute line stage.before = .ok stage.after

/-- The rules that were added. -/
def rules (stage : Stage) : List Rule :=
  stage.after.rules.toList.drop stage.before.rules.size

/-- What every construct does to a draft. -/
structure Effect (stage : Stage) : Prop where
  header_same : stage.after.header = stage.before.header
  current_eq :
    stage.after.current = stage.construct.continuation stage.before.implicitState
  implicits_eq :
    stage.after.nextImplicit = stage.before.nextImplicit + stage.construct.implicits
  registry_eq : stage.after.registry = stage.construct.count stage.before.registry
  rules_eq : stage.after.rules.toList = stage.before.rules.toList ++ stage.rules

private theorem rules_eq_of_append {stage : Stage} {added : List Rule}
    (appended : stage.after.rules = stage.before.rules ++ added) : stage.rules = added := by
  rw [rules, appended]
  simp

private theorem append_rules {stage : Stage} {added : List Rule}
    (appended : stage.after.rules = stage.before.rules ++ added) :
    stage.after.rules.toList = stage.before.rules.toList ++ stage.rules := by
  rw [rules_eq_of_append appended, appended]
  simp

theorem Made.effect {stage : Stage} (made : stage.Made) : stage.Effect := by
  rcases stage with ⟨before, construct, after⟩
  rcases made with ⟨line, executed⟩
  dsimp only at executed
  cases construct with
  | move direction =>
      cases executed
      exact ⟨rfl, rfl, rfl, rfl, append_rules rfl⟩
  | write symbol =>
      cases executed
      exact ⟨rfl, rfl, rfl, rfl, append_rules rfl⟩
  | jump target =>
      cases executed
      exact ⟨rfl, rfl, rfl, rfl, append_rules rfl⟩
  | call name binding =>
      rcases call_eq_ok executed with ⟨entry, exits, log, _, _, _, rfl⟩
      exact ⟨rfl, rfl, rfl, rfl, append_rules rfl⟩

variable {stage : Stage}

/-- A construct that takes an implicit state goes on there. -/
theorem Made.current_of_implicit (made : stage.Made)
    (implicit : stage.construct.implicits = 1) :
    stage.after.current = stage.before.implicitState := by
  rw [made.effect.current_eq]
  cases construct : stage.construct with
  | jump target =>
      rw [construct] at implicit
      cases implicit
  | move direction => rfl
  | write symbol => rfl
  | call name binding => rfl

/-! ## The rules of a stage -/

theorem Made.rules_move (made : stage.Made) {direction : Direction}
    (construct : stage.construct = .move direction) :
    stage.rules =
      Rule.moving stage.before.current stage.before.implicitState direction := by
  rcases made with ⟨line, executed⟩
  rw [construct] at executed
  exact rules_eq_of_append (congrArg Draft.rules (Except.ok.inj executed)).symm

theorem Made.rules_write (made : stage.Made) {symbol : Symbol}
    (construct : stage.construct = .write symbol) :
    stage.rules =
      Rule.writing stage.before.current stage.before.implicitState symbol := by
  rcases made with ⟨line, executed⟩
  rw [construct] at executed
  exact rules_eq_of_append (congrArg Draft.rules (Except.ok.inj executed)).symm

theorem Made.rules_jump (made : stage.Made) {target : StateName}
    (construct : stage.construct = .jump target) :
    stage.rules = Rule.handOver stage.before.current target := by
  rcases made with ⟨line, executed⟩
  rw [construct] at executed
  exact rules_eq_of_append (congrArg Draft.rules (Except.ok.inj executed)).symm

theorem Made.rules_call (made : stage.Made) {name binding : String}
    (construct : stage.construct = .call name binding) :
    Exists fun entry : Module.Entry => Exists fun exits : List StateName =>
      stage.before.registry.get? name = some entry ∧
        Binding.exits entry.declared binding stage.before.implicitState = .ok exits ∧
        entry.declared.ends.length = exits.length ∧
        stage.rules =
          Instance.rules entry.declared entry.scope stage.before.current exits := by
  rcases made with ⟨line, executed⟩
  rw [construct] at executed
  rcases call_eq_ok executed with ⟨entry, exits, log, found, resolved, lengths, after⟩
  exact ⟨entry, exits, found, resolved, lengths,
    rules_eq_of_append (congrArg Draft.rules after)⟩

/-- Without a call, all rules lead from the state before to the state behind. -/
theorem Made.rule_between (made : stage.Made)
    (simple : forall name binding, stage.construct ≠ .call name binding) {rule : Rule}
    (member : rule ∈ stage.rules) :
    rule.state = stage.before.current ∧ rule.next = stage.after.current := by
  rw [made.effect.current_eq]
  cases construct : stage.construct with
  | move direction =>
      rw [made.rules_move construct] at member
      rcases List.mem_map.mp member with ⟨symbol, _, rfl⟩
      exact ⟨rfl, rfl⟩
  | write symbol =>
      rw [made.rules_write construct] at member
      rcases List.mem_map.mp member with ⟨symbol, _, rfl⟩
      exact ⟨rfl, rfl⟩
  | jump target =>
      rw [made.rules_jump construct] at member
      rcases List.mem_map.mp member with ⟨symbol, _, rfl⟩
      exact ⟨rfl, rfl⟩
  | call name binding => exact absurd construct (simple name binding)

end Stage

/-! ## How drafts come about -/

def constructsOf (stages : List Stage) : List Construct :=
  stages.map (fun stage => stage.construct)

theorem constructsOf_append (front rest : List Stage) :
    constructsOf (front ++ rest) = constructsOf front ++ constructsOf rest :=
  List.map_append

/-- The state in which stages leave a draft that began in a start state. -/
def standing (start : StateName) (stages : List Stage) : StateName :=
  (stages.getLast?.map (fun stage => stage.after.current)).getD start

theorem standing_concat (start : StateName) (stages : List Stage) (stage : Stage) :
    standing start (stages ++ [stage]) = stage.after.current := by
  simp [standing]

/-- A draft that was reached through these stages. -/
inductive Drafted (library : Library) : List Stage -> Draft -> Prop where
  | empty : Drafted library [] .empty
  | noted {stages : List Stage} {draft : Draft} (log : Array Log.Event)
      (drafted : Drafted library stages draft) :
      Drafted library stages { draft with log := log }
  | declared {stages : List Stage} {draft : Draft} {name : String} {registry : Registry}
      (drafted : Drafted library stages draft)
      (added : draft.registry.declare library name = .ok registry) :
      Drafted library stages { draft with registry := registry }
  | headed {stages : List Stage} {draft : Draft} (header : Header)
      (drafted : Drafted library stages draft) (first : draft.header = none) :
      Drafted library stages (draft.setHeader header)
  | performed {stages : List Stage} {stage : Stage}
      (drafted : Drafted library stages stage.before)
      (headed : stage.before.header ≠ none) (written : stage.construct.WellWritten)
      (made : stage.Made) : Drafted library (stages ++ [stage]) stage.after

namespace Drafted

variable {library : Library} {stages : List Stage} {draft : Draft}

/-- There is no program text before the header. -/
theorem eq_nil_of_header (drafted : Drafted library stages draft)
    (headless : draft.header = none) : stages = [] := by
  induction drafted with
  | empty => rfl
  | noted _ _ inductionHypothesis => exact inductionHypothesis headless
  | declared _ _ inductionHypothesis => exact inductionHypothesis headless
  | headed header _ _ _ => cases headless
  | performed _ headed _ made _ =>
      rw [made.effect.header_same] at headless
      exact absurd headless headed

/-- All rules of a draft were added by its stages. -/
theorem rules_eq (drafted : Drafted library stages draft) :
    draft.rules.toList = stages.flatMap Stage.rules := by
  induction drafted with
  | empty => rfl
  | noted _ _ inductionHypothesis => exact inductionHypothesis
  | declared _ _ inductionHypothesis => exact inductionHypothesis
  | headed _ _ _ inductionHypothesis => exact inductionHypothesis
  | performed _ _ _ made inductionHypothesis =>
      rw [made.effect.rules_eq, inductionHypothesis, List.flatMap_append]
      simp

theorem nextImplicit_eq (drafted : Drafted library stages draft) :
    draft.nextImplicit = implicitsOf (constructsOf stages) := by
  induction drafted with
  | empty => rfl
  | noted _ _ inductionHypothesis => exact inductionHypothesis
  | declared _ _ inductionHypothesis => exact inductionHypothesis
  | headed _ _ _ inductionHypothesis => exact inductionHypothesis
  | performed _ _ _ made inductionHypothesis =>
      rw [made.effect.implicits_eq, inductionHypothesis, constructsOf_append,
        implicitsOf_append]
      rfl

/-- A draft is where its last stage left it, and at first in the start state. -/
theorem current_eq (drafted : Drafted library stages draft) {header : Header}
    (headed : draft.header = some header) :
    draft.current = standing header.start stages := by
  induction drafted with
  | empty => cases headed
  | noted _ _ inductionHypothesis => exact inductionHypothesis headed
  | declared _ _ inductionHypothesis => exact inductionHypothesis headed
  | headed other drafted first _ =>
      rw [eq_nil_of_header drafted first]
      exact congrArg Header.start (Option.some.inj headed)
  | performed _ _ _ _ _ => exact (standing_concat _ _ _).symm

/-- Every beginning of a reading is a reading. -/
theorem split (drafted : Drafted library stages draft) {earlier later : List Stage}
    {stage : Stage} (parts : stages = earlier ++ stage :: later) :
    Drafted library earlier stage.before ∧ stage.before.header = draft.header ∧
      stage.construct.WellWritten ∧ stage.Made := by
  induction drafted generalizing later with
  | empty => simp at parts
  | noted _ _ inductionHypothesis => exact inductionHypothesis parts
  | declared _ _ inductionHypothesis => exact inductionHypothesis parts
  | headed _ drafted first _ =>
      rw [eq_nil_of_header drafted first] at parts
      simp at parts
  | @performed stages last drafted headed written made inductionHypothesis =>
      rcases List.eq_nil_or_concat later with rfl | ⟨others, final, rfl⟩
      · rcases List.append_inj' parts rfl with ⟨rfl, sameLast⟩
        cases sameLast
        exact ⟨drafted, made.effect.header_same.symm, written, made⟩
      · have regrouped : stages ++ [last] = (earlier ++ stage :: others) ++ [final] := by
          rw [parts]
          simp
        rcases List.append_inj' regrouped rfl with ⟨sameFront, sameLast⟩
        rw [made.effect.header_same]
        exact inductionHypothesis sameFront

/-! ## Counting calls -/

/-- A registry holds the tables of its library and has counted these calls. -/
structure Counted (library : Library) (constructs : List Construct) (registry : Registry) :
    Prop where
  undeclared : forall name, registry.get? name = none -> callsOf name constructs = 0
  declared : forall name entry, registry.get? name = some entry ->
    Exists fun program : Program => library.load name = .ok program ∧
      entry = ⟨.declare name program, callsOf name constructs⟩

theorem Counted.declare {constructs : List Construct} {registry grown : Registry}
    {name : String} (counted : Counted library constructs registry)
    (added : registry.declare library name = .ok grown) :
    Counted library constructs grown := by
  rcases Registry.declare_eq_ok added with ⟨fresh, program, loaded, entries⟩
  have lookup := Registry.get?_append_ofModule entries
  constructor
  · intro other missing
    rw [lookup] at missing
    exact counted.undeclared other (Option.or_eq_none_iff.mp missing).1
  · intro other entry found
    rw [lookup] at found
    cases known : registry.get? other with
    | some old =>
        rw [known] at found
        exact counted.declared other entry (known.trans found)
    | none =>
        by_cases same : name = other
        · subst same
          have new : some (Module.Entry.ofModule (.declare name program)) = some entry := by
            simpa [known] using found
          refine ⟨program, loaded, ?_⟩
          rw [counted.undeclared name known]
          exact (Option.some.inj new).symm
        · simp [known, same] at found

/-- Only a call changes what is counted, and only for the module it names. -/
theorem Counted.step {constructs : List Construct} {registry : Registry}
    {construct : Construct} (counted : Counted library constructs registry)
    (known : forall name binding, construct = .call name binding ->
      registry.get? name ≠ none) :
    Counted library (constructs ++ [construct]) (construct.count registry) := by
  have appended : forall name, callsOf name (constructs ++ [construct]) =
      callsOf name constructs + if construct.isCallOf name then 1 else 0 := by
    intro name
    simp [callsOf, List.countP_append, List.countP_cons]
  have idle : construct.count registry = registry ->
      (forall name, construct.isCallOf name = false) ->
        Counted library (constructs ++ [construct]) (construct.count registry) := by
    intro same free
    have unchanged : forall name,
        callsOf name (constructs ++ [construct]) = callsOf name constructs := by
      intro name
      rw [appended, free]
      rfl
    rw [same]
    exact ⟨fun name missing => (unchanged name).trans (counted.undeclared name missing),
      fun name entry found => by
        rw [unchanged]
        exact counted.declared name entry found⟩
  cases construct with
  | move _ => exact idle rfl (fun _ => rfl)
  | write _ => exact idle rfl (fun _ => rfl)
  | jump _ => exact idle rfl (fun _ => rfl)
  | call called binding =>
      constructor
      · intro name missing
        rw [Construct.count, Registry.get?_advance, Option.map_eq_none_iff] at missing
        have other : called ≠ name := by
          intro same
          exact known called binding rfl (same ▸ missing)
        rw [appended, counted.undeclared name missing]
        simp [Construct.isCallOf, other]
      · intro name entry found
        rw [Construct.count, Registry.get?_advance] at found
        rcases Option.map_eq_some_iff.mp found with ⟨old, oldFound, rfl⟩
        rcases counted.declared name old oldFound with ⟨program, loaded, rfl⟩
        refine ⟨program, loaded, ?_⟩
        rw [appended]
        by_cases same : called = name <;>
          simp [same, Construct.isCallOf, Module.Entry.advance]

theorem counted (drafted : Drafted library stages draft) :
    Counted library (constructsOf stages) draft.registry := by
  induction drafted with
  | empty => exact ⟨fun _ _ => rfl, fun _ _ found => nomatch found⟩
  | noted _ _ inductionHypothesis => exact inductionHypothesis
  | declared _ added inductionHypothesis => exact inductionHypothesis.declare added
  | headed _ _ _ inductionHypothesis => exact inductionHypothesis
  | @performed stages stage _ _ _ made inductionHypothesis =>
      rw [made.effect.registry_eq, constructsOf_append]
      apply inductionHypothesis.step
      intro name binding called missing
      rcases made.rules_call called with ⟨entry, _, found, _⟩
      rw [found] at missing
      cases missing

/-- A call adds an instance of the library's table, numbered by the calls before it. -/
theorem called {stage : Stage} {name binding : String}
    (drafted : Drafted library stages stage.before) (made : stage.Made)
    (construct : stage.construct = .call name binding) :
    Exists fun program : Program => Exists fun exits : List StateName =>
      library.load name = .ok program ∧
        stage.before.registry.get? name =
          some ⟨.declare name program, callsOf name (constructsOf stages)⟩ ∧
        Binding.exits (.declare name program) binding stage.before.implicitState =
          .ok exits ∧
        exits.length = program.ends.length ∧
        stage.rules =
          Instance.rules (.declare name program)
            (Module.invocationScope (callsOf name (constructsOf stages)))
            stage.before.current exits := by
  rcases made.rules_call construct with ⟨entry, exits, found, resolved, lengths, rules⟩
  rcases drafted.counted.declared name entry found with ⟨program, loaded, rfl⟩
  refine ⟨program, exits, loaded, found, resolved, ?_, rules⟩
  rw [← lengths]
  exact List.length_map _

end Drafted

end Source

end BinaryTape
