import Mathlib.Algebra.GroupWithZero.Nat
import Mathlib.Data.List.Nodup
import BinaryTape.Proofs.Declarations

namespace BinaryTape

/-!
# Counting calls and rules

A source says in its text which modules it declares and which it calls.  Directives,
the header and program text may follow each other in any order, and a call is complete
at a blank, at a closing parenthesis, at a comment or at the end of its line.  None of
this shows in the result: a source that can be read has counted each of its calls once,
whatever is declared before or behind it, and each of its constructs has added two rules
and, if it is a call, a copy of the called table.
-/

namespace Registry

/-- Where no name is declared twice, every entry is found under its name. -/
theorem get?_of_mem {registry : Registry} (distinct : registry.names.Nodup)
    {entry : Module.Entry} (member : entry ∈ registry.entries) :
    registry.get? entry.declared.name = some entry := by
  cases found : registry.get? entry.declared.name with
  | none =>
      exact absurd (List.mem_map_of_mem member) (get?_eq_none_iff.mp found)
  | some other =>
      have inside : other ∈ registry.entries := List.mem_of_find?_eq_some found
      have matching := List.find?_some found
      have sameName : other.declared.name = entry.declared.name := eq_of_beq matching
      rw [List.inj_on_of_nodup_map distinct inside member sameName]

end Registry

namespace Source

/-- The names of the modules that a source declares, in order. -/
def declaredNames (text : String) : List String := (Text.lines text).filterMap declares?

/-- The number of rules that a construct copies from a module. -/
def Construct.copiedRules (library : Library) : Construct -> Nat
  | .call name _ =>
      match library.load name with
      | .ok table => table.rules.length
      | .error _ => 0
  | _ => 0

namespace Drafted

variable {library : Library} {made : List Stage} {draft : Draft}

/-- No name is declared twice. -/
theorem nodup_names (drafted : Drafted library made draft) : draft.registry.names.Nodup := by
  induction drafted with
  | empty => exact List.nodup_nil
  | noted _ _ inductionHypothesis => exact inductionHypothesis
  | declared _ added inductionHypothesis =>
      have fresh := Registry.get?_eq_none_iff.mp (Registry.declare_eq_ok added).1
      rw [Registry.names_of_declare added]
      exact List.nodup_append_comm.mp (List.nodup_cons.mpr ⟨fresh, inductionHypothesis⟩)
  | headed _ _ _ inductionHypothesis => exact inductionHypothesis
  | performed _ _ _ made inductionHypothesis =>
      rw [made.effect.registry_eq, Construct.names_count]
      exact inductionHypothesis

/-- What is registered: tables of the library under different names, with the calls
counted. -/
theorem entry_eq (drafted : Drafted library made draft) {entry : Module.Entry}
    (member : entry ∈ draft.registry.entries) :
    Exists fun table : Program => library.load entry.declared.name = .ok table ∧
      entry = ⟨.declare entry.declared.name table,
        callsOf entry.declared.name (constructsOf made)⟩ :=
  drafted.counted.declared _ _ (Registry.get?_of_mem drafted.nodup_names member)

/-- Every module that is called has been declared. -/
theorem mem_names_of_call (drafted : Drafted library made draft) {name binding : String}
    (called : .call name binding ∈ constructsOf made) : name ∈ draft.registry.names := by
  apply Decidable.byContradiction
  intro missing
  have uncalled := drafted.counted.undeclared name (Registry.get?_eq_none_iff.mpr missing)
  exact absurd (beq_self_eq_true name) (List.countP_eq_zero.mp uncalled _ called)

/-- The modules without a call are those that are reported. -/
theorem unused_eq (drafted : Drafted library made draft) :
    draft.registry.unused =
      draft.registry.names.filter (fun name => callsOf name (constructsOf made) == 0) := by
  rw [Registry.unused, Registry.names, List.filter_map]
  congr 1
  apply List.filter_congr
  intro entry member
  rcases drafted.entry_eq member with ⟨table, _, same⟩
  rw [same]
  rfl

/-- A stage adds two rules and those that it copies. -/
theorem length_stage_rules {stage : Stage} (drafted : Drafted library made stage.before)
    (step : stage.Made) : stage.rules.length = 2 + stage.construct.copiedRules library := by
  cases kind : stage.construct with
  | move direction =>
      rw [step.rules_move kind]
      rfl
  | write symbol =>
      rw [step.rules_write kind]
      rfl
  | jump target =>
      rw [step.rules_jump kind]
      rfl
  | call name binding =>
      rcases drafted.called step kind with ⟨table, exits, loaded, _, _, _, rules⟩
      simp only [rules, Construct.copiedRules, loaded, Instance.rules, Module.declare,
        List.length_append, List.length_map]
      rfl

/-- The rules of all stages: two for each construct, and the copies. -/
theorem length_rules (drafted : Drafted library made draft) :
    (made.flatMap Stage.rules).length =
      2 * made.length + ((constructsOf made).map (Construct.copiedRules library)).sum := by
  induction drafted with
  | empty => rfl
  | noted _ _ inductionHypothesis => exact inductionHypothesis
  | declared _ _ inductionHypothesis => exact inductionHypothesis
  | headed _ _ _ inductionHypothesis => exact inductionHypothesis
  | @performed made stage drafted _ _ step inductionHypothesis =>
      have added := drafted.length_stage_rules step
      simp only [constructsOf_append, List.flatMap_append, List.flatMap_singleton,
        List.length_append, List.map_append, List.sum_append, inductionHypothesis, added]
      simp only [constructsOf, List.map_cons, List.map_nil, List.sum_singleton,
        List.length_singleton]
      omega

end Drafted

/--
Counters and reports are exact.  A source that can be read registers the modules that its
directives name, in their order, and no two of them have the same name.  The entry of each
holds its table and the number of constructs that call it, and every call is a call of one
of them.  There are two rules for each construct and two at the end, and for each call as
many again as the called table has; and the modules reported as unused are those that no
construct calls, in the order of their declarations.
-/
theorem calls_counted_exactly {library : Library} {text : String} {program : Program}
    {registry : Registry} (parsed : parse library text = .ok (program, registry)) :
    registry.names = declaredNames text ∧ (declaredNames text).Nodup ∧
      (forall entry, entry ∈ registry.entries -> Exists fun table : Program =>
        library.load entry.declared.name = .ok table ∧
          entry = ⟨.declare entry.declared.name table,
            callsOf entry.declared.name (constructs text)⟩) ∧
      (forall name binding, .call name binding ∈ constructs text ->
        name ∈ declaredNames text) ∧
      program.rules.length =
        2 * ((constructs text).length + 1) +
          ((constructs text).map (Construct.copiedRules library)).sum ∧
      registry.unused =
        (declaredNames text).filter (fun name => callsOf name (constructs text) == 0) := by
  rcases readAll_of_parse parsed with ⟨last, read, _, rfl⟩
  rcases drafted_of_parse parsed with ⟨_, header, _, _, _, items, shape⟩
  have drafted : Drafted library (stages library text) last :=
    (Drafted.empty.readLines read).1
  have names : last.registry.names = declaredNames text := names_of_readLines read
  rw [← items, ← names]
  refine ⟨rfl, drafted.nodup_names, fun _ => drafted.entry_eq,
    fun _ _ => drafted.mem_names_of_call, ?_, drafted.unused_eq⟩
  have closing : forall origin destination, (Rule.handOver origin destination).length = 2 :=
    fun _ _ => rfl
  have counted : (constructsOf (stages library text)).length = (stages library text).length :=
    List.length_map _
  rw [shape, List.length_append, closing, drafted.length_rules, counted]
  omega

/-- Three tables, of which only the first has a rule. -/
def threeTables : Library :=
  .ofTexts [("m", "s e\ns 0 e 1 >\n"), ("n", "s e f\n"), ("u", "s e\n")]

/-- A source that declares its modules around its header.  Of two of them there are calls: at
a comment, at a blank, with a binding and at the end of a line. -/
def scatteredSource : String := "!module m\n!module u\nA B\nm# c\n!module n\nm n(f:A)x: m\n"

theorem calls_counted_exactly_around_header :
    Exists fun program : Program => Exists fun registry : Registry =>
      parse threeTables scatteredSource = .ok (program, registry) ∧
        registry.names = ["m", "u", "n"] ∧ registry.unused = ["u"] ∧
        program.rules.length = 2 * (5 + 1) + (1 + 1 + 0 + 0 + 1) := by
  have readable : (parse threeTables scatteredSource).toOption.isSome = true := by
    decide +kernel
  have items : constructs scatteredSource =
      [.call "m" "", .call "m" "", .call "n" "f:A", .jump "x", .call "m" ""] := by
    decide +kernel
  have declared : declaredNames scatteredSource = ["m", "u", "n"] := by
    decide +kernel
  cases parsed : parse threeTables scatteredSource with
  | error error =>
      rw [parsed] at readable
      cases readable
  | ok result =>
      rcases calls_counted_exactly parsed with ⟨names, _, _, _, rules, unused⟩
      rw [declared] at names unused
      rw [items] at rules unused
      exact ⟨result.1, result.2, rfl, names, unused, rules⟩

end Source

end BinaryTape
