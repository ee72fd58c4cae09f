import BinaryTape.Proofs.Passes
import BinaryTape.Proofs.Readings

namespace BinaryTape

/-!
# Declarations of modules

Which modules a source declares is known from its lines alone.  A declaration
extends the registry and nothing else, and the registry is looked at only when a
module is called or declared again.  Let a name be left out of sight, in the
registry, in a draft and in the list of unused modules.  Every step of the reader
that neither calls nor declares the module of that name does the same to what is
left in sight, whether the module is there or not, and it fails with the same
error.  So does a compilation as a whole.
-/

/-- Results that look alike are the same error, or values that look alike. -/
theorem error_or_ok_of_map_eq {view : α -> γ} {one other : Except ε α}
    (same : one.map view = other.map view) :
    (Exists fun error : ε => one = .error error ∧ other = .error error) ∨
      Exists fun value : α => Exists fun otherValue : α =>
        one = .ok value ∧ other = .ok otherValue ∧ view value = view otherValue := by
  cases one with
  | error error =>
      cases other with
      | error otherError =>
          cases same
          exact Or.inl ⟨error, rfl, rfl⟩
      | ok value => cases same
  | ok value =>
      cases other with
      | error error => cases same
      | ok otherValue => exact Or.inr ⟨value, otherValue, rfl, rfl, Except.ok.inj same⟩

/-! ## Registries without one name -/

namespace Registry

/-- The declared names, in order. -/
def names (registry : Registry) : List String :=
  registry.entries.map (fun entry => entry.declared.name)

/-- A registry with the module of one name left out of sight. -/
def without (name : String) (registry : Registry) : Registry :=
  ⟨registry.entries.filter (fun entry => entry.declared.name != name)⟩

theorem get?_eq_none_iff {registry : Registry} {name : String} :
    registry.get? name = none ↔ Not (name ∈ registry.names) := by
  simp [get?, names]

@[simp] theorem names_advance (registry : Registry) (name : String) :
    (registry.advance name).names = registry.names := by
  simp only [names, advance, List.map_map]
  apply List.map_congr_left
  intro entry _
  simp only [Function.comp]
  split <;> rfl

theorem names_of_declare {registry grown : Registry} {library : Library} {name : String}
    (declared : registry.declare library name = .ok grown) :
    grown.names = registry.names ++ [name] := by
  rcases declare_eq_ok declared with ⟨_, program, _, entries⟩
  simp [names, entries, Module.Entry.ofModule, Module.declare]

theorem declare_of_not_mem {registry : Registry} {library : Library} {name : String}
    {program : Program} (fresh : Not (name ∈ registry.names))
    (loaded : library.load name = .ok program) :
    registry.declare library name =
      .ok ⟨registry.entries ++ [.ofModule (.declare name program)]⟩ := by
  simp only [declare, get?_eq_none_iff.mpr fresh, loaded]
  rfl

theorem get?_without {name other : String} (different : other ≠ name) (registry : Registry) :
    (registry.without name).get? other = registry.get? other := by
  unfold get? without
  rw [List.find?_filter]
  congr 1
  funext entry
  by_cases same : entry.declared.name = other
  · simp [same, different]
  · simp [same]

theorem advance_without (name other : String) (registry : Registry) :
    (registry.advance other).without name = (registry.without name).advance other := by
  simp only [advance, without, List.filter_map]
  congr 3
  funext entry
  simp only [Function.comp]
  split <;> rfl

theorem unused_without (name : String) (registry : Registry) :
    (registry.without name).unused = registry.unused.filter (fun other => other != name) := by
  simp only [unused, without, List.filter_map, List.filter_filter]
  congr 2
  funext entry
  exact Bool.and_comm _ _

/-- The declaration of a module is not seen without its name. -/
theorem without_of_declare {registry grown : Registry} {library : Library} {name : String}
    (declared : registry.declare library name = .ok grown) :
    grown.without name = registry.without name := by
  rcases declare_eq_ok declared with ⟨_, program, _, entries⟩
  simp [without, entries, Module.Entry.ofModule, Module.declare]

/-- All other declarations are seen alike. -/
theorem declare_without {name other : String} (different : other ≠ name)
    {first second : Library} (agree : first.load other = second.load other)
    {registry host : Registry} (same : registry.without name = host.without name) :
    (registry.declare first other).map (without name) =
      (host.declare second other).map (without name) := by
  have found : registry.get? other = host.get? other := by
    rw [← get?_without different registry, same, get?_without different]
  unfold declare
  rw [found, agree]
  cases host.get? other with
  | some entry => rfl
  | none =>
      cases second.load other with
      | error error => rfl
      | ok program =>
          have entries : registry.entries.filter (fun entry => entry.declared.name != name) =
              host.entries.filter (fun entry => entry.declared.name != name) :=
            congrArg Registry.entries same
          simp [bind, Except.bind, pure, Except.pure, Except.map, without, entries]

end Registry

namespace Source

/-- The name of the module that a line declares. -/
def declares? (line : String) : Option String :=
  match line.toList with
  | '!' :: directive =>
      match Text.words (String.ofList directive) with
      | "module" :: name :: _ => some name
      | _ => none
  | _ => none

/-! ## What lines do to the registry -/

/-- A line that declares a module extends the registry, or fails. -/
theorem readLine_of_declares {line name : String} (declared : declares? line = some name)
    (library : Library) (draft : Draft) :
    isSignificant line = false ∧ Exists fun log : Array Log.Event =>
      readLine library line draft =
        match draft.registry.declare library name with
        | .ok registry => .done { draft with registry := registry, log := log }
        | .error error => .failed { draft with log := log } error := by
  unfold declares? at declared
  split at declared
  · rename_i directive characters
    refine ⟨by simp [isSignificant, characters], ?_⟩
    have mark : Text.isWhiteSpace '!' = false := by decide
    have filled : Text.isBlankText line = false := by
      simp [Text.isBlankText, characters, mark]
    rcases foldl_note (draft.declarationEvents library name) draft with ⟨log, noted⟩
    refine ⟨log, ?_⟩
    split at declared
    · rename_i words
      cases declared
      simp only [readLine, filled, characters, readDirective, words, noted]
      rfl
    · cases declared
  · cases declared

/-- A line that neither counts nor declares a module changes the log at most; whether it
fails is known from the line. -/
theorem readLine_of_idle {line : String} (insignificant : isSignificant line = false)
    (idle : declares? line = none) :
    Exists fun failure : Option Error => forall (library : Library) (draft : Draft),
      Exists fun log : Array Log.Event =>
        readLine library line draft = ⟨{ draft with log := log }, failure⟩ := by
  cases blank : Text.isBlankText line with
  | true =>
      refine ⟨none, fun library draft => ⟨draft.log, ?_⟩⟩
      simp [readLine, blank, Reading.done]
  | false =>
      cases characters : line.toList with
      | nil => simp [Text.isBlankText, characters] at blank
      | cons first rest =>
          have marks : first = '#' ∨ first = '!' := by
            apply Decidable.or_iff_not_imp_left.mpr
            simpa [isSignificant, blank, characters] using insignificant
          rcases marks with rfl | rfl
          · refine ⟨none, fun library draft => ⟨draft.log, ?_⟩⟩
            simp [readLine, blank, characters, Reading.done]
          · simp only [readLine, blank, characters, Bool.false_eq_true, if_false, readDirective]
            simp only [declares?, characters] at idle
            split at idle
            · cases idle
            · rename_i unnamed
              split
              · exact ⟨_, fun _ draft => ⟨draft.log, rfl⟩⟩
              · rename_i words
                exact absurd words (unnamed _ _)
              · exact ⟨none, fun _ draft => ⟨_, rfl⟩⟩

theorem declares?_eq_none {line : String} (significant : isSignificant line = true) :
    declares? line = none := by
  cases declared : declares? line with
  | none => rfl
  | some name =>
      have insignificant := (readLine_of_declares declared (Library.ofTexts []) .empty).1
      rw [significant] at insignificant
      cases insignificant

/-- The kinds of lines. -/
theorem declares_or_idle_or_significant (line : String) :
    (Exists fun name : String => declares? line = some name) ∨
      (isSignificant line = false ∧ declares? line = none) ∨ isSignificant line = true := by
  cases declares? line with
  | some name => exact Or.inl ⟨name, rfl⟩
  | none =>
      cases isSignificant line with
      | false => exact Or.inr (Or.inl ⟨rfl, rfl⟩)
      | true => exact Or.inr (Or.inr rfl)

@[simp] theorem Construct.names_count (construct : Construct) (registry : Registry) :
    (construct.count registry).names = registry.names := by
  cases construct <;> simp [Construct.count]

theorem names_of_executeAll {line : String} {items : List Construct} {draft after : Draft}
    (executed : executeAll line items draft = .done after) :
    after.registry.names = draft.registry.names := by
  induction items generalizing draft with
  | nil =>
      cases executed
      rfl
  | cons construct rest inductionHypothesis =>
      rw [executeAll] at executed
      cases result : construct.execute line draft with
      | error error =>
          rw [result] at executed
          cases executed
      | ok next =>
          rw [result] at executed
          have step : Stage.Made ⟨draft, construct, next⟩ := ⟨line, result⟩
          rw [inductionHypothesis executed, step.effect.registry_eq, Construct.names_count]

/-- A line that was read has declared what it declares. -/
theorem names_of_readLine {library : Library} {line : String} {draft after : Draft}
    (read : readLine library line draft = ⟨after, none⟩) :
    after.registry.names = draft.registry.names ++ (declares? line).toList := by
  rcases declares_or_idle_or_significant line with ⟨name, declared⟩ | ⟨insignificant, idle⟩ |
    significant
  · rcases readLine_of_declares declared library draft with ⟨_, log, outcome⟩
    rw [outcome] at read
    cases added : draft.registry.declare library name with
    | error error =>
        rw [added] at read
        cases read
    | ok registry =>
        rw [added] at read
        cases read
        rw [declared]
        exact Registry.names_of_declare added
  · rcases readLine_of_idle insignificant idle with ⟨failure, outcome⟩
    rcases outcome library draft with ⟨log, same⟩
    rw [same] at read
    cases read
    rw [idle]
    exact (List.append_nil _).symm
  · rw [declares?_eq_none significant, Option.toList_none, List.append_nil]
    rw [readLine_of_significant significant] at read
    cases header : draft.header with
    | none =>
        simp only [header, readHeader] at read
        split at read
        · cases read
          rfl
        · cases read
    | some found =>
        rw [header] at read
        exact names_of_executeAll (perform_eq_done read)

/-- Lines that were read have declared what they declare, in order. -/
theorem names_of_readLines {library : Library} {lines : List String} {draft last : Draft}
    (read : readLines library lines draft = ⟨last, none⟩) :
    last.registry.names = draft.registry.names ++ lines.filterMap declares? := by
  induction lines generalizing draft with
  | nil =>
      cases read
      exact (List.append_nil _).symm
  | cons line lines inductionHypothesis =>
      rw [readLines] at read
      cases lineRead : readLine library line draft with
      | mk after failure =>
          rw [lineRead] at read
          cases failure with
          | some error => cases read
          | none =>
              rw [inductionHypothesis read, names_of_readLine lineRead, List.append_assoc]
              cases declared : declares? line <;> simp [declared]

/-! ## Drafts without one name -/

/-- What can be seen of a draft without the module of one name and without the log. -/
def Draft.without (name : String) (draft : Draft) : Draft :=
  { draft with registry := draft.registry.without name, log := #[] }

/-- What can be seen of a reading without the module of one name and without the log. -/
def Reading.without (name : String) (reading : Reading) : Reading :=
  ⟨reading.draft.without name, reading.failure⟩

variable {name : String} {draft other : Draft}

/-- Readings that look alike have failed with the same error, or are both done. -/
theorem failed_or_done_of_without {reading otherReading : Reading}
    (same : reading.without name = otherReading.without name) :
    Exists fun draft : Draft => Exists fun other : Draft =>
      draft.without name = other.without name ∧
        ((Exists fun error : Error =>
            reading = .failed draft error ∧ otherReading = .failed other error) ∨
          (reading = .done draft ∧ otherReading = .done other)) := by
  rcases reading with ⟨draft, failure⟩
  rcases otherReading with ⟨other, otherFailure⟩
  have drafts : draft.without name = other.without name := congrArg Reading.draft same
  have failures : failure = otherFailure := congrArg Reading.failure same
  subst failures
  refine ⟨draft, other, drafts, ?_⟩
  cases failure with
  | some error => exact Or.inl ⟨error, rfl, rfl⟩
  | none => exact Or.inr ⟨rfl, rfl⟩

/-- Calls of other modules do not see the name. -/
theorem call_without {called binding line : String} (different : called ≠ name)
    (draft : Draft) :
    ((draft.without name).call called binding line).map (Draft.without name) =
      (draft.call called binding line).map (Draft.without name) := by
  have found : (draft.without name).registry.get? called = draft.registry.get? called :=
    Registry.get?_without different draft.registry
  have hidden : ((draft.without name).registry.advance called).without name =
      (draft.registry.advance called).without name := by
    rw [Registry.advance_without, Registry.advance_without]
    simp [Draft.without, Registry.without]
  unfold Draft.call
  rw [found]
  cases draft.registry.get? called with
  | none => rfl
  | some entry =>
      -- A call reads the state and the counter of the draft, which are both in sight.
      have exits : Binding.exits entry.declared binding (draft.without name).implicitState =
          Binding.exits entry.declared binding draft.implicitState := rfl
      have made : forall exits, entry.instantiate (draft.without name).current exits =
          entry.instantiate draft.current exits := fun _ => rfl
      simp only [exits, made]
      cases Binding.exits entry.declared binding draft.implicitState with
      | error error => rfl
      | ok exits =>
          simp only [bind, Except.bind]
          cases entry.instantiate draft.current exits with
          | error error => rfl
          | ok both =>
              exact congrArg (fun registry : Registry => Except.ok
                { (draft.advance both.1).without name with registry := registry }) hidden

/-- Constructs that do not call the module do not see its name. -/
theorem execute_without {construct : Construct} (free : construct.isCallOf name = false)
    (same : draft.without name = other.without name) (line : String) :
    (construct.execute line draft).map (Draft.without name) =
      (construct.execute line other).map (Draft.without name) := by
  cases construct with
  | move direction =>
      exact congrArg (fun seen : Draft => Except.ok (seen.moveHead direction)) same
  | write symbol => exact congrArg (fun seen : Draft => Except.ok (seen.writeSymbol symbol)) same
  | jump target => exact congrArg (fun seen : Draft => Except.ok (seen.jump target)) same
  | call called binding =>
      have different : called ≠ name := by simpa [Construct.isCallOf] using free
      calc (draft.call called binding line).map (Draft.without name)
          = ((draft.without name).call called binding line).map (Draft.without name) :=
            (call_without different draft).symm
        _ = ((other.without name).call called binding line).map (Draft.without name) := by
            rw [same]
        _ = (other.call called binding line).map (Draft.without name) :=
            call_without different other

theorem executeAll_without {items : List Construct}
    (free : forall construct, construct ∈ items -> construct.isCallOf name = false)
    (same : draft.without name = other.without name) (line : String) :
    (executeAll line items draft).without name =
      (executeAll line items other).without name := by
  induction items generalizing draft other with
  | nil => exact congrArg Reading.done same
  | cons construct rest inductionHypothesis =>
      have step := execute_without (free construct List.mem_cons_self) same line
      rw [executeAll, executeAll]
      rcases error_or_ok_of_map_eq step with ⟨error, failed, otherFailed⟩ |
        ⟨after, otherAfter, executed, otherExecuted, alike⟩
      · rw [failed, otherFailed]
        exact congrArg (Reading.failed · error) same
      · rw [executed, otherExecuted]
        exact inductionHypothesis
          (fun item member => free item (List.mem_cons_of_mem _ member)) alike

theorem perform_without {result : Cut}
    (free : forall construct, construct ∈ result.constructs -> construct.isCallOf name = false)
    (same : draft.without name = other.without name) (line : String) :
    (perform line result draft).without name = (perform line result other).without name := by
  have orFault : forall reading : Reading,
      (reading.orFault line result.fault).without name =
        (reading.without name).orFault line result.fault := by
    intro reading
    cases failure : reading.failure <;> cases fault : result.fault <;>
      simp [Reading.orFault, Reading.without, Reading.failed, failure]
  unfold perform
  rw [orFault, orFault, executeAll_without free same]

variable {first second : Library} {line : String}

/-- Lines that neither declare nor call the module do not see its name. -/
theorem readLine_without
    (agree : forall called, called ≠ name -> first.load called = second.load called)
    (elsewhere : declares? line ≠ some name)
    (free : isSignificant line = true -> draft.header ≠ none ->
      forall construct, construct ∈ lineConstructs line -> construct.isCallOf name = false)
    (same : draft.without name = other.without name) :
    (readLine first line draft).without name = (readLine second line other).without name := by
  have headers : draft.header = other.header := by
    simpa only [Draft.without] using congrArg Draft.header same
  have registries : draft.registry.without name = other.registry.without name :=
    congrArg Draft.registry same
  rcases declares_or_idle_or_significant line with ⟨declared, declares⟩ |
    ⟨insignificant, idle⟩ | significant
  · have different : declared ≠ name := fun equal => elsewhere (equal ▸ declares)
    rcases readLine_of_declares declares first draft with ⟨_, log, outcome⟩
    rcases readLine_of_declares declares second other with ⟨_, otherLog, otherOutcome⟩
    have step := Registry.declare_without different (agree declared different) registries
    rw [outcome, otherOutcome]
    rcases error_or_ok_of_map_eq step with ⟨error, failed, otherFailed⟩ |
      ⟨registry, otherRegistry, added, otherAdded, grown⟩
    · rw [failed, otherFailed]
      exact congrArg (Reading.failed · error) same
    · rw [added, otherAdded]
      exact congrArg₂ (fun (seen : Draft) (visible : Registry) =>
        Reading.done { seen with registry := visible }) same grown
  · rcases readLine_of_idle insignificant idle with ⟨failure, outcome⟩
    rcases outcome first draft with ⟨log, read⟩
    rcases outcome second other with ⟨otherLog, otherRead⟩
    rw [read, otherRead]
    exact congrArg (Reading.mk · failure) same
  · rw [readLine_of_significant significant, readLine_of_significant significant, ← headers]
    cases header : draft.header with
    | none =>
        simp only [readHeader]
        split
        · rename_i found _
          exact congrArg (fun seen : Draft =>
            Reading.done { seen with header := some found, current := found.start }) same
        · exact congrArg (Reading.failed · _) same
    | some found =>
        apply perform_without _ same
        apply free significant
        rw [header]
        exact Option.some_ne_none found

/-! ## Lines without one name -/

theorem readLines_append (library : Library) (before behind : List String) (draft : Draft) :
    readLines library (before ++ behind) draft =
      match readLines library before draft with
      | ⟨after, none⟩ => readLines library behind after
      | reading => reading := by
  induction before generalizing draft with
  | nil => rfl
  | cons line before inductionHypothesis =>
      rw [List.cons_append, readLines, readLines]
      cases readLine library line draft with
      | mk after failure =>
          cases failure with
          | none => exact inductionHypothesis after
          | some error => rfl

theorem mem_bodyOf_of_left {header : Option Header} {before behind : List String}
    {text : String} (member : text ∈ bodyOf header before) :
    text ∈ bodyOf header (before ++ behind) := by
  cases header with
  | some found =>
      rw [bodyOf, List.filter_append]
      exact List.mem_append_left _ member
  | none =>
      rw [bodyOf, List.filter_append]
      rw [bodyOf] at member
      cases significant : before.filter isSignificant with
      | nil =>
          rw [significant] at member
          cases member
      | cons line others =>
          rw [significant] at member
          exact List.mem_append_left _ member

/-- Program text behind lines that were read is program text of the whole. -/
theorem mem_bodyOf_append {header : Option Header} {before behind : List String} {text : String}
    (member : text ∈ bodyOf (header.or (headerOf? before)) behind) :
    text ∈ bodyOf header (before ++ behind) := by
  cases header with
  | some found =>
      rw [Option.some_or, bodyOf] at member
      rw [bodyOf, List.filter_append]
      exact List.mem_append_right _ member
  | none =>
      rw [Option.none_or] at member
      rw [bodyOf, List.filter_append]
      cases significant : before.filter isSignificant with
      | nil => simpa [headerOf?, significant, bodyOf] using member
      | cons line others =>
          apply List.mem_append_right
          cases found : headerOf? before with
          | none =>
              rw [found] at member
              exact List.mem_of_mem_tail member
          | some header =>
              rw [found] at member
              exact member

/-- Lines that neither declare nor call the module do not see its name. -/
theorem readLines_without {made : List Stage} {lines : List String}
    (drafted : Drafted first made draft)
    (agree : forall called, called ≠ name -> first.load called = second.load called)
    (elsewhere : forall line, line ∈ lines -> declares? line ≠ some name)
    (free : forall text, text ∈ bodyOf draft.header lines ->
      forall construct, construct ∈ lineConstructs text -> construct.isCallOf name = false)
    (same : draft.without name = other.without name) :
    (readLines first lines draft).without name =
      (readLines second lines other).without name := by
  induction lines generalizing made draft other with
  | nil => exact congrArg Reading.done same
  | cons line lines inductionHypothesis =>
      have here : isSignificant line = true -> draft.header ≠ none ->
          forall construct, construct ∈ lineConstructs line ->
            construct.isCallOf name = false := by
        intro significant headed
        apply free line
        cases header : draft.header with
        | none => exact absurd header headed
        | some found => simp [bodyOf, significant]
      have step := readLine_without agree (elsewhere line List.mem_cons_self) here same
      rw [readLines, readLines]
      rcases failed_or_done_of_without step with
        ⟨after, otherAfter, alike, ⟨error, read, otherRead⟩ | ⟨read, otherRead⟩⟩
      · rw [read, otherRead]
        exact congrArg (Reading.failed · error) alike
      · have single : readLines first [line] draft = .done after := by
          rw [readLines, read]
          rfl
        rcases drafted.readLines single with ⟨extended, header, _⟩
        rw [read, otherRead]
        apply inductionHypothesis extended
        · exact fun other member => elsewhere other (List.mem_cons_of_mem _ member)
        · rw [header]
          exact fun text member => free text (mem_bodyOf_append member)
        · exact alike

/-- One more declaration of a module that is not called is not seen without its name. -/
theorem readLines_declaration {before behind : List String} {table : Program}
    (agree : forall called, called ≠ name -> first.load called = second.load called)
    (loaded : second.load name = .ok table)
    (declared : declares? line = some name)
    (elsewhere : forall other, other ∈ before ++ behind -> declares? other ≠ some name)
    (free : forall text, text ∈ bodyOf none (before ++ behind) ->
      forall construct, construct ∈ lineConstructs text -> construct.isCallOf name = false) :
    (readLines first (before ++ behind) .empty).without name =
      (readLines second (before ++ line :: behind) .empty).without name := by
  have front : (readLines first before .empty).without name =
      (readLines second before .empty).without name := by
    apply readLines_without .empty agree
    · exact fun other member => elsewhere other (List.mem_append_left _ member)
    · exact fun text member => free text (mem_bodyOf_of_left member)
    · rfl
  rw [readLines_append, readLines_append]
  rcases failed_or_done_of_without front with
    ⟨after, otherAfter, alike, ⟨error, read, otherRead⟩ | ⟨read, otherRead⟩⟩
  · rw [read, otherRead]
    exact congrArg (Reading.failed · error) alike
  · -- The name is new here, so the declaration succeeds, and the drafts still look alike.
    have fresh : Not (name ∈ otherAfter.registry.names) := by
      rw [names_of_readLines otherRead]
      intro member
      rcases List.mem_filterMap.mp member with ⟨found, among, declares⟩
      exact elsewhere found (List.mem_append_left _ among) declares
    have added := Registry.declare_of_not_mem fresh loaded
    have hidden := Registry.without_of_declare added
    rcases readLine_of_declares declared second otherAfter with ⟨_, log, outcome⟩
    rw [added] at outcome
    rcases Drafted.empty.readLines read with ⟨drafted, header, _⟩
    rw [read, otherRead]
    simp only [Reading.done]
    rw [readLines, outcome]
    apply readLines_without drafted agree
    · exact fun other member => elsewhere other (List.mem_append_right _ member)
    · rw [header]
      exact fun text member => free text (mem_bodyOf_append member)
    · rw [alike]
      exact congrArg (fun visible : Registry =>
        { otherAfter.without name with registry := visible }) hidden.symm

end Source

/-! ## Compilations without one name -/

namespace Compilation

open Source

/-- A compilation with one name left out of the modules that were not called. -/
def without (name : String) (compilation : Compilation) : Compilation :=
  { compilation with
    unusedModules := compilation.unusedModules.filter (fun other => other != name) }

theorem ofParsed_without (name : String) (parsed : Program) (registry : Registry) :
    (ofParsed parsed registry).2.map (without name) =
      (ofParsed parsed (registry.without name)).2.map (without name) := by
  unfold ofParsed
  cases Chain.collapse parsed.ends parsed.rules with
  | mk collapsed outcome =>
      cases outcome with
      | error error => rfl
      | ok count => simp [Except.map, without, Registry.unused_without]

/-- Readings that look alike without one name give compilations that do. -/
theorem compile_without {name text other : String} {first second : Library}
    (same : (readAll first text).without name = (readAll second other).without name) :
    (compile first text).map (without name) = (compile second other).map (without name) := by
  unfold compile compileLogged
  rcases failed_or_done_of_without same with
    ⟨draft, otherDraft, alike, ⟨error, read, otherRead⟩ | ⟨read, otherRead⟩⟩
  · rw [read, otherRead]
    rfl
  · have finished : draft.finish = otherDraft.finish := by
      simpa only [Draft.finish, Draft.without] using congrArg Draft.finish alike
    have registries : draft.registry.without name = otherDraft.registry.without name :=
      congrArg Draft.registry alike
    rw [read, otherRead]
    simp only [Reading.done, finished]
    cases otherDraft.finish with
    | error error => rfl
    | ok parsed =>
        dsimp only
        rw [ofParsed_without, registries, ← ofParsed_without]

/-- One more declaration of a module that is not called changes at most whether the
name is listed as unused. -/
theorem compile_declaration {before behind : List String} {line name shorter longer : String}
    {first second : Library} {table : Program}
    (agree : forall called, called ≠ name -> first.load called = second.load called)
    (loaded : second.load name = .ok table) (declared : declares? line = some name)
    (elsewhere : forall other, other ∈ before ++ behind -> declares? other ≠ some name)
    (linesShorter : Text.lines shorter = before ++ behind)
    (linesLonger : Text.lines longer = before ++ line :: behind)
    (uncalled : forall binding, Not (.call name binding ∈ constructs shorter)) :
    (compile first shorter).map (without name) = (compile second longer).map (without name) := by
  apply compile_without
  unfold readAll
  rw [linesShorter, linesLonger]
  apply readLines_declaration agree loaded declared elsewhere
  intro text member construct inside
  cases construct with
  | call called binding =>
      apply beq_eq_false_iff_ne.mpr
      rintro rfl
      apply uncalled binding
      apply List.mem_flatMap.mpr
      refine ⟨text, ?_, inside⟩
      rw [programLines, linesShorter]
      exact member
  | move direction => rfl
  | write symbol => rfl
  | jump target => rfl

end Compilation

end BinaryTape
