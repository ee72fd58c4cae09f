import BinaryTape.Proofs.Passes
import BinaryTape.Proofs.Readings

namespace BinaryTape

/-!
# Why a compilation fails

Every function that can fail is inverted once: an error that it gives is one of those
it makes itself, or one that it was given by another.  Reading stops at a draft that
was reached through stages, because what precedes a failure has taken effect; the
error is that of a single directive, header or construct, or of the text itself.
-/

/-- A list that cannot be read has an element that cannot be read. -/
theorem exists_of_mapM_eq_error {read : α -> Except ε β} {values : List α} {error : ε}
    (failed : values.mapM read = .error error) :
    Exists fun value : α => value ∈ values ∧ read value = .error error := by
  induction values with
  | nil => cases failed
  | cons value values inductionHypothesis =>
      rw [List.mapM_cons] at failed
      cases first : read value with
      | error other =>
          rw [first] at failed
          have same : other = error := Except.error.inj failed
          exact ⟨value, List.mem_cons_self, by rw [first, same]⟩
      | ok result =>
          rw [first] at failed
          cases rest : values.mapM read with
          | error other =>
              rw [rest] at failed
              have same : other = error := Except.error.inj failed
              rcases inductionHypothesis (by rw [rest, same]) with ⟨later, member, refused⟩
              exact ⟨later, List.mem_cons_of_mem _ member, refused⟩
          | ok results =>
              rw [rest] at failed
              cases failed

/-! ## Kinds of errors -/

namespace Error

/-- The errors of loading a table: there is none, or it cannot be read. -/
def isOfTable : Error -> Bool
  | moduleNotFound _ _ | file _ | unreadableTable | missingHeader | malformedHeader _
  | malformedRule _ | invalidSymbol _ _ | invalidMove _ _ => true
  | _ => false

/-- The errors that the text of a source gives rise to. -/
def isOfText : Error -> Bool
  | duplicateModule _ | unknownModule _ _ | malformedHeader _ | ambiguousBareTarget _ _
  | bareTargetAmongOthers _ | emptyTarget _ | unterminatedBinding _ | invalidCharacter _ _
  | missingModuleName _ => true
  | _ => false

end Error

/-! ## Tables -/

namespace Table

theorem readRule_eq_error {fields : List String} {line : String} {error : Error}
    (failed : readRule fields line = .error error) :
    error = .malformedRule line ∨
      (Exists fun token : String => error = .invalidSymbol token line) ∨
      Exists fun token : String => error = .invalidMove token line := by
  have symbols : forall {token : String} {other : Error},
      readSymbol token line = .error other -> other = .invalidSymbol token line := by
    intro token other refused
    unfold readSymbol at refused
    split at refused
    · cases refused
    · exact (Except.error.inj refused).symm
  have moves : forall {token : String} {other : Error},
      readMove token line = .error other -> other = .invalidMove token line := by
    intro token other refused
    unfold readMove at refused
    split at refused
    · cases refused
    · exact (Except.error.inj refused).symm
  unfold readRule at failed
  split at failed
  · rename_i state readField next writeField moveField
    cases reads : readSymbol readField line with
    | error other =>
        rw [reads] at failed
        cases failed
        exact Or.inr (Or.inl ⟨_, symbols reads⟩)
    | ok read =>
        cases writes : readSymbol writeField line with
        | error other =>
            rw [reads, writes] at failed
            cases failed
            exact Or.inr (Or.inl ⟨_, symbols writes⟩)
        | ok write =>
            cases goes : readMove moveField line with
            | error other =>
                rw [reads, writes, goes] at failed
                cases failed
                exact Or.inr (Or.inr ⟨_, moves goes⟩)
            | ok move =>
                rw [reads, writes, goes] at failed
                cases failed
  · exact Or.inl (Except.error.inj failed).symm

theorem read_eq_error {text : String} {error : Error} (failed : read text = .error error) :
    error = .unreadableTable ∨ error = .missingHeader ∨
      Exists fun line : String => error = .malformedHeader line ∨
        error = .malformedRule line ∨
        (Exists fun token : String => error = .invalidSymbol token line) ∨
        Exists fun token : String => error = .invalidMove token line := by
  unfold read at failed
  split at failed
  · exact Or.inl (Except.error.inj failed).symm
  · split at failed
    · exact Or.inr (Or.inl (Except.error.inj failed).symm)
    · rename_i line names rest _
      cases headed : Header.ofNames names line with
      | error other =>
          rw [headed] at failed
          cases failed
          refine Or.inr (Or.inr ⟨line, Or.inl ?_⟩)
          unfold Header.ofNames at headed
          split at headed
          · cases headed
          · exact (Except.error.inj headed).symm
      | ok header =>
          cases ruled : readRules rest with
          | error other =>
              rw [headed, ruled] at failed
              cases failed
              rcases exists_of_mapM_eq_error ruled with ⟨ruleLine, _, refused⟩
              exact Or.inr (Or.inr ⟨ruleLine.1, Or.inr (readRule_eq_error refused)⟩)
          | ok rules =>
              rw [headed, ruled] at failed
              cases failed

theorem isOfTable_of_read {text : String} {error : Error} (failed : read text = .error error) :
    error.isOfTable = true := by
  rcases read_eq_error failed with rfl | rfl | ⟨line, rfl | rfl | ⟨token, rfl⟩ | ⟨token, rfl⟩⟩ <;>
    rfl

end Table

/-! ## Bindings and calls -/

namespace Binding

theorem nonEmpty_eq_error {target : List Char} {binding : String} {error : Error}
    (failed : nonEmpty target binding = .error error) : error = .emptyTarget binding := by
  unfold nonEmpty at failed
  split at failed
  · exact (Except.error.inj failed).symm
  · cases failed

private theorem map_eq_error {result : Except ε α} {change : α -> β} {error : ε}
    (failed : result.map change = .error error) : result = .error error := by
  cases result with
  | error other => exact congrArg Except.error (Except.error.inj failed)
  | ok value => cases failed

theorem exits_eq_error {declared : Module} {binding : String} {default : StateName}
    {error : Error} (failed : exits declared binding default = .error error) :
    error = .bareTargetAmongOthers binding ∨ error = .emptyTarget binding ∨
      error = .ambiguousBareTarget declared.name binding := by
  unfold exits at failed
  dsimp only at failed
  split at failed
  · cases failed
  · split at failed
    · cases read : (Text.words binding).mapM (explicitTarget binding) with
      | ok targets =>
          rw [read] at failed
          cases failed
      | error other =>
          rw [read] at failed
          cases failed
          rcases exists_of_mapM_eq_error read with ⟨token, _, refused⟩
          unfold explicitTarget at refused
          split at refused
          · exact Or.inl (Except.error.inj refused).symm
          · exact Or.inr (Or.inl (nonEmpty_eq_error (map_eq_error refused)))
    · unfold bareExits at failed
      split at failed
      · split at failed
        · exact Or.inr (Or.inl (nonEmpty_eq_error (map_eq_error failed)))
        · split at failed
          · exact Or.inr (Or.inr (Except.error.inj failed).symm)
          · cases failed
      · exact Or.inl (Except.error.inj failed).symm

end Binding

theorem Registry.declare_eq_error {registry : Registry} {library : Library} {name : String}
    {error : Error} (failed : registry.declare library name = .error error) :
    error = .duplicateModule name ∨ library.load name = .error error := by
  unfold declare at failed
  split at failed
  · exact Or.inl (Except.error.inj failed).symm
  · cases loaded : library.load name with
    | error other =>
        rw [loaded] at failed
        cases failed
        exact Or.inr rfl
    | ok program =>
        rw [loaded] at failed
        cases failed

theorem Library.isOfTable_of_ofTexts {texts : List (String × String)} {name : String}
    {error : Error} (failed : (ofTexts texts).load name = .error error) :
    error.isOfTable = true := by
  simp only [load, ofTexts] at failed
  split at failed
  · exact Table.isOfTable_of_read failed
  · cases failed
    rfl

namespace Source

/-- A call fails because of its name or its binding, or because the binding has too
many or too few exits. -/
theorem call_eq_error {draft : Draft} {name binding line : String} {error : Error}
    (failed : draft.call name binding line = .error error) :
    (draft.registry.get? name = none ∧ error = .unknownModule name line) ∨
      Exists fun entry : Module.Entry => draft.registry.get? name = some entry ∧
        (Binding.exits entry.declared binding draft.implicitState = .error error ∨
          Exists fun exits : List StateName =>
            Binding.exits entry.declared binding draft.implicitState = .ok exits ∧
              entry.declared.ends.length ≠ exits.length ∧
              error = .exitCountMismatch entry.declared.name entry.declared.ends.length
                exits.length) := by
  unfold Draft.call at failed
  cases found : draft.registry.get? name with
  | none =>
      rw [found] at failed
      exact Or.inl ⟨rfl, (Except.error.inj failed).symm⟩
  | some entry =>
      rw [found] at failed
      refine Or.inr ⟨entry, rfl, ?_⟩
      cases resolved : Binding.exits entry.declared binding draft.implicitState with
      | error other =>
          simp only [resolved, bind, Except.bind] at failed
          exact Or.inl (congrArg Except.error (Except.error.inj failed))
      | ok exits =>
          refine Or.inr ⟨exits, rfl, ?_⟩
          by_cases lengths : entry.declared.ends.length = exits.length
          · simp only [resolved, bind, Except.bind, Module.Entry.instantiate,
              if_pos lengths] at failed
            cases failed
          · simp only [resolved, bind, Except.bind, Module.Entry.instantiate,
              if_neg lengths] at failed
            exact ⟨lengths, (Except.error.inj failed).symm⟩

/-! ## Readings -/

/-- Why reading stops at a draft. -/
inductive Failure (library : Library) (draft : Draft) : Error -> Prop where
  | unnamed (line : String) : Failure library draft (.missingModuleName line)
  | refused {name : String} {error : Error}
      (declared : draft.registry.declare library name = .error error) :
      Failure library draft error
  | header (line : String) : Failure library draft (.malformedHeader line)
  | construct {construct : Construct} {line : String} {error : Error}
      (executed : construct.execute line draft = .error error) : Failure library draft error
  | text (fault : Fault) (line : String) : Failure library draft (fault.error line)

/-- Reading stopped at a draft that was reached through stages. -/
def StoppedAt (library : Library) (draft : Draft) (error : Error) : Prop :=
  Exists fun stages : List Stage => Drafted library stages draft ∧ Failure library draft error

variable {library : Library} {line : String} {made : List Stage} {draft last : Draft}
  {error : Error}

theorem Drafted.stopped_readDirective {directive : String}
    (drafted : Drafted library made draft)
    (read : Source.readDirective library directive line draft = ⟨last, some error⟩) :
    StoppedAt library last error := by
  unfold Source.readDirective at read
  split at read
  · cases read
    exact ⟨made, drafted, .unnamed line⟩
  · rename_i name _ _
    rcases foldl_note (draft.declarationEvents library name) draft with ⟨log, noted⟩
    rw [noted] at read
    cases added : draft.registry.declare library name with
    | ok registry =>
        rw [added] at read
        cases read
    | error other =>
        rw [added] at read
        cases read
        exact ⟨made, .noted log drafted, .refused added⟩
  · cases read

theorem Drafted.stopped_readHeader (drafted : Drafted library made draft)
    (read : Source.readHeader line draft = ⟨last, some error⟩) :
    StoppedAt library last error := by
  unfold Source.readHeader at read
  split at read
  · cases read
  · rename_i other parsed
    cases read
    unfold Header.parse Header.ofNames at parsed
    split at parsed
    · cases parsed
    · cases parsed
      exact ⟨made, drafted, .header _⟩

/-- Program text stops at its first construct that fails, behind the stages of those
before it. -/
theorem Drafted.stopped_executeAll {items : List Construct}
    (drafted : Drafted library made draft) (headed : draft.header ≠ none)
    (written : forall construct, construct ∈ items -> construct.WellWritten)
    (executed : Source.executeAll line items draft = ⟨last, some error⟩) :
    StoppedAt library last error := by
  induction items generalizing made draft with
  | nil => cases executed
  | cons construct rest inductionHypothesis =>
      rw [Source.executeAll] at executed
      cases result : construct.execute line draft with
      | error other =>
          rw [result] at executed
          cases executed
          exact ⟨made, drafted, .construct result⟩
      | ok next =>
          rw [result] at executed
          have step : Stage.Made ⟨draft, construct, next⟩ := ⟨line, result⟩
          have sameHeader : next.header = draft.header := step.effect.header_same
          exact inductionHypothesis
            (.performed drafted headed (written construct List.mem_cons_self) step)
            (sameHeader ▸ headed)
            (fun other member => written other (List.mem_cons_of_mem _ member)) executed

theorem Drafted.stopped_perform (drafted : Drafted library made draft)
    (headed : draft.header ≠ none)
    (performed : perform line (cut line.toList) draft = ⟨last, some error⟩) :
    StoppedAt library last error := by
  have written := wellWritten_of_mem_cut line.toList
  unfold perform Reading.orFault at performed
  cases executed : Source.executeAll line (cut line.toList).constructs draft with
  | mk after failure =>
      rw [executed] at performed
      cases failure with
      | some other =>
          cases performed
          exact drafted.stopped_executeAll headed written executed
      | none =>
          cases found : (cut line.toList).fault with
          | none =>
              rw [found] at performed
              cases performed
          | some fault =>
              rw [found] at performed
              cases performed
              rcases drafted.executeAll headed written executed with ⟨whole, _, _⟩
              exact ⟨_, whole, .text fault line⟩

theorem Drafted.stopped_readLine (drafted : Drafted library made draft)
    (read : Source.readLine library line draft = ⟨last, some error⟩) :
    StoppedAt library last error := by
  cases significant : isSignificant line with
  | false =>
      rcases readLine_of_insignificant significant library draft with skipped | ⟨_, directive⟩
      · rw [skipped] at read
        cases read
      · rw [directive] at read
        exact drafted.stopped_readDirective read
  | true =>
      rw [readLine_of_significant significant] at read
      cases header : draft.header with
      | none =>
          rw [header] at read
          exact drafted.stopped_readHeader read
      | some found =>
          rw [header] at read
          exact drafted.stopped_perform (by rw [header]; exact Option.some_ne_none found) read

theorem Drafted.stopped_readLines {lines : List String} (drafted : Drafted library made draft)
    (read : Source.readLines library lines draft = ⟨last, some error⟩) :
    StoppedAt library last error := by
  induction lines generalizing made draft with
  | nil => cases read
  | cons line lines inductionHypothesis =>
      rw [Source.readLines] at read
      cases lineRead : Source.readLine library line draft with
      | mk after failure =>
          rw [lineRead] at read
          cases failure with
          | some other =>
              cases read
              exact drafted.stopped_readLine lineRead
          | none => exact inductionHypothesis (drafted.readLine lineRead).1 read

/-- Reading a source stops for one of these reasons only. -/
theorem stopped_of_readAll {text : String}
    (read : readAll library text = ⟨last, some error⟩) : StoppedAt library last error :=
  Drafted.empty.stopped_readLines read

theorem finish_eq_error (failed : draft.finish = .error error) : error = .missingHeader := by
  unfold Draft.finish at failed
  split at failed
  · exact (Except.error.inj failed).symm
  · cases failed

/-- A source fails while it is read, or because it has no header. -/
theorem parse_eq_error {text : String} (failed : parse library text = .error error) :
    (Exists fun last : Draft => readAll library text = ⟨last, some error⟩) ∨
      error = .missingHeader := by
  unfold parse at failed
  cases reading : readAll library text with
  | mk draft failure =>
      rw [reading] at failed
      cases failure with
      | some other =>
          cases failed
          exact Or.inl ⟨draft, rfl⟩
      | none =>
          cases finished : draft.finish with
          | error other =>
              simp only [finished, bind, Except.bind] at failed
              cases failed
              exact Or.inr (finish_eq_error finished)
          | ok program =>
              simp only [finished, bind, Except.bind] at failed
              cases failed

/-- A call of a table of the library whose binding is resolved to too many or too few
exits. -/
def Misfit (library : Library) (error : Error) : Prop :=
  Exists fun name : String => Exists fun program : Program => Exists fun binding : String =>
    Exists fun default : StateName => Exists fun exits : List StateName =>
      library.load name = .ok program ∧
        Binding.exits (.declare name program) binding default = .ok exits ∧
        (Module.declare name program).ends.length ≠ exits.length ∧
        error = .exitCountMismatch name (Module.declare name program).ends.length exits.length

/-- The error of a reading is made from the text, given by the library, or due to a
misfit. -/
theorem StoppedAt.origin (stopped : StoppedAt library last error) :
    error.isOfText = true ∨ (Exists fun name : String => library.load name = .error error) ∨
      Misfit library error := by
  rcases stopped with ⟨stages, drafted, failure⟩
  cases failure with
  | unnamed line => exact Or.inl rfl
  | header line => exact Or.inl rfl
  | text fault line => cases fault <;> exact Or.inl rfl
  | refused declared =>
      rcases Registry.declare_eq_error declared with rfl | unloaded
      · exact Or.inl rfl
      · exact Or.inr (Or.inl ⟨_, unloaded⟩)
  | @construct construct line _ executed =>
      cases construct with
      | move direction => cases executed
      | write symbol => cases executed
      | jump target => cases executed
      | call name binding =>
          rcases call_eq_error executed with
            ⟨_, rfl⟩ | ⟨entry, found, unresolved | ⟨exits, resolved, differ, same⟩⟩
          · exact Or.inl rfl
          · rcases Binding.exits_eq_error unresolved with rfl | rfl | rfl <;> exact Or.inl rfl
          · rcases drafted.counted.declared name entry found with ⟨program, loaded, rfl⟩
            exact Or.inr (Or.inr
              ⟨name, program, binding, _, exits, loaded, resolved, differ, same⟩)

end Source

/-! ## Compilations -/

namespace Compilation

/-- A compilation fails while its source is read, without a header, or in the chain
pass over the table that was read. -/
theorem compile_eq_error {library : Library} {text : String} {error : Error}
    (failed : compile library text = .error error) :
    (Exists fun last : Source.Draft => Source.readAll library text = ⟨last, some error⟩) ∨
      error = .missingHeader ∨
      Exists fun parsed : Program => Exists fun registry : Registry =>
        Source.parse library text = .ok (parsed, registry) ∧
          (Chain.collapse parsed.ends parsed.rules).2 = .error error := by
  unfold compile compileLogged at failed
  unfold Source.parse
  cases reading : Source.readAll library text with
  | mk draft failure =>
      rw [reading] at failed
      cases failure with
      | some other =>
          cases failed
          exact Or.inl ⟨draft, rfl⟩
      | none =>
          cases finished : draft.finish with
          | error other =>
              simp only [finished] at failed
              cases failed
              exact Or.inr (Or.inl (Source.finish_eq_error finished))
          | ok parsed =>
              simp only [finished, ofParsed] at failed
              have read : (draft.finish >>= fun program => pure (program, draft.registry)) =
                  Except.ok (parsed, draft.registry) := by
                rw [finished]
                rfl
              refine Or.inr (Or.inr ⟨parsed, draft.registry, read, ?_⟩)
              cases passed : Chain.collapse parsed.ends parsed.rules with
              | mk collapsed outcome =>
                  cases outcome with
                  | error other =>
                      rw [passed] at failed
                      exact congrArg Except.error (Except.error.inj failed)
                  | ok count =>
                      rw [passed] at failed
                      cases failed

end Compilation

end BinaryTape
