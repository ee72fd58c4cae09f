import BinaryTape.Proofs.Stages

namespace BinaryTape
namespace Source

/-!
# Readings

The constructs of a source are known from its text alone: they stand in the lines
behind the header, with blank lines, comments and directives left out.  Its stages
need the library as well, because a call looks at the module.  A source that can be
read has one stage for each of its constructs, in order, and what it means is the
draft behind the last stage, brought to its end.
-/

/-- Whether a line is neither blank nor a comment nor a directive. -/
def isSignificant (line : String) : Bool :=
  !Text.isBlankText line && line.toList.head? != some '#' && line.toList.head? != some '!'

/-- The constructs of a line of program text. -/
def lineConstructs (line : String) : List Construct := (cut line.toList).constructs

/-- The lines of program text: all significant lines but the first. -/
def programLines (text : String) : List String :=
  ((Text.lines text).filter isSignificant).tail

def constructs (text : String) : List Construct :=
  (programLines text).flatMap lineConstructs

/-- The header on a line, which ends where a comment begins. -/
def lineHeader? (line : String) : Option Header :=
  (Header.parse (String.ofList (Text.splitAtFirst '#' line.toList).1)).toOption

theorem words_of_lineHeader? {line : String} {header : Header}
    (read : lineHeader? line = some header) :
    Text.words (String.ofList (Text.splitAtFirst '#' line.toList).1) =
      header.start :: header.ends := by
  unfold lineHeader? Header.parse Header.ofNames at read
  split at read
  · rename_i words
    cases read
    exact words
  · cases read

/-- The header on the first significant line. -/
def headerOf? (lines : List String) : Option Header :=
  (lines.filter isSignificant).head?.bind lineHeader?

def header? (text : String) : Option Header := headerOf? (Text.lines text)

/-- The stages of constructs that take effect one after the other. -/
def stagesOfConstructs (line : String) : List Construct -> Draft -> List Stage
  | [], _ => []
  | construct :: rest, draft =>
      match construct.execute line draft with
      | .ok after => ⟨draft, construct, after⟩ :: stagesOfConstructs line rest after
      | .error _ => []

/-- The stages of a line; the header and the lines before it have none. -/
def stagesOfLine (line : String) (draft : Draft) : List Stage :=
  if isSignificant line && draft.header.isSome then
    stagesOfConstructs line (lineConstructs line) draft
  else []

/-- The stages of lines up to the first failure. -/
def stagesOfLines (library : Library) : List String -> Draft -> List Stage
  | [], _ => []
  | line :: lines, draft =>
      stagesOfLine line draft ++
        match readLine library line draft with
        | ⟨after, none⟩ => stagesOfLines library lines after
        | _ => []

def stages (library : Library) (text : String) : List Stage :=
  stagesOfLines library (Text.lines text) .empty

/-! ## One line -/

theorem readLine_of_significant {line : String} (significant : isSignificant line = true)
    (library : Library) (draft : Draft) :
    readLine library line draft =
      match draft.header with
      | none => readHeader line draft
      | some _ => perform line (cut line.toList) draft := by
  simp only [isSignificant, Bool.and_eq_true, Bool.not_eq_true', bne_iff_ne, ne_eq]
    at significant
  rcases significant with ⟨⟨filled, noComment⟩, noDirective⟩
  simp only [readLine, filled, Bool.false_eq_true, if_false, ← readText_eq_perform]
  cases draft.header with
  | none =>
      dsimp only
      split
      · rename_i comment
        simp [comment] at noComment
      · rename_i directive
        simp [directive] at noDirective
      · rfl
      · rename_i impossible _ _
        cases impossible
  | some header =>
      dsimp only
      split
      · rename_i comment
        simp [comment] at noComment
      · rename_i directive
        simp [directive] at noDirective
      · rename_i impossible _ _
        cases impossible
      · rfl

theorem readLine_of_insignificant {line : String} (insignificant : isSignificant line = false)
    (library : Library) (draft : Draft) :
    readLine library line draft = .done draft ∨
      Exists fun directive : String =>
        readLine library line draft = readDirective library directive line draft := by
  cases blank : Text.isBlankText line with
  | true => exact Or.inl (by simp only [readLine, blank, if_true])
  | false =>
      cases characters : line.toList with
      | nil => simp [Text.isBlankText, characters] at blank
      | cons first rest =>
          have marks : first = '#' ∨ first = '!' := by
            apply Decidable.or_iff_not_imp_left.mpr
            simpa [isSignificant, blank, characters] using insignificant
          rcases marks with rfl | rfl
          · exact Or.inl (by simp [readLine, blank, characters])
          · exact Or.inr ⟨String.ofList rest, by simp [readLine, blank, characters]⟩

/-- Events change the log only. -/
theorem foldl_note (events : List Log.Event) (draft : Draft) :
    Exists fun log : Array Log.Event =>
      events.foldl Draft.note draft = { draft with log := log } := by
  induction events generalizing draft with
  | nil => exact ⟨draft.log, rfl⟩
  | cons event events inductionHypothesis =>
      rcases inductionHypothesis (draft.note event) with ⟨log, same⟩
      exact ⟨log, same⟩

variable {library : Library} {line : String} {made : List Stage} {draft after : Draft}

/-- A directive changes the registry and the log only. -/
theorem Drafted.readDirective {directive : String} (drafted : Drafted library made draft)
    (read : readDirective library directive line draft = ⟨after, none⟩) :
    Drafted library made after ∧ after.header = draft.header := by
  unfold Source.readDirective at read
  split at read
  · cases read
  · rename_i name _ _
    rcases foldl_note (draft.declarationEvents library name) draft with ⟨log, noted⟩
    rw [noted] at read
    cases added : draft.registry.declare library name with
    | error error =>
        rw [added] at read
        cases read
    | ok registry =>
        rw [added] at read
        cases read
        exact ⟨.noted log (.declared drafted added), rfl⟩
  · cases read
    exact ⟨.noted _ drafted, rfl⟩

/-- A header sets the header and the current state. -/
theorem Drafted.readHeader (drafted : Drafted library made draft)
    (headless : draft.header = none)
    (read : readHeader line draft = ⟨after, none⟩) :
    Drafted library made after ∧ after.header ≠ none ∧ after.header = lineHeader? line := by
  unfold Source.readHeader at read
  unfold lineHeader?
  split at read
  · rename_i header parsed
    cases read
    rw [parsed]
    exact ⟨.headed header drafted headless, Option.some_ne_none header, rfl⟩
  · cases read

theorem perform_eq_done {result : Cut} (performed : perform line result draft = ⟨after, none⟩) :
    executeAll line result.constructs draft = .done after := by
  unfold perform Reading.orFault at performed
  cases executed : executeAll line result.constructs draft with
  | mk last failure =>
      rw [executed] at performed
      cases failure with
      | some error => cases performed
      | none =>
          cases fault : result.fault with
          | some fault =>
              rw [fault] at performed
              cases performed
          | none =>
              rw [fault] at performed
              exact performed

/-- Program text adds one stage for each of its constructs. -/
theorem Drafted.executeAll {items : List Construct} (drafted : Drafted library made draft)
    (headed : draft.header ≠ none)
    (written : forall construct, construct ∈ items -> construct.WellWritten)
    (executed : executeAll line items draft = .done after) :
    Drafted library (made ++ stagesOfConstructs line items draft) after ∧
      after.header = draft.header ∧
      constructsOf (stagesOfConstructs line items draft) = items := by
  induction items generalizing made draft with
  | nil =>
      cases executed
      rw [stagesOfConstructs, List.append_nil]
      exact ⟨drafted, rfl, rfl⟩
  | cons construct rest inductionHypothesis =>
      rw [Source.executeAll] at executed
      rw [stagesOfConstructs]
      cases result : construct.execute line draft with
      | error error =>
          rw [result] at executed
          cases executed
      | ok next =>
          rw [result] at executed
          have step : Stage.Made ⟨draft, construct, next⟩ := ⟨line, result⟩
          have sameHeader : next.header = draft.header := step.effect.header_same
          have extended : Drafted library (made ++ [⟨draft, construct, next⟩]) next :=
            .performed drafted headed (written construct List.mem_cons_self) step
          rcases inductionHypothesis extended (sameHeader ▸ headed)
            (fun other member => written other (List.mem_cons_of_mem _ member)) executed with
            ⟨whole, header, items⟩
          refine ⟨?_, header.trans sameHeader, ?_⟩
          · rw [List.append_assoc] at whole
            exact whole
          · exact congrArg (construct :: ·) items

/-- What is known of one line that was read: the draft behind it, and how its stages
and its header follow from the line. -/
theorem Drafted.readLine (drafted : Drafted library made draft)
    (read : readLine library line draft = ⟨after, none⟩) :
    Drafted library (made ++ stagesOfLine line draft) after ∧
      ((isSignificant line = false ∧ after.header = draft.header ∧
          stagesOfLine line draft = []) ∨
        (isSignificant line = true ∧ draft.header = none ∧
          (after.header ≠ none ∧ after.header = lineHeader? line) ∧
          stagesOfLine line draft = []) ∨
        (isSignificant line = true ∧ draft.header ≠ none ∧ after.header = draft.header ∧
          constructsOf (stagesOfLine line draft) = lineConstructs line)) := by
  cases significant : isSignificant line with
  | false =>
      have noStages : stagesOfLine line draft = [] := by simp [stagesOfLine, significant]
      rw [noStages, List.append_nil]
      have directed : Drafted library made after ∧ after.header = draft.header := by
        rcases readLine_of_insignificant significant library draft with skipped | ⟨_, directive⟩
        · rw [skipped] at read
          cases read
          exact ⟨drafted, rfl⟩
        · rw [directive] at read
          exact drafted.readDirective read
      exact ⟨directed.1, Or.inl ⟨rfl, directed.2, rfl⟩⟩
  | true =>
      rw [readLine_of_significant significant] at read
      cases header : draft.header with
      | none =>
          have noStages : stagesOfLine line draft = [] := by simp [stagesOfLine, header]
          rw [header] at read
          rw [noStages, List.append_nil]
          have headed := drafted.readHeader header read
          exact ⟨headed.1, Or.inr (Or.inl ⟨rfl, rfl, headed.2, rfl⟩)⟩
      | some found =>
          have allStages : stagesOfLine line draft =
              stagesOfConstructs line (lineConstructs line) draft := by
            simp [stagesOfLine, significant, header]
          have headed : draft.header ≠ none := by
            rw [header]
            exact Option.some_ne_none found
          rw [header] at read
          rcases drafted.executeAll headed (wellWritten_of_mem_cut line.toList)
            (perform_eq_done read) with ⟨whole, sameHeader, items⟩
          rw [allStages]
          exact ⟨whole, Or.inr (Or.inr ⟨rfl, Option.some_ne_none found,
            sameHeader.trans header, items⟩)⟩

/-! ## Whole sources -/

/-- The lines of program text among lines that are read after this header. -/
def bodyOf (header : Option Header) (lines : List String) : List String :=
  match header with
  | none => (lines.filter isSignificant).tail
  | some _ => lines.filter isSignificant

theorem Drafted.readLines {lines : List String} {last : Draft}
    (drafted : Drafted library made draft)
    (read : readLines library lines draft = ⟨last, none⟩) :
    Drafted library (made ++ stagesOfLines library lines draft) last ∧
      last.header = draft.header.or (headerOf? lines) ∧
      constructsOf (stagesOfLines library lines draft) =
        (bodyOf draft.header lines).flatMap lineConstructs := by
  induction lines generalizing made draft with
  | nil =>
      cases read
      rw [stagesOfLines, List.append_nil]
      refine ⟨drafted, ?_, ?_⟩ <;> cases last.header <;> rfl
  | cons line lines inductionHypothesis =>
      rw [Source.readLines] at read
      cases lineRead : Source.readLine library line draft with
      | mk after failure =>
          rw [lineRead] at read
          cases failure with
          | some error => cases read
          | none =>
              rcases drafted.readLine lineRead with ⟨extended, how⟩
              rcases inductionHypothesis extended read with ⟨whole, sameHeader, items⟩
              rw [stagesOfLines, lineRead]
              dsimp only
              rw [List.append_assoc] at whole
              refine ⟨whole, ?_⟩
              rw [constructsOf_append, items, sameHeader]
              rcases how with ⟨skipped, same, none⟩ | ⟨counts, headless, headed, none⟩ |
                ⟨counts, headed, same, own⟩
              · rw [none, same]
                cases draft.header <;> simp [bodyOf, headerOf?, constructsOf, skipped]
              · rw [none, headless]
                cases header : after.header with
                | none => exact absurd header headed.1
                | some found =>
                    rw [header] at headed
                    simp [bodyOf, headerOf?, constructsOf, counts, ← headed.2]
              · rw [own, same]
                cases header : draft.header with
                | none => exact absurd header headed
                | some found => simp [bodyOf, counts]

/-- A source that can be read is read up to its last line, and what it means is the draft
behind that line. -/
theorem readAll_of_parse {text : String} {program : Program} {registry : Registry}
    (parsed : parse library text = .ok (program, registry)) :
    Exists fun last : Draft => readAll library text = ⟨last, none⟩ ∧
      last.finish = .ok program ∧ last.registry = registry := by
  unfold parse at parsed
  cases read : readAll library text with
  | mk last failure =>
      rw [read] at parsed
      cases failure with
      | some error => cases parsed
      | none =>
          cases finished : last.finish with
          | error error => simp [finished, bind, Except.bind] at parsed
          | ok whole =>
              simp only [finished, bind, Except.bind, pure, Except.pure, Except.ok.injEq,
                Prod.mk.injEq] at parsed
              exact ⟨last, rfl, finished.trans (congrArg Except.ok parsed.1), parsed.2⟩

/-- A source that can be read is drafted through its stages, one for each of its
constructs; its program is the last draft brought to its end under its header. -/
theorem drafted_of_parse {text : String} {program : Program} {registry : Registry}
    (parsed : parse library text = .ok (program, registry)) :
    Exists fun last : Draft => Exists fun header : Header =>
      Drafted library (stages library text) last ∧ last.header = some header ∧
        header? text = some header ∧
        constructsOf (stages library text) = constructs text ∧
        program =
          ⟨header.start, header.ends,
            (stages library text).flatMap Stage.rules ++
              Rule.handOver last.current header.firstEnd⟩ := by
  rcases readAll_of_parse parsed with ⟨last, read, finished, _⟩
  rcases Drafted.empty.readLines read with ⟨drafted, sameHeader, items⟩
  rw [List.nil_append] at drafted
  cases header : last.header with
  | none => simp [Draft.finish, header] at finished
  | some found =>
      simp only [Draft.finish, header, Except.ok.injEq] at finished
      refine ⟨last, found, drafted, header, sameHeader.symm.trans header, items, ?_⟩
      rw [← finished, drafted.rules_eq]
      rfl

end Source
end BinaryTape
