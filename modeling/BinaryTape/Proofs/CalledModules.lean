import Mathlib.Data.List.Induction
import BinaryTape.Proofs.ChainEnds
import BinaryTape.Proofs.Declarations
import BinaryTape.Proofs.SourceRuns

namespace BinaryTape

/-!
# Only called modules matter

Two sources with the same lines apart from their directives have the same header and
the same constructs.  Both readings may meet declarations of different modules at
different places, so their drafts need not agree in between.  But a reading that
succeeds has one stage for each construct, and what a stage adds depends on the
constructs before it, on the state before it and, for a call, on the table of the
module that is called.  The two readings are therefore compared stage by stage and
not line by line.
-/

namespace Source

/-- Whether a line is a directive. -/
def isDirective (line : String) : Bool := line.toList.head? == some '!'

/-- The lines of a source that are no directives. -/
def plainLines (text : String) : List String :=
  (Text.lines text).filter (fun line => !isDirective line)

/-- Directives do not count. -/
theorem filter_isSignificant (text : String) :
    (Text.lines text).filter isSignificant = (plainLines text).filter isSignificant := by
  rw [plainLines, List.filter_filter]
  congr 1
  funext line
  simp only [isSignificant, isDirective, bne, Bool.and_assoc, Bool.and_self]

theorem constructs_eq_of_plainLines {text other : String}
    (same : plainLines text = plainLines other) : constructs text = constructs other := by
  rw [constructs, constructs, programLines, programLines, filter_isSignificant, same,
    ← filter_isSignificant]

theorem header?_eq_of_plainLines {text other : String}
    (same : plainLines text = plainLines other) : header? text = header? other := by
  rw [header?, header?, headerOf?, headerOf?, filter_isSignificant, same,
    ← filter_isSignificant]

/-! ## Two readings, stage by stage -/

variable {first second : Library} {ones others : List Stage} {last final : Draft}
  {header : Header}

/-- Readings of the same constructs have taken the same implicit states. -/
theorem Drafted.implicitState_eq (drafted : Drafted first ones last)
    (redrafted : Drafted second others final) (same : constructsOf ones = constructsOf others) :
    last.implicitState = final.implicitState := by
  rw [Draft.implicitState, Draft.implicitState, drafted.nextImplicit_eq,
    redrafted.nextImplicit_eq, same]

/-- The same construct adds the same rules behind the same constructs at the same state,
if it is not a call of modules that differ. -/
theorem Drafted.stage_rules_eq {stage other : Stage}
    (drafted : Drafted first ones stage.before) (redrafted : Drafted second others other.before)
    (step : stage.Made) (otherStep : other.Made)
    (same : constructsOf ones = constructsOf others)
    (construct : stage.construct = other.construct)
    (state : stage.before.current = other.before.current)
    (agree : forall name binding, stage.construct = .call name binding ->
      first.load name = second.load name) :
    stage.rules = other.rules := by
  have implicit := drafted.implicitState_eq redrafted same
  cases kind : stage.construct with
  | move direction =>
      rw [step.rules_move kind, otherStep.rules_move (construct.symm.trans kind), state, implicit]
  | write symbol =>
      rw [step.rules_write kind, otherStep.rules_write (construct.symm.trans kind), state,
        implicit]
  | jump target =>
      rw [step.rules_jump kind, otherStep.rules_jump (construct.symm.trans kind), state]
  | call name binding =>
      rcases drafted.called step kind with ⟨table, exits, loaded, _, resolved, _, rules⟩
      rcases redrafted.called otherStep (construct.symm.trans kind) with
        ⟨otherTable, otherExits, otherLoaded, _, otherResolved, _, otherRules⟩
      rw [agree name binding kind, otherLoaded] at loaded
      cases loaded
      rw [implicit, otherResolved] at resolved
      cases resolved
      rw [rules, otherRules, state, same]

/-- Readings of the same constructs under the same header end at the same state with the
same rules, if they agree on the modules that are called. -/
theorem Drafted.rules_eq_of_constructs (drafted : Drafted first ones last)
    (headed : last.header = some header) (redrafted : Drafted second others final)
    (reheaded : final.header = some header) (same : constructsOf ones = constructsOf others)
    (agree : forall name binding, .call name binding ∈ constructsOf ones ->
      first.load name = second.load name) :
    last.current = final.current ∧
      ones.flatMap Stage.rules = others.flatMap Stage.rules := by
  rw [drafted.current_eq headed, redrafted.current_eq reheaded]
  -- Along the stages of the first reading; the second one has a last stage when it has.
  induction ones using List.reverseRecOn generalizing others last final with
  | nil =>
      have nothing : others = [] := List.map_eq_nil_iff.mp same.symm
      rw [nothing]
      exact ⟨rfl, rfl⟩
  | append_singleton ones stage inductionHypothesis =>
      rcases List.eq_nil_or_concat others with rfl | ⟨front, other, rfl⟩
      · simp [constructsOf] at same
      · rw [List.concat_eq_append] at same redrafted ⊢
        rw [constructsOf_append, constructsOf_append] at same
        rcases List.append_inj' same rfl with ⟨earlier, here⟩
        have construct : stage.construct = other.construct := List.head_eq_of_cons_eq here
        rcases drafted.split rfl with ⟨begun, sameHeader, _, step⟩
        rcases redrafted.split rfl with ⟨rebegun, otherHeader, _, otherStep⟩
        have stageHeaded := sameHeader.trans headed
        have otherHeaded := otherHeader.trans reheaded
        rcases inductionHypothesis begun stageHeaded rebegun otherHeaded earlier
          (fun name binding member => agree name binding (by
            rw [constructsOf_append]
            exact List.mem_append_left _ member)) with ⟨standingSame, rulesSame⟩
        have state : stage.before.current = other.before.current := by
          rw [begun.current_eq stageHeaded, rebegun.current_eq otherHeaded, standingSame]
        have added := begun.stage_rules_eq rebegun step otherStep earlier construct state
          (fun name binding kind => agree name binding (Named.mem_constructsOf rfl kind))
        constructor
        · rw [standing_concat, standing_concat, step.effect.current_eq,
            otherStep.effect.current_eq, construct, begun.implicitState_eq rebegun earlier]
        · rw [List.flatMap_append, List.flatMap_append, rulesSame]
          simp [added]

/-- Sources with the same lines apart from directives are read into the same table, if
they can be read and agree on the modules that are called. -/
theorem parse_eq_of_plainLines {text other : String} {program otherProgram : Program}
    {registry otherRegistry : Registry} (same : plainLines text = plainLines other)
    (agree : forall name binding, .call name binding ∈ constructs text ->
      first.load name = second.load name)
    (parsed : parse first text = .ok (program, registry))
    (otherParsed : parse second other = .ok (otherProgram, otherRegistry)) :
    program = otherProgram := by
  rcases drafted_of_parse parsed with ⟨last, header, drafted, headed, found, items, rfl⟩
  rcases drafted_of_parse otherParsed with
    ⟨final, otherHeader, redrafted, reheaded, otherFound, otherItems, rfl⟩
  have headers : header = otherHeader := by
    rw [header?_eq_of_plainLines same, otherFound] at found
    exact (Option.some.inj found).symm
  subst headers
  have itemsSame : constructsOf (stages first text) = constructsOf (stages second other) := by
    rw [items, otherItems, constructs_eq_of_plainLines same]
  rcases drafted.rules_eq_of_constructs headed redrafted reheaded itemsSame
    (by rw [items]; exact agree) with ⟨state, rules⟩
  rw [state, rules]

end Source

namespace Compilation

open Source

/--
Only the modules that are called matter.  Two sources have the same lines apart from
their directives, and their modules agree on every name that is called.  If both can be
compiled, the programs and all counts are the same.  In particular, let a source have one
more declaration, of a module that can be loaded and is neither called nor declared
elsewhere.  Then it compiles to the same, or fails with the same error, as without this
declaration, except that the name of the module may be listed as unused.
-/
theorem only_called_modules_matter :
    (forall (texts otherTexts : List (String × String)) (text other : String)
        (compilation otherCompilation : Compilation),
      plainLines text = plainLines other ->
      (forall name binding, .call name binding ∈ constructs text ->
        texts.lookup name = otherTexts.lookup name) ->
      compile (Library.ofTexts texts) text = .ok compilation ->
      compile (Library.ofTexts otherTexts) other = .ok otherCompilation ->
        compilation.program = otherCompilation.program ∧
          compilation.parsedRules = otherCompilation.parsedRules ∧
          compilation.collapsedRules = otherCompilation.collapsedRules ∧
          compilation.removedRules = otherCompilation.removedRules) ∧
    (forall (texts otherTexts : List (String × String)) (before behind : List String)
        (line name shorter longer : String) (table : Program),
      (forall called, called ≠ name -> texts.lookup called = otherTexts.lookup called) ->
      (Library.ofTexts otherTexts).load name = .ok table ->
      declares? line = some name ->
      (forall other, other ∈ before ++ behind -> declares? other ≠ some name) ->
      Text.lines shorter = before ++ behind ->
      Text.lines longer = before ++ line :: behind ->
      (forall binding, Not (.call name binding ∈ constructs shorter)) ->
        (compile (Library.ofTexts texts) shorter).map (without name) =
          (compile (Library.ofTexts otherTexts) longer).map (without name)) := by
  have loads : forall {texts otherTexts : List (String × String)} {name : String},
      texts.lookup name = otherTexts.lookup name ->
        (Library.ofTexts texts).load name = (Library.ofTexts otherTexts).load name := by
    intro texts otherTexts name same
    simp only [Library.load, Library.ofTexts, same]
  constructor
  · intro texts otherTexts text other compilation otherCompilation same agree compiled
      otherCompiled
    rcases compile_eq_ok_iff.mp compiled with
      ⟨parsed, registry, collapsed, count, read, succeeded, rfl⟩
    rcases compile_eq_ok_iff.mp otherCompiled with
      ⟨otherParsed, otherRegistry, otherCollapsed, otherCount, otherRead, otherSucceeded, rfl⟩
    have programs : parsed = otherParsed :=
      parse_eq_of_plainLines same (fun name binding member => loads (agree name binding member))
        read otherRead
    subst programs
    rw [succeeded] at otherSucceeded
    cases otherSucceeded
    exact ⟨rfl, rfl, rfl, rfl⟩
  · intro texts otherTexts before behind line name shorter longer table agree loaded declared
      elsewhere linesShorter linesLonger uncalled
    exact compile_declaration (fun called different => loads (agree called different)) loaded
      declared elsewhere linesShorter linesLonger uncalled

/-- A source that calls the module `m`.  It compiles to the same when its directives are
moved to the front and `n` is declared as well, and when only `n` is declared behind the
header. -/
theorem only_called_modules_matter_of_two :
    Exists fun compilation : Compilation => Exists fun otherCompilation : Compilation =>
      compile (Library.ofTexts [("m", "s e\ns 0 e 1 >\ns 1 s 1 >\n")])
          "A B\n!module m\nm\n" = .ok compilation ∧
        compile (Library.ofTexts
            [("n", "x y\nx 0 y 0 -\n"), ("m", "s e\ns 0 e 1 >\ns 1 s 1 >\n")])
          "!module n\n!module m\nA B\nm\n" = .ok otherCompilation ∧
        compilation.program = otherCompilation.program ∧
        .ok (compilation.without "n") =
          (compile (Library.ofTexts
              [("n", "x y\nx 0 y 0 -\n"), ("m", "s e\ns 0 e 1 >\ns 1 s 1 >\n")])
            "A B\n!module n\n!module m\nm\n").map (without "n") := by
  have compiles : forall library text,
      (parse library text).toOption.map Prod.fst =
        some ⟨"A", ["B"],
          [⟨"A", .zero, "m(s_i0)", .zero, .stay⟩, ⟨"A", .one, "m(s_i0)", .one, .stay⟩,
           ⟨"m(s_i0)", .zero, "0", .one, .right⟩, ⟨"m(s_i0)", .one, "m(s_i0)", .one, .right⟩,
           ⟨"0", .zero, "B", .zero, .stay⟩, ⟨"0", .one, "B", .one, .stay⟩]⟩ ->
        Exists fun compilation : Compilation => compile library text = .ok compilation := by
    intro library text read
    rcases exists_compile read (.cons ⟨1, .taken rfl rfl (.closed rfl)⟩
      (.cons ⟨1, .taken rfl rfl (.closed rfl)⟩ (.cons ⟨0, .closed rfl⟩ (.cons ⟨0, .closed rfl⟩
        (.cons ⟨0, .closed rfl⟩ (.cons ⟨0, .closed rfl⟩ .nil)))))) with
      ⟨compilation, compiled, _⟩
    exact ⟨compilation, compiled⟩
  have cutText : constructs "A B\n!module m\nm\n" = [.call "m" ""] := by decide +kernel
  rcases compiles (Library.ofTexts [("m", "s e\ns 0 e 1 >\ns 1 s 1 >\n")])
    "A B\n!module m\nm\n" (by decide +kernel) with ⟨compilation, compiled⟩
  rcases compiles (Library.ofTexts
      [("n", "x y\nx 0 y 0 -\n"), ("m", "s e\ns 0 e 1 >\ns 1 s 1 >\n")])
    "!module n\n!module m\nA B\nm\n" (by decide +kernel) with ⟨otherCompilation, otherCompiled⟩
  refine ⟨compilation, otherCompilation, compiled, otherCompiled, ?_, ?_⟩
  · refine (only_called_modules_matter.1 _ _ _ _ _ _ (by decide +kernel) ?_ compiled
      otherCompiled).1
    intro name binding called
    rw [cutText] at called
    have same : name = "m" ∧ binding = "" := by simpa using called
    rw [same.1]
    rfl
  · have declaration := only_called_modules_matter.2
      [("m", "s e\ns 0 e 1 >\ns 1 s 1 >\n")]
      [("n", "x y\nx 0 y 0 -\n"), ("m", "s e\ns 0 e 1 >\ns 1 s 1 >\n")]
      ["A B"] ["!module m", "m"] "!module n" "n" "A B\n!module m\nm\n"
      "A B\n!module n\n!module m\nm\n" ⟨"x", ["y"], [⟨"x", .zero, "y", .zero, .stay⟩]⟩
      ?_ rfl (by decide +kernel) (by decide +kernel) (by decide +kernel) (by decide +kernel) ?_
    · rw [compiled] at declaration
      exact declaration
    · intro called different
      simp [List.lookup_cons, beq_eq_false_iff_ne.mpr different]
    · rw [cutText]
      simp

end Compilation

end BinaryTape
