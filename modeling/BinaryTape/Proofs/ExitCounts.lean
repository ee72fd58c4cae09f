import BinaryTape.Proofs.BindingForms
import BinaryTape.Proofs.Failures
import BinaryTape.Proofs.FileContents

namespace BinaryTape

/-!
# As many exits as end states

The number of exits is looked after twice.  Resolving a binding gives one exit for each
end state, in a different way for each form; calling a module compares the two numbers
before anything is copied.  The comparison never fails for a module that has an end
state.  Without end states there is one binding that gives an exit nevertheless: a bare
target, which is refused only when there are several end states to choose from.

A source cannot call such a module.  Tables are read with a header that has to name an
end state, and the header of the source itself is held to the same rule, so that there is
an end state to fall through to.
-/

namespace Binding

/--
Exits match the end states of every module, with the number of end states left open, unless
the module has none of them and the binding is a bare target.  Where they match, the
module can be called with them.  In the remaining case the target is taken for an exit, and
no call is possible.
-/
theorem exits_match_ends_iff (entry : Module.Entry) (binding : String) (default : StateName) :
    ((forall result, exits entry.declared binding default = .ok result ->
        result.length = entry.declared.ends.length ∧
          forall entryState, entry.instantiate entryState result =
            .ok (Instance.rules entry.declared entry.scope entryState result, entry.advance)) ↔
      Not (entry.declared.ends = [] ∧
        Exists fun target : StateName => IsBareTarget binding target)) ∧
    (forall target, entry.declared.ends = [] -> IsBareTarget binding target ->
      exits entry.declared binding default = .ok [target] ∧
        forall entryState, entry.instantiate entryState [target] =
          .error (.exitCountMismatch entry.declared.name 0 1)) := by
  have taken : forall target, entry.declared.ends = [] -> IsBareTarget binding target ->
      exits entry.declared binding default = .ok [target] := by
    rintro target endless ⟨only, colonless, unmarked⟩
    rw [exits_of_unmarked only colonless unmarked, endless]
    exact if_neg (Nat.not_lt_zero 1)
  refine ⟨⟨?_, ?_⟩, ?_⟩
  · rintro fits ⟨endless, target, bare⟩
    have lengths := (fits [target] (taken target endless bare)).1
    rw [endless] at lengths
    cases lengths
  · intro otherwise result resolved
    have lengths := (length_or_bare_of_exits resolved).resolve_right otherwise
    exact ⟨lengths, fun entryState => if_pos lengths.symm⟩
  · intro target endless bare
    refine ⟨taken target endless bare, fun entryState => ?_⟩
    rw [Module.Entry.instantiate, endless]
    rfl

/-- A module that leaves through one of its two end states. -/
def forked : Module :=
  .declare "two" ⟨"s", ["a", "b"],
    [⟨"s", .zero, "a", .zero, .left⟩, ⟨"s", .one, "b", .zero, .right⟩]⟩

/-- A module with two end states of which a binding names the second; and a table without
end states, used as it is, which a marked target gives no exits.  Both can be called with
what they get. -/
theorem exits_match_ends_iff_of_marked :
    (exits forked "b:x" "7" = .ok ["7", "x"] ∧
      (Module.Entry.mk forked 4).instantiate "A" ["7", "x"] =
        .ok (Rule.handOver "A" "two(s_i4)" ++
          [⟨"two(s_i4)", .zero, "7", .zero, .left⟩, ⟨"two(s_i4)", .one, "x", .zero, .right⟩],
          ⟨forked, 5⟩)) ∧
    exits (.ofProgram "m" ⟨"s", [], []⟩) "!next" "7" = .ok [] ∧
      (Module.Entry.ofModule (.ofProgram "m" ⟨"s", [], []⟩)).instantiate "A" [] =
        .ok (Rule.handOver "A" "s_i0)", ⟨.ofProgram "m" ⟨"s", [], []⟩, 1⟩) := by
  have named : exits forked "b:x" "7" = .ok ["7", "x"] := rfl
  have resolved : exits (.ofProgram "m" ⟨"s", [], []⟩) "!next" "7" = .ok [] := rfl
  have marked : forall target, Not (IsBareTarget "!next" target) := by
    rintro target ⟨only, _, unmarked⟩
    have token : target = "!next" := (List.cons.inj only).1.symm
    exact unmarked (token ▸ rfl)
  have fitsTwo := (exits_match_ends_iff ⟨forked, 4⟩ "b:x" "7").1.mpr
    (fun endless => List.cons_ne_nil _ _ endless.1)
  have fits := (exits_match_ends_iff (.ofModule (.ofProgram "m" ⟨"s", [], []⟩)) "!next" "7").1.mpr
    (fun bare => marked bare.2.choose bare.2.choose_spec)
  exact ⟨⟨named, (fitsTwo _ named).2 "A"⟩, resolved, (fits [] resolved).2 "A"⟩

/-- The table without end states with a bare target: there is an exit without an end
state. -/
theorem exit_without_end_state :
    Not (forall (declared : Module) (binding : String) (default : StateName)
      (result : List StateName), exits declared binding default = .ok result ->
        result.length = declared.ends.length) := by
  intro contract
  have lengths := contract (.ofProgram "m" ⟨"s", [], []⟩) "next" "7" ["next"] rfl
  cases lengths

end Binding

/-! ## Libraries -/

/-- If there is no table in an answer, it could not be found or read. -/
def Library.Answer.FailsByTable (answer : Library.Answer) : Prop :=
  forall error, answer.program = .error error -> error.isOfTable = true

theorem FileAccess.isOfTable_of_library {σ : Type} (files : FileAccess (StateM σ))
    (folders names : List String) (world : σ) {name : String} {error : Error}
    (failed : ((files.library folders names).run world).1.load name = .error error) :
    error.isOfTable = true := by
  have fails : (((files.library folders names).run world).1.lookUp name).FailsByTable := by
    refine files.forall_lookUp_library ?_ ?_ folders names world name
    · intro path world other unloaded
      simp only [loadProgram, readText, bind, StateT.bind, StateT.run] at unloaded
      cases fetched : files.read path world with
      | mk content after =>
          simp only [fetched] at unloaded
          cases content with
          | ok text => exact Table.isOfTable_of_read unloaded
          | error fault =>
              cases unloaded
              rfl
    · rintro absent searched _ ⟨⟩
      rfl
  exact fails error failed

namespace Source

variable {library : Library} {text name : String} {ends exits : Nat}

/-- With tables that were read, no call is a misfit. -/
theorem not_misfit (tables : library.FromTables) (error : Error) :
    Not (Misfit library error) := by
  rintro ⟨name, program, binding, default, exits, loaded, resolved, differ, _⟩
  rcases tables name program loaded with ⟨text, read⟩
  have filled : (Module.declare name program).ends ≠ [] := by
    simpa [Module.declare] using Table.ends_ne_nil_of_read read
  exact differ (Binding.length_of_exits filled resolved).symm

/-- Only the library itself can be the origin of a wrong number of exits. -/
theorem load_of_parse_exitCountMismatch (tables : library.FromTables)
    (failed : parse library text = .error (.exitCountMismatch name ends exits)) :
    Exists fun asked : String =>
      library.load asked = .error (.exitCountMismatch name ends exits) := by
  rcases parse_eq_error failed with ⟨last, reading⟩ | impossible
  · rcases (stopped_of_readAll reading).origin with ofText | unloaded | misfit
    · cases ofText
    · exact unloaded
    · exact absurd misfit (not_misfit tables _)
  · cases impossible

/-- The header of a source that was read up to its end: the words of the first line that
counts, of which there are two at least. -/
theorem words_of_readAll {draft : Draft} {header : Header}
    (read : readAll library text = .done draft) (headed : draft.header = some header) :
    Exists fun line : String => ((Text.lines text).filter isSignificant).head? = some line ∧
      Text.words (String.ofList (Text.splitAtFirst '#' line.toList).1) =
        header.start :: header.ends := by
  have found : header? text = some header := by
    rw [← headed, (Drafted.empty.readLines read).2.1]
    rfl
  rcases Option.bind_eq_some_iff.mp found with ⟨line, first, read⟩
  exact ⟨line, first, words_of_lineHeader? read⟩

/--
A wrong number of exits is never reported, and there is always an end state to fall through
to.  No source fails with a wrong number of exits when its modules are held in memory or in
files, whatever its bindings are; with any other library of tables that were read, only the
library itself can be the origin of such an error.  And when a source has been read up to
its end under a header, its first line that counts has a word for the start state and at
least one more; the first of these is the end state that the program falls through to.
-/
theorem exit_counts_never_differ :
    (forall (texts : List (String × String)) (text name : String) (ends exits : Nat),
      parse (.ofTexts texts) text ≠ .error (.exitCountMismatch name ends exits)) ∧
    (forall (σ : Type) (files : FileAccess (StateM σ)) (folders names : List String) (world : σ)
      (text name : String) (ends exits : Nat),
      parse ((files.library folders names).run world).1 text ≠
        .error (.exitCountMismatch name ends exits)) ∧
    (forall (library : Library) (text name : String) (ends exits : Nat),
      library.FromTables ->
        parse library text = .error (.exitCountMismatch name ends exits) ->
          Exists fun asked : String =>
            library.load asked = .error (.exitCountMismatch name ends exits)) ∧
    (forall (library : Library) (text : String) (draft : Draft) (header : Header),
      readAll library text = .done draft -> draft.header = some header ->
        Exists fun line : String => Exists fun first : StateName =>
          Exists fun others : List StateName =>
            ((Text.lines text).filter isSignificant).head? = some line ∧
            Text.words (String.ofList (Text.splitAtFirst '#' line.toList).1) =
              header.start :: first :: others ∧
            draft.finish = .ok ⟨header.start, first :: others,
              draft.rules.toList ++ Rule.handOver draft.current first⟩) := by
  refine ⟨?_, ?_, ?_, ?_⟩
  · intro texts text name ends exits failed
    rcases load_of_parse_exitCountMismatch (Library.fromTables_ofTexts texts) failed with
      ⟨asked, unloaded⟩
    cases Library.isOfTable_of_ofTexts unloaded
  · intro σ files folders names world text name ends exits failed
    rcases load_of_parse_exitCountMismatch (files.fromTables_library folders names world)
      failed with ⟨asked, unloaded⟩
    cases files.isOfTable_of_library folders names world unloaded
  · intro library text name ends exits tables failed
    exact load_of_parse_exitCountMismatch tables failed
  · intro library text draft header read headed
    rcases words_of_readAll read headed with ⟨line, counts, words⟩
    rcases header with ⟨start, _ | ⟨first, others⟩, filled⟩
    · exact absurd rfl filled
    · refine ⟨line, first, others, counts, words, ?_⟩
      rw [Draft.finish, headed]
      rfl

/-- A module with two end states in memory. -/
def twoEnds : Library := .ofTexts [("m", "s e f\n")]

/-- A binding that names one of them, under a header with a comment. -/
def oneEndBound : String := "A B C# c\n!module m\nm(f:B)\n"

theorem exit_counts_never_differ_of_two_ends :
    twoEnds.FromTables ∧
    (forall (name : String) (ends exits : Nat),
      parse twoEnds oneEndBound ≠ .error (.exitCountMismatch name ends exits)) ∧
    Exists fun draft : Draft => readAll twoEnds oneEndBound = .done draft ∧
      draft.finish = .ok ⟨"A", ["B", "C"], draft.rules.toList ++ Rule.handOver "0" "B"⟩ := by
  have tables : twoEnds.FromTables := Library.fromTables_ofTexts _
  refine ⟨tables, ?_, ?_⟩
  · intro name ends exits failed
    rcases exit_counts_never_differ.2.2.1 _ _ name ends exits tables failed with
      ⟨asked, unloaded⟩
    cases Library.isOfTable_of_ofTexts unloaded
  · have read : (readAll twoEnds oneEndBound).failure = none ∧
        (readAll twoEnds oneEndBound).draft.header =
          some ⟨"A", ["B", "C"], List.cons_ne_nil _ _⟩ ∧
        (readAll twoEnds oneEndBound).draft.current = "0" := by
      decide +kernel
    cases reading : readAll twoEnds oneEndBound with
    | mk draft failure =>
        rw [reading] at read
        rcases read with ⟨rfl, headed, current⟩
        rcases exit_counts_never_differ.2.2.2 _ _ draft _ reading headed with
          ⟨line, first, others, counts, words, finished⟩
        have onLine : line = "A B C# c" := Option.some.inj (counts.symm.trans (by decide +kernel))
        rw [onLine] at words
        have names : "A" :: first :: others = ["A", "B", "C"] :=
          words.symm.trans (by decide +kernel)
        cases names
        rw [current] at finished
        exact ⟨draft, rfl, finished⟩

end Source

end BinaryTape
