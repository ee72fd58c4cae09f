import BinaryTape.Proofs.TableFormat

namespace BinaryTape

/-!
# Comment marks behind blanks

A comment mark makes a line a comment when it is the very first character of the line.
Behind a blank it does not: the line counts, and its first field starts with the mark.
Writing puts no blank in front of a line, so the mark of this field comes first there,
and what was a header or a rule is a comment when the table is read again.

Everything else about the layout of a table is lost without harm.  The names of a table
that was read are fields, and fields between single spaces are found again, so the lines
that hide a mark are the only ones that matter.  They can be told from the text alone.
-/

namespace Text

/-- The first run starts with the first value that is no separator. -/
theorem head?_runs {α : Type} {separator : α -> Bool} (values : List α) :
    (runs separator values).head?.bind List.head? = (values.dropWhile separator).head? := by
  induction values with
  | nil => rfl
  | cons value values inductionHypothesis =>
      cases separates : separator value with
      | true =>
          rw [runs_cons_separator separates, List.dropWhile_cons_of_pos separates,
            inductionHypothesis]
      | false => simp [runs, runStep, consRun, separates]

end Text

namespace Table

open Text (runs isTableBlank)

/-- A line that is no comment although the first character behind its blanks is the mark. -/
def HidesMark (line : List Char) : Prop :=
  line.head? ≠ some '#' ∧ (line.dropWhile isTableBlank).head? = some '#'

instance (line : List Char) : Decidable (HidesMark line) := inferInstanceAs (Decidable (_ ∧ _))

/-- Whether a line of these fields starts with the comment mark when it is written. -/
def startsMarked (fields : List String) : Bool := fields.head?.any isMarked

theorem startsMarked_runs (line : List Char) :
    startsMarked ((runs isTableBlank line).map String.ofList) = true ↔
      (line.dropWhile isTableBlank).head? = some '#' := by
  rw [← Text.head?_runs]
  cases runs isTableBlank line with
  | nil => simp [startsMarked]
  | cons run others => simp [startsMarked, isMarked]

/-- Only a line that counts can hide a mark. -/
theorem isFilled_of_hidesMark {line : List Char} (hides : HidesMark line) :
    isFilled line = true := by
  rcases hides with ⟨noComment, marked⟩
  have notBlank : line.all isTableBlank = false := by
    apply Bool.eq_false_iff.mpr
    intro blank
    rw [List.dropWhile_eq_nil_iff.mpr (List.all_eq_true.mp blank)] at marked
    cases marked
  simp [isFilled, noComment, notBlank]

theorem hidesMark_iff (line : List Char) :
    HidesMark line ↔
      isFilled line = true ∧ startsMarked ((runs isTableBlank line).map String.ofList) = true := by
  rw [startsMarked_runs]
  constructor
  · intro hides
    exact ⟨isFilled_of_hidesMark hides, hides.2⟩
  · rintro ⟨filled, marked⟩
    exact ⟨bne_iff_ne.mp (Bool.and_eq_true_iff.mp filled).1, marked⟩

/-- The lines of a text hide no mark exactly when the fields of its lines are written
without one in front. -/
theorem no_hidesMark_iff (text : List Char) :
    (forall line, line ∈ cutLines text -> Not (HidesMark line)) ↔
      forall fields, fields ∈ (filledLines text).map Prod.snd -> startsMarked fields = false := by
  simp only [filledLines, List.forall_mem_map, List.mem_filter, hidesMark_iff, not_and,
    and_imp, Bool.not_eq_true]

end Table

theorem Program.no_startsMarked_iff (program : Program) :
    (forall fields, fields ∈ program.fields -> Table.startsMarked fields = false) ↔
      Table.isMarked program.start = false ∧
        forall rule, rule ∈ program.rules -> Table.isMarked rule.state = false := by
  simp only [Program.fields, List.forall_mem_cons, List.forall_mem_map]
  rfl

namespace Table

/--
A table that was read is read back, once it is written, without the lines that start with
the comment mark then.  These are the lines in which the text hid the mark behind blanks, so
the same program is read back exactly when no line of the text does that.
-/
theorem rewritten_table_read_back_iff {text : String} {program : Program}
    (readable : read text = .ok program) :
    read (write program) = program.withoutMarked ∧
    (read (write program) = .ok program ↔
      forall line, line ∈ cutLines text.toList -> Not (HidesMark line)) := by
  have rewritten : read (write program) = program.withoutMarked :=
    (fielded_of_read readable).read_write (ends_ne_nil_of_read readable)
  refine ⟨rewritten, ?_⟩
  rw [rewritten, Program.withoutMarked_eq_ok_iff, ← Program.no_startsMarked_iff,
    ← ((read_eq_ok_iff text program).mp readable).2, no_hidesMark_iff]

/-- A program in which only a target starts with the mark. -/
def markedTarget : Program := ⟨"s", ["e"], [⟨"s", .zero, "#e", .one, .right⟩]⟩

/-- Blanks in front, a comment, three kinds of line ends and a marked target do no harm. -/
theorem rewritten_table_read_back_iff_of_loose_layout :
    read " s  e\r# c\n\ts 0 #e 1 >\r\n" = .ok markedTarget ∧
    read (write markedTarget) = .ok markedTarget := by
  have readable : read " s  e\r# c\n\ts 0 #e 1 >\r\n" = .ok markedTarget := rfl
  exact ⟨readable, (rewritten_table_read_back_iff readable).2.mpr (by decide +kernel)⟩

/-- A rule whose state starts with the mark is read behind a blank and lost when the table
is written. -/
theorem rewritten_table_loses_rule :
    Not (forall text program, read text = .ok program -> read (write program) = .ok program) := by
  intro kept
  have readable : read "s e\n #x 0 e 0 >\n" =
      .ok ⟨"s", ["e"], [⟨"#x", .zero, "e", .zero, .right⟩]⟩ := rfl
  have lost : read (write ⟨"s", ["e"], [⟨"#x", .zero, "e", .zero, .right⟩]⟩) =
      .ok ⟨"s", ["e"], []⟩ := rfl
  have same := (kept _ _ readable).symm.trans lost
  cases same

end Table

end BinaryTape
