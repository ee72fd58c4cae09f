import BinaryTape.Proofs.Readings
import BinaryTape.Proofs.StraightTables
import BinaryTape.Proofs.TableText
import BinaryTape.Proofs.TwoWayTape

namespace BinaryTape

/-!
# Straight sources

A straight source has a header line and behind it nothing but moves, writes, blanks and
line ends.  Such a source can always be compiled.  Its characters can be applied one
after the other to the cells of a tape, and a run of the compiled table does the same
with one step for each move and one for the end.

The header line is told as it is written, with the white space between its names, and
the characters are told by what they do to a row of cells.  Neither mentions how lines
are read or how a machine holds its tape.
-/

namespace Source

/-! ## Header lines -/

/-- White space that stays on its line. -/
def isGap (text : String) : Bool :=
  text.toList.all (fun character => Text.isWhiteSpace character && character != '\n')

/-- Whether a header can name a state so: without white space and the mark of comments. -/
def isHeaderName (name : String) : Bool :=
  name != "" &&
    name.toList.all (fun character => !Text.isWhiteSpace character && character != '#')

/-- A header line as it is written: a start state and end states, with white space in
front of each end state and perhaps at both ends of the line. -/
structure HeaderLine where
  front : String
  start : StateName
  ends : List (String × StateName)
  back : String
  ends_ne_nil : ends ≠ []
  front_blank : isGap front = true
  gaps_blank : forall spaced, spaced ∈ ends -> spaced.1 ≠ "" ∧ isGap spaced.1 = true
  back_blank : isGap back = true
  names_plain : forall name, name ∈ start :: ends.map Prod.snd -> isHeaderName name = true
  start_unmarked : start.toList.head? ≠ some '!'

/-- The characters of names, each behind its gap, and of a gap at the end. -/
def spacedNames (names : List (String × StateName)) (back : String) : List Char :=
  names.flatMap (fun spaced => spaced.1.toList ++ spaced.2.toList) ++ back.toList

namespace HeaderLine

def header (line : HeaderLine) : Header where
  start := line.start
  ends := line.ends.map Prod.snd
  ends_ne_nil := fun nothing => line.ends_ne_nil (List.map_eq_nil_iff.mp nothing)

def text (line : HeaderLine) : String :=
  line.front ++ line.start ++ String.join (line.ends.map (fun spaced => spaced.1 ++ spaced.2)) ++
    line.back

theorem toList_text (line : HeaderLine) :
    line.text.toList =
      line.front.toList ++ (line.start.toList ++ spacedNames line.ends line.back) := by
  simp [text, spacedNames, String.toList_join, List.flatMap_map]

end HeaderLine

theorem isWhiteSpace_of_isGap {gap : String} (blank : isGap gap = true) {character : Char}
    (member : character ∈ gap.toList) :
    Text.isWhiteSpace character = true ∧ character ≠ '\n' := by
  have both := List.all_eq_true.mp blank character member
  simpa using both

theorem ne_nil_of_isHeaderName {name : String} (plain : isHeaderName name = true) :
    name.toList ≠ [] := by
  simp only [isHeaderName, Bool.and_eq_true, bne_iff_ne, ne_eq] at plain
  exact fun empty => plain.1 (String.toList_eq_nil_iff.mp empty)

theorem not_isWhiteSpace_of_isHeaderName {name : String} (plain : isHeaderName name = true)
    {character : Char} (member : character ∈ name.toList) :
    Text.isWhiteSpace character = false ∧ character ≠ '#' := by
  have both := List.all_eq_true.mp (Bool.and_eq_true_iff.mp plain).2 character member
  simpa using both

/-- White space or nothing stands in front of spaced names. -/
theorem isWhiteSpace_of_head?_spacedNames {names : List (String × StateName)} {back : String}
    (gaps : forall spaced, spaced ∈ names -> spaced.1 ≠ "" ∧ isGap spaced.1 = true)
    (blank : isGap back = true) {character : Char}
    (first : character ∈ (spacedNames names back).head?) :
    Text.isWhiteSpace character = true := by
  cases names with
  | nil => exact (isWhiteSpace_of_isGap blank (List.mem_of_mem_head? first)).1
  | cons spaced names =>
      rcases spaced with ⟨gap, name⟩
      rcases gaps (gap, name) List.mem_cons_self with ⟨filled, gapBlank⟩
      have gapFilled : gap.toList ≠ [] := fun empty => filled (String.toList_eq_nil_iff.mp empty)
      rw [spacedNames, List.flatMap_cons, List.append_assoc, List.append_assoc,
        List.head?_append_of_ne_nil _ gapFilled] at first
      exact (isWhiteSpace_of_isGap gapBlank (List.mem_of_mem_head? first)).1

theorem runs_spacedNames {names : List (String × StateName)} {back : String}
    (gaps : forall spaced, spaced ∈ names -> spaced.1 ≠ "" ∧ isGap spaced.1 = true)
    (plain : forall name, name ∈ names.map Prod.snd -> isHeaderName name = true)
    (blank : isGap back = true) :
    Text.runs Text.isWhiteSpace (spacedNames names back) =
      names.map (fun spaced => spaced.2.toList) := by
  induction names with
  | nil =>
      exact Text.runs_append_separators
        (fun _ member => (isWhiteSpace_of_isGap blank member).1) []
  | cons spaced names inductionHypothesis =>
      rcases spaced with ⟨gap, name⟩
      have gapBlank := (gaps (gap, name) List.mem_cons_self).2
      have here := plain name List.mem_cons_self
      have laterGaps := fun other member => gaps other (List.mem_cons_of_mem _ member)
      have later := inductionHypothesis laterGaps
        (fun other member => plain other (List.mem_cons_of_mem _ member))
      have unfolded : spacedNames ((gap, name) :: names) back =
          gap.toList ++ (name.toList ++ spacedNames names back) := by
        simp [spacedNames]
      rw [unfolded, Text.runs_append_of_separators
          (fun _ member => (isWhiteSpace_of_isGap gapBlank member).1),
        Text.runs_append_of_free (ne_nil_of_isHeaderName here)
          (fun _ member => (not_isWhiteSpace_of_isHeaderName here member).1)
          (fun _ first => isWhiteSpace_of_head?_spacedNames laterGaps blank first),
        later, List.map_cons]

namespace HeaderLine

variable (line : HeaderLine)

theorem words_text : Text.words line.text = line.header.start :: line.header.ends := by
  have plain := line.names_plain line.start List.mem_cons_self
  have ends := runs_spacedNames line.gaps_blank
    (fun name member => line.names_plain name (List.mem_cons_of_mem _ member)) line.back_blank
  rw [Text.words, toList_text, Text.runs_append_of_separators
      (fun _ member => (isWhiteSpace_of_isGap line.front_blank member).1),
    Text.runs_append_of_free (ne_nil_of_isHeaderName plain)
      (fun _ member => (not_isWhiteSpace_of_isHeaderName plain member).1)
      (fun _ first => isWhiteSpace_of_head?_spacedNames line.gaps_blank line.back_blank first),
    ends]
  simp [header, Function.comp_def]

/-- A header line holds white space on its line and characters of names. -/
theorem mem_text {character : Char} (member : character ∈ line.text.toList) :
    (Text.isWhiteSpace character = true ∧ character ≠ '\n') ∨
      (Text.isWhiteSpace character = false ∧ character ≠ '#') := by
  rw [toList_text, List.mem_append, List.mem_append, spacedNames, List.mem_append] at member
  rcases member with front | start | ends | back
  · exact Or.inl (isWhiteSpace_of_isGap line.front_blank front)
  · exact Or.inr (not_isWhiteSpace_of_isHeaderName
      (line.names_plain _ List.mem_cons_self) start)
  · rcases List.mem_flatMap.mp ends with ⟨⟨gap, name⟩, inside, either⟩
    rcases List.mem_append.mp either with between | named
    · exact Or.inl (isWhiteSpace_of_isGap (line.gaps_blank (gap, name) inside).2 between)
    · have listed := List.mem_map_of_mem (f := Prod.snd) inside
      exact Or.inr (not_isWhiteSpace_of_isHeaderName
        (line.names_plain name (List.mem_cons_of_mem _ listed)) named)
  · exact Or.inl (isWhiteSpace_of_isGap line.back_blank back)

theorem one_line : Not ('\n' ∈ line.text.toList) := by
  intro member
  rcases line.mem_text member with blank | plain
  · exact blank.2 rfl
  · exact absurd plain.1 (by decide)

theorem uncommented : Not ('#' ∈ line.text.toList) := by
  intro member
  rcases line.mem_text member with blank | plain
  · exact absurd blank.1 (by decide)
  · exact plain.2 rfl

theorem undirected : line.text.toList.head? ≠ some '!' := by
  rw [toList_text]
  cases front : line.front.toList with
  | nil =>
      have filled := ne_nil_of_isHeaderName (line.names_plain _ List.mem_cons_self)
      rw [List.nil_append, List.head?_append_of_ne_nil _ filled]
      exact line.start_unmarked
  | cons character rest =>
      intro first
      have member : '!' ∈ line.front.toList := by
        rw [front, ← Option.some.inj first]
        exact List.mem_cons_self
      exact absurd (isWhiteSpace_of_isGap line.front_blank member).1 (by decide)

end HeaderLine

/-- The first line of a source is its header line if its words are those of the header. -/
theorem readLine_header {line : String} {header : Header}
    (words : Text.words line = header.start :: header.ends)
    (uncommented : Not ('#' ∈ line.toList)) (undirected : line.toList.head? ≠ some '!')
    (library : Library) :
    readLine library line .empty = .done (Draft.empty.setHeader header) := by
  have filled : Text.isBlankText line = false := by
    apply Bool.eq_false_iff.mpr
    intro blank
    have nothing := Text.runs_append_separators (List.all_eq_true.mp blank) []
    rw [List.nil_append] at nothing
    rw [Text.words, nothing] at words
    cases words
  have unmarked : line.toList.head? ≠ some '#' :=
    fun first => uncommented (List.mem_of_mem_head? first)
  have significant : isSignificant line = true := by
    simp [isSignificant, filled, unmarked, undirected]
  have parsed : Header.parse line = .ok header := by
    rcases header with ⟨start, ends, ends_ne_nil⟩
    cases ends with
    | nil => exact absurd rfl ends_ne_nil
    | cons first others =>
        rw [Header.parse, words]
        rfl
  rw [readLine_of_significant significant]
  simp only [Draft.empty, readHeader, splitAtFirst_of_not_mem uncommented,
    String.ofList_toList, parsed]

end Source

/-! ## Lines -/

namespace Text

/-- A line ends before a line feed, and before a carriage return in front of it. -/
theorem exists_lineList_eq {line : List Char} (oneLine : Not ('\n' ∈ line)) (rest : List Char) :
    Exists fun first : List Char => Exists fun ending : List Char =>
      lineList (line ++ '\n' :: rest) = first :: lineList rest ∧ line = first ++ ending ∧
        forall character, character ∈ ending -> character = '\r' := by
  induction line with
  | nil => exact ⟨[], [], rfl, rfl, fun _ impossible => nomatch impossible⟩
  | cons character line inductionHypothesis =>
      have plain : character ≠ '\n' := fun same => oneLine (List.mem_cons.mpr (Or.inl same.symm))
      rcases inductionHypothesis (fun member => oneLine (List.mem_cons_of_mem _ member)) with
        ⟨first, ending, cut, split, returns⟩
      by_cases last : character = '\r' ∧ line = []
      · rcases last with ⟨rfl, rfl⟩
        exact ⟨[], ['\r'], rfl, rfl, fun _ member => List.mem_singleton.mp member⟩
      · have inside : forall behind, character = '\r' -> line ++ '\n' :: rest = '\n' :: behind ->
            False := by
          intro behind same starts
          cases line with
          | nil => exact last ⟨same, rfl⟩
          | cons next line =>
              have feeds : next = '\n' := List.head_eq_of_cons_eq starts
              exact oneLine (feeds ▸ List.mem_cons_of_mem _ List.mem_cons_self)
        refine ⟨character :: first, ending, ?_, congrArg _ split, returns⟩
        rw [List.cons_append, lineList, cut]
        · rfl
        · exact plain
        · exact inside

theorem lineList_of_line {line : List Char} (filled : line ≠ []) (oneLine : Not ('\n' ∈ line)) :
    lineList line = [line] := by
  induction line with
  | nil => exact absurd rfl filled
  | cons character line inductionHypothesis =>
      have plain : character ≠ '\n' := fun same => oneLine (List.mem_cons.mpr (Or.inl same.symm))
      have later : Not ('\n' ∈ line) := fun member => oneLine (List.mem_cons_of_mem _ member)
      have inside : forall behind, character = '\r' -> line = '\n' :: behind -> False :=
        fun behind _ starts => later (starts ▸ List.mem_cons_self)
      rw [lineList]
      · cases line with
        | nil => rfl
        | cons next line =>
            rw [inductionHypothesis (List.cons_ne_nil _ _) later]
            rfl
      · exact plain
      · exact inside

theorem flatten_consLine (character : Char) (lines : List (List Char)) :
    (consLine character lines).flatten = character :: lines.flatten := by
  cases lines <;> rfl

theorem flatten_lineList_sublist (text : List Char) : (lineList text).flatten.Sublist text := by
  fun_induction lineList text with
  | case1 => exact .slnil
  | case2 rest inductionHypothesis => exact inductionHypothesis.cons _
  | case3 rest inductionHypothesis => exact (inductionHypothesis.cons _).cons _
  | case4 character rest _ _ inductionHypothesis =>
      rw [flatten_consLine]
      exact inductionHypothesis.cons_cons _

/-- The lines of a text mean what the text means, if line ends mean nothing. -/
theorem filterMap_flatten_lineList {meaning : Char -> Option α} (feed : meaning '\n' = none)
    (carriage : meaning '\r' = none) (text : List Char) :
    (lineList text).flatten.filterMap meaning = text.filterMap meaning := by
  fun_induction lineList text with
  | case1 => rfl
  | case2 rest inductionHypothesis =>
      rw [List.filterMap_cons_none feed]
      exact inductionHypothesis
  | case3 rest inductionHypothesis =>
      rw [List.filterMap_cons_none carriage, List.filterMap_cons_none feed]
      exact inductionHypothesis
  | case4 character rest _ _ inductionHypothesis =>
      rw [flatten_consLine, List.filterMap_cons, List.filterMap_cons, inductionHypothesis]

end Text

/-! ## Reading straight text -/

namespace Straight

/-- The characters of straight text: moves, writes, blanks and line ends. -/
def alphabet : List Char := ['<', '>', '0', '1', ' ', '\t', '\n', '\r']

namespace Action

/-- What a character of straight text does; blanks and line ends do nothing. -/
def ofChar? : Char -> Option Action
  | '<' => some (move .left rfl)
  | '>' => some (move .right rfl)
  | '0' => some (write .zero)
  | '1' => some (write .one)
  | _ => none

theorem ofChar?_of_isWhiteSpace {character : Char}
    (blank : Text.isWhiteSpace character = true) : ofChar? character = none := by
  fun_cases ofChar? character with
  | case1 => exact absurd blank (by decide)
  | case2 => exact absurd blank (by decide)
  | case3 => exact absurd blank (by decide)
  | case4 => exact absurd blank (by decide)
  | case5 => rfl

/-- What an action adds to a draft. -/
def enact (draft : Source.Draft) : Action -> Source.Draft
  | write symbol => draft.writeSymbol symbol
  | move direction _ => draft.moveHead direction

end Action

def actions (text : List Char) : List Action := text.filterMap Action.ofChar?

open Source

theorem readText_straight {text : List Char}
    (straight : forall character, character ∈ text -> character ∈ alphabet) (line : String)
    (draft : Draft) :
    readText line text .nothing draft = .done ((actions text).foldl Action.enact draft) := by
  induction text generalizing draft with
  | nil => rfl
  | cons character rest inductionHypothesis =>
      have later := inductionHypothesis (fun other member =>
        straight other (List.mem_cons_of_mem _ member))
      have known := straight character List.mem_cons_self
      simp only [alphabet, List.mem_cons, List.not_mem_nil, or_false] at known
      rcases known with rfl | rfl | rfl | rfl | rfl | rfl | rfl | rfl <;> exact later _

theorem header_foldl_enact (actions : List Action) (draft : Draft) :
    (actions.foldl Action.enact draft).header = draft.header := by
  induction actions generalizing draft with
  | nil => rfl
  | cons action rest inductionHypothesis =>
      rw [List.foldl_cons, inductionHypothesis]
      cases action <;> rfl

/-- A blank line has no actions, and any other line of straight text is program text. -/
theorem readLine_straight {line : String} {draft : Draft}
    (straight : forall character, character ∈ line.toList -> character ∈ alphabet)
    (headed : draft.header ≠ none) (library : Library) :
    readLine library line draft =
      .done ((actions line.toList).foldl Action.enact draft) := by
  cases blank : Text.isBlankText line with
  | true =>
      have nothing : actions line.toList = [] := by
        apply List.filterMap_eq_nil_iff.mpr
        intro character member
        exact Action.ofChar?_of_isWhiteSpace (List.all_eq_true.mp blank character member)
      rw [nothing, readLine, if_pos blank]
      rfl
  | false =>
      have unmarked : forall mark, Not (mark ∈ alphabet) -> line.toList.head? ≠ some mark :=
        fun mark foreign first => foreign (straight mark (List.mem_of_mem_head? first))
      have significant : isSignificant line = true := by
        simp [isSignificant, blank, unmarked '#' (by decide), unmarked '!' (by decide)]
      cases header : draft.header with
      | none => exact absurd header headed
      | some found =>
          rw [readLine_of_significant significant, header, ← readText_straight straight line,
            readText_eq_perform]

theorem readLines_straight {lines : List String} {draft : Draft}
    (straight : forall line, line ∈ lines -> forall character, character ∈ line.toList ->
      character ∈ alphabet)
    (headed : draft.header ≠ none) (library : Library) :
    readLines library lines draft =
      .done ((lines.flatMap (fun line => actions line.toList)).foldl Action.enact draft) := by
  induction lines generalizing draft with
  | nil => rfl
  | cons line lines inductionHypothesis =>
      rw [readLines, readLine_straight (straight line List.mem_cons_self) headed,
        List.flatMap_cons, List.foldl_append]
      apply inductionHypothesis (fun other member => straight other (List.mem_cons_of_mem _ member))
      rw [header_foldl_enact]
      exact headed

/-- A draft that is brought to its end behind straight text has a pair of rules for each
place of the text. -/
theorem rules_foldl_enact (final : StateName) (actions : List Action) (draft : Draft) :
    (actions.foldl Action.enact draft).rules.toList ++
        Rule.handOver (actions.foldl Action.enact draft).current final =
      draft.rules.toList ++
        pairs (Place.given final) (⟨draft.current, draft.nextImplicit, actions⟩ ::
          behind draft.nextImplicit actions) := by
  induction actions generalizing draft with
  | nil => rfl
  | cons action rest inductionHypothesis =>
      rw [List.foldl_cons, inductionHypothesis, behind, pairs_cons _ ⟨draft.current, _, _⟩]
      cases action with
      | write symbol => simp [Action.enact, Draft.writeSymbol, Draft.advance, Draft.implicitState,
          Rule.writing, Place.given]
      | move direction moves => simp [Action.enact, Draft.moveHead, Draft.advance,
          Draft.implicitState, Rule.moving, Place.given]

theorem finish_foldl_enact (header : Header) (actions : List Action) :
    (actions.foldl Action.enact (Draft.empty.setHeader header)).finish =
      .ok (readTable header actions) := by
  have rules := rules_foldl_enact header.firstEnd actions (Draft.empty.setHeader header)
  rw [Draft.finish, header_foldl_enact]
  exact congrArg (fun rules => Except.ok (Program.mk header.start header.ends rules)) rules

/-- The text behind a header line: nothing, or a line feed and straight text. -/
structure Follows (rest : String) : Prop where
  feeds : rest = "" ∨ rest.toList.head? = some '\n'
  straight : forall character, character ∈ rest.toList -> character ∈ alphabet

variable {line : HeaderLine} {rest : String}

/-- Behind its header line, perhaps without a carriage return, a straight source has lines
of straight text with the actions of the whole. -/
theorem exists_lines (line : HeaderLine) (follows : Follows rest) :
    Exists fun first : String => Exists fun ending : List Char => Exists fun lines : List String =>
      Text.lines (line.text ++ rest) = first :: lines ∧
        line.text.toList = first.toList ++ ending ∧
        (forall character, character ∈ ending -> character = '\r') ∧
        lines.flatMap (fun other => actions other.toList) = actions rest.toList ∧
        forall other, other ∈ lines -> forall character, character ∈ other.toList ->
          character ∈ alphabet := by
  rw [Text.lines, String.toList_append]
  rcases follows.feeds with rfl | feeds
  · have filled : line.text.toList ≠ [] := by
      intro empty
      have words := line.words_text
      rw [Text.words, empty] at words
      cases words
    have alone := Text.lineList_of_line filled line.one_line
    refine ⟨line.text, [], [], ?_, (List.append_nil _).symm,
      fun _ impossible => (nomatch impossible), rfl, fun _ impossible => nomatch impossible⟩
    rw [String.toList_empty, List.append_nil, alone, List.map_singleton, String.ofList_toList]
  · rcases List.head?_eq_some_iff.mp feeds with ⟨behind, characters⟩
    rcases Text.exists_lineList_eq line.one_line behind with ⟨first, ending, cut, split, returns⟩
    refine ⟨String.ofList first, ending, (Text.lineList behind).map String.ofList, ?_, ?_, returns,
      ?_, ?_⟩
    · rw [characters, cut, List.map_cons]
    · rw [split, String.toList_ofList]
    · have whole : (Text.lineList behind).flatMap actions = actions behind := by
        rw [List.flatMap_def, actions, ← Text.filterMap_flatten_lineList rfl rfl,
          List.filterMap_flatten]
        rfl
      rw [characters, List.flatMap_map]
      simp only [String.toList_ofList]
      exact whole
    · intro other listed character member
      rcases List.mem_map.mp listed with ⟨own, inside, rfl⟩
      rw [String.toList_ofList] at member
      apply follows.straight
      rw [characters]
      exact List.mem_cons_of_mem _ ((Text.flatten_lineList_sublist behind).subset
        (List.mem_flatten_of_mem inside member))

theorem readLine_first {first : String} {ending : List Char}
    (split : line.text.toList = first.toList ++ ending)
    (returns : forall character, character ∈ ending -> character = '\r') (library : Library) :
    readLine library first .empty = .done (Draft.empty.setHeader line.header) := by
  apply readLine_header
  · have blank : forall character, character ∈ ending -> Text.isWhiteSpace character = true := by
      intro character member
      rw [returns character member]
      decide
    rw [← line.words_text, Text.words, Text.words, split, Text.runs_append_separators blank]
  · intro mark
    apply line.uncommented
    rw [split]
    exact List.mem_append_left _ mark
  · intro mark
    apply line.undirected
    rw [split, List.head?_append, mark]
    rfl

/-- A straight source is read into the table of its places. -/
theorem parse_straight (line : HeaderLine) (follows : Follows rest) (library : Library) :
    (Source.parse library (line.text ++ rest)).toOption.map Prod.fst =
      some (readTable line.header (actions rest.toList)) := by
  rcases exists_lines line follows with ⟨first, ending, lines, cut, split, returns, same, straight⟩
  have read : readAll library (line.text ++ rest) =
      .done ((actions rest.toList).foldl Action.enact (Draft.empty.setHeader line.header)) := by
    rw [readAll, cut, readLines, readLine_first split returns, ← same]
    exact readLines_straight straight (Option.some_ne_none line.header) library
  rw [Source.parse, read]
  dsimp only [Reading.done]
  rw [finish_foldl_enact]
  rfl

/-! ## What the characters do -/

/-- What a character of straight text does to a row of cells and a position in it: a symbol
is written there, and a move that leaves the row adds a zero to it. -/
def applyCharacter (row : Tape.Row) (character : Char) : Tape.Row :=
  match character with
  | '0' => row.write .zero
  | '1' => row.write .one
  | '<' => row.move .left
  | '>' => row.move .right
  | _ => row

theorem applyCharacter_of_some {character : Char} {action : Action}
    (known : Action.ofChar? character = some action) (tape : Tape) :
    applyCharacter tape.row character = (Action.perform tape action).row := by
  revert known
  fun_cases Action.ofChar? character with
  | case1 => rintro ⟨⟩; exact (tape.row_move .left).symm
  | case2 => rintro ⟨⟩; exact (tape.row_move .right).symm
  | case3 => rintro ⟨⟩; exact (tape.row_write .zero).symm
  | case4 => rintro ⟨⟩; exact (tape.row_write .one).symm
  | case5 => rintro ⟨⟩

theorem applyCharacter_of_none {character : Char} (idle : Action.ofChar? character = none)
    (row : Tape.Row) : applyCharacter row character = row := by
  revert idle
  fun_cases applyCharacter row character with
  | case1 => rintro ⟨⟩
  | case2 => rintro ⟨⟩
  | case3 => rintro ⟨⟩
  | case4 => rintro ⟨⟩
  | case5 => intro _; rfl

/-- Straight text does to the row of a tape what its actions do to the tape. -/
theorem foldl_applyCharacter (text : List Char) (tape : Tape) :
    text.foldl applyCharacter tape.row = ((actions text).foldl Action.perform tape).row := by
  induction text generalizing tape with
  | nil => rfl
  | cons character rest inductionHypothesis =>
      rw [List.foldl_cons, actions, List.filterMap_cons]
      cases known : Action.ofChar? character with
      | none => rw [applyCharacter_of_none known, inductionHypothesis]; rfl
      | some action => rw [applyCharacter_of_some known, inductionHypothesis]; rfl

/-- Whether a character moves the head. -/
def isMoveCharacter (character : Char) : Bool := character == '<' || character == '>'

theorem countP_actions (text : List Char) :
    (actions text).countP Action.isMove = text.countP isMoveCharacter := by
  rw [actions, List.countP_filterMap]
  congr 1
  funext character
  fun_cases Action.ofChar? character with
  | case1 => rfl
  | case2 => rfl
  | case3 => rfl
  | case4 => rfl
  | case5 _ noLeft noRight =>
      have other : isMoveCharacter character = false := by
        simpa [isMoveCharacter] using And.intro noLeft noRight
      exact other.symm

/--
A straight source is always compiled.  Its table has a pair of rules for the start and
for each move.  On every tape and under every limit that lets it take one step for each
move and one more, its machine halts in the first end state after so many steps, and
leaves the cells and the head where the characters of the source, applied one after the
other, leave them.
-/
theorem straight_source_runs_as_written (library : Library) (line : HeaderLine)
    (apart : Apart line.header) (rest : String) (follows : Follows rest) :
    Exists fun compilation : Compilation =>
      Compilation.compile library (line.text ++ rest) = .ok compilation ∧
      compilation.program.start = line.header.start ∧
      compilation.program.ends = line.header.ends ∧
      compilation.program.rules.length = 2 * (rest.toList.countP isMoveCharacter + 1) ∧
      forall (cells : List Symbol) (head limit : Nat), head < cells.length ->
        rest.toList.countP isMoveCharacter + 1 ≤ limit ->
          Exists fun machine : Machine => Exists fun after : Machine =>
            ((Machine.ofProgram compilation.program).withLimit limit).loadTape
                (String.ofList (cells.map Symbol.toChar)) head = .ok machine ∧
              machine.run = (.halted, after) ∧ after.state = line.header.firstEnd ∧
              after.steps = rest.toList.countP isMoveCharacter + 1 ∧
              (after.tape.cells, after.tape.head) =
                rest.toList.foldl applyCharacter (cells, head) := by
  rcases Compilation.exists_compile (parse_straight line follows library)
    (forall₂_leads apart (actions rest.toList)) with ⟨compilation, compiled, collapsed⟩
  have program : compilation.program = compiledTable line.header (actions rest.toList) :=
    collapsed.trans (eliminate_collapsedTable apart (actions rest.toList))
  refine ⟨compilation, compiled, ?_⟩
  rw [program, ← countP_actions]
  refine ⟨rfl, rfl, length_compiledTable line.header (actions rest.toList), ?_⟩
  intro cells head limit inside enough
  rcases ((Machine.ofProgram (compiledTable line.header (actions rest.toList))).withLimit
    limit).exists_loadTape inside with ⟨tape, rfl, rfl, loaded⟩
  rcases (compiledTable line.header (actions rest.toList)).exists_ending_runOn tape limit with
    ⟨verdict, last, count, after, ending, ran, counted, located⟩
  have final : (compiledTable line.header (actions rest.toList)).isEnd line.header.firstEnd =
      true := List.contains_iff_mem.mpr (firstEnd_mem line.header)
  rcases ending.eq_halted (after?_compiledTable apart (actions rest.toList) tape) final enough with
    ⟨rfl, rfl, rfl⟩
  refine ⟨_, after, loaded, ran, congrArg Configuration.state located, counted, ?_⟩
  have tapes : after.tape = (actions rest.toList).foldl Action.perform tape :=
    congrArg Configuration.tape located
  rw [tapes]
  exact (foldl_applyCharacter rest.toList tape).symm

/-- A header line with a tab, two spaces and a space at its end. -/
def spacedLine : HeaderLine where
  front := ""
  start := "A"
  ends := [("\t", "E"), ("  ", "F")]
  back := " "
  ends_ne_nil := List.cons_ne_nil _ _
  front_blank := by decide
  gaps_blank := by decide
  back_blank := by decide
  names_plain := by decide
  start_unmarked := by decide

/-- A run over both edges of its tape, with writes before, between and behind the moves. -/
theorem straight_source_runs_as_written_over_edges :
    Apart spacedLine.header ∧ Follows "\n0 > 1\n< 1 0\r\n\t<1" ∧
    Exists fun compilation : Compilation =>
      Compilation.compile (Library.ofTexts []) "A\tE  F \n0 > 1\n< 1 0\r\n\t<1" = .ok compilation ∧
      compilation.program.rules.length = 8 ∧
      Exists fun machine : Machine => Exists fun after : Machine =>
        ((Machine.ofProgram compilation.program).withLimit 4).loadTape "1" 0 = .ok machine ∧
          machine.run = (.halted, after) ∧ after.state = "E" ∧ after.steps = 4 ∧
          (after.tape.cells, after.tape.head) = ([.one, .zero, .one], 0) := by
  have apart : Apart spacedLine.header := by
    refine ⟨by decide, ?_, ?_⟩
    · intro number same
      exact Names.numeral_ne_identifier number (by decide) same.symm
    · intro number member
      rcases List.mem_cons.mp member with same | later
      · exact Names.numeral_ne_identifier number (by decide) same
      · exact Names.numeral_ne_identifier number (by decide) (List.mem_singleton.mp later)
  have straight : "\n0 > 1\n< 1 0\r\n\t<1".toList.all alphabet.contains = true := by decide
  have follows : Follows "\n0 > 1\n< 1 0\r\n\t<1" := ⟨Or.inr (by decide), fun character member =>
    List.contains_iff_mem.mp (List.all_eq_true.mp straight character member)⟩
  rcases straight_source_runs_as_written (Library.ofTexts []) spacedLine apart _ follows with
    ⟨compilation, compiled, _, _, length, runs⟩
  rcases runs [.one] 0 4 (by decide) (by decide) with
    ⟨machine, after, loaded, ran, state, steps, row⟩
  exact ⟨apart, follows, compilation, compiled, length, machine, after, loaded, ran, state, steps,
    row⟩

end Straight
end BinaryTape
