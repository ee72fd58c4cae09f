import Mathlib.Data.List.Forall2
import Mathlib.Data.List.TakeWhile
import BinaryTape.Table.Reader
import BinaryTape.Text.Lines

namespace BinaryTape

/-!
# What the table reader sees

The grammar of tables matches every text, and it always matches it in the same
way.  A line goes on up to the next line feed or carriage return, a field up to the
next blank or line end, and nothing is ever given back.  So the lines and fields of
a table can be told without the grammar: cut the text at its line ends, leave out
comments and blank lines, and cut what is left at runs of space and tab.

The matchers are gone through from the inside.  Those that take one character at a
time are shown equal to `satisfy`, and repeating `satisfy` is `takeWhile`.  For the
larger ones the nodes carry byte offsets that nobody reads, so their nodes are
described and not computed.
-/

namespace Text

variable {α : Type} {separator : α -> Bool}

/-! ## Runs -/

theorem runs_cons_separator {value : α} (separates : separator value = true)
    (values : List α) : runs separator (value :: values) = runs separator values := by
  simp [runs, runStep, separates, consRun]

/-- Separators in front leave no trace. -/
theorem runs_append_of_separators {gap : List α}
    (separates : forall value, value ∈ gap -> separator value = true) (values : List α) :
    runs separator (gap ++ values) = runs separator values := by
  induction gap with
  | nil => rfl
  | cons value gap inductionHypothesis =>
      rw [List.cons_append, runs_cons_separator (separates value List.mem_cons_self)]
      exact inductionHypothesis (fun other member =>
        separates other (List.mem_cons_of_mem _ member))

/-- Separators at the end leave no trace. -/
theorem runs_append_separators {gap : List α}
    (separates : forall value, value ∈ gap -> separator value = true) (values : List α) :
    runs separator (values ++ gap) = runs separator values := by
  have nothing : gap.foldr (runStep separator) ([], []) = ([], []) := by
    induction gap with
    | nil => rfl
    | cons value gap inductionHypothesis =>
        rw [List.foldr_cons, inductionHypothesis (fun other member =>
          separates other (List.mem_cons_of_mem _ member)), runStep,
          separates value List.mem_cons_self]
        rfl
  rw [runs, List.foldr_append, nothing]
  rfl

private theorem foldr_runStep_of_free {run : List α}
    (free : forall value, value ∈ run -> separator value = false)
    (cut : List α × List (List α)) :
    run.foldr (runStep separator) cut = (run ++ cut.1, cut.2) := by
  induction run with
  | nil => rfl
  | cons value run inductionHypothesis =>
      rw [List.foldr_cons,
        inductionHypothesis (fun other member => free other (List.mem_cons_of_mem _ member)),
        runStep, free value List.mem_cons_self]
      rfl

/-- Values without a separator are one run, if a separator or nothing follows. -/
theorem runs_append_of_free {run values : List α} (filled : run ≠ [])
    (free : forall value, value ∈ run -> separator value = false)
    (closed : forall value, value ∈ values.head? -> separator value = true) :
    runs separator (run ++ values) = run :: runs separator values := by
  have opens : (values.foldr (runStep separator) ([], [])).1 = [] := by
    cases values with
    | nil => rfl
    | cons value values =>
        rw [List.foldr_cons, runStep, closed value rfl]
        rfl
  unfold runs
  rw [List.foldr_append, foldr_runStep_of_free free]
  generalize values.foldr (runStep separator) ([], []) = cut at opens
  simp [consRun, opens, filled]

theorem runs_of_free {run : List α} (filled : run ≠ [])
    (free : forall value, value ∈ run -> separator value = false) :
    runs separator run = [run] := by
  have closed : forall value, value ∈ ([] : List α).head? -> separator value = true :=
    fun _ impossible => nomatch impossible
  have alone := runs_append_of_free filled free closed
  rw [List.append_nil] at alone
  exact alone

end Text

namespace Table

open Matcher
open Text (runs isTableBlank consLine)

/-! ## Lines and fields without the grammar -/

/-- Whether a character belongs to a line, and not to its end. -/
def isLinePart (character : Char) : Bool := character != '\n' && character != '\r'

/-- Whether a character can stand in a field. -/
def isFieldPart (character : Char) : Bool :=
  !isTableBlank character && isLinePart character

/-- The lines of a table: cut at line feeds, at carriage returns with a line feed
and at other carriage returns. -/
def cutLines : List Char -> List (List Char)
  | [] => [[]]
  | '\n' :: rest => [] :: cutLines rest
  | '\r' :: '\n' :: rest => [] :: cutLines rest
  | '\r' :: rest => [] :: cutLines rest
  | character :: rest => consLine character (cutLines rest)

/-- The fields of a line; a comment has none. -/
def fieldsOf (line : List Char) : List String :=
  if line.head? = some '#' then [] else (runs isTableBlank line).map String.ofList

/-- A line with its fields, unless it has none. -/
def tableLine? (line : List Char) : Option (String × List String) :=
  match fieldsOf line with
  | [] => none
  | field :: fields => some (String.ofList line, field :: fields)

/-- The lines of a table that have fields, with these fields. -/
def tableLines (text : List Char) : List (String × List String) :=
  (cutLines text).filterMap tableLine?

/-- The program made of the lines that have fields: a header and rules. -/
def ofTableLines : List (String × List String) -> Except Error Program
  | [] => .error .missingHeader
  | (line, names) :: rest => do
      let header <- Header.ofNames names line
      let rules <- readRules rest
      return ⟨header.start, header.ends, rules⟩

theorem isLinePart_iff (character : Char) :
    isLinePart character = true ↔ character ≠ '\n' ∧ character ≠ '\r' := by
  simp [isLinePart]

theorem isLinePart_of_isTableBlank {character : Char} (blank : isTableBlank character = true) :
    isLinePart character = true := by
  simp only [isTableBlank, Bool.or_eq_true, beq_iff_eq] at blank
  rcases blank with rfl | rfl <;> rfl

theorem isLinePart_of_isFieldPart {character : Char} (part : isFieldPart character = true) :
    isLinePart character = true :=
  (Bool.and_eq_true_iff.mp part).2

theorem isTableBlank_of_isFieldPart {character : Char} (part : isFieldPart character = true) :
    isTableBlank character = false :=
  Bool.not_eq_true' _ ▸ (Bool.and_eq_true_iff.mp part).1

/-- What stands behind the line end with which a text starts. -/
def afterLineEnd? : List Char -> Option (List Char)
  | '\n' :: rest => some rest
  | '\r' :: '\n' :: rest => some rest
  | '\r' :: rest => some rest
  | _ => none

/-- The lines behind the line end with which a text starts. -/
def laterLines (text : List Char) : List (List Char) :=
  match afterLineEnd? text with
  | none => []
  | some rest => cutLines rest

/-- A carriage return without a line feed behind it ends its line alone. -/
theorem afterLineEnd?_return {rest : List Char}
    (alone : forall behind, rest ≠ '\n' :: behind) :
    afterLineEnd? ('\r' :: rest) = some rest := by
  unfold afterLineEnd?
  split
  · rename_i impossible
    cases impossible
  · rename_i same
    exact absurd (List.tail_eq_of_cons_eq same) (alone _)
  · rename_i same
    rw [List.tail_eq_of_cons_eq same]
  · rename_i impossible
    exact absurd rfl (impossible rest)

/-- Where a text does not start with a line end, it starts with a character of its
line or is at its end. -/
theorem isLinePart_of_afterLineEnd? {text : List Char} (goesOn : afterLineEnd? text = none) :
    forall character, character ∈ text.head? -> isLinePart character = true := by
  intro character first
  cases text with
  | nil => cases first
  | cons head rest =>
      cases first
      apply (isLinePart_iff _).mpr
      constructor
      · rintro rfl
        cases goesOn
      · rintro rfl
        cases rest with
        | nil => cases goesOn
        | cons second rest =>
            by_cases feed : second = '\n'
            · rw [feed] at goesOn
              cases goesOn
            · rw [afterLineEnd?_return] at goesOn
              · cases goesOn
              · intro behind same
                exact feed (List.head_eq_of_cons_eq same)

theorem cutLines_eq (text : List Char) :
    cutLines text = text.takeWhile isLinePart :: laterLines (text.dropWhile isLinePart) := by
  fun_induction cutLines text with
  | case1 => rfl
  | case2 => rfl
  | case3 => rfl
  | case4 rest noFeed =>
      have behind : ('\r' :: rest).dropWhile isLinePart = '\r' :: rest := rfl
      rw [behind, laterLines, afterLineEnd?_return noFeed]
      rfl
  | case5 character rest noFeed noReturnFeed noReturn inductionHypothesis =>
      have part : isLinePart character = true :=
        (isLinePart_iff character).mpr ⟨noFeed, noReturn⟩
      rw [inductionHypothesis, List.takeWhile_cons_of_pos part, List.dropWhile_cons_of_pos part]
      rfl

/-! ## Putting matches together -/

theorem node_of_match {kind : NodeKind} {body : Matcher} {offset : Nat}
    {text consumed rest : List Char} {nodes : List Node}
    (matched : body offset text = some ⟨consumed, rest, nodes⟩) :
    Matcher.node kind body offset text =
      some ⟨consumed, rest,
        [.mk kind offset (offset + byteSize consumed) (String.ofList consumed) nodes]⟩ := by
  simp [Matcher.node, matched]

theorem seq_of_match {first second : Matcher} {offset : Nat}
    {text front middle back rest : List Char} {nodes others : List Node}
    (matched : first offset text = some ⟨front, middle, nodes⟩)
    (followed : second (offset + byteSize front) middle = some ⟨back, rest, others⟩) :
    seq first second offset text = some ⟨front ++ back, rest, nodes ++ others⟩ := by
  simp [seq, matched, followed]

theorem repeatUpTo_of_match {repeated : Matcher} {character : Char} {offset : Nat}
    {bound text front middle back rest : List Char} {nodes others : List Node}
    (matched : repeated offset text = some ⟨front, middle, nodes⟩)
    (followed : repeatUpTo repeated bound (offset + byteSize front) middle =
      ⟨back, rest, others⟩) :
    repeatUpTo repeated (character :: bound) offset text =
      ⟨front ++ back, rest, nodes ++ others⟩ := by
  simp [repeatUpTo, matched, followed]

theorem repeatUpTo_of_none {repeated : Matcher} {text : List Char} {offset : Nat}
    (unmatched : repeated offset text = none) (bound : List Char) :
    repeatUpTo repeated bound offset text = ⟨[], text, []⟩ := by
  cases bound with
  | nil => rfl
  | cons _ _ => simp [repeatUpTo, unmatched]

/-! ## Matchers of single characters -/

theorem repeatUpTo_satisfy (accepts : Char -> Bool) {bound text : List Char}
    (enough : text.length ≤ bound.length) (offset : Nat) :
    repeatUpTo (satisfy accepts) bound offset text =
      ⟨text.takeWhile accepts, text.dropWhile accepts, []⟩ := by
  induction bound generalizing text offset with
  | nil =>
      rw [List.eq_nil_of_length_eq_zero (Nat.le_zero.mp enough)]
      rfl
  | cons _ bound inductionHypothesis =>
      cases text with
      | nil => rfl
      | cons character rest =>
          cases accepted : accepts character with
          | false =>
              rw [repeatUpTo_of_none (by simp [satisfy, accepted])]
              simp [accepted]
          | true =>
              have first : satisfy accepts offset (character :: rest) =
                  some ⟨[character], rest, []⟩ := by
                simp [satisfy, accepted]
              rw [repeatUpTo_of_match first
                (inductionHypothesis (Nat.le_of_succ_le_succ enough) _),
                List.takeWhile_cons_of_pos accepted, List.dropWhile_cons_of_pos accepted]
              rfl

theorem star_satisfy (accepts : Char -> Bool) (offset : Nat) (text : List Char) :
    star (satisfy accepts) offset text =
      some ⟨text.takeWhile accepts, text.dropWhile accepts, []⟩ :=
  congrArg some (repeatUpTo_satisfy accepts (Nat.le_refl text.length) offset)

theorem plus_satisfy {accepts : Char -> Bool} {character : Char}
    (accepted : accepts character = true) (offset : Nat) (rest : List Char) :
    plus (satisfy accepts) offset (character :: rest) =
      some ⟨(character :: rest).takeWhile accepts, (character :: rest).dropWhile accepts, []⟩ := by
  have first : satisfy accepts offset (character :: rest) = some ⟨[character], rest, []⟩ := by
    simp [satisfy, accepted]
  simp only [plus, seq, first, Option.bind_eq_bind, Option.bind_some, star_satisfy,
    List.takeWhile_cons_of_pos accepted, List.dropWhile_cons_of_pos accepted]
  rfl

theorem blank_eq : Grammar.blank = satisfy isTableBlank := by
  funext offset text
  cases text with
  | nil => rfl
  | cons character rest =>
      simp only [Grammar.blank, choice, char, satisfy, isTableBlank]
      by_cases space : character = ' '
      · simp [space]
      · by_cases tab : character = '\t' <;> simp [space, tab]

theorem star_blank (offset : Nat) (text : List Char) :
    star Grammar.blank offset text =
      some ⟨text.takeWhile isTableBlank, text.dropWhile isTableBlank, []⟩ := by
  rw [blank_eq, star_satisfy]

/-- The first character alone tells whether a line ends. -/
theorem isSome_lineEnd (offset : Nat) (character : Char) (rest : List Char) :
    (Grammar.lineEnd offset (character :: rest)).isSome = !isLinePart character := by
  simp only [Grammar.lineEnd, choice, seq, char, satisfy, isLinePart]
  by_cases feed : character = '\n'
  · simp [feed]
  · by_cases carriage : character = '\r' <;> simp [feed, carriage]

theorem seq_refuse_any {excluded : Matcher} {accepts : Char -> Bool}
    (excludes : forall offset character rest,
      (excluded offset (character :: rest)).isSome = !accepts character) :
    seq (refuse excluded) any = satisfy accepts := by
  funext offset text
  cases text with
  | nil =>
      simp only [seq, refuse, any, satisfy]
      cases (excluded offset []).isSome <;> rfl
  | cons character rest =>
      simp only [seq, refuse, excludes, any, satisfy]
      cases accepts character <;> rfl

theorem commentPart_eq : seq (refuse Grammar.lineEnd) any = satisfy isLinePart :=
  seq_refuse_any isSome_lineEnd

theorem fieldPart_eq :
    seq (refuse (choice Grammar.blank Grammar.lineEnd)) any = satisfy isFieldPart := by
  apply seq_refuse_any
  intro offset character rest
  rw [choice, blank_eq, Option.isSome_or, isSome_lineEnd]
  simp only [satisfy, isFieldPart]
  cases isTableBlank character <;> rfl

/-! ## Fields -/

theorem field_eq : Grammar.field = Matcher.node .field (plus (satisfy isFieldPart)) := by
  rw [Grammar.field, fieldPart_eq]

theorem field_of_part {character : Char} (part : isFieldPart character = true) (offset : Nat)
    (rest : List Char) :
    Exists fun node : Node =>
      Grammar.field offset (character :: rest) =
          some ⟨(character :: rest).takeWhile isFieldPart,
            (character :: rest).dropWhile isFieldPart, [node]⟩ ∧
        node.text = String.ofList ((character :: rest).takeWhile isFieldPart) := by
  rw [field_eq]
  exact ⟨_, node_of_match (plus_satisfy part offset rest), rfl⟩

theorem field_of_not_part {character : Char} (stops : isFieldPart character = false)
    (offset : Nat) (rest : List Char) : Grammar.field offset (character :: rest) = none := by
  have unmatched : satisfy isFieldPart offset (character :: rest) = none := by
    simp [satisfy, stops]
  simp only [field_eq, Matcher.node, plus, seq, unmatched, Option.bind_eq_bind, Option.bind_none]

private theorem takeWhile_append_takeWhile {narrow wide : Char -> Bool}
    (within : forall character, narrow character = true -> wide character = true)
    (text : List Char) :
    text.takeWhile narrow ++ (text.dropWhile narrow).takeWhile wide = text.takeWhile wide ∧
      (text.dropWhile narrow).dropWhile wide = text.dropWhile wide := by
  induction text with
  | nil => exact ⟨rfl, rfl⟩
  | cons character rest inductionHypothesis =>
      cases inside : narrow character with
      | false => simp [inside]
      | true =>
          simp only [List.takeWhile_cons_of_pos inside, List.dropWhile_cons_of_pos inside,
            List.takeWhile_cons_of_pos (within character inside),
            List.dropWhile_cons_of_pos (within character inside), List.cons_append,
            inductionHypothesis.1, inductionHypothesis.2, and_self]

/-- Taking a field first does not change where the line ends. -/
theorem line_behind_field (text : List Char) :
    text.takeWhile isFieldPart ++ (text.dropWhile isFieldPart).takeWhile isLinePart =
        text.takeWhile isLinePart ∧
      (text.dropWhile isFieldPart).dropWhile isLinePart = text.dropWhile isLinePart :=
  takeWhile_append_takeWhile (fun _ => isLinePart_of_isFieldPart) text

/-- Taking blanks first does not change where the line ends. -/
theorem line_behind_blanks (text : List Char) :
    text.takeWhile isTableBlank ++ (text.dropWhile isTableBlank).takeWhile isLinePart =
        text.takeWhile isLinePart ∧
      (text.dropWhile isTableBlank).dropWhile isLinePart = text.dropWhile isLinePart :=
  takeWhile_append_takeWhile (fun _ => isLinePart_of_isTableBlank) text

theorem head?_dropWhile_eq_false {accepts : Char -> Bool} {text : List Char} {character : Char}
    (first : character ∈ (text.dropWhile accepts).head?) : accepts character = false := by
  have stops := List.head?_dropWhile_not accepts text
  rw [Option.mem_def.mp first] at stops
  exact stops

theorem head?_takeWhile_eq {accepts : Char -> Bool} {text : List Char} {character : Char}
    (first : character ∈ (text.takeWhile accepts).head?) :
    character ∈ text.head? ∧ accepts character = true := by
  rw [List.head?_takeWhile, Option.mem_def, Option.filter_eq_some_iff] at first
  exact first

/-- The fields of a line that starts with one: this one, and those of the rest. -/
theorem runs_takeWhile_isLinePart {character : Char} (part : isFieldPart character = true)
    (rest : List Char) :
    runs isTableBlank ((character :: rest).takeWhile isLinePart) =
      (character :: rest).takeWhile isFieldPart ::
        runs isTableBlank
          ((((character :: rest).dropWhile isFieldPart).dropWhile isTableBlank).takeWhile
            isLinePart) := by
  generalize inText : character :: rest = text
  have filled : text.takeWhile isFieldPart ≠ [] := by
    rw [← inText, List.takeWhile_cons_of_pos part]
    exact List.cons_ne_nil _ _
  have free : forall value, value ∈ text.takeWhile isFieldPart -> isTableBlank value = false :=
    fun value member => isTableBlank_of_isFieldPart (List.mem_takeWhile_imp member)
  -- A line goes on behind a field only with a blank.
  have closed : forall value,
      value ∈ ((text.dropWhile isFieldPart).takeWhile isLinePart).head? ->
        isTableBlank value = true := by
    intro value first
    rcases head?_takeWhile_eq first with ⟨behind, inLine⟩
    have outside := head?_dropWhile_eq_false behind
    simpa [isFieldPart, inLine] using outside
  rw [← (line_behind_field text).1, Text.runs_append_of_free filled free closed,
    ← (line_behind_blanks (text.dropWhile isFieldPart)).1,
    Text.runs_append_of_separators (fun value member => List.mem_takeWhile_imp member)]

/-- Fields up to the end of a line, from where the line has no blank in front. -/
theorem repeat_field {bound text : List Char} (enough : text.length ≤ bound.length)
    (tight : forall character, character ∈ text.head? -> isTableBlank character = false)
    (offset : Nat) :
    Exists fun nodes : List Node =>
      repeatUpTo (seq Grammar.field (star Grammar.blank)) bound offset text =
          ⟨text.takeWhile isLinePart, text.dropWhile isLinePart, nodes⟩ ∧
        nodes.map Node.text =
          (runs isTableBlank (text.takeWhile isLinePart)).map String.ofList := by
  -- Every field takes a character, so the text behind it fits into the bound behind it.
  induction bound generalizing text offset with
  | nil =>
      rw [List.eq_nil_of_length_eq_zero (Nat.le_zero.mp enough)]
      exact ⟨[], rfl, rfl⟩
  | cons _ bound inductionHypothesis =>
      cases text with
      | nil => exact ⟨[], rfl, rfl⟩
      | cons character rest =>
          cases part : isFieldPart character with
          | false =>
              have lineEnds : isLinePart character = false := by
                simpa [isFieldPart, tight character rfl] using part
              refine ⟨[], ?_, ?_⟩
              · rw [repeatUpTo_of_none (by simp [seq, field_of_not_part part])]
                simp [lineEnds]
              · simp [lineEnds, runs, Text.consRun]
          | true =>
              rcases field_of_part part offset rest with ⟨node, matched, text_eq⟩
              rw [runs_takeWhile_isLinePart part]
              have shorter : ((character :: rest).dropWhile isFieldPart).length ≤ bound.length := by
                rw [List.dropWhile_cons_of_pos part]
                exact Nat.le_trans (List.dropWhile_sublist _).length_le
                  (Nat.le_of_succ_le_succ enough)
              generalize character :: rest = text at matched text_eq shorter
              have enoughLeft :
                  ((text.dropWhile isFieldPart).dropWhile isTableBlank).length ≤ bound.length :=
                Nat.le_trans (List.dropWhile_sublist _).length_le shorter
              have separated := seq_of_match matched (star_blank _ _)
              rcases inductionHypothesis enoughLeft (fun _ => head?_dropWhile_eq_false)
                (offset + byteSize (text.takeWhile isFieldPart ++
                  (text.dropWhile isFieldPart).takeWhile isTableBlank)) with
                ⟨nodes, repeated, texts⟩
              refine ⟨node :: nodes, ?_, ?_⟩
              · rw [repeatUpTo_of_match separated repeated]
                have fields := line_behind_field text
                have blanks := line_behind_blanks (text.dropWhile isFieldPart)
                rw [← fields.1, ← fields.2, ← blanks.1, ← blanks.2, List.append_assoc]
                rfl
              · rw [List.map_cons, List.map_cons, text_eq, texts]

theorem star_field {text : List Char}
    (tight : forall character, character ∈ text.head? -> isTableBlank character = false)
    (offset : Nat) :
    Exists fun nodes : List Node =>
      star (seq Grammar.field (star Grammar.blank)) offset text =
          some ⟨text.takeWhile isLinePart, text.dropWhile isLinePart, nodes⟩ ∧
        nodes.map Node.text =
          (runs isTableBlank (text.takeWhile isLinePart)).map String.ofList := by
  rcases repeat_field (Nat.le_refl text.length) tight offset with ⟨nodes, repeated, texts⟩
  exact ⟨nodes, congrArg some repeated, texts⟩

/-! ## Lines -/

/-- A line of fields is matched up to its end. -/
theorem fields_match (offset : Nat) (text : List Char) :
    Exists fun node : Node =>
      Grammar.fields offset text =
          some ⟨text.takeWhile isLinePart, text.dropWhile isLinePart, [node]⟩ ∧
        node.kind = .fields ∧
        node.children.map Node.text =
          (runs isTableBlank (text.takeWhile isLinePart)).map String.ofList := by
  have blanks := line_behind_blanks text
  rcases star_field (fun _ => head?_dropWhile_eq_false)
    (offset + byteSize (text.takeWhile isTableBlank)) with ⟨nodes, repeated, texts⟩
  have matched := seq_of_match (star_blank offset text) repeated
  rw [blanks.1, blanks.2] at matched
  refine ⟨_, node_of_match matched, rfl, ?_⟩
  rw [← blanks.1, Text.runs_append_of_separators (fun _ => List.mem_takeWhile_imp)]
  exact texts

/-- The node of a line shows its text and, unless the line is a comment, its fields. -/
structure IsLineNode (line : List Char) (node : Node) : Prop where
  kind_eq : node.kind = .line
  text_eq : node.text = String.ofList line
  fields_eq : (lineFields node).getD [] = fieldsOf line

/-- Every line is matched up to its end, as a comment or as a line of fields. -/
theorem line_match (offset : Nat) (text : List Char) :
    Exists fun node : Node =>
      Grammar.line offset text =
          some ⟨text.takeWhile isLinePart, text.dropWhile isLinePart, [node]⟩ ∧
        IsLineNode (text.takeWhile isLinePart) node := by
  -- The choice is made at the first character; a comment mark behind a blank is a field.
  by_cases marked : text.head? = some '#'
  · cases text with
    | nil => cases marked
    | cons character rest =>
        cases marked
        have matched : seq (char '#') (star (seq (refuse Grammar.lineEnd) any)) offset
            ('#' :: rest) =
            some ⟨'#' :: rest.takeWhile isLinePart, rest.dropWhile isLinePart, []⟩ := by
          have mark : char '#' offset ('#' :: rest) = some ⟨['#'], rest, []⟩ := rfl
          rw [commentPart_eq]
          exact seq_of_match mark (star_satisfy _ _ _)
        have chosen : choice Grammar.comment Grammar.fields offset ('#' :: rest) =
            Grammar.comment offset ('#' :: rest) := by
          rw [choice, Grammar.comment, node_of_match matched]
          rfl
        exact ⟨_, node_of_match (chosen.trans (node_of_match matched)), rfl, rfl, rfl⟩
  · have uncommented : Grammar.comment offset text = none := by
      cases text with
      | nil => rfl
      | cons character rest =>
          have other : (character == '#') = false := by simpa using marked
          simp [Grammar.comment, Matcher.node, seq, char, satisfy, other]
    rcases fields_match offset text with ⟨inner, matched, kind, texts⟩
    have chosen : choice Grammar.comment Grammar.fields offset text =
        some ⟨text.takeWhile isLinePart, text.dropWhile isLinePart, [inner]⟩ := by
      rw [choice, uncommented, matched]
      rfl
    refine ⟨_, node_of_match chosen, rfl, rfl, ?_⟩
    have unmarked : (text.takeWhile isLinePart).head? ≠ some '#' := by
      intro first
      exact marked (head?_takeWhile_eq first).1
    simp [lineFields, Node.children, kind, fieldsOf, unmarked, ← texts]

/-! ## Whole tables -/

theorem lineEnd_of_some {text rest : List Char} (ends : afterLineEnd? text = some rest)
    (offset : Nat) :
    Exists fun consumed : List Char =>
      Grammar.lineEnd offset text = some ⟨consumed, rest, []⟩ := by
  unfold afterLineEnd? at ends
  split at ends
  · cases ends
    exact ⟨['\n'], rfl⟩
  · cases ends
    exact ⟨['\r', '\n'], rfl⟩
  · rename_i alone
    cases ends
    refine ⟨['\r'], ?_⟩
    cases rest with
    | nil => rfl
    | cons second behind =>
        have noFeed : second ≠ '\n' := by
          rintro rfl
          exact alone behind rfl
        simp [Grammar.lineEnd, choice, seq, char, satisfy, noFeed]
  · cases ends

theorem length_of_afterLineEnd? {text rest : List Char} (ends : afterLineEnd? text = some rest) :
    rest.length < text.length := by
  unfold afterLineEnd? at ends
  split at ends
  all_goals cases ends
  · exact Nat.lt_succ_self _
  · exact Nat.lt_succ_of_lt (Nat.lt_succ_self _)
  · exact Nat.lt_succ_self _

/-- From the end of a line on, all later lines are matched. -/
theorem repeat_line {bound text : List Char} (enough : text.length ≤ bound.length)
    (ended : forall character, character ∈ text.head? -> isLinePart character = false)
    (offset : Nat) :
    Exists fun consumed : List Char => Exists fun nodes : List Node =>
      repeatUpTo (seq Grammar.lineEnd Grammar.line) bound offset text = ⟨consumed, [], nodes⟩ ∧
        List.Forall₂ IsLineNode (laterLines text) nodes := by
  induction bound generalizing text offset with
  | nil =>
      rw [List.eq_nil_of_length_eq_zero (Nat.le_zero.mp enough)]
      exact ⟨[], [], rfl, .nil⟩
  | cons _ bound inductionHypothesis =>
      cases ends : afterLineEnd? text with
      | none =>
          have atEnd : text = [] := by
            cases text with
            | nil => rfl
            | cons character rest =>
                have part := isLinePart_of_afterLineEnd? ends character rfl
                rw [ended character rfl] at part
                cases part
          rw [atEnd]
          exact ⟨[], [], rfl, .nil⟩
      | some rest =>
          rcases lineEnd_of_some ends offset with ⟨ending, matched⟩
          rcases line_match (offset + byteSize ending) rest with ⟨node, lineMatched, isNode⟩
          have shorter : (rest.dropWhile isLinePart).length ≤ bound.length := by
            have behind := length_of_afterLineEnd? ends
            have dropped := List.length_dropWhile_le isLinePart rest
            simp only [List.length_cons] at enough
            omega
          rcases inductionHypothesis shorter (fun _ => head?_dropWhile_eq_false)
            (offset + byteSize (ending ++ rest.takeWhile isLinePart)) with
            ⟨consumed, nodes, repeated, others⟩
          refine ⟨_, _, repeatUpTo_of_match (seq_of_match matched lineMatched) repeated, ?_⟩
          have lines : laterLines text = cutLines rest := by rw [laterLines, ends]
          rw [lines, cutLines_eq]
          exact .cons isNode others

theorem star_line {text : List Char}
    (ended : forall character, character ∈ text.head? -> isLinePart character = false)
    (offset : Nat) :
    Exists fun consumed : List Char => Exists fun nodes : List Node =>
      star (seq Grammar.lineEnd Grammar.line) offset text = some ⟨consumed, [], nodes⟩ ∧
        List.Forall₂ IsLineNode (laterLines text) nodes := by
  rcases repeat_line (Nat.le_refl text.length) ended offset with
    ⟨consumed, nodes, repeated, related⟩
  exact ⟨consumed, nodes, congrArg some repeated, related⟩

/-- Every text is a table as far as the grammar is concerned. -/
theorem table_match (text : List Char) :
    Exists fun node : Node => Exists fun lines : List Node => Exists fun place : Nat =>
      (Grammar.table 0 text).map Match.nodes = some [node] ∧
        node.children = lines ++ [.mk .finish place place "" []] ∧
        List.Forall₂ IsLineNode (cutLines text) lines := by
  rcases line_match 0 text with ⟨first, firstMatched, isNode⟩
  rcases star_line (fun _ => head?_dropWhile_eq_false)
    (0 + byteSize (text.takeWhile isLinePart)) with ⟨consumed, nodes, repeated, others⟩
  have finished : forall offset, finish offset [] =
      some ⟨[], [], [.mk .finish offset offset "" []]⟩ := fun _ => rfl
  have matched : Grammar.table 0 text = some _ :=
    node_of_match (seq_of_match firstMatched (seq_of_match repeated (finished _)))
  refine ⟨_, first :: nodes, _, congrArg (Option.map Match.nodes) matched, rfl, ?_⟩
  rw [cutLines_eq]
  exact .cons isNode others

theorem fieldLines_singleton {line : List Char} {node : Node} (isNode : IsLineNode line node) :
    fieldLines [node] = [line].filterMap tableLine? := by
  have same := isNode.fields_eq
  simp only [fieldLines, tableLine?, isNode.kind_eq, isNode.text_eq, ← same, List.filterMap_cons,
    List.filterMap_nil, if_true]
  rcases lineFields node with _ | (_ | ⟨field, fields⟩) <;> rfl

/-- The reader finds the lines with fields. -/
theorem fieldLines_of_forall₂ {lines : List (List Char)} {nodes : List Node} (place : Nat)
    (related : List.Forall₂ IsLineNode lines nodes) :
    fieldLines (nodes ++ [.mk .finish place place "" []]) = lines.filterMap tableLine? := by
  induction related with
  | nil => rfl
  | @cons line node lines nodes isNode _ inductionHypothesis =>
      have split : fieldLines (node :: nodes ++ [.mk .finish place place "" []]) =
          fieldLines [node] ++ fieldLines (nodes ++ [.mk .finish place place "" []]) :=
        List.filterMap_append (l := [node])
      rw [split, fieldLines_singleton isNode, inductionHypothesis, ← List.filterMap_append]
      rfl

/-- Reading a table is cutting it into lines and fields and checking them in order. -/
theorem read_eq (text : String) : read text = ofTableLines (tableLines text.toList) := by
  rcases table_match text.toList with ⟨node, lines, place, matched, children, related⟩
  unfold read nodesAtStart
  rw [matched]
  simp only [List.flatMap_cons, List.flatMap_nil, List.append_nil, children,
    fieldLines_of_forall₂ place related]
  unfold ofTableLines tableLines
  rfl

end Table

end BinaryTape
