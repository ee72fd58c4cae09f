import BinaryTape.Proofs.TableRoundTrip

namespace BinaryTape

/-!
# The format of tables

A text is a table when its lines are in order.  A line counts unless it is a comment or
blank; the first line that counts is the header, the others are rules, and each of them
has at most one fault.  Reading reports the fault of the first faulty line, and a text
without a fault is read as the only program whose names and rules are the fields of its
lines.  The grammar has no part in this: it matches every text, up to the last
character.

The reader goes through a line field by field and through a text line by line.  Both
are sequences of checks in which the first fault wins, so one notion of a checked
reading, closed under sequencing, is enough for all of them.

Written tables are the special case in which the lines are known.  A name that cannot
stand between blanks is never read back.  When all names can, the lines are the written
ones, and a comment mark in front makes one of them disappear; the program that is read
has a rule too few then.
-/

namespace Text

/-- Nothing is left of a text that holds separators only. -/
theorem runs_eq_nil_iff {α : Type} {separator : α -> Bool} (values : List α) :
    runs separator values = [] ↔ values.all separator = true := by
  induction values with
  | nil => simp [runs, consRun]
  | cons value values inductionHypothesis =>
      cases separates : separator value with
      | true =>
          rw [runs_cons_separator separates, inductionHypothesis, List.all_cons, separates,
            Bool.true_and]
      | false => simp [runs, runStep, consRun, separates]

end Text

/-- The fields of all lines of a program. -/
def Program.fields (program : Program) : List (List String) :=
  (program.start :: program.ends) :: program.rules.map Rule.fields

/-- Fields that are read as a rule are the fields of that rule only. -/
theorem Rule.fields_injective : Function.Injective Rule.fields := by
  intro first second same
  have firstRead := Table.readRule_fields first ""
  have secondRead := Table.readRule_fields second ""
  rw [same, secondRead] at firstRead
  exact (Except.ok.inj firstRead).symm

/-- Its fields tell a program from all others. -/
theorem Program.fields_injective : Function.Injective Program.fields := by
  intro first second same
  rcases List.cons.inj same with ⟨headers, rules⟩
  rcases List.cons.inj headers with ⟨starts, ends⟩
  have rulesSame := List.map_injective_iff.mpr Rule.fields_injective rules
  rcases first with ⟨start, _, _⟩
  cases starts
  cases ends
  cases rulesSame
  rfl

namespace Table

open Matcher
open Text (runs isTableBlank)

/-! ## Matches cover their text -/

/-- What a matcher consumes and what it leaves are together what it was given. -/
def Splits (matcher : Matcher) : Prop :=
  forall (offset : Nat) (text : List Char) (found : Match), matcher offset text = some found ->
    found.consumed ++ found.rest = text

theorem exists_of_seq {first second : Matcher} {offset : Nat} {text : List Char} {found : Match}
    (matched : seq first second offset text = some found) :
    Exists fun head : Match => Exists fun tail : Match =>
      first offset text = some head ∧
        second (offset + byteSize head.consumed) head.rest = some tail ∧
        found.consumed = head.consumed ++ tail.consumed ∧ found.rest = tail.rest := by
  rcases Option.bind_eq_some_iff.mp matched with ⟨head, firstMatched, later⟩
  rcases Option.bind_eq_some_iff.mp later with ⟨tail, secondMatched, made⟩
  cases made
  exact ⟨head, tail, firstMatched, secondMatched, rfl, rfl⟩

theorem exists_of_node {kind : NodeKind} {body : Matcher} {offset : Nat} {text : List Char}
    {found : Match} (matched : Matcher.node kind body offset text = some found) :
    Exists fun inner : Match => body offset text = some inner ∧
      found.consumed = inner.consumed ∧ found.rest = inner.rest := by
  rcases Option.bind_eq_some_iff.mp matched with ⟨inner, bodyMatched, made⟩
  cases made
  exact ⟨inner, bodyMatched, rfl, rfl⟩

theorem splits_satisfy (accepts : Char -> Bool) : Splits (satisfy accepts) := by
  intro offset text found matched
  unfold satisfy at matched
  split at matched
  · split at matched
    · cases matched
      rfl
    · cases matched
  · cases matched

theorem splits_refuse (excluded : Matcher) : Splits (refuse excluded) := by
  intro offset text found matched
  unfold refuse at matched
  split at matched
  · cases matched
  · cases matched
    rfl

theorem splits_finish : Splits finish := by
  intro offset text found matched
  unfold finish at matched
  split at matched
  · cases matched
    rfl
  · cases matched

namespace Splits

variable {first second : Matcher}

theorem seq (one : Splits first) (other : Splits second) : Splits (seq first second) := by
  intro offset text found matched
  rcases exists_of_seq matched with ⟨head, tail, firstMatched, secondMatched, consumed, rest⟩
  rw [consumed, rest, List.append_assoc, other _ _ _ secondMatched, one _ _ _ firstMatched]

theorem choice (one : Splits first) (other : Splits second) : Splits (choice first second) := by
  intro offset text found matched
  rcases Option.or_eq_some_iff.mp matched with firstMatched | ⟨_, secondMatched⟩
  · exact one _ _ _ firstMatched
  · exact other _ _ _ secondMatched

theorem node (kind : NodeKind) (body : Splits first) : Splits (Matcher.node kind first) := by
  intro offset text found matched
  rcases exists_of_node matched with ⟨inner, bodyMatched, consumed, rest⟩
  rw [consumed, rest]
  exact body _ _ _ bodyMatched

theorem repeatUpTo (one : Splits first) (bound : List Char) (offset : Nat) (text : List Char) :
    (repeatUpTo first bound offset text).consumed ++ (repeatUpTo first bound offset text).rest =
      text := by
  induction bound generalizing offset text with
  | nil => rfl
  | cons _ bound inductionHypothesis =>
      cases matched : first offset text with
      | none => rw [repeatUpTo_of_none matched, List.nil_append]
      | some head =>
          have later := inductionHypothesis (offset + byteSize head.consumed) head.rest
          rw [repeatUpTo_of_match matched rfl, List.append_assoc, later, one _ _ _ matched]

theorem star (one : Splits first) : Splits (star first) := by
  intro offset text found matched
  cases matched
  exact one.repeatUpTo text offset text

theorem plus (one : Splits first) : Splits (plus first) := one.seq one.star

end Splits

theorem splits_lineEnd : Splits Grammar.lineEnd :=
  (splits_satisfy _).choice (((splits_satisfy _).seq (splits_satisfy _)).choice (splits_satisfy _))

theorem splits_blank : Splits Grammar.blank := (splits_satisfy _).choice (splits_satisfy _)

theorem splits_line : Splits Grammar.line := by
  have field : Splits Grammar.field :=
    .node _ (((splits_refuse _).seq (splits_satisfy _)).plus)
  have fields : Splits Grammar.fields :=
    .node _ (splits_blank.star.seq (field.seq splits_blank.star).star)
  have comment : Splits Grammar.comment :=
    .node _ ((splits_satisfy _).seq ((splits_refuse _).seq (splits_satisfy _)).star)
  exact .node _ (comment.choice fields)

theorem splits_table : Splits Grammar.table :=
  .node _ (splits_line.seq ((splits_lineEnd.seq splits_line).star.seq splits_finish))

/-- The end of the text is part of a table. -/
theorem rest_of_table {offset : Nat} {text : List Char} {found : Match}
    (matched : Grammar.table offset text = some found) : found.rest = [] := by
  rcases exists_of_node matched with ⟨inner, body, _, innerRest⟩
  rcases exists_of_seq body with ⟨_, later, _, behindLine, _, laterRest⟩
  rcases exists_of_seq behindLine with ⟨_, last, _, finished, _, lastRest⟩
  rw [innerRest, laterRest, lastRest]
  unfold finish at finished
  split at finished
  · cases finished
    rfl
  · cases finished

/-- The grammar matches every text from its first to its last character. -/
theorem table_consumes (text : List Char) :
    Exists fun nodes : List Node => Grammar.table 0 text = some ⟨text, [], nodes⟩ := by
  rcases table_match text with ⟨node, _, _, nodes, _, _⟩
  rcases Option.map_eq_some_iff.mp nodes with ⟨⟨consumed, rest, found⟩, matched, _⟩
  have ended : rest = [] := rest_of_table matched
  have whole : consumed ++ rest = text := splits_table _ _ _ matched
  rw [ended, List.append_nil] at whole
  rw [ended, whole] at matched
  exact ⟨found, matched⟩

/-! ## Lines that count and their faults -/

/-- A line counts if it is no comment and holds more than blanks. -/
def isFilled (line : List Char) : Bool :=
  line.head? != some '#' && !line.all isTableBlank

/-- The lines of a text that count, each with its fields. -/
def filledLines (text : List Char) : List (String × List String) :=
  ((cutLines text).filter isFilled).map (fun line =>
    (String.ofList line, (runs isTableBlank line).map String.ofList))

/-- A header names a start state and an end state at least. -/
def headerFault? (line : String × List String) : Option Error :=
  if line.2.length < 2 then some (.malformedHeader line.1) else none

def symbolFault? (token line : String) : Option Error :=
  if token = "0" ∨ token = "1" then none else some (.invalidSymbol token line)

def moveFault? (token line : String) : Option Error :=
  if token = "<" ∨ token = ">" ∨ token = "-" then none else some (.invalidMove token line)

/-- A rule has five fields, of which the second, the fourth and the fifth are checked, in
this order. -/
def ruleFault? (line : String × List String) : Option Error :=
  match line.2 with
  | [_, read, _, write, move] =>
      (symbolFault? read line.1).or
        ((symbolFault? write line.1).or (moveFault? move line.1))
  | _ => some (.malformedRule line.1)

/-- The fault of the first faulty line. -/
def fault? : List (String × List String) -> Option Error
  | [] => some .missingHeader
  | header :: rules => (headerFault? header).or (rules.findSome? ruleFault?)

theorem tableLine?_eq (line : List Char) :
    tableLine? line =
      if isFilled line then some (String.ofList line, (runs isTableBlank line).map String.ofList)
      else none := by
  unfold tableLine? fieldsOf isFilled
  by_cases marked : line.head? = some '#'
  · simp [marked]
  · cases fields : runs isTableBlank line with
    | nil =>
        have blank := (Text.runs_eq_nil_iff line).mp fields
        simp [marked, blank]
    | cons field others =>
        have notBlank : line.all isTableBlank = false := by
          apply Bool.eq_false_iff.mpr
          intro blank
          rw [(Text.runs_eq_nil_iff line).mpr blank] at fields
          cases fields
        simp [marked, notBlank]

/-- The lines with fields are those that count. -/
theorem tableLines_eq (text : List Char) : tableLines text = filledLines text := by
  unfold tableLines filledLines
  induction cutLines text with
  | nil => rfl
  | cons line lines inductionHypothesis =>
      rw [List.filterMap_cons, tableLine?_eq, inductionHypothesis]
      cases filled : isFilled line <;> simp [filled]

/-! ## Checked readings -/

/-- A reading that is refused with the given fault and, where there is none, gives a value
as described. -/
inductive Checked (fault : Option Error) (described : α -> Prop) : Except Error α -> Prop where
  | refused {error : Error} (found : fault = some error) :
      Checked fault described (.error error)
  | accepted {value : α} (faultless : fault = none) (holds : described value) :
      Checked fault described (.ok value)

namespace Checked

variable {fault other : Option Error} {described : α -> Prop} {result : Except Error α}

/-- Of two readings in a row the first fault counts. -/
theorem bind {later : β -> Prop} {next : α -> Except Error β}
    (checked : Checked fault described result)
    (follows : forall value, described value -> Checked other later (next value)) :
    Checked (fault.or other) later (result >>= next) := by
  cases checked with
  | refused found =>
      rw [found]
      exact .refused rfl
  | accepted faultless holds =>
      rw [faultless, Option.none_or]
      exact follows _ holds

theorem map {later : β -> Prop} {change : α -> β} (checked : Checked fault described result)
    (carries : forall value, described value -> later (change value)) :
    Checked fault later (result >>= fun value => pure (change value)) := by
  cases checked with
  | refused found => exact .refused found
  | accepted faultless holds => exact .accepted faultless (carries _ holds)

/-- Reading a list refuses it with the fault of its first faulty entry. -/
theorem mapM {read : γ -> Except Error α} {faultOf : γ -> Option Error}
    {describes : γ -> α -> Prop}
    (each : forall entry, Checked (faultOf entry) (describes entry) (read entry))
    (entries : List γ) :
    Checked (entries.findSome? faultOf) (List.Forall₂ describes entries) (entries.mapM read) := by
  induction entries with
  | nil => exact .accepted rfl .nil
  | cons entry entries inductionHypothesis =>
      have split : (entry :: entries).findSome? faultOf =
          (faultOf entry).or (entries.findSome? faultOf) := by
        rw [List.findSome?_cons]
        cases faultOf entry <;> rfl
      rw [split, List.mapM_cons]
      exact (each entry).bind (fun value holds =>
        inductionHypothesis.map (fun _ others => .cons holds others))

theorem eq_error_iff (checked : Checked fault described result) (error : Error) :
    result = .error error ↔ fault = some error := by
  cases checked with
  | refused found => simp [found]
  | accepted faultless => simp [faultless]

/-- A description that fits one value only tells which value is read. -/
theorem eq_ok_iff (checked : Checked fault described result)
    (unique : forall one two, described one -> described two -> one = two) (value : α) :
    result = .ok value ↔ fault = none ∧ described value := by
  cases checked with
  | refused found => simp [found]
  | accepted faultless holds =>
      constructor
      · rintro ⟨⟩
        exact ⟨faultless, holds⟩
      · rintro ⟨_, fits⟩
        rw [unique _ _ holds fits]

end Checked

theorem singleChar?_eq_some {token : String} {character : Char}
    (single : singleChar? token = some character) : token = character.toString := by
  unfold singleChar? at single
  split at single
  · rename_i only listed
    cases single
    rw [Char.toString, ← String.toList_inj, listed, String.toList_singleton]
  · cases single

/-- A token is checked through the value that its only character stands for. -/
theorem checked_token {value? : Char -> Option α} {text : α -> String} {token : String}
    {error : Error} {result : Except Error α} (allowed : Prop) [Decidable allowed]
    (result_eq : result = ((singleChar? token).bind value?).elim (.error error) .ok)
    (readBack : forall value, (singleChar? (text value)).bind value? = some value)
    (written : forall character value, value? character = some value ->
      character.toString = text value)
    (allows : allowed ↔ Exists fun value : α => token = text value) :
    Checked (if allowed then none else some error) (fun value => token = text value) result := by
  rw [result_eq]
  cases found : (singleChar? token).bind value? with
  | none =>
      refine .refused (if_neg ?_)
      intro admitted
      rcases allows.mp admitted with ⟨value, rfl⟩
      rw [readBack] at found
      cases found
  | some value =>
      rcases Option.bind_eq_some_iff.mp found with ⟨character, single, read⟩
      have same : token = text value :=
        (singleChar?_eq_some single).trans (written character value read)
      exact .accepted (if_pos (allows.mpr ⟨value, same⟩)) same

theorem checked_readSymbol (token line : String) :
    Checked (symbolFault? token line) (fun symbol => token = symbol.text)
      (readSymbol token line) := by
  apply checked_token (token = "0" ∨ token = "1") _ singleChar?_symbol
  · intro character symbol read
    unfold Symbol.ofChar? at read
    split at read <;> cases read <;> rfl
  · constructor
    · rintro (zero | one)
      · exact ⟨.zero, zero⟩
      · exact ⟨.one, one⟩
    · rintro ⟨_ | _, same⟩
      · exact Or.inl same
      · exact Or.inr same
  · unfold readSymbol
    cases (singleChar? token).bind Symbol.ofChar? <;> rfl

theorem checked_readMove (token line : String) :
    Checked (moveFault? token line) (fun direction => token = direction.text)
      (readMove token line) := by
  apply checked_token (token = "<" ∨ token = ">" ∨ token = "-") _ singleChar?_direction
  · intro character direction read
    unfold Direction.ofChar? at read
    split at read <;> cases read <;> rfl
  · constructor
    · rintro (left | right | stay)
      · exact ⟨.left, left⟩
      · exact ⟨.right, right⟩
      · exact ⟨.stay, stay⟩
    · rintro ⟨_ | _ | _, same⟩
      · exact Or.inl same
      · exact Or.inr (Or.inl same)
      · exact Or.inr (Or.inr same)
  · unfold readMove
    cases (singleChar? token).bind Direction.ofChar? <;> rfl

theorem checked_readRule (line : String × List String) :
    Checked (ruleFault? line) (fun rule => line.2 = rule.fields) (readRule line.2 line.1) := by
  rcases line with ⟨line, fields⟩
  -- Any number of fields but five is refused before a field is looked at.
  rcases fields with
    _ | ⟨state, _ | ⟨read, _ | ⟨next, _ | ⟨write, _ | ⟨move, _ | ⟨_, _⟩⟩⟩⟩⟩⟩
  case cons.cons.cons.cons.cons.nil =>
    refine (checked_readSymbol read line).bind (fun readSymbol readSame => ?_)
    refine (checked_readSymbol write line).bind (fun writeSymbol writeSame => ?_)
    refine (checked_readMove move line).map (fun direction moveSame => ?_)
    rw [readSame, writeSame, moveSame]
    rfl
  all_goals exact .refused rfl

theorem checked_ofNames (line : String × List String) :
    Checked (headerFault? line) (fun header => line.2 = header.start :: header.ends)
      (Header.ofNames line.2 line.1) := by
  rcases line with ⟨line, names⟩
  rcases names with _ | ⟨start, _ | ⟨first, others⟩⟩
  · exact .refused rfl
  · exact .refused rfl
  · refine .accepted (if_neg ?_) rfl
    simp

theorem checked_ofTableLines (lines : List (String × List String)) :
    Checked (fault? lines) (fun program => lines.map Prod.snd = program.fields)
      (ofTableLines lines) := by
  cases lines with
  | nil => exact .refused rfl
  | cons header rules =>
      refine (checked_ofNames header).bind (fun named namedSame => ?_)
      refine (Checked.mapM checked_readRule rules).map (fun read readSame => ?_)
      have rulesSame : rules.map Prod.snd = read.map Rule.fields := by
        rw [← List.forall₂_eq_eq_eq, List.forall₂_map_left_iff, List.forall₂_map_right_iff]
        exact readSame
      rw [List.map_cons, namedSame, rulesSame]
      rfl

theorem checked_read (text : String) :
    Checked (fault? (filledLines text.toList))
      (fun program => (filledLines text.toList).map Prod.snd = program.fields) (read text) := by
  rw [read_eq, tableLines_eq]
  exact checked_ofTableLines _

theorem read_eq_ok_iff (text : String) (program : Program) :
    read text = .ok program ↔
      fault? (filledLines text.toList) = none ∧
        (filledLines text.toList).map Prod.snd = program.fields :=
  (checked_read text).eq_ok_iff
    (fun _ _ one two => Program.fields_injective (one.symm.trans two)) program

/-- No fault of a line stands for a text that the grammar does not match. -/
theorem fault?_ne_unreadableTable (lines : List (String × List String)) :
    fault? lines ≠ some .unreadableTable := by
  intro found
  cases lines with
  | nil => cases found
  | cons header rules =>
      rcases Option.or_eq_some_iff.mp found with headed | ⟨_, ruled⟩
      · unfold headerFault? at headed
        split at headed <;> cases headed
      · rcases List.exists_of_findSome?_eq_some ruled with ⟨rule, _, refused⟩
        unfold ruleFault? symbolFault? moveFault? at refused
        grind

/--
The reader keeps to the format.  The grammar matches every text as a whole, so no text
is refused as unreadable.  Reading fails with an error exactly when this is the first
fault among the lines that count, and gives a program exactly when there is no fault and
the fields of the lines are those of the program.
-/
theorem reading_keeps_to_format (text : String) :
    (Exists fun nodes : List Node =>
      Grammar.table 0 text.toList = some ⟨text.toList, [], nodes⟩) ∧
    read text ≠ .error .unreadableTable ∧
    (forall error, read text = .error error ↔
      fault? (filledLines text.toList) = some error) ∧
    (forall program, read text = .ok program ↔
      fault? (filledLines text.toList) = none ∧
        (filledLines text.toList).map Prod.snd = program.fields) := by
  have failures := (checked_read text).eq_error_iff
  refine ⟨table_consumes text.toList, ?_, failures, read_eq_ok_iff text⟩
  intro unreadable
  exact fault?_ne_unreadableTable _ ((failures _).mp unreadable)

-- Of two faulty lines the first one counts, and of its two faulty fields the second field.
example : fault? (filledLines "s e\r#\r\n\ta 2 b 3 >\ns\n".toList) =
    some (.invalidSymbol "2" "\ta 2 b 3 >") := by
  decide +kernel

/-! ## Written tables -/

theorem isField_iff (name : StateName) :
    IsField name ↔ name ≠ "" ∧ forall character, character ∈ name.toList ->
      Not (character ∈ [' ', '\t', '\n', '\r']) := by
  unfold IsField
  rw [List.all_eq_true]
  simp [isFieldPart, isLinePart, isTableBlank, and_assoc]

end Table

/-- A program that is read back was fit to be written. -/
theorem Program.writable_of_read_write {program : Program}
    (readBack : Table.read (Table.write program) = .ok program) : program.Writable := by
  have fielded := Table.fielded_of_read readBack
  have ending := Table.ends_ne_nil_of_read readBack
  rw [fielded.read_write ending] at readBack
  rcases (Program.withoutMarked_eq_ok_iff program).mp readBack with ⟨start, states⟩
  exact ⟨Table.leadsLine_of_isMarked fielded.start_field start, ending, fielded.ends_fields,
    fun rule member =>
      ⟨Table.leadsLine_of_isMarked (fielded.states_fields rule member) (states rule member),
        fielded.nexts_fields rule member⟩⟩

/-- Every name in a program: the start state, the end states and the states of the rules. -/
def Program.names (program : Program) : List StateName :=
  program.start :: program.ends ++ program.rules.flatMap (fun rule => [rule.state, rule.next])

theorem Program.forall_mem_names_iff {program : Program} {holds : StateName -> Prop} :
    (forall name, name ∈ program.names -> holds name) ↔
      holds program.start ∧ (forall name, name ∈ program.ends -> holds name) ∧
        forall rule, rule ∈ program.rules -> holds rule.state ∧ holds rule.next := by
  simp only [names, List.cons_append, List.forall_mem_cons, List.forall_mem_append,
    List.forall_mem_flatMap, List.not_mem_nil, false_implies, implies_true, and_true]

/--
A table is read back as the program it was written for exactly when the program has an
end state, no name in it is empty or holds a space, a tab, a line feed or a carriage
return, and neither the start state nor the state of a rule begins with the comment mark.
-/
theorem Table.written_table_read_back_iff (program : Program) :
    read (write program) = .ok program ↔
      program.ends ≠ [] ∧
      (forall name, name ∈ program.names -> name ≠ "" ∧
        forall character, character ∈ name.toList ->
          Not (character ∈ [' ', '\t', '\n', '\r'])) ∧
      program.start.toList.head? ≠ some '#' ∧
      forall rule, rule ∈ program.rules -> rule.state.toList.head? ≠ some '#' := by
  simp only [← isField_iff, Program.forall_mem_names_iff]
  constructor
  · intro readBack
    have writable := Program.writable_of_read_write readBack
    exact ⟨writable.ends_ne_nil,
      ⟨writable.start_leads.1, writable.ends_fields, fun rule member =>
        ⟨(writable.rules_writable rule member).state_leads.1,
          (writable.rules_writable rule member).next_field⟩⟩,
      writable.start_leads.2,
      fun rule member => (writable.rules_writable rule member).state_leads.2⟩
  · rintro ⟨ending, ⟨start, ends, rules⟩, startUnmarked, rulesUnmarked⟩
    have writable : program.Writable :=
      ⟨⟨start, startUnmarked⟩, ending, ends, fun rule member =>
        ⟨⟨(rules rule member).1, rulesUnmarked rule member⟩, (rules rule member).2⟩⟩
    exact writable.read_write

-- The written header is a comment, so the line of the rule is read in its place.
example : (Table.read (Table.write ⟨"#s", ["e"], [⟨"a", .zero, "e", .one, .right⟩]⟩)).toOption =
    some ⟨"a", ["0", "e", "1", ">"], []⟩ := by
  decide +kernel

end BinaryTape
