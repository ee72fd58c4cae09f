import BinaryTape.Proofs.Bindings
import BinaryTape.Proofs.TableText
import BinaryTape.Table.Writer

namespace BinaryTape

/-!
# Tables that are read back as they were written

A program is written with single spaces between its fields and a line feed behind
every line.  The reader cuts at just these places, provided that the names of the
program do not hold a blank or a line end themselves, that none of them is empty,
and that no line begins with the comment mark.  The mark may begin a name only where
the name does not come first on its line: the target of a rule or an end state may
start with it, the start state and the state of a rule may not.

Tables that were read have fields for names.  They need not be fit to be written,
because a blank in front of a line hides a comment mark from the reader.
-/

namespace Table

open Text (runs isTableBlank)

/-! ## Names on lines -/

/-- A name that stands for itself between blanks: it is not empty and holds neither
a blank nor a line end. -/
def IsField (name : StateName) : Prop := name ≠ "" ∧ name.toList.all isFieldPart = true

instance (name : StateName) : Decidable (IsField name) := inferInstanceAs (Decidable (_ ∧ _))

/-- Whether a name starts with the comment mark. -/
def isMarked (name : StateName) : Bool := name.toList.head? == some '#'

/-- A field that does not turn a line into a comment when the line starts with it. -/
def LeadsLine (name : StateName) : Prop := IsField name ∧ name.toList.head? ≠ some '#'

instance (name : StateName) : Decidable (LeadsLine name) := inferInstanceAs (Decidable (_ ∧ _))

theorem IsField.ne_nil {name : StateName} (field : IsField name) : name.toList ≠ [] :=
  fun empty => field.1 (String.toList_eq_nil_iff.mp empty)

theorem LeadsLine.isMarked {name : StateName} (leads : LeadsLine name) :
    isMarked name = false :=
  beq_eq_false_iff_ne.mpr leads.2

theorem leadsLine_of_isMarked {name : StateName} (field : IsField name)
    (unmarked : isMarked name = false) : LeadsLine name :=
  ⟨field, beq_eq_false_iff_ne.mp unmarked⟩

theorem IsField.isFieldPart {name : StateName} (field : IsField name) {character : Char}
    (member : character ∈ name.toList) : isFieldPart character = true :=
  List.all_eq_true.mp field.2 character member

end Table

open Table (IsField LeadsLine)

/-- All names of a program are fields. -/
structure Program.Fielded (program : Program) : Prop where
  start_field : IsField program.start
  ends_fields : forall name, name ∈ program.ends -> IsField name
  states_fields : forall rule, rule ∈ program.rules -> IsField rule.state
  nexts_fields : forall rule, rule ∈ program.rules -> IsField rule.next

/-- What a rule needs so that its own line can be read back. -/
structure Rule.Writable (rule : Rule) : Prop where
  state_leads : LeadsLine rule.state
  next_field : IsField rule.next

/-- What a program needs so that its own table can be read back. -/
structure Program.Writable (program : Program) : Prop where
  start_leads : LeadsLine program.start
  ends_ne_nil : program.ends ≠ []
  ends_fields : forall name, name ∈ program.ends -> IsField name
  rules_writable : forall rule, rule ∈ program.rules -> rule.Writable

/-- The five fields of a rule. -/
def Rule.fields (rule : Rule) : List String :=
  [rule.state, rule.read.text, rule.next, rule.write.text, rule.move.text]

namespace Table

open Text (runs isTableBlank)

/-! ## One line -/

theorem runs_intercalate {fields : List String}
    (each : forall field, field ∈ fields -> IsField field) :
    runs isTableBlank (" ".intercalate fields).toList = fields.map String.toList := by
  induction fields with
  | nil => rfl
  | cons field fields inductionHypothesis =>
      have here := each field List.mem_cons_self
      have free : forall value, value ∈ field.toList -> isTableBlank value = false :=
        fun value member => isTableBlank_of_isFieldPart (here.isFieldPart member)
      have later := inductionHypothesis (fun other member =>
        each other (List.mem_cons_of_mem _ member))
      cases fields with
      | nil =>
          rw [String.intercalate_singleton]
          exact Text.runs_of_free here.ne_nil free
      | cons next others =>
          rw [String.intercalate_cons_cons, String.append_assoc, String.toList_append,
            String.toList_append, Text.runs_append_of_free here.ne_nil free, List.map_cons]
          · rw [show " ".toList = [' '] from rfl, List.singleton_append,
              Text.runs_cons_separator rfl, later]
          · rintro value ⟨⟩
            rfl

/-- Fields with spaces between them stay on one line. -/
theorem isLinePart_of_mem_intercalate {fields : List String}
    (each : forall field, field ∈ fields -> IsField field) :
    forall character, character ∈ (" ".intercalate fields).toList ->
      isLinePart character = true := by
  intro character member
  induction fields with
  | nil => simp at member
  | cons field fields inductionHypothesis =>
      have here : character ∈ field.toList -> isLinePart character = true := fun inside =>
        isLinePart_of_isFieldPart ((each field List.mem_cons_self).isFieldPart inside)
      cases fields with
      | nil =>
          rw [String.intercalate_singleton] at member
          exact here member
      | cons next others =>
          rw [String.intercalate_cons_cons, String.toList_append, String.toList_append] at member
          rcases List.mem_append.mp member with front | later
          · rcases List.mem_append.mp front with inside | space
            · exact here inside
            · rw [List.mem_singleton.mp space]
              rfl
          · exact inductionHypothesis (fun other inside =>
              each other (List.mem_cons_of_mem _ inside)) later

theorem head?_intercalate {first : String} (field : IsField first) (others : List String) :
    (" ".intercalate (first :: others)).toList.head? = first.toList.head? := by
  cases characters : first.toList with
  | nil => exact absurd characters field.ne_nil
  | cons character rest =>
      cases others with
      | nil => rw [String.intercalate_singleton, characters]
      | cons next others =>
          rw [String.intercalate_cons_cons, String.append_assoc, String.toList_append, characters]
          rfl

/-- A line of fields is read as these fields, unless the first one makes it a comment. -/
theorem tableLine?_intercalate {first : String} {others : List String} (field : IsField first)
    (each : forall field, field ∈ others -> IsField field) :
    tableLine? (" ".intercalate (first :: others)).toList =
      if isMarked first then none
      else some (" ".intercalate (first :: others), first :: others) := by
  have all : forall field, field ∈ first :: others -> IsField field :=
    List.forall_mem_cons.mpr ⟨field, each⟩
  unfold tableLine? fieldsOf isMarked
  rw [head?_intercalate field, runs_intercalate all, List.map_map, String.ofList_toList]
  by_cases marked : first.toList.head? = some '#'
  · simp [marked]
  · simp [marked, Function.comp_def]

/-! ## Whole tables -/

theorem cutLines_of_line {line : List Char}
    (plain : forall character, character ∈ line -> isLinePart character = true)
    (rest : List Char) : cutLines (line ++ '\n' :: rest) = line :: cutLines rest := by
  have stops : isLinePart '\n' = false := rfl
  rw [cutLines_eq, List.takeWhile_append_of_pos plain, List.dropWhile_append_of_pos plain,
    List.takeWhile_cons_of_neg (by simp [stops]), List.dropWhile_cons_of_neg (by simp [stops]),
    List.append_nil]
  rfl

/-- Written lines are cut apart again; behind the last line feed stands an empty line. -/
theorem cutLines_of_lines {lines : List String}
    (plain : forall line, line ∈ lines -> forall character, character ∈ line.toList ->
      isLinePart character = true) :
    cutLines (String.join (lines.map (fun line => line ++ "\n"))).toList =
      lines.map String.toList ++ [[]] := by
  induction lines with
  | nil => rfl
  | cons line lines inductionHypothesis =>
      rw [List.map_cons, String.join_cons, String.toList_append, String.toList_append,
        List.append_assoc, show "\n".toList = ['\n'] from rfl, List.singleton_append,
        cutLines_of_line (plain line List.mem_cons_self),
        inductionHypothesis (fun other member => plain other (List.mem_cons_of_mem _ member))]
      rfl

theorem singleChar?_symbol (symbol : Symbol) :
    (singleChar? symbol.text).bind Symbol.ofChar? = some symbol := by
  cases symbol <;> rfl

theorem singleChar?_direction (direction : Direction) :
    (singleChar? direction.text).bind Direction.ofChar? = some direction := by
  cases direction <;> rfl

theorem readRule_fields (rule : Rule) (line : String) :
    readRule rule.fields line = .ok rule := by
  simp only [Rule.fields, readRule, readSymbol, readMove, singleChar?_symbol,
    singleChar?_direction]
  rfl

theorem readRules_map (rules : List Rule) :
    readRules (rules.map (fun rule => (rule.text, rule.fields))) = .ok rules := by
  induction rules with
  | nil => rfl
  | cons rule rules inductionHypothesis =>
      unfold readRules at inductionHypothesis ⊢
      rw [List.map_cons, List.mapM_cons, readRule_fields, inductionHypothesis]
      rfl

theorem isField_symbol (symbol : Symbol) : IsField symbol.text := by
  cases symbol <;> decide

theorem isField_direction (direction : Direction) : IsField direction.text := by
  cases direction <;> decide

end Table

/-- Symbols and directions are fields, so a rule is made of fields if its states are. -/
theorem Rule.isField_of_mem_fields {rule : Rule} (state : IsField rule.state)
    (next : IsField rule.next) : forall field, field ∈ rule.fields -> IsField field := by
  intro field member
  simp only [Rule.fields, List.mem_cons, List.not_mem_nil, or_false] at member
  rcases member with rfl | rfl | rfl | rfl | rfl
  · exact state
  · exact Table.isField_symbol rule.read
  · exact next
  · exact Table.isField_symbol rule.write
  · exact Table.isField_direction rule.move

/-- When all names are fields, the written lines are cut apart again. -/
theorem Program.Fielded.cutLines_write {program : Program} (fielded : program.Fielded) :
    Table.cutLines (Table.write program).toList =
      (Table.outputLines program).map String.toList ++ [[]] := by
  apply Table.cutLines_of_lines
  intro line member
  rcases List.mem_cons.mp member with rfl | later
  · exact Table.isLinePart_of_mem_intercalate (List.forall_mem_cons.mpr
      ⟨fielded.start_field, fielded.ends_fields⟩)
  · rcases List.mem_map.mp later with ⟨rule, inside, rfl⟩
    exact Table.isLinePart_of_mem_intercalate (Rule.isField_of_mem_fields
      (fielded.states_fields rule inside) (fielded.nexts_fields rule inside))

/-- The rules whose lines are not taken for comments. -/
def Program.plainRules (program : Program) : List Rule :=
  program.rules.filter (fun rule => !Table.isMarked rule.state)

/-- The written lines as the reader finds them: those that start with the comment mark are
missing. -/
theorem Program.Fielded.tableLines_write {program : Program} (fielded : program.Fielded) :
    Table.tableLines (Table.write program).toList =
      (if Table.isMarked program.start then []
        else [(Table.headerLine program, program.start :: program.ends)]) ++
      program.plainRules.map (fun rule => (rule.text, rule.fields)) := by
  have header : Table.tableLine? (Table.headerLine program).toList = _ :=
    Table.tableLine?_intercalate fielded.start_field fielded.ends_fields
  have rules : (program.rules.map (fun rule => rule.text.toList)).filterMap Table.tableLine? =
      program.plainRules.map (fun rule => (rule.text, rule.fields)) := by
    rw [List.filterMap_map, Program.plainRules, ← List.filterMap_eq_map, List.filterMap_filter]
    apply List.filterMap_congr
    intro rule member
    have fields := Rule.isField_of_mem_fields (fielded.states_fields rule member)
      (fielded.nexts_fields rule member)
    have line : Table.tableLine? rule.text.toList = _ :=
      Table.tableLine?_intercalate (fielded.states_fields rule member)
        (List.forall_mem_cons.mp fields).2
    rw [Function.comp_apply, line]
    cases Table.isMarked rule.state <;> rfl
  rw [Table.tableLines, fielded.cutLines_write, Table.outputLines, List.map_cons,
    List.filterMap_append, List.map_map, List.filterMap_cons, header, Function.comp_def, rules]
  cases Table.isMarked program.start <;> exact List.append_nil _

/-- What a written table is read back as.  The rules whose lines are comments are missing;
when the header is a comment, the first line that is left is read in its place. -/
def Program.withoutMarked (program : Program) : Except Error Program :=
  if Table.isMarked program.start then
    match program.plainRules with
    | [] => .error .missingHeader
    | rule :: rules => .ok ⟨rule.state, rule.fields.tail, rules⟩
  else .ok { program with rules := program.plainRules }

theorem Program.Fielded.read_write {program : Program} (fielded : program.Fielded)
    (ending : program.ends ≠ []) :
    Table.read (Table.write program) = program.withoutMarked := by
  rw [Table.read_eq, fielded.tableLines_write, Program.withoutMarked]
  cases Table.isMarked program.start with
  | true =>
      cases program.plainRules with
      | nil => rfl
      | cons rule rules =>
          simp only [if_true, List.nil_append, List.map_cons, Table.ofTableLines,
            Table.readRules_map]
          rfl
  | false =>
      rcases program with ⟨start, ends, rules⟩
      cases ends with
      | nil => exact absurd rfl ending
      | cons first others =>
          simp only [Bool.false_eq_true, if_false, List.singleton_append, Table.ofTableLines,
            Table.readRules_map]
          rfl

theorem Program.isMarked_of_mem_plainRules {program : Program} {rule : Rule}
    (member : rule ∈ program.plainRules) : Table.isMarked rule.state = false :=
  (Bool.not_eq_true' _).mp (List.mem_filter.mp member).2

/-- A program is left as it is exactly when none of its lines starts with the mark. -/
theorem Program.withoutMarked_eq_ok_iff (program : Program) :
    program.withoutMarked = .ok program ↔
      Table.isMarked program.start = false ∧
        forall rule, rule ∈ program.rules -> Table.isMarked rule.state = false := by
  unfold Program.withoutMarked
  cases marked : Table.isMarked program.start with
  | true =>
      -- The state that is read as the start state leads a rule that is left, so it is not
      -- the marked one.
      refine ⟨fun same => ?_, fun impossible => nomatch impossible.1⟩
      cases left : program.plainRules with
      | nil =>
          rw [left] at same
          cases same
      | cons rule rules =>
          have plain : Table.isMarked rule.state = false :=
            Program.isMarked_of_mem_plainRules (left ▸ List.mem_cons_self)
          rw [left] at same
          have starts : rule.state = program.start :=
            congrArg Program.start (Except.ok.inj same)
          rw [starts, marked] at plain
          cases plain
  | false =>
      have kept : program.plainRules = program.rules ↔
          forall rule, rule ∈ program.rules -> Table.isMarked rule.state = false := by
        simp only [Program.plainRules, List.filter_eq_self, Bool.not_eq_true']
      rw [← kept]
      constructor
      · intro same
        exact ⟨rfl, congrArg Program.rules (Except.ok.inj same)⟩
      · rintro ⟨_, same⟩
        rw [same]
        rfl

namespace Program.Writable

variable {program : Program}

theorem fielded (writable : program.Writable) : program.Fielded where
  start_field := writable.start_leads.1
  ends_fields := writable.ends_fields
  states_fields rule member := (writable.rules_writable rule member).state_leads.1
  nexts_fields rule member := (writable.rules_writable rule member).next_field

/-- The table of such a program is read back as the program. -/
theorem read_write (writable : program.Writable) :
    Table.read (Table.write program) = .ok program := by
  rw [writable.fielded.read_write writable.ends_ne_nil, Program.withoutMarked_eq_ok_iff]
  exact ⟨writable.start_leads.isMarked, fun rule member =>
    (writable.rules_writable rule member).state_leads.isMarked⟩

end Program.Writable

namespace Table

/-! ## The names of tables that were read -/

/-- Lines hold no line ends. -/
theorem isLinePart_of_mem_cutLines {text : List Char} :
    forall line, line ∈ cutLines text -> forall character, character ∈ line ->
      isLinePart character = true := by
  have emptyLine : forall character, character ∈ ([] : List Char) ->
      isLinePart character = true := fun _ impossible => nomatch impossible
  fun_induction cutLines text with
  | case1 => exact List.forall_mem_singleton.mpr emptyLine
  | case2 rest inductionHypothesis =>
      exact List.forall_mem_cons.mpr ⟨emptyLine, inductionHypothesis⟩
  | case3 rest inductionHypothesis =>
      exact List.forall_mem_cons.mpr ⟨emptyLine, inductionHypothesis⟩
  | case4 rest _ inductionHypothesis =>
      exact List.forall_mem_cons.mpr ⟨emptyLine, inductionHypothesis⟩
  | case5 first rest noFeed _ noReturn inductionHypothesis =>
      have part : isLinePart first = true :=
        (isLinePart_iff first).mpr ⟨noFeed, noReturn⟩
      rw [cutLines_eq] at inductionHypothesis ⊢
      rcases List.forall_mem_cons.mp inductionHypothesis with ⟨line, others⟩
      exact List.forall_mem_cons.mpr ⟨List.forall_mem_cons.mpr ⟨part, line⟩, others⟩

theorem isField_of_mem_fieldsOf {line : List Char}
    (plain : forall character, character ∈ line -> isLinePart character = true) :
    forall field, field ∈ fieldsOf line -> IsField field := by
  intro field member
  unfold fieldsOf at member
  split at member
  · cases member
  · rcases List.mem_map.mp member with ⟨run, inside, rfl⟩
    rcases Text.isRun_of_mem_runs inside with ⟨filled, free⟩
    refine ⟨fun empty => filled (String.ofList_eq_empty_iff.mp empty), ?_⟩
    rw [String.toList_ofList, List.all_eq_true]
    intro character among
    rcases free character among with ⟨inLine, noBlank⟩
    simp only [isFieldPart, noBlank, plain character inLine, Bool.not_false, Bool.and_self]

theorem isField_of_mem_tableLines {text : List Char} {entry : String × List String}
    (member : entry ∈ tableLines text) : forall field, field ∈ entry.2 -> IsField field := by
  rcases List.mem_filterMap.mp member with ⟨line, inside, found⟩
  have fields : entry.2 = fieldsOf line := by
    unfold tableLine? at found
    split at found
    · cases found
    · rename_i same
      rw [same, ← Option.some.inj found]
  rw [fields]
  exact isField_of_mem_fieldsOf (isLinePart_of_mem_cutLines line inside)

/-- What comes second is only done with the result of what comes first. -/
theorem exists_of_bind_eq_ok {first : Except Error α} {second : α -> Except Error β} {result : β}
    (done : (first >>= second) = .ok result) :
    Exists fun value : α => first = .ok value ∧ second value = .ok result := by
  cases first with
  | error error => cases done
  | ok value => exact ⟨value, rfl, done⟩

/-- A rule is read from five fields, and its states are two of them. -/
theorem readRule_eq_ok {fields : List String} {line : String} {rule : Rule}
    (read : readRule fields line = .ok rule) : rule.state ∈ fields ∧ rule.next ∈ fields := by
  unfold readRule at read
  split at read
  · rcases exists_of_bind_eq_ok read with ⟨_, _, writing⟩
    rcases exists_of_bind_eq_ok writing with ⟨_, _, moving⟩
    rcases exists_of_bind_eq_ok moving with ⟨_, _, made⟩
    cases made
    simp
  · cases read

theorem ofNames_eq_ok {names : List String} {line : String} {header : Header}
    (made : Header.ofNames names line = .ok header) : names = header.start :: header.ends := by
  unfold Header.ofNames at made
  split at made
  · cases made
    rfl
  · cases made

/-- The names of a table that was read are fields. -/
theorem fielded_of_read {text : String} {program : Program}
    (readBack : read text = .ok program) : program.Fielded := by
  rw [read_eq] at readBack
  have fields : forall entry, entry ∈ tableLines text.toList ->
      forall field, field ∈ entry.2 -> IsField field := fun _ => isField_of_mem_tableLines
  generalize tableLines text.toList = lines at readBack fields
  unfold ofTableLines at readBack
  split at readBack
  · cases readBack
  · rename_i line names rest
    rcases exists_of_bind_eq_ok readBack with ⟨header, headed, ruled⟩
    rcases exists_of_bind_eq_ok ruled with ⟨rules, read, made⟩
    cases made
    have named := fields (line, names) List.mem_cons_self
    rw [ofNames_eq_ok headed] at named
    rcases List.forall_mem_cons.mp named with ⟨start, ends⟩
    have origin : forall rule, rule ∈ rules -> IsField rule.state ∧ IsField rule.next := by
      intro rule member
      rcases Binding.mem_of_mapM_eq_ok read member with ⟨entry, inside, ruleRead⟩
      have among := readRule_eq_ok ruleRead
      have each := fields entry (List.mem_cons_of_mem _ inside)
      exact ⟨each _ among.1, each _ among.2⟩
    exact ⟨start, ends, fun rule member => (origin rule member).1,
      fun rule member => (origin rule member).2⟩

/-- A table that was read has an end state, because its header was asked for one. -/
theorem ends_ne_nil_of_read {text : String} {program : Program}
    (readable : read text = .ok program) : program.ends ≠ [] := by
  rw [read_eq] at readable
  unfold ofTableLines at readable
  split at readable
  · cases readable
  · rcases exists_of_bind_eq_ok readable with ⟨header, _, ruled⟩
    rcases exists_of_bind_eq_ok ruled with ⟨rules, _, made⟩
    cases made
    exact header.ends_ne_nil

-- The blank in front keeps the header from being a comment; its start state cannot
-- lead a line.
example : (read " #s e\n").toOption = some ⟨"#s", ["e"], []⟩ ∧ Not (LeadsLine "#s") := by
  decide +kernel

end Table

end BinaryTape
