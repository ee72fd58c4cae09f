import BinaryTape.Proofs.ChainEnds
import BinaryTape.Proofs.FileContents
import BinaryTape.Proofs.Instances
import BinaryTape.Proofs.Readings
import BinaryTape.Proofs.TableRoundTrip

namespace BinaryTape

open Table (IsField LeadsLine)

/-!
# Compiled programs survive being written

The states of a compiled program come from five places.  The names of the header are
separated by white space and end before a comment mark; labels are identifiers;
implicit states are numerals; the states of a module are fields of its table, with
the name of the module in front and the mark of the call behind; and the targets of
bindings are separated by white space.  Every blank and every line end of a table is
white space, so all of these are fields.

The comment mark can come first in a module's states and in the targets of bindings
only.  A module's state never stands at the front of a name, and what a binding leads
to only ever becomes the target of a rule.  So every line of a compiled table begins with
something else, and the passes change nothing about that: they give rules new targets
from among the targets that are there, and drop rules.
-/

namespace Table

/-! ## Names from all origins -/

theorem mem_separators {character : Char} (separates : isFieldPart character = false) :
    character ∈ [' ', '\t', '\n', '\r'] := by
  simp only [isFieldPart, Text.isTableBlank, isLinePart, Bool.and_eq_false_iff,
    Bool.not_eq_false', Bool.or_eq_true, beq_iff_eq, bne_eq_false_iff_eq] at separates
  simp only [List.mem_cons, List.not_mem_nil, or_false]
  rcases separates with (space | tab) | (feed | carriage)
  · exact Or.inl space
  · exact Or.inr (Or.inl tab)
  · exact Or.inr (Or.inr (Or.inl feed))
  · exact Or.inr (Or.inr (Or.inr carriage))

/-- A text is a field if all its characters belong to a class without separators. -/
theorem isField_of_class {name : StateName} (holds : Char -> Bool)
    (excludes : [' ', '\t', '\n', '\r'].any holds = false)
    (filled : name ≠ "") (all : forall character, character ∈ name.toList ->
      holds character = true) : IsField name := by
  refine ⟨filled, List.all_eq_true.mpr (fun character member => ?_)⟩
  apply Decidable.byContradiction
  intro separates
  have among := mem_separators (Bool.eq_false_iff.mpr separates)
  exact List.any_eq_false.mp excludes character among (all character member)

/-- What separates fields or lines is white space. -/
theorem isField_of_solid {name : StateName} (filled : name ≠ "")
    (solid : forall character, character ∈ name.toList ->
      Text.isWhiteSpace character = false) : IsField name := by
  apply isField_of_class (fun character => !Text.isWhiteSpace character) rfl filled
  intro character member
  rw [solid character member]
  rfl

/-- Texts of letters, digits and underscores can lead a line. -/
theorem leadsLine_of_nameParts {name : StateName} (filled : name ≠ "")
    (parts : forall character, character ∈ name.toList ->
      Source.isNamePart character = true) : LeadsLine name := by
  refine ⟨isField_of_class Source.isNamePart rfl filled parts, ?_⟩
  intro first
  have mark := parts '#' (List.mem_of_head? first)
  cases mark

theorem leadsLine_identifier {name : StateName} (identifier : Source.isIdentifier name = true) :
    LeadsLine name := by
  apply leadsLine_of_nameParts
  · rintro rfl
    cases identifier
  · intro character member
    exact Names.isNamePart_of_mem_identifier identifier member

theorem leadsLine_numeral (number : Nat) : LeadsLine (toString number) := by
  apply leadsLine_of_nameParts
  · exact Nat.repr_ne_empty
  · intro character member
    have digit := Names.isDigit_of_mem_numeral member
    simp [Source.isNamePart, digit]

/-- A marked state can lead a line, because the name of its module does. -/
theorem leadsLine_marked {name : String} (identifier : Source.isIdentifier name = true)
    (invocation : Nat) {state : StateName} (field : IsField state) :
    LeadsLine (Module.marked name invocation state) := by
  have leads := leadsLine_identifier identifier
  have number := leadsLine_numeral invocation
  have characters := Names.toList_marked name invocation state
  refine ⟨⟨?_, ?_⟩, ?_⟩
  · intro empty
    rw [String.toList_eq_nil_iff.mpr empty] at characters
    simp at characters
  · rw [characters]
    simp only [List.all_append, List.all_cons, List.all_nil, leads.1.2, field.2, number.1.2]
    decide
  · rw [characters, List.head?_append_of_ne_nil _ leads.1.ne_nil]
    exact leads.2

/-- The names of a header can lead lines: a comment mark has ended it before. -/
theorem leadsLine_of_header {line : String} {header : Header}
    (read : Source.lineHeader? line = some header) :
    forall name, name ∈ header.start :: header.ends -> LeadsLine name := by
  intro name member
  rw [← Source.words_of_lineHeader? read] at member
  rcases Text.isRun_of_mem_words member with ⟨filled, inside⟩
  rw [String.toList_ofList] at inside
  refine ⟨isField_of_solid ?_ (fun character among => (inside character among).2), ?_⟩
  · rintro rfl
    exact filled rfl
  · intro first
    exact Source.splitAtFirst_fst '#' line.toList (inside '#' (List.mem_of_head? first)).1

end Table

/-- Where a binding leads is a field, if the default is one. -/
theorem Binding.isField_of_mem_exits {declared : Module} {binding : String}
    {default : StateName} {result : List StateName} (field : IsField default)
    (resolved : exits declared binding default = .ok result) :
    forall exit, exit ∈ result -> IsField exit := by
  rcases exists_routed resolved with ⟨routes, routed, rfl⟩
  intro exit member
  rcases List.mem_map.mp member with ⟨route, inside, rfl⟩
  cases route with
  | none => exact field
  | some target =>
      rcases routed.1 target inside with ⟨written, filled⟩
      exact Table.isField_of_solid filled (fun _ => isWhiteSpace_of_mem_written written)

/-- The rules of a call of a module whose names are fields can be written. -/
theorem Instance.rules_writable {program : Program} {name : String} {invocation : Nat}
    {entryState : StateName} {exits : List StateName}
    (identifier : Source.isIdentifier name = true) (fielded : program.Fielded)
    (exitCount : exits.length = program.ends.length) (entry : LeadsLine entryState)
    (exitFields : forall exit, exit ∈ exits -> IsField exit) :
    forall rule, rule ∈ rules (.declare name program) (Module.invocationScope invocation)
      entryState exits -> rule.Writable := by
  intro rule member
  rw [rules, map_copy_declare exitCount] at member
  rcases List.mem_append.mp member with handOver | copied
  · rcases List.mem_map.mp handOver with ⟨symbol, _, rfl⟩
    exact ⟨entry, (Table.leadsLine_marked identifier invocation fielded.start_field).1⟩
  · rcases List.mem_map.mp copied with ⟨original, inside, rfl⟩
    refine ⟨Table.leadsLine_marked identifier invocation
      (fielded.states_fields original inside), ?_⟩
    simp only [image, outside]
    cases bound : exits[program.ends.idxOf original.next]? with
    | none =>
        exact (Table.leadsLine_marked identifier invocation
          (fielded.nexts_fields original inside)).1
    | some exit => exact exitFields exit (List.mem_of_getElem? bound)

namespace Source

/-! ## The table of a source -/

variable {library : Library} {made earlier later : List Stage} {last : Draft}
  {header : Header} {stage : Stage}

theorem Stage.Made.leadsLine_current (step : stage.Made)
    (written : stage.construct.WellWritten) : LeadsLine stage.after.current := by
  rw [step.effect.current_eq]
  cases construct : stage.construct with
  | jump target =>
      rw [construct] at written
      exact Table.leadsLine_identifier written
  | move direction => exact Table.leadsLine_numeral _
  | write symbol => exact Table.leadsLine_numeral _
  | call name binding => exact Table.leadsLine_numeral _

namespace Drafted

theorem leadsLine_current (drafted : Drafted library made last)
    (headed : last.header = some header) (start : LeadsLine header.start) :
    LeadsLine last.current := by
  rw [drafted.current_eq headed, standing]
  cases final : made.getLast? with
  | none => exact start
  | some stage =>
      rcases List.append_of_mem (List.mem_of_getLast? final) with ⟨earlier, later, parts⟩
      rcases drafted.split parts with ⟨_, _, written, step⟩
      exact step.leadsLine_current written

/-- Every construct adds rules that can be written. -/
theorem stage_writable (drafted : Drafted library made last)
    (headed : last.header = some header) (start : LeadsLine header.start)
    (tables : library.FromTables) (parts : made = earlier ++ stage :: later) :
    forall rule, rule ∈ stage.rules -> rule.Writable := by
  rcases drafted.split parts with ⟨begun, sameHeader, written, step⟩
  have current : LeadsLine stage.before.current :=
    begun.leadsLine_current (sameHeader.trans headed) start
  rcases stage.construct.call_or_simple with ⟨name, binding, construct⟩ | simple
  · rcases begun.called step construct with
      ⟨program, exits, loaded, _, resolved, lengths, rules⟩
    rcases tables name program loaded with ⟨text, read⟩
    rw [construct] at written
    rw [rules]
    exact Instance.rules_writable written.1 (Table.fielded_of_read read) lengths current
      (Binding.isField_of_mem_exits (Table.leadsLine_numeral _).1 resolved)
  · intro rule member
    rcases step.rule_between simple member with ⟨state, next⟩
    exact ⟨state ▸ current, next ▸ (step.leadsLine_current written).1⟩

end Drafted

/-- The table that a source is read into can be written. -/
theorem writable_of_parse {text : String} {program : Program} {registry : Registry}
    (tables : library.FromTables) (parsed : parse library text = .ok (program, registry)) :
    program.Writable := by
  rcases drafted_of_parse parsed with ⟨last, header, drafted, headed, found, _, rfl⟩
  rcases Option.bind_eq_some_iff.mp found with ⟨line, _, read⟩
  have names := Table.leadsLine_of_header read
  rcases List.forall_mem_cons.mp names with ⟨start, ends⟩
  refine ⟨start, header.ends_ne_nil, fun name member => (ends name member).1, ?_⟩
  intro rule member
  rcases List.mem_append.mp member with staged | closing
  · rcases List.mem_flatMap.mp staged with ⟨stage, among, inside⟩
    rcases List.append_of_mem among with ⟨earlier, later, parts⟩
    exact drafted.stage_writable headed start tables parts rule inside
  · rcases List.mem_map.mp closing with ⟨symbol, _, rfl⟩
    exact ⟨drafted.leadsLine_current headed start, (ends _ (List.head_mem _)).1⟩

end Source

/-! ## The passes -/

/-- A chain ends with a target of the table. -/
theorem Rule.Writable.of_leads {ends : List StateName} {rules : List Rule}
    {rule final : Rule} {length : Nat}
    (all : forall other, other ∈ rules -> other.Writable) (writable : rule.Writable)
    (leads : Chain.Leads ends rules rule length final) : final.Writable := by
  induction leads with
  | closed => exact writable
  | taken _ found _ inductionHypothesis =>
      have other := all _ (List.mem_of_find?_eq_some found)
      exact inductionHypothesis ⟨writable.state_leads, other.next_field⟩

namespace Program.Writable

variable {program : Program}

theorem collapse {collapsed : List Rule} {count : Nat} (writable : program.Writable)
    (succeeded : Chain.collapse program.ends program.rules = (collapsed, .ok count)) :
    Program.Writable { program with rules := collapsed } := by
  refine ⟨writable.start_leads, writable.ends_ne_nil, writable.ends_fields, ?_⟩
  intro final member
  rcases Chain.exists_leads_of_collapse succeeded member with ⟨rule, length, given, leads⟩
  exact .of_leads writable.rules_writable (writable.rules_writable rule given) leads

theorem eliminate (writable : program.Writable) :
    (Reachability.eliminate program).Writable :=
  ⟨writable.start_leads, writable.ends_ne_nil, writable.ends_fields, fun rule member =>
    writable.rules_writable rule (List.mem_filter.mp member).1⟩

end Program.Writable

namespace Compilation

theorem writable_of_compile {library : Library} {text : String} {compilation : Compilation}
    (tables : library.FromTables) (compiled : compile library text = .ok compilation) :
    compilation.program.Writable := by
  rcases compile_eq_ok_iff.mp compiled with
    ⟨parsed, registry, collapsed, count, read, succeeded, rfl⟩
  exact ((Source.writable_of_parse tables read).collapse succeeded).eliminate

/--
Compiled programs survive being written.  The modules may come from any library of
tables, which libraries in memory and libraries of files are.  The table of the
compiled program is read back as the program, with the same start state, the same
end states and the same rules in order; and a program that is written to a file is
what is loaded from there, if the file system gives back the text it was given.
-/
theorem compiled_table_survives_writing :
    (forall texts : List (String × String), (Library.ofTexts texts).FromTables) ∧
    (forall (σ : Type) (files : FileAccess (StateM σ)) (folders names : List String)
      (world : σ), ((files.library folders names).run world).1.FromTables) ∧
    forall (library : Library) (text : String) (compilation : Compilation),
      library.FromTables -> compile library text = .ok compilation ->
        Table.read (Table.write compilation.program) = .ok compilation.program ∧
        forall (σ : Type) (files : FileAccess (StateM σ)) (path : String) (world : σ),
          files.GivesBack path (Table.write compilation.program) world ->
            ((files.writeAndLoad path compilation.program).run world).1 =
              (.ok (), .ok compilation.program) := by
  refine ⟨Library.fromTables_ofTexts, fun _ files => files.fromTables_library, ?_⟩
  intro library text compilation tables compiled
  have readBack := (writable_of_compile tables compiled).read_write
  refine ⟨readBack, fun σ files path world givesBack => ?_⟩
  rw [files.writeAndLoad_of_givesBack givesBack, readBack]

/-- A module whose states start with the comment mark, bound to a target that starts
with it, and a file tree that takes the compiled table. -/
theorem compiled_table_survives_writing_of_marks :
    Exists fun compilation : Compilation =>
      compile (Library.ofTexts [("m", " #s e\n #s 0 e 1 >\n #s 1 e 0 >\n")])
          "A B\n!module m\nm(#x)\n" = .ok compilation ∧
        Table.read (Table.write compilation.program) = .ok compilation.program ∧
        ((FileTree.access.writeAndLoad "marks.aquacomp" compilation.program).run
            FileTree.empty).1 = (.ok (), .ok compilation.program) := by
  have read : (Source.parse (Library.ofTexts [("m", " #s e\n #s 0 e 1 >\n #s 1 e 0 >\n")])
      "A B\n!module m\nm(#x)\n").toOption.map Prod.fst =
        some ⟨"A", ["B"],
          [⟨"A", .zero, "m(#s_i0)", .zero, .stay⟩, ⟨"A", .one, "m(#s_i0)", .one, .stay⟩,
           ⟨"m(#s_i0)", .zero, "#x", .one, .right⟩, ⟨"m(#s_i0)", .one, "#x", .zero, .right⟩,
           ⟨"0", .zero, "B", .zero, .stay⟩, ⟨"0", .one, "B", .one, .stay⟩]⟩ := by
    decide +kernel
  rcases exists_compile read (.cons ⟨1, .taken rfl rfl (.closed rfl)⟩
    (.cons ⟨1, .taken rfl rfl (.closed rfl)⟩ (.cons ⟨0, .closed rfl⟩ (.cons ⟨0, .closed rfl⟩
      (.cons ⟨0, .closed rfl⟩ (.cons ⟨0, .closed rfl⟩ .nil)))))) with ⟨compilation, compiled, _⟩
  have accepted : Exists fun after : FileTree =>
      FileTree.empty.write "marks.aquacomp" (Table.write compilation.program) = .ok after :=
    ⟨_, rfl⟩
  rcases accepted with ⟨after, written⟩
  rcases compiled_table_survives_writing.2.2 _ _ compilation
    (compiled_table_survives_writing.1 _) compiled with ⟨readBack, loaded⟩
  exact ⟨compilation, compiled, readBack,
    loaded FileTree FileTree.access _ _ (FileTree.givesBack_access written)⟩

end Compilation

end BinaryTape
