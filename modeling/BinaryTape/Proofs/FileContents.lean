import BinaryTape.Files.Modules
import BinaryTape.Files.Tree
import BinaryTape.Proofs.Bindings

namespace BinaryTape

/-!
# What files hold

Programs go into files as tables and come out of them through the table reader.  So
every module that is found in a file is a table that was read, like every module
that is held in memory as text.

Whether a file still holds what was written to it is a matter of the file system.
`GivesBack` states it for one path, one text and one state of the world; where it
holds, writing a program and loading it is writing its table and reading it.  A file
tree in memory gives back everything it has taken.
-/

/-! ## Libraries of tables -/

/-- If there is a table in an answer, it was read from some text. -/
def Library.Answer.FromTable (answer : Library.Answer) : Prop :=
  forall program, answer.program = .ok program ->
    Exists fun text : String => Table.read text = .ok program

/-- All modules of a library are tables that were read. -/
def Library.FromTables (library : Library) : Prop :=
  forall name, (library.lookUp name).FromTable

theorem Library.fromTables_ofTexts (texts : List (String × String)) :
    (Library.ofTexts texts).FromTables := by
  intro name program loaded
  simp only [Library.ofTexts] at loaded
  split at loaded
  · rename_i text _
    exact ⟨text, loaded⟩
  · cases loaded

/-- What every action on the elements of a list gives is given by all of them in a row. -/
theorem forall_mem_mapM {σ α β : Type} {action : α -> StateM σ β} {holds : β -> Prop}
    (each : forall value world, holds ((action value).run world).1) (values : List α)
    (world : σ) :
    forall result, result ∈ ((values.mapM action).run world).1 -> holds result := by
  induction values generalizing world with
  | nil =>
      intro result impossible
      cases impossible
  | cons value values inductionHypothesis =>
      rw [List.mapM_cons]
      exact List.forall_mem_cons.mpr
        ⟨each value world, inductionHypothesis ((action value).run world).2⟩

namespace FileAccess

variable {σ : Type} (files : FileAccess (StateM σ))

theorem exists_read_of_loadProgram {path : String} {world : σ} {program : Program}
    (loaded : ((files.loadProgram path).run world).1 = .ok program) :
    Exists fun text : String => Table.read text = .ok program := by
  have split : ((files.loadProgram path).run world).1 =
      ((files.readText path).run world).1.bind Table.read := rfl
  rw [split] at loaded
  cases found : ((files.readText path).run world).1 with
  | error error =>
      rw [found] at loaded
      cases loaded
  | ok text =>
      rw [found] at loaded
      exact ⟨text, loaded⟩

/-- The answers from which a library of files is made. -/
def answers (folders names : List String) : StateM σ (List (String × Library.Answer)) :=
  names.mapM (fun name => do return (name, <- files.lookUpModule folders name))

section

-- What is shown of every table in a file, and of the report that there is none.
variable {holds : Library.Answer -> Prop}
  (loaded : forall path world, holds ⟨some path, ((files.loadProgram path).run world).1⟩)
  (absent : forall name searched, holds ⟨none, .error (.moduleNotFound name searched)⟩)

include loaded absent

theorem forall_lookUpModule (folders : List String) (name : String) (world : σ) :
    holds ((files.lookUpModule folders name).run world).1 := by
  simp only [lookUpModule, bind, StateT.bind, StateT.run]
  cases searched : files.firstFile (moduleCandidates folders name) world with
  | mk choice after =>
      cases choice with
      | none => exact absent name _
      | some path => exact loaded path after

theorem forall_mem_answers (folders names : List String) (world : σ) :
    forall answer, answer ∈ ((files.answers folders names).run world).1 -> holds answer.2 := by
  apply forall_mem_mapM
  intro name world
  exact files.forall_lookUpModule loaded absent folders name world

/-- All answers of a library of files are tables in files or report that there is none. -/
theorem forall_lookUp_library (folders names : List String) (world : σ) (name : String) :
    holds (((files.library folders names).run world).1.lookUp name) := by
  have lookUp : ((files.library folders names).run world).1.lookUp name =
      (((files.answers folders names).run world).1.lookup name).getD
        ⟨none, .error (.moduleNotFound name
          (", ".intercalate (moduleCandidates folders name)))⟩ := rfl
  rw [lookUp]
  cases found : ((files.answers folders names).run world).1.lookup name with
  | none => exact absent name _
  | some answer =>
      exact files.forall_mem_answers loaded absent folders names world _ (mem_of_lookup found)

end

/-- The modules of a search path are tables that were read. -/
theorem fromTables_library (folders names : List String) (world : σ) :
    ((files.library folders names).run world).1.FromTables := by
  intro name
  refine files.forall_lookUp_library ?_ ?_ folders names world name
  · exact fun path world program found => files.exists_read_of_loadProgram found
  · exact fun name searched program impossible => nomatch impossible

/-! ## Writing and loading -/

/-- The file system takes a text under a path and gives it back from there. -/
def GivesBack (path text : String) (world : σ) : Prop :=
  Exists fun after : σ => (files.write path text).run world = (.ok (), after) ∧
    ((files.read path).run after).1 = .ok text

/-- Write a program to a file and load the file. -/
def writeAndLoad (path : String) (program : Program) :
    StateM σ (Except Error Unit × Except Error Program) := do
  let written <- files.writeProgram path program
  let loaded <- files.loadProgram path
  return (written, loaded)

/-- Where the file system gives back the table, loading it is reading it. -/
theorem writeAndLoad_of_givesBack {path : String} {program : Program} {world : σ}
    (givesBack : files.GivesBack path (Table.write program) world) :
    ((files.writeAndLoad path program).run world).1 =
      (.ok (), Table.read (Table.write program)) := by
  rcases givesBack with ⟨after, written, readBack⟩
  have stored : (files.writeProgram path program).run world = (.ok (), after) := by
    simp only [writeProgram, bind, StateT.bind, StateT.run] at written ⊢
    rw [written]
    rfl
  have loaded : ((files.loadProgram path).run after).1 = Table.read (Table.write program) := by
    have fetched : ((files.readText path).run after).1 = .ok (Table.write program) := by
      simp only [readText, bind, StateT.bind, StateT.run] at readBack ⊢
      cases found : files.read path after with
      | mk result final =>
          rw [found] at readBack
          cases readBack
          rfl
    exact congrArg (fun text => Except.bind text Table.read) fetched
  have steps : ((files.writeAndLoad path program).run world).1 =
      (((files.writeProgram path program).run world).1,
        ((files.loadProgram path).run ((files.writeProgram path program).run world).2).1) := rfl
  rw [steps, stored]
  exact congrArg (Prod.mk _) loaded

end FileAccess

/-! ## File trees -/

namespace Path

/-- A character in front does not empty the last piece. -/
theorem getLast?_pieceStep {separator : Char} {pieces : List (List Char)}
    (filled : pieces.getLast? ≠ some []) (character : Char) :
    (pieceStep separator character pieces).getLast? ≠ some [] ∨ pieces = [] := by
  rcases pieces with _ | ⟨piece, _ | ⟨next, others⟩⟩
  · exact Or.inr rfl
  · refine Or.inl ?_
    unfold pieceStep
    split
    · simpa using filled
    · simp
  · refine Or.inl ?_
    unfold pieceStep
    split <;> simpa using filled

theorem cutAt_ne_nil (separator : Char) (text : List Char) : cutAt separator text ≠ [] := by
  cases text with
  | nil => exact List.cons_ne_nil _ _
  | cons character rest =>
      rw [cutAt, List.foldr_cons]
      unfold pieceStep
      split
      · exact List.cons_ne_nil _ _
      · split <;> exact List.cons_ne_nil _ _

/-- A text that does not end with a separator ends with a piece that is not empty. -/
theorem getLast?_cutAt {separator : Char} {text : List Char} (filled : text ≠ [])
    (closed : text.getLast? ≠ some separator) : (cutAt separator text).getLast? ≠ some [] := by
  induction text with
  | nil => exact absurd rfl filled
  | cons character rest inductionHypothesis =>
      cases rest with
      | nil =>
          have different : character ≠ separator := by simpa using closed
          simp [cutAt, pieceStep, different]
      | cons next others =>
          rw [List.getLast?_cons_cons] at closed
          have later := inductionHypothesis (List.cons_ne_nil _ _) closed
          exact (getLast?_pieceStep later character).resolve_right
            (cutAt_ne_nil separator (next :: others))

end Path

namespace FileTree

variable {tree : FileTree} {target : Location} {content : ByteArray}

theorem lookup_put (tree : FileTree) (target : Location) (content : ByteArray) :
    (tree.put target content).files.lookup target = some content := by
  have gone : (tree.files.filter (fun file => file.1 != target)).lookup target = none := by
    rw [List.lookup_eq_none_iff]
    intro file member
    have other : file.1 ≠ target := bne_iff_ne.mp (List.mem_filter.mp member).2
    exact bne_iff_ne.mpr other.symm
  simp [put, List.lookup_append, gone]

/-- Where one piece of a path leads from a folder. -/
def step (tree : FileTree) (location : Location) (piece : String) : Except Fault Place :=
  if Path.isIdle piece then .ok (.folder location)
  else if piece == ".." then .ok (.folder location.dropLast)
  else
    match tree.at? (location ++ [piece]) with
    | none => .error .notFound
    | some place => .ok place

theorem walk_cons (tree : FileTree) (location : Location) (piece : String)
    (rest : List String) :
    tree.walk (.folder location) (piece :: rest) =
      (tree.step location piece).bind (fun place => tree.walk place rest) := by
  rw [walk, step]
  split
  · rfl
  · split
    · rfl
    · cases tree.at? (location ++ [piece]) <;> rfl

theorem walk_append (tree : FileTree) (place : Place) (front back : List String) :
    tree.walk place (front ++ back) =
      (tree.walk place front).bind (fun reached => tree.walk reached back) := by
  induction front generalizing place with
  | nil => cases place <;> rfl
  | cons piece rest inductionHypothesis =>
      cases place with
      | file _ => rfl
      | folder location =>
          rw [List.cons_append, walk_cons, walk_cons]
          cases tree.step location piece with
          | error fault => rfl
          | ok next => exact inductionHypothesis next

theorem at?_put {here next : Location} (found : tree.at? here = some (.folder next)) :
    (tree.put target content).at? here = some (.folder next) := by
  have sameFolders : (tree.put target content).folders = tree.folders := rfl
  unfold at? at found ⊢
  rw [sameFolders]
  by_cases folder : tree.folders.contains here = true
  · rw [if_pos folder] at found ⊢
    exact found
  · rw [if_neg folder] at found
    split at found <;> cases found

/-- A new file does not stand in the way of a step into a folder. -/
theorem step_put {location next : Location} {piece : String}
    (stepped : tree.step location piece = .ok (.folder next)) :
    (tree.put target content).step location piece = .ok (.folder next) := by
  unfold step at stepped ⊢
  split
  · rename_i idle
    rw [if_pos idle] at stepped
    exact stepped
  · rename_i busy
    rw [if_neg busy] at stepped
    split
    · rename_i up
      rw [if_pos up] at stepped
      exact stepped
    · rename_i down
      rw [if_neg down] at stepped
      cases found : tree.at? (location ++ [piece]) with
      | none =>
          rw [found] at stepped
          cases stepped
      | some place =>
          rw [found] at stepped
          cases stepped
          rw [at?_put found]

/-- A way that ends in a folder passes folders only, and these do not change. -/
theorem walk_put {place : Place} {pieces : List String} {location : Location}
    (walked : tree.walk place pieces = .ok (.folder location)) :
    (tree.put target content).walk place pieces = .ok (.folder location) := by
  induction pieces generalizing place with
  | nil => cases place <;> exact walked
  | cons piece rest inductionHypothesis =>
      cases place with
      | file _ => cases walked
      | folder here =>
          rw [walk_cons] at walked ⊢
          cases stepped : tree.step here piece with
          | error fault =>
              rw [stepped] at walked
              cases walked
          | ok next =>
              rw [stepped] at walked
              cases next with
              | folder there =>
                  rw [step_put stepped]
                  exact inductionHypothesis walked
              | file there => cases rest <;> cases walked

theorem fromUTF8?_toUTF8 (text : String) : String.fromUTF8? text.toUTF8 = some text := by
  have valid : text.toUTF8.IsValidUTF8 := text.isValidUTF8
  rw [String.fromUTF8?, dif_pos valid]
  rfl

/-- The pieces of a path that names a file: the folders on the way and the name. -/
theorem pieces_of_named {path name : String} {folders : List String}
    (filled : path.isEmpty = false) (closed : path.toList.getLast? ≠ some '/')
    (named : (Path.pieces path).reverse.dropWhile (fun piece => piece == "") = name :: folders) :
    Path.pieces path = folders.reverse ++ [name] ∧ name ≠ "" := by
  have characters : path.toList ≠ [] := by
    intro empty
    rw [String.toList_eq_nil_iff.mp empty] at filled
    cases filled
  have lastPiece : (Path.pieces path).getLast? ≠ some "" := by
    rw [Path.pieces, List.getLast?_map]
    intro empty
    rcases Option.map_eq_some_iff.mp empty with ⟨piece, last, nothing⟩
    rw [String.ofList_eq_empty_iff.mp nothing] at last
    exact Path.getLast?_cutAt characters closed last
  rw [← List.head?_reverse] at lastPiece
  cases reversed : (Path.pieces path).reverse with
  | nil =>
      rw [reversed] at named
      cases named
  | cons last others =>
      rw [reversed] at named lastPiece
      have kept : last ≠ "" := by simpa using lastPiece
      rw [List.dropWhile_cons_of_neg (by simpa using kept)] at named
      cases named
      refine ⟨?_, kept⟩
      rw [← List.reverse_reverse (Path.pieces path), reversed, List.reverse_cons]

/-- A new file is found under its name. -/
theorem step_put_self {location : Location} {name : String} (busy : Path.isIdle name = false)
    (down : (name == "..") = false)
    (free : tree.folders.contains (location ++ [name]) = false) :
    (tree.put (location ++ [name]) content).step location name =
      .ok (.file (location ++ [name])) := by
  have noFolder : (tree.put (location ++ [name]) content).folders.contains
      (location ++ [name]) = false := free
  simp only [step, busy, down, at?, noFolder, lookup_put, Bool.false_eq_true, if_false,
    Option.isSome_some, if_true]

/-- A file tree gives back what was written to it. -/
theorem read_of_write {tree after : FileTree} {path text : String}
    (written : tree.write path text = .ok after) : after.read path = .ok text := by
  unfold write at written
  dsimp only at written
  split at written
  · cases written
  · cases written
  · rename_i name folders filled named
    split at written
    · cases written
    · cases written
    · rename_i location walked
      split at written
      · cases written
      · rename_i allowed
        cases written
        simp only [Bool.or_eq_true, not_or, Bool.not_eq_true] at allowed
        rcases allowed with ⟨⟨⟨noDot, noParent⟩, closed⟩, free⟩
        rcases pieces_of_named filled (by simpa using closed) named with ⟨pieces, kept⟩
        have busy : Path.isIdle name = false := by
          simp only [Path.isIdle, noDot, Bool.or_false]
          exact beq_eq_false_iff_ne.mpr kept
        have found : (tree.put (location ++ [name]) text.toUTF8).walk (origin path)
            (Path.pieces path) = .ok (.file (location ++ [name])) := by
          rw [pieces, walk_append, walk_put walked]
          simp only [Except.bind]
          rw [walk_cons, step_put_self busy noParent free]
          rfl
        unfold read resolve
        rw [if_neg (by simp [filled]), found]
        simp only [lookup_put, Option.bind_some, fromUTF8?_toUTF8]

/-- Whatever a file tree accepts, it gives back. -/
theorem givesBack_access {tree after : FileTree} {path text : String}
    (written : tree.write path text = .ok after) : access.GivesBack path text tree := by
  refine ⟨after, ?_, ?_⟩
  · simp only [access, StateT.run_bind, StateT.run_get, pure_bind, written]
    rfl
  · exact read_of_write written

end FileTree

end BinaryTape
