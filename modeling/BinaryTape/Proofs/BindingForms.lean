import BinaryTape.Proofs.Bindings
import BinaryTape.Proofs.TableFormat

namespace BinaryTape

/-!
# The forms of a binding

Which of the three forms a binding has is seen from all of its tokens together: whether
there is one, and whether one of them has a colon.  The rules of each form are told here
on the tokens as they are written and on the end states as the table of the module calls
them.  The qualified names that a declared module carries do not appear in them.
-/

namespace Text

theorem splitAtFirst_of_mem {mark : Char} {text : List Char} (present : mark ∈ text) :
    splitAtFirst mark text =
      (text.takeWhile (fun character => character != mark),
        some (text.dropWhile (fun character => character != mark)).tail) := by
  unfold splitAtFirst
  cases dropped : text.dropWhile (fun character => character != mark) with
  | nil =>
      have passed := List.dropWhile_eq_nil_iff.mp dropped mark present
      simp at passed
  | cons _ rest => rfl

end Text

namespace Binding

open Source (splitAtFirst_of_not_mem)
open Table (Checked)

/-! ## Tokens with a colon -/

/-- The end state that a token names: what it has in front of its first colon. -/
def namedEnding (token : String) : StateName :=
  String.ofList (token.toList.takeWhile (fun character => character != ':'))

/-- What a token has behind its first colon. -/
def namedTarget (token : String) : StateName :=
  String.ofList (token.toList.dropWhile (fun character => character != ':')).tail

/-- What is wrong with a token in a binding that names end states. -/
def tokenFault? (binding token : String) : Option Error :=
  if Not (':' ∈ token.toList) then some (.bareTargetAmongOthers binding)
  else if namedTarget token = "" then some (.emptyTarget binding)
  else none

/-- The target of the first token that names an end state, or the default. -/
def exitAmong (tokens : List String) (default ending : StateName) : StateName :=
  ((tokens.find? (fun token => namedEnding token == ending)).map namedTarget).getD default

theorem tokenFault?_eq_none_iff {binding token : String} :
    tokenFault? binding token = none ↔ ':' ∈ token.toList ∧ namedTarget token ≠ "" := by
  unfold tokenFault?
  by_cases colon : ':' ∈ token.toList <;> by_cases empty : namedTarget token = "" <;>
    simp [colon, empty]

/-- A token that is read gives the end state and the target that it names. -/
theorem checked_explicitTarget (binding token : String) :
    Checked (tokenFault? binding token)
      (fun pair => (namedEnding token, namedTarget token) = pair)
      (explicitTarget binding token) := by
  unfold tokenFault? explicitTarget
  by_cases colon : ':' ∈ token.toList
  · rw [Text.splitAtFirst_of_mem colon, if_neg (not_not_intro colon)]
    unfold namedTarget
    cases (token.toList.dropWhile (fun character => character != ':')).tail with
    | nil => exact .refused rfl
    | cons first rest =>
        refine .accepted (if_neg ?_) rfl
        exact fun empty => List.cons_ne_nil first rest (String.ofList_eq_empty_iff.mp empty)
  · rw [splitAtFirst_of_not_mem colon]
    exact .refused (if_pos colon)

theorem lookup_map_pair {ending : α -> StateName} {target : α -> β} (tokens : List α)
    (name : StateName) :
    (tokens.map (fun token => (ending token, target token))).lookup name =
      (tokens.find? (fun token => ending token == name)).map target := by
  induction tokens with
  | nil => rfl
  | cons token tokens inductionHypothesis =>
      rw [List.map_cons, List.lookup_cons, List.find?_cons, inductionHypothesis,
        BEq.comm (a := name)]
      cases ending token == name <;> rfl

/-- The end states of a declared module are matched under the names of its table. -/
theorem explicitExit_declare (name : String) (program : Program) (tokens : List String)
    (default ending : StateName) :
    explicitExit (.declare name program)
        (tokens.map (fun token => (namedEnding token, namedTarget token))) default
        (Module.qualify name ending) =
      exitAmong tokens default ending := by
  rw [explicitExit, Module.localName?_qualify, Option.getD_some, lookup_map_pair]
  rfl

section

variable {name : String} {program : Program} {binding : String} {default : StateName}

/-! ## One equation for each form -/

theorem exits_of_unbound {declared : Module} (empty : Text.words binding = []) :
    exits declared binding default = .ok (List.replicate declared.ends.length default) := by
  simp only [exits, empty, List.isEmpty_nil, if_true]

theorem exits_of_bare {declared : Module} (filled : Text.words binding ≠ [])
    (bare : forall token, token ∈ Text.words binding -> Not (':' ∈ token.toList)) :
    exits declared binding default = bareExits declared binding (Text.words binding) := by
  have noColon : (Text.words binding).any (fun token => token.toList.contains ':') = false := by
    simpa using bare
  simp only [exits, List.isEmpty_eq_false_iff.mpr filled, noColon, Bool.false_eq_true, if_false]

/-- A single marked token, whose target may be missing. -/
theorem exits_of_marked {declared : Module} {target : StateName}
    (only : Text.words binding = ["!" ++ target]) (bare : Not (':' ∈ target.toList)) :
    exits declared binding default =
      (nonEmpty target.toList binding).map (List.replicate declared.ends.length) := by
  have colonless : Not (':' ∈ ("!" ++ target).toList) := by
    simpa using bare
  rw [exits_of_bare (by simp [only]) (by simpa [only] using colonless), only]
  simp [bareExits]

/-- A single token without a mark. -/
theorem exits_of_unmarked {declared : Module} {target : StateName}
    (only : Text.words binding = [target]) (bare : Not (':' ∈ target.toList))
    (unmarked : target.toList.head? ≠ some '!') :
    exits declared binding default =
      if 1 < declared.ends.length then .error (.ambiguousBareTarget declared.name binding)
      else .ok [target] := by
  rw [exits_of_bare (by simp [only]) (by simpa [only] using bare), only, bareExits]
  split
  · rename_i rest marked
    simp [marked] at unmarked
  · rfl

/-- A binding that names end states is refused with the fault of its first faulty token;
without one it sends each end state where the first token for it says. -/
theorem checked_exits
    (colon : Exists fun token : String => token ∈ Text.words binding ∧ ':' ∈ token.toList) :
    Checked ((Text.words binding).findSome? (tokenFault? binding))
      (fun result => result = program.ends.map (exitAmong (Text.words binding) default))
      (exits (.declare name program) binding default) := by
  rcases colon with ⟨token, member, inside⟩
  have filled : (Text.words binding).isEmpty = false :=
    List.isEmpty_eq_false_iff.mpr (List.ne_nil_of_mem member)
  have marked : (Text.words binding).any (fun token => token.toList.contains ':') = true :=
    List.any_eq_true.mpr ⟨token, member, List.contains_iff_mem.mpr inside⟩
  simp only [exits, filled, marked, Bool.false_eq_true, if_false, if_true]
  refine (Checked.mapM (checked_explicitTarget binding) (Text.words binding)).map ?_
  intro pairs pointwise
  rw [← List.forall₂_map_left_iff, List.forall₂_eq_eq_eq] at pointwise
  rw [← pointwise, Module.declare, List.map_map]
  exact List.map_congr_left (fun ending _ => explicitExit_declare name program _ default ending)

theorem exits_eq_ok_iff
    (colon : Exists fun token : String => token ∈ Text.words binding ∧ ':' ∈ token.toList)
    (result : List StateName) :
    exits (.declare name program) binding default = .ok result ↔
      (Text.words binding).findSome? (tokenFault? binding) = none ∧
        result = program.ends.map (exitAmong (Text.words binding) default) :=
  (checked_exits colon).eq_ok_iff (fun _ _ one other => one.trans other.symm) result

end

/-! ## The rules of all forms -/

/-- What a binding means for the table that is declared under a name: the exits of its end
states, in their order, or the reason why there are none. -/
inductive Resolves (name : String) (program : Program) (binding : String)
    (default : StateName) : Except Error (List StateName) -> Prop where
  /-- Without tokens every end state continues at the default. -/
  | unbound (empty : Text.words binding = []) :
      Resolves name program binding default (.ok (List.replicate program.ends.length default))
  /-- Of several tokens none may be bare. -/
  | crowded
      (bare : forall token, token ∈ Text.words binding -> Not (':' ∈ token.toList))
      (several : 1 < (Text.words binding).length) :
      Resolves name program binding default (.error (.bareTargetAmongOthers binding))
  /-- A marked token sends all end states to its target. -/
  | all {target : StateName} (only : Text.words binding = ["!" ++ target])
      (bare : Not (':' ∈ target.toList)) (filled : target ≠ "") :
      Resolves name program binding default (.ok (List.replicate program.ends.length target))
  | nowhere (only : Text.words binding = ["!"]) :
      Resolves name program binding default (.error (.emptyTarget binding))
  /-- A bare token is the exit of the only end state. -/
  | one {target : StateName} (only : Text.words binding = [target])
      (bare : Not (':' ∈ target.toList)) (unmarked : target.toList.head? ≠ some '!')
      (single : program.ends.length = 1) :
      Resolves name program binding default (.ok [target])
  | ambiguous {target : StateName} (only : Text.words binding = [target])
      (bare : Not (':' ∈ target.toList)) (unmarked : target.toList.head? ≠ some '!')
      (several : program.ends.length ≠ 1) :
      Resolves name program binding default (.error (.ambiguousBareTarget name binding))
  /-- With a colon somewhere, the first token that is bare or has nothing behind its colon
  is reported. -/
  | faulty {error : Error}
      (colon : Exists fun token : String => token ∈ Text.words binding ∧ ':' ∈ token.toList)
      (first : (Text.words binding).findSome? (tokenFault? binding) = some error) :
      Resolves name program binding default (.error error)
  /-- Otherwise each end state continues where the first token that names it says, and at
  the default if no token names it. -/
  | explicit
      (colon : Exists fun token : String => token ∈ Text.words binding ∧ ':' ∈ token.toList)
      (faultless : (Text.words binding).findSome? (tokenFault? binding) = none) :
      Resolves name program binding default
        (.ok (program.ends.map (exitAmong (Text.words binding) default)))

namespace Resolves

variable {name : String} {program : Program} {binding : String} {default : StateName}
  {outcome : Except Error (List StateName)}

/-- Some rule applies to every binding. -/
theorem exists_outcome (name : String) (program : Program) (binding : String)
    (default : StateName) :
    Exists fun outcome : Except Error (List StateName) =>
      Resolves name program binding default outcome := by
  by_cases colon : Exists fun token : String =>
      token ∈ Text.words binding ∧ ':' ∈ token.toList
  · cases first : (Text.words binding).findSome? (tokenFault? binding) with
    | none => exact ⟨_, .explicit colon first⟩
    | some error => exact ⟨_, .faulty colon first⟩
  · have bare : forall token, token ∈ Text.words binding -> Not (':' ∈ token.toList) :=
      fun token member inside => colon ⟨token, member, inside⟩
    rcases tokens : Text.words binding with _ | ⟨token, _ | ⟨second, others⟩⟩
    · exact ⟨_, .unbound tokens⟩
    · have bareToken : Not (':' ∈ token.toList) := bare token (by simp [tokens])
      by_cases marked : token.toList.head? = some '!'
      · rcases List.head?_eq_some_iff.mp marked with ⟨rest, characters⟩
        have spelled : token = "!" ++ String.ofList rest := by
          rw [← String.toList_inj, characters]
          simp
        subst spelled
        by_cases empty : String.ofList rest = ""
        · exact ⟨_, .nowhere (by simpa [empty] using tokens)⟩
        · exact ⟨_, .all tokens (by simpa using bareToken) empty⟩
      · by_cases single : program.ends.length = 1
        · exact ⟨_, .one tokens bareToken marked single⟩
        · exact ⟨_, .ambiguous tokens bareToken marked single⟩
    · exact ⟨_, .crowded bare (by simp [tokens])⟩

/-- The exits of a declared module are those that the rules give. -/
theorem exits_eq (filled : program.ends ≠ [])
    (resolves : Resolves name program binding default outcome) :
    exits (.declare name program) binding default = outcome := by
  have ends : (Module.declare name program).ends.length = program.ends.length :=
    List.length_map _
  have positive : 0 < program.ends.length := List.length_pos_iff.mpr filled
  cases resolves with
  | unbound empty => rw [exits_of_unbound empty, ends]
  | crowded bare several =>
      rw [exits_of_bare (List.ne_nil_of_length_pos (Nat.lt_of_succ_lt several)) bare]
      rcases tokens : Text.words binding with _ | ⟨token, _ | ⟨second, others⟩⟩
      · rfl
      · simp [tokens] at several
      · rfl
  | all only bare filled =>
      rw [exits_of_marked only bare, ends]
      simp [nonEmpty, filled, Except.map]
  | nowhere only =>
      have unnamed : Text.words binding = ["!" ++ ""] := only
      rw [exits_of_marked unnamed List.not_mem_nil]
      rfl
  | one only bare unmarked single =>
      rw [exits_of_unmarked only bare unmarked, ends, if_neg (by omega)]
  | ambiguous only bare unmarked several =>
      rw [exits_of_unmarked only bare unmarked, ends, if_pos (by omega)]
      rfl
  | faulty colon first => exact ((checked_exits colon).eq_error_iff _).mpr first
  | explicit colon faultless => exact (exits_eq_ok_iff colon _).mpr ⟨faultless, rfl⟩

end Resolves

/-- Tokens in another order give the same exits, if those that name one end state keep their
order among themselves. -/
theorem exitAmong_eq_of_filter {tokens others : List String} {ending : StateName}
    (kept : others.filter (fun token => namedEnding token == ending) =
      tokens.filter (fun token => namedEnding token == ending)) (default : StateName) :
    exitAmong others default ending = exitAmong tokens default ending := by
  rw [exitAmong, exitAmong, ← List.head?_filter, ← List.head?_filter, kept]

/-- Whether a binding that names end states can be resolved does not depend on the order of
its tokens. -/
theorem findSome?_tokenFault?_of_perm {binding other : String}
    (reordered : (Text.words other).Perm (Text.words binding)) :
    (Text.words other).findSome? (tokenFault? other) = none ↔
      (Text.words binding).findSome? (tokenFault? binding) = none := by
  simp only [List.findSome?_eq_none_iff, tokenFault?_eq_none_iff, reordered.mem_iff]

/--
Bindings are resolved by their form.  For a table with an end state, declared under any
name, the exits or the error that a binding gives are those of the rules, which are told in
the names of the table itself; exits are as many as end states.  Whether a binding that
names end states can be resolved does not depend on the order of its tokens, and neither do
the exits, as long as tokens that name one and the same end state of the table follow each
other as before.
-/
theorem bindings_resolved_by_form (name : String) {program : Program}
    (filled : program.ends ≠ []) (binding : String) (default : StateName) :
    (forall outcome, exits (.declare name program) binding default = outcome ↔
      Resolves name program binding default outcome) ∧
    (forall result, exits (.declare name program) binding default = .ok result ->
      result.length = program.ends.length) ∧
    (forall other : String,
      (Exists fun token : String => token ∈ Text.words binding ∧ ':' ∈ token.toList) ->
      (Text.words other).Perm (Text.words binding) ->
      ((Exists fun result : List StateName =>
          exits (.declare name program) other default = .ok result) ↔
        Exists fun result : List StateName =>
          exits (.declare name program) binding default = .ok result) ∧
      ((forall ending, ending ∈ program.ends ->
        (Text.words other).filter (fun token => namedEnding token == ending) =
          (Text.words binding).filter (fun token => namedEnding token == ending)) ->
        forall result, exits (.declare name program) other default = .ok result ↔
          exits (.declare name program) binding default = .ok result)) := by
  have byRules : forall outcome, exits (.declare name program) binding default = outcome ↔
      Resolves name program binding default outcome := by
    intro outcome
    constructor
    · intro resolved
      rcases Resolves.exists_outcome name program binding default with ⟨given, resolves⟩
      rw [← resolved, resolves.exits_eq filled]
      exact resolves
    · exact fun resolves => resolves.exits_eq filled
  refine ⟨byRules, ?_, ?_⟩
  · intro result resolved
    have declaredFilled : (Module.declare name program).ends ≠ [] := by
      simpa [Module.declare] using filled
    have lengths := length_of_exits declaredFilled resolved
    rwa [Module.declare, List.length_map] at lengths
  · intro other colon reordered
    have otherColon : Exists fun token : String =>
        token ∈ Text.words other ∧ ':' ∈ token.toList := by
      rcases colon with ⟨token, member, inside⟩
      exact ⟨token, reordered.mem_iff.mpr member, inside⟩
    simp only [exits_eq_ok_iff otherColon, exits_eq_ok_iff colon,
      findSome?_tokenFault?_of_perm reordered]
    refine ⟨by simp only [exists_and_left, exists_eq], fun kept result => ?_⟩
    have sameExits : program.ends.map (exitAmong (Text.words other) default) =
        program.ends.map (exitAmong (Text.words binding) default) :=
      List.map_congr_left
        (fun ending member => exitAmong_eq_of_filter (kept ending member) default)
    rw [sameExits]

/-- A module whose end states are listed twice or hold parentheses and marks, and a binding
with a name that is no end state and two targets for one end state. -/
theorem bindings_resolved_by_form_of_odd_names :
    exits (.declare "m" ⟨"s", ["m(e", "!f", "g", "m(e"], []⟩) "!f:a:b x:y m(e:!c m(e:d" "7" =
        .ok ["!c", "a:b", "7", "!c"] ∧
      exits (.declare "m" ⟨"s", ["m(e", "!f", "g", "m(e"], []⟩) "m(e:!c !f:a:b m(e:d x:y" "7" =
        .ok ["!c", "a:b", "7", "!c"] := by
  have byForm := @bindings_resolved_by_form "m" ⟨"s", ["m(e", "!f", "g", "m(e"], []⟩ nofun
    "!f:a:b x:y m(e:!c m(e:d" "7"
  have resolved := (byForm.1 _).mpr (.explicit ⟨"x:y", by decide +kernel⟩ (by decide +kernel))
  refine ⟨resolved, ?_⟩
  exact ((byForm.2.2 "m(e:!c !f:a:b m(e:d x:y" ⟨"x:y", by decide +kernel⟩
    (by decide +kernel)).2 (by decide +kernel) _).mpr resolved

end Binding

end BinaryTape
