import Mathlib.Data.List.TakeWhile
import BinaryTape.Proofs.Names

namespace BinaryTape
namespace Source

/-!
# Constructs

The reader goes through a line of program text once and lets every construct take
effect as soon as it is complete.  Here the two halves are taken apart.  `cut`
turns the text into its constructs without looking at any draft, by the longest
names it can find and by the first closing parenthesis of a binding; `perform`
lets the constructs take effect one after the other, and reports what the cut
stumbled over only if all of them could.  Reading a line is cutting it and
performing the result.
-/

/-- What program text is made of. -/
inductive Construct where
  | move (direction : Direction)
  | write (symbol : Symbol)
  | jump (target : StateName)
  | call (name binding : String)
  deriving DecidableEq, Repr

/-- Why the rest of a text has no constructs. -/
inductive Fault where
  | unterminatedBinding
  | missingModuleName
  | invalidCharacter (character : Char)
  deriving DecidableEq, Repr

def Fault.error (line : String) : Fault -> Error
  | .unterminatedBinding => .unterminatedBinding line
  | .missingModuleName => .missingModuleName line
  | .invalidCharacter character => .invalidCharacter character line

/-- The constructs of a text up to its first fault. -/
structure Cut where
  constructs : List Construct
  fault : Option Fault
  deriving DecidableEq, Repr

namespace Cut

def empty : Cut := ⟨[], none⟩

def failed (fault : Fault) : Cut := ⟨[], some fault⟩

def cons (construct : Construct) (rest : Cut) : Cut :=
  ⟨construct :: rest.constructs, rest.fault⟩

end Cut

theorem splitAtFirst_cons_self (mark : Char) (rest : List Char) :
    Text.splitAtFirst mark (mark :: rest) = ([], some rest) := by
  simp [Text.splitAtFirst]

theorem splitAtFirst_cons_ne {mark character : Char} (different : character ≠ mark)
    (rest : List Char) :
    Text.splitAtFirst mark (character :: rest) =
      (character :: (Text.splitAtFirst mark rest).1, (Text.splitAtFirst mark rest).2) := by
  have passes : (character != mark) = true := by simp [different]
  simp only [Text.splitAtFirst, List.dropWhile_cons, List.takeWhile_cons, passes, if_true]
  cases rest.dropWhile (fun character => character != mark) <;> rfl

theorem splitAtFirst_of_not_mem {mark : Char} {text : List Char} (absent : Not (mark ∈ text)) :
    Text.splitAtFirst mark text = (text, none) := by
  induction text with
  | nil => rfl
  | cons character rest inductionHypothesis =>
      have different : character ≠ mark := fun same =>
        absent (List.mem_cons.mpr (Or.inl same.symm))
      rw [splitAtFirst_cons_ne different,
        inductionHypothesis (fun member => absent (List.mem_cons_of_mem _ member))]

theorem length_of_splitAtFirst {mark : Char} {text behind : List Char}
    (split : (Text.splitAtFirst mark text).2 = some behind) :
    behind.length < text.length := by
  induction text with
  | nil => cases split
  | cons character rest inductionHypothesis =>
      by_cases same : character = mark
      · subst same
        rw [splitAtFirst_cons_self] at split
        rw [Option.some.inj split]
        exact Nat.lt_succ_self _
      · rw [splitAtFirst_cons_ne same] at split
        exact Nat.lt_succ_of_lt (inductionHypothesis split)

theorem mem_of_splitAtFirst {mark : Char} {text behind : List Char}
    (split : (Text.splitAtFirst mark text).2 = some behind) {character : Char}
    (member : character ∈ behind) : character ∈ text := by
  unfold Text.splitAtFirst at split
  split at split
  · cases split
  · rename_i rest dropped
    cases split
    apply (List.dropWhile_sublist (fun character => character != mark)).subset
    rw [dropped]
    exact List.mem_cons_of_mem _ member

def cut (text : List Char) : Cut :=
  match text with
  | [] => .empty
  | character :: rest =>
      match Symbol.ofChar? character with
      | some symbol => (cut rest).cons (.write symbol)
      | none =>
          if character == '#' then .empty
          else if Text.isAsciiBlank character then cut rest
          else if character == '(' then .failed .missingModuleName
          else if character == '<' then (cut rest).cons (.move .left)
          else if character == '>' then (cut rest).cons (.move .right)
          else if isNameStart character then
            let name := String.ofList (character :: rest.takeWhile isNamePart)
            match named : rest.dropWhile isNamePart with
            | [] => Cut.empty.cons (.call name "")
            | mark :: behind =>
                have shorter : behind.length < rest.length := by
                  have atMost := List.length_dropWhile_le isNamePart rest
                  rw [named] at atMost
                  exact atMost
                if mark == '#' then Cut.empty.cons (.call name "")
                else if Text.isAsciiBlank mark then (cut behind).cons (.call name "")
                else if mark == '(' then
                  match bound : (Text.splitAtFirst ')' behind).2 with
                  | none => .failed .unterminatedBinding
                  | some next =>
                      have := length_of_splitAtFirst bound
                      let binding := String.ofList (Text.splitAtFirst ')' behind).1
                      (cut next).cons (.call name binding)
                else if mark == ':' then (cut behind).cons (.jump name)
                else .failed (.invalidCharacter mark)
          else .failed (.invalidCharacter character)
termination_by text.length
decreasing_by all_goals simp only [List.length_cons]; omega

/-! ## How constructs are written -/

/-- What the text of a construct can hold: names are identifiers, and a binding ends
before the first closing parenthesis. -/
def Construct.WellWritten : Construct -> Prop
  | .move _ => True
  | .write _ => True
  | .jump target => isIdentifier target = true
  | .call name binding => isIdentifier name = true ∧ Not (')' ∈ binding.toList)

theorem splitAtFirst_fst (mark : Char) (text : List Char) :
    Not (mark ∈ (Text.splitAtFirst mark text).1) := by
  induction text with
  | nil => exact List.not_mem_nil
  | cons character rest inductionHypothesis =>
      by_cases same : character = mark
      · subst same
        rw [splitAtFirst_cons_self]
        exact List.not_mem_nil
      · rw [splitAtFirst_cons_ne same]
        intro member
        rcases List.mem_cons.mp member with equal | later
        · exact same equal.symm
        · exact inductionHypothesis later

theorem isIdentifier_longest {character : Char} (start : isNameStart character = true)
    (rest : List Char) :
    isIdentifier (String.ofList (character :: rest.takeWhile isNamePart)) = true := by
  simp [isIdentifier, start, List.all_takeWhile]

private theorem Cut.wellWritten_cons {construct : Construct} {rest : Cut}
    (first : construct.WellWritten)
    (others : forall other, other ∈ rest.constructs -> other.WellWritten) :
    forall other, other ∈ (rest.cons construct).constructs -> other.WellWritten := by
  intro other member
  rcases List.mem_cons.mp member with same | later
  · rw [same]
    exact first
  · exact others other later

/-- Every construct of a cut is well written. -/
theorem wellWritten_of_mem_cut (text : List Char) :
    forall construct, construct ∈ (cut text).constructs -> construct.WellWritten := by
  have none : forall construct : Construct, construct ∈ [] -> construct.WellWritten :=
    fun _ impossible => False.elim (List.not_mem_nil impossible)
  have unbound : Not (')' ∈ "".toList) := List.not_mem_nil
  fun_induction cut text with
  | case1 => exact none
  | case2 _ _ _ _ inductionHypothesis => exact Cut.wellWritten_cons trivial inductionHypothesis
  | case3 => exact none
  | case4 _ _ _ _ _ inductionHypothesis => exact inductionHypothesis
  | case5 => exact none
  | case6 _ _ _ _ _ _ _ inductionHypothesis =>
      exact Cut.wellWritten_cons trivial inductionHypothesis
  | case7 _ _ _ _ _ _ _ _ inductionHypothesis =>
      exact Cut.wellWritten_cons trivial inductionHypothesis
  | case8 _ rest _ _ _ _ _ _ start =>
      exact Cut.wellWritten_cons ⟨isIdentifier_longest start rest, unbound⟩ none
  | case9 _ rest _ _ _ _ _ _ start =>
      exact Cut.wellWritten_cons ⟨isIdentifier_longest start rest, unbound⟩ none
  | case10 _ rest _ _ _ _ _ _ start _ _ _ _ _ _ _ inductionHypothesis =>
      exact Cut.wellWritten_cons ⟨isIdentifier_longest start rest, unbound⟩ inductionHypothesis
  | case11 => exact none
  | case12 _ rest _ _ _ _ _ _ start _ _ behind _ _ _ _ _ _ _ _ binding inductionHypothesis =>
      have ends : Not (')' ∈ binding.toList) := by
        simpa [binding] using splitAtFirst_fst ')' behind
      exact Cut.wellWritten_cons ⟨isIdentifier_longest start rest, ends⟩ inductionHypothesis
  | case13 _ rest _ _ _ _ _ _ start _ _ _ _ _ _ _ _ _ inductionHypothesis =>
      exact Cut.wellWritten_cons (isIdentifier_longest start rest) inductionHypothesis
  | case14 => exact none
  | case15 => exact none

/-! ## Letting constructs take effect -/

def Construct.execute (line : String) (draft : Draft) : Construct -> Except Error Draft
  | .move direction => .ok (draft.moveHead direction)
  | .write symbol => .ok (draft.writeSymbol symbol)
  | .jump target => .ok (draft.jump target)
  | .call name binding => draft.call name binding line

/-- Let constructs take effect up to the first that fails. -/
def executeAll (line : String) : List Construct -> Draft -> Reading
  | [], draft => .done draft
  | construct :: rest, draft =>
      andThen draft (construct.execute line draft) (executeAll line rest)

/-- Report a fault, unless reading has failed before. -/
def Reading.orFault (line : String) (fault : Option Fault) (reading : Reading) : Reading :=
  match reading.failure, fault with
  | none, some fault => .failed reading.draft (fault.error line)
  | _, _ => reading

/-- Let the constructs of a cut take effect, then report its fault. -/
def perform (line : String) (result : Cut) (draft : Draft) : Reading :=
  (executeAll line result.constructs draft).orFault line result.fault

theorem perform_cons (line : String) (construct : Construct) (rest : Cut) (draft : Draft) :
    perform line (rest.cons construct) draft =
      andThen draft (construct.execute line draft) (perform line rest) := by
  unfold perform
  simp only [Cut.cons, executeAll]
  cases construct.execute line draft with
  | ok after => rfl
  | error error => rfl

/-! ## Reading is cutting and performing -/

/-- A character of a name differs from every character that belongs to none. -/
theorem differs_of_isNamePart {character other : Char}
    (part : isNamePart character = true) (foreign : isNamePart other = false) :
    (character == other) = false := by
  apply beq_eq_false_iff_ne.mpr
  intro same
  rw [same, foreign] at part
  cases part

/-- A character of a name ends neither the name nor the line. -/
theorem name_goes_on {character : Char} (part : isNamePart character = true) :
    (character == '#') = false ∧ Text.isAsciiBlank character = false ∧
      (character == '(') = false ∧ (character == ':') = false := by
  refine ⟨differs_of_isNamePart part rfl, ?_, differs_of_isNamePart part rfl,
    differs_of_isNamePart part rfl⟩
  have bound := Names.le_toNat_of_isNamePart part
  apply Bool.eq_false_iff.mpr
  intro blank
  simp only [Text.isAsciiBlank, List.contains_eq_mem, List.mem_cons, List.not_mem_nil,
    or_false, decide_eq_true_eq] at blank
  omega

/-- A name that has been begun is read as far as it goes. -/
private theorem readText_name (line : String) (text reversed : List Char) (draft : Draft) :
    readText line text (.name reversed) draft =
      readText line (text.dropWhile isNamePart)
        (.name ((text.takeWhile isNamePart).reverse ++ reversed)) draft := by
  induction text generalizing reversed with
  | nil => rfl
  | cons character rest inductionHypothesis =>
      cases part : isNamePart character with
      | false => simp [part]
      | true =>
          rcases name_goes_on part with ⟨noComment, noBlank, noBinding, noJump⟩
          rw [List.dropWhile_cons_of_pos part, List.takeWhile_cons_of_pos part]
          simp only [readText, noComment, noBlank, noBinding, noJump, part, Bool.false_eq_true,
            if_false, if_true, inductionHypothesis, List.reverse_cons, List.append_assoc,
            List.singleton_append]

/-- A binding is read up to the first closing parenthesis. -/
private theorem readText_binding (line name : String) (text reversed : List Char)
    (draft : Draft) :
    readText line text (.binding name reversed) draft =
      match (Text.splitAtFirst ')' text).2 with
      | none => .failed draft (.unterminatedBinding line)
      | some behind =>
          andThen draft
            (draft.call name
              (collected ((Text.splitAtFirst ')' text).1.reverse ++ reversed)) line)
            (readText line behind .nothing) := by
  induction text generalizing reversed with
  | nil => rfl
  | cons character rest inductionHypothesis =>
      by_cases closes : character = ')'
      · subst closes
        rw [splitAtFirst_cons_self]
        rfl
      · have goesOn : (character == ')') = false := beq_eq_false_iff_ne.mpr closes
        rw [splitAtFirst_cons_ne closes]
        simp only [readText, goesOn, Bool.false_eq_true, if_false, inductionHypothesis,
          List.reverse_cons, List.append_assoc, List.singleton_append]

/-- What is read at the first character of a name. -/
private theorem readText_nameStart (line : String) {character : Char} {rest : List Char}
    (noSymbol : Symbol.ofChar? character = none) (start : isNameStart character = true)
    (draft : Draft) :
    readText line (character :: rest) .nothing draft =
      readText line (rest.dropWhile isNamePart)
        (.name ((rest.takeWhile isNamePart).reverse ++ [character])) draft := by
  have part := Names.isNamePart_of_isNameStart start
  rcases name_goes_on part with ⟨noComment, noBlank, noBinding, _⟩
  rw [<- readText_name]
  have noLeft : (character == '<') = false := differs_of_isNamePart part rfl
  have noRight : (character == '>') = false := differs_of_isNamePart part rfl
  simp only [readText, noSymbol, noComment, noBlank, noBinding, noLeft, noRight, start,
    Bool.false_eq_true, if_false, if_true]

private theorem collected_name (character : Char) (parts : List Char) :
    collected (parts.reverse ++ [character]) = String.ofList (character :: parts) := by
  simp [collected]

/-- Reading program text is cutting it and performing the cut. -/
theorem readText_eq_perform (line : String) (text : List Char) (draft : Draft) :
    readText line text .nothing draft = perform line (cut text) draft := by
  fun_induction cut text generalizing draft with
  | case1 => rfl
  | case2 character rest symbol isSymbol inductionHypothesis =>
      rw [perform_cons]
      simp only [readText, isSymbol, inductionHypothesis]
      rfl
  | case3 character rest noSymbol comment =>
      simp only [readText, noSymbol, comment, if_true]
      rfl
  | case4 character rest noSymbol noComment blank inductionHypothesis =>
      simp only [readText, noSymbol, if_neg noComment, if_pos blank, inductionHypothesis]
  | case5 character rest noSymbol noComment noBlank opens =>
      simp only [readText, noSymbol, if_neg noComment, if_neg noBlank, if_pos opens]
      rfl
  | case6 character rest noSymbol noComment noBlank noBinding left inductionHypothesis =>
      rw [perform_cons]
      simp only [readText, noSymbol, if_neg noComment, if_neg noBlank, if_neg noBinding,
        if_pos left, inductionHypothesis]
      rfl
  | case7 character rest noSymbol noComment noBlank noBinding noLeft right
      inductionHypothesis =>
      rw [perform_cons]
      simp only [readText, noSymbol, if_neg noComment, if_neg noBlank, if_neg noBinding,
        if_neg noLeft, if_pos right, inductionHypothesis]
      rfl
  | case8 character rest noSymbol _ _ _ _ _ start name named =>
      rw [readText_nameStart line noSymbol start, named, perform_cons]
      simp only [readText, collected_name]
      rfl
  | case9 character rest noSymbol _ _ _ _ _ start name mark behind named _ comment =>
      rw [readText_nameStart line noSymbol start, named, perform_cons]
      simp only [readText, collected_name, if_pos comment]
      rfl
  | case10 character rest noSymbol _ _ _ _ _ start name mark behind named _ noComment blank
      inductionHypothesis =>
      rw [readText_nameStart line noSymbol start, named, perform_cons]
      simp only [readText, collected_name, if_neg noComment, if_pos blank]
      exact congrArg _ (funext inductionHypothesis)
  | case11 character rest noSymbol _ _ _ _ _ start mark behind named _ noComment noBlank
      opens bound =>
      rw [readText_nameStart line noSymbol start, named]
      simp only [readText, if_neg noComment, if_neg noBlank, if_pos opens, readText_binding,
        bound]
      rfl
  | case12 character rest noSymbol _ _ _ _ _ start name mark behind named _ noComment noBlank
      opens next bound _ binding inductionHypothesis =>
      rw [readText_nameStart line noSymbol start, named, perform_cons]
      simp only [readText, if_neg noComment, if_neg noBlank, if_pos opens, readText_binding,
        bound, collected_name, List.append_nil]
      rw [funext inductionHypothesis, collected, List.reverse_reverse]
      rfl
  | case13 character rest noSymbol _ _ _ _ _ start name mark behind named _ noComment noBlank
      noBinding jumps inductionHypothesis =>
      rw [readText_nameStart line noSymbol start, named, perform_cons]
      simp only [readText, collected_name, if_neg noComment, if_neg noBlank, if_neg noBinding,
        if_pos jumps, inductionHypothesis]
      rfl
  | case14 character rest noSymbol _ _ _ _ _ start mark behind named _ noComment noBlank
      noBinding noJump =>
      have noPart : ¬ isNamePart mark = true := by
        have stops := List.head_dropWhile_not isNamePart (l := rest)
        simpa [named] using stops
      rw [readText_nameStart line noSymbol start, named]
      simp only [readText, if_neg noComment, if_neg noBlank, if_neg noBinding, if_neg noJump,
        if_neg noPart]
      rfl
  | case15 character rest noSymbol noComment noBlank noBinding noLeft noRight noStart =>
      simp only [readText, noSymbol, if_neg noComment, if_neg noBlank, if_neg noBinding,
        if_neg noLeft, if_neg noRight, if_neg noStart]
      rfl

end Source
end BinaryTape
