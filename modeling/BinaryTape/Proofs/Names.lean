import Std.Data.String.ToNat
import BinaryTape.Source.Reader

namespace BinaryTape

/-!
# State names

The states of a table that was read from a source have names of three kinds.
Names written by hand are identifiers, implicit states are numerals, and the
states of a module carry the name of the module in front and the mark of the call
behind.  All three are plain text.  They are told apart by their ends: an
identifier does not start with a digit, a numeral has only digits, and the mark of
a call closes a parenthesis that neither of them can hold.

A marked name can be taken apart again, whatever the state of the module is
called.  The first opening parenthesis ends the name of the module, because a
module that can be called has none in its name; the number of the call is the
longest run of digits before the last character.
-/

/-- The name of a table's state in the numbered call of the module it was
declared as. -/
def Module.marked (name : String) (invocation : Nat) (state : StateName) : StateName :=
  Module.qualify name state ++ Module.invocationScope invocation

namespace Source

/-- Whether a text is an identifier: an ASCII letter or an underscore, followed by
letters, digits and underscores. -/
def isIdentifier (name : String) : Bool :=
  match name.toList with
  | [] => false
  | first :: rest => isNameStart first && rest.all isNamePart

end Source

namespace Names

open Source

/-! ## Identifiers and numerals -/

/-- The ranges of upper case and lower case letters. -/
private theorem isAlpha_eq (character : Char) :
    character.isAlpha =
      (decide (character.val ≥ 'A'.val ∧ character.val ≤ 'Z'.val) ||
        (decide (character.val ≥ 'a'.val) && decide (character.val ≤ 'z'.val))) := rfl

theorem isNamePart_of_isNameStart {character : Char} (starts : isNameStart character = true) :
    isNamePart character = true := by
  simp [isNamePart, starts]

theorem isDigit_eq_false_of_isNameStart {character : Char}
    (starts : isNameStart character = true) : character.isDigit = false := by
  apply Bool.eq_false_iff.mpr
  intro digit
  simp only [isNameStart, isAlpha_eq, Char.isDigit,
    Bool.or_eq_true, Bool.and_eq_true, decide_eq_true_eq, beq_iff_eq,
    UInt32.le_iff_toNat_le, ge_iff_le] at starts digit
  rcases starts with (upper | lower) | underscore
  · exact absurd (Nat.le_trans upper.1 digit.2) (by decide)
  · exact absurd (Nat.le_trans lower.1 digit.2) (by decide)
  · subst underscore
    exact absurd digit (by decide)

/-- The characters of names stand behind all blanks. -/
theorem le_toNat_of_isNamePart {character : Char} (part : isNamePart character = true) :
    48 ≤ character.toNat := by
  simp only [isNamePart, isNameStart, isAlpha_eq, Char.isDigit,
    Bool.or_eq_true, Bool.and_eq_true, decide_eq_true_eq, beq_iff_eq,
    UInt32.le_iff_toNat_le, ge_iff_le] at part
  rcases part with ((upper | lower) | underscore) | digit
  · exact Nat.le_trans (by decide) upper.1
  · exact Nat.le_trans (by decide) lower.1
  · rw [underscore]
    decide
  · exact digit.1

theorem isNamePart_of_mem_identifier {name : String} (identifier : isIdentifier name = true)
    {character : Char} (member : character ∈ name.toList) : isNamePart character = true := by
  unfold isIdentifier at identifier
  cases characters : name.toList with
  | nil =>
      rw [characters] at member
      cases member
  | cons first rest =>
      rw [characters] at identifier member
      rcases Bool.and_eq_true_iff.mp identifier with ⟨starts, others⟩
      rcases List.mem_cons.mp member with same | later
      · rw [same]
        exact isNamePart_of_isNameStart starts
      · exact List.all_eq_true.mp others character later

/-- A character that no name holds stands in no identifier. -/
theorem not_mem_identifier {name : String} (identifier : isIdentifier name = true)
    {character : Char} (foreign : isNamePart character = false) :
    Not (character ∈ name.toList) := by
  intro member
  rw [isNamePart_of_mem_identifier identifier member] at foreign
  cases foreign

theorem isDigit_of_mem_numeral {number : Nat} {character : Char}
    (member : character ∈ (toString number).toList) : character.isDigit = true := by
  rw [show (toString number).toList = Nat.toDigits 10 number from Nat.toList_repr] at member
  exact Nat.isDigit_of_mem_toDigits (by decide) (by decide) member

theorem numeral_injective {first second : Nat} (same : toString first = toString second) :
    first = second :=
  Nat.repr_injective same

/-- An implicit state is never called like something written by hand. -/
theorem numeral_ne_identifier (number : Nat) {name : String}
    (identifier : isIdentifier name = true) : toString number ≠ name := by
  intro same
  unfold isIdentifier at identifier
  cases characters : name.toList with
  | nil =>
      rw [characters] at identifier
      cases identifier
  | cons first rest =>
      rw [characters] at identifier
      rcases Bool.and_eq_true_iff.mp identifier with ⟨starts, -⟩
      have member : first ∈ (toString number).toList := by
        rw [same, characters]
        exact List.mem_cons_self
      have digit := isDigit_of_mem_numeral member
      rw [isDigit_eq_false_of_isNameStart starts] at digit
      cases digit

/-! ## Marked names -/

theorem toList_marked (name : String) (invocation : Nat) (state : StateName) :
    (Module.marked name invocation state).toList =
      name.toList ++ '(' :: (state.toList ++ '_' :: 'i' ::
        ((toString invocation).toList ++ [')'])) := by
  have mark : (Module.invocationScope invocation).toList =
      '_' :: 'i' :: ((toString invocation).toList ++ [')']) := by
    simp only [Module.invocationScope, String.toList_append]
    rfl
  simp [Module.marked, Module.qualify, Module.qualifier, mark]

/-- In one call of one module, states with different names stay different. -/
theorem marked_injective {name : String} {invocation : Nat} {first second : StateName}
    (same : Module.marked name invocation first = Module.marked name invocation second) :
    first = second := by
  have unmarked := (String.append_left_inj _).mp same
  exact (String.append_right_inj _).mp unmarked

/-- A name that does not close a parenthesis at its end. -/
def Unclosed (name : StateName) : Prop := name.toList.getLast? ≠ some ')'

instance (name : StateName) : Decidable (Unclosed name) := inferInstanceAs (Decidable (_ ≠ _))

/-- An unclosed name is the name of no module state in any call. -/
theorem marked_ne_of_unclosed (name : String) (invocation : Nat) (state : StateName)
    {other : StateName} (unclosed : Unclosed other) :
    Module.marked name invocation state ≠ other := by
  intro same
  apply unclosed
  have closing : (Module.marked name invocation state).toList =
      (name.toList ++ '(' :: (state.toList ++ '_' :: 'i' :: (toString invocation).toList)) ++
        [')'] := by
    simp [toList_marked]
  rw [← same, closing]
  exact List.getLast?_concat

theorem unclosed_of_not_mem {name : String} (absent : Not (')' ∈ name.toList)) :
    Unclosed name := by
  intro last
  exact absent (List.mem_of_getLast? last)

theorem unclosed_identifier {name : String} (identifier : isIdentifier name = true) :
    Unclosed name :=
  unclosed_of_not_mem (not_mem_identifier identifier (by decide))

theorem unclosed_numeral (number : Nat) : Unclosed (toString number) := by
  apply unclosed_of_not_mem
  intro member
  exact absurd (isDigit_of_mem_numeral member) (by decide)

/-- What stands before the first mark is determined by the whole. -/
private theorem append_cons_inj_of_not_mem {mark : Char} {left right : List Char}
    {afterLeft afterRight : List Char} (leftFree : Not (mark ∈ left))
    (rightFree : Not (mark ∈ right))
    (same : left ++ mark :: afterLeft = right ++ mark :: afterRight) :
    left = right ∧ afterLeft = afterRight := by
  induction left generalizing right with
  | nil =>
      cases right with
      | nil => exact ⟨rfl, List.tail_eq_of_cons_eq same⟩
      | cons first rest =>
          have equal := List.head_eq_of_cons_eq same
          exact False.elim (rightFree (List.mem_cons.mpr (Or.inl equal)))
  | cons head tail inductionHypothesis =>
      cases right with
      | nil =>
          have equal := List.head_eq_of_cons_eq same
          exact False.elim (leftFree (List.mem_cons.mpr (Or.inl equal.symm)))
      | cons first rest =>
          have heads := List.head_eq_of_cons_eq same
          have tails := inductionHypothesis
            (fun member => leftFree (List.mem_cons_of_mem _ member))
            (fun member => rightFree (List.mem_cons_of_mem _ member))
            (List.tail_eq_of_cons_eq same)
          exact ⟨by rw [heads, tails.1], tails.2⟩

/-- Marked names of modules without an opening parenthesis in their own name come
from one module and one call only. -/
theorem marked_decode {oneName otherName : String} {one other : Nat}
    {oneState otherState : StateName}
    (oneFree : Not ('(' ∈ oneName.toList)) (otherFree : Not ('(' ∈ otherName.toList))
    (same : Module.marked oneName one oneState = Module.marked otherName other otherState) :
    oneName = otherName ∧ one = other := by
  have characters := congrArg String.toList same
  rw [toList_marked, toList_marked] at characters
  rcases append_cons_inj_of_not_mem oneFree otherFree characters with ⟨namesSame, behind⟩
  -- Read from the right, the number ends where its first non-digit stands.
  have reversed := congrArg List.reverse behind
  simp only [List.reverse_append, List.reverse_cons, List.reverse_nil, List.nil_append,
    List.append_assoc, List.cons_append] at reversed
  have letterFree : forall number : Nat, Not ('i' ∈ (toString number).toList.reverse) := by
    intro number member
    exact absurd (isDigit_of_mem_numeral (List.mem_reverse.mp member)) (by decide)
  rcases append_cons_inj_of_not_mem (letterFree one) (letterFree other)
    (List.tail_eq_of_cons_eq reversed) with ⟨numbersSame, -⟩
  refine ⟨String.toList_inj.mp namesSame, numeral_injective ?_⟩
  exact String.toList_inj.mp (List.reverse_inj.mp numbersSame)

end Names

end BinaryTape
