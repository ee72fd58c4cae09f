import BinaryTape.Proofs.Failures

namespace BinaryTape

/-!
# The grammar of program text

The rules by which program text is cut are told here one by one, without a scanner: a
rule says how a text begins, what the rest must look like, and which construct or fault
is found.  Names are as long as they can be because a rule for a name says what stands
behind it, and none of these characters belongs to a name.

The rules leave no choice and no gap.  Every text is cut in exactly one way, the way
`cut` finds.  Reading a line is then the constructs of this cut taking effect from left
to right; the first call that fails stops it, and a fault of the text is noticed only
behind the last construct.
-/

namespace Source

/-- How a text is cut into constructs, up to its first fault. -/
inductive Lexes : List Char -> Cut -> Prop where
  | finished : Lexes [] .empty
  | comment (rest : List Char) : Lexes ('#' :: rest) .empty
  | blank {character : Char} {rest : List Char} {result : Cut}
      (blank : Text.isAsciiBlank character = true) (others : Lexes rest result) :
      Lexes (character :: rest) result
  | write (symbol : Symbol) {rest : List Char} {result : Cut} (others : Lexes rest result) :
      Lexes (symbol.toChar :: rest) (result.cons (.write symbol))
  | left {rest : List Char} {result : Cut} (others : Lexes rest result) :
      Lexes ('<' :: rest) (result.cons (.move .left))
  | right {rest : List Char} {result : Cut} (others : Lexes rest result) :
      Lexes ('>' :: rest) (result.cons (.move .right))
  | jump {name : String} {rest : List Char} {result : Cut}
      (identifier : isIdentifier name = true) (others : Lexes rest result) :
      Lexes (name.toList ++ ':' :: rest) (result.cons (.jump name))
  | bound {name binding : String} {rest : List Char} {result : Cut}
      (identifier : isIdentifier name = true) (unclosed : Not (')' ∈ binding.toList))
      (others : Lexes rest result) :
      Lexes (name.toList ++ '(' :: (binding.toList ++ ')' :: rest))
        (result.cons (.call name binding))
  | unbound {name : String} {rest : List Char} {result : Cut}
      (identifier : isIdentifier name = true)
      (ends : forall mark, rest.head? = some mark ->
        Text.isAsciiBlank mark = true ∨ mark = '#')
      (others : Lexes rest result) :
      Lexes (name.toList ++ rest) (result.cons (.call name ""))
  | unterminated {name : String} {rest : List Char}
      (identifier : isIdentifier name = true) (unclosed : Not (')' ∈ rest)) :
      Lexes (name.toList ++ '(' :: rest) (.failed .unterminatedBinding)
  | nameless (rest : List Char) : Lexes ('(' :: rest) (.failed .missingModuleName)
  | foreign {character : Char} (rest : List Char)
      (noMark : Not (character ∈ ['0', '1', '<', '>', '(', '#']))
      (noBlank : Text.isAsciiBlank character = false)
      (noName : isNameStart character = false) :
      Lexes (character :: rest) (.failed (.invalidCharacter character))
  | foreignBehind {name : String} {character : Char} (rest : List Char)
      (identifier : isIdentifier name = true)
      (noMark : Not (character ∈ [':', '(', '#']))
      (noBlank : Text.isAsciiBlank character = false)
      (noName : isNamePart character = false) :
      Lexes (name.toList ++ character :: rest) (.failed (.invalidCharacter character))

/-! ## What stands behind a name -/

/-- How a text is cut behind a name that does not go on. -/
def cutBehind (name : String) : List Char -> Cut
  | [] => Cut.empty.cons (.call name "")
  | mark :: behind =>
      if mark == '#' then Cut.empty.cons (.call name "")
      else if Text.isAsciiBlank mark then (cut behind).cons (.call name "")
      else if mark == '(' then
        match (Text.splitAtFirst ')' behind).2 with
        | none => .failed .unterminatedBinding
        | some next =>
            (cut next).cons (.call name (String.ofList (Text.splitAtFirst ')' behind).1))
      else if mark == ':' then (cut behind).cons (.jump name)
      else .failed (.invalidCharacter mark)

theorem ofChar?_eq_none {character : Char} (noZero : character ≠ '0')
    (noOne : character ≠ '1') : Symbol.ofChar? character = none := by
  unfold Symbol.ofChar?
  split
  · exact absurd rfl noZero
  · exact absurd rfl noOne
  · rfl

theorem cut_nameStart {character : Char} (start : isNameStart character = true)
    (rest : List Char) :
    cut (character :: rest) =
      cutBehind (String.ofList (character :: rest.takeWhile isNamePart))
        (rest.dropWhile isNamePart) := by
  have noSymbol : Symbol.ofChar? character = none :=
    ofChar?_eq_none (fun zero => by simp [zero, isNameStart] at start)
      (fun one => by simp [one, isNameStart] at start)
  have part := Names.isNamePart_of_isNameStart start
  rcases name_goes_on part with ⟨noComment, noBlank, noBinding, _⟩
  have noLeft : (character == '<') = false := differs_of_isNamePart part rfl
  have noRight : (character == '>') = false := differs_of_isNamePart part rfl
  rw [cut]
  simp only [noSymbol, noComment, noBlank, noBinding, noLeft, noRight, start,
    Bool.false_eq_true, if_false, if_true]
  -- The tests behind the name are the same on both sides; only the matches have to be met.
  split
  · rename_i named
    rw [named]
    rfl
  · rename_i mark behind named
    simp only [named, cutBehind]
    split
    · rfl
    split
    · rfl
    split
    · split
      · rename_i bound
        rw [bound]
      · rename_i bound
        rw [bound]
    · rfl

/-- An identifier is the longest name in front of a text that does not go on with it. -/
theorem cut_identifier {name : String} (identifier : isIdentifier name = true)
    {rest : List Char} (stops : forall mark, rest.head? = some mark -> isNamePart mark = false) :
    cut (name.toList ++ rest) = cutBehind name rest := by
  unfold isIdentifier at identifier
  cases characters : name.toList with
  | nil =>
      rw [characters] at identifier
      cases identifier
  | cons first others =>
      rw [characters] at identifier
      rcases Bool.and_eq_true_iff.mp identifier with ⟨start, parts⟩
      have inside : forall part, part ∈ others -> isNamePart part = true :=
        List.all_eq_true.mp parts
      have taken : rest.takeWhile isNamePart = [] := by
        cases rest with
        | nil => rfl
        | cons mark behind => exact List.takeWhile_cons_of_neg (by simp [stops mark rfl])
      have dropped : rest.dropWhile isNamePart = rest := by
        cases rest with
        | nil => rfl
        | cons mark behind => exact List.dropWhile_cons_of_neg (by simp [stops mark rfl])
      rw [List.cons_append, cut_nameStart start, List.takeWhile_append_of_pos inside,
        List.dropWhile_append_of_pos inside, taken, dropped, List.append_nil, <- characters,
        String.ofList_toList]

/-- A name stops at a character that belongs to none. -/
theorem stops_at {mark : Char} (foreign : isNamePart mark = false) (behind : List Char) :
    forall first, (mark :: behind).head? = some first -> isNamePart first = false := by
  intro first head
  rw [<- Option.some.inj head]
  exact foreign

/-- Text up to a mark that it does not hold. -/
theorem splitAtFirst_append {mark : Char} {text : List Char} (absent : Not (mark ∈ text))
    (behind : List Char) :
    Text.splitAtFirst mark (text ++ mark :: behind) = (text, some behind) := by
  induction text with
  | nil => exact splitAtFirst_cons_self mark behind
  | cons character rest inductionHypothesis =>
      rcases not_or.mp (fun member => absent (List.mem_cons.mpr member)) with ⟨different, later⟩
      rw [List.cons_append, splitAtFirst_cons_ne (Ne.symm different), inductionHypothesis later]

/-! ## The rules leave no choice -/

/-- A blank and the mark of a comment end a name. -/
theorem isNamePart_of_ends {mark : Char}
    (ends : Text.isAsciiBlank mark = true ∨ mark = '#') : isNamePart mark = false := by
  apply Bool.eq_false_iff.mpr
  intro part
  rcases name_goes_on part with ⟨noComment, noBlank, _, _⟩
  rcases ends with blank | comment
  · rw [blank] at noBlank
    cases noBlank
  · rw [comment] at noComment
    cases noComment

theorem differs_of_isAsciiBlank {character other : Char}
    (blank : Text.isAsciiBlank character = true) (solid : Text.isAsciiBlank other = false) :
    character ≠ other := by
  intro same
  rw [same, solid] at blank
  cases blank

theorem cut_blank {character : Char} (blank : Text.isAsciiBlank character = true)
    (rest : List Char) : cut (character :: rest) = cut rest := by
  have noSymbol : Symbol.ofChar? character = none :=
    ofChar?_eq_none (differs_of_isAsciiBlank blank rfl) (differs_of_isAsciiBlank blank rfl)
  have noComment : (character == '#') = false :=
    beq_eq_false_iff_ne.mpr (differs_of_isAsciiBlank blank rfl)
  rw [cut]
  simp only [noSymbol, noComment, blank, Bool.false_eq_true, if_false, if_true]

theorem cut_comment (rest : List Char) : cut ('#' :: rest) = .empty := by
  simp [cut, Symbol.ofChar?]

/-- What ends a name without binding it is left for the rest of the text. -/
theorem cutBehind_of_ends (name : String) {rest : List Char}
    (ends : forall mark, rest.head? = some mark ->
      Text.isAsciiBlank mark = true ∨ mark = '#') :
    cutBehind name rest = (cut rest).cons (.call name "") := by
  cases rest with
  | nil =>
      rw [cut]
      rfl
  | cons mark behind =>
      rcases ends mark rfl with blank | comment
      · have noComment : (mark == '#') = false :=
          beq_eq_false_iff_ne.mpr (differs_of_isAsciiBlank blank rfl)
        rw [cut_blank blank]
        simp only [cutBehind, noComment, blank, Bool.false_eq_true, if_false, if_true]
      · rw [comment, cut_comment]
        rfl

theorem Lexes.eq_cut {text : List Char} {result : Cut} (lexed : Lexes text result) :
    result = cut text := by
  induction lexed with
  | finished => rw [cut]
  | comment rest => rw [cut_comment]
  | blank blank others inductionHypothesis => rw [cut_blank blank, inductionHypothesis]
  | write symbol others inductionHypothesis =>
      rw [cut]
      simp only [Symbol.ofChar?_toChar, inductionHypothesis]
  | left others inductionHypothesis =>
      rw [cut, inductionHypothesis]
      rfl
  | right others inductionHypothesis =>
      rw [cut, inductionHypothesis]
      rfl
  | jump identifier others inductionHypothesis =>
      rw [cut_identifier identifier (stops_at rfl _), inductionHypothesis]
      rfl
  | bound identifier unclosed others inductionHypothesis =>
      rw [cut_identifier identifier (stops_at rfl _), inductionHypothesis]
      simp [cutBehind, splitAtFirst_append unclosed, Text.isAsciiBlank]
  | unbound identifier ends others inductionHypothesis =>
      rw [cut_identifier identifier (fun mark first => isNamePart_of_ends (ends mark first)),
        cutBehind_of_ends _ ends, inductionHypothesis]
  | unterminated identifier unclosed =>
      rw [cut_identifier identifier (stops_at rfl _)]
      simp [cutBehind, splitAtFirst_of_not_mem unclosed, Text.isAsciiBlank]
  | nameless rest =>
      rw [cut]
      rfl
  | foreign rest noMark noBlank noName =>
      simp only [List.mem_cons, List.not_mem_nil, or_false, not_or] at noMark
      rcases noMark with ⟨noZero, noOne, noLeft, noRight, noBinding, noComment⟩
      simp [cut, ofChar?_eq_none noZero noOne, noComment, noBlank, noBinding, noLeft, noRight,
        noName]
  | foreignBehind rest identifier noMark noBlank noName =>
      simp only [List.mem_cons, List.not_mem_nil, or_false, not_or] at noMark
      rcases noMark with ⟨noJump, noBinding, noComment⟩
      rw [cut_identifier identifier (stops_at noName rest)]
      simp [cutBehind, noComment, noBlank, noBinding, noJump]

/-! ## The rules leave no gap -/

theorem eq_toChar_of_ofChar? {character : Char} {symbol : Symbol}
    (isSymbol : Symbol.ofChar? character = some symbol) : character = symbol.toChar := by
  unfold Symbol.ofChar? at isSymbol
  split at isSymbol
  · rw [<- Option.some.inj isSymbol]
    rfl
  · rw [<- Option.some.inj isSymbol]
    rfl
  · cases isSymbol

theorem not_mem_of_splitAtFirst {mark : Char} {text : List Char}
    (split : (Text.splitAtFirst mark text).2 = none) : Not (mark ∈ text) := by
  intro member
  rcases List.eq_append_cons_of_mem member with ⟨front, behind, same, absent⟩
  rw [same, splitAtFirst_append absent] at split
  cases split

theorem eq_append_of_splitAtFirst {mark : Char} {text behind : List Char}
    (split : (Text.splitAtFirst mark text).2 = some behind) :
    text = (Text.splitAtFirst mark text).1 ++ mark :: behind := by
  by_cases member : mark ∈ text
  · rcases List.eq_append_cons_of_mem member with ⟨front, rest, same, absent⟩
    have parts := splitAtFirst_append absent rest
    rw [<- same] at parts
    rw [parts] at split
    rw [parts, <- Option.some.inj split]
    exact same
  · rw [splitAtFirst_of_not_mem member] at split
    cases split

/-- A text that starts with a name, cut behind the longest one. -/
theorem longest_append (character : Char) (rest : List Char) :
    character :: rest =
      (String.ofList (character :: rest.takeWhile isNamePart)).toList ++
        rest.dropWhile isNamePart := by
  rw [String.toList_ofList, List.cons_append, List.takeWhile_append_dropWhile]

theorem lexes_cut (text : List Char) : Lexes text (cut text) := by
  fun_induction cut text with
  | case1 => exact .finished
  | case2 character rest symbol isSymbol inductionHypothesis =>
      rw [eq_toChar_of_ofChar? isSymbol]
      exact .write symbol inductionHypothesis
  | case3 character rest noSymbol comment =>
      rw [beq_iff_eq.mp comment]
      exact .comment rest
  | case4 character rest noSymbol noComment blank inductionHypothesis =>
      exact .blank blank inductionHypothesis
  | case5 character rest noSymbol noComment noBlank opens =>
      rw [beq_iff_eq.mp opens]
      exact .nameless rest
  | case6 character rest noSymbol noComment noBlank noBinding left inductionHypothesis =>
      rw [beq_iff_eq.mp left]
      exact .left inductionHypothesis
  | case7 character rest noSymbol noComment noBlank noBinding noLeft right
      inductionHypothesis =>
      rw [beq_iff_eq.mp right]
      exact .right inductionHypothesis
  | case8 character rest noSymbol _ _ _ _ _ start name named =>
      rw [longest_append, named]
      exact .unbound (isIdentifier_longest start rest) (by simp) .finished
  | case9 character rest noSymbol _ _ _ _ _ start name mark behind named _ comment =>
      rw [longest_append, named, beq_iff_eq.mp comment]
      exact .unbound (isIdentifier_longest start rest) (by simp) (.comment behind)
  | case10 character rest noSymbol _ _ _ _ _ start name mark behind named _ noComment blank
      inductionHypothesis =>
      rw [longest_append, named]
      exact .unbound (isIdentifier_longest start rest) (by simp [blank])
        (.blank blank inductionHypothesis)
  | case11 character rest noSymbol _ _ _ _ _ start mark behind named _ noComment noBlank
      opens bound =>
      rw [longest_append, named, beq_iff_eq.mp opens]
      exact .unterminated (isIdentifier_longest start rest) (not_mem_of_splitAtFirst bound)
  | case12 character rest noSymbol _ _ _ _ _ start name mark behind named _ noComment noBlank
      opens next bound _ binding inductionHypothesis =>
      have written : behind = binding.toList ++ ')' :: next := by
        rw [String.toList_ofList]
        exact eq_append_of_splitAtFirst bound
      have unclosed : Not (')' ∈ binding.toList) := by
        rw [String.toList_ofList]
        exact splitAtFirst_fst ')' behind
      rw [longest_append, named, beq_iff_eq.mp opens, written]
      exact .bound (isIdentifier_longest start rest) unclosed inductionHypothesis
  | case13 character rest noSymbol _ _ _ _ _ start name mark behind named _ noComment noBlank
      noBinding jumps inductionHypothesis =>
      rw [longest_append, named, beq_iff_eq.mp jumps]
      exact .jump (isIdentifier_longest start rest) inductionHypothesis
  | case14 character rest noSymbol _ _ _ _ _ start mark behind named _ noComment noBlank
      noBinding noJump =>
      have noPart := List.head?_dropWhile_not isNamePart rest
      rw [named] at noPart
      have noMark : Not (mark ∈ [':', '(', '#']) := by
        simpa using And.intro noJump (And.intro noBinding noComment)
      rw [longest_append, named]
      exact .foreignBehind behind (isIdentifier_longest start rest) noMark
        (Bool.eq_false_iff.mpr noBlank) noPart
  | case15 character rest noSymbol noComment noBlank noBinding noLeft noRight noStart =>
      have noMark : Not (character ∈ ['0', '1', '<', '>', '(', '#']) := by
        have noZero : character ≠ '0' := fun zero => by rw [zero] at noSymbol; cases noSymbol
        have noOne : character ≠ '1' := fun one => by rw [one] at noSymbol; cases noSymbol
        rw [beq_iff_eq] at noComment noBinding noLeft noRight
        simpa using ⟨noZero, noOne, noLeft, noRight, noBinding, noComment⟩
      exact .foreign rest noMark (Bool.eq_false_iff.mpr noBlank)
        (Bool.eq_false_iff.mpr noStart)

/-! ## The constructs one after the other -/

/-- The constructs all take effect, or the first that fails is a call. -/
theorem executeAll_cases (line : String) (constructs : List Construct) (draft : Draft) :
    (Exists fun after : Draft =>
      constructs.foldlM (Construct.execute line) draft = .ok after ∧
        executeAll line constructs draft = .done after) ∨
      Exists fun earlier : List Construct => Exists fun later : List Construct =>
        Exists fun name : String => Exists fun binding : String =>
          Exists fun before : Draft => Exists fun error : Error =>
            constructs = earlier ++ .call name binding :: later ∧
              earlier.foldlM (Construct.execute line) draft = .ok before ∧
              before.call name binding line = .error error ∧
              executeAll line constructs draft = .failed before error := by
  induction constructs generalizing draft with
  | nil => exact Or.inl ⟨draft, rfl, rfl⟩
  | cons construct rest inductionHypothesis =>
      cases executed : construct.execute line draft with
      | ok next =>
          have folded (others : List Construct) :
              (construct :: others).foldlM (Construct.execute line) draft =
                others.foldlM (Construct.execute line) next := by
            rw [List.foldlM_cons, executed]
            rfl
          have goesOn : executeAll line (construct :: rest) draft =
              executeAll line rest next := by
            rw [executeAll, executed]
            rfl
          rw [folded, goesOn]
          rcases inductionHypothesis next with done |
            ⟨earlier, later, name, binding, before, error, parts, reached, failed, stopped⟩
          · exact Or.inl done
          · refine Or.inr ⟨construct :: earlier, later, name, binding, before, error,
              congrArg _ parts, ?_, failed, stopped⟩
            rw [folded, reached]
      | error error =>
          cases construct with
          | move direction => cases executed
          | write symbol => cases executed
          | jump target => cases executed
          | call name binding =>
              refine Or.inr ⟨[], rest, name, binding, draft, error, rfl, rfl, executed, ?_⟩
              rw [executeAll, executed]
              rfl

/-- Why a call is refused: its module is not declared, or its binding has no meaning for
the end states of the module.  Only a module without end states can be refused behind its
binding. -/
def Refused (draft : Draft) (name binding line : String) (error : Error) : Prop :=
  match draft.registry.get? name with
  | none => error = .unknownModule name line
  | some entry =>
      entry.declared.ends ≠ [] ->
        Binding.exits entry.declared binding draft.implicitState = .error error

theorem refused_of_call {draft : Draft} {name binding line : String} {error : Error}
    (failed : draft.call name binding line = .error error) :
    Refused draft name binding line error := by
  unfold Refused
  rcases call_eq_error failed with
    ⟨absent, unknown⟩ | ⟨entry, found, unresolved | ⟨exits, resolved, mismatch, _⟩⟩
  · rw [absent]
    exact unknown
  · rw [found]
    exact fun _ => unresolved
  · rw [found]
    exact fun filled => absurd (Binding.length_of_exits filled resolved).symm mismatch

/--
Program text is read as if it were cut first and executed afterwards.  By the rules every
line is cut in exactly one way, which depends on nothing but the line.  From any draft the
constructs of the cut take effect one after the other.  If all of them do, reading gives
the draft behind the last one, and the fault of the text if it has one; otherwise it gives
the draft before the first call that is refused, and the error of this call.
-/
theorem program_text_lexed_then_executed (line : String) :
    Exists fun result : Cut =>
      (forall other : Cut, Lexes line.toList other ↔ other = result) ∧
      forall draft : Draft,
        (Exists fun after : Draft =>
          result.constructs.foldlM (Construct.execute line) draft = .ok after ∧
          readText line line.toList .nothing draft =
            ⟨after, result.fault.map (Fault.error line)⟩) ∨
        Exists fun earlier : List Construct => Exists fun later : List Construct =>
          Exists fun name : String => Exists fun binding : String =>
            Exists fun before : Draft => Exists fun error : Error =>
              result.constructs = earlier ++ .call name binding :: later ∧
              earlier.foldlM (Construct.execute line) draft = .ok before ∧
              before.call name binding line = .error error ∧
              Refused before name binding line error ∧
              readText line line.toList .nothing draft = ⟨before, some error⟩ := by
  refine ⟨cut line.toList, fun other => ⟨Lexes.eq_cut, fun same => ?_⟩, fun draft => ?_⟩
  · rw [same]
    exact lexes_cut line.toList
  · rw [readText_eq_perform, perform]
    rcases executeAll_cases line (cut line.toList).constructs draft with
      ⟨after, reached, done⟩ |
      ⟨earlier, later, name, binding, before, error, parts, reached, failed, stopped⟩
    · refine Or.inl ⟨after, reached, ?_⟩
      rw [done]
      cases (cut line.toList).fault <;> rfl
    · refine Or.inr ⟨earlier, later, name, binding, before, error, parts, reached, failed,
        refused_of_call failed, ?_⟩
      rw [stopped]
      rfl

example : cut "go1(a:b #)0 go:<_#1".toList =
    ⟨[.call "go1" "a:b #", .write .zero, .jump "go", .move .left, .call "_" ""], none⟩ := by
  decide +kernel

end Source

end BinaryTape
