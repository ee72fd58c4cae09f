import BinaryTape.Proofs.Constructs

namespace BinaryTape

/-!
# Where bindings lead

A binding sends every end state of a module to the default state or to a target
that is written in the binding.  Targets are never empty.  The default state is
only passed on, so it may be replaced afterwards: resolving a binding with no name
in the place of the default and putting the default in later is the same as
resolving it with the default at once.
-/

namespace Text

/-! ## Words -/

/-- A run has a value, and its values are values of the whole that separate nothing. -/
def IsRun (separator : α -> Bool) (values run : List α) : Prop :=
  run ≠ [] ∧ forall value, value ∈ run -> value ∈ values ∧ separator value = false

private theorem IsRun.cons {separator : α -> Bool} {values run : List α}
    (isRun : IsRun separator values run) (value : α) : IsRun separator (value :: values) run :=
  ⟨isRun.1, fun other member =>
    ⟨List.mem_cons_of_mem value (isRun.2 other member).1, (isRun.2 other member).2⟩⟩

private theorem isRun_of_mem_consRun {separator : α -> Bool} {values run : List α}
    {runs : List (List α)}
    (first : forall value, value ∈ run -> value ∈ values ∧ separator value = false)
    (others : forall other, other ∈ runs -> IsRun separator values other) :
    forall other, other ∈ consRun run runs -> IsRun separator values other := by
  intro other member
  unfold consRun at member
  cases run with
  | nil => exact others other member
  | cons value rest =>
      rcases List.mem_cons.mp member with same | later
      · rw [same]
        exact ⟨List.cons_ne_nil _ _, first⟩
      · exact others other later

/-- The invariant of the cut: the run that is being built may still be empty. -/
private theorem isRun_foldr (separator : α -> Bool) (values : List α) :
    (forall value, value ∈ (values.foldr (runStep separator) ([], [])).1 ->
      value ∈ values ∧ separator value = false) ∧
    forall run, run ∈ (values.foldr (runStep separator) ([], [])).2 ->
      IsRun separator values run := by
  induction values with
  | nil => exact ⟨fun _ member => (nomatch member), fun _ member => (nomatch member)⟩
  | cons value values inductionHypothesis =>
      rcases inductionHypothesis with ⟨first, others⟩
      have shifted := fun run member => (others run member).cons value
      rw [List.foldr_cons]
      generalize values.foldr (runStep separator) ([], []) = cut at first shifted
      unfold runStep
      cases separates : separator value with
      | true =>
          refine ⟨fun _ member => (nomatch member), ?_⟩
          apply isRun_of_mem_consRun (fun other member => ?_) shifted
          exact ⟨List.mem_cons_of_mem value (first other member).1, (first other member).2⟩
      | false =>
          refine ⟨?_, shifted⟩
          intro other member
          rcases List.mem_cons.mp member with same | later
          · rw [same]
            exact ⟨List.mem_cons_self, separates⟩
          · exact ⟨List.mem_cons_of_mem value (first other later).1, (first other later).2⟩

theorem isRun_of_mem_runs {separator : α -> Bool} {values run : List α}
    (member : run ∈ runs separator values) : IsRun separator values run :=
  isRun_of_mem_consRun (isRun_foldr separator values).1 (isRun_foldr separator values).2
    run member

theorem isRun_of_mem_words {text word : String} (member : word ∈ words text) :
    IsRun isWhiteSpace text.toList word.toList := by
  rcases List.mem_map.mp member with ⟨run, inside, rfl⟩
  rw [String.toList_ofList]
  exact isRun_of_mem_runs inside

end Text

theorem mem_of_lookup [BEq α] [LawfulBEq α] {pairs : List (α × β)} {key : α} {value : β}
    (found : pairs.lookup key = some value) : (key, value) ∈ pairs := by
  rcases List.lookup_eq_some_iff.mp found with ⟨_, _, split, _⟩
  rw [split]
  simp

namespace Binding

open Source (splitAtFirst_of_not_mem mem_of_splitAtFirst)

/-! ## Targets -/

/-- The target that a token of a binding writes down: what stands behind the first
colon or, without one, behind the mark for all end states. -/
def tokenTarget (token : String) : StateName :=
  match Text.splitAtFirst ':' token.toList with
  | (_, some target) => String.ofList target
  | (_, none) =>
      match token.toList with
      | '!' :: target => String.ofList target
      | _ => token

/-- The targets written in a binding. -/
def written (binding : String) : List StateName := (Text.words binding).map tokenTarget

theorem mem_of_mem_tokenTarget {token : String} {character : Char}
    (inside : character ∈ (tokenTarget token).toList) : character ∈ token.toList := by
  unfold tokenTarget at inside
  split at inside
  · rename_i behind split
    rw [String.toList_ofList] at inside
    exact mem_of_splitAtFirst (congrArg Prod.snd split) inside
  · split at inside
    · rename_i rest all
      rw [String.toList_ofList] at inside
      rw [all]
      exact List.mem_cons_of_mem _ inside
    · exact inside

/-- What is written in a binding consists of characters of the binding. -/
theorem mem_of_mem_written {binding : String} {target : StateName}
    (member : target ∈ written binding) {character : Char}
    (inside : character ∈ target.toList) : character ∈ binding.toList := by
  rcases List.mem_map.mp member with ⟨token, word, rfl⟩
  exact ((Text.isRun_of_mem_words word).2 character (mem_of_mem_tokenTarget inside)).1

/-- What is written in a binding holds no white space. -/
theorem isWhiteSpace_of_mem_written {binding : String} {target : StateName}
    (member : target ∈ written binding) {character : Char}
    (inside : character ∈ target.toList) : Text.isWhiteSpace character = false := by
  rcases List.mem_map.mp member with ⟨token, word, rfl⟩
  exact ((Text.isRun_of_mem_words word).2 character (mem_of_mem_tokenTarget inside)).2

theorem nonEmpty_eq_ok {target : List Char} {binding : String} {state : StateName}
    (checked : nonEmpty target binding = .ok state) :
    state = String.ofList target ∧ state ≠ "" := by
  unfold nonEmpty at checked
  cases target with
  | nil => cases checked
  | cons character rest =>
      have same : String.ofList (character :: rest) = state := Except.ok.inj checked
      refine ⟨same.symm, ?_⟩
      rw [← same]
      intro empty
      have characters := congrArg String.toList empty
      rw [String.toList_ofList] at characters
      cases characters

theorem explicitTarget_eq_ok {binding token : String} {ending target : StateName}
    (read : explicitTarget binding token = .ok (ending, target)) :
    target = tokenTarget token ∧ target ≠ "" := by
  unfold explicitTarget at read
  unfold tokenTarget
  rcases split : Text.splitAtFirst ':' token.toList with ⟨front, _ | behind⟩
  · rw [split] at read
    cases read
  · rw [split] at read
    dsimp only at read ⊢
    cases checked : nonEmpty behind binding with
    | error error =>
        rw [checked] at read
        cases read
    | ok state =>
        rw [checked] at read
        have same : state = target := congrArg Prod.snd (Except.ok.inj read)
        rw [← same]
        exact nonEmpty_eq_ok checked

/-- A result of reading tokens one by one was read from one of them. -/
theorem mem_of_mapM_eq_ok {read : α -> Except ε β} {tokens : List α}
    {results : List β} (mapped : tokens.mapM read = .ok results) {result : β}
    (member : result ∈ results) :
    Exists fun token : α => token ∈ tokens ∧ read token = .ok result := by
  induction tokens generalizing results with
  | nil =>
      have nothing : [] = results := Except.ok.inj mapped
      rw [← nothing] at member
      cases member
  | cons token tokens inductionHypothesis =>
      rw [List.mapM_cons] at mapped
      cases first : read token with
      | error error =>
          rw [first] at mapped
          cases mapped
      | ok value =>
          rw [first] at mapped
          cases rest : tokens.mapM read with
          | error error =>
              rw [rest] at mapped
              cases mapped
          | ok values =>
              rw [rest] at mapped
              have same : value :: values = results := Except.ok.inj mapped
              rw [← same] at member
              rcases List.mem_cons.mp member with equal | later
              · exact ⟨token, List.mem_cons_self, by rw [first, equal]⟩
              · rcases inductionHypothesis rest later with ⟨other, inside, found⟩
                exact ⟨other, List.mem_cons_of_mem _ inside, found⟩

/-! ## Routes -/

/-- A binding that gives end states their exits, one target or the default each,
in the same way for every default. -/
def Routed (declared : Module) (binding : String) (routes : List (Option StateName)) : Prop :=
  (forall target, some target ∈ routes -> target ∈ written binding ∧ target ≠ "") ∧
    forall default, exits declared binding default =
      .ok (routes.map (fun route => route.getD default))

private theorem tokenTarget_all {token : String} {rest : List Char}
    (uncut : Text.splitAtFirst ':' token.toList = (token.toList, none))
    (all : token.toList = '!' :: rest) : tokenTarget token = String.ofList rest := by
  rw [tokenTarget, uncut]
  simp only [all]

private theorem tokenTarget_one {token : String}
    (uncut : Text.splitAtFirst ':' token.toList = (token.toList, none))
    (one : forall rest, token.toList ≠ '!' :: rest) : tokenTarget token = token := by
  rw [tokenTarget, uncut]
  split
  · rename_i impossible
    exact absurd (congrArg Prod.snd impossible) (by simp)
  · split
    · rename_i all
      exact absurd all (one _)
    · rfl

/-- The exits of the bare form, whatever the default is. -/
private theorem bareExits_cases (declared : Module) (binding : String) {tokens : List String}
    (filled : forall token, token ∈ tokens -> token ≠ "")
    (bare : tokens.any (fun token => token.toList.contains ':') = false) :
    (Exists fun error : Error => bareExits declared binding tokens = .error error) ∨
      Exists fun target : StateName => Exists fun count : Nat =>
        target ∈ tokens.map tokenTarget ∧ target ≠ "" ∧
          bareExits declared binding tokens = .ok (List.replicate count target) := by
  unfold bareExits
  rcases tokens with _ | ⟨token, _ | ⟨second, others⟩⟩
  · exact Or.inl ⟨_, rfl⟩
  · have uncut : Text.splitAtFirst ':' token.toList = (token.toList, none) := by
      apply splitAtFirst_of_not_mem
      simpa using bare
    dsimp only
    split
    · rename_i rest all
      cases checked : nonEmpty rest binding with
      | error error => exact Or.inl ⟨error, rfl⟩
      | ok state =>
          rcases nonEmpty_eq_ok checked with ⟨same, stateFilled⟩
          refine Or.inr ⟨state, declared.ends.length, ?_, stateFilled, rfl⟩
          rw [List.map_singleton, tokenTarget_all uncut all, same]
          exact List.mem_singleton.mpr rfl
    · rename_i one
      split
      · exact Or.inl ⟨_, rfl⟩
      · refine Or.inr ⟨token, 1, ?_, filled token List.mem_cons_self, rfl⟩
        rw [List.map_singleton, tokenTarget_one uncut one]
        exact List.mem_singleton.mpr rfl
  · exact Or.inl ⟨_, rfl⟩

/-- The exits of the explicit form, whatever the default is. -/
private theorem explicitExits_cases (declared : Module) (binding : String)
    (tokens : List String) :
    (Exists fun error : Error => tokens.mapM (explicitTarget binding) = .error error) ∨
      Exists fun targets : List (StateName × StateName) =>
        tokens.mapM (explicitTarget binding) = .ok targets ∧
          forall ending target,
            targets.lookup ((declared.localName? ending).getD ending) = some target ->
              target ∈ tokens.map tokenTarget ∧ target ≠ "" := by
  cases read : tokens.mapM (explicitTarget binding) with
  | error error => exact Or.inl ⟨error, rfl⟩
  | ok targets =>
      refine Or.inr ⟨targets, rfl, ?_⟩
      intro ending target found
      rcases mem_of_mapM_eq_ok read (mem_of_lookup found) with ⟨token, inside, tokenRead⟩
      rcases explicitTarget_eq_ok tokenRead with ⟨same, filled⟩
      exact ⟨List.mem_map.mpr ⟨token, inside, same.symm⟩, filled⟩

/-- Resolving a binding fails or succeeds for all defaults alike. -/
theorem exits_cases (declared : Module) (binding : String) :
    (Exists fun error : Error =>
      forall default, exits declared binding default = .error error) ∨
    Exists fun routes : List (Option StateName) => Routed declared binding routes := by
  have filled : forall token, token ∈ Text.words binding -> token ≠ "" := by
    intro token member empty
    exact (Text.isRun_of_mem_words member).1 (String.toList_eq_nil_iff.mpr empty)
  cases tokens : (Text.words binding).isEmpty with
  | true =>
      refine Or.inr ⟨List.replicate declared.ends.length none, ?_, ?_⟩
      · intro target member
        cases List.eq_of_mem_replicate member
      · intro default
        simp [exits, tokens]
  | false =>
      cases colon : (Text.words binding).any (fun token => token.toList.contains ':') with
      | true =>
          rcases explicitExits_cases declared binding (Text.words binding) with
            ⟨error, failed⟩ | ⟨targets, read, known⟩
          · refine Or.inl ⟨error, fun default => ?_⟩
            simp only [exits, tokens, colon, failed, Bool.false_eq_true, if_false, if_true]
            rfl
          · refine Or.inr ⟨declared.ends.map (fun ending =>
              targets.lookup ((declared.localName? ending).getD ending)), ?_, ?_⟩
            · intro target member
              rcases List.mem_map.mp member with ⟨ending, _, found⟩
              exact known ending target found
            · intro default
              simp only [exits, tokens, colon, read, Bool.false_eq_true, if_false, if_true,
                List.map_map]
              rfl
      | false =>
          rcases bareExits_cases declared binding filled colon with
            ⟨error, failed⟩ | ⟨target, count, writes, targetFilled, resolved⟩
          · refine Or.inl ⟨error, fun default => ?_⟩
            simp only [exits, tokens, colon, failed, Bool.false_eq_true, if_false]
          · refine Or.inr ⟨List.replicate count (some target), ?_, ?_⟩
            · intro other member
              rw [Option.some.inj (List.eq_of_mem_replicate member)]
              exact ⟨writes, targetFilled⟩
            · intro default
              simp only [exits, tokens, colon, resolved, Bool.false_eq_true, if_false,
                List.map_replicate]
              rfl

/-! ## The number of exits -/

/-- The binding is a single token, which is neither marked nor names an end state. -/
def IsBareTarget (binding : String) (target : StateName) : Prop :=
  Text.words binding = [target] ∧ Not (':' ∈ target.toList) ∧
    target.toList.head? ≠ some '!'

private theorem length_or_bare_of_bareExits {declared : Module} {binding : String}
    {tokens : List String} {result : List StateName}
    (resolved : bareExits declared binding tokens = .ok result) :
    result.length = declared.ends.length ∨
      declared.ends = [] ∧ Exists fun target : StateName =>
        tokens = [target] ∧ target.toList.head? ≠ some '!' := by
  unfold bareExits at resolved
  split at resolved
  · rename_i token
    split at resolved
    · rename_i target _
      cases checked : nonEmpty target binding with
      | error error =>
          rw [checked] at resolved
          cases resolved
      | ok state =>
          rw [checked] at resolved
          rw [← Except.ok.inj resolved]
          exact Or.inl List.length_replicate
    · rename_i unmarked
      split at resolved
      · cases resolved
      · rename_i single
        rw [← Except.ok.inj resolved, List.length_singleton]
        rcases Nat.eq_zero_or_pos declared.ends.length with none | some
        · refine Or.inr ⟨List.length_eq_zero_iff.mp none, token, rfl, ?_⟩
          intro marked
          rcases List.head?_eq_some_iff.mp marked with ⟨rest, characters⟩
          exact unmarked rest characters
        · exact Or.inl (Nat.le_antisymm some (Nat.le_of_not_lt single))
  · cases resolved

/-- A binding has an exit for every end state, unless there is no end state and the binding
is a bare target, which is taken for an exit all the same. -/
theorem length_or_bare_of_exits {declared : Module} {binding : String} {default : StateName}
    {result : List StateName} (resolved : exits declared binding default = .ok result) :
    result.length = declared.ends.length ∨
      declared.ends = [] ∧ Exists fun target : StateName => IsBareTarget binding target := by
  simp only [exits] at resolved
  split at resolved
  · rw [← Except.ok.inj resolved]
    exact Or.inl List.length_replicate
  split at resolved
  · cases read : (Text.words binding).mapM (explicitTarget binding) with
    | error error =>
        rw [read] at resolved
        cases resolved
    | ok targets =>
        rw [read] at resolved
        rw [← Except.ok.inj resolved]
        exact Or.inl (List.length_map _)
  · rename_i colonless
    rcases length_or_bare_of_bareExits resolved with same | ⟨none, target, only, unmarked⟩
    · exact Or.inl same
    · refine Or.inr ⟨none, target, only, ?_, unmarked⟩
      simpa [only] using colonless

/-- A binding has an exit for every end state. -/
theorem length_of_exits {declared : Module} {binding : String} {default : StateName}
    {result : List StateName} (filled : declared.ends ≠ [])
    (resolved : exits declared binding default = .ok result) :
    result.length = declared.ends.length :=
  (length_or_bare_of_exits resolved).resolve_right (fun bare => filled bare.1)

/-! ## Exits of resolved bindings -/

/-- A binding that can be resolved for one default has routes. -/
theorem exists_routed {declared : Module} {binding : String} {default : StateName}
    {result : List StateName} (resolved : exits declared binding default = .ok result) :
    Exists fun routes : List (Option StateName) => Routed declared binding routes ∧
      result = routes.map (fun route => route.getD default) := by
  rcases exits_cases declared binding with ⟨error, failed⟩ | ⟨routes, routed⟩
  · rw [failed] at resolved
    cases resolved
  · refine ⟨routes, routed, ?_⟩
    rw [routed.2] at resolved
    exact (Except.ok.inj resolved).symm

/-- An exit is the default state or a target of the binding. -/
theorem mem_written_of_mem_exits {declared : Module} {binding : String}
    {default exit : StateName} {result : List StateName}
    (resolved : exits declared binding default = .ok result) (member : exit ∈ result) :
    exit = default ∨ exit ∈ written binding := by
  rcases exists_routed resolved with ⟨routes, routed, rfl⟩
  rcases List.mem_map.mp member with ⟨route, inside, rfl⟩
  cases route with
  | none => exact Or.inl rfl
  | some target => exact Or.inr (routed.1 target inside).1

/-- With no name in the place of the default, an exit without a name is the default
and every other exit is a target. -/
theorem exit_cases {declared : Module} {binding : String} {default exit : StateName}
    {unnamed result : List StateName} {position : Nat}
    (unnamedResolved : exits declared binding "" = .ok unnamed)
    (resolved : exits declared binding default = .ok result)
    (bound : unnamed[position]? = some exit) :
    (exit = "" ∧ result[position]? = some default) ∨
      (exit ≠ "" ∧ exit ∈ written binding ∧ result[position]? = some exit) := by
  rcases exists_routed resolved with ⟨routes, routed, rfl⟩
  rw [routed.2] at unnamedResolved
  cases unnamedResolved
  rw [List.getElem?_map] at bound ⊢
  rcases Option.map_eq_some_iff.mp bound with ⟨route, found, rfl⟩
  rw [found]
  cases route with
  | none => exact Or.inl ⟨rfl, rfl⟩
  | some target =>
      rcases routed.1 target (List.mem_of_getElem? found) with ⟨writes, filled⟩
      exact Or.inr ⟨filled, writes, rfl⟩

end Binding

end BinaryTape
