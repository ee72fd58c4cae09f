import BinaryTape.Proofs.ChainEnds
import BinaryTape.Proofs.Failures
import BinaryTape.Proofs.SourceRuns

namespace BinaryTape

open BinaryTape.Module (marked)

/-!
# Complete tables

A table serves a state when it has a rule for both symbols there.  It is complete when
it serves its start state and every state that a rule leads to, end states apart.  A
run of a complete table is never stuck, and no chain of it dangles.

A source whose modules are complete is read into a complete table.  Every construct
serves the state it starts from, with two rules of its own; the state it goes on at is
served by what follows it, and behind the last one by the closing rules.  So every
state in which a draft has ever been is served, and with it all names that can be
jumped to.  Inside a copy of a module the module's own rules serve, and its exits are
bound to states of the caller.
-/

namespace Rule

/-- The rules have one for each symbol at a state. -/
def Serves (rules : List Rule) (state : StateName) : Prop :=
  forall symbol, Exists fun rule : Rule => rule ∈ rules ∧ rule.address = (state, symbol)

instance (rules : List Rule) (state : StateName) : Decidable (Serves rules state) :=
  decidable_of_iff
    (forall symbol, symbol ∈ Symbol.all ->
      Exists fun rule : Rule => rule ∈ rules ∧ rule.address = (state, symbol))
    ⟨fun all symbol => all symbol (Symbol.mem_all symbol), fun serves symbol _ => serves symbol⟩

theorem Serves.first?_ne_none {rules : List Rule} {state : StateName}
    (serves : Serves rules state) (symbol : Symbol) : first? rules (state, symbol) ≠ none := by
  intro missing
  rcases serves symbol with ⟨rule, member, addressed⟩
  have absent := List.find?_eq_none.mp missing rule member
  exact absent (beq_iff_eq.mpr addressed)

theorem Serves.mono {rules more : List Rule} {state : StateName} (serves : Serves rules state)
    (subset : forall rule, rule ∈ rules -> rule ∈ more) : Serves more state := by
  intro symbol
  rcases serves symbol with ⟨rule, member, addressed⟩
  exact ⟨rule, subset rule member, addressed⟩

/-- A pair of rules for both symbols serves the state it starts from. -/
theorem serves_pair {origin : StateName} {effect : Symbol -> Rule}
    (addressed : forall symbol, (effect symbol).address = (origin, symbol)) :
    Serves (Symbol.all.map effect) origin := by
  intro symbol
  exact ⟨effect symbol, List.mem_map_of_mem (Symbol.mem_all symbol), addressed symbol⟩

end Rule

open Rule (Serves)

/-- A table that serves its start state and every target that is no end state. -/
structure Program.Complete (program : Program) : Prop where
  start_served : Serves program.rules program.start
  targets_served : forall rule, rule ∈ program.rules -> Not (rule.next ∈ program.ends) ->
    Serves program.rules rule.next

instance (program : Program) : Decidable program.Complete :=
  decidable_of_iff
    (Serves program.rules program.start ∧ forall rule, rule ∈ program.rules ->
      Not (rule.next ∈ program.ends) -> Serves program.rules rule.next)
    ⟨fun both => ⟨both.1, both.2⟩, fun complete => ⟨complete.1, complete.2⟩⟩

/-! ## Runs of complete tables -/

namespace Program.Complete

variable {program : Program}

/-- A configuration of a complete table is in an end state or in a served one. -/
def Provided (program : Program) (here : Configuration) : Prop :=
  here.state ∈ program.ends ∨ Serves program.rules here.state

theorem provided_successor? (complete : program.Complete) {here there : Configuration}
    (next : program.successor? here = some there) : Provided program there := by
  rcases successor?_eq_some_iff.mp next with ⟨_, rule, found, rfl⟩
  by_cases final : rule.next ∈ program.ends
  · exact Or.inl final
  · exact Or.inr (complete.targets_served rule (Rule.mem_of_first? found) final)

theorem provided_after? (complete : program.Complete) {steps : Nat}
    {here there : Configuration} (provided : Provided program here)
    (reached : program.after? steps here = some there) : Provided program there := by
  induction steps generalizing here with
  | zero =>
      cases reached
      exact provided
  | succ steps inductionHypothesis =>
      rcases Option.bind_eq_some_iff.mp reached with ⟨middle, next, rest⟩
      exact inductionHypothesis (complete.provided_successor? next) rest

/-- A complete table is never stuck. -/
theorem not_stuckAt (complete : program.Complete) (tape : Tape) (state : StateName)
    (symbol : Symbol) (there : Configuration) :
    Not (program.StuckAt tape state symbol there) := by
  intro stuck
  rcases (program.stuckAt_iff tape state symbol there).mp stuck with
    ⟨_, _, going, missing, steps, reached⟩
  rcases complete.provided_after? (Or.inr complete.start_served) reached with final | serves
  · simp [Program.isEnd, final] at going
  · exact serves.first?_ne_none _ missing

end Program.Complete

/-! ## Chains of complete tables -/

namespace Chain

variable {ends : List StateName} {given : List Rule}

/-- A rule whose target, if it is no end state, is served by the given table. -/
def Anchored (ends : List StateName) (given : List Rule) (rule : Rule) : Prop :=
  rule.next ∈ ends ∨ Serves given rule.next

theorem follow_ne_dangling {rules : Array Rule} {rule : Rule} {visited : Std.HashSet Nat}
    (anchored : Anchored ends given rule)
    (all : forall other, other ∈ rules -> Anchored ends given other)
    (state : StateName) (symbol : Symbol) :
    follow ends (RuleIndex.ofRules given) rules rule visited ≠
      .error (.danglingChain state symbol) := by
  fun_induction follow ends (RuleIndex.ofRules given) rules rule visited with
  | case1 rule visited opened missing =>
      rcases anchored with final | serves
      · simp [isOpen, final] at opened
      · have found := serves.first?_ne_none rule.write
        rw [← RuleIndex.bind_position?_ofRules] at found
        have nothing : (RuleIndex.ofRules given).position? (rule.next, rule.write) = none :=
          missing
        rw [nothing] at found
        exact absurd rfl found
  | case2 rule visited opened place found unseen bounded inductionHypothesis =>
      exact inductionHypothesis (all rules[place] (Array.getElem_mem bounded))
  | case3 => simp
  | case4 => simp

/-- The end of a chain leads where some rule on it leads. -/
theorem follow_anchored {rules : Array Rule} {rule last : Rule} {visited : Std.HashSet Nat}
    (anchored : Anchored ends given rule)
    (all : forall other, other ∈ rules -> Anchored ends given other)
    (followed : follow ends (RuleIndex.ofRules given) rules rule visited = .ok last) :
    Anchored ends given last := by
  fun_induction follow ends (RuleIndex.ofRules given) rules rule visited with
  | case1 => cases followed
  | case2 rule visited opened place found unseen bounded inductionHypothesis =>
      exact inductionHypothesis (all rules[place] (Array.getElem_mem bounded)) followed
  | case3 => cases followed
  | case4 =>
      cases followed
      exact anchored

theorem collapseFrom_ne_dangling {position count : Nat} {rules : Array Rule}
    (all : forall other, other ∈ rules -> Anchored ends given other)
    (state : StateName) (symbol : Symbol) :
    (collapseFrom ends (RuleIndex.ofRules given) position rules count).2 ≠
      .error (.danglingChain state symbol) := by
  fun_induction collapseFrom ends (RuleIndex.ofRules given) position rules count with
  | case1 position rules count bounded rule opened error failed =>
      intro same
      cases same
      exact follow_ne_dangling (all rule (Array.getElem_mem bounded)) all state symbol failed
  | case2 position rules count bounded rule opened last followed inductionHypothesis =>
      have anchored := follow_anchored (all rule (Array.getElem_mem bounded)) all followed
      apply inductionHypothesis
      intro other member
      rcases Array.mem_or_eq_of_mem_set member with before | same
      · exact all other before
      · rw [same]
        exact anchored
  | case3 position rules count bounded rule shut inductionHypothesis =>
      exact inductionHypothesis all
  | case4 => simp

end Chain

/-- No chain of a complete table dangles. -/
theorem Program.Complete.collapse_ne_dangling {program : Program}
    (complete : program.Complete) (state : StateName) (symbol : Symbol) :
    (Chain.collapse program.ends program.rules).2 ≠ .error (.danglingChain state symbol) := by
  apply Chain.collapseFrom_ne_dangling
  intro rule member
  by_cases final : rule.next ∈ program.ends
  · exact Or.inl final
  · exact Or.inr (complete.targets_served rule (List.mem_toArray.mp member) final)

/-! ## Tables that were read -/

namespace Instance

variable {program : Program} {name : String} {invocation : Nat} {exits : List StateName}
  {entryState : StateName}

/-- The copy of a module serves the marked states of those that the module serves. -/
theorem serves_marked (exitCount : exits.length = program.ends.length) {state : StateName}
    (serves : Serves program.rules state) :
    Serves (rules (.declare name program) (Module.invocationScope invocation) entryState exits)
      (marked name invocation state) := by
  intro symbol
  rcases serves symbol with ⟨rule, member, addressed⟩
  refine ⟨image program name invocation exits rule, ?_, ?_⟩
  · rw [rules, map_copy_declare exitCount]
    exact List.mem_append_right _ (List.mem_map_of_mem member)
  · rcases Prod.mk.inj addressed with ⟨rfl, rfl⟩
    rfl

/-- The rules of a call lead to exits and to states that its copy serves. -/
theorem rules_anchored (exitCount : exits.length = program.ends.length)
    (complete : program.Complete) {rule : Rule}
    (member : rule ∈ rules (.declare name program) (Module.invocationScope invocation)
      entryState exits) :
    rule.next ∈ exits ∨
      Serves (rules (.declare name program) (Module.invocationScope invocation) entryState exits)
        rule.next := by
  rw [rules, map_copy_declare exitCount] at member
  rcases List.mem_append.mp member with entry | copied
  · rcases List.mem_map.mp entry with ⟨symbol, _, rfl⟩
    exact Or.inr (serves_marked exitCount complete.start_served)
  · rcases List.mem_map.mp copied with ⟨original, inside, rfl⟩
    by_cases final : original.next ∈ program.ends
    · have ending : program.isEnd original.next = true := by
        simpa [Program.isEnd] using final
      exact Or.inl (List.mem_of_getElem? (getElem?_idxOf_of_isEnd exitCount ending))
    · have going : program.isEnd original.next = false := by simpa [Program.isEnd] using final
      refine Or.inr ?_
      simp only [image]
      rw [outside_of_not_mem exitCount going]
      exact serves_marked exitCount (complete.targets_served original inside final)

end Instance

namespace Source

variable {library : Library} {made earlier later : List Stage} {last : Draft}
  {header : Header} {stage : Stage}

/-- Every construct serves the state it starts from. -/
theorem Stage.Made.serves_before (step : stage.Made) :
    Serves stage.rules stage.before.current := by
  cases construct : stage.construct with
  | move direction =>
      rw [step.rules_move construct]
      exact Rule.serves_pair (fun _ => rfl)
  | write symbol =>
      rw [step.rules_write construct]
      exact Rule.serves_pair (fun _ => rfl)
  | jump target =>
      rw [step.rules_jump construct]
      exact Rule.serves_pair (fun _ => rfl)
  | call name binding =>
      rcases step.rules_call construct with ⟨entry, exits, _, _, _, rules⟩
      rw [rules]
      exact (Rule.serves_pair (fun _ => rfl)).mono
        (fun _ member => List.mem_append_left _ member)

namespace Drafted

theorem mem_tableOf (parts : made = earlier ++ stage :: later) {rule : Rule}
    (member : rule ∈ stage.rules) : rule ∈ (tableOf made last header).rules := by
  apply List.mem_append_left
  rw [parts]
  exact List.mem_flatMap.mpr ⟨stage, by simp, member⟩

/-- Every state in which the draft has been is served by the table it ends as. -/
theorem serves_standing (drafted : Drafted library made last)
    (headed : last.header = some header) (earlier later : List Stage)
    (parts : made = earlier ++ later) :
    Serves (tableOf made last header).rules (standing header.start earlier) := by
  cases later with
  | nil =>
      rw [List.append_nil] at parts
      rw [← parts, ← drafted.current_eq headed]
      exact (Rule.serves_pair (fun _ => rfl)).mono
        (fun _ member => List.mem_append_right _ member)
  | cons stage later =>
      rcases drafted.split parts with ⟨begun, sameHeader, _, step⟩
      rw [← begun.current_eq (sameHeader.trans headed)]
      exact step.serves_before.mono (fun _ member => mem_tableOf parts member)

theorem serves_after (drafted : Drafted library made last)
    (headed : last.header = some header) (parts : made = earlier ++ stage :: later) :
    Serves (tableOf made last header).rules stage.after.current := by
  rw [← standing_concat header.start earlier stage]
  exact drafted.serves_standing headed (earlier ++ [stage]) later (by rw [parts]; simp)

/-- Names that are jumped to are served. -/
theorem serves_jump (drafted : Drafted library made last)
    (headed : last.header = some header) {target : StateName}
    (jumped : .jump target ∈ constructsOf made) :
    Serves (tableOf made last header).rules target := by
  rcases List.mem_map.mp jumped with ⟨stage, among, construct⟩
  rcases List.append_of_mem among with ⟨earlier, later, parts⟩
  rcases drafted.split parts with ⟨_, _, _, step⟩
  have reached : stage.after.current = target := by
    rw [step.effect.current_eq, construct]
    rfl
  rw [← reached]
  exact drafted.serves_after headed parts

/-- The names that a binding may lead to without leaving anything open. -/
def Known (header : Header) (constructs : List Construct) (target : StateName) : Prop :=
  target ∈ header.ends ∨ target = header.start ∨ .jump target ∈ constructs

/-- Calls of complete modules, bound to known names, leave nothing open. -/
theorem call_anchored (drafted : Drafted library made last)
    (headed : last.header = some header) (parts : made = earlier ++ stage :: later)
    {name binding : String} (construct : stage.construct = .call name binding)
    (complete : forall table, library.load name = .ok table -> table.Complete)
    (known : forall target, target ∈ Binding.written binding ->
      Known header (constructsOf made) target) {rule : Rule} (member : rule ∈ stage.rules) :
    rule.next ∈ header.ends ∨ Serves (tableOf made last header).rules rule.next := by
  rcases drafted.split parts with ⟨begun, _, _, step⟩
  rcases begun.called step construct with ⟨table, exits, loaded, _, resolved, lengths, rules⟩
  have copied := member
  rw [rules] at copied
  rcases Instance.rules_anchored lengths (complete table loaded) copied with exit | serves
  · rcases Binding.mem_written_of_mem_exits resolved exit with default | written
    · have goesOn : stage.after.current = stage.before.implicitState :=
        step.current_of_implicit (by rw [construct]; rfl)
      rw [default, ← goesOn]
      exact Or.inr (drafted.serves_after headed parts)
    · rcases known rule.next written with final | start | jumped
      · exact Or.inl final
      · rw [start]
        exact Or.inr (drafted.serves_standing headed [] made rfl)
      · exact Or.inr (drafted.serves_jump headed jumped)
  · rw [← rules] at serves
    exact Or.inr (serves.mono (fun _ inside => mem_tableOf parts inside))

/-- A source whose modules are complete is read into a complete table. -/
theorem complete (drafted : Drafted library made last) (headed : last.header = some header)
    (complete : forall name binding table, .call name binding ∈ constructsOf made ->
      library.load name = .ok table -> table.Complete)
    (known : forall name binding target, .call name binding ∈ constructsOf made ->
      target ∈ Binding.written binding -> Known header (constructsOf made) target) :
    (tableOf made last header).Complete := by
  refine ⟨drafted.serves_standing headed [] made rfl, ?_⟩
  intro rule member going
  have anchored : rule.next ∈ header.ends ∨
      Serves (tableOf made last header).rules rule.next := by
    rcases List.mem_append.mp member with staged | closing
    · rcases List.mem_flatMap.mp staged with ⟨stage, among, inside⟩
      rcases List.append_of_mem among with ⟨earlier, later, parts⟩
      rcases stage.construct.call_or_simple with ⟨name, binding, construct⟩ | simple
      · have called := Named.mem_constructsOf parts construct
        exact drafted.call_anchored headed parts construct
          (fun table => complete name binding table called)
          (fun target => known name binding target called) inside
      · rcases drafted.split parts with ⟨_, _, _, step⟩
        rw [(step.rule_between simple inside).2]
        exact Or.inr (drafted.serves_after headed parts)
    · rcases List.mem_map.mp closing with ⟨symbol, _, rfl⟩
      exact Or.inl (List.head_mem _)
  exact anchored.resolve_left going

end Drafted

/-- What reading reports is never a chain that dangles, with tables from memory. -/
theorem StoppedAt.ne_dangling {texts : List (String × String)} {error : Error}
    (stopped : StoppedAt (Library.ofTexts texts) last error) (state : StateName)
    (symbol : Symbol) : error ≠ .danglingChain state symbol := by
  rintro rfl
  rcases stopped.origin with ofText | ⟨name, unloaded⟩ | ⟨_, _, _, _, _, _, _, _, same⟩
  · cases ofText
  · cases Library.isOfTable_of_ofTexts unloaded
  · cases same

end Source

namespace Compilation

open Source

/--
Complete modules give programs that never get stuck.  Every module that is called has a
complete table, and every target that is written in a binding is an end state or the
start state of the header or is jumped to somewhere.  Then the compilation does not
fail with a chain that dangles, and the compiled program, on any tape and under any
step limit, is never stuck.
-/
theorem complete_modules_never_stuck {texts : List (String × String)} {text : String}
    (complete : forall name binding table, .call name binding ∈ constructs text ->
      (Library.ofTexts texts).load name = .ok table -> table.Complete)
    (known : forall name binding target, .call name binding ∈ constructs text ->
      target ∈ Binding.written binding ->
        (Exists fun header : Header => header? text = some header ∧
          (target ∈ header.ends ∨ target = header.start)) ∨
        .jump target ∈ constructs text) :
    (forall state symbol,
      compile (Library.ofTexts texts) text ≠ .error (.danglingChain state symbol)) ∧
    forall compilation, compile (Library.ofTexts texts) text = .ok compilation ->
      forall (tape : Tape) (limit : Nat) (state : StateName) (symbol : Symbol),
        (compilation.program.runOn tape limit).1 ≠ .stuck state symbol := by
  have parsedComplete : forall parsed registry,
      parse (Library.ofTexts texts) text = .ok (parsed, registry) -> parsed.Complete := by
    intro parsed registry read
    rcases drafted_of_parse read with ⟨last, header, drafted, headed, found, items, rfl⟩
    rw [← items] at complete known
    apply drafted.complete headed complete
    intro name binding target called written
    rcases known name binding target called written with ⟨other, same, final | start⟩ | jumped
    · rw [found] at same
      cases same
      exact Or.inl final
    · rw [found] at same
      cases same
      exact Or.inr (Or.inl start)
    · exact Or.inr (Or.inr jumped)
  constructor
  · intro state symbol failed
    rcases compile_eq_error failed with ⟨last, stopped⟩ | headless | ⟨parsed, registry, read, chain⟩
    · exact (stopped_of_readAll stopped).ne_dangling state symbol rfl
    · cases headless
    · exact (parsedComplete parsed registry read).collapse_ne_dangling state symbol chain
  · intro compilation compiled tape limit state symbol stuck
    rcases compile_eq_ok_iff.mp compiled with
      ⟨parsed, registry, collapsed, count, read, succeeded, rfl⟩
    have same : parsed.SameRuns (ofCollapsed parsed registry collapsed count).program :=
      .of_passes succeeded
    have stops : (ofCollapsed parsed registry collapsed count).program.StuckAt tape state symbol
        ((ofCollapsed parsed registry collapsed count).program.runOn tape limit).2.here :=
      ⟨limit, _, Prod.ext stuck rfl, rfl⟩
    exact (parsedComplete parsed registry read).not_stuckAt tape state symbol _
      ((same.stuck tape state symbol _).mpr stops)

/-- A source that goes right until its module finds a zero.  The module has a rule for
both symbols, and one of its end states is bound to a name that is jumped to. -/
theorem complete_modules_never_stuck_of_search :
    Exists fun compilation : Compilation =>
      compile (Library.ofTexts [("look", "s zero one\ns 0 zero 0 -\ns 1 one 1 -\n")])
          "A B\n!module look\nagain: > look(one:again)\n" = .ok compilation ∧
        forall (tape : Tape) (limit : Nat) (state : StateName) (symbol : Symbol),
          (compilation.program.runOn tape limit).1 ≠ .stuck state symbol := by
  have cutText : constructs "A B\n!module look\nagain: > look(one:again)\n" =
      [.jump "again", .move .right, .call "look" "one:again"] := by
    decide +kernel
  have onlyCall : forall name binding,
      .call name binding ∈ constructs "A B\n!module look\nagain: > look(one:again)\n" ->
        name = "look" ∧ binding = "one:again" := by
    rw [cutText]
    simp
  have loaded : (Library.ofTexts
      [("look", "s zero one\ns 0 zero 0 -\ns 1 one 1 -\n")]).load "look" =
        .ok ⟨"s", ["zero", "one"],
          [⟨"s", .zero, "zero", .zero, .stay⟩, ⟨"s", .one, "one", .one, .stay⟩]⟩ := rfl
  have read : (parse (Library.ofTexts
      [("look", "s zero one\ns 0 zero 0 -\ns 1 one 1 -\n")])
      "A B\n!module look\nagain: > look(one:again)\n").toOption.map Prod.fst =
        some ⟨"A", ["B"],
          [⟨"A", .zero, "again", .zero, .stay⟩, ⟨"A", .one, "again", .one, .stay⟩,
           ⟨"again", .zero, "0", .zero, .right⟩, ⟨"again", .one, "0", .one, .right⟩,
           ⟨"0", .zero, "look(s_i0)", .zero, .stay⟩, ⟨"0", .one, "look(s_i0)", .one, .stay⟩,
           ⟨"look(s_i0)", .zero, "1", .zero, .stay⟩,
           ⟨"look(s_i0)", .one, "again", .one, .stay⟩,
           ⟨"1", .zero, "B", .zero, .stay⟩, ⟨"1", .one, "B", .one, .stay⟩]⟩ := by
    decide +kernel
  rcases exists_compile read (.cons ⟨1, .taken rfl rfl (.closed rfl)⟩
    (.cons ⟨1, .taken rfl rfl (.closed rfl)⟩ (.cons ⟨0, .closed rfl⟩ (.cons ⟨0, .closed rfl⟩
      (.cons ⟨2, .taken rfl rfl (.taken rfl rfl (.closed rfl))⟩
        (.cons ⟨2, .taken rfl rfl (.taken rfl rfl (.closed rfl))⟩
          (.cons ⟨1, .taken rfl rfl (.closed rfl)⟩ (.cons ⟨1, .taken rfl rfl (.closed rfl)⟩
            (.cons ⟨0, .closed rfl⟩ (.cons ⟨0, .closed rfl⟩ .nil)))))))))) with
    ⟨compilation, compiled, _⟩
  refine ⟨compilation, compiled, ?_⟩
  refine (complete_modules_never_stuck ?_ ?_).2 compilation compiled
  · intro name binding table called found
    rcases onlyCall name binding called with ⟨rfl, rfl⟩
    rw [loaded] at found
    cases found
    decide
  · intro name binding target called written
    rcases onlyCall name binding called with ⟨rfl, rfl⟩
    have bound : Binding.written "one:again" = ["again"] := by decide +kernel
    rw [bound] at written
    rw [List.mem_singleton.mp written, cutText]
    exact Or.inr List.mem_cons_self

end Compilation

end BinaryTape
