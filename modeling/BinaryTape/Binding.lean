import BinaryTape.Error
import BinaryTape.Module

namespace BinaryTape

/-!
# Bindings

A binding says at which state of the caller each end state of a called module
continues.  It is written in one of three forms:

* nothing, by which every end state continues at the default state;
* a single bare token, `target` for a module with one end state or `!target` for
  all end states at once;
* tokens `end:target`, by which the named end states continue at their targets
  and all others at the default state.  A name that is no end state is ignored,
  and of two targets for one name the first counts.
-/

namespace Binding

/-- A target as it is, provided that there is one. -/
def nonEmpty (target : List Char) (binding : String) : Except Error StateName :=
  if target.isEmpty then .error (.emptyTarget binding)
  else .ok (String.ofList target)

def explicitTarget (binding token : String) : Except Error (StateName × StateName) :=
  match Text.splitAtFirst ':' token.toList with
  | (_, none) => .error (.bareTargetAmongOthers binding)
  | (ending, some target) =>
      (nonEmpty target binding).map (fun target => (String.ofList ending, target))

/-- The exits that a list of bare tokens, none of them with a colon, determines. -/
def bareExits (declared : Module) (binding : String) (tokens : List String) :
    Except Error (List StateName) :=
  match tokens with
  | [token] =>
      match token.toList with
      | '!' :: target =>
          (nonEmpty target binding).map (List.replicate declared.ends.length)
      | _ =>
          if 1 < declared.ends.length then
            .error (.ambiguousBareTarget declared.name binding)
          else .ok [token]
  | _ => .error (.bareTargetAmongOthers binding)

/-- The exit of one end state under explicit targets. -/
def explicitExit (declared : Module) (targets : List (StateName × StateName))
    (default ending : StateName) : StateName :=
  let written := (declared.localName? ending).getD ending
  (targets.lookup written).getD default

/--
The state at which each end state of a module continues, in the order of the end
states.  `binding` is the text between the parentheses of the call, and empty
for a call without them.
-/
def exits (declared : Module) (binding : String) (default : StateName) :
    Except Error (List StateName) :=
  let tokens := Text.words binding
  if tokens.isEmpty then .ok (List.replicate declared.ends.length default)
  else if tokens.any (fun token => token.toList.contains ':') then do
    let targets <- tokens.mapM (explicitTarget binding)
    return declared.ends.map (explicitExit declared targets default)
  else bareExits declared binding tokens

end Binding

end BinaryTape
