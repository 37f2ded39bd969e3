/-!
# Runtime switches

Switches are command line arguments of the form `--name` or `--name=value`. Two names are known;
the values do not matter.
-/

namespace SettingsRelay

structure Switches where
  allowRunningInsecureContent : Bool := false
  noDisplayingInsecureContent : Bool := false
deriving DecidableEq, Repr

namespace Switches

def allowRunningName : String := "allow-running-insecure-content"

def noDisplayingName : String := "no-displaying-insecure-content"

/-- The argument after its two dashes. -/
def afterDashes? (argument : String) : Option (List Char) :=
  match argument.toList with
  | '-' :: '-' :: rest => some rest
  | _ => none

/-- The name of a switch: what stands between its dashes and the first equals sign. -/
def name? (argument : String) : Option String :=
  (afterDashes? argument).map fun rest => String.ofList (rest.takeWhile (· ≠ '='))

/-- The switches after one more argument, if that is a known switch. -/
def recognize? (s : Switches) (argument : String) : Option Switches :=
  match name? argument with
  | none => none
  | some name =>
    if name = allowRunningName then some { s with allowRunningInsecureContent := true }
    else if name = noDisplayingName then some { s with noDisplayingInsecureContent := true }
    else none

/-- The switches of a command line. Arguments that are not known switches are passed over. -/
def ofArguments (arguments : List String) : Switches :=
  arguments.foldl (fun s argument => (s.recognize? argument).getD s) {}

def addStrictly (s : Switches) : List String → Except String Switches
  | [] => .ok s
  | argument :: rest =>
    match s.recognize? argument with
    | some s => addStrictly s rest
    | none =>
      if (afterDashes? argument).isSome then .error argument else addStrictly s rest

/-- The switches of a command line, or the first argument with dashes that is not a known switch.
-/
def ofArgumentsStrict (arguments : List String) : Except String Switches :=
  addStrictly {} arguments

end Switches

end SettingsRelay
