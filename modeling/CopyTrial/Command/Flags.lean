/-!
# Flags

The arguments after the name of a command are flags with a value each, `--name value` or
`--name=value`. A flag is given at most once.

## Main definitions

* `Flag` — a flag that a command knows.
* `readFlags` — the values given, or nothing if the arguments cannot be understood.
-/

set_option autoImplicit false

namespace CopyTrial

/-- A flag that a command knows. -/
structure Flag where
  name : String
  /-- The value is a path, which is never empty. -/
  isPath : Bool := false
  deriving DecidableEq, Repr

/-- The name of a flag, and the value after an equals sign if there is one. -/
def splitFlag? (arg : String) : Option (String × Option String) :=
  match arg.toList with
  | '-' :: '-' :: body =>
    let name := String.ofList (body.takeWhile (· ≠ '='))
    match body.dropWhile (· ≠ '=') with
    | [] => some (name, none)
    | _ :: value => some (name, some (String.ofList value))
  | _ => none

/-- Whether an argument of its own can be the value of a flag: it starts with no dash, unless it is
a lone one. -/
def canBeValue (arg : String) : Bool :=
  match arg.toList with
  | '-' :: _ :: _ => false
  | _ => true

/-- Adds a value to those given, if the flag is known, not given yet, and may have the value. -/
def giveFlag? (flags : List Flag) (given : List (String × String)) (name value : String) :
    Option (List (String × String)) :=
  match flags.find? (·.name = name) with
  | none => none
  | some flag =>
    if (given.lookup name).isSome || (flag.isPath && value = "") then none
    else some ((name, value) :: given)

/-- Reads arguments after values that are given already. -/
def readFlagsAfter (flags : List Flag) (given : List (String × String)) :
    List String → Option (List (String × String))
  | [] => some given
  | arg :: rest =>
    if arg = "--" then
      if rest.isEmpty then some given else none
    else
      match splitFlag? arg, rest with
      | none, _ => none
      | some (name, some value), rest => do
        let given ← giveFlag? flags given name value
        readFlagsAfter flags given rest
      | some (_, none), [] => none
      | some (name, none), value :: rest =>
        if canBeValue value then do
          let given ← giveFlag? flags given name value
          readFlagsAfter flags given rest
        else none

/-- The values given for flags. Two dashes alone may end the arguments. -/
def readFlags (flags : List Flag) (args : List String) : Option (List (String × String)) :=
  readFlagsAfter flags [] args

end CopyTrial
