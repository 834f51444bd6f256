import CopyTrial.IoError
import CopyTrial.Json.Cause

/-!
# Failures

Why a command could not be carried out, or came to a bad end.

## Main definitions

* `Failure`, `Failure.message` — the failures and their wording.
* `Failure.exitCode` — the exit code that a command ends with.
-/

set_option autoImplicit false

namespace CopyTrial

/-- Why a command could not be carried out, or came to a bad end. -/
inductive Failure where
  /-- A fixture or a report could not be read or written. -/
  | io (error : IoError)
  /-- A document is not what it should be. -/
  | json (error : Json.Error)
  | unknownPrimitive (raw : String)
  | invalidFill (raw : String)
  | logNotOpened (path : String) (error : IoError)
  | noFixtures (path : String)
  /-- So many results of all were not the expected ones. -/
  | unexpectedResults (failed total : UInt64)
  /-- The log or the output could not be used. -/
  | stream (error : IoError)
  /-- A log breaks the rules so many times in so many lines. -/
  | violations (count lines : Nat) (path : String)

namespace Failure

/-- The wording of a failure. -/
def message : Failure → String
  | .io error => "io: " ++ error.message
  | .json error => "json: " ++ error.message
  | .unknownPrimitive raw =>
    "unknown primitive '" ++ raw ++ "', expected reference|wordwise|noop|truncate:<n>|extern"
  | .invalidFill raw =>
    "invalid fill byte '" ++ raw ++ "', expected 0..=255 in decimal or 0x.. hex"
  | .logNotOpened path error => "cannot open log " ++ path ++ ": " ++ error.message
  | .noFixtures path => "no scenario fixtures found in " ++ path
  | .unexpectedResults failed total =>
    Nat.repr failed.toNat ++ " of " ++ Nat.repr total.toNat ++
      " scenario(s) did not behave as expected"
  | .stream error => error.message
  | .violations count lines path =>
    Nat.repr count ++ " violation(s) in " ++ Nat.repr lines ++ " line(s) of " ++ path

/-- Results that were not expected are a verdict, with exit code 1; every other failure has exit
code 2. -/
def exitCode : Failure → UInt8
  | .unexpectedResults .. => 1
  | _ => 2

end Failure

end CopyTrial
