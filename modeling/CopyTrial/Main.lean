import CopyTrial.Command.Perform
import Std.Time.DateTime.Timestamp

/-!
# The program

The commands on the machine that the program runs on. Under the name `memcpy-check` the program
takes no command and only tries the external primitive.
-/

set_option autoImplicit false

namespace CopyTrial

/-- Whether the system reports an error by its number, or by the negative of it. -/
def isNumbered (code number : UInt32) : Bool := code = number || code = -number

/-- The cause of an error of the system. -/
def IoError.ofSystem : IO.Error → IoError
  | .noFileOrDirectory .. => .notFound
  | .alreadyExists .. => .alreadyExists
  | e@(.inappropriateType _ code _) =>
    if isNumbered code 20 then .notDirectory
    else if isNumbered code 21 then .isDirectory
    else .other (toString e)
  | e@(.invalidArgument _ code details) =>
    if isNumbered code 36 then .nameTooLong
    else if details = "string contains NUL bytes" then .zeroInName
    else .other (toString e)
  | e => .other (toString e)

/-- An action whose errors are kept as causes. -/
def attemptAction {α : Type} (action : IO α) : ExceptT IoError IO α :=
  ExceptT.mk (tryCatch (Except.ok <$> action) fun e => pure (.error (.ofSystem e)))

/-- An answer that is no if there is an error. -/
def askAction (action : IO Bool) : IO Bool := tryCatch action fun _ => pure false

/-- The bytes of a list in one piece. -/
def packed (bytes : Bytes) : ByteArray := ⟨bytes.toArray⟩

instance : Host IO where
  wallClock := do
    let now ← Std.Time.Timestamp.now
    let since := now.toDurationSinceUnixEpoch
    pure ⟨since.second.val, since.nano.val.toNat⟩
  stopwatch := do
    let nanos ← IO.monoNanosNow
    pure nanos
  readFile path := attemptAction do
    let content ← IO.FS.readBinFile path
    pure content.data.toList
  isFile path := askAction do
    let here ← IO.currentDir
    let metadata ← { here with toString := path }.metadata
    pure (metadata.type == .file)
  isDirectory path := askAction do
    let here ← IO.currentDir
    { here with toString := path }.isDir
  listDirectory path := attemptAction do
    let here ← IO.currentDir
    let entries ← { here with toString := path }.readDir
    pure (entries.toList.map fun entry => entry.fileName)
  makeDirectory path := attemptAction (IO.FS.createDir path)
  createFile path := attemptAction (IO.FS.writeBinFile path .empty)
  appendFile path bytes := attemptAction do
    IO.FS.withFile path .append fun handle => handle.write (packed bytes)
  print bytes := attemptAction do
    let out ← IO.getStdout
    out.write (packed bytes)
    out.flush
  warn message := do
    let messages ← IO.getStderr
    messages.putStr message
  processId := do
    let status ← IO.FS.readFile "/proc/self/stat"
    pure ((String.ofList (status.toList.takeWhile Char.isDigit)).toNat?.getD 0)

/-- Carries out what the arguments ask for. -/
def runProgram (args : List String) : IO UInt8 := do
  if (← IO.appPath).fileName == some "memcpy-check" then usualCheck
  else
    match Command.ofArguments? args with
    | some command => command.perform (← IO.getEnv logVariable)
    | none =>
      Host.warn "error: cannot understand the arguments\n"
      pure 2

end CopyTrial

/-- The program. -/
def main (args : List String) : IO UInt32 := do
  let code ← CopyTrial.runProgram args
  pure code.toUInt32
