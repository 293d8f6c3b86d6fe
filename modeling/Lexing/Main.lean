import Lexing.CommandLine

/-!
# The program

Opens the file or the standard input, and prints the report of `Lexing.CommandLine` on it.
-/

namespace Lexing.Main

open CommandLine

/-- The reason that the operating system gives for an error. -/
def reason : IO.Error → String
  | .noFileOrDirectory _ code details => withCode code details
  | .permissionDenied _ code details => withCode code details
  | .inappropriateType _ code details => withCode code details
  | .invalidArgument _ code details => withCode code details
  | e => toString e
where
  /-- A description with the number of the error. -/
  withCode (code : UInt32) (details : String) : String :=
    details ++ " (os error " ++ code.toNat.repr ++ ")"

/-- Makes reads until one delivers nothing or fails. -/
partial def readAll (stream : IO.FS.Stream) (reads : Array Delivery) : IO (List Delivery) := do
  match ← (stream.read 65536).toBaseIO with
  | .ok chunk =>
    if chunk.isEmpty then return reads.toList
    readAll stream (reads.push (.bytes chunk.toList))
  | .error e => return (reads.push (.failed (reason e))).toList

/-- The stream that the options ask for, or the reason why it cannot be opened. -/
def openStream (o : Options) : IO (Except String IO.FS.Stream) := do
  if o.readsInput then return .ok (← IO.getStdin)
  match ← (IO.FS.Handle.mk o.path .read).toBaseIO with
  | .ok handle => return .ok (.ofHandle handle)
  | .error e => return .error (reason e)

/-- The report on a command. -/
def perform (terminal : Bool) : Option Command → IO Report
  | none => return usageReport
  | some .version => return versionReport
  | some (.scan o) => do
    match ← openStream o with
    | .ok stream => return o.report terminal { reads := ← readAll stream #[] }
    | .error e => return o.openFailure terminal e

end Lexing.Main

/-- Scans a text as the arguments say and prints its tokens. -/
def main (args : List String) : IO UInt32 := do
  let out ← IO.getStdout
  let report ← Lexing.Main.perform (← out.isTty) (Lexing.CommandLine.Command.parse? args)
  out.putStr report.output
  (← IO.getStderr).putStr report.errors
  return report.code.toUInt32
