import Reconciler.Command.Answer

/-! The command line: reads the input, prints the answer and sets the exit code. -/

namespace Reconciler.Command

def faultOfError : IO.Error → FileFault
  | .noFileOrDirectory .. => .missing
  | .permissionDenied .. => .denied
  | .inappropriateType _ code _ => if code = 20 then .noDirectory else .directory
  | .invalidArgument .. => .longName
  | _ => .noText

def readInput (r : Request) : IO (Except Failure String) := do
  match r.file with
  | none => return .ok (← (← IO.getStdin).readToEnd)
  | some path =>
    try return .ok (← IO.FS.readFile path)
    catch e => return .error (unreadable path (faultOfError e))

def readEnvironment : IO (String → Option String) := do
  let names := ["FNRT_FOR", "FNRT_OWNS", "FNRT_WATCH"]
  let values ← names.mapM fun name => return (name, ← IO.getEnv name)
  return fun name => (values.lookup name).join

def usageText : String :=
  "usage: (inspect | run) [FILE] [-o human|json] [--for CLASS] [--owns CLASS[=KIND],...] [--watch CLASS,...]"

end Reconciler.Command

open Reconciler.Command in
def main (args : List String) : IO UInt32 := do
  match Request.parse (← readEnvironment) args with
  | .error usage =>
    (if usage = .asked then IO.println usageText else IO.eprintln usageText)
    return usage.exitCode.toUInt32
  | .ok request =>
    let answer := request.answer (← readInput request)
    IO.print answer.text
    match answer.failure with
    | none => return 0
    | some failure =>
      IO.eprintln s!"Error: {failure.line}"
      return 1
