import Esqh.Qualification.ReportText

/-!
`tools/qualification_runner.py` and `tools/traceability_check.py`: what their
processes print and how they end. The command line of the runner is what argparse
makes of its words: options with their values, in order.
-/

namespace Esqh.Qualification

open Outcome Utf8

/-- Why argparse ends the process. -/
inductive ParserExit where
  | help
  | usageError (message : Str)

/-- What ends a process: the value of `main`, the argument parser, or an exception
that nothing handles. -/
inductive Ending where
  | returned (code : Int)
  | exited (reason : ParserExit)
  | uncaught (raised : Raised)

def Ending.status : Ending → Int
  | .returned code => code
  | .exited .help => 0
  | .exited (.usageError _) => 2
  | .uncaught _ => 1

/-- What the parser depends on: its texts, wrapped to the terminal, Python's
conversions and the files under the default paths. A number of seconds is kept
as it prints. -/
structure Surroundings where
  program : Str
  usage : Str
  help : Str
  int : Str → Option Int
  float : Str → Option Str
  repr : Str → Str
  requirements : InputFile
  procedures : InputFile

/-- What argparse finds on the command line, in the order in which it takes it. A
path stands for what it names, the two output paths for the files of the disk. An
option without its value or with an ambiguous name is refused. -/
inductive Occurrence where
  | help
  | binary (binary : Binary)
  | cResults (file : InputFile)
  | binaryExitCode (text : Str)
  | requirements (file : InputFile)
  | procedures (file : InputFile)
  | output
  | timeout (text : Str)
  | refused (message : Str)
  | unrecognized (argument : Str)

structure Arguments where
  binary : Option Binary
  cResults : Option InputFile
  binaryExitCode : Option Int
  requirements : InputFile
  procedures : InputFile
  timeout : Str
  unrecognized : List Str

section Arguments

variable (surroundings : Surroundings)

def usageError {α : Type} (message : Str) : Except ParserExit α := .error (.usageError message)

/-- The action of one option. Its value is converted before it is compared with
the other option of the exclusive group. -/
def Arguments.take (arguments : Arguments) : Occurrence → Except ParserExit Arguments
  | .help => .error .help
  | .binary binary =>
    if arguments.cResults.isSome then
      usageError (str "argument --binary: not allowed with argument --c-results")
    else .ok { arguments with binary := some binary }
  | .cResults file =>
    if arguments.binary.isSome then
      usageError (str "argument --c-results: not allowed with argument --binary")
    else .ok { arguments with cResults := some file }
  | .binaryExitCode text =>
    match surroundings.int text with
    | some exitCode => .ok { arguments with binaryExitCode := some exitCode }
    | none =>
      usageError (str "argument --binary-exit-code: invalid int value: " ++ surroundings.repr text)
  | .requirements file => .ok { arguments with requirements := file }
  | .procedures file => .ok { arguments with procedures := file }
  | .output => .ok arguments
  | .timeout text =>
    match surroundings.float text with
    | some seconds => .ok { arguments with timeout := seconds }
    | none => usageError (str "argument --timeout: invalid float value: " ++ surroundings.repr text)
  | .refused message => usageError message
  | .unrecognized argument =>
    .ok { arguments with unrecognized := arguments.unrecognized ++ [argument] }

/-- What is checked once all options are taken, first by argparse. -/
def Arguments.request (arguments : Arguments) : Except ParserExit Request :=
  if arguments.binary.isNone ∧ arguments.cResults.isNone then
    usageError (str "one of the arguments --binary --c-results is required")
  else if arguments.unrecognized ≠ [] then
    usageError (str "unrecognized arguments: " ++ join (str " ") arguments.unrecognized)
  else if arguments.binary.isSome ∧ arguments.binaryExitCode.isSome then
    usageError (str "--binary-exit-code is valid only with --c-results")
  else if arguments.binaryExitCode.any (· < 0) then
    usageError (str "--binary-exit-code must be a non-negative integer")
  else
    .ok
      { binary := arguments.binary
        cResults := arguments.cResults
        binaryExitCode := .int (arguments.binaryExitCode.getD 0)
        requirements := arguments.requirements
        procedures := arguments.procedures
        timeoutSeconds := arguments.timeout }

end Arguments

section Main

variable (runtime : Runtime) (surroundings : Surroundings)

/-- The line that the traceability check prints for an issue. -/
def Issue.line (issue : Issue) : Str :=
  let subject := if issue.subjectId = [] then [] else str " [" ++ issue.subjectId ++ str "]"
  issue.code ++ subject ++ str ": " ++ issue.message ++ str "\n"

end Main

section Parsing

variable {surroundings : Surroundings}

/-- The option is taken, unless one before it excludes it. -/
def Occurrence.Accepted (surroundings : Surroundings) : Occurrence → Prop
  | .help => False
  | .binaryExitCode text => (surroundings.int text).isSome
  | .timeout text => (surroundings.float text).isSome
  | .refused _ => False
  | .unrecognized _ => False
  | _ => True

end Parsing

section Lines

end Lines

section Runs

variable {runtime : Runtime} {request : Request} {disk written : Disk} {exitCode : Int}
  {report : Report}

end Runs

end Esqh.Qualification
