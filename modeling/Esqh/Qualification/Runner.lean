import Esqh.Qualification.Loaders
import Esqh.Qualification.Rendering

/-!
`run_qualification` and `check_traceability` of `tools/qualification.py`, with
the files they read and the reports that the first one writes. Both output paths
are writable and differ from each other and from the inputs.
-/

namespace Esqh.Qualification

open Batch Utf8

/-- An exception: the one that is handled, or one that escapes. -/
inductive Raised where
  | inputValidationError (rejection : Rejection)
  | unicodeDecodeError
  | unicodeEncodeError
  | other (exception : Str)

def checked {α : Type} (outcome : Checked α) : Except Raised α :=
  outcome.mapError .inputValidationError

def reject {α : Type} (issue : Issue) : Except Raised α := checked (refuse issue)

/-- An input file: its bytes, or the `OSError` of reading it. -/
structure InputFile where
  name : Str
  content : Except Str (List Byte)

/-- What `subprocess.run` finds of the test binary. One that ends has written
bytes to two pipes, which are decoded in a UTF-8 locale. -/
inductive BinaryOutcome where
  | fileNotFoundError
  | permissionError
  | timeoutExpired
  | raises (exception : Str)
  | completed (stdout stderr : List Byte) (returncode : Int)

structure Binary where
  path : Str
  name : Str
  outcome : BinaryOutcome

/-- The captured exit code as Python types it. -/
inductive CapturedExitCode where
  | int (value : Int)
  | bool (value : Bool)

/-- The arguments of a run. The timeout is given as it prints. -/
structure Request where
  binary : Option Binary
  cResults : Option InputFile
  binaryExitCode : CapturedExitCode
  requirements : InputFile
  procedures : InputFile
  timeoutSeconds : Str

variable (runtime : Runtime)

section Loading

def inputUnreadable (kind error name : Str) : Issue :=
  { code := str "INPUT_UNREADABLE"
    message := str "Unable to read " ++ kind ++ str " file: " ++ error
    subjectId := name }

def invalidJson (kind name : Str) (lineno colno : Nat) : Issue :=
  { code := str "INVALID_JSON"
    message := runtime.capitalize kind ++ str " file is not valid JSON at line " ++
      intText lineno ++ str ", column " ++ intText colno ++ str "."
    subjectId := name }

def loadJson (file : InputFile) (kind : Str) : Except Raised Json :=
  match file.content with
  | .error error => reject (inputUnreadable kind error file.name)
  | .ok bytes =>
    match decode bytes with
    | none => .error .unicodeDecodeError
    | some text =>
      match runtime.loads (universalNewlines text) with
      | .ok document => .ok document
      | .error (.jsonDecodeError lineno colno) =>
        reject (invalidJson runtime kind file.name lineno colno)
      | .error (.other exception) => .error (.other exception)

def loadRequirements (file : InputFile) : Except Raised (List Requirement) := do
  let document ← loadJson runtime file (str "requirements")
  checked (requirementsOf runtime document)

def loadProcedures (file : InputFile) : Except Raised (List Procedure) := do
  let document ← loadJson runtime file (str "test procedures")
  checked (proceduresOf runtime document)

def binaryIssue (binary : Binary) (code : String) (message : Str) : Issue :=
  { code := str code, message := message, subjectId := binary.name }

def executeCBinary (binary : Binary) (timeoutSeconds : Str) : Except Raised (Json × Int) :=
  match binary.outcome with
  | .fileNotFoundError =>
    reject (binaryIssue binary "BINARY_NOT_FOUND"
      (str "C test binary was not found: " ++ binary.path))
  | .permissionError =>
    reject (binaryIssue binary "BINARY_NOT_EXECUTABLE"
      (str "C test binary is not executable: " ++ binary.path))
  | .timeoutExpired =>
    reject (binaryIssue binary "BINARY_TIMEOUT"
      (str "C test binary exceeded the " ++ timeoutSeconds ++ str "-second timeout."))
  | .raises exception => .error (.other exception)
  | .completed stdoutBytes stderrBytes returncode =>
    match decode stdoutBytes, decode stderrBytes with
    | some stdout, some stderr =>
      match runtime.loads (universalNewlines stdout) with
      | .ok document => .ok (document, returncode)
      | .error (.jsonDecodeError _ _) =>
        let stderr := strip (universalNewlines stderr)
        let detail := if stderr = [] then [] else str " Stderr: " ++ stderr
        reject (binaryIssue binary "INVALID_C_JSON"
          (str "C test binary did not emit one valid JSON document on stdout." ++ detail))
      | .error (.other exception) => .error (.other exception)
    | _, _ => .error .unicodeDecodeError

end Loading

section Gathering

def resultSourceCount : Issue :=
  { code := str "INVALID_RESULT_SOURCE"
    message := str "Exactly one C result source is required: binary or c-results." }

def invalidExitCode : Issue :=
  { code := str "INVALID_BINARY_EXIT_CODE"
    message := str "Captured binary exit code must be a non-negative integer." }

def exitCodeWithBinary : Issue :=
  { code := str "INVALID_RESULT_SOURCE"
    message := str "A captured binary exit code is valid only with c-results." }

def CapturedExitCode.check : CapturedExitCode → Checked Int
  | .int value => if value < 0 then refuse invalidExitCode else .ok value
  | .bool _ => refuse invalidExitCode

/-- Where the results come from. -/
inductive ResultSource where
  | binary (binary : Binary)
  | captured (file : InputFile) (exitCode : Int)

def Request.resultSource (request : Request) : Checked ResultSource :=
  match request.binary, request.cResults with
  | some binary, none => do
      let exitCode ← request.binaryExitCode.check
      if exitCode ≠ 0 then refuse exitCodeWithBinary else pure (.binary binary)
  | none, some file => do
      let exitCode ← request.binaryExitCode.check
      pure (.captured file exitCode)
  | _, _ => refuse resultSourceCount

def readResults (source : ResultSource) (timeoutSeconds : Str) : Except Raised (Json × Int) :=
  match source with
  | .binary binary => executeCBinary runtime binary timeoutSeconds
  | .captured file exitCode => do
      let document ← loadJson runtime file (str "C test results")
      pure (document, exitCode)

/-- What a report is built from. -/
structure Evidence where
  metadata : QualificationMetadata
  requirements : List Requirement
  procedures : List Procedure
  cCases : List CCaseResult
  observedExitCode : Int

/-- An exception, with the metadata that is known when it is raised. -/
abbrev Failure := Option QualificationMetadata × Raised

def during {α : Type} (metadata : Option QualificationMetadata) (outcome : Except Raised α) :
    Except Failure α :=
  outcome.mapError fun raised => (metadata, raised)

/-- The body of the `try` statement. -/
def gatherEvidence (request : Request) : Except Failure Evidence := do
  let source ← during none (checked request.resultSource)
  let requirementsDocument ←
    during none (loadJson runtime request.requirements (str "requirements"))
  let requirementsMetadata ← during none
    (checked (documentMetadata runtime requirementsDocument (str "requirements")))
  let known := some requirementsMetadata
  let proceduresDocument ← during known
    (loadJson runtime request.procedures (str "test procedures"))
  let proceduresMetadata ← during known
    (checked (documentMetadata runtime proceduresDocument (str "test procedures")))
  let metadata ← during known (checked (validateMatchingMetadata runtime
    [(str "requirements", requirementsMetadata), (str "test procedures", proceduresMetadata)]))
  let known := some metadata
  let requirements ← during known (loadRequirements runtime request.requirements)
  let procedures ← during known (loadProcedures runtime request.procedures)
  let (cDocument, observedExitCode) ← during known
    (readResults runtime source request.timeoutSeconds)
  let cMetadata ← during known
    (checked (documentMetadata runtime cDocument (str "C test results")))
  let metadata ← during known (checked (validateMatchingMetadata runtime
    [(str "requirements", requirementsMetadata), (str "test procedures", proceduresMetadata),
      (str "C test results", cMetadata)]))
  let cCases ← during (some metadata) (checked (parseCResults runtime cDocument))
  pure
    { metadata := metadata
      requirements := requirements
      procedures := procedures
      cCases := cCases
      observedExitCode := observedExitCode }

end Gathering

section Writing

/-- The two output files, if they exist. -/
structure Disk where
  jsonOutput : Option (List Byte)
  markdownOutput : Option (List Byte)

def jsonText (report : Report) : Str := Json.dumps (reportJson report) ++ str "\n"

/-- Opening a file for writing empties it, also when its text is not encoded. -/
def writeTexts (json markdown : Str) (disk : Disk) : Except Raised Unit × Disk :=
  match encode json with
  | none => (.error .unicodeEncodeError, { disk with jsonOutput := some [] })
  | some bytes =>
    let disk := { disk with jsonOutput := some bytes }
    match encode markdown with
    | none => (.error .unicodeEncodeError, { disk with markdownOutput := some [] })
    | some bytes => (.ok (), { disk with markdownOutput := some bytes })

/-- `json.dumps` comes first, so that an exit code that does not format leaves
both files as they are. -/
def writeReports (report : Report) (disk : Disk) : Except Raised Unit × Disk :=
  if ∀ exitCode ∈ report.binaryExitCode, Formats exitCode then
    writeTexts (jsonText report) (renderMarkdown report) disk
  else (.error (.other valueError), disk)

/-- Returns an exit code and a report once the report is written. -/
def publish (exitCode : Int) (report : Report) (disk : Disk) :
    Except Raised (Int × Report) × Disk :=
  let (outcome, disk) := writeReports report disk
  (outcome.map fun _ => (exitCode, report), disk)

/-- The report of the evidence, if its exit code formats. -/
def Evidence.report (evidence : Evidence) : Report :=
  reportDictionary evidence.requirements evidence.procedures evidence.cCases evidence.metadata
    evidence.observedExitCode []

def Evidence.built (evidence : Evidence) : Except Str Report :=
  buildReport evidence.requirements evidence.procedures evidence.cCases evidence.metadata
    evidence.observedExitCode []

def runQualification (request : Request) (disk : Disk) :
    Except Raised (Int × Report) × Disk :=
  match gatherEvidence runtime request with
  | .error (metadata, .inputValidationError rejection) =>
    publish exitInputError (validationFailureReport rejection.findings metadata) disk
  | .error (_, raised) => (.error raised, disk)
  | .ok evidence =>
    match evidence.built with
    | .error exception => (.error (.other exception), disk)
    | .ok report => publish (reportExitCode report false) report disk

end Writing

def checkTraceability (requirementsFile proceduresFile cResultsFile : InputFile) :
    Except Raised (List Issue) := do
  let requirementsDocument ← loadJson runtime requirementsFile (str "requirements")
  let proceduresDocument ← loadJson runtime proceduresFile (str "test procedures")
  let cDocument ← loadJson runtime cResultsFile (str "C test results")
  let requirementsMetadata ← checked
    (documentMetadata runtime requirementsDocument (str "requirements"))
  let proceduresMetadata ← checked
    (documentMetadata runtime proceduresDocument (str "test procedures"))
  let cMetadata ← checked (documentMetadata runtime cDocument (str "C test results"))
  let _ ← checked (validateMatchingMetadata runtime
    [(str "requirements", requirementsMetadata), (str "test procedures", proceduresMetadata),
      (str "C test results", cMetadata)])
  let requirements ← loadRequirements runtime requirementsFile
  let procedures ← loadProcedures runtime proceduresFile
  let cCases ← checked (parseCResults runtime cDocument)
  pure (traceabilityIssues requirements procedures cCases)

end Esqh.Qualification
