import Esqh.Qualification.Json
import Esqh.Qualification.Report

/-!
`validation_failure_report`, `report_exit_code`, `render_markdown` and the
dictionary of a report that `json.dumps` writes.
-/

namespace Esqh.Qualification

open Collections

def exitOk : Int := 0

def exitQualificationFailed : Int := 1

def exitInputError : Int := 2

def validationFailureReport (issues : List Issue) (metadata : Option QualificationMetadata) :
    Report :=
  let ordered := sortedBy Issue.orderKey issues
  { baseline := metadata.map QualificationMetadata.baseline
    binaryExitCode := none
    cCases := []
    evidenceScope := hostEvidenceScope
    externalGates := externalGates
    issues := ordered.map Issue.asDict
    project := metadata.map QualificationMetadata.project
    procedures := []
    result := .fail
    schemaVersion := reportSchemaVersion
    summary :=
      { cCasesFailed := 0
        cCasesIncomplete := 0
        cCasesPassed := 0
        cCasesTotal := 0
        issues := ordered.length
        proceduresTotal := 0
        requirementsTotal := 0 }
    traceability := []
    version := metadata.map QualificationMetadata.version }

def reportExitCode (report : Report) (inputError : Bool) : Int :=
  if report.result = .hostPass then exitOk
  else if inputError then exitInputError else exitQualificationFailed

def CaseStatus.text : CaseStatus → Str
  | .pass => str "PASS"
  | .fail => str "FAIL"
  | .incomplete => str "INCOMPLETE"

def ReportResult.text : ReportResult → Str
  | .hostPass => str "HOST_PASS"
  | .fail => str "FAIL"

section Dictionary

def stringsJson (texts : List Str) : Json := .array (texts.map .string)

def optionalJson (text : Option Str) : Json := text.elim .null .string

def countJson (count : Nat) : Json := .int count

def caseJson (row : CCaseRow) : Json :=
  .object
    [(str "id", .string row.id), (str "message", .string row.message),
      (str "name", .string row.name), (str "status", .string row.status.text)]

def issueJson (issue : IssueRecord) : Json :=
  .object
    ([(str "code", .string issue.code), (str "message", .string issue.message)] ++
      (issue.subjectId.map fun subjectId => (str "subject_id", Json.string subjectId)).toList)

def procedureJson (row : ProcedureRow) : Json :=
  .object
    [(str "case_ids", stringsJson row.caseIds), (str "id", .string row.id),
      (str "requirement_ids", stringsJson row.requirementIds),
      (str "status", .string row.status.text), (str "title", .string row.title),
      (str "verification_method", .string row.verificationMethod)]

def traceabilityJson (row : TraceabilityRow) : Json :=
  .object
    [(str "case_ids", stringsJson row.caseIds),
      (str "procedure_ids", stringsJson row.procedureIds),
      (str "requirement_id", .string row.requirementId),
      (str "status", .string row.status.text), (str "title", .string row.title)]

def externalGatesJson (gates : ExternalGates) : Json :=
  .object
    [(str "arm_inspection", .object
      [(str "note", .string gates.armInspection.note),
        (str "requirement_ids", stringsJson gates.armInspection.requirementIds),
        (str "status", .string gates.armInspection.status)])]

def summaryJson (summary : Summary) : Json :=
  .object
    [(str "c_cases_failed", countJson summary.cCasesFailed),
      (str "c_cases_incomplete", countJson summary.cCasesIncomplete),
      (str "c_cases_passed", countJson summary.cCasesPassed),
      (str "c_cases_total", countJson summary.cCasesTotal),
      (str "issues", countJson summary.issues),
      (str "procedures_total", countJson summary.proceduresTotal),
      (str "requirements_total", countJson summary.requirementsTotal)]

def reportJson (report : Report) : Json :=
  .object
    [(str "baseline", optionalJson report.baseline),
      (str "binary_exit_code", report.binaryExitCode.elim .null .int),
      (str "c_cases", .array (report.cCases.map caseJson)),
      (str "evidence_scope", .string report.evidenceScope),
      (str "external_gates", externalGatesJson report.externalGates),
      (str "issues", .array (report.issues.map issueJson)),
      (str "project", optionalJson report.project),
      (str "procedures", .array (report.procedures.map procedureJson)),
      (str "result", .string report.result.text),
      (str "schema_version", countJson report.schemaVersion),
      (str "summary", summaryJson report.summary),
      (str "traceability", .array (report.traceability.map traceabilityJson)),
      (str "version", optionalJson report.version)]

end Dictionary

section Markdown

/-- A text, or what stands for an empty one. -/
def orElse (text : Str) (other : String) : Str := if text = [] then str other else text

def orUnavailable (text : Option Str) : Str := orElse (text.getD []) "Unavailable"

def countLine (label : String) (count : Nat) : Str :=
  str "- " ++ str label ++ str ": " ++ intText count

def tableRow (cells : List Str) : Str := str "| " ++ join (str " | ") cells ++ str " |"

/-- A table cell: no column ends and no line ends. -/
def safeCell (text : Str) : Str := replace lineFeed (str " ") (replace 124 (str "\\|") text)

def traceabilityLine (row : TraceabilityRow) : Str :=
  tableRow
    [row.requirementId, orElse (join (str ", ") row.procedureIds) "—",
      orElse (join (str ", ") row.caseIds) "—", row.status.text]

def procedureLine (row : ProcedureRow) : Str :=
  tableRow
    [row.id, row.verificationMethod, join (str ", ") row.requirementIds,
      join (str ", ") row.caseIds, row.status.text]

def caseLine (row : CCaseRow) : Str :=
  tableRow [row.id, safeCell row.name, row.status.text, safeCell row.message]

def issueLine (issue : IssueRecord) : Str :=
  let subject :=
    match issue.subjectId with
    | some subjectId => if subjectId = [] then [] else str " (" ++ subjectId ++ str ")"
    | none => []
  str "- `" ++ issue.code ++ str "`" ++ subject ++ str ": " ++ issue.message

/-- The lines of a table or list, or one that stands for an empty one. -/
def linesOr {α : Type} (line : α → Str) (rows : List α) (other : String) : List Str :=
  if rows.isEmpty then [str other] else rows.map line

def markdownLines (report : Report) : List Str :=
  let summary := report.summary
  let armGate := report.externalGates.armInspection
  [str "# Host-Executable Qualification Report",
    str "",
    str "**Host-only result:** " ++ report.result.text,
    str "",
    str "**Evidence scope:** " ++ report.evidenceScope,
    str "",
    str "## Configuration Identity",
    str "",
    str "- Project: " ++ orUnavailable report.project,
    str "- Version: " ++ orUnavailable report.version,
    str "- Baseline: " ++ orUnavailable report.baseline,
    str "- Captured binary exit code: " ++
      (report.binaryExitCode.elim (str "Unavailable") intText),
    str "",
    str "## External Gates",
    str "",
    str "- **ARM inspection — " ++ armGate.status ++ str ":** " ++ armGate.note,
    str "",
    str "## Summary",
    str "",
    countLine "Requirements" summary.requirementsTotal,
    countLine "Procedures" summary.proceduresTotal,
    countLine "C cases" summary.cCasesTotal,
    countLine "Passed C cases" summary.cCasesPassed,
    countLine "Failed C cases" summary.cCasesFailed,
    countLine "Incomplete C cases" summary.cCasesIncomplete,
    countLine "Findings" summary.issues,
    str "",
    str "## Host Case Traceability",
    str "",
    str "| Requirement | Procedures | C cases | Host case status |",
    str "|---|---|---|---|"] ++
  linesOr traceabilityLine report.traceability "| — | — | — | INCOMPLETE |" ++
  [str "",
    str "## Host Qualification Procedures",
    str "",
    str "| Procedure | Verification method | Requirements | C cases | Host case status |",
    str "|---|---|---|---|---|"] ++
  linesOr procedureLine report.procedures "| — | — | — | — | INCOMPLETE |" ++
  [str "",
    str "## C Test Results",
    str "",
    str "| Case | Name | Status | Message |",
    str "|---|---|---|---|"] ++
  linesOr caseLine report.cCases "| — | — | INCOMPLETE | No C results available |" ++
  [str "", str "## Findings", str ""] ++
  linesOr issueLine report.issues "- None."

def renderMarkdown (report : Report) : Str :=
  join (str "\n") (markdownLines report) ++ str "\n"

end Markdown

end Esqh.Qualification
