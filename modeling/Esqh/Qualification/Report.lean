import Esqh.Library.Collections
import Esqh.Qualification.Types
import Mathlib.Data.Finset.Insert

/-!
`traceability_issues`, `_procedure_status` and `build_report` of
`tools/qualification.py`. Sets of identifiers are finite sets where only
membership counts and lists without repetition where they are sorted.
-/

namespace Esqh.Qualification

open Collections

section Findings

variable (procedure : Procedure)

def unknownRequirement (requirementId : Str) : Issue :=
  { code := str "UNKNOWN_REQUIREMENT"
    message := str "Procedure '" ++ procedure.identifier ++
      str "' references unknown requirement '" ++ requirementId ++ str "'."
    subjectId := procedure.identifier }

def verificationMethodMismatch (requirementId : Str) : Issue :=
  { code := str "VERIFICATION_METHOD_MISMATCH"
    message := str "Procedure '" ++ procedure.identifier ++ str "' method '" ++
      procedure.verificationMethod ++ str "' is not permitted by requirement '" ++
      requirementId ++ str "'."
    subjectId := procedure.identifier }

def missingCCase (caseId : Str) : Issue :=
  { code := str "MISSING_C_CASE"
    message := str "Procedure '" ++ procedure.identifier ++ str "' references C case '" ++
      caseId ++ str "', but it was not returned."
    subjectId := procedure.identifier }

def unmappedRequirement (requirementId : Str) : Issue :=
  { code := str "UNMAPPED_REQUIREMENT"
    message := str "Requirement '" ++ requirementId ++
      str "' has no valid test-procedure mapping."
    subjectId := requirementId }

def unknownCCase (caseId : Str) : Issue :=
  { code := str "UNKNOWN_C_CASE"
    message := str "C test binary returned case '" ++ caseId ++
      str "', but no procedure references it."
    subjectId := caseId }

def caseFailed (caseId : Str) : Issue :=
  { code := str "CASE_FAILED"
    message := str "C qualification case '" ++ caseId ++ str "' failed."
    subjectId := caseId }

def caseIncomplete (caseId : Str) : Issue :=
  { code := str "CASE_INCOMPLETE"
    message := str "C qualification case '" ++ caseId ++ str "' did not complete."
    subjectId := caseId }

def binaryExitNonzero (binaryExitCode : Int) : Issue :=
  { code := str "BINARY_EXIT_NONZERO"
    message := str "C test binary exited with status " ++ intText binaryExitCode ++ str "." }

end Findings

/-- The accumulators of the traceability scan. -/
structure Scan where
  mappedRequirements : Finset Str
  mappedCases : Finset Str
  issues : List Issue

variable (requirements : List Requirement) (procedures : List Procedure)
  (cCases : List CCaseResult)

/-- One requirement reference of a procedure. The first declared requirement of
the identifier is the one whose methods count. -/
def scanRequirement (procedure : Procedure) (scan : Scan) (requirementId : Str) : Scan :=
  match requirements.find? (fun item => item.identifier = requirementId) with
  | none =>
    { scan with issues := scan.issues ++ [unknownRequirement procedure requirementId] }
  | some requirement =>
    let scan :=
      { scan with mappedRequirements := insert requirementId scan.mappedRequirements }
    if requirement.verificationMethods ≠ [] ∧
        procedure.verificationMethod ∉ requirement.verificationMethods then
      { scan with issues := scan.issues ++ [verificationMethodMismatch procedure requirementId] }
    else scan

/-- One case reference of a procedure. -/
def scanCase (procedure : Procedure) (scan : Scan) (caseId : Str) : Scan :=
  if caseId ∉ cCases.map CCaseResult.identifier then
    { scan with issues := scan.issues ++ [missingCCase procedure caseId] }
  else { scan with mappedCases := insert caseId scan.mappedCases }

def scanProcedure (scan : Scan) (procedure : Procedure) : Scan :=
  let scan := procedure.requirementIds.foldl (scanRequirement requirements procedure) scan
  procedure.caseIds.foldl (scanCase cCases procedure) scan

def traceabilityIssues : List Issue :=
  let requirementIds := (requirements.map Requirement.identifier).dedup
  let caseIds := (cCases.map CCaseResult.identifier).dedup
  let scan := procedures.foldl (scanProcedure requirements cCases) ⟨∅, ∅, []⟩
  let unmapped := sortedBy id (requirementIds.filter (· ∉ scan.mappedRequirements))
  let unknown := sortedBy id (caseIds.filter (· ∉ scan.mappedCases))
  sortedBy Issue.orderKey
    (scan.issues ++ unmapped.map unmappedRequirement ++ unknown.map unknownCCase)

/-- The status of a row from the statuses it is made of, once none is missing. -/
def aggregate (statuses : List CaseStatus) (missing : Prop) [Decidable missing] : CaseStatus :=
  if missing ∨ .incomplete ∈ statuses then .incomplete
  else if .fail ∈ statuses then .fail
  else .pass

def procedureStatus (procedure : Procedure) (cCases : Dict Str CCaseResult) : CaseStatus :=
  let statuses := procedure.caseIds.filterMap fun caseId =>
    (cCases.get? caseId).map CCaseResult.status
  aggregate statuses (statuses.length ≠ procedure.caseIds.length)

/-- The finding about a case that did not pass. -/
def caseIssue (case : CCaseResult) : Option Issue :=
  match case.status with
  | .pass => none
  | .fail => some (caseFailed case.identifier)
  | .incomplete => some (caseIncomplete case.identifier)

/-- Every finding of a report, before repetitions are removed. -/
def allIssues (binaryExitCode : Int) (inputIssues : List Issue) : List Issue :=
  inputIssues ++ traceabilityIssues requirements procedures cCases ++
    cCases.filterMap caseIssue ++
    if binaryExitCode ≠ 0 then [binaryExitNonzero binaryExitCode] else []

/-- The issues without repetition, in reporting order. -/
def orderIssues (issues : List Issue) : List Issue :=
  let uniqueIssues := Dict.ofPairs (issues.map fun issue =>
    ((issue.code, issue.message, issue.subjectId), issue))
  sortedBy Issue.orderKey uniqueIssues.values

def procedureRow (caseById : Dict Str CCaseResult) (procedure : Procedure) : ProcedureRow :=
  { caseIds := procedure.caseIds
    id := procedure.identifier
    requirementIds := procedure.requirementIds
    status := procedureStatus procedure caseById
    title := procedure.title
    verificationMethod := procedure.verificationMethod }

def traceabilityRow (caseById : Dict Str CCaseResult) (requirement : Requirement) :
    TraceabilityRow :=
  let linkedProcedures :=
    procedures.filter fun procedure => requirement.identifier ∈ procedure.requirementIds
  let statuses := linkedProcedures.map fun procedure => procedureStatus procedure caseById
  { caseIds := sortedBy id (linkedProcedures.flatMap Procedure.caseIds).dedup
    procedureIds := sortedBy id (linkedProcedures.map Procedure.identifier)
    requirementId := requirement.identifier
    status := aggregate statuses (statuses = [])
    title := requirement.title }

def caseRow (case : CCaseResult) : CCaseRow :=
  { id := case.identifier
    message := case.message
    name := case.name
    status := case.status }

def hostEvidenceScope : Str := str "host-executable qualification cases"

def armExternalGateNote : Str :=
  str "ARM inspection remains required for SRS-PLT-001 and the ARM portion of " ++
    str "SRS-RES-001."

def externalGates : ExternalGates :=
  { armInspection :=
      { note := armExternalGateNote
        requirementIds := [str "SRS-PLT-001", str "SRS-RES-001"]
        status := str "REQUIRED" } }

def reportSchemaVersion : Nat := 1

/-- The dictionary that `build_report` returns. -/
def reportDictionary (metadata : QualificationMetadata) (binaryExitCode : Int)
    (inputIssues : List Issue) : Report :=
  let caseById := Dict.ofPairs (cCases.map fun item => (item.identifier, item))
  let orderedIssues :=
    orderIssues (allIssues requirements procedures cCases binaryExitCode inputIssues)
  { baseline := some metadata.baseline
    binaryExitCode := some binaryExitCode
    cCases := cCases.map caseRow
    evidenceScope := hostEvidenceScope
    externalGates := externalGates
    issues := orderedIssues.map Issue.asDict
    project := some metadata.project
    procedures := procedures.map (procedureRow caseById)
    result := if orderedIssues = [] then .hostPass else .fail
    schemaVersion := reportSchemaVersion
    summary :=
      { cCasesFailed := cCases.countP fun case => case.status = .fail
        cCasesIncomplete := cCases.countP fun case => case.status = .incomplete
        cCasesPassed := cCases.countP fun case => case.status = .pass
        cCasesTotal := cCases.length
        issues := orderedIssues.length
        proceduresTotal := procedures.length
        requirementsTotal := requirements.length }
    traceability := requirements.map (traceabilityRow procedures caseById)
    version := some metadata.version }

/-- An exit code that does not format breaks off at the message about it. -/
def buildReport (metadata : QualificationMetadata) (binaryExitCode : Int)
    (inputIssues : List Issue) : Except Str Report :=
  if binaryExitCode ≠ 0 ∧ ¬Formats binaryExitCode then .error valueError
  else .ok (reportDictionary requirements procedures cCases metadata binaryExitCode inputIssues)

theorem buildReport_eq_ok_iff {metadata : QualificationMetadata} {binaryExitCode : Int}
    {inputIssues : List Issue} {report : Report} :
    buildReport requirements procedures cCases metadata binaryExitCode inputIssues = .ok report ↔
      Formats binaryExitCode ∧ report =
        reportDictionary requirements procedures cCases metadata binaryExitCode inputIssues := by
  have hzero : binaryExitCode = 0 → Formats binaryExitCode := fun h => h ▸ formats_zero
  unfold buildReport
  split
  next h => exact iff_of_false nofun (fun hreport => h.2 hreport.1)
  next h =>
    have hformats : Formats binaryExitCode := by tauto
    rw [Except.ok.injEq, eq_comm]
    exact (and_iff_right hformats).symm

end Esqh.Qualification
