import Esqh.Qualification.Findings
import Esqh.Qualification.ReportText

/-!
What a report says can be derived again from what it lists: from its own rows,
its exit code and its findings about methods, which are the only ones that need
more of the requirements than a row holds.
-/

namespace Esqh.Qualification

open Collections

section Rows

def IssueRecord.issue (record : IssueRecord) : Issue :=
  { code := record.code, message := record.message, subjectId := record.subjectId.getD [] }

def ProcedureRow.procedure (row : ProcedureRow) : Procedure :=
  { identifier := row.id
    title := row.title
    requirementIds := row.requirementIds
    caseIds := row.caseIds
    verificationMethod := row.verificationMethod }

def CCaseRow.case (row : CCaseRow) : CCaseResult :=
  { identifier := row.id, name := row.name, status := row.status, message := row.message }

/-- What a row has of its requirement: neither the statement nor the methods. -/
def TraceabilityRow.requirement (row : TraceabilityRow) : Requirement :=
  { identifier := row.requirementId
    title := row.title
    statement := []
    verificationMethods := [] }

def Requirement.listed (requirement : Requirement) : Requirement :=
  { requirement with statement := [], verificationMethods := [] }

theorem issue_asDict (issue : Issue) : issue.asDict.issue = issue := by
  obtain ⟨code, message, subjectId⟩ := issue
  cases subjectId <;> rfl

theorem procedure_procedureRow (caseById : Dict Str CCaseResult) (procedure : Procedure) :
    (procedureRow caseById procedure).procedure = procedure := rfl

theorem requirement_traceabilityRow (procedures : List Procedure)
    (caseById : Dict Str CCaseResult) (requirement : Requirement) :
    (traceabilityRow procedures caseById requirement).requirement = requirement.listed := rfl

theorem case_caseRow (case : CCaseResult) : (caseRow case).case = case := rfl

theorem map_issue_asDict (issues : List Issue) :
    (issues.map Issue.asDict).map IssueRecord.issue = issues := by
  rw [List.map_map]
  exact List.map_id'' issue_asDict issues

end Rows

section Rederiving

variable (report : Report)

def Report.metadata : Option QualificationMetadata := do
  let project ← report.project
  let version ← report.version
  let baseline ← report.baseline
  some ⟨project, version, baseline⟩

def isMethodFinding (issue : Issue) : Bool :=
  decide (issue.code = str "VERIFICATION_METHOD_MISMATCH")

/-- The report that the tool makes of what a report lists. A report without an
exit code is one about refused input. -/
def Report.rederived : Except Str Report :=
  let issues := report.issues.map IssueRecord.issue
  match report.binaryExitCode, report.metadata with
  | some exitCode, some metadata =>
    buildReport (report.traceability.map TraceabilityRow.requirement)
      (report.procedures.map ProcedureRow.procedure) (report.cCases.map CCaseRow.case) metadata
      exitCode (issues.filter isMethodFinding)
  | _, metadata => .ok (validationFailureReport issues metadata)

end Rederiving

section Ordering

theorem mem_orderIssues_iff {issues : List Issue} {issue : Issue} :
    issue ∈ orderIssues issues ↔ issue ∈ issues := by
  constructor
  · exact mem_of_mem_orderIssues
  · intro h
    let pairs := issues.map fun issue => ((issue.code, issue.message, issue.subjectId), issue)
    have hkey : (issue.code, issue.message, issue.subjectId) ∈ (Dict.ofPairs pairs).keys := by
      rw [Dict.mem_keys_ofPairs, List.map_map]
      exact List.mem_map_of_mem h
    obtain ⟨entry, hentry, hsame⟩ := List.mem_map.mp hkey
    obtain ⟨found, _, rfl⟩ := List.mem_map.mp (Dict.mem_of_mem_entries_ofPairs hentry)
    have hfound : found = issue := by
      cases found
      cases issue
      cases hsame
      rfl
    rw [← hfound]
    exact (mem_sortedBy Issue.orderKey).mpr (List.mem_map_of_mem hentry)

theorem nodup_orderIssues (issues : List Issue) : (orderIssues issues).Nodup := by
  let pairs := issues.map fun issue => ((issue.code, issue.message, issue.subjectId), issue)
  have hkeys : (Dict.ofPairs pairs).values.map
      (fun issue => (issue.code, issue.message, issue.subjectId)) = (Dict.ofPairs pairs).keys := by
    rw [Dict.values, Dict.keys, List.map_map]
    apply List.map_congr_left
    intro entry hentry
    obtain ⟨found, _, rfl⟩ := List.mem_map.mp (Dict.mem_of_mem_entries_ofPairs hentry)
    rfl
  apply (perm_sortedBy Issue.orderKey _).nodup_iff.mpr
  apply List.Nodup.of_map fun issue : Issue => (issue.code, issue.message, issue.subjectId)
  rw [hkeys]
  exact (Dict.ofPairs pairs).nodup

theorem sortedBy_orderKey_eq {issues others : List Issue} (h : issues.Perm others) :
    sortedBy Issue.orderKey issues = sortedBy Issue.orderKey others :=
  sortedBy_eq_of_perm Issue.orderKey h fun _ _ _ _ heq => Issue.orderKey_injective heq

/-- Only which issues there are counts. -/
theorem orderIssues_congr {issues others : List Issue}
    (h : ∀ issue, issue ∈ issues ↔ issue ∈ others) : orderIssues issues = orderIssues others := by
  have hperm : (orderIssues issues).Perm (orderIssues others) := by
    apply (List.perm_ext_iff_of_nodup (nodup_orderIssues issues) (nodup_orderIssues others)).mpr
    intro issue
    rw [mem_orderIssues_iff, mem_orderIssues_iff]
    exact h issue
  have hunsorted := (perm_sortedBy Issue.orderKey _).symm.trans
    (hperm.trans (perm_sortedBy Issue.orderKey _))
  exact sortedBy_orderKey_eq hunsorted

end Ordering

section Deriving

variable {requirements : List Requirement} {procedures : List Procedure}
  {cCases : List CCaseResult}

theorem mem_traceabilityIssues_iff (hnodup : (requirements.map Requirement.identifier).Nodup)
    {issue : Issue} :
    issue ∈ traceabilityIssues requirements procedures cCases ↔
      ∃ defect : Defect, defect.Present requirements procedures cCases ∧ defect.issue = issue := by
  rw [traceabilityIssues_eq, mem_sortedBy, foundIssues_eq, List.mem_map]
  simp only [mem_foundDefects_iff hnodup]

theorem map_identifier_listed (requirements : List Requirement) :
    (requirements.map Requirement.listed).map Requirement.identifier =
      requirements.map Requirement.identifier := List.map_map

/-- The rows show every defect but the forbidden methods. -/
theorem present_listed_iff (defect : Defect) :
    defect.Present (requirements.map Requirement.listed) procedures cCases ↔
      defect.Present requirements procedures cCases ∧ isMethodFinding defect.issue = false := by
  cases defect with
  | forbiddenMethod procedure requirementId =>
      constructor
      · intro ⟨_, _, requirement, hmem, _, hmethods, _⟩
        obtain ⟨_, _, rfl⟩ := List.mem_map.mp hmem
        exact absurd rfl hmethods
      · intro ⟨_, hother⟩
        exact absurd (decide_eq_true rfl) (Bool.eq_false_iff.mp hother)
  | undeclared procedure requirementId =>
      rw [Defect.Present, Defect.Present, map_identifier_listed]
      exact (and_iff_left rfl).symm
  | unmapped requirementId =>
      rw [Defect.Present, Defect.Present, map_identifier_listed]
      exact (and_iff_left rfl).symm
  | unreturned procedure caseId => exact (and_iff_left rfl).symm
  | unreferenced caseId => exact (and_iff_left rfl).symm

theorem mem_traceabilityIssues_listed (hnodup : (requirements.map Requirement.identifier).Nodup)
    {issue : Issue} :
    issue ∈ traceabilityIssues (requirements.map Requirement.listed) procedures cCases ↔
      issue ∈ traceabilityIssues requirements procedures cCases ∧
        isMethodFinding issue = false := by
  have hlisted : ((requirements.map Requirement.listed).map Requirement.identifier).Nodup := by
    rw [map_identifier_listed]
    exact hnodup
  rw [mem_traceabilityIssues_iff hlisted, mem_traceabilityIssues_iff hnodup]
  constructor
  · intro ⟨defect, hpresent, hissue⟩
    obtain ⟨hthere, hshown⟩ := (present_listed_iff defect).mp hpresent
    exact ⟨⟨defect, hthere, hissue⟩, hissue ▸ hshown⟩
  · intro ⟨⟨defect, hthere, hissue⟩, hshown⟩
    exact ⟨defect, (present_listed_iff defect).mpr ⟨hthere, hissue ▸ hshown⟩, hissue⟩

theorem mem_allIssues_iff (requirements : List Requirement) {binaryExitCode : Int}
    {inputIssues : List Issue} {issue : Issue} :
    issue ∈ allIssues requirements procedures cCases binaryExitCode inputIssues ↔
      issue ∈ inputIssues ∨ issue ∈ traceabilityIssues requirements procedures cCases ∨
        issue ∈ allIssues [] [] [] binaryExitCode [] ∨ issue ∈ cCases.filterMap caseIssue := by
  have hnone : traceabilityIssues [] [] [] = [] := rfl
  rw [allIssues, allIssues, hnone, List.mem_append, List.mem_append, List.mem_append]
  simp only [List.nil_append, List.filterMap_nil]
  tauto

/-- With the findings about methods the rows have all findings. -/
theorem mem_allIssues_listed (hnodup : (requirements.map Requirement.identifier).Nodup)
    (binaryExitCode : Int) {findings : List Issue}
    (hfindings : ∀ issue, issue ∈ findings ↔
      issue ∈ allIssues requirements procedures cCases binaryExitCode [] ∧
        isMethodFinding issue = true) (issue : Issue) :
    issue ∈ allIssues (requirements.map Requirement.listed) procedures cCases binaryExitCode
        findings ↔
      issue ∈ allIssues requirements procedures cCases binaryExitCode [] := by
  rw [mem_allIssues_iff, mem_traceabilityIssues_listed hnodup, hfindings]
  constructor
  · intro h
    rcases h with ⟨hmem, _⟩ | ⟨hmem, _⟩ | hrest
    · exact hmem
    · exact (mem_allIssues_iff requirements).mpr (.inr (.inl hmem))
    · exact (mem_allIssues_iff requirements).mpr (.inr (.inr hrest))
  · intro h
    cases hmethod : isMethodFinding issue with
    | true => exact .inl ⟨h, rfl⟩
    | false =>
        rcases (mem_allIssues_iff requirements).mp h with hnone | hmem | hrest
        · cases hnone
        · exact .inr (.inl ⟨hmem, rfl⟩)
        · exact .inr (.inr hrest)

theorem rederived_buildReport (hnodup : (requirements.map Requirement.identifier).Nodup)
    (metadata : QualificationMetadata) {binaryExitCode : Int}
    (hformats : Formats binaryExitCode) :
    let report := reportDictionary requirements procedures cCases metadata binaryExitCode []
    report.rederived = .ok report := by
  intro report
  have hissues : report.issues.map IssueRecord.issue =
      orderIssues (allIssues requirements procedures cCases binaryExitCode []) :=
    map_issue_asDict _
  have hrows : report.traceability.map TraceabilityRow.requirement =
      requirements.map Requirement.listed := by
    apply List.map_map.trans
    apply List.map_congr_left
    intro requirement _
    exact requirement_traceabilityRow _ _ requirement
  have hprocedures : report.procedures.map ProcedureRow.procedure = procedures := by
    apply List.map_map.trans
    exact List.map_id'' (procedure_procedureRow _) procedures
  have hcases : report.cCases.map CCaseRow.case = cCases := by
    apply List.map_map.trans
    exact List.map_id'' case_caseRow cCases
  have hfindings (issue : Issue) : issue ∈ (report.issues.map IssueRecord.issue).filter
        isMethodFinding ↔
      issue ∈ allIssues requirements procedures cCases binaryExitCode [] ∧
        isMethodFinding issue = true := by
    rw [hissues, List.mem_filter, mem_orderIssues_iff]
  have hordered := orderIssues_congr (mem_allIssues_listed hnodup binaryExitCode hfindings)
  have hrederived : report.rederived =
      buildReport (report.traceability.map TraceabilityRow.requirement)
        (report.procedures.map ProcedureRow.procedure) (report.cCases.map CCaseRow.case) metadata
        binaryExitCode ((report.issues.map IssueRecord.issue).filter isMethodFinding) := rfl
  rw [hrederived, hrows, hprocedures, hcases, buildReport_eq_ok_iff]
  refine ⟨hformats, ?_⟩
  rw [reportDictionary, hordered]
  simp only [List.map_map, List.length_map]
  rfl

theorem rederived_validationFailureReport (issues : List Issue)
    (metadata : Option QualificationMetadata) :
    (validationFailureReport issues metadata).rederived =
      .ok (validationFailureReport issues metadata) := by
  have hissues : (validationFailureReport issues metadata).issues.map IssueRecord.issue =
      sortedBy Issue.orderKey issues := map_issue_asDict _
  have hmetadata : (validationFailureReport issues metadata).metadata = metadata := by
    cases metadata <;> rfl
  have hordered : sortedBy Issue.orderKey (sortedBy Issue.orderKey issues) =
      sortedBy Issue.orderKey issues := sortedBy_orderKey_eq (perm_sortedBy _ _)
  have hrederived : (validationFailureReport issues metadata).rederived =
      .ok (validationFailureReport
        ((validationFailureReport issues metadata).issues.map IssueRecord.issue)
        (validationFailureReport issues metadata).metadata) := rfl
  rw [hrederived, hissues, hmetadata, validationFailureReport, hordered]
  rfl

end Deriving

/-- Every report that a run writes is the one that the tool makes of what it
lists: nobody needs the inputs to check its statuses, its counts, its findings
and its result. -/
theorem runQualification_rederives (runtime : Runtime) (request : Request) (disk : Disk)
    (exitCode : Int) (report : Report) (written : Disk)
    (h : runQualification runtime request disk = (.ok (exitCode, report), written)) :
    report.rederived = .ok report ∧
      exitCode = reportExitCode report (report.binaryExitCode = none) := by
  refine ⟨?_, (files_of_runQualification h).2⟩
  rcases runQualification_cases runtime request disk with
    ⟨evidence, hevidence, hformats, heq⟩ | ⟨metadata, rejection, _, heq⟩ |
      ⟨metadata, raised, _, _, heq⟩ | ⟨evidence, _, _, heq⟩
  · obtain ⟨_, rfl, _⟩ := publish_files (heq.symm.trans h)
    obtain ⟨_, R, P, C, _, _, _, _, hvalid⟩ := gatherEvidence_eq_ok_iff.mp hevidence
    exact rederived_buildReport hvalid.requirementIds evidence.metadata hformats
  · obtain ⟨_, rfl, _⟩ := publish_files (heq.symm.trans h)
    exact rederived_validationFailureReport rejection.findings metadata
  · cases heq.symm.trans h
  · cases heq.symm.trans h

/-- The sample, on an empty disk. -/
theorem runQualification_rederives_sample :
    ∃ written, runQualification sampleRuntime sampleRequest ⟨none, none⟩ =
        (.ok (exitOk, sampleEvidence.report), written) ∧
      sampleEvidence.report.rederived = .ok sampleEvidence.report := by
  obtain ⟨written, hrun⟩ := runQualification_sample ⟨none, none⟩
  exact ⟨written, hrun, (runQualification_rederives sampleRuntime sampleRequest ⟨none, none⟩ exitOk
    sampleEvidence.report written hrun).1⟩

end Esqh.Qualification
