import Esqh.Qualification.Gathering
import Esqh.Qualification.Wording

/-!
Which reports can be written. The JSON rendering holds every text of a report,
so a report is written exactly if none of them has a surrogate and the exit code
is short enough to be formatted.
-/

namespace Esqh.Qualification

open Collections Utf8

section Documents

@[simp] theorem printable_null : Json.null.Printable ↔ True := by rw [Json.Printable]

@[simp] theorem printable_int (value : Int) : (Json.int value).Printable ↔ True := by
  rw [Json.Printable]

@[simp] theorem printable_string (text : Str) :
    (Json.string text).Printable ↔ SurrogateFree text := by
  rw [Json.Printable]

attribute [simp] Json.printable_array Json.printable_object

@[simp] theorem surrogateFree_hostEvidenceScope : SurrogateFree hostEvidenceScope :=
  surrogateFree_str _

@[simp] theorem printable_stringsJson (texts : List Str) :
    (stringsJson texts).Printable ↔ ∀ text ∈ texts, SurrogateFree text := by
  simp [stringsJson]

@[simp] theorem printable_optionalJson (text : Option Str) :
    (optionalJson text).Printable ↔ ∀ found ∈ text, SurrogateFree found := by
  cases text <;> simp [optionalJson]

@[simp] theorem printable_optionalInt (value : Option Int) :
    (value.elim Json.null Json.int).Printable ↔ True := by
  cases value <;> simp

@[simp] theorem printable_countJson (count : Nat) : (countJson count).Printable ↔ True :=
  printable_int _

@[simp] theorem surrogateFree_caseStatus (status : CaseStatus) : SurrogateFree status.text := by
  cases status <;> exact surrogateFree_str _

@[simp] theorem surrogateFree_reportResult (result : ReportResult) :
    SurrogateFree result.text := by
  cases result <;> exact surrogateFree_str _

@[simp] theorem printable_summaryJson (summary : Summary) :
    (summaryJson summary).Printable ↔ True := by
  simp [summaryJson]

@[simp] theorem printable_externalGatesJson :
    (externalGatesJson externalGates).Printable ↔ True := by
  simp [externalGatesJson, externalGates, armExternalGateNote]

end Documents

section Rows

def CCaseRow.Printable (row : CCaseRow) : Prop :=
  SurrogateFree row.id ∧ SurrogateFree row.message ∧ SurrogateFree row.name

def ProcedureRow.Printable (row : ProcedureRow) : Prop :=
  (∀ caseId ∈ row.caseIds, SurrogateFree caseId) ∧ SurrogateFree row.id ∧
    (∀ requirementId ∈ row.requirementIds, SurrogateFree requirementId) ∧
    SurrogateFree row.title ∧ SurrogateFree row.verificationMethod

def TraceabilityRow.Printable (row : TraceabilityRow) : Prop :=
  (∀ caseId ∈ row.caseIds, SurrogateFree caseId) ∧
    (∀ procedureId ∈ row.procedureIds, SurrogateFree procedureId) ∧
    SurrogateFree row.requirementId ∧ SurrogateFree row.title

def IssueRecord.Printable (issue : IssueRecord) : Prop :=
  SurrogateFree issue.code ∧ SurrogateFree issue.message ∧
    ∀ subjectId ∈ issue.subjectId, SurrogateFree subjectId

/-- The texts of a report, the constant ones left out. -/
structure Report.Printable (report : Report) : Prop where
  baseline : ∀ text ∈ report.baseline, SurrogateFree text
  cCases : ∀ row ∈ report.cCases, row.Printable
  issues : ∀ issue ∈ report.issues, issue.Printable
  project : ∀ text ∈ report.project, SurrogateFree text
  procedures : ∀ row ∈ report.procedures, row.Printable
  traceability : ∀ row ∈ report.traceability, row.Printable
  version : ∀ text ∈ report.version, SurrogateFree text

@[simp] theorem printable_caseJson (row : CCaseRow) : (caseJson row).Printable ↔ row.Printable := by
  simp [caseJson, CCaseRow.Printable]

@[simp] theorem printable_procedureJson (row : ProcedureRow) :
    (procedureJson row).Printable ↔ row.Printable := by
  simp [procedureJson, ProcedureRow.Printable]

@[simp] theorem printable_traceabilityJson (row : TraceabilityRow) :
    (traceabilityJson row).Printable ↔ row.Printable := by
  simp [traceabilityJson, TraceabilityRow.Printable]

@[simp] theorem printable_issueJson (issue : IssueRecord) :
    (issueJson issue).Printable ↔ issue.Printable := by
  cases hsubject : issue.subjectId <;> simp [issueJson, IssueRecord.Printable, hsubject]

theorem printable_reportJson {report : Report} (h : report.Standard) :
    (reportJson report).Printable ↔ report.Printable := by
  have hparts : (reportJson report).Printable ↔
      (∀ text ∈ report.baseline, SurrogateFree text) ∧
        (∀ row ∈ report.cCases, row.Printable) ∧ (∀ issue ∈ report.issues, issue.Printable) ∧
        (∀ text ∈ report.project, SurrogateFree text) ∧
        (∀ row ∈ report.procedures, row.Printable) ∧
        (∀ row ∈ report.traceability, row.Printable) ∧
        ∀ text ∈ report.version, SurrogateFree text := by
    simp [reportJson, h.evidenceScope, h.externalGates]
  rw [hparts]
  constructor
  · rintro ⟨hbaseline, hcases, hissues, hproject, hprocedures, htraceability, hversion⟩
    exact ⟨hbaseline, hcases, hissues, hproject, hprocedures, htraceability, hversion⟩
  · intro hreport
    exact ⟨hreport.baseline, hreport.cCases, hreport.issues, hreport.project, hreport.procedures,
      hreport.traceability, hreport.version⟩

end Rows

section Markdown

theorem holdsOfPlain_not_surrogate : HoldsOfPlain fun point => ¬Surrogate point.val := by
  intro character hplain
  simp only [Plain, decide_eq_true_eq] at hplain
  simp only [Surrogate, val_ofNat_toNat]
  omega

/-- The Markdown rendering repeats texts of the JSON rendering. -/
theorem surrogateFree_renderMarkdown {report : Report} (hstandard : report.Standard)
    (h : report.Printable) : SurrogateFree (renderMarkdown report) := by
  have hplain := holdsOfPlain_not_surrogate
  have htraceability : ∀ row ∈ report.traceability, SurrogateFree (traceabilityLine row) := by
    intro row hrow
    obtain ⟨hcases, hprocedures, hid, _⟩ := h.traceability row hrow
    exact (everyPoint_traceabilityLine hplain row).mpr ⟨hid, hprocedures, hcases⟩
  have hprocedures : ∀ row ∈ report.procedures, SurrogateFree (procedureLine row) := by
    intro row hrow
    obtain ⟨hcases, hid, hrequirements, _, hmethod⟩ := h.procedures row hrow
    exact (everyPoint_procedureLine hplain row).mpr ⟨hid, hmethod, hrequirements, hcases⟩
  have hcases : ∀ row ∈ report.cCases, SurrogateFree (caseLine row) := by
    intro row hrow
    obtain ⟨hid, hmessage, hname⟩ := h.cCases row hrow
    exact (everyPoint_caseLine hplain row).mpr ⟨hid, fun point hpoint => .inr (hname point hpoint),
      fun point hpoint => .inr (hmessage point hpoint)⟩
  have hissues : ∀ issue ∈ report.issues, SurrogateFree (issueLine issue) := by
    intro issue hissue
    obtain ⟨hcode, hmessage, hsubject⟩ := h.issues issue hissue
    exact (everyPoint_issueLine hplain issue).mpr ⟨hcode, hsubject, hmessage⟩
  have hlines : ∀ line ∈ markdownLines report, SurrogateFree line :=
    (everyPoint_markdownLines hplain hstandard).mpr
      ⟨⟨h.project, h.version, h.baseline⟩, htraceability, hprocedures, hcases, hissues⟩
  rw [renderMarkdown, surrogateFree_append]
  exact ⟨(surrogateFree_intercalate (surrogateFree_str _) _).mpr hlines, surrogateFree_str _⟩

theorem Report.writable_iff {report : Report} (h : report.Standard) :
    report.Writable ↔
      (∀ exitCode ∈ report.binaryExitCode, Formats exitCode) ∧ report.Printable := by
  have hjson : SurrogateFree (jsonText report) ↔ report.Printable := by
    rw [jsonText, surrogateFree_append, Json.dumps, Json.surrogateFree_dumpAt,
      printable_reportJson h]
    exact and_iff_left (surrogateFree_str _)
  constructor
  · intro hwritable
    exact ⟨hwritable.formats, hjson.mp hwritable.json⟩
  · intro ⟨hformats, hprintable⟩
    exact ⟨hformats, hjson.mpr hprintable, surrogateFree_renderMarkdown h hprintable⟩

end Markdown

section Issues

def Issue.Printable (issue : Issue) : Prop :=
  SurrogateFree issue.code ∧ SurrogateFree issue.message ∧ SurrogateFree issue.subjectId

def QualificationMetadata.Printable (metadata : QualificationMetadata) : Prop :=
  SurrogateFree metadata.project ∧ SurrogateFree metadata.version ∧
    SurrogateFree metadata.baseline

theorem printable_asDict (issue : Issue) : issue.asDict.Printable ↔ issue.Printable := by
  have hsubject : (∀ subjectId ∈ issue.asDict.subjectId, SurrogateFree subjectId) ↔
      SurrogateFree issue.subjectId := by
    by_cases hempty : issue.subjectId = []
    · simp [Issue.asDict, hempty]
    · simp [Issue.asDict, hempty]
  rw [IssueRecord.Printable, hsubject]
  rfl

/-- The texts of a procedure that are reported. -/
def Procedure.Printable (procedure : Procedure) : Prop :=
  SurrogateFree procedure.identifier ∧ SurrogateFree procedure.title ∧
    (∀ requirementId ∈ procedure.requirementIds, SurrogateFree requirementId) ∧
    (∀ caseId ∈ procedure.caseIds, SurrogateFree caseId) ∧
    SurrogateFree procedure.verificationMethod

end Issues

section Reports

/-- No text of the evidence that is reported has a surrogate, and its exit code
formats. -/
structure Evidence.Printable (evidence : Evidence) : Prop where
  observedExitCode : Formats evidence.observedExitCode
  metadata : evidence.metadata.Printable
  requirements : ∀ requirement ∈ evidence.requirements,
    SurrogateFree requirement.identifier ∧ SurrogateFree requirement.title
  procedures : ∀ procedure ∈ evidence.procedures, procedure.Printable
  cCases : ∀ case ∈ evidence.cCases, SurrogateFree case.identifier ∧ SurrogateFree case.name ∧
    SurrogateFree case.message

theorem Evidence.printable_of_report {evidence : Evidence}
    (hformats : Formats evidence.observedExitCode) (h : evidence.report.Printable) :
    evidence.Printable := by
  exact
    { observedExitCode := hformats
      metadata := ⟨h.project _ rfl, h.version _ rfl, h.baseline _ rfl⟩
      requirements := fun requirement hmem =>
        (h.traceability _ (List.mem_map_of_mem hmem)).2.2
      procedures := by
        intro procedure hmem
        obtain ⟨hcases, hid, hrequirements, htitle, hmethod⟩ :=
          h.procedures _ (List.mem_map_of_mem hmem)
        exact ⟨hid, htitle, hrequirements, hcases, hmethod⟩
      cCases := by
        intro case hmem
        obtain ⟨hid, hmessage, hname⟩ := h.cCases _ (List.mem_map_of_mem hmem)
        exact ⟨hid, hname, hmessage⟩ }

theorem Evidence.Printable.report {evidence : Evidence} (h : evidence.Printable) :
    evidence.report.Printable := by
  exact
    { baseline := by
        rintro _ ⟨⟩
        exact h.metadata.2.2
      cCases := by
        refine List.forall_mem_map.mpr fun case hmem => ?_
        obtain ⟨hid, hname, hmessage⟩ := h.cCases case hmem
        exact ⟨hid, hmessage, hname⟩
      issues := by
        refine List.forall_mem_map.mpr fun issue hmem => (printable_asDict issue).mpr ?_
        refine everyPoint_of_mem_allIssues holdsOfPlain_not_surrogate
          (fun requirement hr => (h.requirements requirement hr).1) ?_
          (fun case hc => (h.cCases case hc).1) _ issue (mem_of_mem_orderIssues hmem)
        intro procedure hp
        obtain ⟨hid, _, hrequirements, hcases, hmethod⟩ := h.procedures procedure hp
        exact ⟨hid, hmethod, hrequirements, hcases⟩
      project := by
        rintro _ ⟨⟩
        exact h.metadata.1
      procedures := by
        refine List.forall_mem_map.mpr fun procedure hmem => ?_
        obtain ⟨hid, htitle, hrequirements, hcases, hmethod⟩ := h.procedures procedure hmem
        exact ⟨hcases, hid, hrequirements, htitle, hmethod⟩
      traceability := by
        refine List.forall_mem_map.mpr fun requirement hmem => ?_
        obtain ⟨hid, htitle⟩ := h.requirements requirement hmem
        have hrow := forall_mem_traceabilityRow
          (fun procedure hp => (h.procedures procedure hp).1)
          (fun procedure hp => (h.procedures procedure hp).2.2.2.1)
          (Dict.ofPairs (evidence.cCases.map fun item => (item.identifier, item))) requirement
        exact ⟨hrow.2, hrow.1, hid, htitle⟩
      version := by
        rintro _ ⟨⟩
        exact h.metadata.2.1 }

/-- The report of gathered evidence is written exactly if the texts it takes
from the inputs can be. -/
theorem Evidence.writable_iff (evidence : Evidence) :
    evidence.report.Writable ↔ evidence.Printable := by
  rw [Report.writable_iff ⟨rfl, rfl⟩]
  constructor
  · intro ⟨hformats, hprintable⟩
    exact Evidence.printable_of_report (hformats _ rfl) hprintable
  · intro hprintable
    exact ⟨formats_report hprintable.observedExitCode, hprintable.report⟩

/-- The report of a rejection is written exactly if its issues and the metadata
that was known can be. -/
theorem writable_validationFailureReport_iff (issues : List Issue)
    (metadata : Option QualificationMetadata) :
    (validationFailureReport issues metadata).Writable ↔
      (∀ known ∈ metadata, known.Printable) ∧ ∀ issue ∈ issues, issue.Printable := by
  have hissues : (∀ record ∈ (validationFailureReport issues metadata).issues,
      record.Printable) ↔ ∀ issue ∈ issues, issue.Printable := by
    simp only [validationFailureReport, List.forall_mem_map, printable_asDict, mem_sortedBy]
  have hformats : ∀ code ∈ (validationFailureReport issues metadata).binaryExitCode,
      Formats code := by
    intro code hcode
    cases hcode
  rw [Report.writable_iff ⟨rfl, rfl⟩, ← hissues, and_iff_right hformats]
  constructor
  · intro h
    refine ⟨fun known hknown => ⟨?_, ?_, ?_⟩, h.issues⟩
    · exact Option.forall_mem_map.mp h.project known hknown
    · exact Option.forall_mem_map.mp h.version known hknown
    · exact Option.forall_mem_map.mp h.baseline known hknown
  · rintro ⟨hknown, hissues⟩
    exact
      { baseline := Option.forall_mem_map.mpr fun known hmem => (hknown known hmem).2.2
        cCases := List.forall_mem_nil _
        issues := hissues
        procedures := List.forall_mem_nil _
        project := Option.forall_mem_map.mpr fun known hmem => (hknown known hmem).1
        traceability := List.forall_mem_nil _
        version := Option.forall_mem_map.mpr fun known hmem => (hknown known hmem).2.1 }

end Reports

section Runs

variable {runtime : Runtime} {request : Request}

theorem runQualification_of_evidence {evidence : Evidence}
    (h : gatherEvidence runtime request = .ok evidence)
    (hformats : Formats evidence.observedExitCode) (disk : Disk) :
    runQualification runtime request disk =
      publish (reportExitCode evidence.report false) evidence.report disk := by
  simp only [runQualification, h, built_of_formats hformats]

theorem runQualification_of_printable {evidence : Evidence}
    (h : gatherEvidence runtime request = .ok evidence) (hprintable : evidence.Printable)
    (disk : Disk) :
    (runQualification runtime request disk).1 =
      .ok (reportExitCode evidence.report false, evidence.report) := by
  obtain ⟨written, heq, _⟩ := publish_of_writable (evidence.writable_iff.mpr hprintable)
    (reportExitCode evidence.report false) disk
  rw [runQualification_of_evidence h hprintable.observedExitCode, heq]

end Runs

end Esqh.Qualification
