import Esqh.Qualification.Gates
import Esqh.Qualification.JsonReader
import Mathlib.Data.List.Chain

/-!
The JSON report of `write_reports` determines the report: reading it gives the
dictionary that was written, and the dictionary gives every field.
-/

namespace Esqh.Qualification

open Collections Utf8

section Canonical

@[simp] theorem canonical_null (levels : Nat) : Json.null.Canonical levels ↔ True := by
  rw [Json.Canonical]

@[simp] theorem canonical_int (levels : Nat) (value : Int) :
    (Json.int value).Canonical levels ↔ True := by
  rw [Json.Canonical]

@[simp] theorem canonical_string (levels : Nat) (text : Str) :
    (Json.string text).Canonical levels ↔ True := by
  rw [Json.Canonical]

attribute [simp] Json.canonical_array

theorem canonical_stringsJson (levels : Nat) (texts : List Str) :
    (stringsJson texts).Canonical (levels + 1) := by
  simp [stringsJson]

theorem canonical_optionalJson (levels : Nat) (text : Option Str) :
    (optionalJson text).Canonical levels := by
  cases text <;> simp [optionalJson]

theorem canonical_members {levels : Nat} {members : List (Str × Json)} (keys : List String)
    (hkeys : members.map Prod.fst = keys.map str)
    (hascending : keys.IsChain fun key next => key.toList < next.toList)
    (hvalues : ∀ value ∈ members.map Prod.snd, value.Canonical levels) :
    (Json.object members).Canonical (levels + 1) := by
  rw [Json.canonical_object, hkeys]
  have hchain := List.isChain_map_of_isChain str (fun _ _ => str_lt_str) hascending
  refine ⟨List.isChain_iff_pairwise.mp hchain, ?_⟩
  intro member hmember
  exact hvalues member.2 (List.mem_map_of_mem hmember)

theorem canonical_caseJson (levels : Nat) (row : CCaseRow) :
    (caseJson row).Canonical (levels + 1) := by
  apply canonical_members ["id", "message", "name", "status"] rfl (by simp [List.cons_lt_cons_iff])
  simp

theorem canonical_issueJson (levels : Nat) (issue : IssueRecord) :
    (issueJson issue).Canonical (levels + 1) := by
  cases hsubject : issue.subjectId with
  | none =>
      rw [issueJson, hsubject]
      apply canonical_members ["code", "message"] rfl (by simp [List.cons_lt_cons_iff])
      simp
  | some subjectId =>
      rw [issueJson, hsubject]
      apply canonical_members ["code", "message", "subject_id"] rfl
        (by simp [List.cons_lt_cons_iff])
      simp

theorem canonical_procedureJson (levels : Nat) (row : ProcedureRow) :
    (procedureJson row).Canonical (levels + 2) := by
  apply canonical_members
    ["case_ids", "id", "requirement_ids", "status", "title", "verification_method"] rfl
    (by simp [List.cons_lt_cons_iff])
  simp [canonical_stringsJson]

theorem canonical_traceabilityJson (levels : Nat) (row : TraceabilityRow) :
    (traceabilityJson row).Canonical (levels + 2) := by
  apply canonical_members ["case_ids", "procedure_ids", "requirement_id", "status", "title"] rfl
    (by simp [List.cons_lt_cons_iff])
  simp [canonical_stringsJson]

theorem canonical_externalGatesJson (levels : Nat) (gates : ExternalGates) :
    (externalGatesJson gates).Canonical (levels + 3) := by
  apply canonical_members ["arm_inspection"] rfl (by simp)
  rw [List.map_singleton, List.forall_mem_singleton]
  apply canonical_members ["note", "requirement_ids", "status"] rfl
    (by simp [List.cons_lt_cons_iff])
  simp [canonical_stringsJson]

theorem canonical_summaryJson (levels : Nat) (summary : Summary) :
    (summaryJson summary).Canonical (levels + 1) := by
  apply canonical_members
    ["c_cases_failed", "c_cases_incomplete", "c_cases_passed", "c_cases_total", "issues",
      "procedures_total", "requirements_total"] rfl (by simp [List.cons_lt_cons_iff])
  simp [countJson]

theorem canonical_optionalInt (levels : Nat) (value : Option Int) :
    (value.elim Json.null Json.int).Canonical levels := by
  cases value <;> simp

/-- The members of the report's dictionary. -/
def reportMembers (report : Report) : List (Str × Json) :=
  match reportJson report with
  | .object members => members
  | _ => []

theorem reportJson_eq (report : Report) : reportJson report = .object (reportMembers report) := rfl

/-- The keys of a report, in the order in which they are inserted. -/
def reportKeys : List String :=
  ["baseline", "binary_exit_code", "c_cases", "evidence_scope", "external_gates", "issues",
    "project", "procedures", "result", "schema_version", "summary", "traceability", "version"]

theorem map_fst_reportMembers (report : Report) :
    (reportMembers report).map Prod.fst = reportKeys.map str := rfl

theorem reportMembers_nodup (report : Report) : ((reportMembers report).map Prod.fst).Nodup := by
  rw [map_fst_reportMembers]
  exact List.Nodup.map str_injective (by simp [reportKeys])

theorem canonical_reportMembers (report : Report) :
    ∀ member ∈ reportMembers report, member.2.Canonical 3 := by
  simp [reportMembers, reportJson, canonical_optionalJson, canonical_optionalInt, countJson,
    canonical_caseJson, canonical_issueJson, canonical_procedureJson,
    canonical_traceabilityJson, canonical_externalGatesJson, canonical_summaryJson]

/-- The text of a report is read as its dictionary, the keys in another order. -/
theorem read_jsonText (report : Report) :
    Json.read 4 (jsonText report) =
      some (.object (sortedBy Prod.fst (reportMembers report))) := by
  have hends : Json.EndsNumber (str "\n") := ⟨rfl, rfl⟩
  rw [jsonText, reportJson_eq]
  exact Json.read_dumps_object (reportMembers_nodup report) (canonical_reportMembers report) hends
    rfl

end Canonical

section Fields

theorem stringsJson_injective : Function.Injective stringsJson := by
  intro texts others h
  exact List.map_injective_iff.mpr (fun _ _ => Json.string.inj) (Json.array.inj h)

theorem optionalJson_injective : Function.Injective optionalJson := by
  intro text other h
  cases text <;> cases other <;> simp_all [optionalJson]

theorem caseStatus_text_injective : Function.Injective CaseStatus.text := by
  intro status other h
  cases status <;> cases other <;> first | rfl | exact absurd h (by decide)

theorem reportResult_text_injective : Function.Injective ReportResult.text := by
  intro result other h
  cases result <;> cases other <;> first | rfl | exact absurd h (by decide)

theorem optionalInt_injective :
    Function.Injective fun value : Option Int => value.elim Json.null Json.int := by
  intro value other h
  cases value <;> cases other <;> simp_all

theorem countJson_injective : Function.Injective countJson := by
  intro count other h
  exact Int.ofNat.inj (Json.int.inj h)

theorem caseJson_injective : Function.Injective caseJson := by
  intro row other h
  simp only [caseJson, Json.object.injEq, List.cons.injEq, Prod.mk.injEq, Json.string.injEq,
    true_and, and_true] at h
  obtain ⟨hid, hmessage, hname, hstatus⟩ := h
  cases row
  cases other
  rw [CCaseRow.mk.injEq]
  exact ⟨hid, hmessage, hname, caseStatus_text_injective hstatus⟩

theorem issueJson_injective : Function.Injective issueJson := by
  intro issue other h
  obtain ⟨code, message, subjectId⟩ := issue
  obtain ⟨otherCode, otherMessage, otherSubjectId⟩ := other
  cases subjectId <;> cases otherSubjectId <;> simp_all [issueJson]

theorem procedureJson_injective : Function.Injective procedureJson := by
  intro row other h
  simp only [procedureJson, Json.object.injEq, List.cons.injEq, Prod.mk.injEq, Json.string.injEq,
    true_and, and_true] at h
  obtain ⟨hcases, hid, hrequirements, hstatus, htitle, hmethod⟩ := h
  cases row
  cases other
  rw [ProcedureRow.mk.injEq]
  exact ⟨stringsJson_injective hcases, hid, stringsJson_injective hrequirements,
    caseStatus_text_injective hstatus, htitle, hmethod⟩

theorem traceabilityJson_injective : Function.Injective traceabilityJson := by
  intro row other h
  simp only [traceabilityJson, Json.object.injEq, List.cons.injEq, Prod.mk.injEq,
    Json.string.injEq, true_and, and_true] at h
  obtain ⟨hcases, hprocedures, hid, hstatus, htitle⟩ := h
  cases row
  cases other
  rw [TraceabilityRow.mk.injEq]
  exact ⟨stringsJson_injective hcases, stringsJson_injective hprocedures, hid,
    caseStatus_text_injective hstatus, htitle⟩

theorem externalGatesJson_injective : Function.Injective externalGatesJson := by
  intro gates other h
  simp only [externalGatesJson, Json.object.injEq, List.cons.injEq, Prod.mk.injEq,
    Json.string.injEq, true_and, and_true] at h
  obtain ⟨hnote, hrequirements, hstatus⟩ := h
  obtain ⟨⟨⟩⟩ := gates
  obtain ⟨⟨⟩⟩ := other
  rw [ExternalGates.mk.injEq, ArmInspection.mk.injEq]
  exact ⟨hnote, stringsJson_injective hrequirements, hstatus⟩

theorem summaryJson_injective : Function.Injective summaryJson := by
  intro summary other h
  simp only [summaryJson, Json.object.injEq, List.cons.injEq, Prod.mk.injEq, true_and,
    and_true] at h
  obtain ⟨hfailed, hincomplete, hpassed, htotal, hissues, hprocedures, hrequirements⟩ := h
  cases summary
  cases other
  rw [Summary.mk.injEq]
  exact ⟨countJson_injective hfailed, countJson_injective hincomplete,
    countJson_injective hpassed, countJson_injective htotal, countJson_injective hissues,
    countJson_injective hprocedures, countJson_injective hrequirements⟩

theorem arrayOf_injective {α : Type} {row : α → Json} (h : Function.Injective row) :
    Function.Injective fun rows : List α => Json.array (rows.map row) := by
  intro rows others heq
  exact List.map_injective_iff.mpr h (Json.array.inj heq)

/-- No field of a report is left out of its dictionary. -/
theorem reportMembers_injective : Function.Injective reportMembers := by
  intro report other h
  simp only [reportMembers, reportJson, List.cons.injEq, Prod.mk.injEq, Json.string.injEq,
    true_and, and_true] at h
  obtain ⟨hbaseline, hexitCode, hcases, hscope, hgates, hissues, hproject, hprocedures, hresult,
    hschema, hsummary, htraceability, hversion⟩ := h
  cases report
  cases other
  rw [Report.mk.injEq]
  exact ⟨optionalJson_injective hbaseline, optionalInt_injective hexitCode,
    arrayOf_injective caseJson_injective hcases, hscope, externalGatesJson_injective hgates,
    arrayOf_injective issueJson_injective hissues, optionalJson_injective hproject,
    arrayOf_injective procedureJson_injective hprocedures, reportResult_text_injective hresult,
    countJson_injective hschema, summaryJson_injective hsummary,
    arrayOf_injective traceabilityJson_injective htraceability, optionalJson_injective hversion⟩

/-- Dictionaries with the same keys are told apart whatever their order. -/
theorem jsonText_injective : Function.Injective jsonText := by
  intro report other h
  have hread := read_jsonText report
  rw [h, read_jsonText other, Option.some.injEq, Json.object.injEq] at hread
  have hperm : (reportMembers other).Perm (reportMembers report) :=
    perm_of_sortedBy_eq Prod.fst hread
  have hkeys := (map_fst_reportMembers other).trans (map_fst_reportMembers report).symm
  exact (reportMembers_injective
    (Dict.entries_eq_of_perm hperm hkeys (reportMembers_nodup other))).symm

end Fields

section Runs

variable {runtime : Runtime} {request : Request} {disk written : Disk} {exitCode : Int}
  {report : Report}

theorem writeTexts_eq_ok {json markdown : Str}
    (h : writeTexts json markdown disk = (.ok (), written)) :
    ∃ first second, encode json = some first ∧ encode markdown = some second ∧
      written = ⟨some first, some second⟩ := by
  unfold writeTexts at h
  split at h
  next => cases h
  next first hfirst =>
    simp only at h
    split at h
    next => cases h
    next second hsecond =>
      cases h
      exact ⟨first, second, hfirst, hsecond, rfl⟩

theorem writeTexts_of_writeReports
    (h : writeReports report disk = (.ok (), written)) :
    writeTexts (jsonText report) (renderMarkdown report) disk = (.ok (), written) := by
  unfold writeReports at h
  split at h
  next => exact h
  next => cases h

theorem publish_files {code : Int} {found : Report}
    (h : publish code found disk = (.ok (exitCode, report), written)) :
    exitCode = code ∧ report = found ∧ ∃ first second, encode (jsonText report) = some first ∧
      encode (renderMarkdown report) = some second ∧ written = ⟨some first, some second⟩ := by
  unfold publish at h
  cases hwrite : writeReports found disk with
  | mk outcome after =>
      rw [hwrite] at h
      cases outcome with
      | error raised => cases h
      | ok _ =>
          cases h
          exact ⟨rfl, rfl, writeTexts_eq_ok (writeTexts_of_writeReports hwrite)⟩

/-- What a run returns is in its files. The report has no captured exit code
exactly if the input was refused. -/
theorem files_of_runQualification
    (h : runQualification runtime request disk = (.ok (exitCode, report), written)) :
    (∃ first second, encode (jsonText report) = some first ∧
      encode (renderMarkdown report) = some second ∧ written = ⟨some first, some second⟩) ∧
      exitCode = reportExitCode report (report.binaryExitCode = none) := by
  rcases runQualification_cases runtime request disk with
    ⟨evidence, _, _, heq⟩ | ⟨metadata, rejection, _, heq⟩ | ⟨metadata, raised, _, _, heq⟩ |
      ⟨evidence, _, _, heq⟩
  · obtain ⟨rfl, rfl, hfiles⟩ := publish_files (heq.symm.trans h)
    exact ⟨hfiles, rfl⟩
  · obtain ⟨rfl, rfl, hfiles⟩ := publish_files (heq.symm.trans h)
    exact ⟨hfiles, rfl⟩
  · cases heq.symm.trans h
  · cases heq.symm.trans h

theorem runQualification_sample (disk : Disk) :
    ∃ written, runQualification sampleRuntime sampleRequest disk =
      (.ok (exitOk, sampleEvidence.report), written) := by
  have hwritable := sampleEvidence.writable_iff.mpr sampleEvidence_printable
  have hcode : reportExitCode sampleEvidence.report false = exitOk := by decide
  obtain ⟨written, heq, _⟩ := publish_of_writable hwritable exitOk disk
  refine ⟨written, ?_⟩
  rw [runQualification_of_evidence gatherEvidence_sample formats_zero, hcode, heq]

/-- The JSON file of a run is read as the dictionary of the returned report. -/
theorem runQualification_json_read (runtime : Runtime) (request : Request) (disk : Disk)
    (exitCode : Int) (report : Report) (written : Disk)
    (h : runQualification runtime request disk = (.ok (exitCode, report), written)) :
    ∃ text found, written.jsonOutput.bind decode = some text ∧
      Json.read 4 text = some (.object found) ∧ found.Perm (reportMembers report) := by
  obtain ⟨⟨first, second, hfirst, _, rfl⟩, _⟩ := files_of_runQualification h
  exact ⟨jsonText report, _, decode_of_encode hfirst, read_jsonText report,
    perm_sortedBy Prod.fst _⟩

/-- The sample, on an empty disk. -/
theorem runQualification_json_read_sample :
    ∃ written text found, runQualification sampleRuntime sampleRequest ⟨none, none⟩ =
        (.ok (exitOk, sampleEvidence.report), written) ∧
      written.jsonOutput.bind decode = some text ∧
      Json.read 4 text = some (.object found) ∧
      found.Perm (reportMembers sampleEvidence.report) := by
  obtain ⟨written, hrun⟩ := runQualification_sample ⟨none, none⟩
  obtain ⟨text, found, hfound⟩ :=
    runQualification_json_read sampleRuntime sampleRequest ⟨none, none⟩ exitOk
      sampleEvidence.report written hrun
  exact ⟨written, text, found, hrun, hfound⟩

/-- The JSON file of a run determines its report, its exit code and its Markdown
file, whatever the run started from. -/
theorem runQualification_json_determines {otherRuntime : Runtime} {otherRequest : Request}
    {otherDisk otherWritten : Disk} {otherExitCode : Int} {otherReport : Report}
    (h : runQualification runtime request disk = (.ok (exitCode, report), written))
    (hother : runQualification otherRuntime otherRequest otherDisk =
      (.ok (otherExitCode, otherReport), otherWritten))
    (hjson : otherWritten.jsonOutput = written.jsonOutput) :
    otherReport = report ∧ otherExitCode = exitCode ∧
      otherWritten.markdownOutput = written.markdownOutput := by
  obtain ⟨⟨first, second, hfirst, hsecond, rfl⟩, hcode⟩ := files_of_runQualification h
  obtain ⟨⟨otherFirst, otherSecond, hotherFirst, hotherSecond, rfl⟩, hotherCode⟩ :=
    files_of_runQualification hother
  have htext : jsonText otherReport = jsonText report := by
    have hdecoded := decode_of_encode hotherFirst
    have hsame : otherFirst = first := Option.some.inj hjson
    rw [hsame, decode_of_encode hfirst] at hdecoded
    exact (Option.some.inj hdecoded).symm
  obtain rfl := jsonText_injective htext
  refine ⟨rfl, hotherCode.trans hcode.symm, ?_⟩
  exact hotherSecond.symm.trans hsecond

/-- The sample on two disks. -/
theorem runQualification_json_determines_sample :
    ∃ report written otherReport otherWritten otherExitCode,
      runQualification sampleRuntime sampleRequest ⟨none, none⟩ =
        (.ok (exitOk, report), written) ∧
      runQualification sampleRuntime sampleRequest ⟨some [], some []⟩ =
        (.ok (otherExitCode, otherReport), otherWritten) ∧
      otherReport = report ∧ otherExitCode = exitOk ∧
      otherWritten.markdownOutput = written.markdownOutput := by
  obtain ⟨written, hrun⟩ := runQualification_sample ⟨none, none⟩
  obtain ⟨otherWritten, hother⟩ := runQualification_sample ⟨some [], some []⟩
  have hjson : otherWritten.jsonOutput = written.jsonOutput := by
    obtain ⟨⟨first, _, hfirst, _, rfl⟩, _⟩ := files_of_runQualification hrun
    obtain ⟨⟨otherFirst, _, hotherFirst, _, rfl⟩, _⟩ := files_of_runQualification hother
    exact hotherFirst.symm.trans hfirst
  exact ⟨_, written, _, otherWritten, _, hrun, hother,
    runQualification_json_determines hrun hother hjson⟩

end Runs

end Esqh.Qualification
