import Esqh.Qualification.Traceability

/-!
The verdict of a report. It is computed from the list of issues, the statuses
of the rows from the cases; a passing verdict settles both.
-/

namespace Esqh.Qualification

open Collections

theorem aggregate_eq_pass_iff (statuses : List CaseStatus) (missing : Prop) [Decidable missing] :
    aggregate statuses missing = .pass ↔ ¬missing ∧ ∀ status ∈ statuses, status = .pass := by
  unfold aggregate
  by_cases hincomplete : missing ∨ .incomplete ∈ statuses
  · rw [if_pos hincomplete]
    apply iff_of_false (by simp)
    rintro ⟨hmissing, hall⟩
    exact hincomplete.elim hmissing (fun hmem => nomatch hall _ hmem)
  · rw [if_neg hincomplete]
    obtain ⟨hmissing, hcomplete⟩ := not_or.mp hincomplete
    by_cases hfail : .fail ∈ statuses
    · rw [if_pos hfail]
      exact iff_of_false (by simp) (fun h => nomatch h.2 _ hfail)
    · rw [if_neg hfail]
      refine iff_of_true rfl ⟨hmissing, ?_⟩
      intro status hstatus
      cases status with
      | pass => rfl
      | fail => exact absurd hstatus hfail
      | incomplete => exact absurd hstatus hcomplete

theorem orderIssues_eq_nil_iff (issues : List Issue) : orderIssues issues = [] ↔ issues = [] := by
  rw [orderIssues, sortedBy_eq_nil_iff, Dict.values_ofPairs_eq_nil_iff, List.map_eq_nil_iff]

theorem caseIssue_eq_none_iff (case : CCaseResult) :
    caseIssue case = none ↔ case.status = .pass := by
  unfold caseIssue
  cases case.status <;> simp

/-- A clean qualification: no finding in the inputs, the binary or its cases,
and references that fit the declarations. -/
structure Clean (requirements : List Requirement) (procedures : List Procedure)
    (cCases : List CCaseResult) (binaryExitCode : Int) (inputIssues : List Issue) : Prop where
  inputs : inputIssues = []
  binary : binaryExitCode = 0
  cases : ∀ case ∈ cCases, case.status = .pass
  traced : Traced requirements procedures cCases

/-- The shape in which the loaders return their records. -/
structure Loaded (requirements : List Requirement) (procedures : List Procedure)
    (cCases : List CCaseResult) : Prop where
  requirementIds : (requirements.map Requirement.identifier).Nodup
  procedureIds : (procedures.map Procedure.identifier).Nodup
  caseIds : (cCases.map CCaseResult.identifier).Nodup
  references : ∀ procedure ∈ procedures, procedure.requirementIds ≠ [] ∧ procedure.caseIds ≠ []

section Rows

variable {requirements : List Requirement} {procedures : List Procedure}
  {cCases : List CCaseResult}

/-- The cases of a report by their identifier. -/
abbrev caseById (cCases : List CCaseResult) : Dict Str CCaseResult :=
  Dict.ofPairs (cCases.map fun item => (item.identifier, item))

theorem procedureStatus_eq_pass {procedure : Procedure}
    (hreturned : ∀ caseId ∈ procedure.caseIds, caseId ∈ cCases.map CCaseResult.identifier)
    (hpass : ∀ case ∈ cCases, case.status = .pass) :
    procedureStatus procedure (caseById cCases) = .pass := by
  have hstatus : ∀ caseId ∈ procedure.caseIds,
      ((caseById cCases).get? caseId).map CCaseResult.status = some .pass := by
    intro caseId hmem
    have hkey : caseId ∈ (cCases.map fun item => (item.identifier, item)).map Prod.fst := by
      simpa [List.map_map] using hreturned caseId hmem
    obtain ⟨case, hget, hpair⟩ := Dict.get?_ofPairs_of_mem hkey
    obtain ⟨item, hitem, heq⟩ := List.mem_map.mp hpair
    have hcase : item = case := congrArg Prod.snd heq
    rw [hget, Option.map_some, ← hcase, hpass item hitem]
  have hstatuses : procedure.caseIds.filterMap (fun caseId =>
      ((caseById cCases).get? caseId).map CCaseResult.status) =
        procedure.caseIds.map (fun _ => .pass) := by
    rw [List.filterMap_congr hstatus, ← List.filterMap_eq_map]
    rfl
  rw [procedureStatus, aggregate_eq_pass_iff, hstatuses]
  exact ⟨by simp, by simp⟩

theorem traceabilityRow_status_eq_pass {requirement : Requirement}
    (hmapped : ∃ procedure ∈ procedures, requirement.identifier ∈ procedure.requirementIds)
    (hpass : ∀ procedure ∈ procedures, procedureStatus procedure (caseById cCases) = .pass) :
    (traceabilityRow procedures (caseById cCases) requirement).status = .pass := by
  simp only [traceabilityRow, aggregate_eq_pass_iff]
  constructor
  · obtain ⟨procedure, hmem, hreference⟩ := hmapped
    intro hnone
    have hlinked : procedure ∈
        procedures.filter fun procedure => requirement.identifier ∈ procedure.requirementIds :=
      List.mem_filter.mpr ⟨hmem, decide_eq_true hreference⟩
    rw [List.map_eq_nil_iff.mp hnone] at hlinked
    cases hlinked
  · intro status hstatus
    obtain ⟨procedure, hlinked, rfl⟩ := List.mem_map.mp hstatus
    exact hpass procedure (List.mem_filter.mp hlinked).1

end Rows

section Verdict

variable (requirements : List Requirement) (procedures : List Procedure)
  (cCases : List CCaseResult) (binaryExitCode : Int) (inputIssues : List Issue)

theorem allIssues_eq_nil :
    allIssues requirements procedures cCases binaryExitCode inputIssues = [] ↔
      inputIssues = [] ∧ traceabilityIssues requirements procedures cCases = [] ∧
        (∀ case ∈ cCases, case.status = .pass) ∧ binaryExitCode = 0 := by
  simp only [allIssues, List.append_eq_nil_iff, List.filterMap_eq_nil_iff, caseIssue_eq_none_iff,
    ite_eq_right_iff, List.cons_ne_nil, imp_false, not_not, and_assoc]

theorem allIssues_eq_nil_iff (hnodup : (requirements.map Requirement.identifier).Nodup) :
    allIssues requirements procedures cCases binaryExitCode inputIssues = [] ↔
      Clean requirements procedures cCases binaryExitCode inputIssues := by
  rw [allIssues_eq_nil, traceabilityIssues_eq_nil_iff hnodup]
  constructor
  · rintro ⟨hinputs, htraced, hcases, hbinary⟩
    exact ⟨hinputs, hbinary, hcases, htraced⟩
  · intro h
    exact ⟨h.inputs, h.traced, h.cases, h.binary⟩

theorem result_eq_hostPass_iff (metadata : QualificationMetadata) :
    (reportDictionary requirements procedures cCases metadata binaryExitCode inputIssues).result =
        .hostPass ↔
      allIssues requirements procedures cCases binaryExitCode inputIssues = [] := by
  simp only [reportDictionary, ite_eq_left_iff, reduceCtorEq, imp_false, not_not,
    orderIssues_eq_nil_iff]

variable {requirements procedures cCases binaryExitCode inputIssues}

/-- The rows, the findings and the counts of a clean qualification. -/
theorem rows_of_clean
    (hclean : Clean requirements procedures cCases binaryExitCode inputIssues)
    (hnodup : (requirements.map Requirement.identifier).Nodup)
    (metadata : QualificationMetadata) :
    let report :=
      reportDictionary requirements procedures cCases metadata binaryExitCode inputIssues
    (∀ row ∈ report.procedures, row.status = .pass) ∧
      (∀ row ∈ report.traceability, row.status = .pass) ∧
      report.issues = [] ∧
      report.summary.cCasesPassed = report.summary.cCasesTotal := by
  intro report
  have hprocedures : ∀ procedure ∈ procedures,
      procedureStatus procedure (caseById cCases) = .pass := by
    intro procedure hmem
    exact procedureStatus_eq_pass (hclean.traced.casesReturned procedure hmem) hclean.cases
  refine ⟨?_, ?_, ?_, ?_⟩
  · intro row hrow
    obtain ⟨procedure, hmem, rfl⟩ := List.mem_map.mp hrow
    exact hprocedures procedure hmem
  · intro row hrow
    obtain ⟨requirement, hmem, rfl⟩ := List.mem_map.mp hrow
    exact traceabilityRow_status_eq_pass (hclean.traced.requirementsMapped requirement hmem)
      hprocedures
  · have hnone := (allIssues_eq_nil_iff _ _ _ _ _ hnodup).mpr hclean
    exact List.map_eq_nil_iff.mpr ((orderIssues_eq_nil_iff _).mpr hnone)
  · exact List.countP_eq_length.mpr (fun case hmem => decide_eq_true (hclean.cases case hmem))

end Verdict

/-- A report passes exactly if the qualification is clean, and then every row
of it passes, it lists no issue and it counts every case as passed. A clean
qualification has a report. -/
theorem buildReport_hostPass (requirements : List Requirement) (procedures : List Procedure)
    (cCases : List CCaseResult) (hloaded : Loaded requirements procedures cCases)
    (metadata : QualificationMetadata) (binaryExitCode : Int) (inputIssues : List Issue) :
    let outcome := buildReport requirements procedures cCases metadata binaryExitCode inputIssues
    ((∃ report, outcome = .ok report ∧ report.result = .hostPass) ↔
      Clean requirements procedures cCases binaryExitCode inputIssues) ∧
    ∀ report, outcome = .ok report →
      (report.result = .hostPass ↔
        Clean requirements procedures cCases binaryExitCode inputIssues) ∧
      (report.result = .hostPass →
        (∀ row ∈ report.procedures, row.status = .pass) ∧
        (∀ row ∈ report.traceability, row.status = .pass) ∧
        report.issues = [] ∧
        report.summary.cCasesPassed = report.summary.cCasesTotal) := by
  intro outcome
  have houtcome : ∀ report, outcome = .ok report ↔ Formats binaryExitCode ∧ report =
      reportDictionary requirements procedures cCases metadata binaryExitCode inputIssues :=
    fun report => buildReport_eq_ok_iff requirements procedures cCases
  have hresult : (reportDictionary requirements procedures cCases metadata binaryExitCode
      inputIssues).result = .hostPass ↔
        Clean requirements procedures cCases binaryExitCode inputIssues :=
    (result_eq_hostPass_iff _ _ _ _ _ metadata).trans
      (allIssues_eq_nil_iff _ _ _ _ _ hloaded.requirementIds)
  constructor
  · constructor
    · intro ⟨report, hreport, hpass⟩
      obtain ⟨_, rfl⟩ := (houtcome report).mp hreport
      exact hresult.mp hpass
    · intro hclean
      have hformats : Formats binaryExitCode := hclean.binary ▸ formats_zero
      exact ⟨_, (houtcome _).mpr ⟨hformats, rfl⟩, hresult.mpr hclean⟩
  · intro report hreport
    obtain ⟨_, rfl⟩ := (houtcome report).mp hreport
    refine ⟨hresult, fun hpass => ?_⟩
    exact rows_of_clean (hresult.mp hpass) hloaded.requirementIds metadata

/-- One requirement, one procedure and one case that fit together. -/
theorem buildReport_hostPass_single :
    ∃ report, buildReport
      [⟨str "REQ", str "Title", str "Statement", [str "test"]⟩]
      [⟨str "QTP", str "Title", [str "REQ"], [str "TC"], str "test"⟩]
      [⟨str "TC", str "Name", .pass, []⟩]
      ⟨str "ESQH", str "0.1.0", str "ESQH-BL-0.1.0"⟩ 0 [] = .ok report ∧
        report.result = .hostPass := by
  refine (buildReport_hostPass _ _ _ ⟨by decide, by decide, by decide, by decide⟩ _ 0 []).1.mpr ?_
  exact ⟨rfl, rfl, by decide, ⟨by decide, by decide, by decide, by decide, by decide⟩⟩

end Esqh.Qualification
