import Esqh.Qualification.Verdict

/-!
The rows of a report against the cases behind them. A requirement's status is
aggregated first over the cases of each procedure and then over its procedures;
it is the one that all cases the requirement reaches give at once. A case that
is given a status other than `PASS` therefore never lets anything pass.
-/

namespace Esqh.Qualification

open Collections

/-- The requirement is referenced by a procedure that references the case. -/
def Reaches (procedures : List Procedure) (requirementId caseId : Str) : Prop :=
  ∃ procedure ∈ procedures,
    requirementId ∈ procedure.requirementIds ∧ caseId ∈ procedure.caseIds

/-- A case was returned with the status. -/
def Returned (cCases : List CCaseResult) (caseId : Str) (status : CaseStatus) : Prop :=
  ∃ case ∈ cCases, case.identifier = caseId ∧ case.status = status

/-- No procedure references the requirement, or a case that it reaches has no
outcome. -/
def Unfinished (procedures : List Procedure) (cCases : List CCaseResult)
    (requirementId : Str) : Prop :=
  (∀ procedure ∈ procedures, requirementId ∉ procedure.requirementIds) ∨
    ∃ caseId, Reaches procedures requirementId caseId ∧
      (caseId ∉ cCases.map CCaseResult.identifier ∨ Returned cCases caseId .incomplete)

/-- A case that the requirement reaches failed. -/
def Failed (procedures : List Procedure) (cCases : List CCaseResult)
    (requirementId : Str) : Prop :=
  ∃ caseId, Reaches procedures requirementId caseId ∧ Returned cCases caseId .fail

/-- The status of a requirement from all the cases it reaches at once. -/
def FlatStatus (procedures : List Procedure) (cCases : List CCaseResult)
    (requirementId : Str) : CaseStatus → Prop
  | .incomplete => Unfinished procedures cCases requirementId
  | .fail =>
    ¬Unfinished procedures cCases requirementId ∧ Failed procedures cCases requirementId
  | .pass =>
    ¬Unfinished procedures cCases requirementId ∧ ¬Failed procedures cCases requirementId

/-- The row that a requirement has in a report, told without its procedures'
statuses. -/
structure FlatRow (procedures : List Procedure) (cCases : List CCaseResult)
    (requirement : Requirement) (row : TraceabilityRow) : Prop where
  requirementId : row.requirementId = requirement.identifier
  proceduresSorted : row.procedureIds.Pairwise (· < ·)
  mem_procedureIds : ∀ procedureId, procedureId ∈ row.procedureIds ↔
    ∃ procedure ∈ procedures,
      procedure.identifier = procedureId ∧ requirement.identifier ∈ procedure.requirementIds
  casesSorted : row.caseIds.Pairwise (· < ·)
  mem_caseIds : ∀ caseId, caseId ∈ row.caseIds ↔
    Reaches procedures requirement.identifier caseId
  status : FlatStatus procedures cCases requirement.identifier row.status

section Aggregates

variable (statuses : List CaseStatus) (missing : Prop) [Decidable missing]

theorem aggregate_eq_incomplete_iff :
    aggregate statuses missing = .incomplete ↔ missing ∨ .incomplete ∈ statuses := by
  unfold aggregate
  split_ifs with hincomplete hfail
  · exact iff_of_true rfl hincomplete
  · exact iff_of_false (by simp) hincomplete
  · exact iff_of_false (by simp) hincomplete

theorem aggregate_eq_fail_iff :
    aggregate statuses missing = .fail ↔
      aggregate statuses missing ≠ .incomplete ∧ .fail ∈ statuses := by
  unfold aggregate
  split_ifs with hincomplete hfail
  · simp
  · simp [hfail]
  · simp [hfail]

end Aggregates

section Statuses

variable {cCases : List CCaseResult}

theorem get?_caseById_eq_some_iff (hnodup : (cCases.map CCaseResult.identifier).Nodup)
    {caseId : Str} {case : CCaseResult} :
    (caseById cCases).get? caseId = some case ↔ case ∈ cCases ∧ case.identifier = caseId := by
  have hkeys : ((cCases.map fun item => (item.identifier, item)).map Prod.fst).Nodup := by
    rw [List.map_map]
    exact hnodup
  rw [Dict.get?_ofPairs_eq_some_iff hkeys, List.mem_map]
  constructor
  · rintro ⟨item, hitem, heq⟩
    cases heq
    exact ⟨hitem, rfl⟩
  · rintro ⟨hcase, rfl⟩
    exact ⟨case, hcase, rfl⟩

theorem status_get?_eq_some_iff (hnodup : (cCases.map CCaseResult.identifier).Nodup)
    {caseId : Str} {status : CaseStatus} :
    ((caseById cCases).get? caseId).map CCaseResult.status = some status ↔
      Returned cCases caseId status := by
  rw [Option.map_eq_some_iff]
  apply exists_congr
  intro case
  rw [get?_caseById_eq_some_iff hnodup, and_assoc]

theorem status_get?_eq_none_iff (hnodup : (cCases.map CCaseResult.identifier).Nodup)
    {caseId : Str} :
    ((caseById cCases).get? caseId).map CCaseResult.status = none ↔
      caseId ∉ cCases.map CCaseResult.identifier := by
  rw [Option.eq_none_iff_forall_ne_some]
  simp only [ne_eq, status_get?_eq_some_iff hnodup]
  constructor
  · intro hnone hmem
    obtain ⟨case, hcase, rfl⟩ := List.mem_map.mp hmem
    exact hnone case.status ⟨case, hcase, rfl, rfl⟩
  · rintro hmem status ⟨case, hcase, rfl, -⟩
    exact hmem (List.mem_map_of_mem hcase)

theorem procedureStatus_eq_incomplete_iff (hnodup : (cCases.map CCaseResult.identifier).Nodup)
    (procedure : Procedure) :
    procedureStatus procedure (caseById cCases) = .incomplete ↔
      ∃ caseId ∈ procedure.caseIds,
        caseId ∉ cCases.map CCaseResult.identifier ∨ Returned cCases caseId .incomplete := by
  rw [procedureStatus, aggregate_eq_incomplete_iff, ne_eq, List.filterMap_length_eq_length,
    List.mem_filterMap]
  simp only [status_get?_eq_some_iff hnodup, and_or_left, exists_or, not_forall]
  apply or_congr _ Iff.rfl
  constructor
  · rintro ⟨caseId, hmem, hnone⟩
    rw [Option.not_isSome_iff_eq_none, status_get?_eq_none_iff hnodup] at hnone
    exact ⟨caseId, hmem, hnone⟩
  · rintro ⟨caseId, hmem, hnone⟩
    refine ⟨caseId, hmem, ?_⟩
    rwa [Option.not_isSome_iff_eq_none, status_get?_eq_none_iff hnodup]

theorem procedureStatus_eq_fail_iff (hnodup : (cCases.map CCaseResult.identifier).Nodup)
    (procedure : Procedure) :
    procedureStatus procedure (caseById cCases) = .fail ↔
      procedureStatus procedure (caseById cCases) ≠ .incomplete ∧
        ∃ caseId ∈ procedure.caseIds, Returned cCases caseId .fail := by
  rw [procedureStatus, aggregate_eq_fail_iff, List.mem_filterMap]
  simp only [status_get?_eq_some_iff hnodup]

theorem procedureStatus_eq_pass_iff (hnodup : (cCases.map CCaseResult.identifier).Nodup)
    (procedure : Procedure) :
    procedureStatus procedure (caseById cCases) = .pass ↔
      ∀ caseId ∈ procedure.caseIds, Returned cCases caseId .pass := by
  rw [procedureStatus, aggregate_eq_pass_iff, ne_eq, not_not, List.filterMap_length_eq_length]
  simp only [← status_get?_eq_some_iff hnodup]
  constructor
  · rintro ⟨hreturned, hpass⟩ caseId hmem
    obtain ⟨status, hstatus⟩ := Option.isSome_iff_exists.mp (hreturned caseId hmem)
    rw [hstatus, hpass status (List.mem_filterMap.mpr ⟨caseId, hmem, hstatus⟩)]
  · intro hall
    constructor
    · intro caseId hmem
      rw [hall caseId hmem, Option.isSome_some]
    · intro status hstatus
      obtain ⟨caseId, hmem, hget⟩ := List.mem_filterMap.mp hstatus
      rw [hall caseId hmem] at hget
      cases hget
      rfl

end Statuses

section Rows

variable {procedures : List Procedure} {cCases : List CCaseResult}

theorem mem_linkedStatuses (requirement : Requirement) (status : CaseStatus) :
    status ∈ (procedures.filter fun procedure =>
        requirement.identifier ∈ procedure.requirementIds).map
          (fun procedure => procedureStatus procedure (caseById cCases)) ↔
      ∃ procedure ∈ procedures, requirement.identifier ∈ procedure.requirementIds ∧
        procedureStatus procedure (caseById cCases) = status := by
  simp only [List.mem_map, List.mem_filter, decide_eq_true_eq, and_assoc]

/-- The two levels of the aggregation find the same open ends as the flat one. -/
theorem traceabilityRow_incomplete_iff (hnodup : (cCases.map CCaseResult.identifier).Nodup)
    (requirement : Requirement) :
    (traceabilityRow procedures (caseById cCases) requirement).status = .incomplete ↔
      Unfinished procedures cCases requirement.identifier := by
  simp only [traceabilityRow, aggregate_eq_incomplete_iff, mem_linkedStatuses,
    List.map_eq_nil_iff, List.filter_eq_nil_iff, decide_eq_true_eq,
    procedureStatus_eq_incomplete_iff hnodup]
  apply or_congr Iff.rfl
  constructor
  · rintro ⟨procedure, hmem, hreference, caseId, hcase, hopen⟩
    exact ⟨caseId, ⟨procedure, hmem, hreference, hcase⟩, hopen⟩
  · rintro ⟨caseId, ⟨procedure, hmem, hreference, hcase⟩, hopen⟩
    exact ⟨procedure, hmem, hreference, caseId, hcase, hopen⟩

theorem traceabilityRow_fail_iff (hnodup : (cCases.map CCaseResult.identifier).Nodup)
    (requirement : Requirement) :
    (traceabilityRow procedures (caseById cCases) requirement).status = .fail ↔
      ¬Unfinished procedures cCases requirement.identifier ∧
        Failed procedures cCases requirement.identifier := by
  rw [← traceabilityRow_incomplete_iff hnodup requirement]
  simp only [traceabilityRow, aggregate_eq_fail_iff, mem_linkedStatuses,
    procedureStatus_eq_fail_iff hnodup]
  apply and_congr_right
  intro hfinished
  constructor
  · rintro ⟨procedure, hmem, hreference, -, caseId, hcase, hfail⟩
    exact ⟨caseId, ⟨procedure, hmem, hreference, hcase⟩, hfail⟩
  · rintro ⟨caseId, ⟨procedure, hmem, hreference, hcase⟩, hfail⟩
    refine ⟨procedure, hmem, hreference, ?_, caseId, hcase, hfail⟩
    -- an incomplete procedure would have made the row incomplete
    intro hincomplete
    apply hfinished
    rw [aggregate_eq_incomplete_iff, mem_linkedStatuses]
    exact .inr ⟨procedure, hmem, hreference, hincomplete⟩

theorem traceabilityRow_flatStatus (hnodup : (cCases.map CCaseResult.identifier).Nodup)
    (requirement : Requirement) :
    FlatStatus procedures cCases requirement.identifier
      (traceabilityRow procedures (caseById cCases) requirement).status := by
  have hincomplete : (traceabilityRow procedures (caseById cCases) requirement).status =
      .incomplete ↔ Unfinished procedures cCases requirement.identifier :=
    traceabilityRow_incomplete_iff hnodup requirement
  have hfail : (traceabilityRow procedures (caseById cCases) requirement).status = .fail ↔
      ¬Unfinished procedures cCases requirement.identifier ∧
        Failed procedures cCases requirement.identifier :=
    traceabilityRow_fail_iff hnodup requirement
  cases hstatus : (traceabilityRow procedures (caseById cCases) requirement).status with
  | incomplete => exact hincomplete.mp hstatus
  | fail => exact hfail.mp hstatus
  | pass =>
      rw [hstatus] at hincomplete hfail
      have hfinished : ¬Unfinished procedures cCases requirement.identifier := by
        simpa using hincomplete
      refine ⟨hfinished, fun hfailed => ?_⟩
      cases hfail.mpr ⟨hfinished, hfailed⟩

theorem traceabilityRow_flatRow {requirements : List Requirement}
    (hloaded : Loaded requirements procedures cCases) (requirement : Requirement) :
    FlatRow procedures cCases requirement
      (traceabilityRow procedures (caseById cCases) requirement) where
  requirementId := rfl
  proceduresSorted := by
    apply sortedBy_id_pairwise_lt
    exact (List.Sublist.map Procedure.identifier List.filter_sublist).nodup hloaded.procedureIds
  mem_procedureIds := by
    intro procedureId
    simp only [traceabilityRow, mem_sortedBy, List.mem_map, List.mem_filter, decide_eq_true_eq]
    apply exists_congr
    intro procedure
    constructor
    · rintro ⟨⟨hmem, hreference⟩, rfl⟩
      exact ⟨hmem, rfl, hreference⟩
    · rintro ⟨hmem, rfl, hreference⟩
      exact ⟨⟨hmem, hreference⟩, rfl⟩
  casesSorted := sortedBy_id_pairwise_lt (List.nodup_dedup _)
  mem_caseIds := by
    intro caseId
    simp only [traceabilityRow, mem_sortedBy, List.mem_dedup, List.mem_flatMap, List.mem_filter,
      decide_eq_true_eq, and_assoc]
    rfl
  status := traceabilityRow_flatStatus hloaded.caseIds requirement

end Rows

section Degradation

/-- The case as it was, or with a status other than `PASS`. -/
def Degraded (before after : CCaseResult) : Prop :=
  after = before ∨ ∃ status, status ≠ .pass ∧ after = { before with status := status }

variable {procedures : List Procedure} {cCases degraded : List CCaseResult}

theorem Degraded.identifier {before after : CCaseResult} (h : Degraded before after) :
    after.identifier = before.identifier := by
  rcases h with rfl | ⟨status, -, rfl⟩
  · rfl
  · rfl

theorem Degraded.eq_of_pass {before after : CCaseResult} (h : Degraded before after)
    (hpass : after.status = .pass) : after = before := by
  rcases h with rfl | ⟨status, hstatus, rfl⟩
  · rfl
  · exact absurd hpass hstatus

theorem map_identifier_of_degraded (h : List.Forall₂ Degraded cCases degraded) :
    degraded.map CCaseResult.identifier = cCases.map CCaseResult.identifier := by
  induction h with
  | nil => rfl
  | cons hcase _ ih => rw [List.map_cons, List.map_cons, hcase.identifier, ih]

theorem mem_of_degraded (h : List.Forall₂ Degraded cCases degraded) {case : CCaseResult}
    (hmem : case ∈ degraded) (hpass : case.status = .pass) : case ∈ cCases := by
  induction h with
  | nil => exact hmem
  | cons hcase _ ih =>
      rcases List.mem_cons.mp hmem with rfl | hmem
      · rw [hcase.eq_of_pass hpass]
        exact List.mem_cons_self
      · exact List.mem_cons_of_mem _ (ih hmem)

theorem eq_of_degraded (h : List.Forall₂ Degraded cCases degraded)
    (hpass : ∀ case ∈ degraded, case.status = .pass) : degraded = cCases := by
  induction h with
  | nil => rfl
  | cons hcase _ ih =>
      rw [hcase.eq_of_pass (hpass _ List.mem_cons_self),
        ih (fun case hmem => hpass case (List.mem_cons_of_mem _ hmem))]

/-- A procedure that passes with the degraded cases passed before. -/
theorem procedureStatus_pass_of_degraded (h : List.Forall₂ Degraded cCases degraded)
    (hnodup : (cCases.map CCaseResult.identifier).Nodup) {procedure : Procedure}
    (hpass : procedureStatus procedure (caseById degraded) = .pass) :
    procedureStatus procedure (caseById cCases) = .pass := by
  have hnodup' : (degraded.map CCaseResult.identifier).Nodup := by
    rwa [map_identifier_of_degraded h]
  rw [procedureStatus_eq_pass_iff hnodup'] at hpass
  rw [procedureStatus_eq_pass_iff hnodup]
  intro caseId hmem
  obtain ⟨case, hcase, hidentifier, hstatus⟩ := hpass caseId hmem
  exact ⟨case, mem_of_degraded h hcase hstatus, hidentifier, hstatus⟩

theorem traceabilityRow_pass_of_degraded (h : List.Forall₂ Degraded cCases degraded)
    (hnodup : (cCases.map CCaseResult.identifier).Nodup) {requirement : Requirement}
    (hpass : (traceabilityRow procedures (caseById degraded) requirement).status = .pass) :
    (traceabilityRow procedures (caseById cCases) requirement).status = .pass := by
  simp only [traceabilityRow, aggregate_eq_pass_iff, List.map_eq_nil_iff, mem_linkedStatuses]
    at hpass ⊢
  refine ⟨hpass.1, ?_⟩
  rintro status ⟨procedure, hmem, hreference, rfl⟩
  apply procedureStatus_pass_of_degraded h hnodup
  exact hpass.2 _ ⟨procedure, hmem, hreference, rfl⟩

end Degradation

/-- Every requirement's row is the flat one, and cases that are given a status
other than `PASS` let no row and no result pass that did not pass before. -/
theorem buildReport_flat (requirements : List Requirement) (procedures : List Procedure)
    (cCases : List CCaseResult) (hloaded : Loaded requirements procedures cCases)
    (metadata : QualificationMetadata) (binaryExitCode : Int) (inputIssues : List Issue)
    (report : Report) (hreport : buildReport requirements procedures cCases metadata
      binaryExitCode inputIssues = .ok report) :
    List.Forall₂ (FlatRow procedures cCases) requirements report.traceability ∧
    ∀ degraded, List.Forall₂ Degraded cCases degraded →
      ∃ after, buildReport requirements procedures degraded metadata binaryExitCode inputIssues =
        .ok after ∧
      List.Forall₂ (fun before after => after.id = before.id ∧
        (after.status = .pass → before.status = .pass)) report.procedures after.procedures ∧
      List.Forall₂ (fun before after => after.requirementId = before.requirementId ∧
        (after.status = .pass → before.status = .pass)) report.traceability after.traceability ∧
      (after.result = .hostPass → report.result = .hostPass) := by
  obtain ⟨hformats, rfl⟩ := (buildReport_eq_ok_iff _ _ _).mp hreport
  constructor
  · apply List.forall₂_map_right_iff.mpr
    exact List.forall₂_same.mpr (fun requirement _ => traceabilityRow_flatRow hloaded requirement)
  · intro degraded hdegraded
    refine ⟨_, (buildReport_eq_ok_iff _ _ _).mpr ⟨hformats, rfl⟩, ?_, ?_, ?_⟩
    · apply List.forall₂_map_left_iff.mpr
      apply List.forall₂_map_right_iff.mpr
      refine List.forall₂_same.mpr fun procedure _ => ⟨rfl, ?_⟩
      exact procedureStatus_pass_of_degraded hdegraded hloaded.caseIds
    · apply List.forall₂_map_left_iff.mpr
      apply List.forall₂_map_right_iff.mpr
      refine List.forall₂_same.mpr fun requirement _ => ⟨rfl, ?_⟩
      exact traceabilityRow_pass_of_degraded hdegraded hloaded.caseIds
    · intro hresult
      have hnone := (result_eq_hostPass_iff _ _ _ _ _ _).mp hresult
      have hpass := ((allIssues_eq_nil _ _ _ _ _).mp hnone).2.2.1
      have hsame : degraded = cCases := eq_of_degraded hdegraded hpass
      rw [hsame] at hnone
      exact (result_eq_hostPass_iff _ _ _ _ _ _).mpr hnone

/-- Two procedures of one requirement share a case, which did not complete. -/
theorem buildReport_flat_shared :
    let requirement : Requirement := ⟨str "REQ", str "Title", str "Statement", []⟩
    let procedures : List Procedure :=
      [⟨str "QTP-2", str "Title", [str "REQ"], [str "TC-2", str "TC-1"], str "test"⟩,
        ⟨str "QTP-1", str "Title", [str "REQ"], [str "TC-2"], str "test"⟩]
    let before : List CCaseResult :=
      [⟨str "TC-1", str "Name", .fail, []⟩, ⟨str "TC-2", str "Name", .pass, []⟩]
    let after : List CCaseResult :=
      [⟨str "TC-1", str "Name", .fail, []⟩, ⟨str "TC-2", str "Name", .incomplete, []⟩]
    ∃ reportBefore reportAfter,
      buildReport [requirement] procedures before ⟨[], [], []⟩ 0 [] = .ok reportBefore ∧
      buildReport [requirement] procedures after ⟨[], [], []⟩ 0 [] = .ok reportAfter ∧
      List.Forall₂ (FlatRow procedures before) [requirement] reportBefore.traceability ∧
      (reportAfter.result = .hostPass → reportBefore.result = .hostPass) := by
  intro requirement procedures before after
  have hbefore : Loaded [requirement] procedures before :=
    ⟨by decide, by decide, by decide, by decide⟩
  have hdegraded : List.Forall₂ Degraded before after :=
    .cons (.inl rfl) (.cons (.inr ⟨.incomplete, by decide, rfl⟩) .nil)
  have hreport : buildReport [requirement] procedures before ⟨[], [], []⟩ 0 [] = .ok _ :=
    (buildReport_eq_ok_iff _ _ _).mpr ⟨formats_zero, rfl⟩
  obtain ⟨hrows, hmonotone⟩ := buildReport_flat _ _ _ hbefore _ 0 [] _ hreport
  obtain ⟨reportAfter, hafter, _, _, hresult⟩ := hmonotone after hdegraded
  exact ⟨_, reportAfter, hreport, hafter, hrows, hresult⟩

end Esqh.Qualification
