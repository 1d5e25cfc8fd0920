import Esqh.Qualification.Rendering
import Esqh.Qualification.Traceability

/-!
The characters of the Markdown document and of the findings. Both are made of
the program's own texts, of numbers and of texts of the inputs, so what holds of
plain characters holds of every line exactly if it holds of the texts that were
put into it.
-/

namespace Esqh.Qualification

open Collections

variable {P : CodePoint → Prop}

section Cells

theorem everyPoint_orElse (hplain : HoldsOfPlain P) (text : Str) {other : String}
    (hother : other.toList.all Plain) : EveryPoint P (orElse text other) ↔ EveryPoint P text := by
  unfold orElse
  split
  next hempty =>
      rw [hempty]
      exact iff_of_true (everyPoint_str hplain hother) everyPoint_nil
  next => exact Iff.rfl

theorem everyPoint_orUnavailable (hplain : HoldsOfPlain P) (text : Option Str) :
    EveryPoint P (orUnavailable text) ↔ ∀ found ∈ text, EveryPoint P found := by
  rw [orUnavailable, everyPoint_orElse hplain _ rfl]
  cases text <;> simp

theorem everyPoint_commas (hplain : HoldsOfPlain P) (texts : List Str) :
    EveryPoint P (join (str ", ") texts) ↔ ∀ text ∈ texts, EveryPoint P text :=
  everyPoint_join (everyPoint_str hplain rfl) texts

/-- A cell keeps every character but the line feeds and the column separators. -/
theorem everyPoint_safeCell (hplain : HoldsOfPlain P) (text : Str) :
    EveryPoint P (safeCell text) ↔ EveryPoint (fun point => point = lineFeed ∨ P point) text := by
  have hpipe : P 124 := hplain '|' rfl
  have hescaped : EveryPoint (fun point => point = lineFeed ∨ P point) (str "\\|") :=
    everyPoint_str (hplain.mono fun point hpoint => .inr hpoint) rfl
  rw [safeCell, everyPoint_replace (everyPoint_str hplain rfl),
    everyPoint_replace hescaped]
  apply forall₂_congr
  intro point _
  apply or_iff_right_of_imp
  rintro rfl
  exact .inr hpipe

theorem everyPoint_tableRow (hplain : HoldsOfPlain P) (cells : List Str) :
    EveryPoint P (tableRow cells) ↔ ∀ cell ∈ cells, EveryPoint P cell := by
  have hseparator : EveryPoint P (str " | ") := everyPoint_str hplain rfl
  simp (disch := decide) [tableRow, everyPoint_join hseparator, everyPoint_str hplain]

theorem everyPoint_caseStatus (hplain : HoldsOfPlain P) (status : CaseStatus) :
    EveryPoint P status.text := by
  cases status <;> exact everyPoint_str hplain rfl

theorem everyPoint_reportResult (hplain : HoldsOfPlain P) (result : ReportResult) :
    EveryPoint P result.text := by
  cases result <;> exact everyPoint_str hplain rfl

end Cells

section Lines

theorem everyPoint_traceabilityLine (hplain : HoldsOfPlain P) (row : TraceabilityRow) :
    EveryPoint P (traceabilityLine row) ↔ EveryPoint P row.requirementId ∧
      (∀ procedureId ∈ row.procedureIds, EveryPoint P procedureId) ∧
        ∀ caseId ∈ row.caseIds, EveryPoint P caseId := by
  simp (disch := decide) [traceabilityLine, everyPoint_tableRow hplain, everyPoint_orElse hplain,
    everyPoint_commas hplain, everyPoint_caseStatus hplain]

theorem everyPoint_procedureLine (hplain : HoldsOfPlain P) (row : ProcedureRow) :
    EveryPoint P (procedureLine row) ↔ EveryPoint P row.id ∧ EveryPoint P row.verificationMethod ∧
      (∀ requirementId ∈ row.requirementIds, EveryPoint P requirementId) ∧
        ∀ caseId ∈ row.caseIds, EveryPoint P caseId := by
  simp [procedureLine, everyPoint_tableRow hplain, everyPoint_commas hplain,
    everyPoint_caseStatus hplain]

theorem everyPoint_caseLine (hplain : HoldsOfPlain P) (row : CCaseRow) :
    EveryPoint P (caseLine row) ↔ EveryPoint P row.id ∧
      EveryPoint (fun point => point = lineFeed ∨ P point) row.name ∧
        EveryPoint (fun point => point = lineFeed ∨ P point) row.message := by
  simp [caseLine, everyPoint_tableRow hplain, everyPoint_safeCell hplain,
    everyPoint_caseStatus hplain]

theorem everyPoint_issueLine (hplain : HoldsOfPlain P) (issue : IssueRecord) :
    EveryPoint P (issueLine issue) ↔ EveryPoint P issue.code ∧
      (∀ subjectId ∈ issue.subjectId, EveryPoint P subjectId) ∧ EveryPoint P issue.message := by
  cases hsubject : issue.subjectId with
  | none => simp (disch := decide) [issueLine, hsubject, everyPoint_str hplain]
  | some subjectId =>
      simp only [issueLine, hsubject]
      split
      next hempty => simp (disch := decide) [hempty, everyPoint_str hplain]
      next => simp (disch := decide) [everyPoint_str hplain]

theorem forall_mem_linesOr {T : Str → Prop} {α : Type} (line : α → Str) (rows : List α)
    {other : String} (hother : T (str other)) :
    (∀ text ∈ linesOr line rows other, T text) ↔ ∀ row ∈ rows, T (line row) := by
  unfold linesOr
  split
  next hempty =>
      rw [List.isEmpty_iff.mp hempty, List.forall_mem_singleton]
      exact iff_of_true hother (List.forall_mem_nil _)
  next => exact List.forall_mem_map

theorem everyPoint_linesOr (hplain : HoldsOfPlain P) {α : Type} (line : α → Str) (rows : List α)
    {other : String} (hother : other.toList.all Plain) :
    (∀ text ∈ linesOr line rows other, EveryPoint P text) ↔
      ∀ row ∈ rows, EveryPoint P (line row) :=
  forall_mem_linesOr line rows (everyPoint_str hplain hother)

theorem everyPoint_countLine (hplain : HoldsOfPlain P) {label : String}
    (h : label.toList.all Plain) (count : Nat) : EveryPoint P (countLine label count) := by
  simp (disch := decide) [countLine, everyPoint_str hplain, everyPoint_str hplain h,
    everyPoint_intText hplain]

/-- The references of a requirement's row are those of the procedures. -/
theorem forall_mem_traceabilityRow {T : Str → Prop} {procedures : List Procedure}
    (hidentifiers : ∀ procedure ∈ procedures, T procedure.identifier)
    (hcaseIds : ∀ procedure ∈ procedures, ∀ caseId ∈ procedure.caseIds, T caseId)
    (caseById : Dict Str CCaseResult) (requirement : Requirement) :
    (∀ procedureId ∈ (traceabilityRow procedures caseById requirement).procedureIds,
        T procedureId) ∧
      ∀ caseId ∈ (traceabilityRow procedures caseById requirement).caseIds, T caseId := by
  simp only [traceabilityRow, mem_sortedBy, List.mem_dedup, List.mem_flatMap, List.mem_map,
    List.mem_filter]
  constructor
  · rintro _ ⟨procedure, ⟨hmem, _⟩, rfl⟩
    exact hidentifiers procedure hmem
  · rintro caseId ⟨procedure, ⟨hmem, _⟩, hcaseId⟩
    exact hcaseIds procedure hmem caseId hcaseId

end Lines

section Documents

/-- The texts that every report has in common. -/
structure Report.Standard (report : Report) : Prop where
  evidenceScope : report.evidenceScope = hostEvidenceScope
  externalGates : report.externalGates = Qualification.externalGates

theorem everyPoint_markdownLines (hplain : HoldsOfPlain P) {report : Report}
    (hstandard : report.Standard) :
    (∀ line ∈ markdownLines report, EveryPoint P line) ↔
      ((∀ text ∈ report.project, EveryPoint P text) ∧
        (∀ text ∈ report.version, EveryPoint P text) ∧
          ∀ text ∈ report.baseline, EveryPoint P text) ∧
        (∀ row ∈ report.traceability, EveryPoint P (traceabilityLine row)) ∧
          (∀ row ∈ report.procedures, EveryPoint P (procedureLine row)) ∧
            (∀ row ∈ report.cCases, EveryPoint P (caseLine row)) ∧
              ∀ issue ∈ report.issues, EveryPoint P (issueLine issue) := by
  have hexit : EveryPoint P (report.binaryExitCode.elim (str "Unavailable") intText) := by
    cases report.binaryExitCode with
    | none => exact everyPoint_str hplain rfl
    | some exitCode => exact everyPoint_intText hplain exitCode
  simp (disch := apply plain_literal; decide) only
    [markdownLines, hstandard.evidenceScope, hstandard.externalGates, externalGates,
      armExternalGateNote, hostEvidenceScope, List.forall_mem_append, List.forall_mem_cons,
      List.not_mem_nil, false_imp_iff, implies_true, everyPoint_append, everyPoint_str hplain,
      everyPoint_orUnavailable hplain, everyPoint_countLine hplain, everyPoint_reportResult hplain,
      hexit, everyPoint_linesOr hplain, true_and, and_true, and_assoc]

end Documents

section Issues

/-- Every character of the texts of a finding. -/
def Issue.EveryPoint (P : CodePoint → Prop) (issue : Issue) : Prop :=
  Qualification.EveryPoint P issue.code ∧ Qualification.EveryPoint P issue.message ∧
    Qualification.EveryPoint P issue.subjectId

variable {requirements : List Requirement} {procedures : List Procedure}
  {cCases : List CCaseResult}

theorem everyPoint_of_mem_requirementIssues (hplain : HoldsOfPlain P) {procedure : Procedure}
    (hidentifier : EveryPoint P procedure.identifier)
    (hmethod : EveryPoint P procedure.verificationMethod) {requirementId : Str}
    (hreference : EveryPoint P requirementId) :
    ∀ issue ∈ requirementIssues requirements procedure requirementId, issue.EveryPoint P := by
  unfold requirementIssues
  split
  · simp (disch := apply plain_literal; decide)
      [Issue.EveryPoint, unknownRequirement, hidentifier, hreference, everyPoint_str hplain]
  · split
    · simp (disch := apply plain_literal; decide)
        [Issue.EveryPoint, verificationMethodMismatch, hidentifier, hmethod, hreference,
          everyPoint_str hplain]
    · exact List.forall_mem_nil _

theorem everyPoint_of_mem_caseIssues (hplain : HoldsOfPlain P) {procedure : Procedure}
    (hidentifier : EveryPoint P procedure.identifier) {caseId : Str}
    (hreference : EveryPoint P caseId) :
    ∀ issue ∈ caseIssues cCases procedure caseId, issue.EveryPoint P := by
  unfold caseIssues
  split
  · simp (disch := apply plain_literal; decide)
      [Issue.EveryPoint, missingCCase, hidentifier, hreference, everyPoint_str hplain]
  · exact List.forall_mem_nil _

theorem everyPoint_of_caseIssue (hplain : HoldsOfPlain P) {case : CCaseResult}
    (hidentifier : EveryPoint P case.identifier) {issue : Issue}
    (h : caseIssue case = some issue) : issue.EveryPoint P := by
  unfold caseIssue at h
  split at h
  · cases h
  · cases h
    simp (disch := apply plain_literal; decide)
      [Issue.EveryPoint, caseFailed, hidentifier, everyPoint_str hplain]
  · cases h
    simp (disch := apply plain_literal; decide)
      [Issue.EveryPoint, caseIncomplete, hidentifier, everyPoint_str hplain]

/-- What a finding says of the inputs are identifiers, references and methods. -/
theorem everyPoint_of_mem_allIssues (hplain : HoldsOfPlain P)
    (hrequirements : ∀ requirement ∈ requirements, EveryPoint P requirement.identifier)
    (hprocedures : ∀ procedure ∈ procedures, EveryPoint P procedure.identifier ∧
      EveryPoint P procedure.verificationMethod ∧
        (∀ requirementId ∈ procedure.requirementIds, EveryPoint P requirementId) ∧
          ∀ caseId ∈ procedure.caseIds, EveryPoint P caseId)
    (hcases : ∀ case ∈ cCases, EveryPoint P case.identifier) (binaryExitCode : Int) :
    ∀ issue ∈ allIssues requirements procedures cCases binaryExitCode [], issue.EveryPoint P := by
  intro issue hissue
  simp only [allIssues, traceabilityIssues_eq, List.mem_append, mem_sortedBy, foundIssues,
    List.mem_flatMap, procedureIssues, List.mem_map, unresolved, List.mem_filter,
    List.mem_dedup, List.mem_filterMap] at hissue
  rcases hissue with ((hnone | ((hreference | hunmapped) | hunknown)) | hcase) | hexit
  · cases hnone
  · obtain ⟨procedure, hmem, hreference⟩ := hreference
    obtain ⟨hidentifier, hmethod, hrequirementIds, hcaseIds⟩ := hprocedures procedure hmem
    rcases hreference with ⟨requirementId, hid, hissue⟩ | ⟨caseId, hid, hissue⟩
    · exact everyPoint_of_mem_requirementIssues hplain hidentifier hmethod
        (hrequirementIds requirementId hid) issue hissue
    · exact everyPoint_of_mem_caseIssues hplain hidentifier (hcaseIds caseId hid) issue hissue
  · obtain ⟨_, ⟨⟨requirement, hmem, rfl⟩, _⟩, rfl⟩ := hunmapped
    simp (disch := apply plain_literal; decide)
      [Issue.EveryPoint, unmappedRequirement, hrequirements requirement hmem,
        everyPoint_str hplain]
  · obtain ⟨_, ⟨⟨case, hmem, rfl⟩, _⟩, rfl⟩ := hunknown
    simp (disch := apply plain_literal; decide) [Issue.EveryPoint, unknownCCase, hcases case hmem,
      everyPoint_str hplain]
  · obtain ⟨case, hmem, hfound⟩ := hcase
    exact everyPoint_of_caseIssue hplain (hcases case hmem) hfound
  · split at hexit
    · rw [List.mem_singleton.mp hexit]
      simp (disch := apply plain_literal; decide)
        [Issue.EveryPoint, binaryExitNonzero, everyPoint_str hplain, everyPoint_intText hplain]
    · cases hexit

theorem mem_of_mem_orderIssues {issues : List Issue} {issue : Issue}
    (h : issue ∈ orderIssues issues) : issue ∈ issues := by
  obtain ⟨entry, hentry, rfl⟩ := List.mem_map.mp ((mem_sortedBy Issue.orderKey).mp h)
  obtain ⟨found, hfound, rfl⟩ := List.mem_map.mp (Dict.mem_of_mem_entries_ofPairs hentry)
  exact hfound

end Issues

end Esqh.Qualification
