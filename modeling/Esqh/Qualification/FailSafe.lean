import Esqh.Qualification.Gates

/-!
When the runner fails safe. `_load_json` handles `OSError` and malformed JSON
but not bytes that are no UTF-8, `build_report` does not expect an exit code with
more digits than are formatted, and `write_reports` no lone surrogate, which JSON
escapes and file names can bring into a report.
-/

namespace Esqh.Qualification

open Outcome Utf8

variable (runtime : Runtime)

/-- One of the files is unreadable, not UTF-8, not JSON or violates its schema. -/
def Defective (requirements procedures cResults : InputFile) : Prop :=
  (∀ loaded, loadRequirements runtime requirements ≠ .ok loaded) ∨
    (∀ loaded, loadProcedures runtime procedures ≠ .ok loaded) ∨
    ∀ C metadata, cResults.Holds runtime C →
      documentMetadata runtime C (str "C test results") = .ok metadata →
      ∀ cCases, parseCResults runtime C ≠ .ok cCases

/-- The run returns an exit code of its own, after writing both renderings of
one report, and reports an input error if a file is defective. -/
def FailSafe (requirements procedures cResults : InputFile) (binaryExitCode : CapturedExitCode)
    (timeoutSeconds : Str) (disk : Disk) : Prop :=
  ∃ exitCode report written,
    runQualification runtime
        (capturedRequest requirements procedures cResults binaryExitCode timeoutSeconds) disk =
      (.ok (exitCode, report), written) ∧
    exitCode ∈ [exitOk, exitQualificationFailed, exitInputError] ∧
    written.jsonOutput.bind decode = some (jsonText report) ∧
    written.markdownOutput.bind decode = some (renderMarkdown report) ∧
    (Defective runtime requirements procedures cResults →
      exitCode = exitInputError ∧ report.result = .fail)

/-- An input error that is raised can be reported, with the metadata known by
then. -/
def Carried (metadata : Option QualificationMetadata) (raised : Raised) : Prop :=
  ∀ rejection, raised = .inputValidationError rejection →
    (∀ known ∈ metadata, known.Printable) ∧ ∀ issue ∈ rejection.findings, issue.Printable

/-- No text that has to be reported contains a surrogate, and neither does the
report of accepted inputs break off at its exit code. -/
structure CarriesText (request : Request) (source : ResultSource) : Prop where
  rejections : StopsIn Carried runtime request source
  evidence : ∀ {R P C : Json} {evidence : Evidence}, request.requirements.Holds runtime R →
    request.procedures.Holds runtime P →
    readResults runtime source request.timeoutSeconds = .ok (C, evidence.observedExitCode) →
    Validated runtime R P C evidence → evidence.Printable

section Escapes

variable {runtime} {requirements procedures cResults : InputFile}
  {binaryExitCode : CapturedExitCode} {timeoutSeconds : Str}

/-- The exception is reported. -/
def Failure.Reported (failure : Failure) : Prop :=
  failure.2.IsRejection ∧ Carried failure.1 failure.2

theorem not_defective_of_gatherEvidence {evidence : Evidence}
    (h : gatherEvidence runtime
      (capturedRequest requirements procedures cResults binaryExitCode timeoutSeconds) =
        .ok evidence) : ¬Defective runtime requirements procedures cResults := by
  obtain ⟨source, R, P, C, hsource, hR, hP, hC, hvalid⟩ := gatherEvidence_eq_ok_iff.mp h
  obtain ⟨exitCode, _, hcaptured⟩ := bind_eq_ok_iff.mp hsource
  cases hcaptured
  obtain ⟨document, hloaded, heq⟩ := bind_eq_ok_iff.mp hC
  cases heq
  rintro (hrequirements | hprocedures | hresults)
  · exact hrequirements _ ((loadRequirements_of_holds hR _).mpr hvalid.requirements)
  · exact hprocedures _ ((loadProcedures_of_holds hP _).mpr hvalid.procedures)
  · exact hresults C evidence.metadata ((loadJson_eq_ok_iff runtime).mp hloaded) hvalid.cMetadata
      evidence.cCases hvalid.cCases

theorem reportExitCode_mem (report : Report) :
    reportExitCode report false ∈ [exitOk, exitQualificationFailed, exitInputError] := by
  unfold reportExitCode
  split
  · decide
  · decide

/-- A run that reaches the writing of a report fails safe exactly if the report
can be written. -/
theorem failSafe_of_publish {disk : Disk} {exitCode : Int} {report : Report}
    (heq : runQualification runtime
        (capturedRequest requirements procedures cResults binaryExitCode timeoutSeconds) disk =
      publish exitCode report disk)
    (hcode : exitCode ∈ [exitOk, exitQualificationFailed, exitInputError])
    (hdefective : Defective runtime requirements procedures cResults →
      exitCode = exitInputError ∧ report.result = .fail) :
    FailSafe runtime requirements procedures cResults binaryExitCode timeoutSeconds disk ↔
      report.Writable := by
  constructor
  · rintro ⟨_, _, written, hrun, _⟩
    rw [heq] at hrun
    exact (publish_eq_ok (congrArg Prod.fst hrun)).2.2
  · intro hwritable
    obtain ⟨written, hpublished, hjson, hmarkdown⟩ := publish_of_writable hwritable exitCode disk
    exact ⟨_, _, written, heq.trans hpublished, hcode, hjson, hmarkdown, hdefective⟩

/-- A run fails safe exactly if it gathers texts that can be written, or stops
gathering with an exception that is reported. -/
theorem failSafe_iff_gatherEvidence (disk : Disk) {gathered : Except Failure Evidence}
    (hgathered : gatherEvidence runtime
      (capturedRequest requirements procedures cResults binaryExitCode timeoutSeconds) =
        gathered) :
    FailSafe runtime requirements procedures cResults binaryExitCode timeoutSeconds disk ↔
      ErrorsIn Failure.Reported gathered ∧
        ∀ evidence, gathered = .ok evidence → evidence.Printable := by
  rcases runQualification_cases runtime
      (capturedRequest requirements procedures cResults binaryExitCode timeoutSeconds) disk with
    ⟨evidence, hgather, _, heq⟩ | ⟨metadata, rejection, hgather, heq⟩ |
      ⟨metadata, raised, hgather, hraised, heq⟩ | ⟨evidence, hgather, hformats, heq⟩
  · cases hgather.symm.trans hgathered
    rw [failSafe_of_publish heq (reportExitCode_mem evidence.report)
      (fun hdefective => absurd hdefective (not_defective_of_gatherEvidence hgather)),
      evidence.writable_iff]
    constructor
    · intro hprintable
      refine ⟨errorsIn_ok evidence, ?_⟩
      rintro _ ⟨⟩
      exact hprintable
    · exact fun h => h.2 evidence rfl
  · cases hgather.symm.trans hgathered
    rw [failSafe_of_publish heq (by decide) (fun _ => ⟨rfl, rfl⟩),
      writable_validationFailureReport_iff, errorsIn_error]
    constructor
    · intro hcarried
      refine ⟨⟨⟨rejection, rfl⟩, ?_⟩, nofun⟩
      rintro _ ⟨⟩
      exact hcarried
    · rintro ⟨⟨_, hcarried⟩, _⟩
      exact hcarried rejection rfl
  · cases hgather.symm.trans hgathered
    rw [errorsIn_error]
    apply iff_of_false
    · rintro ⟨exitCode, report, written, hrun, _⟩
      rw [heq] at hrun
      cases hrun
    · rintro ⟨⟨⟨rejection, hrejection⟩, _⟩, _⟩
      exact hraised rejection hrejection
  · cases hgather.symm.trans hgathered
    apply iff_of_false
    · rintro ⟨exitCode, report, written, hrun, _⟩
      rw [heq] at hrun
      cases hrun
    · intro ⟨_, hprintable⟩
      exact hformats (hprintable evidence rfl).observedExitCode

theorem findings_of_check {rejection : Rejection} (h : binaryExitCode.check = .error rejection) :
    rejection.findings = [invalidExitCode] := by
  unfold CapturedExitCode.check at h
  split at h
  · split at h
    · cases h
      rfl
    · cases h
  · cases h
    rfl

/-- An exit code that is refused is reported at once. -/
theorem gatherEvidence_of_check {rejection : Rejection}
    (h : binaryExitCode.check = .error rejection) :
    gatherEvidence runtime
        (capturedRequest requirements procedures cResults binaryExitCode timeoutSeconds) =
      .error (none, .inputValidationError rejection) := by
  have hsource : (capturedRequest requirements procedures cResults binaryExitCode
      timeoutSeconds).resultSource = .error rejection := by
    simp only [capturedRequest, Request.resultSource, h]
    rfl
  simp only [gatherEvidence, hsource]
  rfl

end Escapes

/-- The runner fails safe exactly if the exit code is refused at once, or every
file that is read is readable, no text that has to be reported contains a
surrogate, and the exit code formats if the files are accepted. -/
theorem runQualification_failSafe_iff (requirements procedures cResults : InputFile)
    (binaryExitCode : CapturedExitCode) (timeoutSeconds : Str) (disk : Disk) :
    FailSafe runtime requirements procedures cResults binaryExitCode timeoutSeconds disk ↔
      ∀ exitCode, binaryExitCode.check = .ok exitCode →
        let request :=
          capturedRequest requirements procedures cResults binaryExitCode timeoutSeconds
        ReadsText runtime request cResults ∧
          CarriesText runtime request (.captured cResults exitCode) := by
  rw [failSafe_iff_gatherEvidence disk rfl]
  cases hcheck : binaryExitCode.check with
  | error rejection =>
      apply iff_of_true
      · rw [gatherEvidence_of_check hcheck, errorsIn_error]
        constructor
        · refine ⟨⟨rejection, rfl⟩, ?_⟩
          rintro _ ⟨⟩
          rw [findings_of_check hcheck]
          simp [Issue.Printable, invalidExitCode]
        · rintro _ ⟨⟩
      · rintro _ ⟨⟩
  | ok exitCode =>
      have hsource : (capturedRequest requirements procedures cResults binaryExitCode
          timeoutSeconds).resultSource = .ok (.captured cResults exitCode) :=
        resultSource_captured _ _ _ hcheck _
      have herrors : ErrorsIn Failure.Reported (gatherEvidence runtime
            (capturedRequest requirements procedures cResults binaryExitCode timeoutSeconds)) ↔
          ReadsText runtime (capturedRequest requirements procedures cResults binaryExitCode
              timeoutSeconds) cResults ∧
            StopsIn Carried runtime (capturedRequest requirements procedures cResults
              binaryExitCode timeoutSeconds) (.captured cResults exitCode) := by
        rw [← stopsIn_isRejection_iff, ← errorsIn_gatherEvidence _ hsource,
          ← errorsIn_gatherEvidence _ hsource]
        exact errorsIn_and
      rw [herrors]
      constructor
      · rintro ⟨⟨hreads, hstops⟩, hevidence⟩ _ ⟨⟩
        refine ⟨hreads, hstops, fun hR hP hC hvalid => hevidence _ ?_⟩
        exact gatherEvidence_eq_ok_iff.mpr ⟨_, _, _, _, hsource, hR, hP, hC, hvalid⟩
      · intro h
        obtain ⟨hreads, hcarries⟩ := h exitCode rfl
        refine ⟨⟨hreads, hcarries.rejections⟩, fun evidence hgather => ?_⟩
        obtain ⟨source, R, P, C, hsource', hR, hP, hC, hvalid⟩ :=
          gatherEvidence_eq_ok_iff.mp hgather
        cases hsource.symm.trans hsource'
        exact hcarries.evidence hR hP hC hvalid

/-- Requirements that are not UTF-8 end the run with an exception. -/
theorem runQualification_not_utf8 :
    ¬FailSafe sampleRuntime { name := str "requirements.json", content := .ok [0xff] }
        (textFile "procedures.json" proceduresText) (textFile "results.json" resultsText)
        (.int 0) (str "30") ⟨none, none⟩ := by
  rintro ⟨exitCode, report, written, hrun, _⟩
  cases hrun

end Esqh.Qualification
