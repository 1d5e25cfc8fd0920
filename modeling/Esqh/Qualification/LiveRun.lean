import Esqh.Qualification.FailSafe

/-!
The two result sources of `run_qualification` against each other: a binary that
is run now, and its output and exit code as they were captured before.
-/

namespace Esqh.Qualification

open Batch Outcome Utf8

/-- The run that starts the binary itself. -/
def liveRequest (requirements procedures : InputFile) (binary : Binary) (timeoutSeconds : Str) :
    Request :=
  { binary := some binary
    cResults := none
    binaryExitCode := .int 0
    requirements := requirements
    procedures := procedures
    timeoutSeconds := timeoutSeconds }

variable {runtime : Runtime} {request : Request}

section Sources

/-- The source matters by what is read from it. -/
theorem gatherEvidence_of_readResults {other : Request} {source otherSource : ResultSource}
    (hrequirements : request.requirements = other.requirements)
    (hprocedures : request.procedures = other.procedures)
    (hsource : request.resultSource = .ok source)
    (hother : other.resultSource = .ok otherSource)
    (hread : readResults runtime source request.timeoutSeconds =
      readResults runtime otherSource other.timeoutSeconds) :
    gatherEvidence runtime request = gatherEvidence runtime other := by
  have hfirst : during none (checked request.resultSource) = .ok source :=
    during_eq_ok_iff.mpr (checked_eq_ok_iff.mpr hsource)
  have hsecond : during none (checked other.resultSource) = .ok otherSource :=
    during_eq_ok_iff.mpr (checked_eq_ok_iff.mpr hother)
  simp only [gatherEvidence, hfirst, hsecond, ok_bind, hrequirements, hprocedures, hread]

/-- Where another run gathers evidence, a run that cannot read its results raises
what reading them raises. -/
theorem gatherEvidence_of_unread {other : Request} {source : ResultSource} {evidence : Evidence}
    {raised : Raised} (h : gatherEvidence runtime other = .ok evidence)
    (hrequirements : request.requirements = other.requirements)
    (hprocedures : request.procedures = other.procedures)
    (hsource : request.resultSource = .ok source)
    (hread : readResults runtime source request.timeoutSeconds = .error raised) :
    gatherEvidence runtime request = .error (some evidence.metadata, raised) := by
  obtain ⟨_, R, P, C, _, hR, hP, _, hvalid⟩ := gatherEvidence_eq_ok_iff.mp h
  rw [← hrequirements] at hR
  rw [← hprocedures] at hP
  have hmatch : validateMatchingMetadata runtime
      [(str "requirements", evidence.metadata), (str "test procedures", evidence.metadata)] =
        .ok evidence.metadata :=
    (validateMatchingMetadata_eq_ok_iff runtime _ _ _ _).mpr ⟨rfl, by simp⟩
  have hloaded := (loadRequirements_of_holds hR _).mpr hvalid.requirements
  have hprocedure := (loadProcedures_of_holds hP _).mpr hvalid.procedures
  simp only [gatherEvidence, during, checked, hsource, loadJson_of_holds hR, loadJson_of_holds hP,
    hvalid.requirementsMetadata, hvalid.proceduresMetadata, hmatch, hloaded, hprocedure, hread,
    Except.mapError, ok_bind]
  rfl

/-- A run that passes has read results, with the exit code 0. -/
theorem readResults_of_returns {source : ResultSource} {disk : Disk}
    (hsource : request.resultSource = .ok source)
    (h : Returns exitOk (runQualification runtime request disk).1) :
    ∃ evidence document, gatherEvidence runtime request = .ok evidence ∧
      readResults runtime source request.timeoutSeconds = .ok (document, 0) := by
  obtain ⟨report, hreport⟩ := h
  rcases runQualification_cases runtime request disk with
    ⟨evidence, hgather, _, hrun⟩ | ⟨metadata, rejection, _, hrun⟩ |
      ⟨metadata, raised, _, _, hrun⟩ | ⟨evidence, _, _, hrun⟩
  · rw [hrun] at hreport
    have hpass := (reportExitCode_eq_ok_iff _).mp (publish_eq_ok hreport).1.symm
    have hzero := (evidence.result_eq_hostPass_iff.mp hpass).2.2
    obtain ⟨found, R, P, C, hfound, _, _, hread, _⟩ := gatherEvidence_eq_ok_iff.mp hgather
    cases hsource.symm.trans hfound
    rw [hzero] at hread
    exact ⟨evidence, C, hgather, hread⟩
  · rw [hrun] at hreport
    exact absurd (publish_eq_ok hreport).1 (by decide)
  · rw [hrun] at hreport
    cases hreport
  · rw [hrun] at hreport
    cases hreport

end Sources

section Outputs

variable {requirements procedures cResults : InputFile} {binary : Binary}
  {stdout stderr : List Byte} {timeoutSeconds : Str} {exitCode : Int}

/-- The bytes are a text, which the JSON decoder refuses. -/
def NotJson (runtime : Runtime) (bytes : List Byte) : Prop :=
  ∃ text lineno colno, decode bytes = some text ∧
    runtime.loads (universalNewlines text) = .error (.jsonDecodeError lineno colno)

/-- The same output is read in the same way from the pipe and from the file,
unless it is a text but no JSON. -/
theorem readResults_live (hcontent : cResults.content = .ok stdout)
    (hcompleted : binary.outcome = .completed stdout stderr exitCode)
    (hstderr : (decode stderr).isSome) (hjson : ¬NotJson runtime stdout) :
    readResults runtime (.binary binary) timeoutSeconds =
      readResults runtime (.captured cResults exitCode) timeoutSeconds := by
  obtain ⟨errors, herrors⟩ := Option.isSome_iff_exists.mp hstderr
  simp only [readResults, executeCBinary, hcompleted, loadJson, hcontent, herrors]
  cases hdecode : decode stdout with
  | none => rfl
  | some text =>
      dsimp only
      cases hloaded : runtime.loads (universalNewlines text) with
      | ok document => rfl
      | error error =>
          cases error with
          | jsonDecodeError lineno colno =>
              exact absurd ⟨text, lineno, colno, hdecode, hloaded⟩ hjson
          | other exception => rfl

/-- What the binary has to return for the live run to pass. -/
theorem decode_of_live {disk : Disk}
    (hcompleted : binary.outcome = .completed stdout stderr exitCode)
    (h : Returns exitOk (runQualification runtime
      (liveRequest requirements procedures binary timeoutSeconds) disk).1) :
    exitCode = 0 ∧ (decode stderr).isSome ∧ ¬NotJson runtime stdout := by
  have hsource : (liveRequest requirements procedures binary timeoutSeconds).resultSource =
      .ok (.binary binary) := rfl
  obtain ⟨_, document, _, hread⟩ := readResults_of_returns hsource h
  simp only [readResults, executeCBinary, hcompleted] at hread
  split at hread
  next text errors hdecode herrors =>
    split at hread
    next found hfound =>
      cases hread
      refine ⟨rfl, by rw [herrors, Option.isSome_some], ?_⟩
      intro hrefused
      obtain ⟨other, lineno, colno, hother, hraised⟩ := hrefused
      cases hdecode.symm.trans hother
      cases hfound.symm.trans hraised
    next => cases hread
    next => cases hread
  next => cases hread

theorem not_notJson_of_captured {disk : Disk} (hexit : 0 ≤ exitCode)
    (hcontent : cResults.content = .ok stdout)
    (h : Returns exitOk (runQualification runtime
      (capturedRequest requirements procedures cResults (.int exitCode) timeoutSeconds) disk).1) :
    ¬NotJson runtime stdout := by
  obtain ⟨_, document, _, hread⟩ :=
    readResults_of_returns (resultSource_captured _ _ _ (check_int hexit) _) h
  obtain ⟨found, hfound, _⟩ := bind_eq_ok_iff.mp hread
  intro ⟨text, lineno, colno, hdecode, hraised⟩
  simp only [loadJson, hcontent, hdecode, hraised] at hfound
  cases hfound

/-- A byte on the other pipe that is no UTF-8 ends a live run. -/
theorem runQualification_of_stderr {disk : Disk} (hexit : 0 ≤ exitCode)
    (hcompleted : binary.outcome = .completed stdout stderr exitCode)
    (hstderr : decode stderr = none)
    (h : Returns exitOk (runQualification runtime
      (capturedRequest requirements procedures cResults (.int exitCode) timeoutSeconds) disk).1) :
    runQualification runtime (liveRequest requirements procedures binary timeoutSeconds) disk =
      (.error .unicodeDecodeError, disk) := by
  obtain ⟨evidence, _, hgather, _⟩ :=
    readResults_of_returns (resultSource_captured _ _ _ (check_int hexit) _) h
  have hread : readResults runtime (.binary binary) timeoutSeconds =
      .error .unicodeDecodeError := by
    simp only [readResults, executeCBinary, hcompleted, hstderr]
    split
    next hnone => cases hnone
    next => rfl
  have hunread : gatherEvidence runtime
      (liveRequest requirements procedures binary timeoutSeconds) =
        .error (some evidence.metadata, .unicodeDecodeError) :=
    gatherEvidence_of_unread hgather rfl rfl rfl hread
  rw [runQualification, hunread]

end Outputs

/-- An exit code that is no captured one is reported as an input error. -/
theorem returns_of_negative {exitCode : Int} (hexit : exitCode < 0)
    (requirements procedures cResults : InputFile) (timeoutSeconds : Str) (disk : Disk) :
    Returns exitInputError (runQualification runtime
      (capturedRequest requirements procedures cResults (.int exitCode) timeoutSeconds)
      disk).1 := by
  have hcheck : CapturedExitCode.check (.int exitCode) = refuse invalidExitCode := if_pos hexit
  have hwritable : (validationFailureReport [invalidExitCode] none).Writable := by
    rw [writable_validationFailureReport_iff, List.forall_mem_singleton]
    refine ⟨nofun, ?_⟩
    simp [Issue.Printable, invalidExitCode]
  obtain ⟨written, hpublished, _⟩ := publish_of_writable hwritable exitInputError disk
  rw [runQualification, gatherEvidence_of_check hcheck]
  exact ⟨_, congrArg Prod.fst hpublished⟩

/-- A run on the binary itself and a run on its captured output and exit code do
the same, up to the files they write, if no signal ended the binary, the output
is JSON or no text, and what it wrote to the other pipe is a text. Of both one
passes exactly if the other does, except that output of the other kind on that
pipe ends the live run with an exception. -/
theorem runQualification_live_captured (runtime : Runtime)
    (requirements procedures cResults : InputFile) (binary : Binary) (stdout stderr : List Byte)
    (exitCode : Int) (timeoutSeconds : Str) (disk : Disk)
    (hcontent : cResults.content = .ok stdout)
    (hcompleted : binary.outcome = .completed stdout stderr exitCode) :
    let live := runQualification runtime
      (liveRequest requirements procedures binary timeoutSeconds) disk
    let captured := runQualification runtime
      (capturedRequest requirements procedures cResults (.int exitCode) timeoutSeconds) disk
    (0 ≤ exitCode → (decode stderr).isSome → ¬NotJson runtime stdout → live = captured) ∧
    (Returns exitOk live.1 ↔ (decode stderr).isSome ∧ Returns exitOk captured.1) ∧
    (decode stderr = none → Returns exitOk captured.1 →
      live = (.error .unicodeDecodeError, disk)) ∧
    (exitCode < 0 → Returns exitInputError captured.1) := by
  intro live captured
  have hsame : 0 ≤ exitCode → (decode stderr).isSome → ¬NotJson runtime stdout →
      live = captured := by
    intro hexit hstderr hjson
    have hgather : gatherEvidence runtime
        (liveRequest requirements procedures binary timeoutSeconds) =
          gatherEvidence runtime (capturedRequest requirements procedures cResults
            (.int exitCode) timeoutSeconds) :=
      gatherEvidence_of_readResults rfl rfl rfl
        (resultSource_captured _ _ _ (check_int hexit) _)
        (readResults_live hcontent hcompleted hstderr hjson)
    simp only [live, captured, runQualification, hgather]
  have hnonneg : Returns exitOk captured.1 → 0 ≤ exitCode := by
    intro hcaptured
    by_contra hnegative
    obtain ⟨report, hreport⟩ := hcaptured
    obtain ⟨other, hother⟩ : Returns exitInputError captured.1 :=
      returns_of_negative (Int.not_le.mp hnegative) _ _ _ _ _
    cases hreport.symm.trans hother
  refine ⟨hsame, ?_, ?_, fun hnegative => returns_of_negative hnegative _ _ _ _ _⟩
  · constructor
    · intro hlive
      obtain ⟨hzero, hstderr, hjson⟩ := decode_of_live hcompleted hlive
      rw [← hsame (by omega) hstderr hjson]
      exact ⟨hstderr, hlive⟩
    · intro hboth
      obtain ⟨hstderr, hcaptured⟩ := hboth
      have hexit := hnonneg hcaptured
      have hjson := not_notJson_of_captured hexit hcontent hcaptured
      rwa [hsame hexit hstderr hjson]
  · intro hstderr hcaptured
    exact runQualification_of_stderr (hnonneg hcaptured) hcompleted hstderr hcaptured

/-- The binary that prints the results of the sample, and a byte that is no UTF-8
on the other pipe if it is told to. -/
theorem runQualification_live_captured_sample :
    let live (stderr : List Byte) := runQualification sampleRuntime
      (liveRequest (textFile "requirements.json" requirementsText)
        (textFile "procedures.json" proceduresText)
        ⟨str "build/binary", str "binary", .completed ((encode resultsText).getD []) stderr 0⟩
        (str "30")) ⟨none, none⟩
    Returns exitOk (live []).1 ∧ live [0xff] = (.error .unicodeDecodeError, ⟨none, none⟩) := by
  intro live
  have hlive (stderr : List Byte) :=
    runQualification_live_captured sampleRuntime (textFile "requirements.json" requirementsText)
      (textFile "procedures.json" proceduresText) (textFile "results.json" resultsText)
      ⟨str "build/binary", str "binary", .completed ((encode resultsText).getD []) stderr 0⟩
      _ stderr 0 (str "30") ⟨none, none⟩ rfl rfl
  have hcaptured := returns_of_sampleEvidence gatherEvidence_sample ⟨none, none⟩
  exact ⟨(hlive []).2.1.mpr ⟨rfl, hcaptured⟩, (hlive [0xff]).2.2.1 rfl hcaptured⟩

end Esqh.Qualification
