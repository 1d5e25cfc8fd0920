import Esqh.Qualification.Printing
import Esqh.Qualification.Verdict

/-!
The qualification run and the traceability check over the same files.
-/

namespace Esqh.Qualification

open Outcome Utf8

/-- The run returns the exit code, with some report. -/
def Returns (exitCode : Int) (outcome : Except Raised (Int × Report)) : Prop :=
  ∃ report, outcome = .ok (exitCode, report)

theorem returns_ok_iff (exitCode code : Int) (report : Report) :
    Returns exitCode (.ok (code, report)) ↔ code = exitCode := by
  simp [Returns]

theorem Evidence.result_eq_hostPass_iff (evidence : Evidence) :
    evidence.report.result = .hostPass ↔
      traceabilityIssues evidence.requirements evidence.procedures evidence.cCases = [] ∧
        (∀ case ∈ evidence.cCases, case.status = .pass) ∧ evidence.observedExitCode = 0 := by
  rw [Evidence.report, Qualification.result_eq_hostPass_iff, allIssues_eq_nil]
  exact and_iff_right rfl

theorem reportExitCode_eq_ok_iff (report : Report) :
    reportExitCode report false = exitOk ↔ report.result = .hostPass := by
  unfold reportExitCode
  split
  next h => exact iff_of_true rfl h
  next h => exact iff_of_false (by decide) h

theorem reportExitCode_ne_inputError (report : Report) :
    reportExitCode report false ≠ exitInputError := by
  unfold reportExitCode
  split
  · decide
  · decide

section Rejections

variable {runtime : Runtime}

variable {requirements procedures cResults : InputFile} {R P C : Json} {exitCode : Int}
  {timeoutSeconds : Str}

theorem readResults_captured (hC : cResults.Holds runtime C) :
    readResults runtime (.captured cResults exitCode) timeoutSeconds = .ok (C, exitCode) := by
  simp only [readResults, loadJson_of_holds hC]
  rfl

/-- Over files that hold documents every exception is an input error. -/
theorem rejection_of_gatherEvidence (hR : requirements.Holds runtime R)
    (hP : procedures.Holds runtime P) (hC : cResults.Holds runtime C) (hexit : 0 ≤ exitCode) :
    ErrorsIn (fun failure : Failure => failure.2.IsRejection)
      (gatherEvidence runtime
        (capturedRequest requirements procedures cResults (.int exitCode) timeoutSeconds)) := by
  apply (errorsIn_gatherEvidence (fun _ raised => raised.IsRejection)
    (resultSource_captured _ _ _ (check_int hexit) _)).mpr
  apply (stopsIn_isRejection_iff _ cResults exitCode).mpr
  exact ⟨hR.readable, fun _ _ => hP.readable, fun _ => hC.readable⟩

theorem rejection_of_checkTraceability (hR : requirements.Holds runtime R)
    (hP : procedures.Holds runtime P) (hC : cResults.Holds runtime C) :
    ErrorsIn Raised.IsRejection
      (checkTraceability runtime requirements procedures cResults) := by
  simp only [checkTraceability, errorsIn_bind, loadRequirements, loadProcedures,
    errorsIn_loadJson hR, errorsIn_loadJson hP, errorsIn_loadJson hC, errorsIn_checked,
    errorsIn_pure, implies_true, and_self]

/-- The run and the check accept the same documents. -/
theorem gatherEvidence_captured_iff (hR : requirements.Holds runtime R)
    (hP : procedures.Holds runtime P) (hC : cResults.Holds runtime C) (hexit : 0 ≤ exitCode)
    (evidence : Evidence) :
    gatherEvidence runtime
        (capturedRequest requirements procedures cResults (.int exitCode) timeoutSeconds) =
          .ok evidence ↔
      Validated runtime R P C evidence ∧ evidence.observedExitCode = exitCode := by
  rw [gatherEvidence_eq_ok_iff, resultSource_captured _ _ _ (check_int hexit)]
  constructor
  · rintro ⟨source, R', P', C', hsource, hR', hP', hC', h⟩
    cases hsource
    cases hR.unique hR'
    cases hP.unique hP'
    cases (readResults_captured hC).symm.trans hC'
    exact ⟨h, rfl⟩
  · rintro ⟨h, rfl⟩
    exact ⟨_, R, P, C, rfl, hR, hP, readResults_captured hC, h⟩

theorem checkTraceability_of_holds (hR : requirements.Holds runtime R)
    (hP : procedures.Holds runtime P) (hC : cResults.Holds runtime C) (issues : List Issue) :
    checkTraceability runtime requirements procedures cResults = .ok issues ↔
      ∃ evidence, Validated runtime R P C evidence ∧
        issues = traceabilityIssues evidence.requirements evidence.procedures evidence.cCases := by
  rw [checkTraceability_eq_ok_iff]
  constructor
  · rintro ⟨R', P', C', evidence, hR', hP', hC', h⟩
    cases hR.unique hR'
    cases hP.unique hP'
    cases hC.unique hC'
    exact ⟨evidence, h⟩
  · rintro ⟨evidence, h⟩
    exact ⟨R, P, C, evidence, hR, hP, hC, h⟩

end Rejections

/-- The two gates judge the same documents alike: the run passes exactly if the
check finds nothing, all cases passed and so did the binary, and it reports an
input error exactly if the check raises one. -/
theorem runQualification_agrees (runtime : Runtime) (requirements procedures cResults : InputFile)
    (R P C : Json) (hR : requirements.Holds runtime R) (hP : procedures.Holds runtime P)
    (hC : cResults.Holds runtime C) (exitCode : Int) (hexit : 0 ≤ exitCode)
    (timeoutSeconds : Str) (disk : Disk) :
    let outcome := (runQualification runtime
      (capturedRequest requirements procedures cResults (.int exitCode) timeoutSeconds) disk).1
    let check := checkTraceability runtime requirements procedures cResults
    outcome ≠ .error .unicodeEncodeError →
    (Returns exitOk outcome ↔
      check = .ok [] ∧
      (∀ cCases, parseCResults runtime C = .ok cCases → ∀ case ∈ cCases, case.status = .pass) ∧
      exitCode = 0) ∧
    (Returns exitInputError outcome ↔
      ∃ rejection, check = .error (.inputValidationError rejection)) := by
  intro outcome check hwritten
  set request := capturedRequest requirements procedures cResults (.int exitCode) timeoutSeconds
  have hgathered : ∀ evidence, gatherEvidence runtime request = .ok evidence ↔
      Validated runtime R P C evidence ∧ evidence.observedExitCode = exitCode :=
    gatherEvidence_captured_iff hR hP hC hexit
  have hchecked : ∀ issues, check = .ok issues ↔ ∃ evidence, Validated runtime R P C evidence ∧
      issues = traceabilityIssues evidence.requirements evidence.procedures evidence.cCases :=
    checkTraceability_of_holds hR hP hC
  rcases runQualification_written_cases hwritten with
    ⟨evidence, hgather, _, hrun⟩ | ⟨metadata, rejection, hgather, hrun⟩ |
      ⟨metadata, raised, hgather, hraised⟩ | ⟨evidence, hgather, hformats, hrun⟩
  · obtain ⟨hvalid, hobserved⟩ := (hgathered evidence).mp hgather
    have houtcome : outcome = .ok (reportExitCode evidence.report false, evidence.report) := hrun
    have hcheck : check =
        .ok (traceabilityIssues evidence.requirements evidence.procedures evidence.cCases) :=
      (hchecked _).mpr ⟨evidence, hvalid, rfl⟩
    constructor
    · rw [houtcome, returns_ok_iff, reportExitCode_eq_ok_iff, evidence.result_eq_hostPass_iff,
        hobserved, hcheck, hvalid.cCases]
      simp
    · rw [houtcome, returns_ok_iff]
      apply iff_of_false (reportExitCode_ne_inputError evidence.report)
      rintro ⟨rejection, hrejected⟩
      rw [hcheck] at hrejected
      cases hrejected
  · have houtcome :
        outcome = .ok (exitInputError, validationFailureReport rejection.findings metadata) :=
      hrun
    have hnone : ∀ issues, check ≠ .ok issues := by
      intro issues hok
      obtain ⟨evidence, hvalid, _⟩ := (hchecked issues).mp hok
      have hsame := (hgathered { evidence with observedExitCode := exitCode }).mpr
        ⟨{ hvalid with }, rfl⟩
      rw [hgather] at hsame
      cases hsame
    constructor
    · rw [houtcome, returns_ok_iff]
      exact iff_of_false (by decide) (fun h => hnone [] h.1)
    · rw [houtcome, returns_ok_iff]
      apply iff_of_true rfl
      obtain ⟨error, herror, raised, rfl⟩ :=
        (rejection_of_checkTraceability hR hP hC).exists_error hnone
      exact ⟨raised, herror⟩
  · obtain ⟨rejection, hrejection⟩ :=
      rejection_of_gatherEvidence hR hP hC hexit (metadata, raised) hgather
    exact absurd hrejection (hraised rejection)
  · -- The check accepts the documents, the run has no report of them.
    obtain ⟨hvalid, hobserved⟩ := (hgathered evidence).mp hgather
    have houtcome : outcome = .error (.other valueError) := hrun
    have hcheck := (hchecked _).mpr ⟨evidence, hvalid, rfl⟩
    rw [houtcome]
    constructor
    · apply iff_of_false nofun
      intro h
      rw [hobserved, h.2.2] at hformats
      exact hformats formats_zero
    · apply iff_of_false nofun
      intro ⟨rejection, hrejected⟩
      cases hcheck.symm.trans hrejected

section Sample

def shiftCase (low high : Nat) (offset : Int) (point : CodePoint) : CodePoint :=
  if low ≤ point.val ∧ point.val ≤ high then Fin.ofNat 0x110000 (point.val + offset).toNat
  else point

/-- Python on ASCII text, for the JSON texts of a table. -/
def asciiRuntime (table : List (Str × Json)) : Runtime where
  lower := List.map (shiftCase 65 90 32)
  capitalize
    | [] => []
    | point :: text => shiftCase 97 122 (-32) point :: text.map (shiftCase 65 90 32)
  loads text :=
    match table.lookup text with
    | some document => .ok document
    | none => .error (.jsonDecodeError 1 1)

/-- A document with one array of records. -/
def sampleDocument (key : String) (records : List Json) : Json :=
  .object
    [(str "project", .string (str "ESQH")), (str "version", .string (str "0.1.0")),
      (str "baseline", .string (str "BL")), (str key, .array records)]

/-- Its JSON text, given the text of the array. -/
def sampleText (key records : String) : Str :=
  str "\x7b\"project\":\"ESQH\",\"version\":\"0.1.0\",\"baseline\":\"BL\",\"" ++ str key ++
    str "\":[" ++ str records ++ str "]\x7d"

def sampleRequirements : Json :=
  sampleDocument "requirements" [.object [(str "id", .string (str "REQ"))]]

def sampleProcedures : Json :=
  sampleDocument "procedures"
    [.object
      [(str "id", .string (str "QTP")), (str "requirement_id", .string (str "REQ")),
        (str "case_id", .string (str "TC")), (str "method", .string (str "test"))]]

def sampleResults : Json :=
  sampleDocument "cases"
    [.object [(str "id", .string (str "TC")), (str "status", .string (str "pass"))]]

/-- A record that passed by its status and failed by its other field. -/
def contradictoryResults : Json :=
  sampleDocument "cases"
    [.object
      [(str "id", .string (str "TC")), (str "status", .string (str "pass")),
        (str "passed", .bool false)]]

def requirementsText : Str := sampleText "requirements" "\x7b\"id\":\"REQ\"\x7d"

def proceduresText : Str :=
  sampleText "procedures"
    "\x7b\"id\":\"QTP\",\"requirement_id\":\"REQ\",\"case_id\":\"TC\",\"method\":\"test\"\x7d"

def resultsText : Str := sampleText "cases" "\x7b\"id\":\"TC\",\"status\":\"pass\"\x7d"

def contradictoryText : Str :=
  sampleText "cases" "\x7b\"id\":\"TC\",\"status\":\"pass\",\"passed\":false\x7d"

def sampleRuntime : Runtime :=
  asciiRuntime
    [(requirementsText, sampleRequirements), (proceduresText, sampleProcedures),
      (resultsText, sampleResults), (contradictoryText, contradictoryResults)]

/-- A file with this text. -/
def textFile (name : String) (text : Str) : InputFile :=
  { name := str name, content := .ok ((encode text).getD []) }

theorem holds_textFile {runtime : Runtime} {text : Str} {document : Json}
    (hfree : SurrogateFree text) (hloads : runtime.loads (universalNewlines text) = .ok document)
    (name : String) : (textFile name text).Holds runtime document := by
  cases hencode : encode text with
  | none => exact absurd hfree ((encode_eq_none_iff text).mp hencode)
  | some bytes =>
      refine ⟨bytes, text, ?_, decode_of_encode hencode, hloads⟩
      rw [textFile, hencode, Option.getD_some]

def sampleEvidence : Evidence :=
  { metadata := ⟨str "ESQH", str "0.1.0", str "BL"⟩
    requirements := [⟨str "REQ", str "REQ", [], []⟩]
    procedures := [⟨str "QTP", str "QTP", [str "REQ"], [str "TC"], str "test"⟩]
    cCases := [⟨str "TC", str "TC", .pass, []⟩]
    observedExitCode := 0 }

theorem sampleEvidence_printable : sampleEvidence.Printable :=
  { observedExitCode := formats_zero
    metadata := by simp [sampleEvidence, QualificationMetadata.Printable]
    requirements := by simp [sampleEvidence]
    procedures := by simp [sampleEvidence, Procedure.Printable]
    cCases := by simp [sampleEvidence] }

theorem sample_validated :
    Validated sampleRuntime sampleRequirements sampleProcedures sampleResults sampleEvidence :=
  ⟨rfl, rfl, rfl, rfl, rfl, rfl⟩

theorem holds_sampleRequirements :
    (textFile "requirements.json" requirementsText).Holds sampleRuntime sampleRequirements :=
  holds_textFile (by simp [requirementsText, sampleText]) rfl _

theorem holds_sampleProcedures :
    (textFile "procedures.json" proceduresText).Holds sampleRuntime sampleProcedures :=
  holds_textFile (by simp [proceduresText, sampleText]) rfl _

theorem holds_sampleResults :
    (textFile "results.json" resultsText).Holds sampleRuntime sampleResults :=
  holds_textFile (by simp [resultsText, sampleText]) rfl _

/-- The run on the sample. -/
def sampleRequest : Request :=
  capturedRequest (textFile "requirements.json" requirementsText)
    (textFile "procedures.json" proceduresText) (textFile "results.json" resultsText) (.int 0)
    (str "30")

theorem gatherEvidence_sample : gatherEvidence sampleRuntime sampleRequest = .ok sampleEvidence :=
  (gatherEvidence_captured_iff holds_sampleRequirements holds_sampleProcedures
    holds_sampleResults (le_refl 0) sampleEvidence).mpr ⟨sample_validated, rfl⟩

/-- A run that gathers the evidence of the sample passes. -/
theorem returns_of_sampleEvidence {runtime : Runtime} {request : Request}
    (h : gatherEvidence runtime request = .ok sampleEvidence) (disk : Disk) :
    Returns exitOk (runQualification runtime request disk).1 :=
  ⟨_, runQualification_of_printable h sampleEvidence_printable disk⟩

end Sample

/-- A sample that passes. -/
theorem runQualification_agrees_sample :
    Returns exitOk (runQualification sampleRuntime sampleRequest ⟨none, none⟩).1 := by
  have hwritten := runQualification_of_printable gatherEvidence_sample sampleEvidence_printable
    ⟨none, none⟩
  refine (runQualification_agrees sampleRuntime _ _ _ _ _ _ holds_sampleRequirements
    holds_sampleProcedures holds_sampleResults 0 (le_refl 0) (str "30") ⟨none, none⟩ ?_).1.mpr
      ⟨?_, ?_, rfl⟩
  · intro hraised
    cases hwritten.symm.trans hraised
  · exact (checkTraceability_of_holds holds_sampleRequirements holds_sampleProcedures
      holds_sampleResults []).mpr ⟨sampleEvidence, sample_validated, by decide⟩
  · intro cCases hcases
    cases hcases
    decide

end Esqh.Qualification
