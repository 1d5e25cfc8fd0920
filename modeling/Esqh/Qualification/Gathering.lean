import Esqh.Qualification.Runner

/-!
When the inputs of a run are accepted, and what a run then does. The try block
reads the files in one order and the traceability check in another; both come to
the same conditions on the documents.
-/

namespace Esqh.Qualification

open Batch Outcome Utf8

variable (runtime : Runtime)

section Files

/-- The file can be read and its text is this document. -/
def InputFile.Holds (file : InputFile) (document : Json) : Prop :=
  ∃ bytes text, file.content = .ok bytes ∧ decode bytes = some text ∧
    runtime.loads (universalNewlines text) = .ok document

theorem checked_eq_ok_iff {α : Type} {outcome : Checked α} {value : α} :
    checked outcome = .ok value ↔ outcome = .ok value :=
  mapError_eq_ok_iff

theorem during_eq_ok_iff {α : Type} {metadata : Option QualificationMetadata}
    {outcome : Except Raised α} {value : α} :
    during metadata outcome = .ok value ↔ outcome = .ok value :=
  mapError_eq_ok_iff

theorem loadJson_eq_ok_iff {file : InputFile} {kind : Str} {document : Json} :
    loadJson runtime file kind = .ok document ↔ file.Holds runtime document := by
  constructor
  · intro h
    unfold loadJson at h
    split at h
    next => cases h
    next bytes hcontent =>
      split at h
      next => cases h
      next text hdecode =>
        split at h
        next found hfound =>
          cases h
          exact ⟨bytes, text, hcontent, hdecode, hfound⟩
        next => cases h
        next => cases h
  · rintro ⟨bytes, text, hcontent, hdecode, hfound⟩
    simp only [loadJson, hcontent, hdecode, hfound]

variable {runtime} in
theorem InputFile.Holds.unique {file : InputFile} {document other : Json}
    (h : file.Holds runtime document) (hother : file.Holds runtime other) : document = other := by
  have hloads (found : Json) :
      loadJson runtime file [] = .ok found ↔ file.Holds runtime found :=
    loadJson_eq_ok_iff runtime
  exact Except.ok.inj (((hloads document).mpr h).symm.trans ((hloads other).mpr hother))

end Files

section Accepting

variable {runtime}

/-- The documents pass every check and yield the evidence. -/
structure Validated (runtime : Runtime) (R P C : Json) (evidence : Evidence) : Prop where
  requirementsMetadata :
    documentMetadata runtime R (str "requirements") = .ok evidence.metadata
  proceduresMetadata :
    documentMetadata runtime P (str "test procedures") = .ok evidence.metadata
  cMetadata : documentMetadata runtime C (str "C test results") = .ok evidence.metadata
  requirements : requirementsOf runtime R = .ok evidence.requirements
  procedures : proceduresOf runtime P = .ok evidence.procedures
  cCases : parseCResults runtime C = .ok evidence.cCases

theorem gatherEvidence_eq_ok_iff {request : Request} {evidence : Evidence} :
    gatherEvidence runtime request = .ok evidence ↔
      ∃ source R P C, request.resultSource = .ok source ∧ request.requirements.Holds runtime R ∧
        request.procedures.Holds runtime P ∧
        readResults runtime source request.timeoutSeconds = .ok (C, evidence.observedExitCode) ∧
        Validated runtime R P C evidence := by
  simp only [gatherEvidence, bind_eq_ok_iff, during_eq_ok_iff, checked_eq_ok_iff,
    loadJson_eq_ok_iff, validateMatchingMetadata_eq_ok_iff, loadRequirements, loadProcedures]
  constructor
  · rintro ⟨source, hsource, R, hR, rm, hrm, P, hP, pm, hpm, m, ⟨rfl, hmatch⟩, requirements,
      ⟨R', hR', hrequirements⟩, procedures, ⟨P', hP', hprocedures⟩, ⟨C, exitCode⟩, hC, cm, hcm, m',
      ⟨rfl, hmatch'⟩, cCases, hcCases, heq⟩
    cases heq
    cases hR.unique hR'
    cases hP.unique hP'
    have hpsame : pm = rm := hmatch' (str "test procedures", pm) (by simp)
    have hcsame : cm = rm := hmatch' (str "C test results", cm) (by simp)
    exact ⟨source, R, P, C, hsource, hR, hP, hC,
      ⟨hrm, hpsame ▸ hpm, hcsame ▸ hcm, hrequirements, hprocedures, hcCases⟩⟩
  · rintro ⟨source, R, P, C, hsource, hR, hP, hC, h⟩
    exact ⟨source, hsource, R, hR, _, h.requirementsMetadata, P, hP, _, h.proceduresMetadata, _,
      ⟨rfl, by simp⟩, _, ⟨R, hR, h.requirements⟩, _, ⟨P, hP, h.procedures⟩, _, hC, _,
      h.cMetadata, _, ⟨rfl, by simp⟩, _, h.cCases, rfl⟩

theorem checkTraceability_eq_ok_iff {requirements procedures cResults : InputFile}
    {issues : List Issue} :
    checkTraceability runtime requirements procedures cResults = .ok issues ↔
      ∃ R P C evidence, requirements.Holds runtime R ∧ procedures.Holds runtime P ∧
        cResults.Holds runtime C ∧ Validated runtime R P C evidence ∧
        issues = traceabilityIssues evidence.requirements evidence.procedures evidence.cCases := by
  simp only [checkTraceability, bind_eq_ok_iff, checked_eq_ok_iff, loadJson_eq_ok_iff,
    validateMatchingMetadata_eq_ok_iff, loadRequirements, loadProcedures]
  constructor
  · rintro ⟨R, hR, P, hP, C, hC, rm, hrm, pm, hpm, cm, hcm, m, ⟨rfl, hmatch⟩, requirements,
      ⟨R', hR', hrequirements⟩, procedures, ⟨P', hP', hprocedures⟩, cCases, hcCases, heq⟩
    cases heq
    cases hR.unique hR'
    cases hP.unique hP'
    have hpsame : pm = rm := hmatch (str "test procedures", pm) (by simp)
    have hcsame : cm = rm := hmatch (str "C test results", cm) (by simp)
    exact ⟨R, P, C, ⟨rm, requirements, procedures, cCases, 0⟩, hR, hP, hC,
      ⟨hrm, hpsame ▸ hpm, hcsame ▸ hcm, hrequirements, hprocedures, hcCases⟩, rfl⟩
  · rintro ⟨R, P, C, evidence, hR, hP, hC, h, rfl⟩
    exact ⟨R, hR, P, hP, C, hC, _, h.requirementsMetadata, _, h.proceduresMetadata, _,
      h.cMetadata, _, ⟨rfl, by simp⟩, _, ⟨R, hR, h.requirements⟩, _, ⟨P, hP, h.procedures⟩, _,
      h.cCases, rfl⟩

/-- Loaded requirements have distinct identifiers. -/
theorem Validated.requirementIds {R P C : Json} {evidence : Evidence}
    (h : Validated runtime R P C evidence) :
    (evidence.requirements.map Requirement.identifier).Nodup := by
  obtain ⟨_, _, hrecords⟩ := bind_eq_ok_iff.mp h.requirements
  obtain ⟨records, _, hload⟩ := bind_eq_ok_iff.mp hrecords
  exact Contract.nodup_of_load hload

end Accepting

section Stopping

variable {runtime}

/-- Both files declare the same metadata. -/
structure Declared (runtime : Runtime) (request : Request) (R P : Json)
    (metadata : QualificationMetadata) : Prop where
  requirements : request.requirements.Holds runtime R
  requirementsMetadata : documentMetadata runtime R (str "requirements") = .ok metadata
  procedures : request.procedures.Holds runtime P
  proceduresMetadata : documentMetadata runtime P (str "test procedures") = .ok metadata

/-- Both files are accepted. -/
def Accepted (runtime : Runtime) (request : Request) (metadata : QualificationMetadata) : Prop :=
  ∃ R P requirements procedures, Declared runtime request R P metadata ∧
    requirementsOf runtime R = .ok requirements ∧ proceduresOf runtime P = .ok procedures

/-- Every step of the try block that is reached stops with an allowed exception,
if it stops. -/
structure StopsIn (allowed : Option QualificationMetadata → Raised → Prop) (runtime : Runtime)
    (request : Request) (source : ResultSource) : Prop where
  requirementsFile :
    ErrorsIn (allowed none) (loadJson runtime request.requirements (str "requirements"))
  requirementsMetadata : ∀ {R : Json}, request.requirements.Holds runtime R →
    ErrorsIn (allowed none) (checked (documentMetadata runtime R (str "requirements")))
  proceduresFile : ∀ {R : Json} {metadata : QualificationMetadata},
    request.requirements.Holds runtime R →
    documentMetadata runtime R (str "requirements") = .ok metadata →
    ErrorsIn (allowed (some metadata))
      (loadJson runtime request.procedures (str "test procedures"))
  proceduresMetadata : ∀ {R P : Json} {metadata : QualificationMetadata},
    request.requirements.Holds runtime R →
    documentMetadata runtime R (str "requirements") = .ok metadata →
    request.procedures.Holds runtime P →
    ErrorsIn (allowed (some metadata))
      (checked (documentMetadata runtime P (str "test procedures")))
  matching : ∀ {R P : Json} {metadata proceduresMetadata : QualificationMetadata},
    request.requirements.Holds runtime R →
    documentMetadata runtime R (str "requirements") = .ok metadata →
    request.procedures.Holds runtime P →
    documentMetadata runtime P (str "test procedures") = .ok proceduresMetadata →
    ErrorsIn (allowed (some metadata)) (checked (validateMatchingMetadata runtime
      [(str "requirements", metadata), (str "test procedures", proceduresMetadata)]))
  requirements : ∀ {R P : Json} {metadata : QualificationMetadata},
    Declared runtime request R P metadata →
    ErrorsIn (allowed (some metadata)) (checked (requirementsOf runtime R))
  procedures : ∀ {R P : Json} {metadata : QualificationMetadata} {requirements : List Requirement},
    Declared runtime request R P metadata → requirementsOf runtime R = .ok requirements →
    ErrorsIn (allowed (some metadata)) (checked (proceduresOf runtime P))
  results : ∀ {metadata : QualificationMetadata}, Accepted runtime request metadata →
    ErrorsIn (allowed (some metadata)) (readResults runtime source request.timeoutSeconds)
  resultsMetadata : ∀ {metadata : QualificationMetadata} {C : Json} {exitCode : Int},
    Accepted runtime request metadata →
    readResults runtime source request.timeoutSeconds = .ok (C, exitCode) →
    ErrorsIn (allowed (some metadata))
      (checked (documentMetadata runtime C (str "C test results")))
  resultsMatching : ∀ {metadata cMetadata : QualificationMetadata} {C : Json} {exitCode : Int},
    Accepted runtime request metadata →
    readResults runtime source request.timeoutSeconds = .ok (C, exitCode) →
    documentMetadata runtime C (str "C test results") = .ok cMetadata →
    ErrorsIn (allowed (some metadata)) (checked (validateMatchingMetadata runtime
      [(str "requirements", metadata), (str "test procedures", metadata),
        (str "C test results", cMetadata)]))
  cCases : ∀ {metadata : QualificationMetadata} {C : Json} {exitCode : Int},
    Accepted runtime request metadata →
    readResults runtime source request.timeoutSeconds = .ok (C, exitCode) →
    documentMetadata runtime C (str "C test results") = .ok metadata →
    ErrorsIn (allowed (some metadata)) (checked (parseCResults runtime C))

theorem loadJson_of_holds {file : InputFile} {document : Json} (h : file.Holds runtime document)
    (kind : Str) : loadJson runtime file kind = .ok document :=
  (loadJson_eq_ok_iff runtime).mpr h

theorem loadRequirements_of_holds {file : InputFile} {R : Json} (h : file.Holds runtime R)
    (requirements : List Requirement) :
    loadRequirements runtime file = .ok requirements ↔
      requirementsOf runtime R = .ok requirements := by
  rw [loadRequirements, loadJson_of_holds h]
  exact checked_eq_ok_iff

theorem loadProcedures_of_holds {file : InputFile} {P : Json} (h : file.Holds runtime P)
    (procedures : List Procedure) :
    loadProcedures runtime file = .ok procedures ↔ proceduresOf runtime P = .ok procedures := by
  rw [loadProcedures, loadJson_of_holds h]
  exact checked_eq_ok_iff

theorem errorsIn_loadJson {allowed : Raised → Prop} {file : InputFile} {document : Json}
    (h : file.Holds runtime document) (kind : Str) :
    ErrorsIn allowed (loadJson runtime file kind) := by
  rw [loadJson_of_holds h]
  exact errorsIn_ok document

theorem errorsIn_during {allowed : Option QualificationMetadata → Raised → Prop} {α : Type}
    (metadata : Option QualificationMetadata) (outcome : Except Raised α) :
    ErrorsIn (fun failure : Failure => allowed failure.1 failure.2) (during metadata outcome) ↔
      ErrorsIn (allowed metadata) outcome := by
  rw [during, errorsIn_mapError]

variable {allowed : Option QualificationMetadata → Raised → Prop} {request : Request}
  {source : ResultSource}

theorem stopsIn_of_errorsIn (hsource : request.resultSource = .ok source)
    (h : ErrorsIn (fun failure : Failure => allowed failure.1 failure.2)
      (gatherEvidence runtime request)) :
    StopsIn allowed runtime request source := by
  simp only [gatherEvidence, errorsIn_bind, errorsIn_during, during_eq_ok_iff, checked_eq_ok_iff,
    loadJson_eq_ok_iff, validateMatchingMetadata_eq_ok_iff, loadRequirements, loadProcedures,
    bind_eq_ok_iff] at h
  obtain ⟨hfile, h⟩ := h.2 source hsource
  have hdeclared {R P : Json} {metadata : QualificationMetadata}
      (hd : Declared runtime request R P metadata) :=
    ((((h R hd.requirements).2 _ hd.requirementsMetadata).2 P hd.procedures).2 _
      hd.proceduresMetadata).2 metadata ⟨rfl, by simp⟩
  have haccepted {R P : Json} {metadata : QualificationMetadata}
      {requirements : List Requirement} {procedures : List Procedure}
      (hd : Declared runtime request R P metadata)
      (hrequirements : requirementsOf runtime R = .ok requirements)
      (hprocedures : proceduresOf runtime P = .ok procedures) :=
    ((hdeclared hd).2 requirements ⟨R, hd.requirements, hrequirements⟩).2 procedures
      ⟨P, hd.procedures, hprocedures⟩
  exact
    { requirementsFile := hfile
      requirementsMetadata := fun hR => (h _ hR).1
      proceduresFile := fun hR hm => ((h _ hR).2 _ hm).1
      proceduresMetadata := fun hR hm hP => (((h _ hR).2 _ hm).2 _ hP).1
      matching := fun hR hm hP hp => ((((h _ hR).2 _ hm).2 _ hP).2 _ hp).1
      requirements := fun hd => (hdeclared hd).1.2 _ hd.requirements
      procedures := fun hd hrequirements =>
        ((hdeclared hd).2 _ ⟨_, hd.requirements, hrequirements⟩).1.2 _ hd.procedures
      results := by
        rintro metadata ⟨R, P, requirements, procedures, hd, hrequirements, hprocedures⟩
        exact (haccepted hd hrequirements hprocedures).1
      resultsMetadata := by
        rintro metadata C exitCode
          ⟨R, P, requirements, procedures, hd, hrequirements, hprocedures⟩ hC
        exact ((haccepted hd hrequirements hprocedures).2 _ hC).1
      resultsMatching := by
        rintro metadata cMetadata C exitCode
          ⟨R, P, requirements, procedures, hd, hrequirements, hprocedures⟩ hC hcm
        exact (((haccepted hd hrequirements hprocedures).2 _ hC).2 _ hcm).1
      cCases := by
        rintro metadata C exitCode
          ⟨R, P, requirements, procedures, hd, hrequirements, hprocedures⟩ hC hcm
        exact ((((haccepted hd hrequirements hprocedures).2 _ hC).2 _ hcm).2 metadata
          ⟨rfl, by simp⟩).1 }

theorem errorsIn_of_stopsIn (hsource : request.resultSource = .ok source)
    (h : StopsIn allowed runtime request source) :
    ErrorsIn (fun failure : Failure => allowed failure.1 failure.2)
      (gatherEvidence runtime request) := by
  simp only [gatherEvidence, checked_eq_ok_iff.mpr hsource, errorsIn_bind, errorsIn_during,
    during_eq_ok_iff, checked_eq_ok_iff, loadJson_eq_ok_iff, validateMatchingMetadata_eq_ok_iff,
    loadRequirements, loadProcedures, bind_eq_ok_iff]
  refine ⟨errorsIn_ok source, ?_⟩
  rintro _ ⟨⟩
  refine ⟨h.requirementsFile, fun R hR => ⟨h.requirementsMetadata hR, fun metadata hm =>
    ⟨h.proceduresFile hR hm, fun P hP => ⟨h.proceduresMetadata hR hm hP, fun other hp =>
    ⟨h.matching hR hm hP hp, ?_⟩⟩⟩⟩⟩
  rintro _ ⟨rfl, hmatch⟩
  have hsame : other = metadata := hmatch (str "test procedures", other) (by simp)
  subst hsame
  have hd : Declared runtime request R P other := ⟨hR, hm, hP, hp⟩
  -- Both files are read a second time, with the same documents.
  refine ⟨⟨errorsIn_loadJson hR _, ?_⟩, ?_⟩
  · intro R' hR'
    cases hR.unique hR'
    exact h.requirements hd
  rintro requirements ⟨R', hR', hrequirements⟩
  cases hR.unique hR'
  refine ⟨⟨errorsIn_loadJson hP _, ?_⟩, ?_⟩
  · intro P' hP'
    cases hP.unique hP'
    exact h.procedures hd hrequirements
  rintro procedures ⟨P', hP', hprocedures⟩
  cases hP.unique hP'
  have ha : Accepted runtime request other :=
    ⟨R, P, requirements, procedures, hd, hrequirements, hprocedures⟩
  refine ⟨h.results ha, fun C hC => ⟨h.resultsMetadata ha hC, fun cMetadata hcm =>
    ⟨h.resultsMatching ha hC hcm, ?_⟩⟩⟩
  rintro _ ⟨rfl, hmatch'⟩
  have hcsame : cMetadata = other := hmatch' (str "C test results", cMetadata) (by simp)
  exact ⟨h.cCases ha hC (hcsame ▸ hcm), fun _ _ => errorsIn_ok _⟩

theorem errorsIn_gatherEvidence (allowed : Option QualificationMetadata → Raised → Prop)
    {request : Request} {source : ResultSource} (hsource : request.resultSource = .ok source) :
    ErrorsIn (fun failure : Failure => allowed failure.1 failure.2)
        (gatherEvidence runtime request) ↔
      StopsIn allowed runtime request source :=
  ⟨stopsIn_of_errorsIn hsource, errorsIn_of_stopsIn hsource⟩

/-- The exception is an input error. -/
def Raised.IsRejection (raised : Raised) : Prop :=
  ∃ rejection, raised = .inputValidationError rejection

/-- A file that exists is UTF-8, and `json.loads` ends with a document or with
`JSONDecodeError`. -/
def InputFile.Readable (runtime : Runtime) (file : InputFile) : Prop :=
  ∀ bytes, file.content = .ok bytes → ∃ text, decode bytes = some text ∧
    ∀ exception, runtime.loads (universalNewlines text) ≠ .error (.other exception)

/-- Each file is readable when its turn comes: the procedures are read once the
requirements declare metadata, the results once both are accepted. -/
structure ReadsText (runtime : Runtime) (request : Request) (cResults : InputFile) : Prop where
  requirements : request.requirements.Readable runtime
  procedures : ∀ {R : Json} {metadata : QualificationMetadata},
    request.requirements.Holds runtime R →
    documentMetadata runtime R (str "requirements") = .ok metadata →
    request.procedures.Readable runtime
  cResults : ∀ {metadata : QualificationMetadata}, Accepted runtime request metadata →
    cResults.Readable runtime

theorem InputFile.Holds.readable {file : InputFile} {document : Json}
    (h : file.Holds runtime document) : file.Readable runtime := by
  obtain ⟨bytes, text, hcontent, hdecode, hloads⟩ := h
  intro found hfound
  cases hcontent.symm.trans hfound
  exact ⟨text, hdecode, by simp [hloads]⟩

theorem errorsIn_checked {α : Type} (outcome : Checked α) :
    ErrorsIn Raised.IsRejection (checked outcome) := by
  rw [checked, errorsIn_mapError]
  exact fun rejection _ => ⟨rejection, rfl⟩

/-- A file is loaded or rejected exactly if it is readable. -/
theorem errorsIn_loadJson_iff (file : InputFile) (kind : Str) :
    ErrorsIn Raised.IsRejection (loadJson runtime file kind) ↔ file.Readable runtime := by
  have hreject {α : Type} (issue : Issue) :
      ErrorsIn Raised.IsRejection (reject issue : Except Raised α) := errorsIn_checked _
  unfold loadJson InputFile.Readable
  split
  next error hcontent => simp [hreject, hcontent]
  next bytes hcontent =>
    split
    next hdecode => simp [hcontent, hdecode, Raised.IsRejection]
    next text hdecode =>
      split
      next hloads => simp [hcontent, hdecode, hloads]
      next hloads => simp [hcontent, hdecode, hloads, hreject]
      next hloads => simp [hcontent, hdecode, hloads, Raised.IsRejection]

/-- On captured results every step stops with an input error exactly if each
file is readable that is read. -/
theorem stopsIn_isRejection_iff (request : Request) (cResults : InputFile) (exitCode : Int) :
    StopsIn (fun _ raised => raised.IsRejection) runtime request (.captured cResults exitCode) ↔
      ReadsText runtime request cResults := by
  have hresults : ErrorsIn Raised.IsRejection
      (readResults runtime (.captured cResults exitCode) request.timeoutSeconds) ↔
        cResults.Readable runtime := by
    rw [readResults, errorsIn_bind, errorsIn_loadJson_iff]
    exact and_iff_left fun _ _ => errorsIn_pure _
  constructor
  · intro h
    exact
      { requirements := (errorsIn_loadJson_iff _ _).mp h.requirementsFile
        procedures := fun hR hm => (errorsIn_loadJson_iff _ _).mp (h.proceduresFile hR hm)
        cResults := fun ha => hresults.mp (h.results ha) }
  · intro h
    exact
      { requirementsFile := (errorsIn_loadJson_iff _ _).mpr h.requirements
        requirementsMetadata := fun _ => errorsIn_checked _
        proceduresFile := fun hR hm => (errorsIn_loadJson_iff _ _).mpr (h.procedures hR hm)
        proceduresMetadata := fun _ _ _ => errorsIn_checked _
        matching := fun _ _ _ _ => errorsIn_checked _
        requirements := fun _ => errorsIn_checked _
        procedures := fun _ _ => errorsIn_checked _
        results := fun ha => hresults.mpr (h.cResults ha)
        resultsMetadata := fun _ _ => errorsIn_checked _
        resultsMatching := fun _ _ _ => errorsIn_checked _
        cCases := fun _ _ _ => errorsIn_checked _ }

end Stopping

section Running

/-- The run on captured results. -/
def capturedRequest (requirements procedures cResults : InputFile)
    (binaryExitCode : CapturedExitCode) (timeoutSeconds : Str) : Request :=
  { binary := none
    cResults := some cResults
    binaryExitCode := binaryExitCode
    requirements := requirements
    procedures := procedures
    timeoutSeconds := timeoutSeconds }

theorem check_int {exitCode : Int} (h : 0 ≤ exitCode) :
    CapturedExitCode.check (.int exitCode) = .ok exitCode :=
  if_neg (not_lt.mpr h)

theorem resultSource_captured (requirements procedures cResults : InputFile)
    {binaryExitCode : CapturedExitCode} {exitCode : Int}
    (h : binaryExitCode.check = .ok exitCode) (timeoutSeconds : Str) :
    (capturedRequest requirements procedures cResults binaryExitCode timeoutSeconds).resultSource =
      .ok (.captured cResults exitCode) := by
  simp only [capturedRequest, Request.resultSource, h]
  rfl

/-- The exit code is formatted and UTF-8 can hold both renderings. -/
structure Report.Writable (report : Report) : Prop where
  formats : ∀ exitCode ∈ report.binaryExitCode, Formats exitCode
  json : SurrogateFree (jsonText report)
  markdown : SurrogateFree (renderMarkdown report)

theorem writeTexts_of_free {json markdown : Str} (hjson : SurrogateFree json)
    (hmarkdown : SurrogateFree markdown) (disk : Disk) :
    ∃ written, writeTexts json markdown disk = (.ok (), written) ∧
      written.jsonOutput.bind decode = some json ∧
      written.markdownOutput.bind decode = some markdown := by
  unfold writeTexts
  cases hfirst : encode json with
  | none => exact absurd hjson ((encode_eq_none_iff json).mp hfirst)
  | some first =>
      cases hsecond : encode markdown with
      | none => exact absurd hmarkdown ((encode_eq_none_iff markdown).mp hsecond)
      | some second =>
          exact ⟨⟨some first, some second⟩, rfl, decode_of_encode hfirst, decode_of_encode hsecond⟩

theorem writeTexts_of_not_free {json markdown : Str}
    (h : ¬(SurrogateFree json ∧ SurrogateFree markdown)) (disk : Disk) :
    (writeTexts json markdown disk).1 = .error .unicodeEncodeError := by
  rw [not_and_or, ← encode_eq_none_iff, ← encode_eq_none_iff] at h
  unfold writeTexts
  cases hfirst : encode json with
  | none => rfl
  | some first =>
      rcases h with hnone | hnone
      · rw [hfirst] at hnone
        cases hnone
      · simp only [hnone]

theorem publish_of_writable {report : Report} (h : report.Writable) (exitCode : Int)
    (disk : Disk) :
    ∃ written, publish exitCode report disk = (.ok (exitCode, report), written) ∧
      written.jsonOutput.bind decode = some (jsonText report) ∧
      written.markdownOutput.bind decode = some (renderMarkdown report) := by
  obtain ⟨written, heq, hread⟩ := writeTexts_of_free h.json h.markdown disk
  refine ⟨written, ?_, hread⟩
  rw [publish, writeReports, if_pos h.formats, heq]
  rfl

theorem publish_of_not_writable {report : Report}
    (hformats : ∀ exitCode ∈ report.binaryExitCode, Formats exitCode) (h : ¬report.Writable)
    (exitCode : Int) (disk : Disk) :
    (publish exitCode report disk).1 = .error .unicodeEncodeError := by
  have hraised := writeTexts_of_not_free (fun hfree => h ⟨hformats, hfree.1, hfree.2⟩) disk
  simp only [publish, writeReports, if_pos hformats, hraised]
  rfl

/-- What a run publishes is written first. -/
theorem publish_eq_ok {exitCode code : Int} {report found : Report} {disk : Disk}
    (h : (publish exitCode report disk).1 = .ok (code, found)) :
    code = exitCode ∧ found = report ∧ report.Writable := by
  by_cases hformats : ∀ exitCode ∈ report.binaryExitCode, Formats exitCode
  · by_cases hwritable : report.Writable
    · obtain ⟨written, heq, _⟩ := publish_of_writable hwritable exitCode disk
      rw [heq] at h
      cases h
      exact ⟨rfl, rfl, hwritable⟩
    · rw [publish_of_not_writable hformats hwritable] at h
      cases h
  · rw [publish, writeReports, if_neg hformats] at h
    cases h

theorem publish_of_written {exitCode : Int} {report : Report} {disk : Disk}
    (hformats : ∀ exitCode ∈ report.binaryExitCode, Formats exitCode)
    (h : (publish exitCode report disk).1 ≠ .error .unicodeEncodeError) :
    (publish exitCode report disk).1 = .ok (exitCode, report) := by
  by_cases hwritable : report.Writable
  · obtain ⟨written, heq, _⟩ := publish_of_writable hwritable exitCode disk
    rw [heq]
  · exact absurd (publish_of_not_writable hformats hwritable exitCode disk) h

theorem formats_report {evidence : Evidence} (h : Formats evidence.observedExitCode) :
    ∀ exitCode ∈ evidence.report.binaryExitCode, Formats exitCode := by
  intro exitCode hexitCode
  cases hexitCode
  exact h

theorem built_of_formats {evidence : Evidence} (h : Formats evidence.observedExitCode) :
    evidence.built = .ok evidence.report :=
  (buildReport_eq_ok_iff _ _ _).mpr ⟨h, rfl⟩

theorem built_of_not_formats {evidence : Evidence} (h : ¬Formats evidence.observedExitCode) :
    evidence.built = .error valueError := by
  have hnonzero : evidence.observedExitCode ≠ 0 := fun hzero => h (hzero ▸ formats_zero)
  exact if_pos ⟨hnonzero, h⟩

/-- A run reports evidence, reports a rejection, or lets an exception through:
one of gathering the evidence, or that of an exit code which does not format. -/
theorem runQualification_cases (runtime : Runtime) (request : Request) (disk : Disk) :
    (∃ evidence, gatherEvidence runtime request = .ok evidence ∧
      Formats evidence.observedExitCode ∧
      runQualification runtime request disk =
        publish (reportExitCode evidence.report false) evidence.report disk) ∨
    (∃ metadata rejection,
      gatherEvidence runtime request = .error (metadata, .inputValidationError rejection) ∧
      runQualification runtime request disk =
        publish exitInputError (validationFailureReport rejection.findings metadata) disk) ∨
    (∃ metadata raised, gatherEvidence runtime request = .error (metadata, raised) ∧
      (∀ rejection, raised ≠ .inputValidationError rejection) ∧
      runQualification runtime request disk = (.error raised, disk)) ∨
    (∃ evidence, gatherEvidence runtime request = .ok evidence ∧
      ¬Formats evidence.observedExitCode ∧
      runQualification runtime request disk = (.error (.other valueError), disk)) := by
  unfold runQualification
  cases gatherEvidence runtime request with
  | ok evidence =>
      by_cases hformats : Formats evidence.observedExitCode
      · left
        exact ⟨evidence, rfl, hformats, by simp only [built_of_formats hformats]⟩
      · right; right; right
        exact ⟨evidence, rfl, hformats, by simp only [built_of_not_formats hformats]⟩
  | error failure =>
      obtain ⟨metadata, raised⟩ := failure
      right
      cases raised with
      | inputValidationError rejection => exact .inl ⟨metadata, rejection, rfl, rfl⟩
      | _ => exact .inr (.inl ⟨metadata, _, rfl, nofun, rfl⟩)

/-- A run whose report is written reports evidence or a rejection. -/
theorem runQualification_written_cases {runtime : Runtime} {request : Request} {disk : Disk}
    (h : (runQualification runtime request disk).1 ≠ .error .unicodeEncodeError) :
    (∃ evidence, gatherEvidence runtime request = .ok evidence ∧
      Formats evidence.observedExitCode ∧
      (runQualification runtime request disk).1 =
        .ok (reportExitCode evidence.report false, evidence.report)) ∨
    (∃ metadata rejection,
      gatherEvidence runtime request = .error (metadata, .inputValidationError rejection) ∧
      (runQualification runtime request disk).1 =
        .ok (exitInputError, validationFailureReport rejection.findings metadata)) ∨
    (∃ metadata raised, gatherEvidence runtime request = .error (metadata, raised) ∧
      ∀ rejection, raised ≠ .inputValidationError rejection) ∨
    (∃ evidence, gatherEvidence runtime request = .ok evidence ∧
      ¬Formats evidence.observedExitCode ∧
      (runQualification runtime request disk).1 = .error (.other valueError)) := by
  rcases runQualification_cases runtime request disk with
    ⟨evidence, hgather, hformats, heq⟩ | ⟨metadata, rejection, hgather, heq⟩ |
      ⟨metadata, raised, hgather, hraised, _⟩ | ⟨evidence, hgather, hformats, heq⟩
  · rw [heq] at h ⊢
    exact .inl ⟨evidence, hgather, hformats, publish_of_written (formats_report hformats) h⟩
  · rw [heq] at h ⊢
    exact .inr (.inl ⟨metadata, rejection, hgather, publish_of_written nofun h⟩)
  · exact .inr (.inr (.inl ⟨metadata, raised, hgather, hraised⟩))
  · exact .inr (.inr (.inr ⟨evidence, hgather, hformats, congrArg Prod.fst heq⟩))

end Running

end Esqh.Qualification
