import Esqh.Qualification.Gates

/-!
Failures that a result document states. The parser reads the first array it
finds and lets a status win over a `passed` field, so a failure stated elsewhere
is ignored.
-/

namespace Esqh.Qualification

open Batch Outcome

variable (runtime : Runtime)

/-- The status of a record, if it has one that is normalised. -/
def HasStatus (members : Members) (status : CaseStatus) : Prop :=
  ∃ value, Json.get members (str "status") = some value ∧
    normalizeStatus runtime (some value) [] = .ok status

/-- The record states a failure or incompleteness through either field. -/
def StatesFailure (record : Json) : Prop :=
  ∃ members, record = .object members ∧
    ((∃ status, HasStatus runtime members status ∧ status ≠ .pass) ∨
      Json.get members (str "passed") = some (.bool false))

/-- Some record under an accepted key states a failure. -/
def StatesFailures (C : Json) : Prop :=
  ∃ members, C = .object members ∧ ∃ key ∈ resultKeys, ∃ records,
    Json.get members key = some (.array records) ∧ ∃ record ∈ records, StatesFailure runtime record

/-- The record has passed by its status, but failed by its `passed` field. -/
def Overrides (record : Json) : Prop :=
  ∃ members, record = .object members ∧ HasStatus runtime members .pass ∧
    Json.get members (str "passed") = some (.bool false)

/-- A failure that the parser does not see: in an array that is not the selected
one, or overridden. -/
def IgnoresFailure (C : Json) : Prop :=
  ∃ members, C = .object members ∧ ∃ key ∈ resultKeys, ∃ records,
    Json.get members key = some (.array records) ∧ ∃ record ∈ records,
      ((selectArray members resultKeys).map Prod.fst ≠ some key ∧ StatesFailure runtime record) ∨
        Overrides runtime record

/-- What the parser reads is a full pass: the documents fit together, all parsed
cases passed, so did the binary, and the report can be written. -/
def PassingInputs (request : Request) (C : Json) (exitCode : Int) : Prop :=
  ∃ R P evidence, request.requirements.Holds runtime R ∧ request.procedures.Holds runtime P ∧
    Validated runtime R P C evidence ∧ evidence.observedExitCode = exitCode ∧
    Clean evidence.requirements evidence.procedures evidence.cCases exitCode [] ∧
    evidence.Printable

/-- The run does not pass. -/
def RefusesPass (outcome : Except Raised (Int × Report)) : Prop :=
  ∀ exitCode report, outcome = .ok (exitCode, report) →
    exitCode ≠ exitOk ∧ report.result ≠ .hostPass

variable {runtime}

section Parsing

theorem normalizeStatus_anywhere {raw : Option Json} {caseId : Str} {status : CaseStatus}
    (h : normalizeStatus runtime raw caseId = .ok status) (other : Str) :
    normalizeStatus runtime raw other = .ok status := by
  unfold normalizeStatus at h ⊢
  split at h
  · exact h
  · simp only at h ⊢
    split at h
    · rwa [if_pos ‹_›]
    · rw [if_neg ‹_›]
      split at h
      · rwa [if_pos ‹_›]
      · rw [if_neg ‹_›]
        split at h
        · rwa [if_pos ‹_›]
        · cases h
  · cases h

/-- What a parsed record says of its status. -/
theorem status_of_accepts {record : Json} {result : CCaseResult}
    (h : (caseContract runtime).Accepts record result) :
    ∃ members, record = .object members ∧
      normalizeStatus runtime (statusValue members) [] = .ok result.status := by
  obtain ⟨members, rfl, identifier, _, status, hstatus, hfinish⟩ := (accepts_case_iff runtime).mp h
  cases hfinish
  exact ⟨members, rfl, normalizeStatus_anywhere hstatus []⟩

/-- A parsed pass overrides every failure that the record states. -/
theorem overrides_of_accepts {record : Json} {result : CCaseResult}
    (h : (caseContract runtime).Accepts record result) (hpass : result.status = .pass)
    (hstates : StatesFailure runtime record) : Overrides runtime record := by
  obtain ⟨members, rfl, hstatus⟩ := status_of_accepts h
  rw [hpass] at hstatus
  obtain ⟨_, ⟨⟩, hfailure⟩ := hstates
  cases hvalue : Json.get members (str "status") with
  | none =>
      rw [statusValue, hvalue, Option.none_or] at hstatus
      rcases hfailure with ⟨status, ⟨value, hfound, _⟩, _⟩ | hpassed
      · rw [hvalue] at hfound
        cases hfound
      · rw [hpassed] at hstatus
        cases hstatus
  | some value =>
      rw [statusValue, hvalue, Option.some_or] at hstatus
      rcases hfailure with ⟨status, ⟨value', hfound, hother⟩, hne⟩ | hpassed
      · cases hvalue.symm.trans hfound
        cases hstatus.symm.trans hother
        exact absurd rfl hne
      · exact ⟨members, rfl, ⟨value, hvalue, hstatus⟩, hpassed⟩

theorem get_of_selectArray {members : Members} {keys : List Str} {key : Str} {value : Json}
    (h : selectArray members keys = some (key, value)) : Json.get members key = some value := by
  obtain ⟨found, _, hfound⟩ := List.exists_of_findSome?_eq_some h
  split at hfound
  · cases hfound
  · cases hfound
  · cases hfound
    assumption

theorem extractArray_of_selected {members : Members} {keys : List Str} {key : Str}
    {records : List Json} (hselected : (selectArray members keys).map Prod.fst = some key)
    (hrecords : Json.get members key = some (.array records)) (kind : Str) :
    extractArray runtime (.object members) keys kind = .ok records := by
  obtain ⟨⟨found, value⟩, hfound, rfl⟩ := Option.map_eq_some_iff.mp hselected
  cases (get_of_selectArray hfound).symm.trans hrecords
  simp only [extractArray, hfound]

/-- If all that is parsed has passed, every stated failure is an ignored one. -/
theorem ignoresFailure_of_statesFailures {C : Json} {cCases : List CCaseResult}
    (hparsed : parseCResults runtime C = .ok cCases)
    (hpass : ∀ case ∈ cCases, case.status = .pass) (h : StatesFailures runtime C) :
    IgnoresFailure runtime C := by
  obtain ⟨members, rfl, key, hkey, records, hrecords, record, hrecord, hstates⟩ := h
  refine ⟨members, rfl, key, hkey, records, hrecords, record, hrecord, ?_⟩
  by_cases hselected : (selectArray members resultKeys).map Prod.fst = some key
  · right
    obtain ⟨found, hfound, hload⟩ := bind_eq_ok_iff.mp hparsed
    cases (extractArray_of_selected hselected hrecords _).symm.trans hfound
    obtain ⟨result, hresult, haccepts⟩ := Contract.accepted_of_load hload hrecord
    exact overrides_of_accepts haccepts (hpass result hresult) hstates
  · exact .inl ⟨hselected, hstates⟩

end Parsing

section Passing

variable {request : Request} {source : ResultSource} {C : Json} {exitCode : Int}

theorem Evidence.result_eq_hostPass_iff_clean {R P C : Json} {evidence : Evidence}
    (h : Validated runtime R P C evidence) : evidence.report.result = .hostPass ↔
      Clean evidence.requirements evidence.procedures evidence.cCases
        evidence.observedExitCode [] := by
  rw [Evidence.report, Qualification.result_eq_hostPass_iff,
    allIssues_eq_nil_iff _ _ _ _ _ h.requirementIds]

/-- A run is a pass exactly if all that it reads is one. -/
theorem refusesPass_iff (hsource : request.resultSource = .ok source)
    (hC : readResults runtime source request.timeoutSeconds = .ok (C, exitCode)) (disk : Disk) :
    RefusesPass (runQualification runtime request disk).1 ↔
      ¬PassingInputs runtime request C exitCode := by
  constructor
  · rintro hrefuses ⟨R, P, evidence, hR, hP, hvalid, rfl, hclean, hprintable⟩
    have hgather : gatherEvidence runtime request = .ok evidence :=
      gatherEvidence_eq_ok_iff.mpr ⟨source, R, P, C, hsource, hR, hP, hC, hvalid⟩
    have hrun := runQualification_of_printable hgather hprintable disk
    exact (hrefuses _ _ hrun).2 ((Evidence.result_eq_hostPass_iff_clean hvalid).mpr hclean)
  · intro hnot code report houtcome
    rcases runQualification_cases runtime request disk with
      ⟨evidence, hgather, _, heq⟩ | ⟨metadata, rejection, hgather, heq⟩ |
        ⟨metadata, raised, hgather, hraised, heq⟩ | ⟨evidence, _, _, heq⟩
    · obtain ⟨source', R, P, C', hsource', hR, hP, hC', hvalid⟩ :=
        gatherEvidence_eq_ok_iff.mp hgather
      cases hsource.symm.trans hsource'
      cases hC.symm.trans hC'
      rw [heq] at houtcome
      obtain ⟨rfl, rfl, hwritable⟩ := publish_eq_ok houtcome
      have hresult : evidence.report.result ≠ .hostPass := by
        intro hpass
        exact hnot ⟨R, P, evidence, hR, hP, hvalid, rfl,
          (Evidence.result_eq_hostPass_iff_clean hvalid).mp hpass,
          evidence.writable_iff.mp hwritable⟩
      exact ⟨fun hcode => hresult ((reportExitCode_eq_ok_iff _).mp hcode), hresult⟩
    · rw [heq] at houtcome
      obtain ⟨rfl, rfl, _⟩ := publish_eq_ok houtcome
      exact ⟨by decide, nofun⟩
    · rw [heq] at houtcome
      cases houtcome
    · rw [heq] at houtcome
      cases houtcome

end Passing

theorem statesFailures_of_ignoresFailure {C : Json} (h : IgnoresFailure runtime C) :
    StatesFailures runtime C := by
  obtain ⟨members, rfl, key, hkey, records, hrecords, record, hrecord, hignored⟩ := h
  refine ⟨members, rfl, key, hkey, records, hrecords, record, hrecord, ?_⟩
  rcases hignored with ⟨_, hstates⟩ | ⟨found, rfl, _, hpassed⟩
  · exact hstates
  · exact ⟨found, rfl, .inr hpassed⟩

/-- The run on the contradictory results. -/
def contradictoryRequest (exitCode : Int) : Request :=
  capturedRequest (textFile "requirements.json" requirementsText)
    (textFile "procedures.json" proceduresText) (textFile "results.json" contradictoryText)
    (.int exitCode) (str "30")

theorem holds_contradictoryResults :
    (textFile "results.json" contradictoryText).Holds sampleRuntime contradictoryResults :=
  holds_textFile (by simp [contradictoryText, sampleText]) rfl _

theorem statesFailures_contradictory : StatesFailures sampleRuntime contradictoryResults := by
  refine ⟨_, rfl, str "cases", by decide, _, rfl, _, List.mem_singleton.mpr rfl, _, rfl, ?_⟩
  exact .inr rfl

/-- A stated failure keeps a run from passing, unless it is ignored and all that
the parser reads is a full pass. -/
theorem runQualification_stated_failure_iff (runtime : Runtime) (request : Request)
    (source : ResultSource) (C : Json) (exitCode : Int)
    (hsource : request.resultSource = .ok source)
    (hC : readResults runtime source request.timeoutSeconds = .ok (C, exitCode)) (disk : Disk) :
    (StatesFailures runtime C → RefusesPass (runQualification runtime request disk).1) ↔
      ¬(IgnoresFailure runtime C ∧ PassingInputs runtime request C exitCode) := by
  rw [refusesPass_iff hsource hC]
  constructor
  · rintro hrefuses ⟨hignores, hpasses⟩
    exact hrefuses (statesFailures_of_ignoresFailure hignores) hpasses
  · intro hnot hstates hpasses
    have hignores : IgnoresFailure runtime C := by
      obtain ⟨R, P, evidence, _, _, hvalid, _, hclean, _⟩ := hpasses
      exact ignoresFailure_of_statesFailures hvalid.cCases hclean.cases hstates
    exact hnot ⟨hignores, hpasses⟩

/-- With a failed binary the contradictory results do not pass. -/
theorem runQualification_stated_failure_iff_exit :
    RefusesPass (runQualification sampleRuntime (contradictoryRequest 1) ⟨none, none⟩).1 := by
  refine (runQualification_stated_failure_iff sampleRuntime (contradictoryRequest 1)
    (.captured (textFile "results.json" contradictoryText) 1) contradictoryResults 1 rfl
    (readResults_captured holds_contradictoryResults) ⟨none, none⟩).mpr ?_
      statesFailures_contradictory
  rintro ⟨_, R, P, evidence, _, _, _, _, hclean, _⟩
  exact absurd hclean.binary (by decide)

/-- The contradictory results pass, though one of their fields states a failure. -/
theorem runQualification_ignores_failure :
    StatesFailures sampleRuntime contradictoryResults ∧
      (contradictoryRequest 0).resultSource =
        .ok (.captured (textFile "results.json" contradictoryText) 0) ∧
      (textFile "results.json" contradictoryText).Holds sampleRuntime contradictoryResults ∧
      ¬RefusesPass (runQualification sampleRuntime (contradictoryRequest 0) ⟨none, none⟩).1 := by
  refine ⟨statesFailures_contradictory, rfl, holds_contradictoryResults, ?_⟩
  have hvalid : Validated sampleRuntime sampleRequirements sampleProcedures contradictoryResults
      sampleEvidence := ⟨rfl, rfl, rfl, rfl, rfl, rfl⟩
  have hgather : gatherEvidence sampleRuntime (contradictoryRequest 0) = .ok sampleEvidence :=
    (gatherEvidence_captured_iff holds_sampleRequirements holds_sampleProcedures
      holds_contradictoryResults (le_refl 0) sampleEvidence).mpr ⟨hvalid, rfl⟩
  intro hrefuses
  have hrun := runQualification_of_printable hgather sampleEvidence_printable ⟨none, none⟩
  exact (hrefuses _ _ hrun).1 rfl

end Esqh.Qualification
