import Esqh.Qualification.LoaderContracts
import Esqh.Qualification.StatedFailures

/-!
The verification methods that a requirement declares. The loader looks at the
singular field only where the plural one is absent, so a plural field that is
null or empty hides the methods of the singular one, and the traceability check
takes the requirement for one that permits everything.
-/

namespace Esqh.Qualification

open Batch Collections Outcome

variable (runtime : Runtime)

/-- The method names in a field: a text, or the texts of an array. -/
def fieldNames : Option Json → List Str
  | some (.string text) => [text]
  | some (.array items) => items.filterMap stringText
  | _ => []

def pluralMethods (record : Members) : Option Json := Json.get record (str "verification_methods")

def singularMethods (record : Members) : Option Json := Json.get record (str "verification_method")

/-- The method names that a requirement record carries in either field. -/
def carriedNames (record : Members) : List Str :=
  fieldNames (pluralMethods record) ++ fieldNames (singularMethods record)

/-- One of the names stands for the strategy. -/
def Permits (names : List Str) (strategy : Str) : Prop :=
  ∃ name ∈ names, normalizeMethod runtime name = some strategy

/-- The record stands in the requirement document under the identifier. -/
def DeclaresRequirement (R : Json) (record : Members) (id : Str) : Prop :=
  ∃ records, extractArray runtime R [str "requirements"] (str "requirements") = .ok records ∧
    .object record ∈ records ∧ firstText record requirementIdKeys = some id

/-- The procedure is one of the procedure document and references the identifier. -/
def References (P : Json) (procedure : Procedure) (id : Str) : Prop :=
  ∃ procedures, proceduresOf runtime P = .ok procedures ∧ procedure ∈ procedures ∧
    id ∈ procedure.requirementIds

/-- Where a requirement carries method names, every procedure that references it
has the strategy of one of them. -/
def EnforcesMethods (R P : Json) : Prop :=
  ∀ record id, DeclaresRequirement runtime R record id → carriedNames record ≠ [] →
    ∀ procedure, References runtime P procedure id →
      Permits runtime (carriedNames record) procedure.verificationMethod

/-- The plural field is there but holds no method. -/
def Masks (record : Members) : Prop :=
  pluralMethods record = some .null ∨ pluralMethods record = some (.array [])

/-- The plural field of a requirement hides method names of the singular one, and
a procedure that references it has the strategy of none of them. -/
def MasksMethods (R P : Json) : Prop :=
  ∃ record id procedure, DeclaresRequirement runtime R record id ∧ Masks record ∧
    fieldNames (singularMethods record) ≠ [] ∧ References runtime P procedure id ∧
    ¬Permits runtime (fieldNames (singularMethods record)) procedure.verificationMethod

variable {runtime}

section Loading

theorem carriedNames_of_masks {record : Members} (h : Masks record) :
    carriedNames record = fieldNames (singularMethods record) := by
  rcases h with h | h
  · rw [carriedNames, h]
    rfl
  · rw [carriedNames, h]
    rfl

/-- What the field that is looked at can be, and the names that are read from it. -/
theorem methodValues_cases {identifier : Str} {record : Members} {values : List Str}
    (h : methodValues identifier record = .ok values) :
    let field := (pluralMethods record).or (singularMethods record)
    ((field = none ∨ field = some .null) ∧ values = []) ∨
      (∃ text, field = some (.string text) ∧ values = [text]) ∨
      ∃ items, field = some (.array items) ∧ items.length = values.length ∧
        values = items.filterMap stringText := by
  intro field
  simp only [methodValues] at h
  cases hfield : (Json.get record (str "verification_methods")).or
      (Json.get record (str "verification_method")) with
  | none =>
      rw [hfield] at h
      cases h
      exact .inl ⟨.inl hfield, rfl⟩
  | some value =>
      rw [hfield] at h
      cases value with
      | null =>
          cases h
          exact .inl ⟨.inr hfield, rfl⟩
      | string text =>
          cases h
          exact .inr (.inl ⟨text, hfield, rfl⟩)
      | array items =>
          dsimp only at h
          split_ifs at h with htexts
          · cases h
            refine .inr (.inr ⟨items, hfield, ?_, rfl⟩)
            symm
            apply List.filterMap_length_eq_length.mpr
            intro item hitem
            obtain ⟨text, rfl, -⟩ := isSome_nonEmptyString_iff.mp
              (List.all_eq_true.mp htexts item hitem)
            rfl
          · cases h
      | _ => cases h

/-- The names that are read are those of the field that is looked at. -/
theorem methodValues_eq {identifier : Str} {record : Members} {values : List Str}
    (h : methodValues identifier record = .ok values) :
    values = fieldNames ((pluralMethods record).or (singularMethods record)) := by
  rcases methodValues_cases h with ⟨hnone | hnull, rfl⟩ | ⟨text, htext, rfl⟩ |
    ⟨items, hitems, -, rfl⟩
  · rw [hnone]
    rfl
  · rw [hnull]
    rfl
  · rw [htext]
    rfl
  · rw [hitems]
    rfl

/-- If no name is read, the record carries none or the plural field hides them. -/
theorem masks_of_methodValues {identifier : Str} {record : Members}
    (h : methodValues identifier record = .ok []) (hcarried : carriedNames record ≠ []) :
    Masks record := by
  cases hplural : pluralMethods record with
  | none =>
      have hvalues := methodValues_eq h
      rw [hplural, Option.none_or] at hvalues
      rw [carriedNames, hplural, ← hvalues] at hcarried
      exact absurd rfl hcarried
  | some value =>
      rcases methodValues_cases h with ⟨hnone | hnull, -⟩ | ⟨text, -, hvalues⟩ |
        ⟨items, hitems, hlength, -⟩
      · rw [hplural, Option.some_or] at hnone
        cases hnone
      · rw [hplural, Option.some_or] at hnull
        exact .inl (hplural.trans hnull)
      · cases hvalues
      · rw [hplural, Option.some_or] at hitems
        rw [List.length_eq_zero_iff.mp hlength] at hitems
        exact .inr (hplural.trans hitems)

/-- What is read is carried. -/
theorem fieldNames_or_subset (record : Members) :
    fieldNames ((pluralMethods record).or (singularMethods record)) ⊆ carriedNames record := by
  cases hplural : pluralMethods record with
  | none =>
      rw [carriedNames, hplural, Option.none_or]
      exact List.subset_append_right _ _
  | some value =>
      rw [carriedNames, hplural, Option.some_or]
      exact List.subset_append_left _ _

theorem Permits.mono {names others : List Str} {strategy : Str}
    (h : Permits runtime names strategy) (hsubset : names ⊆ others) :
    Permits runtime others strategy := by
  obtain ⟨name, hname, hstrategy⟩ := h
  exact ⟨name, hsubset hname, hstrategy⟩

/-- The methods of a loaded requirement are what the names that are read stand for. -/
theorem finishRequirement_methods {identifier : Str} {record : Members} {requirement : Requirement}
    (h : finishRequirement runtime (identifier, record) = .ok requirement) :
    ∃ values, methodValues identifier record = .ok values ∧
      (requirement.verificationMethods = [] → values = []) ∧
      ∀ strategy, strategy ∈ requirement.verificationMethods ↔ Permits runtime values strategy := by
  obtain ⟨values, hvalues, hfinish⟩ := bind_eq_ok_iff.mp h
  refine ⟨values, hvalues, ?_⟩
  dsimp only at hfinish
  split_ifs at hfinish with hempty
  · cases hfinish
    have hsupported : ∀ value ∈ values, Supported runtime value := by
      intro value hvalue
      apply not_isNone_normalizeMethod_iff.mp
      exact List.filter_eq_nil_iff.mp (List.isEmpty_iff.mp hempty) value hvalue
    have hpermits : ∀ strategy, strategy ∈
        sortedBy id (values.filterMap (normalizeMethod runtime)).dedup ↔
          Permits runtime values strategy := by
      intro strategy
      rw [mem_sortedBy, List.mem_dedup, List.mem_filterMap]
      rfl
    refine ⟨fun hnone => ?_, hpermits⟩
    apply List.eq_nil_iff_forall_not_mem.mpr
    intro value hvalue
    obtain ⟨strategy, hstrategy⟩ := hsupported value hvalue
    have hmem := (hpermits strategy).mpr ⟨value, hvalue, hstrategy⟩
    dsimp only at hnone
    rw [hnone] at hmem
    cases hmem
  · cases hfinish

end Loading

section Enforcing

variable {R P C : Json} {evidence : Evidence}

/-- A declared record is loaded under its identifier. -/
theorem requirement_of_declares {requirements : List Requirement} {record : Members} {id : Str}
    (h : requirementsOf runtime R = .ok requirements)
    (hdeclares : DeclaresRequirement runtime R record id) :
    ∃ requirement ∈ requirements, requirement.identifier = id ∧
      finishRequirement runtime (id, record) = .ok requirement := by
  obtain ⟨records, hrecords, hmem, hid⟩ := hdeclares
  obtain ⟨_, _, hrest⟩ := bind_eq_ok_iff.mp h
  obtain ⟨found, hfound, hload⟩ := bind_eq_ok_iff.mp hrest
  cases hrecords.symm.trans hfound
  obtain ⟨requirement, hrequirement, haccepts⟩ := Contract.accepted_of_load hload hmem
  have hidentifier := recordId_requirement haccepts
  obtain ⟨_, ⟨⟩, identifier, hread, hfinish⟩ := (accepts_requirement_iff runtime).mp haccepts
  have hsame : identifier = id := by
    have hfirst := (requiredString_eq_ok_iff _ _ _ _ _).mp hread
    exact Option.some.inj (hfirst.symm.trans hid)
  refine ⟨requirement, hrequirement, ?_, hsame ▸ hfinish⟩
  exact Option.some.inj (hidentifier.symm.trans hid)

/-- Where the qualification is clean, the methods of a requirement are enforced
unless they are hidden. -/
theorem enforcesMethods_of_clean (hvalid : Validated runtime R P C evidence)
    (htraced : Traced evidence.requirements evidence.procedures evidence.cCases)
    (hmasks : ¬MasksMethods runtime R P) : EnforcesMethods runtime R P := by
  intro record id hdeclares hcarried procedure hreferences
  obtain ⟨requirement, hrequirement, hidentifier, hfinish⟩ :=
    requirement_of_declares hvalid.requirements hdeclares
  obtain ⟨values, hvalues, hnone, hpermits⟩ := finishRequirement_methods hfinish
  have hread := methodValues_eq hvalues
  obtain ⟨procedures, hprocedures, hprocedure, hreference⟩ := hreferences
  by_cases hempty : requirement.verificationMethods = []
  · -- Nothing was read, so the singular field must permit the procedure.
    rw [hnone hempty] at hvalues
    have hmasked := masks_of_methodValues hvalues hcarried
    rw [carriedNames_of_masks hmasked] at hcarried ⊢
    by_contra hforbidden
    exact hmasks ⟨record, id, procedure, hdeclares, hmasked, hcarried,
      ⟨procedures, hprocedures, hprocedure, hreference⟩, hforbidden⟩
  · cases hprocedures.symm.trans hvalid.procedures
    have hpermitted := htraced.methodsPermitted procedure hprocedure requirement hrequirement
      (by rwa [hidentifier]) hempty
    apply ((hpermits _).mp hpermitted).mono
    rw [hread]
    exact fieldNames_or_subset record

theorem not_enforcesMethods_of_masks (h : MasksMethods runtime R P) :
    ¬EnforcesMethods runtime R P := by
  obtain ⟨record, id, procedure, hdeclares, hmasked, hnames, hreferences, hforbidden⟩ := h
  intro henforces
  rw [← carriedNames_of_masks hmasked] at hnames hforbidden
  exact hforbidden (henforces record id hdeclares hnames procedure hreferences)

end Enforcing

section Runs

variable {request : Request} {source : ResultSource} {C : Json} {exitCode : Int}

theorem returns_exitOk_iff (hsource : request.resultSource = .ok source)
    (hC : readResults runtime source request.timeoutSeconds = .ok (C, exitCode)) (disk : Disk) :
    Returns exitOk (runQualification runtime request disk).1 ↔
      PassingInputs runtime request C exitCode := by
  constructor
  · rintro ⟨report, hrun⟩
    by_contra hnot
    exact ((refusesPass_iff hsource hC disk).mpr hnot _ _ hrun).1 rfl
  · rintro ⟨R, P, evidence, hR, hP, hvalid, rfl, hclean, hprintable⟩
    have hgather : gatherEvidence runtime request = .ok evidence :=
      gatherEvidence_eq_ok_iff.mpr ⟨source, R, P, C, hsource, hR, hP, hC, hvalid⟩
    rw [runQualification_of_printable hgather hprintable disk, returns_ok_iff,
      reportExitCode_eq_ok_iff, Evidence.result_eq_hostPass_iff_clean hvalid]
    exact hclean

end Runs

/-- A run that returns 0 has enforced every declared method, unless the plural
field of a requirement hides methods that a procedure does not have and all
else is a full pass. -/
theorem runQualification_methods_iff (runtime : Runtime) (request : Request)
    (source : ResultSource) (R P C : Json) (exitCode : Int)
    (hsource : request.resultSource = .ok source) (hR : request.requirements.Holds runtime R)
    (hP : request.procedures.Holds runtime P)
    (hC : readResults runtime source request.timeoutSeconds = .ok (C, exitCode)) (disk : Disk) :
    (Returns exitOk (runQualification runtime request disk).1 → EnforcesMethods runtime R P) ↔
      ¬(MasksMethods runtime R P ∧ PassingInputs runtime request C exitCode) := by
  rw [returns_exitOk_iff hsource hC]
  constructor
  · rintro henforces ⟨hmasks, hpasses⟩
    exact not_enforcesMethods_of_masks hmasks (henforces hpasses)
  · intro hnot hpasses
    have hmasks : ¬MasksMethods runtime R P := fun hmasks => hnot ⟨hmasks, hpasses⟩
    obtain ⟨R', P', evidence, hR', hP', hvalid, _, hclean, _⟩ := hpasses
    cases hR.unique hR'
    cases hP.unique hP'
    exact enforcesMethods_of_clean hvalid hclean.traced hmasks

/-- In the sample, which passes, no field hides another. -/
theorem runQualification_methods_iff_sample :
    EnforcesMethods sampleRuntime sampleRequirements sampleProcedures := by
  refine (runQualification_methods_iff sampleRuntime sampleRequest
    (.captured (textFile "results.json" resultsText) 0) _ _ sampleResults 0 rfl
    holds_sampleRequirements holds_sampleProcedures
    (readResults_captured holds_sampleResults) ⟨none, none⟩).mpr ?_
      (returns_of_sampleEvidence gatherEvidence_sample ⟨none, none⟩)
  rintro ⟨⟨record, id, procedure, ⟨records, hrecords, hmem, -⟩, hmasked, -⟩, -⟩
  cases hrecords
  cases List.mem_singleton.mp hmem
  rcases hmasked with hnull | hempty
  · cases hnull
  · cases hempty

/-- A requirement whose plural field is null and whose singular one asks for an
analysis. -/
def maskedRequirements : Json :=
  sampleDocument "requirements"
    [.object
      [(str "id", .string (str "REQ")), (str "verification_methods", .null),
        (str "verification_method", .string (str "analysis"))]]

def maskedText : Str :=
  sampleText "requirements"
    "\x7b\"id\":\"REQ\",\"verification_methods\":null,\"verification_method\":\"analysis\"\x7d"

def maskedRuntime : Runtime :=
  asciiRuntime
    [(maskedText, maskedRequirements), (proceduresText, sampleProcedures),
      (resultsText, sampleResults)]

def maskedRequest : Request :=
  capturedRequest (textFile "requirements.json" maskedText)
    (textFile "procedures.json" proceduresText) (textFile "results.json" resultsText) (.int 0)
    (str "30")

theorem holds_maskedRequirements :
    (textFile "requirements.json" maskedText).Holds maskedRuntime maskedRequirements :=
  holds_textFile (by simp [maskedText, sampleText]) rfl _

theorem holds_maskedProcedures :
    (textFile "procedures.json" proceduresText).Holds maskedRuntime sampleProcedures :=
  holds_textFile (by simp [proceduresText, sampleText]) rfl _

theorem holds_maskedResults :
    (textFile "results.json" resultsText).Holds maskedRuntime sampleResults :=
  holds_textFile (by simp [resultsText, sampleText]) rfl _

/-- The run on a requirement that asks for an analysis returns 0, though the one
procedure that references it is a test. -/
theorem runQualification_masked :
    maskedRequest.requirements.Holds maskedRuntime maskedRequirements ∧
      maskedRequest.procedures.Holds maskedRuntime sampleProcedures ∧
      Returns exitOk (runQualification maskedRuntime maskedRequest ⟨none, none⟩).1 ∧
      ¬EnforcesMethods maskedRuntime maskedRequirements sampleProcedures := by
  have hvalid : Validated maskedRuntime maskedRequirements sampleProcedures sampleResults
      sampleEvidence := ⟨rfl, rfl, rfl, rfl, rfl, rfl⟩
  have hgather : gatherEvidence maskedRuntime maskedRequest = .ok sampleEvidence :=
    (gatherEvidence_captured_iff holds_maskedRequirements holds_maskedProcedures
      holds_maskedResults (le_refl 0) sampleEvidence).mpr ⟨hvalid, rfl⟩
  refine ⟨holds_maskedRequirements, holds_maskedProcedures, ?_, ?_⟩
  · exact returns_of_sampleEvidence hgather ⟨none, none⟩
  · apply not_enforcesMethods_of_masks
    refine ⟨_, str "REQ", _, ⟨_, rfl, List.mem_singleton.mpr rfl, rfl⟩, .inl rfl, by decide,
      ⟨_, hvalid.procedures, List.mem_singleton.mpr rfl, List.mem_singleton.mpr rfl⟩, ?_⟩
    rintro ⟨name, hname, hstrategy⟩
    cases List.mem_singleton.mp hname
    exact absurd hstrategy (by decide)

end Esqh.Qualification
