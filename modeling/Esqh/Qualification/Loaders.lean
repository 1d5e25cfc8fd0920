import Esqh.Qualification.Fields

/-!
`load_requirements`, `load_procedures` and `parse_c_results` of
`tools/qualification.py`, from the document on.
-/

namespace Esqh.Qualification

open Batch Collections Outcome

def verificationMethods : List (Str × Str) :=
  [("test", "test"), ("automated_test", "test"), ("automated test", "test"),
    ("unit_test", "test"), ("unit test", "test"), ("integration_test", "test"),
    ("integration test", "test"), ("system_test", "test"), ("system test", "test"),
    ("qualification_test", "test"), ("qualification test", "test"), ("execution", "test"),
    ("analysis", "analysis"), ("static_analysis", "analysis"), ("static analysis", "analysis"),
    ("inspection", "inspection"), ("review", "inspection"),
    ("demonstration", "demonstration")].map fun (accepted, method) => (str accepted, str method)

def passStatuses : List Str := ["pass", "passed", "success", "successful", "ok"].map str

def failStatuses : List Str := ["fail", "failed", "failure", "error"].map str

def incompleteStatuses : List Str :=
  ["skip", "skipped", "not_run", "not-run", "not run", "blocked"].map str

variable (runtime : Runtime)

def normalizeMethod (value : Str) : Option Str :=
  verificationMethods.lookup (runtime.lower (strip value))

/-- A record that is not an object. -/
def recordNotObject (code : String) (kind : String) (index : Nat) : Issue :=
  { code := str code
    message := str kind ++ str " at index " ++ intText index ++ str " must be an object." }

section Requirements

def requirementRepeated (identifier : Str) : Issue :=
  { code := str "DUPLICATE_REQUIREMENT_ID"
    message := str "Requirement ID '" ++ identifier ++ str "' is declared more than once."
    subjectId := identifier }

def methodNotString (identifier : Str) : Issue :=
  { code := str "INVALID_SCHEMA"
    message := str "Requirement '" ++ identifier ++
      str "' verification method must be a string or array of strings."
    subjectId := identifier }

def methodsUnsupported (identifier : Str) (unsupportedMethods : List Str) : Issue :=
  { code := str "UNSUPPORTED_VERIFICATION_METHOD"
    message := str "Requirement '" ++ identifier ++
      str "' uses unsupported verification method(s): " ++
      join (str ", ") (sortedBy id unsupportedMethods) ++ str "."
    subjectId := identifier }

/-- The text of a string, as it stands. -/
def stringText : Json → Option Str
  | .string text => some text
  | _ => none

/-- The methods that a requirement names; a null names none. -/
def methodValues (identifier : Str) (record : Members) : Checked (List Str) :=
  let rawMethods := (Json.get record (str "verification_methods")).or
    (Json.get record (str "verification_method"))
  match rawMethods with
  | none => .ok []
  | some .null => .ok []
  | some (.string value) => .ok [value]
  | some (.array items) =>
    if items.all fun item => (nonEmptyString item).isSome then .ok (items.filterMap stringText)
    else refuse (methodNotString identifier)
  | _ => refuse (methodNotString identifier)

def readRequirement (index : Nat) (raw : Json) : Checked (Str × Members) :=
  match raw with
  | .object record => do
      let identifier ← requiredString runtime record [str "id", str "requirement_id"]
        (str "requirement at index " ++ intText index)
      pure (identifier, record)
  | _ => refuse (recordNotObject "INVALID_SCHEMA" "Requirement" index)

def finishRequirement (draft : Str × Members) : Checked Requirement := do
  let (identifier, record) := draft
  let values ← methodValues identifier record
  let unsupportedMethods := values.filter fun value => (normalizeMethod runtime value).isNone
  let normalizedMethods := values.filterMap (normalizeMethod runtime)
  if unsupportedMethods.isEmpty then
    pure
      { identifier := identifier
        title := optionalString record [str "title", str "name"] identifier
        statement := optionalString record [str "statement", str "text", str "description"] []
        verificationMethods := sortedBy id normalizedMethods.dedup }
  else refuse (methodsUnsupported identifier unsupportedMethods)

def requirementContract : Contract Json (Str × Members) Requirement Str Issue where
  read := readRequirement runtime
  read_anywhere := by
    intro index raw draft h other
    cases raw with
    | object record =>
        obtain ⟨identifier, hidentifier, hdraft⟩ := bind_eq_ok_iff.mp h
        exact bind_eq_ok_iff.mpr
          ⟨identifier, requiredString_anywhere runtime hidentifier _, hdraft⟩
    | _ => cases h
  draftKey := Prod.fst
  repeated := fun draft => requirementRepeated draft.1
  finish := finishRequirement runtime
  key := Requirement.identifier
  key_of_finish := by
    intro draft result h
    obtain ⟨values, _, hresult⟩ := bind_eq_ok_iff.mp h
    simp only at hresult
    split at hresult
    · cases hresult
      rfl
    · cases hresult
  nothing :=
    { code := str "EMPTY_REQUIREMENTS"
      message := str "At least one requirement is required." }

/-- A requirement is accepted if its identifier and its methods are fine. -/
theorem accepts_requirement_iff {raw : Json} {requirement : Requirement} :
    (requirementContract runtime).Accepts raw requirement ↔
      ∃ record, raw = .object record ∧
        ∃ identifier, requiredString runtime record [str "id", str "requirement_id"]
          (str "requirement at index " ++ intText (0 : Nat)) = .ok identifier ∧
        finishRequirement runtime (identifier, record) = .ok requirement := by
  constructor
  · rintro ⟨draft, hread, hfinish⟩
    cases raw with
    | object record =>
        obtain ⟨identifier, hidentifier, hdraft⟩ := bind_eq_ok_iff.mp hread
        cases hdraft
        exact ⟨record, rfl, identifier, hidentifier, hfinish⟩
    | _ => cases hread
  · rintro ⟨record, rfl, identifier, hidentifier, hfinish⟩
    exact ⟨_, bind_eq_ok_iff.mpr ⟨identifier, hidentifier, rfl⟩, hfinish⟩

def requirementsOf (document : Json) : Checked (List Requirement) := do
  let _ ← documentMetadata runtime document (str "requirements")
  let records ← extractArray runtime document [str "requirements"] (str "requirements")
  (requirementContract runtime).load records

end Requirements

section Procedures

def procedureRepeated (identifier : Str) : Issue :=
  { code := str "DUPLICATE_PROCEDURE_ID"
    message := str "Procedure ID '" ++ identifier ++ str "' is declared more than once."
    subjectId := identifier }

def methodUnsupported (identifier methodValue : Str) : Issue :=
  { code := str "UNSUPPORTED_VERIFICATION_METHOD"
    message := str "Procedure '" ++ identifier ++ str "' uses unsupported verification method '" ++
      methodValue ++ str "'."
    subjectId := identifier }

/-- What is read of a procedure before its identifier is compared. -/
structure ProcedureDraft where
  identifier : Str
  record : Members
  requirementIds : List Str
  caseIds : List Str
  methodValue : Str

def readProcedure (index : Nat) (raw : Json) : Checked ProcedureDraft :=
  match raw with
  | .object record => do
      let identifier ← requiredString runtime record [str "id", str "procedure_id"]
        (str "procedure at index " ++ intText index)
      let kind := str "procedure '" ++ identifier ++ str "'"
      let requirementIds ← stringReferences runtime record
        [str "requirement_ids", str "requirements"] [str "requirement_id"] kind
      let caseIds ← stringReferences runtime record
        [str "case_ids", str "test_case_ids", str "c_test_cases", str "cases"]
        [str "case_id", str "test_case_id", str "c_test_case"] kind
      let methodValue ← requiredString runtime record [str "verification_method", str "method"] kind
      pure
        { identifier := identifier
          record := record
          requirementIds := requirementIds
          caseIds := caseIds
          methodValue := methodValue }
  | _ => refuse (recordNotObject "INVALID_SCHEMA" "Procedure" index)

def finishProcedure (draft : ProcedureDraft) : Checked Procedure :=
  match normalizeMethod runtime draft.methodValue with
  | none => refuse (methodUnsupported draft.identifier draft.methodValue)
  | some method =>
    .ok
      { identifier := draft.identifier
        title := optionalString draft.record [str "title", str "name", str "description"]
          draft.identifier
        requirementIds := draft.requirementIds
        caseIds := draft.caseIds
        verificationMethod := method }

def procedureContract : Contract Json ProcedureDraft Procedure Str Issue where
  read := readProcedure runtime
  read_anywhere := by
    intro index raw draft h other
    cases raw with
    | object record =>
        obtain ⟨identifier, hidentifier, hdraft⟩ := bind_eq_ok_iff.mp h
        exact bind_eq_ok_iff.mpr
          ⟨identifier, requiredString_anywhere runtime hidentifier _, hdraft⟩
    | _ => cases h
  draftKey := ProcedureDraft.identifier
  repeated := fun draft => procedureRepeated draft.identifier
  finish := finishProcedure runtime
  key := Procedure.identifier
  key_of_finish := by
    intro draft result h
    unfold finishProcedure at h
    split at h
    · cases h
    · cases h
      rfl
  nothing :=
    { code := str "EMPTY_PROCEDURES"
      message := str "At least one test procedure is required." }

/-- A procedure is accepted if its identifier, its references and its method are. -/
theorem accepts_procedure_iff {raw : Json} {procedure : Procedure} :
    (procedureContract runtime).Accepts raw procedure ↔
      ∃ record, raw = .object record ∧
        ∃ identifier, requiredString runtime record [str "id", str "procedure_id"]
          (str "procedure at index " ++ intText (0 : Nat)) = .ok identifier ∧
        ∃ requirementIds, stringReferences runtime record
          [str "requirement_ids", str "requirements"] [str "requirement_id"]
          (str "procedure '" ++ identifier ++ str "'") = .ok requirementIds ∧
        ∃ caseIds, stringReferences runtime record
          [str "case_ids", str "test_case_ids", str "c_test_cases", str "cases"]
          [str "case_id", str "test_case_id", str "c_test_case"]
          (str "procedure '" ++ identifier ++ str "'") = .ok caseIds ∧
        ∃ methodValue, requiredString runtime record [str "verification_method", str "method"]
          (str "procedure '" ++ identifier ++ str "'") = .ok methodValue ∧
        finishProcedure runtime ⟨identifier, record, requirementIds, caseIds, methodValue⟩ =
          .ok procedure := by
  constructor
  · rintro ⟨draft, hread, hfinish⟩
    cases raw with
    | object record =>
        obtain ⟨identifier, hidentifier, hrest⟩ := bind_eq_ok_iff.mp hread
        obtain ⟨requirementIds, hrequirementIds, hrest⟩ := bind_eq_ok_iff.mp hrest
        obtain ⟨caseIds, hcaseIds, hrest⟩ := bind_eq_ok_iff.mp hrest
        obtain ⟨methodValue, hmethodValue, hdraft⟩ := bind_eq_ok_iff.mp hrest
        cases hdraft
        exact ⟨record, rfl, identifier, hidentifier, requirementIds, hrequirementIds, caseIds,
          hcaseIds, methodValue, hmethodValue, hfinish⟩
    | _ => cases hread
  · rintro ⟨record, rfl, identifier, hidentifier, requirementIds, hrequirementIds, caseIds,
      hcaseIds, methodValue, hmethodValue, hfinish⟩
    refine ⟨_, bind_eq_ok_iff.mpr ⟨identifier, hidentifier, ?_⟩, hfinish⟩
    refine bind_eq_ok_iff.mpr ⟨requirementIds, hrequirementIds, ?_⟩
    refine bind_eq_ok_iff.mpr ⟨caseIds, hcaseIds, ?_⟩
    exact bind_eq_ok_iff.mpr ⟨methodValue, hmethodValue, rfl⟩

/-- The references of an accepted procedure are some, and none is repeated. -/
theorem references_of_accepts {raw : Json} {procedure : Procedure}
    (h : (procedureContract runtime).Accepts raw procedure) :
    (procedure.requirementIds ≠ [] ∧ procedure.requirementIds.Nodup) ∧
      procedure.caseIds ≠ [] ∧ procedure.caseIds.Nodup := by
  obtain ⟨_, _, _, _, requirementIds, hrequirementIds, caseIds, hcaseIds, _, _, hfinish⟩ :=
    (accepts_procedure_iff runtime).mp h
  unfold finishProcedure at hfinish
  split at hfinish
  · cases hfinish
  · cases hfinish
    exact ⟨stringReferences_shape runtime hrequirementIds, stringReferences_shape runtime hcaseIds⟩

def proceduresOf (document : Json) : Checked (List Procedure) := do
  let _ ← documentMetadata runtime document (str "test procedures")
  let records ← extractArray runtime document [str "procedures", str "test_procedures"]
    (str "test procedures")
  (procedureContract runtime).load records

end Procedures

section CResults

def statusRequired (caseId : Str) : Issue :=
  { code := str "INVALID_C_RESULT"
    message := str "C case '" ++ caseId ++
      str "' requires a string status or boolean passed field."
    subjectId := caseId }

def statusUnsupported (caseId raw : Str) : Issue :=
  { code := str "INVALID_C_STATUS"
    message := str "C case '" ++ caseId ++ str "' has unsupported status '" ++ raw ++ str "'."
    subjectId := caseId }

def caseRepeated (identifier : Str) : Issue :=
  { code := str "DUPLICATE_C_CASE_ID"
    message := str "C case ID '" ++ identifier ++ str "' appears more than once."
    subjectId := identifier }

def normalizeStatus (raw : Option Json) (caseId : Str) : Checked CaseStatus :=
  match raw with
  | some (.bool value) => .ok (if value then .pass else .fail)
  | some (.string text) =>
    let value := runtime.lower (strip text)
    if value ∈ passStatuses then .ok .pass
    else if value ∈ failStatuses then .ok .fail
    else if value ∈ incompleteStatuses then .ok .incomplete
    else refuse (statusUnsupported caseId text)
  | _ => refuse (statusRequired caseId)

/-- The verdict of a record: its status, or else whether it passed. -/
def statusValue (record : Members) : Option Json :=
  (Json.get record (str "status")).or (Json.get record (str "passed"))

/-- What is read of a case before its identifier is compared. -/
structure CaseDraft where
  identifier : Str
  record : Members
  status : CaseStatus

def readCase (index : Nat) (raw : Json) : Checked CaseDraft :=
  match raw with
  | .object record => do
      let identifier ← requiredString runtime record [str "id", str "case_id", str "test_case_id"]
        (str "C result at index " ++ intText index)
      let status ← normalizeStatus runtime (statusValue record) identifier
      pure { identifier := identifier, record := record, status := status }
  | _ => refuse (recordNotObject "INVALID_C_RESULT" "C result" index)

def finishCase (draft : CaseDraft) : Checked CCaseResult :=
  .ok
    { identifier := draft.identifier
      name := optionalString draft.record [str "name", str "title"] draft.identifier
      status := draft.status
      message := optionalString draft.record [str "message", str "detail", str "details"] [] }

def caseContract : Contract Json CaseDraft CCaseResult Str Issue where
  read := readCase runtime
  read_anywhere := by
    intro index raw draft h other
    cases raw with
    | object record =>
        obtain ⟨identifier, hidentifier, hdraft⟩ := bind_eq_ok_iff.mp h
        exact bind_eq_ok_iff.mpr
          ⟨identifier, requiredString_anywhere runtime hidentifier _, hdraft⟩
    | _ => cases h
  draftKey := CaseDraft.identifier
  repeated := fun draft => caseRepeated draft.identifier
  finish := finishCase
  key := CCaseResult.identifier
  key_of_finish := by
    intro draft result h
    cases h
    rfl
  nothing :=
    { code := str "EMPTY_C_RESULTS"
      message := str "The C test binary returned no cases." }

/-- A case is accepted if its identifier and its status are. -/
theorem accepts_case_iff {raw : Json} {case : CCaseResult} :
    (caseContract runtime).Accepts raw case ↔
      ∃ record, raw = .object record ∧
        ∃ identifier, requiredString runtime record [str "id", str "case_id", str "test_case_id"]
          (str "C result at index " ++ intText (0 : Nat)) = .ok identifier ∧
        ∃ status, normalizeStatus runtime (statusValue record) identifier = .ok status ∧
        finishCase ⟨identifier, record, status⟩ = .ok case := by
  constructor
  · rintro ⟨draft, hread, hfinish⟩
    cases raw with
    | object record =>
        obtain ⟨identifier, hidentifier, hrest⟩ := bind_eq_ok_iff.mp hread
        obtain ⟨status, hstatus, hdraft⟩ := bind_eq_ok_iff.mp hrest
        cases hdraft
        exact ⟨record, rfl, identifier, hidentifier, status, hstatus, hfinish⟩
    | _ => cases hread
  · rintro ⟨record, rfl, identifier, hidentifier, status, hstatus, hfinish⟩
    refine ⟨_, bind_eq_ok_iff.mpr ⟨identifier, hidentifier, ?_⟩, hfinish⟩
    exact bind_eq_ok_iff.mpr ⟨status, hstatus, rfl⟩

/-- The keys under which results are looked for. -/
def resultKeys : List Str := [str "cases", str "test_cases", str "results"]

def parseCResults (document : Json) : Checked (List CCaseResult) := do
  let records ← extractArray runtime document resultKeys (str "C test results")
  (caseContract runtime).load records

end CResults

end Esqh.Qualification
