import Esqh.Qualification.Gates

/-!
What the three loaders accept. A record is well formed by its own fields; a
loader returns one item for each record if all are and no identifier repeats,
and otherwise raises, with a finding from every record that is not well formed.
-/

namespace Esqh.Qualification

open Batch Collections Outcome

variable (runtime : Runtime)

section WellFormed

/-- The first non-blank text under one of the keys, stripped. -/
def firstText (record : Members) (keys : List Str) : Option Str :=
  keys.findSome? fun key => (Json.get record key).bind nonEmptyString

/-- The identifier of a record, if it is an object that has one. -/
def recordId (keys : List Str) (raw : Json) : Option Str :=
  match raw with
  | .object record => firstText record keys
  | _ => none

def requirementIdKeys : List Str := [str "id", str "requirement_id"]

def procedureIdKeys : List Str := [str "id", str "procedure_id"]

def caseIdKeys : List Str := [str "id", str "case_id", str "test_case_id"]

def Supported (method : Str) : Prop := ∃ strategy, normalizeMethod runtime method = some strategy

/-- The methods of a requirement are absent, one supported name or an array of
them. -/
def SupportsMethods (record : Members) : Prop :=
  match (Json.get record (str "verification_methods")).or
      (Json.get record (str "verification_method")) with
  | none => True
  | some .null => True
  | some (.string text) => Supported runtime text
  | some (.array items) =>
    ∀ item ∈ items, ∃ text, item = .string text ∧ strip text ≠ [] ∧ Supported runtime text
  | _ => False

/-- A non-blank reference, or an array of some, which differ when stripped. -/
def NamesReferences : Json → Prop
  | .string text => strip text ≠ []
  | .array items =>
    items ≠ [] ∧ (∀ item ∈ items, ∃ text, item = .string text ∧ strip text ≠ []) ∧
      (items.filterMap strippedString).Nodup
  | _ => False

def HasReferences (record : Members) (pluralKeys singularKeys : List Str) : Prop :=
  ∃ key value, selectReferences record pluralKeys singularKeys = some (key, value) ∧
    NamesReferences value

/-- A status, or else a `passed` field, that is a Boolean or a known word. -/
def SupportsStatus (record : Members) : Prop :=
  match statusValue record with
  | some (.bool _) => True
  | some (.string text) =>
    runtime.lower (strip text) ∈ passStatuses ++ failStatuses ++ incompleteStatuses
  | _ => False

def WellFormedRequirement (raw : Json) : Prop :=
  ∃ record, raw = .object record ∧ (∃ id, firstText record requirementIdKeys = some id) ∧
    SupportsMethods runtime record

def WellFormedProcedure (raw : Json) : Prop :=
  ∃ record, raw = .object record ∧ (∃ id, firstText record procedureIdKeys = some id) ∧
    HasReferences record [str "requirement_ids", str "requirements"] [str "requirement_id"] ∧
    HasReferences record [str "case_ids", str "test_case_ids", str "c_test_cases", str "cases"]
      [str "case_id", str "test_case_id", str "c_test_case"] ∧
    ∃ method, firstText record [str "verification_method", str "method"] = some method ∧
      Supported runtime method

def WellFormedCase (raw : Json) : Prop :=
  ∃ record, raw = .object record ∧ (∃ id, firstText record caseIdKeys = some id) ∧
    SupportsStatus runtime record

end WellFormed

section Fields

variable {runtime}

theorem nonEmptyString_eq_some_iff {item : Json} {text : Str} :
    nonEmptyString item = some text ↔
      ∃ raw, item = .string raw ∧ strip raw ≠ [] ∧ text = strip raw := by
  cases item with
  | string raw =>
      by_cases hblank : strip raw = []
      · simp [nonEmptyString, hblank]
      · rw [nonEmptyString, if_neg hblank, Option.some.injEq]
        constructor
        · rintro rfl
          exact ⟨raw, rfl, hblank, rfl⟩
        · rintro ⟨_, ⟨⟩, -, rfl⟩
          rfl
  | _ => simp [nonEmptyString]

theorem isSome_nonEmptyString_iff {item : Json} :
    (nonEmptyString item).isSome ↔ ∃ text, item = .string text ∧ strip text ≠ [] := by
  rw [Option.isSome_iff_exists]
  constructor
  · rintro ⟨text, htext⟩
    obtain ⟨raw, hraw, hblank, -⟩ := nonEmptyString_eq_some_iff.mp htext
    exact ⟨raw, hraw, hblank⟩
  · rintro ⟨raw, hraw, hblank⟩
    exact ⟨strip raw, nonEmptyString_eq_some_iff.mpr ⟨raw, hraw, hblank, rfl⟩⟩

theorem filterMap_nonEmptyString_eq {items : List Json}
    (h : ∀ item ∈ items, ∃ text, item = .string text ∧ strip text ≠ []) :
    items.filterMap nonEmptyString = items.filterMap strippedString := by
  apply List.filterMap_congr
  intro item hitem
  obtain ⟨text, rfl, hblank⟩ := h item hitem
  rw [nonEmptyString, if_neg hblank, strippedString]

theorem dedup_length_eq_iff {α : Type} [DecidableEq α] (xs : List α) :
    xs.dedup.length = xs.length ↔ xs.Nodup := by
  constructor
  · intro hlength
    rw [← (List.dedup_sublist xs).eq_of_length hlength]
    exact List.nodup_dedup xs
  · intro hnodup
    rw [hnodup.dedup]

/-- References are accepted if they are some, non-blank and different. -/
theorem exists_normalizeReferences_iff (items : List Json) (key kind : Str) :
    (∃ references, normalizeReferences runtime items key kind = .ok references) ↔
      items ≠ [] ∧ (∀ item ∈ items, ∃ text, item = .string text ∧ strip text ≠ []) ∧
        (items.filterMap strippedString).Nodup := by
  have hguard : (items.isEmpty = true ∨
      (items.any fun item => (nonEmptyString item).isNone) = true) ↔
        items = [] ∨ ¬∀ item ∈ items, ∃ text, item = .string text ∧ strip text ≠ [] := by
    simp only [List.isEmpty_iff, List.any_eq_true, Option.isNone_iff_eq_none,
      ← Option.not_isSome_iff_eq_none, isSome_nonEmptyString_iff, not_forall, exists_prop]
  unfold normalizeReferences
  by_cases hitems : items = [] ∨ ¬∀ item ∈ items, ∃ text, item = .string text ∧ strip text ≠ []
  · rw [if_pos (hguard.mpr hitems)]
    apply iff_of_false
    · rintro ⟨references, ⟨⟩⟩
    · rintro ⟨hnonempty, hall, -⟩
      exact hitems.elim hnonempty (fun hnot => hnot hall)
  · rw [if_neg (fun h => hitems (hguard.mp h))]
    obtain ⟨hnonempty, hall⟩ := not_or.mp hitems
    rw [not_not] at hall
    have hlength : (items.filterMap strippedString).length = items.length := by
      rw [← filterMap_nonEmptyString_eq hall, List.filterMap_length_eq_length]
      exact fun item hitem => isSome_nonEmptyString_iff.mpr (hall item hitem)
    have hsorted : (sortedBy id (items.filterMap strippedString).dedup).length =
        (items.filterMap strippedString).dedup.length := (perm_sortedBy id _).length_eq
    dsimp only
    rw [filterMap_nonEmptyString_eq hall, hsorted, ← hlength]
    by_cases hnodup : (items.filterMap strippedString).Nodup
    · rw [if_neg (not_not.mpr ((dedup_length_eq_iff _).mpr hnodup))]
      exact iff_of_true ⟨_, rfl⟩ ⟨hnonempty, hall, hnodup⟩
    · rw [if_pos (fun heq => hnodup ((dedup_length_eq_iff _).mp heq))]
      apply iff_of_false
      · rintro ⟨references, ⟨⟩⟩
      · exact fun h => hnodup h.2.2

/-- The references are accepted exactly if they are well formed. -/
theorem exists_stringReferences_iff (record : Members) (pluralKeys singularKeys : List Str)
    (kind : Str) :
    (∃ references,
      stringReferences runtime record pluralKeys singularKeys kind = .ok references) ↔
      HasReferences record pluralKeys singularKeys := by
  unfold stringReferences HasReferences
  cases hselected : selectReferences record pluralKeys singularKeys with
  | none =>
      apply iff_of_false
      · rintro ⟨references, ⟨⟩⟩
      · rintro ⟨key, value, ⟨⟩, -⟩
  | some selected =>
      obtain ⟨key, value⟩ := selected
      cases value with
      | string text =>
          simp [exists_normalizeReferences_iff, NamesReferences, strippedString]
      | array items =>
          simp [exists_normalizeReferences_iff, NamesReferences]
      | _ =>
          apply iff_of_false
          · rintro ⟨references, ⟨⟩⟩
          · rintro ⟨key, value, ⟨⟩, ⟨⟩⟩

theorem not_isNone_normalizeMethod_iff {value : Str} :
    ¬(normalizeMethod runtime value).isNone = true ↔ Supported runtime value := by
  rw [Option.isNone_iff_eq_none, ← ne_eq, Option.ne_none_iff_exists']
  rfl

/-- A requirement is finished if the methods it names are texts, all of them
supported. -/
theorem exists_finishRequirement_iff_values (identifier : Str) (record : Members) :
    (∃ requirement, finishRequirement runtime (identifier, record) = .ok requirement) ↔
      ∃ values, methodValues identifier record = .ok values ∧
        ∀ value ∈ values, Supported runtime value := by
  simp only [finishRequirement, bind_eq_ok_iff]
  rw [exists_comm]
  apply exists_congr
  intro values
  rw [exists_and_left]
  apply and_congr_right
  intro _
  have hsupported : (values.filter fun value => (normalizeMethod runtime value).isNone).isEmpty =
      true ↔ ∀ value ∈ values, Supported runtime value := by
    simp only [List.isEmpty_iff, List.filter_eq_nil_iff, not_isNone_normalizeMethod_iff]
  rw [← hsupported]
  split_ifs with hempty
  · exact iff_of_true ⟨_, rfl⟩ hempty
  · apply iff_of_false _ hempty
    rintro ⟨requirement, ⟨⟩⟩

theorem exists_finishRequirement_iff (identifier : Str) (record : Members) :
    (∃ requirement, finishRequirement runtime (identifier, record) = .ok requirement) ↔
      SupportsMethods runtime record := by
  rw [exists_finishRequirement_iff_values]
  unfold methodValues SupportsMethods
  cases (Json.get record (str "verification_methods")).or
      (Json.get record (str "verification_method")) with
  | none => simp
  | some value =>
      cases value with
      | null => simp
      | string text => simp
      | array items =>
          have hall : (items.all fun item => (nonEmptyString item).isSome) = true ↔
              ∀ item ∈ items, ∃ text, item = .string text ∧ strip text ≠ [] := by
            simp only [List.all_eq_true, isSome_nonEmptyString_iff]
          constructor
          · rintro ⟨values, hvalues, hsupported⟩
            dsimp only at hvalues
            split_ifs at hvalues with htexts
            · cases hvalues
              intro item hitem
              obtain ⟨text, rfl, hblank⟩ := hall.mp htexts item hitem
              refine ⟨text, rfl, hblank, hsupported text ?_⟩
              exact List.mem_filterMap.mpr ⟨_, hitem, rfl⟩
            · cases hvalues
          · intro h
            have htexts := hall.mpr fun item hitem =>
              (h item hitem).imp fun text htext => ⟨htext.1, htext.2.1⟩
            refine ⟨items.filterMap stringText, if_pos htexts, ?_⟩
            intro value hvalue
            obtain ⟨item, hitem, htext⟩ := List.mem_filterMap.mp hvalue
            obtain ⟨text, rfl, -, hsupported⟩ := h item hitem
            cases htext
            exact hsupported
      | _ =>
          apply iff_of_false
          · rintro ⟨values, ⟨⟩, -⟩
          · exact id

theorem exists_normalizeStatus_iff (record : Members) (caseId : Str) :
    (∃ status, normalizeStatus runtime (statusValue record) caseId = .ok status) ↔
      SupportsStatus runtime record := by
  unfold normalizeStatus SupportsStatus
  cases statusValue record with
  | none => exact iff_of_false (by rintro ⟨status, ⟨⟩⟩) id
  | some value =>
      cases value with
      | bool value => exact iff_of_true ⟨_, rfl⟩ trivial
      | string text =>
          simp only [List.mem_append]
          split_ifs with hpass hfail hincomplete
          · exact iff_of_true ⟨_, rfl⟩ (.inl (.inl hpass))
          · exact iff_of_true ⟨_, rfl⟩ (.inl (.inr hfail))
          · exact iff_of_true ⟨_, rfl⟩ (.inr hincomplete)
          · apply iff_of_false
            · rintro ⟨status, ⟨⟩⟩
            · rintro ((h | h) | h)
              · exact hpass h
              · exact hfail h
              · exact hincomplete h
      | _ => exact iff_of_false (by rintro ⟨status, ⟨⟩⟩) id

end Fields

section Records

variable {runtime}

theorem wellFormedRequirement_iff {raw : Json} :
    WellFormedRequirement runtime raw ↔
      ∃ requirement, (requirementContract runtime).Accepts raw requirement := by
  constructor
  · rintro ⟨record, rfl, ⟨id, hid⟩, hmethods⟩
    obtain ⟨requirement, hfinish⟩ := (exists_finishRequirement_iff id record).mpr hmethods
    exact ⟨requirement, (accepts_requirement_iff runtime).mpr
      ⟨record, rfl, id, (requiredString_eq_ok_iff _ _ _ _ _).mpr hid, hfinish⟩⟩
  · rintro ⟨requirement, haccepts⟩
    obtain ⟨record, rfl, id, hid, hfinish⟩ := (accepts_requirement_iff runtime).mp haccepts
    exact ⟨record, rfl, ⟨id, (requiredString_eq_ok_iff _ _ _ _ _).mp hid⟩,
      (exists_finishRequirement_iff id record).mp ⟨requirement, hfinish⟩⟩

theorem exists_finishProcedure_iff (draft : ProcedureDraft) :
    (∃ procedure, finishProcedure runtime draft = .ok procedure) ↔
      Supported runtime draft.methodValue := by
  unfold finishProcedure Supported
  cases normalizeMethod runtime draft.methodValue with
  | none =>
      apply iff_of_false
      · rintro ⟨procedure, ⟨⟩⟩
      · rintro ⟨strategy, ⟨⟩⟩
  | some method => exact iff_of_true ⟨_, rfl⟩ ⟨method, rfl⟩

theorem wellFormedProcedure_iff {raw : Json} :
    WellFormedProcedure runtime raw ↔
      ∃ procedure, (procedureContract runtime).Accepts raw procedure := by
  constructor
  · rintro ⟨record, rfl, ⟨id, hid⟩, hrequirements, hcases, method, hmethod, hsupported⟩
    obtain ⟨requirementIds, hrequirementIds⟩ :=
      (exists_stringReferences_iff record _ _ (str "procedure '" ++ id ++ str "'")).mpr
        hrequirements
    obtain ⟨caseIds, hcaseIds⟩ :=
      (exists_stringReferences_iff record _ _ (str "procedure '" ++ id ++ str "'")).mpr hcases
    obtain ⟨procedure, hfinish⟩ :=
      (exists_finishProcedure_iff ⟨id, record, requirementIds, caseIds, method⟩).mpr hsupported
    exact ⟨procedure, (accepts_procedure_iff runtime).mpr
      ⟨record, rfl, id, (requiredString_eq_ok_iff _ _ _ _ _).mpr hid, requirementIds,
        hrequirementIds, caseIds, hcaseIds, method,
        (requiredString_eq_ok_iff _ _ _ _ _).mpr hmethod, hfinish⟩⟩
  · rintro ⟨procedure, haccepts⟩
    obtain ⟨record, rfl, id, hid, requirementIds, hrequirementIds, caseIds, hcaseIds, method,
      hmethod, hfinish⟩ := (accepts_procedure_iff runtime).mp haccepts
    exact ⟨record, rfl, ⟨id, (requiredString_eq_ok_iff _ _ _ _ _).mp hid⟩,
      (exists_stringReferences_iff record _ _ _).mp ⟨requirementIds, hrequirementIds⟩,
      (exists_stringReferences_iff record _ _ _).mp ⟨caseIds, hcaseIds⟩, method,
      (requiredString_eq_ok_iff _ _ _ _ _).mp hmethod,
      (exists_finishProcedure_iff _).mp ⟨procedure, hfinish⟩⟩

theorem wellFormedCase_iff {raw : Json} :
    WellFormedCase runtime raw ↔ ∃ case, (caseContract runtime).Accepts raw case := by
  constructor
  · rintro ⟨record, rfl, ⟨id, hid⟩, hstatus⟩
    obtain ⟨status, hnormalized⟩ := (exists_normalizeStatus_iff record id).mpr hstatus
    exact ⟨_, (accepts_case_iff runtime).mpr
      ⟨record, rfl, id, (requiredString_eq_ok_iff _ _ _ _ _).mpr hid, status, hnormalized, rfl⟩⟩
  · rintro ⟨case, haccepts⟩
    obtain ⟨record, rfl, id, hid, status, hstatus, -⟩ := (accepts_case_iff runtime).mp haccepts
    exact ⟨record, rfl, ⟨id, (requiredString_eq_ok_iff _ _ _ _ _).mp hid⟩,
      (exists_normalizeStatus_iff record id).mp ⟨status, hstatus⟩⟩

theorem recordId_requirement {raw : Json} {requirement : Requirement}
    (h : (requirementContract runtime).Accepts raw requirement) :
    recordId requirementIdKeys raw = some requirement.identifier := by
  obtain ⟨record, rfl, id, hid, hfinish⟩ := (accepts_requirement_iff runtime).mp h
  have hkey : requirement.identifier = id := (requirementContract runtime).key_of_finish
    (show (requirementContract runtime).finish (id, record) = .ok requirement from hfinish)
  rw [hkey]
  exact (requiredString_eq_ok_iff _ _ _ _ _).mp hid

theorem recordId_procedure {raw : Json} {procedure : Procedure}
    (h : (procedureContract runtime).Accepts raw procedure) :
    recordId procedureIdKeys raw = some procedure.identifier := by
  obtain ⟨record, rfl, id, hid, requirementIds, -, caseIds, -, method, -, hfinish⟩ :=
    (accepts_procedure_iff runtime).mp h
  have hkey : procedure.identifier = id := (procedureContract runtime).key_of_finish
    (show (procedureContract runtime).finish ⟨id, record, requirementIds, caseIds, method⟩ =
      .ok procedure from hfinish)
  rw [hkey]
  exact (requiredString_eq_ok_iff _ _ _ _ _).mp hid

theorem recordId_case {raw : Json} {case : CCaseResult}
    (h : (caseContract runtime).Accepts raw case) :
    recordId caseIdKeys raw = some case.identifier := by
  obtain ⟨record, rfl, id, hid, status, -, hfinish⟩ := (accepts_case_iff runtime).mp h
  cases hfinish
  exact (requiredString_eq_ok_iff _ _ _ _ _).mp hid

end Records

section Loading

variable {β α : Type}

/-- Two different records are well formed and have the same identifier. -/
def RepeatsId (WellFormed : Json → Prop) (idOf : Json → Option Str) (records : List Json) : Prop :=
  ∃ (i j : Nat) (first second : Json), i < j ∧ records[i]? = some first ∧
    records[j]? = some second ∧ WellFormed first ∧ WellFormed second ∧ idOf first = idOf second

/-- What a loader makes of the records of a document: one item for each of them,
by ascending identifier, or an input error with their findings. -/
structure LoadsExactly (contract : Contract Json β α Str Issue) (WellFormed : Json → Prop)
    (idOf : Json → Option Str) (records : List Json) (outcome : Except Raised (List α)) :
    Prop where
  returns : (∃ items, outcome = .ok items) ∨
    ∃ rejection, outcome = .error (.inputValidationError rejection)
  loaded : ∀ items, outcome = .ok items → (items.map contract.key).Pairwise (· < ·) ∧
    ∃ results, results.Perm items ∧ List.Forall₂ (fun raw item =>
      contract.Accepts raw item ∧ idOf raw = some (contract.key item)) records results
  raises : (∃ rejection, outcome = .error (.inputValidationError rejection)) ↔
    records = [] ∨ (∃ raw ∈ records, ¬WellFormed raw) ∨ RepeatsId WellFormed idOf records
  findings : ∀ rejection, outcome = .error (.inputValidationError rejection) →
    rejection.findings = (contract.contributions 0 records ⟨[], [], []⟩).flatten ++
      (if records.isEmpty then [contract.nothing] else []) ∧
    List.Forall₂ (fun raw found => ¬WellFormed raw → found ≠ []) records
      (contract.contributions 0 records ⟨[], [], []⟩)

variable {contract : Contract Json β α Str Issue} {WellFormed : Json → Prop}
  {idOf : Json → Option Str}

theorem checked_eq_error_iff {outcome : Checked α} {rejection : Rejection} :
    checked outcome = .error (.inputValidationError rejection) ↔ outcome = .error rejection := by
  cases outcome with
  | ok value => exact iff_of_false nofun nofun
  | error found =>
      constructor
      · rintro ⟨⟩
        rfl
      · rintro ⟨⟩
        rfl

theorem repeats_iff_repeatsId
    (hwell : ∀ raw, WellFormed raw ↔ ∃ item, contract.Accepts raw item)
    (hid : ∀ raw item, contract.Accepts raw item → idOf raw = some (contract.key item))
    (records : List Json) : contract.Repeats records ↔ RepeatsId WellFormed idOf records := by
  constructor
  · rintro ⟨i, j, item, other, hlt, ⟨first, hi, hitem⟩, ⟨second, hj, hother⟩, hkey⟩
    refine ⟨i, j, first, second, hlt, hi, hj, (hwell first).mpr ⟨item, hitem⟩,
      (hwell second).mpr ⟨other, hother⟩, ?_⟩
    rw [hid first item hitem, hid second other hother, hkey]
  · rintro ⟨i, j, first, second, hlt, hi, hj, hfirst, hsecond, hsame⟩
    obtain ⟨item, hitem⟩ := (hwell first).mp hfirst
    obtain ⟨other, hother⟩ := (hwell second).mp hsecond
    rw [hid first item hitem, hid second other hother] at hsame
    exact ⟨i, j, item, other, hlt, ⟨first, hi, hitem⟩, ⟨second, hj, hother⟩,
      Option.some.inj hsame⟩

/-- A batch with records that are well formed by their own fields. -/
theorem loadsExactly_load
    (hwell : ∀ raw, WellFormed raw ↔ ∃ item, contract.Accepts raw item)
    (hid : ∀ raw item, contract.Accepts raw item → idOf raw = some (contract.key item))
    (records : List Json) :
    LoadsExactly contract WellFormed idOf records (checked (contract.load records)) where
  returns := by
    cases contract.load records with
    | ok items => exact .inl ⟨items, rfl⟩
    | error rejection => exact .inr ⟨rejection, rfl⟩
  loaded := by
    intro items h
    have hload := checked_eq_ok_iff.mp h
    refine ⟨Contract.pairwise_lt_of_load hload, ?_⟩
    obtain ⟨_, results, hresults, _, rfl⟩ := Contract.load_eq_ok_iff.mp hload
    refine ⟨results, (perm_sortedBy contract.key results).symm, ?_⟩
    exact hresults.imp fun raw item haccepts => ⟨haccepts, hid raw item haccepts⟩
  raises := by
    simp only [checked_eq_error_iff, Contract.load_eq_error_iff,
      repeats_iff_repeatsId hwell hid, hwell, not_exists]
  findings := by
    intro rejection h
    refine ⟨Contract.findings_of_load (checked_eq_error_iff.mp h), ?_⟩
    apply (Contract.forall₂_contributions 0 records ⟨[], [], []⟩).imp
    intro raw found hfound hbad
    apply hfound
    intro item haccepts
    exact hbad ((hwell raw).mpr ⟨item, haccepts⟩)

end Loading

/-- Each of the three loaders, on every document with valid metadata and an
array of records: nothing is lost and nothing is hidden. -/
theorem loaders_exact :
    (∀ (file : InputFile) (R : Json) (metadata : QualificationMetadata) (records : List Json),
      file.Holds runtime R → documentMetadata runtime R (str "requirements") = .ok metadata →
      extractArray runtime R [str "requirements"] (str "requirements") = .ok records →
      LoadsExactly (requirementContract runtime) (WellFormedRequirement runtime)
        (recordId requirementIdKeys) records (loadRequirements runtime file)) ∧
    (∀ (file : InputFile) (P : Json) (metadata : QualificationMetadata) (records : List Json),
      file.Holds runtime P → documentMetadata runtime P (str "test procedures") = .ok metadata →
      extractArray runtime P [str "procedures", str "test_procedures"] (str "test procedures") =
        .ok records →
      LoadsExactly (procedureContract runtime) (WellFormedProcedure runtime)
        (recordId procedureIdKeys) records (loadProcedures runtime file)) ∧
    ∀ (C : Json) (metadata : QualificationMetadata) (records : List Json),
      documentMetadata runtime C (str "C test results") = .ok metadata →
      extractArray runtime C resultKeys (str "C test results") = .ok records →
      LoadsExactly (caseContract runtime) (WellFormedCase runtime)
        (recordId caseIdKeys) records (checked (parseCResults runtime C)) := by
  refine ⟨?_, ?_, ?_⟩
  · intro file R metadata records hfile hmetadata hrecords
    have hloaded : loadRequirements runtime file =
        checked ((requirementContract runtime).load records) := by
      rw [loadRequirements, loadJson_of_holds hfile, ok_bind, requirementsOf, hmetadata, ok_bind,
        hrecords, ok_bind]
    rw [hloaded]
    exact loadsExactly_load (fun raw => wellFormedRequirement_iff)
      (fun raw item => recordId_requirement) records
  · intro file P metadata records hfile hmetadata hrecords
    have hloaded : loadProcedures runtime file =
        checked ((procedureContract runtime).load records) := by
      rw [loadProcedures, loadJson_of_holds hfile, ok_bind, proceduresOf, hmetadata, ok_bind,
        hrecords, ok_bind]
    rw [hloaded]
    exact loadsExactly_load (fun raw => wellFormedProcedure_iff)
      (fun raw item => recordId_procedure) records
  · intro C metadata records _ hrecords
    rw [parseCResults, hrecords, ok_bind]
    exact loadsExactly_load (fun raw => wellFormedCase_iff)
      (fun raw item => recordId_case) records

/-- A number between two cases of one identifier: the call raises. -/
theorem loaders_exact_malformed :
    let records : List Json :=
      [.object [(str "id", .string (str "TC")), (str "passed", .bool true)], .int 5,
        .object [(str "case_id", .string (str " TC ")), (str "status", .string (str "failed"))]]
    ∃ rejection, checked (parseCResults (asciiRuntime []) (sampleDocument "cases" records)) =
      .error (.inputValidationError rejection) := by
  intro records
  have hexact := (loaders_exact (asciiRuntime [])).2.2 (sampleDocument "cases" records)
    ⟨str "ESQH", str "0.1.0", str "BL"⟩ records rfl rfl
  refine hexact.raises.mpr (.inr (.inl ⟨.int 5, by simp [records], ?_⟩))
  rintro ⟨record, ⟨⟩, -⟩

end Esqh.Qualification
