import Esqh.Qualification.Gates

/-!
Runs on documents whose arrays are in another order. Records are loaded into
order and references are sorted, so the report is the same.
-/

namespace Esqh.Qualification

open Batch Collections Outcome

/-- The same document up to the order of arrays in it. -/
inductive Json.Reordered : Json → Json → Prop where
  | refl (document : Json) : Reordered document document
  | array {items middle others : List Json} (hitems : List.Forall₂ Reordered items middle)
      (hperm : middle.Perm others) : Reordered (.array items) (.array others)
  | object {members others : Members} (hkeys : members.map Prod.fst = others.map Prod.fst)
      (hvalues : List.Forall₂ Reordered (members.map Prod.snd) (others.map Prod.snd)) :
      Reordered (.object members) (.object others)

namespace Json.Reordered

theorem array_cases {items : List Json} {other : Json} (h : Reordered (.array items) other) :
    ∃ middle others, other = .array others ∧ List.Forall₂ Reordered items middle ∧
      middle.Perm others := by
  cases h with
  | refl =>
      exact ⟨items, items, rfl, List.forall₂_same.mpr fun item _ => .refl item, .refl items⟩
  | array hitems hperm => exact ⟨_, _, rfl, hitems, hperm⟩

theorem object_cases {members : Members} {other : Json} (h : Reordered (.object members) other) :
    ∃ others, other = .object others := by
  cases h with
  | refl => exact ⟨members, rfl⟩
  | object => exact ⟨_, rfl⟩

/-- What holds of all reordered objects alike holds of all reordered documents. -/
theorem exists_object_iff {document other : Json} (h : Reordered document other)
    {p : Members → Prop}
    (hp : ∀ {members others}, Reordered (.object members) (.object others) →
      (p members ↔ p others)) :
    (∃ members, document = .object members ∧ p members) ↔
      ∃ members, other = .object members ∧ p members := by
  cases h with
  | refl => rfl
  | array hitems hperm =>
      apply iff_of_false
      · rintro ⟨_, ⟨⟩, _⟩
      · rintro ⟨_, ⟨⟩, _⟩
  | object hkeys hvalues =>
      have hsame := hp (.object hkeys hvalues)
      constructor
      · rintro ⟨_, ⟨⟩, hmembers⟩
        exact ⟨_, rfl, hsame.mp hmembers⟩
      · rintro ⟨_, ⟨⟩, hothers⟩
        exact ⟨_, rfl, hsame.mpr hothers⟩

section Values

theorem nonEmptyString_eq {item other : Json} (h : Reordered item other) :
    nonEmptyString item = nonEmptyString other := by
  cases h <;> rfl

theorem strippedString_eq {item other : Json} (h : Reordered item other) :
    strippedString item = strippedString other := by
  cases h <;> rfl

theorem stringText_eq {item other : Json} (h : Reordered item other) :
    stringText item = stringText other := by
  cases h <;> rfl

/-- Reordered objects have reordered values under every key. -/
theorem rel_get {members others : Members} (h : Reordered (.object members) (.object others))
    (key : Str) : Option.Rel Reordered (Json.get members key) (Json.get others key) := by
  cases h with
  | refl => cases Json.get members key <;> constructor; exact .refl _
  | object hkeys hvalues =>
      induction members generalizing others with
      | nil =>
          cases others with
          | nil => exact .none
          | cons other others => cases hkeys
      | cons member members ih =>
          cases others with
          | nil => cases hkeys
          | cons other others =>
              obtain ⟨hkey, hkeys⟩ := List.cons.inj hkeys
              cases hvalues with
              | cons hvalue hvalues =>
                  have hrest := ih hkeys hvalues
                  simp only [Json.get, List.find?_cons, hkey] at hrest ⊢
                  split
                  · exact .some hvalue
                  · exact hrest

end Values

section Fields

variable {runtime : Runtime} {members others : Members}

theorem get_bind_eq {α : Type} (h : Reordered (.object members) (.object others)) (key : Str)
    {f : Json → Option α} (hf : ∀ {item other}, Reordered item other → f item = f other) :
    (Json.get members key).bind f = (Json.get others key).bind f := by
  have hrelated := h.rel_get key
  generalize Json.get members key = value at hrelated ⊢
  generalize Json.get others key = other at hrelated ⊢
  cases hrelated with
  | none => rfl
  | some hvalue => exact hf hvalue

theorem requiredString_eq (h : Reordered (.object members) (.object others)) (keys : List Str)
    (kind : Str) :
    requiredString runtime members keys kind = requiredString runtime others keys kind := by
  simp only [requiredString, fun key => h.get_bind_eq key nonEmptyString_eq]

theorem optionalString_eq (h : Reordered (.object members) (.object others)) (keys : List Str)
    (fallback : Str) :
    optionalString members keys fallback = optionalString others keys fallback := by
  simp only [optionalString, fun key => h.get_bind_eq key strippedString_eq]

theorem documentMetadata_eq {document other : Json} (h : Reordered document other) (kind : Str) :
    documentMetadata runtime document kind = documentMetadata runtime other kind := by
  cases document with
  | object members =>
      obtain ⟨others, rfl⟩ := h.object_cases
      have hfield (field : Str) : metadataField members field = metadataField others field :=
        h.get_bind_eq field nonEmptyString_eq
      simp only [documentMetadata, hfield]
  | _ => cases h <;> rfl

theorem normalizeStatus_eq {value other : Option Json} (h : Option.Rel Reordered value other)
    (caseId : Str) :
    normalizeStatus runtime value caseId = normalizeStatus runtime other caseId := by
  cases h with
  | none => rfl
  | some hvalue => cases hvalue <;> rfl

theorem rel_statusValue (h : Reordered (.object members) (.object others)) :
    Option.Rel Reordered (Qualification.statusValue members)
      (Qualification.statusValue others) := by
  have hpassed := h.rel_get (str "passed")
  have hstatus := h.rel_get (str "status")
  unfold Qualification.statusValue
  generalize Json.get members (str "status") = value at hstatus ⊢
  generalize Json.get others (str "status") = other at hstatus ⊢
  cases hstatus with
  | none => exact hpassed
  | some hvalue => exact .some hvalue

end Fields

section Arrays

variable {runtime : Runtime} {members others : Members}

/-- Reordered values under the same key. -/
def Selected (selected other : Str × Json) : Prop :=
  selected.1 = other.1 ∧ Reordered selected.2 other.2

theorem rel_findSome? {choose choose' : Str → Option (Str × Json)}
    (h : ∀ key, Option.Rel Selected (choose key) (choose' key)) (keys : List Str) :
    Option.Rel Selected (keys.findSome? choose) (keys.findSome? choose') := by
  induction keys with
  | nil => exact .none
  | cons key keys ih =>
      have hkey := h key
      rw [List.findSome?_cons, List.findSome?_cons]
      generalize choose key = chosen at hkey ⊢
      generalize choose' key = chosen' at hkey ⊢
      cases hkey with
      | none => exact ih
      | some hselected => exact .some hselected

theorem rel_selectArray (h : Reordered (.object members) (.object others)) (keys : List Str) :
    Option.Rel Selected (selectArray members keys) (selectArray others keys) := by
  apply rel_findSome?
  intro key
  have hrelated := h.rel_get key
  generalize Json.get members key = value at hrelated ⊢
  generalize Json.get others key = other at hrelated ⊢
  cases hrelated with
  | none => exact .none
  | some hvalue =>
      cases hvalue with
      | refl =>
          split
          · exact .none
          · exact .none
          · exact .some ⟨rfl, .refl _⟩
      | array hitems hperm => exact .some ⟨rfl, .array hitems hperm⟩
      | object hkeys hvalues => exact .some ⟨rfl, .object hkeys hvalues⟩

theorem rel_firstPresent (h : Reordered (.object members) (.object others)) (keys : List Str) :
    Option.Rel Selected (firstPresent members keys) (firstPresent others keys) := by
  apply rel_findSome?
  intro key
  have hrelated := h.rel_get key
  generalize Json.get members key = value at hrelated ⊢
  generalize Json.get others key = other at hrelated ⊢
  cases hrelated with
  | none => exact .none
  | some hvalue => exact .some ⟨rfl, hvalue⟩

theorem rel_selectReferences (h : Reordered (.object members) (.object others))
    (pluralKeys singularKeys : List Str) :
    Option.Rel Selected (selectReferences members pluralKeys singularKeys)
      (selectReferences others pluralKeys singularKeys) := by
  have hplural := h.rel_firstPresent pluralKeys
  have hsingular := h.rel_firstPresent singularKeys
  unfold selectReferences
  generalize firstPresent members pluralKeys = selected at hplural ⊢
  generalize firstPresent others pluralKeys = other at hplural ⊢
  cases hplural with
  | none => exact hsingular
  | @some selected other hselected =>
      obtain ⟨key, value⟩ := selected
      obtain ⟨key', value'⟩ := other
      obtain ⟨rfl, hvalue⟩ := hselected
      cases hvalue with
      | refl =>
          cases value with
          | null => exact hsingular
          | _ => exact .some ⟨rfl, .refl _⟩
      | array hitems hperm => exact .some ⟨rfl, .array hitems hperm⟩
      | object hkeys hvalues => exact .some ⟨rfl, .object hkeys hvalues⟩

/-- The items of a reordered array are the same up to their order. -/
theorem perm_map {α : Type} {items middle others : List Json}
    (hitems : List.Forall₂ Reordered items middle) (hperm : middle.Perm others) {f : Json → α}
    (hf : ∀ {item other}, Reordered item other → f item = f other) :
    (items.map f).Perm (others.map f) := by
  have hmiddle : items.map f = middle.map f := by
    clear hperm
    induction hitems with
    | nil => rfl
    | cons hhead _ ih => rw [List.map_cons, List.map_cons, hf hhead, ih]
  rw [hmiddle]
  exact hperm.map f

theorem normalizeReferences_eq {items others : List Json}
    (h : (items.map nonEmptyString).Perm (others.map nonEmptyString)) (key kind : Str) :
    normalizeReferences runtime items key kind = normalizeReferences runtime others key kind := by
  have hlength : items.length = others.length := by simpa using h.length_eq
  have hempty : items.isEmpty = others.isEmpty := by simpa using h.isEmpty_eq
  have hnone := any_eq_of_perm h Option.isNone
  have hsorted : sortedBy id (items.filterMap nonEmptyString).dedup =
      sortedBy id (others.filterMap nonEmptyString).dedup :=
    sortedBy_id_eq_of_perm (filterMap_perm h).dedup
  simp only [normalizeReferences, hlength, hempty, hnone, hsorted]

theorem stringReferences_eq (h : Reordered (.object members) (.object others))
    (pluralKeys singularKeys : List Str) (kind : Str) :
    stringReferences runtime members pluralKeys singularKeys kind =
      stringReferences runtime others pluralKeys singularKeys kind := by
  have hselected := h.rel_selectReferences pluralKeys singularKeys
  unfold stringReferences
  generalize selectReferences members pluralKeys singularKeys = selected at hselected ⊢
  generalize selectReferences others pluralKeys singularKeys = other at hselected ⊢
  cases hselected with
  | none => rfl
  | @some selected other hselected =>
      obtain ⟨key, value⟩ := selected
      obtain ⟨key', value'⟩ := other
      obtain ⟨rfl, hvalue⟩ := hselected
      cases hvalue with
      | refl => rfl
      | array hitems hperm =>
          exact normalizeReferences_eq (perm_map hitems hperm nonEmptyString_eq) key kind
      | object hkeys hvalues => rfl

end Arrays

section Records

variable {runtime : Runtime} {members others : Members}

theorem rel_or {first first' second second' : Option Json} (h : Option.Rel Reordered first first')
    (hsecond : Option.Rel Reordered second second') :
    Option.Rel Reordered (first.or second) (first'.or second') := by
  cases h with
  | none => exact hsecond
  | some hvalue => exact .some hvalue

/-- The methods of a reordered requirement are the same up to their order. -/
theorem methodValues_perm (h : Reordered (.object members) (.object others)) (identifier : Str) :
    (∃ values values', methodValues identifier members = .ok values ∧
      methodValues identifier others = .ok values' ∧ values.Perm values') ∨
    (∃ rejection, methodValues identifier members = .error rejection ∧
      methodValues identifier others = .error rejection) := by
  have hraw := rel_or (h.rel_get (str "verification_methods"))
    (h.rel_get (str "verification_method"))
  unfold methodValues
  generalize (Json.get members (str "verification_methods")).or
    (Json.get members (str "verification_method")) = raw at hraw ⊢
  generalize (Json.get others (str "verification_methods")).or
    (Json.get others (str "verification_method")) = other at hraw ⊢
  cases hraw with
  | none => exact .inl ⟨[], [], rfl, rfl, .refl _⟩
  | @some value _ hvalue =>
      cases value with
      | null =>
          cases hvalue
          exact .inl ⟨[], [], rfl, rfl, .refl _⟩
      | string text =>
          cases hvalue
          exact .inl ⟨[text], [text], rfl, rfl, .refl _⟩
      | array items =>
          obtain ⟨middle, others, rfl, hitems, hperm⟩ := hvalue.array_cases
          have hall := all_eq_of_perm (perm_map hitems hperm nonEmptyString_eq) Option.isSome
          simp only [hall]
          split
          · exact .inl ⟨_, _, rfl, rfl, filterMap_perm (perm_map hitems hperm stringText_eq)⟩
          · exact .inr ⟨_, rfl, rfl⟩
      | _ => cases hvalue <;> exact .inr ⟨_, rfl, rfl⟩

theorem finishRequirement_eq (h : Reordered (.object members) (.object others))
    (identifier : Str) :
    finishRequirement runtime (identifier, members) =
      finishRequirement runtime (identifier, others) := by
  simp only [finishRequirement, h.optionalString_eq]
  rcases h.methodValues_perm identifier with
    ⟨values, values', hvalues, hvalues', hperm⟩ | ⟨rejection, hvalues, hvalues'⟩
  · have hfilter := hperm.filter fun value => (normalizeMethod runtime value).isNone
    have hmessage := sortedBy_id_eq_of_perm hfilter
    have hnormalized :=
      sortedBy_id_eq_of_perm (hperm.filterMap (normalizeMethod runtime)).dedup
    rw [hvalues, hvalues']
    simp only [ok_bind, hfilter.isEmpty_eq, hnormalized, methodsUnsupported, hmessage]
  · rw [hvalues, hvalues']

/-- A reordered requirement is accepted as the same requirement. -/
theorem accepts_requirement_iff {raw other : Json} (h : Reordered raw other)
    (requirement : Requirement) : (requirementContract runtime).Accepts raw requirement ↔
      (requirementContract runtime).Accepts other requirement := by
  rw [Qualification.accepts_requirement_iff, Qualification.accepts_requirement_iff]
  apply h.exists_object_iff
  intro members others hmembers
  simp only [hmembers.requiredString_eq, hmembers.finishRequirement_eq]

theorem accepts_procedure_iff {raw other : Json} (h : Reordered raw other)
    (procedure : Procedure) : (procedureContract runtime).Accepts raw procedure ↔
      (procedureContract runtime).Accepts other procedure := by
  rw [Qualification.accepts_procedure_iff, Qualification.accepts_procedure_iff]
  apply h.exists_object_iff
  intro members others hmembers
  simp only [hmembers.requiredString_eq, hmembers.stringReferences_eq, finishProcedure,
    hmembers.optionalString_eq]

theorem accepts_case_iff {raw other : Json} (h : Reordered raw other) (case : CCaseResult) :
    (caseContract runtime).Accepts raw case ↔ (caseContract runtime).Accepts other case := by
  rw [Qualification.accepts_case_iff, Qualification.accepts_case_iff]
  apply h.exists_object_iff
  intro members others hmembers
  simp only [hmembers.requiredString_eq, normalizeStatus_eq hmembers.rel_statusValue, finishCase,
    hmembers.optionalString_eq]

end Records

section Documents

variable {runtime : Runtime}

/-- The arrays taken out of reordered documents are reordered. -/
theorem extractArray_cases {document other : Json} (h : Reordered document other)
    (keys : List Str) (kind : Str) :
    (∃ items middle others, extractArray runtime document keys kind = .ok items ∧
      extractArray runtime other keys kind = .ok others ∧
      List.Forall₂ Reordered items middle ∧ middle.Perm others) ∨
    (∃ rejection, extractArray runtime document keys kind = .error rejection ∧
      extractArray runtime other keys kind = .error rejection) := by
  cases document with
  | array items =>
      obtain ⟨middle, others, rfl, hitems, hperm⟩ := h.array_cases
      exact .inl ⟨items, middle, others, rfl, rfl, hitems, hperm⟩
  | object members =>
      obtain ⟨others, rfl⟩ := h.object_cases
      have hselected := h.rel_selectArray keys
      simp only [extractArray]
      generalize selectArray members keys = selected at hselected ⊢
      generalize selectArray others keys = other at hselected ⊢
      cases hselected with
      | none => exact .inr ⟨_, rfl, rfl⟩
      | @some selected other hselected =>
          obtain ⟨key, value⟩ := selected
          obtain ⟨key', value'⟩ := other
          obtain ⟨rfl, hvalue⟩ := hselected
          cases value with
          | array items =>
              obtain ⟨middle, others, rfl, hitems, hperm⟩ := hvalue.array_cases
              exact .inl ⟨items, middle, others, rfl, rfl, hitems, hperm⟩
          | _ => cases hvalue <;> exact .inr ⟨_, rfl, rfl⟩
  | _ =>
      cases h
      exact .inr ⟨_, rfl, rfl⟩

theorem load_iff {β α : Type} {contract : Contract Json β α Str Issue}
    (haccepts : ∀ {raw other}, Reordered raw other → ∀ result,
      contract.Accepts raw result ↔ contract.Accepts other result)
    {document other : Json} (h : Reordered document other) (keys : List Str) (kind : Str)
    (loaded : List α) :
    (extractArray runtime document keys kind >>= contract.load) = .ok loaded ↔
      (extractArray runtime other keys kind >>= contract.load) = .ok loaded := by
  rcases h.extractArray_cases keys kind with
    ⟨items, middle, others, hitems, hothers, hchanged, hperm⟩ | ⟨rejection, hitems, hothers⟩
  · rw [hitems, hothers]
    exact Contract.load_reordered_iff haccepts hchanged hperm
  · rw [hitems, hothers]

theorem requirementsOf_iff {R R' : Json} (h : Reordered R R') (requirements : List Requirement) :
    requirementsOf runtime R = .ok requirements ↔ requirementsOf runtime R' = .ok requirements := by
  unfold requirementsOf
  rw [h.documentMetadata_eq]
  cases documentMetadata runtime R' (str "requirements") with
  | error rejection => rfl
  | ok metadata => exact load_iff accepts_requirement_iff h _ _ requirements

theorem proceduresOf_iff {P P' : Json} (h : Reordered P P') (procedures : List Procedure) :
    proceduresOf runtime P = .ok procedures ↔ proceduresOf runtime P' = .ok procedures := by
  unfold proceduresOf
  rw [h.documentMetadata_eq]
  cases documentMetadata runtime P' (str "test procedures") with
  | error rejection => rfl
  | ok metadata => exact load_iff accepts_procedure_iff h _ _ procedures

theorem parseCResults_iff {C C' : Json} (h : Reordered C C') (cCases : List CCaseResult) :
    parseCResults runtime C = .ok cCases ↔ parseCResults runtime C' = .ok cCases :=
  load_iff accepts_case_iff h _ _ cCases

/-- Reordered documents validate alike and yield the same evidence. -/
theorem validated_iff {R R' P P' C C' : Json} (hR : Reordered R R') (hP : Reordered P P')
    (hC : Reordered C C') (evidence : Evidence) :
    Validated runtime R P C evidence ↔ Validated runtime R' P' C' evidence := by
  constructor
  · intro h
    exact
      { requirementsMetadata := (hR.documentMetadata_eq _).symm.trans h.requirementsMetadata
        proceduresMetadata := (hP.documentMetadata_eq _).symm.trans h.proceduresMetadata
        cMetadata := (hC.documentMetadata_eq _).symm.trans h.cMetadata
        requirements := (hR.requirementsOf_iff _).mp h.requirements
        procedures := (hP.proceduresOf_iff _).mp h.procedures
        cCases := (hC.parseCResults_iff _).mp h.cCases }
  · intro h
    exact
      { requirementsMetadata := (hR.documentMetadata_eq _).trans h.requirementsMetadata
        proceduresMetadata := (hP.documentMetadata_eq _).trans h.proceduresMetadata
        cMetadata := (hC.documentMetadata_eq _).trans h.cMetadata
        requirements := (hR.requirementsOf_iff _).mpr h.requirements
        procedures := (hP.proceduresOf_iff _).mpr h.procedures
        cCases := (hC.parseCResults_iff _).mpr h.cCases }

end Documents

end Json.Reordered

/-- The inputs of a run: the documents that its files hold, and the results and
exit code that its source gives. -/
structure Reads (runtime : Runtime) (request : Request) (R P C : Json) (exitCode : Int) : Prop where
  requirements : request.requirements.Holds runtime R
  procedures : request.procedures.Holds runtime P
  results : ∃ source, request.resultSource = .ok source ∧
    readResults runtime source request.timeoutSeconds = .ok (C, exitCode)

theorem Reads.gatherEvidence_eq_ok_iff {runtime : Runtime} {request : Request} {R P C : Json}
    {exitCode : Int} (h : Reads runtime request R P C exitCode) (evidence : Evidence) :
    gatherEvidence runtime request = .ok evidence ↔
      Validated runtime R P C evidence ∧ evidence.observedExitCode = exitCode := by
  obtain ⟨source, hsource, hC⟩ := h.results
  rw [Qualification.gatherEvidence_eq_ok_iff]
  constructor
  · rintro ⟨source', R', P', C', hsource', hR', hP', hC', hvalid⟩
    cases hsource.symm.trans hsource'
    cases h.requirements.unique hR'
    cases h.procedures.unique hP'
    cases hC.symm.trans hC'
    exact ⟨hvalid, rfl⟩
  · rintro ⟨hvalid, rfl⟩
    exact ⟨source, R, P, C, hsource, h.requirements, h.procedures, hC, hvalid⟩

/-- The documents of a run pass validation. -/
def PassesValidation (runtime : Runtime) (request : Request) : Prop :=
  ∃ evidence, gatherEvidence runtime request = .ok evidence

/-- Whether documents pass validation does not depend on the order of their
arrays, and if they do, neither does anything that the run returns or writes. -/
theorem runQualification_reordered (runtime : Runtime) (request request' : Request)
    (R R' P P' C C' : Json) (exitCode : Int) (h : Reads runtime request R P C exitCode)
    (h' : Reads runtime request' R' P' C' exitCode) (hR : R.Reordered R') (hP : P.Reordered P')
    (hC : C.Reordered C') (disk : Disk) :
    (PassesValidation runtime request' ↔ PassesValidation runtime request) ∧
    (PassesValidation runtime request →
      runQualification runtime request' disk = runQualification runtime request disk) := by
  have hsame (evidence : Evidence) : gatherEvidence runtime request' = .ok evidence ↔
      gatherEvidence runtime request = .ok evidence := by
    rw [h.gatherEvidence_eq_ok_iff, h'.gatherEvidence_eq_ok_iff,
      Json.Reordered.validated_iff hR hP hC]
  refine ⟨exists_congr hsame, ?_⟩
  rintro ⟨evidence, hgather⟩
  rw [runQualification, runQualification, hgather, (hsame evidence).mpr hgather]

section Sample

def pairProcedure (first second : String) : Json :=
  .object
    [(str "id", .string (str "QTP")), (str "requirement_id", .string (str "REQ")),
      (str "case_ids", .array [.string (str first), .string (str second)]),
      (str "method", .string (str "test"))]

def pairProcedures (first second : String) : Json :=
  sampleDocument "procedures" [pairProcedure first second]

def pairProceduresText (first second : String) : Str :=
  str "\x7b\"project\":\"ESQH\",\"version\":\"0.1.0\",\"baseline\":\"BL\"," ++
    str "\"procedures\":[\x7b\"id\":\"QTP\",\"requirement_id\":\"REQ\"," ++
    str "\"case_ids\":[\"" ++ str first ++ str "\",\"" ++ str second ++
    str "\"],\"method\":\"test\"\x7d]\x7d"

def pairRecord (identifier : String) : Json :=
  .object [(str "id", .string (str identifier)), (str "passed", .bool true)]

def pairResults (first second : String) : Json :=
  sampleDocument "cases" [pairRecord first, pairRecord second]

def pairResultsText (first second : String) : Str :=
  str "\x7b\"project\":\"ESQH\",\"version\":\"0.1.0\",\"baseline\":\"BL\",\"cases\":[" ++
    str "\x7b\"id\":\"" ++ str first ++ str "\",\"passed\":true\x7d," ++
    str "\x7b\"id\":\"" ++ str second ++ str "\",\"passed\":true\x7d]\x7d"

def pairRuntime : Runtime :=
  asciiRuntime
    [(requirementsText, sampleRequirements),
      (pairProceduresText "T1" "T2", pairProcedures "T1" "T2"),
      (pairProceduresText "T2" "T1", pairProcedures "T2" "T1"),
      (pairResultsText "T1" "T2", pairResults "T1" "T2"),
      (pairResultsText "T2" "T1", pairResults "T2" "T1")]

def pairRequest (first second : String) : Request :=
  capturedRequest (textFile "requirements.json" requirementsText)
    (textFile "procedures.json" (pairProceduresText first second))
    (textFile "results.json" (pairResultsText first second)) (.int 0) (str "30")

theorem holds_pairRequirements :
    (textFile "requirements.json" requirementsText).Holds pairRuntime sampleRequirements :=
  holds_textFile (by simp [requirementsText, sampleText]) rfl _

theorem holds_pairProcedures : (textFile "procedures.json" (pairProceduresText "T1" "T2")).Holds
    pairRuntime (pairProcedures "T1" "T2") :=
  holds_textFile (by simp [pairProceduresText]) rfl _

theorem holds_swappedProcedures : (textFile "procedures.json" (pairProceduresText "T2" "T1")).Holds
    pairRuntime (pairProcedures "T2" "T1") :=
  holds_textFile (by simp [pairProceduresText]) rfl _

theorem holds_pairResults : (textFile "results.json" (pairResultsText "T1" "T2")).Holds
    pairRuntime (pairResults "T1" "T2") :=
  holds_textFile (by simp [pairResultsText]) rfl _

theorem holds_swappedResults : (textFile "results.json" (pairResultsText "T2" "T1")).Holds
    pairRuntime (pairResults "T2" "T1") :=
  holds_textFile (by simp [pairResultsText]) rfl _

theorem reads_pairRequest :
    Reads pairRuntime (pairRequest "T1" "T2") sampleRequirements (pairProcedures "T1" "T2")
      (pairResults "T1" "T2") 0 :=
  ⟨holds_pairRequirements, holds_pairProcedures, _, rfl, readResults_captured holds_pairResults⟩

theorem reads_swappedRequest :
    Reads pairRuntime (pairRequest "T2" "T1") sampleRequirements (pairProcedures "T2" "T1")
      (pairResults "T2" "T1") 0 :=
  ⟨holds_pairRequirements, holds_swappedProcedures, _, rfl,
    readResults_captured holds_swappedResults⟩

def pairEvidence : Evidence :=
  { metadata := ⟨str "ESQH", str "0.1.0", str "BL"⟩
    requirements := [⟨str "REQ", str "REQ", [], []⟩]
    procedures := [⟨str "QTP", str "QTP", [str "REQ"], [str "T1", str "T2"], str "test"⟩]
    cCases := [⟨str "T1", str "T1", .pass, []⟩, ⟨str "T2", str "T2", .pass, []⟩]
    observedExitCode := 0 }

theorem validated_pair : Validated pairRuntime sampleRequirements (pairProcedures "T1" "T2")
    (pairResults "T1" "T2") pairEvidence :=
  ⟨rfl, rfl, rfl, rfl, rfl, rfl⟩

theorem reordered_sampleDocument {records others : List Json} (key : String)
    (h : Json.Reordered (.array records) (.array others)) :
    (sampleDocument key records).Reordered (sampleDocument key others) :=
  .object rfl (.cons (.refl _) (.cons (.refl _) (.cons (.refl _) (.cons h .nil))))

theorem reordered_pair (first second : Json) :
    Json.Reordered (.array [first, second]) (.array [second, first]) :=
  .array (List.forall₂_same.mpr fun item _ => .refl item) (.swap second first [])

theorem reordered_pairProcedures (first second : String) :
    (pairProcedures first second).Reordered (pairProcedures second first) := by
  have hrecord : (pairProcedure first second).Reordered (pairProcedure second first) :=
    .object rfl
      (.cons (.refl _) (.cons (.refl _) (.cons (reordered_pair _ _) (.cons (.refl _) .nil))))
  exact reordered_sampleDocument "procedures" (.array (.cons hrecord .nil) (.refl _))

theorem reordered_pairResults (first second : String) :
    (pairResults first second).Reordered (pairResults second first) :=
  reordered_sampleDocument "cases" (reordered_pair _ _)

end Sample

/-- Two cases and the references to them, in either order. -/
theorem runQualification_reordered_pair :
    runQualification pairRuntime (pairRequest "T2" "T1") ⟨none, none⟩ =
      runQualification pairRuntime (pairRequest "T1" "T2") ⟨none, none⟩ := by
  have hpasses : PassesValidation pairRuntime (pairRequest "T1" "T2") :=
    ⟨pairEvidence, (reads_pairRequest.gatherEvidence_eq_ok_iff _).mpr ⟨validated_pair, rfl⟩⟩
  exact (runQualification_reordered pairRuntime _ _ _ _ _ _ _ _ 0 reads_pairRequest
    reads_swappedRequest (.refl _) (reordered_pairProcedures "T1" "T2")
    (reordered_pairResults "T1" "T2") ⟨none, none⟩).2 hpasses

end Esqh.Qualification
