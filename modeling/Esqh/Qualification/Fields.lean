import Esqh.Library.Batch
import Esqh.Library.Outcome
import Esqh.Qualification.Json
import Mathlib.Data.List.Dedup

/-!
How `tools/qualification.py` takes arrays, strings, references and metadata
out of documents. A rejected field raises `InputValidationError`.
-/

namespace Esqh.Qualification

open Batch Collections

/-- What ends `json.loads` without a document. -/
inductive LoadsError where
  | jsonDecodeError (lineno colno : Nat)
  | other (exception : Str)

/-- The parts of Python that depend on the Unicode tables or read JSON. -/
structure Runtime where
  lower : Str → Str
  capitalize : Str → Str
  loads : Str → Except LoadsError Json

/-- The issues of an `InputValidationError`. -/
abbrev Rejection := Batch.Rejection Issue

abbrev Checked (α : Type) := Batch.Checked Issue α

abbrev Members := List (Str × Json)

/-- The names as an error message lists them. -/
def quoted (keys : List Str) : Str := str "'" ++ join (str "', '") keys ++ str "'"

/-- The text of a string that is not blank. -/
def nonEmptyString : Json → Option Str
  | .string text => if strip text = [] then none else some (strip text)
  | _ => none

variable (runtime : Runtime)

section Arrays

def fieldNotArray (kind key : Str) : Issue :=
  { code := str "INVALID_SCHEMA"
    message := runtime.capitalize kind ++ str " field '" ++ key ++ str "' must be an array." }

def noArray (keys : List Str) (kind : Str) : Issue :=
  { code := str "INVALID_SCHEMA"
    message := runtime.capitalize kind ++
      str " document must be an array or contain one of: " ++ quoted keys ++ str "." }

/-- The first of the keys with a value, and its value. -/
def selectArray (members : Members) (keys : List Str) : Option (Str × Json) :=
  keys.findSome? fun key =>
    match Json.get members key with
    | none => none
    | some .null => none
    | some value => some (key, value)

def extractArray (document : Json) (keys : List Str) (kind : Str) : Checked (List Json) :=
  match document with
  | .array items => .ok items
  | .object members =>
    match selectArray members keys with
    | some (_, .array items) => .ok items
    | some (key, _) => refuse (fieldNotArray runtime kind key)
    | none => refuse (noArray runtime keys kind)
  | _ => refuse (noArray runtime keys kind)

end Arrays

section Strings

def stringRequired (keys : List Str) (kind : Str) : Issue :=
  { code := str "INVALID_SCHEMA"
    message := runtime.capitalize kind ++ str " requires a non-empty " ++ quoted keys ++
      str " field." }

def requiredString (record : Members) (keys : List Str) (kind : Str) : Checked Str :=
  match keys.findSome? fun key => (Json.get record key).bind nonEmptyString with
  | some text => .ok text
  | none => refuse (stringRequired runtime keys kind)

/-- The text of a string, blank or not. -/
def strippedString : Json → Option Str
  | .string text => some (strip text)
  | _ => none

def optionalString (record : Members) (keys : List Str) (fallback : Str) : Str :=
  (keys.findSome? fun key => (Json.get record key).bind strippedString).getD fallback

theorem requiredString_eq_ok_iff (record : Members) (keys : List Str) (kind text : Str) :
    requiredString runtime record keys kind = .ok text ↔
      keys.findSome? (fun key => (Json.get record key).bind nonEmptyString) = some text := by
  unfold requiredString
  split
  next found hfound => rw [hfound, Except.ok.injEq, Option.some.injEq]
  next hfound => simp [hfound, refuse]

/-- The kind shows in the error only. -/
theorem requiredString_anywhere {record : Members} {keys : List Str} {kind text : Str}
    (h : requiredString runtime record keys kind = .ok text) (other : Str) :
    requiredString runtime record keys other = .ok text :=
  (requiredString_eq_ok_iff runtime record keys other text).mpr
    ((requiredString_eq_ok_iff runtime record keys kind text).mp h)

end Strings

section Metadata

def metadataNotObject (kind : Str) : Issue :=
  { code := str "INVALID_METADATA"
    message := runtime.capitalize kind ++
      str " document must be an object with project, version, and baseline metadata."
    subjectId := kind }

def metadataFieldEmpty (kind field : Str) : Issue :=
  { code := str "INVALID_METADATA"
    message := runtime.capitalize kind ++ str " metadata field '" ++ field ++
      str "' must be a non-empty string."
    subjectId := kind }

/-- The fields of the metadata, in the order in which they are checked. -/
def metadataFields : List (Str × (QualificationMetadata → Str)) :=
  [(str "project", QualificationMetadata.project), (str "version", QualificationMetadata.version),
    (str "baseline", QualificationMetadata.baseline)]

def metadataField (members : Members) (field : Str) : Option Str :=
  (Json.get members field).bind nonEmptyString

def documentMetadata (document : Json) (kind : Str) : Checked QualificationMetadata :=
  match document with
  | .object members =>
    let issues := metadataFields.filterMap fun (field, _) =>
      if (metadataField members field).isNone then some (metadataFieldEmpty runtime kind field)
      else none
    settle issues
      { project := (metadataField members (str "project")).getD []
        version := (metadataField members (str "version")).getD []
        baseline := (metadataField members (str "baseline")).getD [] }
  | _ => refuse (metadataNotObject runtime kind)

def noMetadata : Issue :=
  { code := str "INVALID_METADATA"
    message := str "No qualification metadata was supplied." }

def metadataMismatch (sourceName field actual referenceName expected : Str) : Issue :=
  { code := str "METADATA_MISMATCH"
    message := runtime.capitalize sourceName ++ str " metadata field '" ++ field ++
      str "' is '" ++ actual ++ str "', but " ++ referenceName ++ str " declares '" ++
      expected ++ str "'."
    subjectId := sourceName }

def validateMatchingMetadata :
    List (Str × QualificationMetadata) → Checked QualificationMetadata
  | [] => refuse noMetadata
  | (referenceName, reference) :: others =>
    let issues := others.flatMap fun (sourceName, candidate) =>
      metadataFields.filterMap fun (field, value) =>
        if value candidate ≠ value reference then
          some (metadataMismatch runtime sourceName field (value candidate) referenceName
            (value reference))
        else none
    settle issues reference

/-- Metadata matches if all of it is the same. -/
theorem validateMatchingMetadata_eq_ok_iff (referenceName : Str)
    (reference metadata : QualificationMetadata) (others : List (Str × QualificationMetadata)) :
    validateMatchingMetadata runtime ((referenceName, reference) :: others) = .ok metadata ↔
      reference = metadata ∧ ∀ other ∈ others, other.2 = reference := by
  have hsame (other : Str × QualificationMetadata) :
      (∀ entry ∈ metadataFields, entry.2 other.2 = entry.2 reference) ↔ other.2 = reference := by
    constructor
    · intro h
      simp only [metadataFields, List.forall_mem_cons] at h
      obtain ⟨hproject, hversion, hbaseline, _⟩ := h
      cases hother : other.2
      cases reference
      simp_all
    · rintro heq entry _
      rw [heq]
  rw [validateMatchingMetadata, settle_eq_ok_iff, List.flatMap_eq_nil_iff, and_comm]
  refine and_congr_right fun _ => forall₂_congr fun other _ => ?_
  rw [← hsame other, List.filterMap_eq_nil_iff]
  refine forall₂_congr fun entry _ => ?_
  simp

end Metadata

section References

def referencesRequired (keys : List Str) (kind : Str) : Issue :=
  { code := str "INVALID_SCHEMA"
    message := runtime.capitalize kind ++ str " requires string references in one of: " ++
      quoted keys ++ str "." }

def referencesEmpty (kind key : Str) : Issue :=
  { code := str "INVALID_SCHEMA"
    message := runtime.capitalize kind ++ str " field '" ++ key ++
      str "' must contain non-empty string IDs." }

def referencesRepeated (kind key : Str) : Issue :=
  { code := str "DUPLICATE_REFERENCE"
    message := runtime.capitalize kind ++ str " field '" ++ key ++
      str "' contains duplicate IDs." }

/-- The first of the keys that is there, and its value. -/
def firstPresent (record : Members) (keys : List Str) : Option (Str × Json) :=
  keys.findSome? fun key => (Json.get record key).map fun value => (key, value)

/-- The singular keys count when no plural one is there, or when it is null. -/
def selectReferences (record : Members) (pluralKeys singularKeys : List Str) :
    Option (Str × Json) :=
  match firstPresent record pluralKeys with
  | none => firstPresent record singularKeys
  | some (_, .null) => firstPresent record singularKeys
  | some selected => some selected

def normalizeReferences (references : List Json) (key kind : Str) : Checked (List Str) :=
  if references.isEmpty ∨ references.any fun item => (nonEmptyString item).isNone then
    refuse (referencesEmpty runtime kind key)
  else
    let normalized := sortedBy id (references.filterMap nonEmptyString).dedup
    if normalized.length ≠ references.length then refuse (referencesRepeated runtime kind key)
    else .ok normalized

def stringReferences (record : Members) (pluralKeys singularKeys : List Str) (kind : Str) :
    Checked (List Str) :=
  match selectReferences record pluralKeys singularKeys with
  | some (key, .string text) => normalizeReferences runtime [.string text] key kind
  | some (key, .array references) => normalizeReferences runtime references key kind
  | _ => refuse (referencesRequired runtime (pluralKeys ++ singularKeys) kind)

theorem normalizeReferences_shape {items : List Json} {key kind : Str} {references : List Str}
    (h : normalizeReferences runtime items key kind = .ok references) :
    references ≠ [] ∧ references.Nodup := by
  unfold normalizeReferences at h
  split at h
  · cases h
  next hitems =>
    obtain ⟨hnonempty, _⟩ := not_or.mp hitems
    dsimp only at h
    split at h
    · cases h
    next hlength =>
      cases h
      constructor
      · intro hnil
        rw [hnil, not_not, List.length_nil, eq_comm, List.length_eq_zero_iff] at hlength
        exact hnonempty (by rw [hlength, List.isEmpty_nil])
      · exact (perm_sortedBy id _).nodup_iff.mpr (List.nodup_dedup _)

/-- References that are accepted are some, and none is repeated. -/
theorem stringReferences_shape {record : Members} {pluralKeys singularKeys : List Str}
    {kind : Str} {references : List Str}
    (h : stringReferences runtime record pluralKeys singularKeys kind = .ok references) :
    references ≠ [] ∧ references.Nodup := by
  unfold stringReferences at h
  split at h
  · exact normalizeReferences_shape runtime h
  · exact normalizeReferences_shape runtime h
  · cases h

end References

end Esqh.Qualification
