import Esqh.Qualification.Report
import Mathlib.Data.Finset.Basic
import Mathlib.Data.Finset.Dedup
import Mathlib.Data.Finset.Lattice.Lemmas

/-!
What the traceability scan finds, in closed form: the findings of every
reference of every procedure, and the declared identifiers that some reference
maps.
-/

namespace Esqh.Qualification

open Collections

/-- The references that name something declared. -/
def resolved (declared references : List Str) : Finset Str :=
  (references.filter (· ∈ declared)).toFinset

/-- The declared names without a reference. -/
def unresolved (declared references : List Str) : List Str :=
  declared.dedup.filter (· ∉ resolved declared references)

section Resolved

variable {declared references : List Str} {reference : Str}

theorem mem_resolved : reference ∈ resolved declared references ↔
    reference ∈ references ∧ reference ∈ declared := by
  simp [resolved]

@[simp] theorem resolved_nil : resolved declared [] = ∅ := rfl

theorem resolved_cons_of_mem (h : reference ∈ declared) :
    resolved declared (reference :: references) =
      insert reference (resolved declared references) := by
  simp [resolved, h]

theorem resolved_cons_of_not_mem (h : reference ∉ declared) :
    resolved declared (reference :: references) = resolved declared references := by
  simp [resolved, h]

theorem resolved_append (more : List Str) :
    resolved declared (references ++ more) =
      resolved declared references ∪ resolved declared more := by
  simp [resolved]

end Resolved

section Scan

variable (requirements : List Requirement) (cCases : List CCaseResult)

/-- The finding about one requirement reference, if any. -/
def requirementIssues (procedure : Procedure) (requirementId : Str) : List Issue :=
  match requirements.find? (fun item => item.identifier = requirementId) with
  | none => [unknownRequirement procedure requirementId]
  | some requirement =>
    if requirement.verificationMethods ≠ [] ∧
        procedure.verificationMethod ∉ requirement.verificationMethods then
      [verificationMethodMismatch procedure requirementId]
    else []

/-- The finding about one case reference, if any. -/
def caseIssues (procedure : Procedure) (caseId : Str) : List Issue :=
  if caseId ∉ cCases.map CCaseResult.identifier then [missingCCase procedure caseId] else []

/-- Every finding about the references of one procedure. -/
def procedureIssues (procedure : Procedure) : List Issue :=
  procedure.requirementIds.flatMap (requirementIssues requirements procedure) ++
    procedure.caseIds.flatMap (caseIssues cCases procedure)

theorem find?_identifier_eq_none_iff {requirementId : Str} :
    requirements.find? (fun item => item.identifier = requirementId) = none ↔
      requirementId ∉ requirements.map Requirement.identifier := by
  simp [List.find?_eq_none]

theorem foldl_scanRequirement (procedure : Procedure) (requirementIds : List Str) (scan : Scan) :
    requirementIds.foldl (scanRequirement requirements procedure) scan =
      { scan with
        mappedRequirements := scan.mappedRequirements ∪
          resolved (requirements.map Requirement.identifier) requirementIds
        issues := scan.issues ++
          requirementIds.flatMap (requirementIssues requirements procedure) } := by
  induction requirementIds generalizing scan with
  | nil => simp
  | cons requirementId rest ih =>
      rw [List.foldl_cons, ih]
      cases hfind : requirements.find? (fun item => item.identifier = requirementId) with
      | none =>
          have hundeclared := (find?_identifier_eq_none_iff requirements).mp hfind
          rw [resolved_cons_of_not_mem hundeclared]
          simp [scanRequirement, requirementIssues, hfind]
      | some requirement =>
          have hdeclared : requirementId ∈ requirements.map Requirement.identifier := by
            by_contra hundeclared
            rw [(find?_identifier_eq_none_iff requirements).mpr hundeclared] at hfind
            cases hfind
          rw [resolved_cons_of_mem hdeclared]
          simp only [scanRequirement, requirementIssues, List.flatMap_cons, hfind,
            Finset.union_insert]
          split <;> simp [Finset.insert_union]

theorem foldl_scanCase (procedure : Procedure) (caseIds : List Str) (scan : Scan) :
    caseIds.foldl (scanCase cCases procedure) scan =
      { scan with
        mappedCases := scan.mappedCases ∪
          resolved (cCases.map CCaseResult.identifier) caseIds
        issues := scan.issues ++ caseIds.flatMap (caseIssues cCases procedure) } := by
  induction caseIds generalizing scan with
  | nil => simp
  | cons caseId rest ih =>
      rw [List.foldl_cons, ih]
      by_cases hreturned : caseId ∈ cCases.map CCaseResult.identifier
      · rw [resolved_cons_of_mem hreturned]
        simp only [scanCase, caseIssues, List.flatMap_cons, not_not.mpr hreturned, if_false,
          Finset.union_insert, Finset.insert_union, List.nil_append]
      · rw [resolved_cons_of_not_mem hreturned]
        simp only [scanCase, caseIssues, List.flatMap_cons, hreturned, not_false_eq_true, if_true,
          List.append_assoc]

/-- The scan of all procedures. -/
theorem foldl_scanProcedure (procedures : List Procedure) (scan : Scan) :
    procedures.foldl (scanProcedure requirements cCases) scan =
      { mappedRequirements := scan.mappedRequirements ∪
          resolved (requirements.map Requirement.identifier)
            (procedures.flatMap Procedure.requirementIds)
        mappedCases := scan.mappedCases ∪
          resolved (cCases.map CCaseResult.identifier) (procedures.flatMap Procedure.caseIds)
        issues := scan.issues ++
          procedures.flatMap (procedureIssues requirements cCases) } := by
  induction procedures generalizing scan with
  | nil => simp
  | cons procedure rest ih =>
      rw [List.foldl_cons, ih, scanProcedure, foldl_scanRequirement, foldl_scanCase]
      simp only [List.flatMap_cons, resolved_append, Finset.union_assoc, procedureIssues,
        List.append_assoc]

/-- The findings of the scan, in front of the final sort. -/
def foundIssues (procedures : List Procedure) : List Issue :=
  procedures.flatMap (procedureIssues requirements cCases) ++
    (sortedBy id (unresolved (requirements.map Requirement.identifier)
      (procedures.flatMap Procedure.requirementIds))).map unmappedRequirement ++
    (sortedBy id (unresolved (cCases.map CCaseResult.identifier)
      (procedures.flatMap Procedure.caseIds))).map unknownCCase

theorem traceabilityIssues_eq (procedures : List Procedure) :
    traceabilityIssues requirements procedures cCases =
      sortedBy Issue.orderKey (foundIssues requirements cCases procedures) := by
  simp only [traceabilityIssues, foundIssues, unresolved, foldl_scanProcedure,
    Finset.empty_union, List.nil_append]

end Scan

/-- The references and the declarations fit together: every reference names
something, everything is referenced, and every procedure uses a method that its
requirements permit. -/
structure Traced (requirements : List Requirement) (procedures : List Procedure)
    (cCases : List CCaseResult) : Prop where
  requirementsDeclared : ∀ procedure ∈ procedures, ∀ requirementId ∈ procedure.requirementIds,
    requirementId ∈ requirements.map Requirement.identifier
  casesReturned : ∀ procedure ∈ procedures, ∀ caseId ∈ procedure.caseIds,
    caseId ∈ cCases.map CCaseResult.identifier
  requirementsMapped : ∀ requirement ∈ requirements,
    ∃ procedure ∈ procedures, requirement.identifier ∈ procedure.requirementIds
  casesMapped : ∀ case ∈ cCases, ∃ procedure ∈ procedures, case.identifier ∈ procedure.caseIds
  methodsPermitted : ∀ procedure ∈ procedures, ∀ requirement ∈ requirements,
    requirement.identifier ∈ procedure.requirementIds → requirement.verificationMethods ≠ [] →
      procedure.verificationMethod ∈ requirement.verificationMethods

section Nothing

variable {requirements : List Requirement} {procedures : List Procedure}
  {cCases : List CCaseResult}

/-- Identifiers are unique, so the first requirement of an identifier is the only one. -/
theorem find?_identifier_eq_some_iff (hnodup : (requirements.map Requirement.identifier).Nodup)
    {requirementId : Str} {requirement : Requirement} :
    requirements.find? (fun item => item.identifier = requirementId) = some requirement ↔
      requirement ∈ requirements ∧ requirement.identifier = requirementId := by
  constructor
  · intro hfind
    exact ⟨List.mem_of_find?_eq_some hfind, by simpa using List.find?_some hfind⟩
  · rintro ⟨hmem, hidentifier⟩
    cases hfind : requirements.find? (fun item => item.identifier = requirementId) with
    | none =>
        have hundeclared := (find?_identifier_eq_none_iff requirements).mp hfind
        exact absurd (List.mem_map.mpr ⟨requirement, hmem, hidentifier⟩) hundeclared
    | some found =>
        have hfound : found.identifier = requirementId := by simpa using List.find?_some hfind
        rw [List.inj_on_of_nodup_map hnodup (List.mem_of_find?_eq_some hfind) hmem
          (hfound.trans hidentifier.symm)]

theorem requirementIssues_eq_nil_iff
    (hnodup : (requirements.map Requirement.identifier).Nodup) (procedure : Procedure)
    (requirementId : Str) :
    requirementIssues requirements procedure requirementId = [] ↔
      requirementId ∈ requirements.map Requirement.identifier ∧
        ∀ requirement ∈ requirements, requirement.identifier = requirementId →
          requirement.verificationMethods ≠ [] →
            procedure.verificationMethod ∈ requirement.verificationMethods := by
  unfold requirementIssues
  cases hfind : requirements.find? (fun item => item.identifier = requirementId) with
  | none =>
      have hundeclared := (find?_identifier_eq_none_iff requirements).mp hfind
      exact iff_of_false (by simp) (fun h => hundeclared h.1)
  | some found =>
      obtain ⟨hmem, hidentifier⟩ := (find?_identifier_eq_some_iff hnodup).mp hfind
      have hdeclared : requirementId ∈ requirements.map Requirement.identifier :=
        List.mem_map.mpr ⟨found, hmem, hidentifier⟩
      simp only [ite_eq_right_iff, List.cons_ne_nil, imp_false, not_and, not_not]
      constructor
      · intro h
        refine ⟨hdeclared, fun requirement hrequirement heq => ?_⟩
        have hsame := (find?_identifier_eq_some_iff hnodup).mpr ⟨hrequirement, heq⟩
        rw [hfind] at hsame
        cases hsame
        exact h
      · rintro ⟨_, h⟩
        exact h found hmem hidentifier

theorem caseIssues_eq_nil_iff (procedure : Procedure) (caseId : Str) :
    caseIssues cCases procedure caseId = [] ↔ caseId ∈ cCases.map CCaseResult.identifier := by
  unfold caseIssues
  by_cases h : caseId ∈ cCases.map CCaseResult.identifier
  · exact iff_of_true (if_neg (not_not.mpr h)) h
  · rw [if_pos h]
    exact iff_of_false (by simp) h

/-- Nothing is left without a reference exactly if some procedure refers to
everything declared. -/
theorem unresolved_eq_nil_iff {declared : List Str} (references : Procedure → List Str) :
    unresolved declared (procedures.flatMap references) = [] ↔
      ∀ name ∈ declared, ∃ procedure ∈ procedures, name ∈ references procedure := by
  simp only [unresolved, List.filter_eq_nil_iff, List.mem_dedup, decide_eq_true_eq, not_not,
    mem_resolved, List.mem_flatMap]
  exact forall₂_congr fun name hname => and_iff_left hname

theorem traceabilityIssues_eq_nil_iff
    (hnodup : (requirements.map Requirement.identifier).Nodup) :
    traceabilityIssues requirements procedures cCases = [] ↔
      Traced requirements procedures cCases := by
  simp only [traceabilityIssues_eq, sortedBy_eq_nil_iff, foundIssues, List.append_eq_nil_iff,
    List.map_eq_nil_iff, unresolved_eq_nil_iff, List.flatMap_eq_nil_iff, procedureIssues,
    requirementIssues_eq_nil_iff hnodup, caseIssues_eq_nil_iff, List.forall_mem_map]
  constructor
  · rintro ⟨⟨hreferences, hrequirements⟩, hcases⟩
    exact
      { requirementsDeclared := fun procedure hp id hid => ((hreferences procedure hp).1 id hid).1
        casesReturned := fun procedure hp => (hreferences procedure hp).2
        requirementsMapped := hrequirements
        casesMapped := hcases
        methodsPermitted := fun procedure hp requirement hr hid =>
          ((hreferences procedure hp).1 _ hid).2 requirement hr rfl }
  · intro h
    refine ⟨⟨fun procedure hp => ⟨fun id hid => ⟨h.requirementsDeclared procedure hp id hid, ?_⟩,
      h.casesReturned procedure hp⟩, h.requirementsMapped⟩, h.casesMapped⟩
    rintro requirement hr rfl
    exact h.methodsPermitted procedure hp requirement hr hid

end Nothing

end Esqh.Qualification
