import Esqh.Qualification.Gathering
import Esqh.Qualification.Verdict
import Mathlib.Data.List.Nodup

/-!
The findings of the traceability scan against the defects they report. For what
the loaders return there is one finding for each defect, and none besides.
-/

namespace Esqh.Qualification

open Collections Batch Outcome

/-- A defect in the mapping of procedures to requirements and cases. -/
inductive Defect where
  | undeclared (procedure : Procedure) (requirementId : Str)
  | forbiddenMethod (procedure : Procedure) (requirementId : Str)
  | unreturned (procedure : Procedure) (caseId : Str)
  | unmapped (requirementId : Str)
  | unreferenced (caseId : Str)

/-- The finding that reports a defect. -/
def Defect.issue : Defect → Issue
  | .undeclared procedure requirementId => unknownRequirement procedure requirementId
  | .forbiddenMethod procedure requirementId => verificationMethodMismatch procedure requirementId
  | .unreturned procedure caseId => missingCCase procedure caseId
  | .unmapped requirementId => unmappedRequirement requirementId
  | .unreferenced caseId => unknownCCase caseId

/-- The code under which a defect is reported. -/
inductive DefectKind where
  | undeclared
  | forbiddenMethod
  | unreturned
  | unmapped
  | unreferenced

def DefectKind.code : DefectKind → Str
  | .undeclared => str "UNKNOWN_REQUIREMENT"
  | .forbiddenMethod => str "VERIFICATION_METHOD_MISMATCH"
  | .unreturned => str "MISSING_C_CASE"
  | .unmapped => str "UNMAPPED_REQUIREMENT"
  | .unreferenced => str "UNKNOWN_C_CASE"

def Defect.kind : Defect → DefectKind
  | .undeclared _ _ => .undeclared
  | .forbiddenMethod _ _ => .forbiddenMethod
  | .unreturned _ _ => .unreturned
  | .unmapped _ => .unmapped
  | .unreferenced _ => .unreferenced

/-- The reference, or the declared name, that is defective. -/
def Defect.reference : Defect → Str
  | .undeclared _ requirementId => requirementId
  | .forbiddenMethod _ requirementId => requirementId
  | .unreturned _ caseId => caseId
  | .unmapped requirementId => requirementId
  | .unreferenced caseId => caseId

/-- Whom the finding is about: the procedure, or what no procedure has. -/
def Defect.subject : Defect → Str
  | .undeclared procedure _ => procedure.identifier
  | .forbiddenMethod procedure _ => procedure.identifier
  | .unreturned procedure _ => procedure.identifier
  | .unmapped requirementId => requirementId
  | .unreferenced caseId => caseId

theorem Defect.code_issue (defect : Defect) : defect.issue.code = defect.kind.code := by
  cases defect <;> rfl

theorem Defect.subjectId_issue (defect : Defect) : defect.issue.subjectId = defect.subject := by
  cases defect <;> rfl

/-- A text between quotes, in front of which and behind which there is more. -/
theorem quoted_infix (start : Str) (before : String) (text : Str) (after : String) :
    (str "'" ++ text ++ str "'") <:+:
      start ++ str (before ++ "'") ++ text ++ str ("'" ++ after) := by
  exists start ++ str before, str after
  simp only [str_append, List.append_assoc]

/-- The message quotes the reference. -/
theorem Defect.reference_infix (defect : Defect) :
    (str "'" ++ defect.reference ++ str "'") <:+: defect.issue.message := by
  cases defect with
  | undeclared procedure requirementId =>
      exact quoted_infix _ "' references unknown requirement " requirementId "."
  | forbiddenMethod procedure requirementId =>
      exact quoted_infix _ "' is not permitted by requirement " requirementId "."
  | unreturned procedure caseId =>
      exact quoted_infix _ "' references C case " caseId ", but it was not returned."
  | unmapped requirementId =>
      exact quoted_infix [] "Requirement " requirementId " has no valid test-procedure mapping."
  | unreferenced caseId =>
      exact quoted_infix [] "C test binary returned case " caseId
        ", but no procedure references it."

theorem DefectKind.code_injective : Function.Injective DefectKind.code := by
  intro first second h
  cases first <;> cases second <;> first | rfl | exact absurd h (by decide)

/-- The defect is there. -/
def Defect.Present (requirements : List Requirement) (procedures : List Procedure)
    (cCases : List CCaseResult) : Defect → Prop
  | .undeclared procedure requirementId =>
    procedure ∈ procedures ∧ requirementId ∈ procedure.requirementIds ∧
      requirementId ∉ requirements.map Requirement.identifier
  | .forbiddenMethod procedure requirementId =>
    procedure ∈ procedures ∧ requirementId ∈ procedure.requirementIds ∧
      ∃ requirement ∈ requirements, requirement.identifier = requirementId ∧
        requirement.verificationMethods ≠ [] ∧
        procedure.verificationMethod ∉ requirement.verificationMethods
  | .unreturned procedure caseId =>
    procedure ∈ procedures ∧ caseId ∈ procedure.caseIds ∧
      caseId ∉ cCases.map CCaseResult.identifier
  | .unmapped requirementId =>
    requirementId ∈ requirements.map Requirement.identifier ∧
      ∀ procedure ∈ procedures, requirementId ∉ procedure.requirementIds
  | .unreferenced caseId =>
    caseId ∈ cCases.map CCaseResult.identifier ∧
      ∀ procedure ∈ procedures, caseId ∉ procedure.caseIds

/-- The shape in which the loaders return their records, the references of each
procedure without repetition. -/
structure LoaderShape (requirements : List Requirement) (procedures : List Procedure)
    (cCases : List CCaseResult) : Prop extends Loaded requirements procedures cCases where
  distinctRequirementIds : ∀ procedure ∈ procedures, procedure.requirementIds.Nodup
  distinctCaseIds : ∀ procedure ∈ procedures, procedure.caseIds.Nodup

section Defects

variable (requirements : List Requirement) (cCases : List CCaseResult)

/-- The defect of one requirement reference, if any. -/
def requirementDefect (procedure : Procedure) (requirementId : Str) : Option Defect :=
  match requirements.find? (fun item => item.identifier = requirementId) with
  | none => some (.undeclared procedure requirementId)
  | some requirement =>
    if requirement.verificationMethods ≠ [] ∧
        procedure.verificationMethod ∉ requirement.verificationMethods then
      some (.forbiddenMethod procedure requirementId)
    else none

/-- The defect of one case reference, if any. -/
def caseDefect (procedure : Procedure) (caseId : Str) : Option Defect :=
  if caseId ∉ cCases.map CCaseResult.identifier then some (.unreturned procedure caseId) else none

def procedureDefects (procedure : Procedure) : List Defect :=
  procedure.requirementIds.filterMap (requirementDefect requirements procedure) ++
    procedure.caseIds.filterMap (caseDefect cCases procedure)

/-- The defects in the order in which the scan meets them. -/
def foundDefects (procedures : List Procedure) : List Defect :=
  procedures.flatMap (procedureDefects requirements cCases) ++
    (sortedBy id (unresolved (requirements.map Requirement.identifier)
      (procedures.flatMap Procedure.requirementIds))).map .unmapped ++
    (sortedBy id (unresolved (cCases.map CCaseResult.identifier)
      (procedures.flatMap Procedure.caseIds))).map .unreferenced

theorem requirementIssues_eq (procedure : Procedure) (requirementId : Str) :
    requirementIssues requirements procedure requirementId =
      (requirementDefect requirements procedure requirementId).toList.map Defect.issue := by
  unfold requirementIssues requirementDefect
  cases requirements.find? (fun item => item.identifier = requirementId) with
  | none => rfl
  | some requirement =>
      dsimp only
      split <;> rfl

theorem caseIssues_eq (procedure : Procedure) (caseId : Str) :
    caseIssues cCases procedure caseId =
      (caseDefect cCases procedure caseId).toList.map Defect.issue := by
  unfold caseIssues caseDefect
  split <;> rfl

theorem flatMap_map_toList {α β γ : Type*} (f : α → Option β) (g : β → γ) (xs : List α) :
    xs.flatMap (fun x => (f x).toList.map g) = (xs.filterMap f).map g := by
  induction xs with
  | nil => rfl
  | cons x xs ih =>
      rw [List.flatMap_cons, ih, List.filterMap_cons]
      cases f x <;> rfl

theorem foundIssues_eq (procedures : List Procedure) :
    foundIssues requirements cCases procedures =
      (foundDefects requirements cCases procedures).map Defect.issue := by
  have hprocedure : procedureIssues requirements cCases =
      fun procedure => (procedureDefects requirements cCases procedure).map Defect.issue := by
    funext procedure
    rw [procedureIssues, procedureDefects, List.map_append, ← flatMap_map_toList,
      ← flatMap_map_toList, ← funext (requirementIssues_eq requirements procedure),
      ← funext (caseIssues_eq cCases procedure)]
  rw [foundIssues, foundDefects, List.map_append, List.map_append, List.map_flatMap, List.map_map,
    List.map_map, hprocedure]
  rfl

end Defects

section Exact

variable {requirements : List Requirement} {procedures : List Procedure}
  {cCases : List CCaseResult}

theorem requirementDefect_eq_some_iff
    (hnodup : (requirements.map Requirement.identifier).Nodup) {procedure : Procedure}
    {requirementId : Str} {defect : Defect} :
    requirementDefect requirements procedure requirementId = some defect ↔
      (requirementId ∉ requirements.map Requirement.identifier ∧
        defect = .undeclared procedure requirementId) ∨
      ((∃ requirement ∈ requirements, requirement.identifier = requirementId ∧
          requirement.verificationMethods ≠ [] ∧
          procedure.verificationMethod ∉ requirement.verificationMethods) ∧
        defect = .forbiddenMethod procedure requirementId) := by
  unfold requirementDefect
  cases hfind : requirements.find? (fun item => item.identifier = requirementId) with
  | none =>
      have hundeclared := (find?_identifier_eq_none_iff requirements).mp hfind
      constructor
      · intro h
        cases h
        exact .inl ⟨hundeclared, rfl⟩
      · rintro (⟨_, rfl⟩ | ⟨⟨requirement, hmem, hidentifier, _⟩, _⟩)
        · rfl
        · exact absurd (List.mem_map.mpr ⟨requirement, hmem, hidentifier⟩) hundeclared
  | some found =>
      obtain ⟨hmem, hidentifier⟩ := (find?_identifier_eq_some_iff hnodup).mp hfind
      simp only [Option.ite_none_right_eq_some, Option.some.injEq]
      constructor
      · rintro ⟨hmethods, rfl⟩
        exact .inr ⟨⟨found, hmem, hidentifier, hmethods⟩, rfl⟩
      · rintro (⟨hundeclared, _⟩ | ⟨⟨requirement, hrequirement, hother, hmethods⟩, rfl⟩)
        · exact absurd (List.mem_map.mpr ⟨found, hmem, hidentifier⟩) hundeclared
        · have hsame := (find?_identifier_eq_some_iff hnodup).mpr ⟨hrequirement, hother⟩
          rw [hfind] at hsame
          cases hsame
          exact ⟨hmethods, rfl⟩

theorem caseDefect_eq_some_iff {procedure : Procedure} {caseId : Str} {defect : Defect} :
    caseDefect cCases procedure caseId = some defect ↔
      caseId ∉ cCases.map CCaseResult.identifier ∧ defect = .unreturned procedure caseId := by
  rw [caseDefect, Option.ite_none_right_eq_some, Option.some.injEq, eq_comm (a := defect)]

theorem mem_unresolved_iff {declared : List Str} (references : Procedure → List Str) {name : Str} :
    name ∈ unresolved declared (procedures.flatMap references) ↔
      name ∈ declared ∧ ∀ procedure ∈ procedures, name ∉ references procedure := by
  simp only [unresolved, List.mem_filter, List.mem_dedup, decide_eq_true_eq, mem_resolved,
    List.mem_flatMap]
  grind

/-- The scan meets exactly the defects that are there. -/
theorem mem_foundDefects_iff (hnodup : (requirements.map Requirement.identifier).Nodup)
    {defect : Defect} :
    defect ∈ foundDefects requirements cCases procedures ↔
      defect.Present requirements procedures cCases := by
  rw [foundDefects, List.mem_append, List.mem_append, List.mem_flatMap]
  constructor
  · rintro ((⟨procedure, hprocedure, h⟩ | h) | h)
    · rcases List.mem_append.mp h with h | h
      · obtain ⟨requirementId, hreference, h⟩ := List.mem_filterMap.mp h
        rcases (requirementDefect_eq_some_iff hnodup).mp h with
          ⟨hundeclared, rfl⟩ | ⟨hmethods, rfl⟩
        · exact ⟨hprocedure, hreference, hundeclared⟩
        · exact ⟨hprocedure, hreference, hmethods⟩
      · obtain ⟨caseId, hreference, h⟩ := List.mem_filterMap.mp h
        obtain ⟨hunreturned, rfl⟩ := caseDefect_eq_some_iff.mp h
        exact ⟨hprocedure, hreference, hunreturned⟩
    · obtain ⟨requirementId, hmem, rfl⟩ := List.mem_map.mp h
      exact (mem_unresolved_iff _).mp ((mem_sortedBy id).mp hmem)
    · obtain ⟨caseId, hmem, rfl⟩ := List.mem_map.mp h
      exact (mem_unresolved_iff _).mp ((mem_sortedBy id).mp hmem)
  · intro h
    cases defect with
    | undeclared procedure requirementId =>
        obtain ⟨hprocedure, hreference, hundeclared⟩ := h
        refine .inl (.inl ⟨procedure, hprocedure, List.mem_append_left _ ?_⟩)
        apply List.mem_filterMap.mpr
        exact ⟨_, hreference, (requirementDefect_eq_some_iff hnodup).mpr (.inl ⟨hundeclared, rfl⟩)⟩
    | forbiddenMethod procedure requirementId =>
        obtain ⟨hprocedure, hreference, hmethods⟩ := h
        refine .inl (.inl ⟨procedure, hprocedure, List.mem_append_left _ ?_⟩)
        apply List.mem_filterMap.mpr
        exact ⟨_, hreference, (requirementDefect_eq_some_iff hnodup).mpr (.inr ⟨hmethods, rfl⟩)⟩
    | unreturned procedure caseId =>
        obtain ⟨hprocedure, hreference, hunreturned⟩ := h
        refine .inl (.inl ⟨procedure, hprocedure, List.mem_append_right _ ?_⟩)
        apply List.mem_filterMap.mpr
        exact ⟨_, hreference, caseDefect_eq_some_iff.mpr ⟨hunreturned, rfl⟩⟩
    | unmapped requirementId =>
        apply Or.inl ∘ Or.inr
        apply List.mem_map_of_mem
        exact (mem_sortedBy id).mpr ((mem_unresolved_iff _).mpr h)
    | unreferenced caseId =>
        apply Or.inr
        apply List.mem_map_of_mem
        exact (mem_sortedBy id).mpr ((mem_unresolved_iff _).mpr h)

/-- The defect of a requirement reference names the reference and its procedure. -/
theorem requirementDefect_names (hnodup : (requirements.map Requirement.identifier).Nodup)
    {procedure : Procedure} {requirementId : Str} {defect : Defect}
    (h : requirementDefect requirements procedure requirementId = some defect) :
    defect.reference = requirementId ∧ defect.issue.subjectId = procedure.identifier ∧
      (defect.kind = .undeclared ∨ defect.kind = .forbiddenMethod) := by
  rcases (requirementDefect_eq_some_iff hnodup).mp h with ⟨_, rfl⟩ | ⟨_, rfl⟩
  · exact ⟨rfl, rfl, .inl rfl⟩
  · exact ⟨rfl, rfl, .inr rfl⟩

theorem caseDefect_names {procedure : Procedure} {caseId : Str} {defect : Defect}
    (h : caseDefect cCases procedure caseId = some defect) :
    defect.reference = caseId ∧ defect.issue.subjectId = procedure.identifier ∧
      defect.kind = .unreturned := by
  obtain ⟨_, rfl⟩ := caseDefect_eq_some_iff.mp h
  exact ⟨rfl, rfl, rfl⟩

/-- The defects of a procedure name it, and none is about a missing reference. -/
theorem names_of_mem_procedureDefects
    (hnodup : (requirements.map Requirement.identifier).Nodup) {procedure : Procedure}
    {defect : Defect} (h : defect ∈ procedureDefects requirements cCases procedure) :
    defect.issue.subjectId = procedure.identifier ∧
      defect.kind ≠ .unmapped ∧ defect.kind ≠ .unreferenced := by
  rcases List.mem_append.mp h with h | h
  · obtain ⟨_, _, h⟩ := List.mem_filterMap.mp h
    obtain ⟨_, hsubject, hkind⟩ := requirementDefect_names hnodup h
    rcases hkind with hkind | hkind <;> simp [hsubject, hkind]
  · obtain ⟨_, _, h⟩ := List.mem_filterMap.mp h
    obtain ⟨_, hsubject, hkind⟩ := caseDefect_names h
    simp [hsubject, hkind]

theorem nodup_procedureDefects (hnodup : (requirements.map Requirement.identifier).Nodup)
    {procedure : Procedure} (hrequirementIds : procedure.requirementIds.Nodup)
    (hcaseIds : procedure.caseIds.Nodup) :
    (procedureDefects requirements cCases procedure).Nodup := by
  rw [procedureDefects, List.nodup_append']
  refine ⟨hrequirementIds.filterMap ?_, hcaseIds.filterMap ?_, ?_⟩
  · intro first second defect hfirst hsecond
    rw [← (requirementDefect_names hnodup hfirst).1, (requirementDefect_names hnodup hsecond).1]
  · intro first second defect hfirst hsecond
    rw [← (caseDefect_names hfirst).1, (caseDefect_names hsecond).1]
  · rw [List.disjoint_left]
    intro defect hrequirement hcase
    obtain ⟨_, _, hrequirement⟩ := List.mem_filterMap.mp hrequirement
    obtain ⟨_, _, hcase⟩ := List.mem_filterMap.mp hcase
    obtain ⟨_, _, hkind⟩ := requirementDefect_names hnodup hrequirement
    obtain ⟨_, _, hother⟩ := caseDefect_names hcase
    rcases hkind with hkind | hkind <;> exact nomatch hkind.symm.trans hother

/-- The scan meets no defect twice. -/
theorem nodup_foundDefects (h : LoaderShape requirements procedures cCases) :
    (foundDefects requirements cCases procedures).Nodup := by
  have hunresolved (declared references : List Str) :
      (sortedBy id (unresolved declared references)).Nodup :=
    (perm_sortedBy id _).nodup_iff.mpr ((List.nodup_dedup declared).filter _)
  have hreferences : (procedures.flatMap (procedureDefects requirements cCases)).Nodup := by
    rw [List.nodup_flatMap]
    constructor
    · intro procedure hmem
      exact nodup_procedureDefects h.requirementIds (h.distinctRequirementIds procedure hmem)
        (h.distinctCaseIds procedure hmem)
    · have hdifferent := List.pairwise_map.mp h.procedureIds
      apply hdifferent.imp
      intro first second hne
      refine List.disjoint_left.mpr fun defect hfirst hsecond => hne ?_
      rw [← (names_of_mem_procedureDefects h.requirementIds hfirst).1,
        ← (names_of_mem_procedureDefects h.requirementIds hsecond).1]
  -- the three parts are of different kinds
  have hkind : ∀ defect ∈ procedures.flatMap (procedureDefects requirements cCases),
      defect.kind ≠ .unmapped ∧ defect.kind ≠ .unreferenced := by
    intro defect hmem
    obtain ⟨procedure, _, hmem⟩ := List.mem_flatMap.mp hmem
    exact (names_of_mem_procedureDefects h.requirementIds hmem).2
  rw [foundDefects, List.nodup_append', List.nodup_append']
  refine ⟨⟨hreferences, (hunresolved _ _).map ?_, ?_⟩, (hunresolved _ _).map ?_, ?_⟩
  · intro first second heq
    exact Defect.unmapped.inj heq
  · rw [List.disjoint_left]
    intro defect hmem hunmapped
    obtain ⟨_, _, rfl⟩ := List.mem_map.mp hunmapped
    exact (hkind _ hmem).1 rfl
  · intro first second heq
    exact Defect.unreferenced.inj heq
  · rw [List.disjoint_left]
    intro defect hmem hunreferenced
    obtain ⟨_, _, rfl⟩ := List.mem_map.mp hunreferenced
    rcases List.mem_append.mp hmem with hmem | hmem
    · exact (hkind _ hmem).2 rfl
    · obtain ⟨_, _, heq⟩ := List.mem_map.mp hmem
      cases heq

/-- Different defects have different findings. -/
theorem Defect.eq_of_issue_eq (hnodup : (procedures.map Procedure.identifier).Nodup)
    {first second : Defect} (hfirst : first.Present requirements procedures cCases)
    (hsecond : second.Present requirements procedures cCases)
    (h : first.issue = second.issue) : first = second := by
  have hkind : first.kind = second.kind := by
    apply DefectKind.code_injective
    rw [← first.code_issue, ← second.code_issue, h]
  have hsubject := congrArg Issue.subjectId h
  have hmessage := congrArg Issue.message h
  have hprocedure {procedure other : Procedure} (hmem : procedure ∈ procedures)
      (hother : other ∈ procedures) (hidentifier : procedure.identifier = other.identifier) :
      procedure = other := List.inj_on_of_nodup_map hnodup hmem hother hidentifier
  cases first with
  | undeclared procedure requirementId =>
      cases second with
      | undeclared other otherId =>
          obtain rfl := hprocedure hfirst.1 hsecond.1 hsubject
          rw [show requirementId = otherId by simpa [issue, unknownRequirement] using hmessage]
      | _ => cases hkind
  | forbiddenMethod procedure requirementId =>
      cases second with
      | forbiddenMethod other otherId =>
          obtain rfl := hprocedure hfirst.1 hsecond.1 hsubject
          rw [show requirementId = otherId by
            simpa [issue, verificationMethodMismatch] using hmessage]
      | _ => cases hkind
  | unreturned procedure caseId =>
      cases second with
      | unreturned other otherId =>
          obtain rfl := hprocedure hfirst.1 hsecond.1 hsubject
          rw [show caseId = otherId by simpa [issue, missingCCase] using hmessage]
      | _ => cases hkind
  | unmapped requirementId =>
      cases second with
      | unmapped otherId => exact congrArg Defect.unmapped hsubject
      | _ => cases hkind
  | unreferenced caseId =>
      cases second with
      | unreferenced otherId => exact congrArg Defect.unreferenced hsubject
      | _ => cases hkind

theorem Issue.orderKey_injective : Function.Injective Issue.orderKey := by
  intro first second h
  cases first
  cases second
  simp only [Issue.orderKey, EmbeddingLike.apply_eq_iff_eq, Prod.mk.injEq] at h
  obtain ⟨rfl, rfl, rfl⟩ := h
  rfl

/-- The findings are exactly the defects: strictly ordered by code, subject and
message, hence without repetition, and each reports one defect that is there
and is the only finding that does. It has the code of that kind of defects, its
subject, and a message that quotes the reference. -/
theorem traceabilityIssues_exact (requirements : List Requirement) (procedures : List Procedure)
    (cCases : List CCaseResult) (h : LoaderShape requirements procedures cCases) :
    let issues := traceabilityIssues requirements procedures cCases
    issues.Pairwise (fun a b => a.orderKey < b.orderKey) ∧ issues.Nodup ∧
    (∀ issue, issue ∈ issues ↔
      ∃ defect : Defect, defect.Present requirements procedures cCases ∧ defect.issue = issue) ∧
    (∀ first second : Defect, first.Present requirements procedures cCases →
      second.Present requirements procedures cCases → first.issue = second.issue →
      first = second) ∧
    ∀ defect : Defect, defect.issue.code = defect.kind.code ∧
      defect.issue.subjectId = defect.subject ∧
      (str "'" ++ defect.reference ++ str "'") <:+: defect.issue.message := by
  intro issues
  have hissues : issues = sortedBy Issue.orderKey
      ((foundDefects requirements cCases procedures).map Defect.issue) := by
    rw [← foundIssues_eq, ← traceabilityIssues_eq]
  have hmem {defect : Defect} : defect ∈ foundDefects requirements cCases procedures ↔
      defect.Present requirements procedures cCases := mem_foundDefects_iff h.requirementIds
  have hinjective : ∀ first second : Defect, first.Present requirements procedures cCases →
      second.Present requirements procedures cCases → first.issue = second.issue →
      first = second := by
    intro first second hfirst hsecond
    exact Defect.eq_of_issue_eq h.procedureIds hfirst hsecond
  have hnodup : issues.Nodup := by
    rw [hissues, (perm_sortedBy Issue.orderKey _).nodup_iff]
    apply (nodup_foundDefects h).map_on
    intro first hfirst second hsecond
    exact hinjective first second (hmem.mp hfirst) (hmem.mp hsecond)
  have hsorted : issues.Pairwise (fun a b => a.orderKey ≤ b.orderKey) := by
    rw [hissues]
    exact List.pairwise_insertionSort (fun a b : Issue => a.orderKey ≤ b.orderKey) _
  refine ⟨?_, hnodup, ?_, hinjective,
    fun defect => ⟨defect.code_issue, defect.subjectId_issue, defect.reference_infix⟩⟩
  · apply (hsorted.and hnodup).imp
    rintro a b ⟨hle, hne⟩
    exact lt_of_le_of_ne hle (fun heq => hne (Issue.orderKey_injective heq))
  · intro issue
    rw [hissues, mem_sortedBy, List.mem_map]
    simp only [hmem]

/-- A requirement that no procedure references beside one that has a procedure. -/
theorem traceabilityIssues_exact_unmapped :
    ∃ issue ∈ traceabilityIssues
      [⟨str "REQ-A", str "Title", str "Statement", []⟩,
        ⟨str "REQ-B", str "Title", str "Statement", []⟩]
      [⟨str "QTP", str "Title", [str "REQ-A"], [str "TC"], str "test"⟩]
      [⟨str "TC", str "Name", .pass, []⟩],
      issue.code = str "UNMAPPED_REQUIREMENT" ∧ issue.subjectId = str "REQ-B" := by
  obtain ⟨_, _, hmem, _, hreports⟩ := traceabilityIssues_exact
    [⟨str "REQ-A", str "Title", str "Statement", []⟩,
      ⟨str "REQ-B", str "Title", str "Statement", []⟩]
    [⟨str "QTP", str "Title", [str "REQ-A"], [str "TC"], str "test"⟩]
    [⟨str "TC", str "Name", .pass, []⟩]
    ⟨⟨by decide, by decide, by decide, by decide⟩, by decide, by decide⟩
  obtain ⟨hcode, hsubject, _⟩ := hreports (.unmapped (str "REQ-B"))
  exact ⟨_, (hmem _).mpr ⟨.unmapped (str "REQ-B"), ⟨by decide, by decide⟩, rfl⟩, hcode, hsubject⟩

/-- Accepted documents have the shape in which the scan is exact. -/
theorem Validated.loaderShape {runtime : Runtime} {R P C : Json} {evidence : Evidence}
    (h : Validated runtime R P C evidence) :
    LoaderShape evidence.requirements evidence.procedures evidence.cCases := by
  obtain ⟨_, _, hprocedures⟩ := bind_eq_ok_iff.mp h.procedures
  obtain ⟨_, _, hprocedures⟩ := bind_eq_ok_iff.mp hprocedures
  obtain ⟨_, _, hcCases⟩ := bind_eq_ok_iff.mp h.cCases
  have hreferences {procedure : Procedure} (hmem : procedure ∈ evidence.procedures) :
      (procedure.requirementIds ≠ [] ∧ procedure.requirementIds.Nodup) ∧
        procedure.caseIds ≠ [] ∧ procedure.caseIds.Nodup := by
    obtain ⟨_, _, haccepts⟩ := Contract.mem_of_load hprocedures hmem
    exact references_of_accepts runtime haccepts
  exact
    { requirementIds := h.requirementIds
      procedureIds := Contract.nodup_of_load hprocedures
      caseIds := Contract.nodup_of_load hcCases
      references := fun _ hmem => ⟨(hreferences hmem).1.1, (hreferences hmem).2.1⟩
      distinctRequirementIds := fun _ hmem => (hreferences hmem).1.2
      distinctCaseIds := fun _ hmem => (hreferences hmem).2.2 }

end Exact

end Esqh.Qualification
