import Esqh.Library.Collections
import Mathlib.Data.List.Perm.Basic

/-!
Loading a batch of records, each known by a key. Every record is read, a key
that was seen before is refused, and what is left is finished. All findings are
collected before the batch is accepted or rejected as a whole.
-/

namespace Batch

open Collections

variable {ρ β α κ ε : Type*}

/-- What rejects an input: some findings, never none. -/
structure Rejection (ε : Type*) where
  findings : List ε
  nonempty : findings ≠ []

abbrev Checked (ε α : Type*) := Except (Rejection ε) α

/-- A rejection for one reason. -/
def refuse (finding : ε) : Checked ε α := .error ⟨[finding], List.cons_ne_nil _ _⟩

/-- Accepts a value unless there are findings. -/
def settle (findings : List ε) (value : α) : Checked ε α :=
  if h : findings = [] then .ok value else .error ⟨findings, h⟩

theorem settle_eq_ok_iff {findings : List ε} {value value' : α} :
    settle findings value = .ok value' ↔ findings = [] ∧ value = value' := by
  unfold settle
  split
  next h => simp [h]
  next h => simp [h]

theorem findings_of_settle {findings : List ε} {value : α} {rejection : Rejection ε}
    (h : settle findings value = .error rejection) : rejection.findings = findings := by
  unfold settle at h
  split at h
  next => cases h
  next =>
    cases h
    rfl

/-- How the records of a batch are taken in. The place of a record in the batch
shows in the findings about it only. -/
structure Contract (ρ β α κ ε : Type*) where
  read : Nat → ρ → Checked ε β
  read_anywhere : ∀ {index : Nat} {record : ρ} {draft : β}, read index record = .ok draft →
    ∀ other, read other record = .ok draft
  draftKey : β → κ
  repeated : β → ε
  finish : β → Checked ε α
  key : α → κ
  key_of_finish : ∀ {draft : β} {result : α}, finish draft = .ok result →
    key result = draftKey draft
  nothing : ε

/-- The accumulators of a batch. -/
structure Progress (α κ ε : Type*) where
  results : List α
  findings : List ε
  seen : List κ

namespace Contract

variable [LinearOrder κ] (contract : Contract ρ β α κ ε)

def step (index : Nat) (record : ρ) (progress : Progress α κ ε) : Progress α κ ε :=
  match contract.read index record with
  | .error rejection => { progress with findings := progress.findings ++ rejection.findings }
  | .ok draft =>
    if contract.draftKey draft ∈ progress.seen then
      { progress with findings := progress.findings ++ [contract.repeated draft] }
    else
      let progress := { progress with seen := contract.draftKey draft :: progress.seen }
      match contract.finish draft with
      | .error rejection => { progress with findings := progress.findings ++ rejection.findings }
      | .ok result => { progress with results := progress.results ++ [result] }

/-- The records from an index on. -/
def scan : Nat → List ρ → Progress α κ ε → Progress α κ ε
  | _, [], progress => progress
  | index, record :: records, progress =>
    scan (index + 1) records (contract.step index record progress)

/-- The findings that a record adds. -/
def added (index : Nat) (record : ρ) (progress : Progress α κ ε) : List ε :=
  match contract.read index record with
  | .error rejection => rejection.findings
  | .ok draft =>
    if contract.draftKey draft ∈ progress.seen then [contract.repeated draft]
    else
      match contract.finish draft with
      | .error rejection => rejection.findings
      | .ok _ => []

/-- The findings that each of the records from an index on adds. -/
def contributions : Nat → List ρ → Progress α κ ε → List (List ε)
  | _, [], _ => []
  | index, record :: records, progress =>
    contract.added index record progress ::
      contributions (index + 1) records (contract.step index record progress)

/-- The batch by ascending key, unless it is empty or something was found. -/
def load (records : List ρ) : Checked ε (List α) :=
  let progress := contract.scan 0 records ⟨[], [], []⟩
  settle (progress.findings ++ if records.isEmpty then [contract.nothing] else [])
    (sortedBy contract.key progress.results)

/-- The record is fine on its own and becomes this result. -/
def Accepts (record : ρ) (result : α) : Prop :=
  ∃ draft, contract.read 0 record = .ok draft ∧ contract.finish draft = .ok result

variable {contract}

omit [LinearOrder κ] in
theorem Accepts.unique {record : ρ} {result other : α} (h : contract.Accepts record result)
    (hother : contract.Accepts record other) : result = other := by
  obtain ⟨draft, hread, hfinish⟩ := h
  obtain ⟨draft', hread', hfinish'⟩ := hother
  cases Except.ok.inj (hread.symm.trans hread')
  exact Except.ok.inj (hfinish.symm.trans hfinish')

/-- A record either adds its result under a new key or leaves a finding. -/
theorem step_cases (index : Nat) (record : ρ) (progress : Progress α κ ε) :
    (∃ result, contract.Accepts record result ∧ contract.key result ∉ progress.seen ∧
      contract.step index record progress =
        { progress with
          results := progress.results ++ [result]
          seen := contract.key result :: progress.seen }) ∨
    ((contract.step index record progress).findings ≠ [] ∧
      ∀ result, contract.Accepts record result → contract.key result ∈ progress.seen) := by
  unfold step
  cases hread : contract.read index record with
  | error rejection =>
      right
      refine ⟨by simp [rejection.nonempty], ?_⟩
      rintro result ⟨draft, hdraft, _⟩
      rw [contract.read_anywhere hdraft index] at hread
      cases hread
  | ok draft =>
      have hdraft := contract.read_anywhere hread 0
      simp only
      split
      next hseen =>
        right
        refine ⟨by simp, ?_⟩
        rintro result ⟨draft', hdraft', hfinish⟩
        cases Except.ok.inj (hdraft.symm.trans hdraft')
        rwa [contract.key_of_finish hfinish]
      next hseen =>
        cases hfinish : contract.finish draft with
        | error rejection =>
            right
            refine ⟨by simp [rejection.nonempty], ?_⟩
            rintro result ⟨draft', hdraft', hfinish'⟩
            cases Except.ok.inj (hdraft.symm.trans hdraft')
            rw [hfinish] at hfinish'
            cases hfinish'
        | ok result =>
            left
            refine ⟨result, ⟨draft, hdraft, hfinish⟩, ?_, ?_⟩
            · rwa [contract.key_of_finish hfinish]
            · simp only [contract.key_of_finish hfinish]

theorem step_findings (index : Nat) (record : ρ) {progress : Progress α κ ε}
    (h : progress.findings ≠ []) : (contract.step index record progress).findings ≠ [] := by
  rcases contract.step_cases index record progress with ⟨result, _, _, heq⟩ | ⟨hfindings, _⟩
  · rw [heq]
    exact h
  · exact hfindings

theorem scan_findings (index : Nat) (records : List ρ) {progress : Progress α κ ε}
    (h : progress.findings ≠ []) : (contract.scan index records progress).findings ≠ [] := by
  induction records generalizing index progress with
  | nil => exact h
  | cons record records ih => exact ih (index + 1) (step_findings index record h)

omit [LinearOrder κ] in
/-- New keys that are pairwise distinct, one at a time. -/
theorem fresh_cons_iff {key : α → κ} {result : α} {results : List α} {seen : List κ} :
    ((result :: results).map key).Nodup ∧ (∀ other ∈ result :: results, key other ∉ seen) ↔
      key result ∉ seen ∧ (results.map key).Nodup ∧
        ∀ other ∈ results, key other ∉ key result :: seen := by
  rw [List.map_cons, List.nodup_cons, List.forall_mem_cons]
  constructor
  · rintro ⟨⟨hhead, hnodup⟩, hfresh, hrest⟩
    refine ⟨hfresh, hnodup, fun other hother hseen => ?_⟩
    rcases List.mem_cons.mp hseen with hkey | hold
    · exact hhead (List.mem_map.mpr ⟨other, hother, hkey⟩)
    · exact hrest other hother hold
  · rintro ⟨hfresh, hnodup, hrest⟩
    refine ⟨⟨fun hmem => ?_, hnodup⟩, hfresh, fun other hother hseen => ?_⟩
    · obtain ⟨other, hother, hkey⟩ := List.mem_map.mp hmem
      exact hrest other hother (by simp [hkey])
    · exact hrest other hother (List.mem_cons_of_mem _ hseen)

/-- Records pass without a finding exactly if each one is fine on its own and
no key occurs twice. -/
theorem scan_clean_iff (index : Nat) (records : List ρ) {progress : Progress α κ ε}
    (h : progress.findings = []) (loaded : List α) :
    (contract.scan index records progress).findings = [] ∧
        (contract.scan index records progress).results = loaded ↔
      ∃ results, List.Forall₂ contract.Accepts records results ∧
        (results.map contract.key).Nodup ∧
        (∀ result ∈ results, contract.key result ∉ progress.seen) ∧
        loaded = progress.results ++ results := by
  induction records generalizing index progress with
  | nil =>
      constructor
      · rintro ⟨_, rfl⟩
        exact ⟨[], .nil, List.nodup_nil, by simp, (List.append_nil _).symm⟩
      · rintro ⟨results, hresults, _, _, rfl⟩
        cases hresults
        exact ⟨h, (List.append_nil _).symm⟩
  | cons record records ih =>
      rw [scan]
      rcases contract.step_cases index record progress with
        ⟨result, haccepts, hfresh, heq⟩ | ⟨hfindings, hknown⟩
      · rw [heq, ih (index + 1)]
        swap
        · exact h
        constructor
        · rintro ⟨results, hresults, hnodup, hunseen, rfl⟩
          obtain ⟨hnodup', hunseen'⟩ := fresh_cons_iff.mpr ⟨hfresh, hnodup, hunseen⟩
          exact ⟨result :: results, .cons haccepts hresults, hnodup', hunseen', by simp⟩
        · rintro ⟨results, hresults, hnodup, hunseen, rfl⟩
          cases hresults with
          | @cons _ head _ rest hhead hrest =>
              cases haccepts.unique hhead
              obtain ⟨_, hnodup', hunseen'⟩ := fresh_cons_iff.mp ⟨hnodup, hunseen⟩
              exact ⟨rest, hrest, hnodup', hunseen', by simp⟩
      · constructor
        · rintro ⟨hclean, _⟩
          exact absurd hclean (scan_findings (index + 1) records hfindings)
        · rintro ⟨results, hresults, _, hunseen, _⟩
          cases hresults with
          | @cons _ head _ rest hhead _ =>
              exact absurd (hknown head hhead) (hunseen head (by simp))

/-- A batch loads exactly if it is not empty, each record is fine on its own
and no key occurs twice. -/
theorem load_eq_ok_iff {records : List ρ} {loaded : List α} :
    contract.load records = .ok loaded ↔
      records ≠ [] ∧ ∃ results, List.Forall₂ contract.Accepts records results ∧
        (results.map contract.key).Nodup ∧ loaded = sortedBy contract.key results := by
  have hstart : (⟨[], [], []⟩ : Progress α κ ε).findings = [] := rfl
  have hclean := contract.scan_clean_iff 0 records hstart
  rw [load, settle_eq_ok_iff, List.append_eq_nil_iff]
  constructor
  · rintro ⟨⟨hfindings, hempty⟩, rfl⟩
    obtain ⟨results, hresults, hnodup, _, heq⟩ := (hclean _).mp ⟨hfindings, rfl⟩
    refine ⟨?_, results, hresults, hnodup, by rw [heq, List.nil_append]⟩
    rintro rfl
    simp at hempty
  · rintro ⟨hrecords, results, hresults, hnodup, rfl⟩
    obtain ⟨hfindings, heq⟩ := (hclean results).mpr ⟨results, hresults, hnodup, by simp, rfl⟩
    exact ⟨⟨hfindings, by simp [hrecords]⟩, by rw [heq]⟩

theorem step_findings_eq (index : Nat) (record : ρ) (progress : Progress α κ ε) :
    (contract.step index record progress).findings =
      progress.findings ++ contract.added index record progress := by
  unfold step added
  cases contract.read index record with
  | error rejection => rfl
  | ok draft =>
      simp only
      split
      next => rfl
      next =>
        cases contract.finish draft with
        | error rejection => rfl
        | ok result => exact (List.append_nil _).symm

theorem scan_findings_eq (index : Nat) (records : List ρ) (progress : Progress α κ ε) :
    (contract.scan index records progress).findings =
      progress.findings ++ (contract.contributions index records progress).flatten := by
  induction records generalizing index progress with
  | nil => exact (List.append_nil _).symm
  | cons record records ih =>
      rw [scan, ih, step_findings_eq, contributions, List.flatten_cons, List.append_assoc]

/-- The findings of a rejected batch are those that its records add, in their
order, and that it is empty. -/
theorem findings_of_load {records : List ρ} {rejection : Rejection ε}
    (h : contract.load records = .error rejection) :
    rejection.findings = (contract.contributions 0 records ⟨[], [], []⟩).flatten ++
      if records.isEmpty then [contract.nothing] else [] := by
  rw [findings_of_settle h, scan_findings_eq, List.nil_append]

/-- A record that is not fine on its own adds a finding, whatever precedes it. -/
theorem added_ne_nil {record : ρ} (h : ∀ result, ¬contract.Accepts record result) (index : Nat)
    (progress : Progress α κ ε) : contract.added index record progress ≠ [] := by
  unfold added
  cases hread : contract.read index record with
  | error rejection => exact rejection.nonempty
  | ok draft =>
      simp only
      split
      next => exact List.cons_ne_nil _ _
      next =>
        cases hfinish : contract.finish draft with
        | error rejection => exact rejection.nonempty
        | ok result => exact absurd ⟨draft, contract.read_anywhere hread 0, hfinish⟩ (h result)

theorem forall₂_contributions (index : Nat) (records : List ρ) (progress : Progress α κ ε) :
    List.Forall₂ (fun record found => (∀ result, ¬contract.Accepts record result) → found ≠ [])
      records (contract.contributions index records progress) := by
  induction records generalizing index progress with
  | nil => exact .nil
  | cons record records ih => exact .cons (fun h => added_ne_nil h index progress) (ih _ _)

section Rejected

omit [LinearOrder κ] in
theorem exists_results {records : List ρ}
    (h : ∀ record ∈ records, ∃ result, contract.Accepts record result) :
    ∃ results, List.Forall₂ contract.Accepts records results := by
  induction records with
  | nil => exact ⟨[], .nil⟩
  | cons record records ih =>
      obtain ⟨result, hresult⟩ := h record List.mem_cons_self
      obtain ⟨results, hresults⟩ := ih fun other hother => h other (List.mem_cons_of_mem _ hother)
      exact ⟨result :: results, .cons hresult hresults⟩

/-- Two different records that are fine on their own have the same key. -/
def Repeats (contract : Contract ρ β α κ ε) (records : List ρ) : Prop :=
  ∃ (i j : Nat) (first second : α), i < j ∧
    (∃ record, records[i]? = some record ∧ contract.Accepts record first) ∧
    (∃ record, records[j]? = some record ∧ contract.Accepts record second) ∧
    contract.key first = contract.key second

omit [LinearOrder κ] in
theorem repeats_iff {records : List ρ} {results : List α}
    (h : List.Forall₂ contract.Accepts records results) :
    contract.Repeats records ↔ ¬(results.map contract.key).Nodup := by
  have hlength := h.length_eq
  rw [List.nodup_iff_getElem?_ne_getElem?]
  simp only [not_forall, not_not, List.getElem?_map, List.length_map]
  constructor
  · rintro ⟨i, j, first, second, hlt, ⟨record, hi, hfirst⟩, ⟨other, hj, hsecond⟩, hkey⟩
    obtain ⟨hi', rfl⟩ := List.getElem?_eq_some_iff.mp hi
    obtain ⟨hj', rfl⟩ := List.getElem?_eq_some_iff.mp hj
    have hfirst' := h.get hi' (hlength ▸ hi')
    have hsecond' := h.get hj' (hlength ▸ hj')
    refine ⟨i, j, hlt, hlength ▸ hj', ?_⟩
    rw [List.getElem?_eq_getElem (hlength ▸ hi'), List.getElem?_eq_getElem (hlength ▸ hj')]
    cases hfirst.unique hfirst'
    cases hsecond.unique hsecond'
    exact congrArg some hkey
  · rintro ⟨i, j, hlt, hj, hkey⟩
    have hi : i < results.length := hlt.trans hj
    rw [List.getElem?_eq_getElem hi, List.getElem?_eq_getElem hj] at hkey
    refine ⟨i, j, results[i], results[j], hlt, ⟨records[i], ?_, ?_⟩, ⟨records[j], ?_, ?_⟩,
      Option.some.inj hkey⟩
    · exact List.getElem?_eq_getElem (hlength ▸ hi)
    · exact h.get (hlength ▸ hi) hi
    · exact List.getElem?_eq_getElem (hlength ▸ hj)
    · exact h.get (hlength ▸ hj) hj

/-- A batch is rejected exactly if it is empty, a record is not fine on its own
or two that are have the same key. -/
theorem load_eq_error_iff {records : List ρ} :
    (∃ rejection, contract.load records = .error rejection) ↔
      records = [] ∨ (∃ record ∈ records, ∀ result, ¬contract.Accepts record result) ∨
        contract.Repeats records := by
  have hnot : (∃ rejection, contract.load records = .error rejection) ↔
      ¬∃ loaded, contract.load records = .ok loaded := by
    cases contract.load records with
    | error rejection => simp
    | ok loaded => simp
  rw [hnot]
  simp only [load_eq_ok_iff]
  by_cases hall : ∀ record ∈ records, ∃ result, contract.Accepts record result
  · obtain ⟨results, hresults⟩ := exists_results hall
    rw [repeats_iff hresults]
    constructor
    · intro hrejected
      by_cases hempty : records = []
      · exact .inl hempty
      · refine .inr (.inr fun hnodup => hrejected ?_)
        exact ⟨_, hempty, results, hresults, hnodup, rfl⟩
    · rintro hrejected ⟨loaded, hnonempty, others, hothers, hnodup, -⟩
      rcases hrejected with hempty | ⟨record, hmem, hbad⟩ | hrepeated
      · exact hnonempty hempty
      · obtain ⟨result, hresult⟩ := hall record hmem
        exact hbad result hresult
      · exact (repeats_iff hothers).mp ((repeats_iff hresults).mpr hrepeated) hnodup
  · apply iff_of_true
    · rintro ⟨loaded, hnonempty, results, hresults, -⟩
      apply hall
      intro record hmem
      obtain ⟨i, hi, rfl⟩ := List.getElem_of_mem hmem
      exact ⟨_, hresults.get hi (hresults.length_eq ▸ hi)⟩
    · simp only [not_forall, not_exists] at hall
      obtain ⟨record, hmem, hbad⟩ := hall
      exact .inr (.inl ⟨record, hmem, hbad⟩)

end Rejected

section Loaded

variable {records : List ρ} {loaded : List α}

theorem nodup_of_load (h : contract.load records = .ok loaded) :
    (loaded.map contract.key).Nodup := by
  obtain ⟨_, results, _, hnodup, rfl⟩ := load_eq_ok_iff.mp h
  exact ((perm_sortedBy contract.key results).map contract.key).nodup_iff.mpr hnodup

/-- What is loaded has strictly ascending keys. -/
theorem pairwise_lt_of_load (h : contract.load records = .ok loaded) :
    (loaded.map contract.key).Pairwise (· < ·) := by
  obtain ⟨_, results, _, hnodup, rfl⟩ := load_eq_ok_iff.mp h
  exact map_sortedBy_pairwise_lt contract.key hnodup

theorem accepted_of_load (h : contract.load records = .ok loaded) {record : ρ}
    (hmem : record ∈ records) : ∃ result ∈ loaded, contract.Accepts record result := by
  obtain ⟨_, results, hresults, _, rfl⟩ := load_eq_ok_iff.mp h
  obtain ⟨index, hindex, rfl⟩ := List.getElem_of_mem hmem
  have hlength : index < results.length := hresults.length_eq ▸ hindex
  refine ⟨results[index], ?_, hresults.get hindex hlength⟩
  exact (mem_sortedBy contract.key).mpr (List.getElem_mem hlength)

/-- What is loaded comes from a record of the batch. -/
theorem mem_of_load (h : contract.load records = .ok loaded) {result : α}
    (hmem : result ∈ loaded) : ∃ record ∈ records, contract.Accepts record result := by
  obtain ⟨_, results, hresults, _, rfl⟩ := load_eq_ok_iff.mp h
  obtain ⟨index, hindex, rfl⟩ := List.getElem_of_mem ((mem_sortedBy contract.key).mp hmem)
  have hlength : index < records.length := hresults.length_eq ▸ hindex
  exact ⟨records[index], List.getElem_mem hlength, hresults.get hlength hindex⟩

/-- A loaded batch does not depend on the order of its records, nor on what
their acceptance does not depend on. -/
theorem load_of_reordered {R : ρ → ρ → Prop}
    (haccepts : ∀ {record other}, R record other → ∀ {result}, contract.Accepts record result →
      contract.Accepts other result)
    {middle others : List ρ} (hchanged : List.Forall₂ R records middle)
    (hperm : middle.Perm others) (h : contract.load records = .ok loaded) :
    contract.load others = .ok loaded := by
  obtain ⟨hrecords, results, hresults, hnodup, rfl⟩ := load_eq_ok_iff.mp h
  have hmiddle : List.Forall₂ contract.Accepts middle results := by
    clear hrecords hnodup hperm h
    induction hchanged generalizing results with
    | nil => exact hresults
    | cons hhead _ ih =>
        cases hresults with
        | cons hfirst hrest => exact .cons (haccepts hhead hfirst) (ih _ hrest)
  obtain ⟨sorted, hsorted, hsame⟩ := List.perm_comp_forall₂ hperm.symm hmiddle
  refine load_eq_ok_iff.mpr ⟨?_, sorted, hsorted, ?_, ?_⟩
  · rintro rfl
    rw [List.perm_nil.mp hperm, List.forall₂_nil_right_iff] at hchanged
    exact hrecords hchanged
  · exact (hsame.map contract.key).nodup_iff.mpr hnodup
  · exact sortedBy_eq_of_perm contract.key hsame.symm fun a ha b hb =>
      List.inj_on_of_nodup_map hnodup ha hb

/-- The same in both directions, where acceptance is the same. -/
theorem load_reordered_iff {R : ρ → ρ → Prop}
    (haccepts : ∀ {record other}, R record other → ∀ result,
      contract.Accepts record result ↔ contract.Accepts other result)
    {middle others : List ρ} (hchanged : List.Forall₂ R records middle)
    (hperm : middle.Perm others) :
    contract.load records = .ok loaded ↔ contract.load others = .ok loaded := by
  constructor
  · intro h
    exact load_of_reordered (fun hrelated => (haccepts hrelated _).mp) hchanged hperm h
  · intro h
    obtain ⟨back, hback, hsame⟩ := List.perm_comp_forall₂ hperm.symm hchanged.flip
    exact load_of_reordered (fun hrelated => (haccepts hrelated _).mpr) hback hsame h

end Loaded

end Contract

end Batch
