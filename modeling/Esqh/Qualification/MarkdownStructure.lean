import Esqh.Library.LinesAndCells
import Esqh.Qualification.Gates

/-!
The lines and columns of the Markdown document. Each row and each finding is one
line, and each row has the columns of its table, exactly if the texts of the
inputs fit: the document escapes the names and messages of C cases only, and in
them line feeds and separators only.
-/

namespace Esqh.Qualification

open Collections Layout Outcome

/-- The line boundaries of `str.splitlines`. -/
def lineBoundaries : List CodePoint := [10, 11, 12, 13, 28, 29, 30, 0x85, 0x2028, 0x2029]

/-- The line ends that a reader of the document knows: line feeds, and of the
other boundaries any. -/
structure LineEnds extends Ends CodePoint where
  feed_eq : feed = lineFeed
  carriage_eq : carriage = carriageReturn
  boundary : ∀ point, isEnd point → point ∈ lineBoundaries

/-- The separators of a line that no backslash escapes. -/
def columns (text : Str) : Nat := separators 92 124 text

/-- The separators of a text that a backslash escapes. -/
def escapedColumns (text : Str) : Nat := escapedSeparators 92 124 text

def isResultLine (line : Str) : Bool := (str "**Host-only result:** ").isPrefixOf line

/-- The document has the lines of the template and no other, one of them with a
result, and the lines of each table have its columns. -/
structure Structured (ends : LineEnds) (report : Report) : Prop where
  lines : split ends.toEnds (renderMarkdown report) = markdownLines report
  result : (split ends.toEnds (renderMarkdown report)).filter isResultLine =
    [str "**Host-only result:** " ++ report.result.text]
  traceability : ∀ line ∈ linesOr traceabilityLine report.traceability
      "| — | — | — | INCOMPLETE |",
    columns line = columns (str "| Requirement | Procedures | C cases | Host case status |")
  procedures : ∀ line ∈ linesOr procedureLine report.procedures
      "| — | — | — | — | INCOMPLETE |",
    columns line = columns
      (str "| Procedure | Verification method | Requirements | C cases | Host case status |")
  cCases : ∀ line ∈ linesOr caseLine report.cCases
      "| — | — | INCOMPLETE | No C results available |",
    columns line = columns (str "| Case | Name | Status | Message |")

section Conditions

/-- No line ends. -/
def LineEnds.Absent (ends : LineEnds) (text : Str) : Prop :=
  EveryPoint (fun point => ends.isEnd point = false) text

/-- No line ends but line feeds. -/
def LineEnds.FeedsOnly (ends : LineEnds) (text : Str) : Prop :=
  EveryPoint (fun point => point = lineFeed ∨ ends.isEnd point = false) text

/-- The texts of the evidence stay on one line. -/
structure Evidence.FitsLines (ends : LineEnds) (evidence : Evidence) : Prop where
  metadata : ends.Absent evidence.metadata.project ∧ ends.Absent evidence.metadata.version ∧
    ends.Absent evidence.metadata.baseline
  requirements : ∀ requirement ∈ evidence.requirements, ends.Absent requirement.identifier
  procedures : ∀ procedure ∈ evidence.procedures, ends.Absent procedure.identifier ∧
    (∀ requirementId ∈ procedure.requirementIds, ends.Absent requirementId) ∧
      ∀ caseId ∈ procedure.caseIds, ends.Absent caseId
  cCases : ∀ case ∈ evidence.cCases, ends.Absent case.identifier ∧
    ends.FeedsOnly case.name ∧ ends.FeedsOnly case.message

/-- The texts of the evidence stay in one column: identifiers have no separator
that counts, and names and messages none that the escape would free. -/
structure Evidence.FitsColumns (evidence : Evidence) : Prop where
  requirements : ∀ requirement ∈ evidence.requirements, columns requirement.identifier = 0
  procedures : ∀ procedure ∈ evidence.procedures, columns procedure.identifier = 0 ∧
    (∀ requirementId ∈ procedure.requirementIds, columns requirementId = 0) ∧
      ∀ caseId ∈ procedure.caseIds, columns caseId = 0
  cCases : ∀ case ∈ evidence.cCases, columns case.identifier = 0 ∧
    escapedColumns case.name = 0 ∧ escapedColumns case.message = 0

end Conditions

section Methods

variable {runtime : Runtime} {R P C : Json} {evidence : Evidence}

/-- The methods of accepted procedures are those of the table. -/
theorem Validated.verificationMethod (h : Validated runtime R P C evidence) {procedure : Procedure}
    (hmem : procedure ∈ evidence.procedures) :
    procedure.verificationMethod ∈ verificationMethods.map Prod.snd := by
  obtain ⟨_, _, hprocedures⟩ := bind_eq_ok_iff.mp h.procedures
  obtain ⟨_, _, hprocedures⟩ := bind_eq_ok_iff.mp hprocedures
  obtain ⟨_, _, haccepts⟩ := Batch.Contract.mem_of_load hprocedures hmem
  obtain ⟨draft, _, hfinish⟩ := haccepts
  simp only [procedureContract, finishProcedure] at hfinish
  split at hfinish
  · cases hfinish
  next method hmethod =>
      cases hfinish
      obtain ⟨_, _, htable, _⟩ := List.lookup_eq_some_iff.mp hmethod
      rw [htable]
      simp

end Methods

section Lines

variable (ends : LineEnds)

theorem LineEnds.absent_plain : HoldsOfPlain fun point => ends.isEnd point = false := by
  intro character hplain
  by_contra hend
  have hboundary := ends.boundary _ (Bool.eq_true_of_not_eq_false hend)
  simp only [Plain, decide_eq_true_eq] at hplain
  simp only [lineBoundaries, List.mem_cons, List.not_mem_nil, or_false, Fin.ext_iff,
    val_ofNat_toNat] at hboundary
  omega

theorem renderMarkdown_eq_terminate (report : Report) :
    renderMarkdown report = terminate ends.toEnds (markdownLines report) := by
  have hfeed : str "\n" = [ends.feed] := by
    rw [ends.feed_eq]
    rfl
  have hne : markdownLines report ≠ [] := by simp [markdownLines]
  rw [renderMarkdown, join, hfeed]
  exact intercalate_append_feed hne

theorem LineEnds.feed_ne_carriage : ends.feed ≠ ends.carriage := by
  rw [ends.feed_eq, ends.carriage_eq]
  decide

theorem split_renderMarkdown_iff (report : Report) :
    split ends.toEnds (renderMarkdown report) = markdownLines report ↔
      ∀ line ∈ markdownLines report, ends.Absent line := by
  rw [renderMarkdown_eq_terminate ends]
  exact split_terminate_iff ends.feed_ne_carriage (markdownLines report)

theorem LineEnds.absent_verificationMethods :
    ∀ method ∈ verificationMethods.map Prod.snd, ends.Absent method := by
  simp (disch := decide) [verificationMethods, LineEnds.Absent, everyPoint_str ends.absent_plain]

/-- The findings name what fits on a line. -/
theorem Evidence.FitsLines.absent_issues {ends : LineEnds} {evidence : Evidence}
    (h : evidence.FitsLines ends)
    (hmethods : ∀ procedure ∈ evidence.procedures, ends.Absent procedure.verificationMethod) :
    ∀ issue ∈ evidence.report.issues, ends.Absent (issueLine issue) := by
  have hplain := ends.absent_plain
  refine List.forall_mem_map.mpr fun issue hissue => ?_
  obtain ⟨hcode, hmessage, hsubject⟩ := everyPoint_of_mem_allIssues hplain h.requirements
    (fun procedure hp => ⟨(h.procedures procedure hp).1, hmethods procedure hp,
      (h.procedures procedure hp).2⟩)
    (fun case hcase => (h.cCases case hcase).1) _ issue (mem_of_mem_orderIssues hissue)
  refine (everyPoint_issueLine hplain _).mpr ⟨hcode, ?_, hmessage⟩
  intro subjectId hfound
  simp only [Issue.asDict] at hfound
  split at hfound
  · cases hfound
  · cases hfound
    exact hsubject

theorem Evidence.fitsLines_of_absent {evidence : Evidence}
    (h : ∀ line ∈ markdownLines evidence.report, ends.Absent line) :
    evidence.FitsLines ends := by
  have hplain := ends.absent_plain
  have hstandard : evidence.report.Standard := ⟨rfl, rfl⟩
  obtain ⟨⟨hproject, hversion, hbaseline⟩, htraceability, hprocedures, hcases, _⟩ :=
    (everyPoint_markdownLines hplain hstandard).mp h
  exact
    { metadata := ⟨hproject _ rfl, hversion _ rfl, hbaseline _ rfl⟩
      requirements := fun requirement hmem =>
        ((everyPoint_traceabilityLine hplain _).mp
          (htraceability _ (List.mem_map_of_mem hmem))).1
      procedures := by
        intro procedure hmem
        obtain ⟨hid, _, hreferences⟩ := (everyPoint_procedureLine hplain _).mp
          (hprocedures _ (List.mem_map_of_mem hmem))
        exact ⟨hid, hreferences⟩
      cCases := fun case hmem =>
        (everyPoint_caseLine hplain _).mp (hcases _ (List.mem_map_of_mem hmem)) }

theorem Evidence.FitsLines.absent {ends : LineEnds} {evidence : Evidence}
    (h : evidence.FitsLines ends)
    (hmethods : ∀ procedure ∈ evidence.procedures, ends.Absent procedure.verificationMethod) :
    ∀ line ∈ markdownLines evidence.report, ends.Absent line := by
  have hplain := ends.absent_plain
  have hstandard : evidence.report.Standard := ⟨rfl, rfl⟩
  apply (everyPoint_markdownLines hplain hstandard).mpr
  refine ⟨⟨?_, ?_, ?_⟩, ?_, ?_, ?_, h.absent_issues hmethods⟩
  · rintro _ ⟨⟩
    exact h.metadata.1
  · rintro _ ⟨⟩
    exact h.metadata.2.1
  · rintro _ ⟨⟩
    exact h.metadata.2.2
  · refine List.forall_mem_map.mpr fun requirement hmem => ?_
    apply (everyPoint_traceabilityLine hplain _).mpr
    exact ⟨h.requirements requirement hmem, forall_mem_traceabilityRow
      (fun procedure hp => (h.procedures procedure hp).1)
      (fun procedure hp => (h.procedures procedure hp).2.2) _ requirement⟩
  · refine List.forall_mem_map.mpr fun procedure hmem => ?_
    obtain ⟨hid, hreferences⟩ := h.procedures procedure hmem
    exact (everyPoint_procedureLine hplain _).mpr ⟨hid, hmethods procedure hmem, hreferences⟩
  · exact List.forall_mem_map.mpr fun case hmem =>
      (everyPoint_caseLine hplain _).mpr (h.cCases case hmem)

/-- Every line of the document is one exactly if the evidence fits. -/
theorem Evidence.absent_markdownLines_iff {evidence : Evidence}
    (hmethods : ∀ procedure ∈ evidence.procedures, ends.Absent procedure.verificationMethod) :
    (∀ line ∈ markdownLines evidence.report, ends.Absent line) ↔ evidence.FitsLines ends := by
  constructor
  · exact evidence.fitsLines_of_absent ends
  · intro h
    exact h.absent hmethods

end Lines

section Results

theorem filter_linesOr {α : Type} (line : α → Str) (rows : List α) (other : String)
    (h : ∀ row, isResultLine (line row) = false) (hother : isResultLine (str other) = false) :
    (linesOr line rows other).filter isResultLine = [] := by
  simp only [List.filter_eq_nil_iff, Bool.not_eq_true]
  exact (forall_mem_linesOr line rows hother).mpr fun row _ => h row

/-- One line of the template states a result. -/
theorem filter_markdownLines (report : Report) :
    (markdownLines report).filter isResultLine =
      [str "**Host-only result:** " ++ report.result.text] := by
  unfold markdownLines
  rw [List.filter_append, List.filter_append, List.filter_append, List.filter_append,
    List.filter_append, List.filter_append, List.filter_append,
    filter_linesOr traceabilityLine _ _ (fun _ => rfl) rfl,
    filter_linesOr procedureLine _ _ (fun _ => rfl) rfl,
    filter_linesOr caseLine _ _ (fun _ => rfl) rfl,
    filter_linesOr issueLine _ _ (fun _ => rfl) rfl]
  rfl

end Results

section Columns

theorem blank_neutral : Neutral (92 : CodePoint) 124 32 := by
  unfold Neutral
  decide

theorem lineFeed_neutral : Neutral (92 : CodePoint) 124 lineFeed := by
  unfold Neutral
  decide

theorem comma_neutral : Neutral (92 : CodePoint) 124 44 := by
  unfold Neutral
  decide

theorem pipe_ne_backslash : (124 : CodePoint) ≠ 92 := by decide

theorem replace_pipe (text : Str) :
    replace 124 (str "\\|") text = escapeSeparators 92 124 text := by
  have hescaped : str "\\|" = [92, 124] := rfl
  rw [replace, hescaped, escapeSeparators]

theorem replace_feed (text : Str) : replace lineFeed (str " ") text =
    text.map fun point => if point = lineFeed then 32 else point := by
  have hblank : (fun point => if point = lineFeed then str " " else [point]) =
      fun point : CodePoint => [if point = lineFeed then 32 else point] := by
    funext point
    split <;> rfl
  rw [replace, hblank, List.map_eq_flatMap]

/-- Of the separators of a cell those count that were escaped before. -/
theorem columns_safeCell (text : Str) : columns (safeCell text) = escapedColumns text := by
  rw [safeCell, replace_feed, replace_pipe, columns, separators, separatorsFrom_map]
  · exact separators_escapeSeparators pipe_ne_backslash text
  · intro point
    split
    next hfeed =>
        rw [hfeed]
        exact .inr ⟨lineFeed_neutral, blank_neutral⟩
    next => exact .inl rfl

theorem columns_tableRow {cells : List Str} (h : cells ≠ []) :
    columns (tableRow cells) = cells.length + 1 + (cells.map columns).sum :=
  separators_row blank_neutral pipe_ne_backslash h

theorem columns_commas_eq_zero_iff (texts : List Str) :
    columns (join (str ", ") texts) = 0 ↔ ∀ text ∈ texts, columns text = 0 := by
  have hsum : columns (join (str ", ") texts) = (texts.map columns).sum :=
    separators_intercalate blank_neutral comma_neutral texts
  rw [hsum, List.sum_eq_zero_iff_forall_eq_nat, List.forall_mem_map]

theorem columns_orElse (text : Str) : columns (orElse text "—") = columns text := by
  unfold orElse
  split
  next hempty =>
      rw [hempty]
      rfl
  next => rfl

theorem columns_caseStatus (status : CaseStatus) : columns status.text = 0 := by
  cases status <;> rfl

theorem columns_traceabilityLine_iff (row : TraceabilityRow) :
    columns (traceabilityLine row) =
        columns (str "| Requirement | Procedures | C cases | Host case status |") ↔
      columns row.requirementId = 0 ∧ (∀ procedureId ∈ row.procedureIds, columns procedureId = 0) ∧
        ∀ caseId ∈ row.caseIds, columns caseId = 0 := by
  have hheader : columns (str "| Requirement | Procedures | C cases | Host case status |") = 5 :=
    rfl
  rw [traceabilityLine, columns_tableRow (List.cons_ne_nil _ _), hheader]
  simp [columns_orElse, columns_commas_eq_zero_iff, columns_caseStatus]

theorem columns_procedureLine_iff {row : ProcedureRow}
    (hmethod : columns row.verificationMethod = 0) :
    columns (procedureLine row) = columns
        (str "| Procedure | Verification method | Requirements | C cases | Host case status |") ↔
      columns row.id = 0 ∧ (∀ requirementId ∈ row.requirementIds, columns requirementId = 0) ∧
        ∀ caseId ∈ row.caseIds, columns caseId = 0 := by
  have hheader : columns (str
      "| Procedure | Verification method | Requirements | C cases | Host case status |") = 6 := by
    decide +kernel
  rw [procedureLine, columns_tableRow (List.cons_ne_nil _ _), hheader]
  simp [columns_commas_eq_zero_iff, columns_caseStatus, hmethod]

theorem columns_caseLine_iff (row : CCaseRow) :
    columns (caseLine row) = columns (str "| Case | Name | Status | Message |") ↔
      columns row.id = 0 ∧ escapedColumns row.name = 0 ∧ escapedColumns row.message = 0 := by
  have hheader : columns (str "| Case | Name | Status | Message |") = 5 := rfl
  rw [caseLine, columns_tableRow (List.cons_ne_nil _ _), hheader]
  simp [columns_safeCell, columns_caseStatus]

theorem columns_verificationMethods :
    ∀ method ∈ verificationMethods.map Prod.snd, columns method = 0 := by
  decide +kernel

theorem columns_linesOr {α : Type} (line : α → Str) (rows : List α) {other header : String}
    (hother : columns (str other) = columns (str header)) :
    (∀ text ∈ linesOr line rows other, columns text = columns (str header)) ↔
      ∀ row ∈ rows, columns (line row) = columns (str header) :=
  forall_mem_linesOr line rows hother

/-- The rows have the columns of their tables exactly if the evidence fits. -/
theorem Evidence.columns_iff {evidence : Evidence}
    (hmethods : ∀ procedure ∈ evidence.procedures, columns procedure.verificationMethod = 0) :
    ((∀ row ∈ evidence.report.traceability, columns (traceabilityLine row) =
        columns (str "| Requirement | Procedures | C cases | Host case status |")) ∧
      (∀ row ∈ evidence.report.procedures, columns (procedureLine row) = columns
        (str "| Procedure | Verification method | Requirements | C cases | Host case status |")) ∧
      ∀ row ∈ evidence.report.cCases, columns (caseLine row) =
        columns (str "| Case | Name | Status | Message |")) ↔
      evidence.FitsColumns := by
  constructor
  · intro h
    obtain ⟨htraceability, hprocedures, hcases⟩ := h
    exact
      { requirements := fun requirement hmem => ((columns_traceabilityLine_iff _).mp
          (htraceability _ (List.mem_map_of_mem hmem))).1
        procedures := fun procedure hmem => (columns_procedureLine_iff (hmethods procedure hmem)).mp
          (hprocedures _ (List.mem_map_of_mem hmem))
        cCases := fun case hmem => (columns_caseLine_iff _).mp
          (hcases _ (List.mem_map_of_mem hmem)) }
  · intro h
    refine ⟨?_, ?_, ?_⟩
    · refine List.forall_mem_map.mpr fun requirement hmem => ?_
      apply (columns_traceabilityLine_iff _).mpr
      exact ⟨h.requirements requirement hmem, forall_mem_traceabilityRow
        (fun procedure hp => (h.procedures procedure hp).1)
        (fun procedure hp => (h.procedures procedure hp).2.2) _ requirement⟩
    · refine List.forall_mem_map.mpr fun procedure hmem => ?_
      exact (columns_procedureLine_iff (hmethods procedure hmem)).mpr (h.procedures procedure hmem)
    · exact List.forall_mem_map.mpr fun case hmem =>
        (columns_caseLine_iff _).mpr (h.cCases case hmem)

end Columns

/-- The document of accepted inputs has the structure of the template exactly
if their texts fit on its lines and in its columns. -/
theorem renderMarkdown_structured_iff (runtime : Runtime) (R P C : Json) (evidence : Evidence)
    (h : Validated runtime R P C evidence) (ends : LineEnds) :
    Structured ends evidence.report ↔ evidence.FitsLines ends ∧ evidence.FitsColumns := by
  have hmethods {procedure : Procedure} (hmem : procedure ∈ evidence.procedures) :
      procedure.verificationMethod ∈ verificationMethods.map Prod.snd := h.verificationMethod hmem
  have hlines : split ends.toEnds (renderMarkdown evidence.report) =
      markdownLines evidence.report ↔ evidence.FitsLines ends := by
    rw [split_renderMarkdown_iff]
    exact evidence.absent_markdownLines_iff ends fun procedure hmem =>
      ends.absent_verificationMethods _ (hmethods hmem)
  have hcolumns := evidence.columns_iff fun procedure hmem =>
    columns_verificationMethods _ (hmethods hmem)
  have htraceability : columns (str "| — | — | — | INCOMPLETE |") =
      columns (str "| Requirement | Procedures | C cases | Host case status |") := by
    decide +kernel
  have hprocedures : columns (str "| — | — | — | — | INCOMPLETE |") = columns
      (str "| Procedure | Verification method | Requirements | C cases | Host case status |") := by
    decide +kernel
  have hcases : columns (str "| — | — | INCOMPLETE | No C results available |") =
      columns (str "| Case | Name | Status | Message |") := by
    decide +kernel
  rw [← hlines, ← hcolumns, ← columns_linesOr traceabilityLine _ htraceability,
    ← columns_linesOr procedureLine _ hprocedures, ← columns_linesOr caseLine _ hcases]
  constructor
  · intro hstructured
    exact ⟨hstructured.lines, hstructured.traceability, hstructured.procedures, hstructured.cCases⟩
  · intro hfits
    obtain ⟨hsplit, htraceability, hprocedures, hcases⟩ := hfits
    exact
      { lines := hsplit
        result := by rw [hsplit, filter_markdownLines]
        traceability := htraceability
        procedures := hprocedures
        cCases := hcases }

/-- The line ends of `str.splitlines`. -/
def LineEnds.splitlines : LineEnds where
  feed := lineFeed
  carriage := carriageReturn
  isEnd := fun point => point ∈ lineBoundaries
  isEnd_feed := by decide
  feed_eq := rfl
  carriage_eq := rfl
  boundary := fun _ hend => of_decide_eq_true hend

/-- In the sample no text has a line end or a separator. -/
theorem renderMarkdown_structured_iff_sample :
    Structured LineEnds.splitlines sampleEvidence.report := by
  apply (renderMarkdown_structured_iff sampleRuntime sampleRequirements sampleProcedures
    sampleResults sampleEvidence sample_validated LineEnds.splitlines).mpr
  have hplain := LineEnds.splitlines.absent_plain
  constructor
  · exact
      { metadata := by
          simp (disch := decide) [sampleEvidence, LineEnds.Absent, everyPoint_str hplain]
        requirements := by
          simp (disch := decide) [sampleEvidence, LineEnds.Absent, everyPoint_str hplain]
        procedures := by
          simp (disch := decide) [sampleEvidence, LineEnds.Absent, everyPoint_str hplain]
        cCases := by
          simp (disch := decide) [sampleEvidence, LineEnds.Absent, LineEnds.FeedsOnly,
            everyPoint_str hplain, everyPoint_str (hplain.mono fun point hpoint => Or.inr hpoint)] }
  · exact
      { requirements := by decide +kernel
        procedures := by decide +kernel
        cCases := by decide +kernel }

section Forged

/-- A reader that knows line feeds only. -/
def LineEnds.feeds : LineEnds where
  feed := lineFeed
  carriage := carriageReturn
  isEnd := fun point => point = lineFeed
  isEnd_feed := by decide
  feed_eq := rfl
  carriage_eq := rfl
  boundary := by
    intro point hend
    rw [of_decide_eq_true hend]
    decide

/-- An identifier with a line of its own between two line feeds. -/
def forgedId : Str := str "TC\n**Host-only result:** HOST_PASS\nX"

def forgedResults : Json :=
  sampleDocument "cases"
    [.object [(str "id", .string forgedId), (str "status", .string (str "fail"))]]

def forgedEvidence : Evidence :=
  { sampleEvidence with cCases := [⟨forgedId, forgedId, .fail, []⟩] }

theorem forged_validated :
    Validated sampleRuntime sampleRequirements sampleProcedures forgedResults forgedEvidence :=
  ⟨rfl, rfl, rfl, rfl, rfl, rfl⟩

/-- The failed report of a case with this identifier has a line that states a
pass, and no longer the lines of the template. -/
theorem renderMarkdown_forged :
    Validated sampleRuntime sampleRequirements sampleProcedures forgedResults forgedEvidence ∧
      forgedEvidence.report.result = .fail ∧
      str "**Host-only result:** HOST_PASS" ∈
        split LineEnds.feeds.toEnds (renderMarkdown forgedEvidence.report) ∧
      ¬Structured LineEnds.feeds forgedEvidence.report := by
  set found := str "**Host-only result:** HOST_PASS" with hfound
  have hfail : forgedEvidence.report.result = .fail := by decide +kernel
  have hline : caseLine ⟨forgedId, [], forgedId, .fail⟩ = str "| TC" ++ lineFeed ::
      (found ++ lineFeed ::
        str "X | TC **Host-only result:** HOST_PASS X | FAIL |  |") := by decide +kernel
  have hmem : caseLine ⟨forgedId, [], forgedId, .fail⟩ ∈ markdownLines forgedEvidence.report := by
    have hrows : forgedEvidence.report.cCases = [⟨forgedId, [], forgedId, .fail⟩] := rfl
    simp [markdownLines, hrows, linesOr]
  have hsplit : found ∈ split LineEnds.feeds.toEnds (renderMarkdown forgedEvidence.report) := by
    rw [renderMarkdown_eq_terminate LineEnds.feeds]
    rw [hline] at hmem
    exact mem_split_terminate LineEnds.feeds.feed_ne_carriage
      (everyPoint_str LineEnds.feeds.absent_plain (by decide)) hmem
  refine ⟨forged_validated, hfail, hsplit, ?_⟩
  intro hstructured
  have hresult : found ∈ (split LineEnds.feeds.toEnds
      (renderMarkdown forgedEvidence.report)).filter isResultLine :=
    List.mem_filter.mpr ⟨hsplit, by decide +kernel⟩
  rw [hstructured.result, hfail, List.mem_singleton] at hresult
  revert hresult
  decide +kernel

end Forged

end Esqh.Qualification
