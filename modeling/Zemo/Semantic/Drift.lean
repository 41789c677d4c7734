import Mathlib.Data.List.Nodup
import Zemo.Semantic.SearchRow

set_option autoImplicit false

/-! # The search row and the current analysis

A search row is coherent with the analyses of its file when at most one of them is current, it is
one of the version the row points at, the semantic columns show it, and the indexed text is made of
all four columns. Not every writer keeps that: the scan and the extraction rebuild the text without
the semantic words, and an analysis is stored for the version it was begun on, wherever the row
points by then. `step_coherent_iff` says for each writer when it does, and `never_drifts_iff` says
it of whole runs. -/

namespace Zemo.Semantic

open Checked

variable {s t : FileRecord} {d : SearchDocument} {row a b : AnalysisRow} {w : Write}

/-! ## The indexed text -/

/-- What is left of a text without its spaces. -/
private def visible (text : List Char) : List Char := text.filter fun c => c ≠ ' '

private theorem visible_append (left right : List Char) :
    visible (left ++ right) = visible left ++ visible right :=
  List.filter_append ..

private theorem visible_dropWhile (text : List Char) :
    visible (text.dropWhile fun c => c = ' ') = visible text := by
  induction text with
  | nil => rfl
  | cons c text ih =>
    by_cases hc : c = ' '
    · rw [List.dropWhile_cons_of_pos (by simpa using hc), ih, visible, visible,
        List.filter_cons_of_neg (by simpa using hc)]
    · rw [List.dropWhile_cons_of_neg (by simpa using hc)]

private theorem visible_reverse (text : List Char) :
    visible text.reverse = (visible text).reverse :=
  List.filter_reverse ..

private theorem visible_trimSpaces (text : List Char) :
    visible (trimSpaces text) = visible text := by
  rw [trimSpaces, visible_dropWhile, List.rdropWhile, visible_reverse, visible_dropWhile,
    visible_reverse, List.reverse_reverse]

@[simp] private theorem trimSpaces_concat (text : List Char) :
    trimSpaces (text ++ [' ']) = trimSpaces text := by
  rw [trimSpaces, List.rdropWhile_concat_pos _ _ _ (by simp)]
  rfl

@[simp] private theorem visible_space (text : List Char) : visible (' ' :: text) = visible text :=
  List.filter_cons_of_neg (by simp)

private theorem documentType_visible (documentType : DocumentType) :
    visible documentType.databaseName.toList ≠ [] := by
  cases documentType <;> decide

private theorem context_visible (context : DocumentContext) :
    visible context.databaseName.toList ≠ [] := by
  cases context <;> decide

/-- The columns show no document type and no context. -/
def Wordless (semantic : Projection) : Prop :=
  semantic.documentType = none ∧ semantic.context = none

/-- Without semantic words the text is that of the file, and with any of them it is not. -/
theorem fileWords_eq_iff (extension detectedType : Option String) (semantic : Projection) :
    fileWords extension detectedType = allWords extension detectedType semantic ↔
      Wordless semantic := by
  obtain ⟨documentType, context, status, confidence⟩ := semantic
  constructor
  · intro h
    have hvisible := congrArg visible h
    simp only [fileWords, allWords, visible_trimSpaces, visible_append, List.append_assoc,
      List.cons_append, visible_space, List.append_cancel_left_eq] at hvisible
    -- what the semantic columns add is visible, so they add nothing
    obtain ⟨hdocument, hcontext⟩ := List.append_eq_nil_iff.1 (List.self_eq_append_right.1 hvisible)
    constructor
    · cases documentType with
      | none => rfl
      | some documentType => exact absurd hdocument (documentType_visible documentType)
    · cases context with
      | none => rfl
      | some context => exact absurd hcontext (context_visible context)
  · rintro ⟨rfl, rfl⟩
    show trimSpaces (orEmpty extension ++ ' ' :: orEmpty detectedType) =
      trimSpaces (orEmpty extension ++ ' ' :: orEmpty detectedType ++ [' '] ++ [' '])
    rw [trimSpaces_concat, trimSpaces_concat]

/-! ## Coherence -/

/-- At most one analysis of the file is current, one of the version the row points at; the row shows
it, or nothing when there is none; and the indexed text is made of all four columns. -/
structure Coherent (s : FileRecord) : Prop where
  distinct : (s.analyses.map AnalysisRow.id).Nodup
  single : ∀ a ∈ s.analyses, ∀ b ∈ s.analyses, a.isCurrent → b.isCurrent → a = b
  pointed : ∀ a ∈ s.analyses, a.isCurrent →
    ∃ d, s.document = some d ∧ d.fileVersionId = a.fileVersionId
  projected : ∀ d, s.document = some d →
    (∀ a ∈ s.analyses, a.isCurrent → d.semantic = a.projection) ∧
    ((∀ a ∈ s.analyses, ¬ a.isCurrent) → d.semantic = .none)
  indexed : ∀ d, s.document = some d →
    d.metadataText = allWords d.extension d.detectedType d.semantic

/-- The row points at this version. -/
def pointsAt (fileVersionId : Nat) (s : FileRecord) : Prop :=
  ∃ d, s.document = some d ∧ d.fileVersionId = fileVersionId

/-- `store_semantic_analysis` accepts its arguments. -/
def AcceptsAnalysis (analysisId : Nat) (candidate : SemanticAnalysisCandidate)
    (analysis : SemanticAnalysis) (valid rowsAccepted : Bool) (s : FileRecord) : Prop :=
  valid ∧ isFinished analysis.status ∧ rowsAccepted ∧
    ∃ awaited, awaitedRow analysisId candidate.fileVersionId s.analyses = some awaited ∧
      hasRoom awaited.batchId s.batches

/-- `store_semantic_failure` accepts its arguments. -/
def AcceptsFailure (analysisId batchId : Nat) (rowsAccepted : Bool) (s : FileRecord) : Prop :=
  isRunning batchId s.batches ∧ rowsAccepted ∧ (∀ row ∈ s.analyses, row.id ≠ analysisId) ∧
    hasRoom batchId s.batches

/-- The condition under which a writer keeps the row coherent. A scan of the version the row points
at, and an extraction that is taken, find no semantic words in it; an analysis, and a failure of a
version without a current analysis, is of the version the row points at. -/
def Calm (s : FileRecord) : Write → Prop
  | .upsertScan version =>
      ∀ d, s.document = some d → d.fileVersionId = version.id → Wordless d.semantic
  | .storeExtraction _ _ result =>
      ∀ d, s.document = some d → result.errorCategory ≠ some .cancelled →
        takesExtraction d result.status → Wordless d.semantic
  | .storeAnalysis analysisId candidate analysis valid rowsAccepted =>
      AcceptsAnalysis analysisId candidate analysis valid rowsAccepted s →
        pointsAt candidate.fileVersionId s
  | .storeFailure analysisId batchId candidate rowsAccepted =>
      AcceptsFailure analysisId batchId rowsAccepted s →
        ¬ hasCurrent candidate.fileVersionId s.analyses → pointsAt candidate.fileVersionId s
  | _ => True

/-- The writers that leave the search row and its analyses as they are. -/
theorem Coherent.with_batches (h : Coherent s) (batches : List Batch) :
    Coherent { s with batches := batches } :=
  ⟨h.distinct, h.single, h.pointed, h.projected, h.indexed⟩

/-- A row that shows nothing is coherent with a file without a current analysis. -/
theorem Coherent.blank (hdistinct : (t.analyses.map AnalysisRow.id).Nodup)
    (hnone : ∀ a ∈ t.analyses, ¬ a.isCurrent)
    (hblank : ∀ d, t.document = some d → d.semantic = .none ∧
      d.metadataText = fileWords d.extension d.detectedType) :
    Coherent t where
  distinct := hdistinct
  single := fun a ha _ _ hcurrent _ => absurd hcurrent (hnone a ha)
  pointed := fun a ha hcurrent => absurd hcurrent (hnone a ha)
  projected := fun d hd =>
    ⟨fun a ha hcurrent => absurd hcurrent (hnone a ha), fun _ => (hblank d hd).1⟩
  indexed := by
    intro d hd
    rw [(hblank d hd).2, fileWords_eq_iff, (hblank d hd).1]
    exact ⟨rfl, rfl⟩

/-- Without a row no analysis is current. -/
theorem Coherent.not_current (h : Coherent s) (hnone : s.document = none) (ha : a ∈ s.analyses) :
    ¬ a.isCurrent := by
  intro hcurrent
  obtain ⟨d, hd, -⟩ := h.pointed a ha hcurrent
  rw [hnone] at hd
  cases hd

/-! ## Scan -/

private theorem upsert_ids (version : FileVersion) (s : FileRecord) :
    (upsertScanSearchDocument version s).analyses.map AnalysisRow.id =
      s.analyses.map AnalysisRow.id := by
  simp only [upsertScanSearchDocument, List.map_map]
  refine List.map_congr_left fun row _ => ?_
  simp only [Function.comp_apply]
  split <;> rfl

/-- The current analyses after a scan are those of its version. -/
private theorem current_upsert_iff {version : FileVersion} :
    (a ∈ (upsertScanSearchDocument version s).analyses ∧ a.isCurrent) ↔
      a ∈ s.analyses ∧ a.isCurrent ∧ a.fileVersionId = version.id := by
  constructor
  · rintro ⟨ha, hcurrent⟩
    obtain ⟨row, hrow, rfl⟩ := List.mem_map.1 ha
    by_cases hclose : row.fileVersionId ≠ version.id ∧ row.isCurrent
    · rw [if_pos hclose] at hcurrent
      cases hcurrent
    · rw [if_neg hclose] at hcurrent ⊢
      refine ⟨hrow, hcurrent, ?_⟩
      by_contra hversion
      exact hclose ⟨hversion, hcurrent⟩
  · rintro ⟨ha, hcurrent, hversion⟩
    exact ⟨List.mem_map.2 ⟨a, ha, if_neg fun hclose => hclose.1 hversion⟩, hcurrent⟩

/-- A scan keeps the row coherent when it finds no semantic words in a row of its own version. -/
theorem upsert_coherent_iff (h : Coherent s) (version : FileVersion) :
    Coherent (upsertScanSearchDocument version s) ↔
      ∀ d, s.document = some d → d.fileVersionId = version.id → Wordless d.semantic := by
  have hids : ((upsertScanSearchDocument version s).analyses.map AnalysisRow.id).Nodup := by
    rw [upsert_ids]
    exact h.distinct
  cases hdocument : s.document with
  | none =>
    refine iff_of_true (.blank hids ?_ ?_) (by simp)
    · intro a ha hcurrent
      obtain ⟨hbefore, hcurrent, -⟩ := current_upsert_iff.1 ⟨ha, hcurrent⟩
      exact h.not_current hdocument hbefore hcurrent
    · intro d hd
      simp only [upsertScanSearchDocument, hdocument, Option.some.injEq] at hd
      subst hd
      exact ⟨rfl, rfl⟩
  | some d =>
    have hafter : (upsertScanSearchDocument version s).document =
        some (upsertDocument d version) := by
      simp only [upsertScanSearchDocument, hdocument]
    by_cases hversion : d.fileVersionId = version.id
    · -- the row of the same version: its columns stay, its text is rebuilt
      rw [upsertDocument, if_pos hversion] at hafter
      constructor
      · rintro hcoherent d' hd' -
        obtain rfl := Option.some.inj hd'
        exact (fileWords_eq_iff _ _ _).1 (hcoherent.indexed _ hafter)
      · intro hwordless
        have hwords := hwordless d rfl hversion
        refine ⟨hids, ?_, ?_, ?_, ?_⟩
        · intro a ha b hb hcurrent hcurrent'
          obtain ⟨ha, -, -⟩ := current_upsert_iff.1 ⟨ha, hcurrent⟩
          obtain ⟨hb, -, -⟩ := current_upsert_iff.1 ⟨hb, hcurrent'⟩
          exact h.single a ha b hb hcurrent hcurrent'
        · intro a ha hcurrent
          obtain ⟨-, -, hpointed⟩ := current_upsert_iff.1 ⟨ha, hcurrent⟩
          exact ⟨_, hafter, hversion.trans hpointed.symm⟩
        · intro d' hd'
          obtain rfl := Option.some.inj (hafter.symm.trans hd')
          obtain ⟨hshown, hnone⟩ := h.projected d hdocument
          refine ⟨fun a ha hcurrent => ?_, fun hno => hnone fun a ha hcurrent => ?_⟩
          · obtain ⟨ha, -, -⟩ := current_upsert_iff.1 ⟨ha, hcurrent⟩
            exact hshown a ha hcurrent
          · obtain ⟨d', hd', hpointed⟩ := h.pointed a ha hcurrent
            obtain rfl := Option.some.inj (hdocument.symm.trans hd')
            have hkept := current_upsert_iff.2 ⟨ha, hcurrent, hpointed.symm.trans hversion⟩
            exact hno a hkept.1 hkept.2
        · intro d' hd'
          obtain rfl := Option.some.inj (hafter.symm.trans hd')
          exact (fileWords_eq_iff _ _ _).2 hwords
    · -- a new version: the row starts over, and no analysis of it is current yet
      rw [upsertDocument, if_neg hversion] at hafter
      refine iff_of_true (.blank hids ?_ ?_) ?_
      · intro a ha hcurrent
        obtain ⟨hbefore, hcurrent, hnew⟩ := current_upsert_iff.1 ⟨ha, hcurrent⟩
        obtain ⟨d', hd', hpointed⟩ := h.pointed a hbefore hcurrent
        obtain rfl := Option.some.inj (hdocument.symm.trans hd')
        exact hversion (hpointed.trans hnew)
      · intro d' hd'
        obtain rfl := Option.some.inj (hafter.symm.trans hd')
        exact ⟨rfl, rfl⟩
      · intro d' hd' hsame
        obtain rfl := Option.some.inj hd'
        exact absurd hsame hversion

/-! ## Extraction -/

/-- Writers that change the row only: the version and the semantic columns stay, so what is left is
the text. -/
theorem coherent_row_iff {change : SearchDocument → SearchDocument} (h : Coherent s)
    (hversion : ∀ d, (change d).fileVersionId = d.fileVersionId)
    (hsemantic : ∀ d, (change d).semantic = d.semantic) :
    Coherent { s with document := s.document.map change } ↔
      ∀ d, s.document = some d → (change d).metadataText =
        allWords (change d).extension (change d).detectedType d.semantic := by
  constructor
  · intro hcoherent d hd
    rw [← hsemantic]
    exact hcoherent.indexed _ (Option.map_eq_some_iff.2 ⟨d, hd, rfl⟩)
  · intro hindexed
    refine ⟨h.distinct, h.single, ?_, ?_, ?_⟩
    · intro a ha hcurrent
      obtain ⟨d, hd, hpointed⟩ := h.pointed a ha hcurrent
      exact ⟨_, Option.map_eq_some_iff.2 ⟨d, hd, rfl⟩, (hversion d).trans hpointed⟩
    · intro d' hd'
      obtain ⟨d, hd, rfl⟩ := Option.map_eq_some_iff.1 hd'
      rw [hsemantic]
      exact h.projected d hd
    · intro d' hd'
      obtain ⟨d, hd, rfl⟩ := Option.map_eq_some_iff.1 hd'
      rw [hsemantic]
      exact hindexed d hd

theorem ensure_coherent (h : Coherent s) (latest : Option FileVersion) :
    Coherent (ensureSearchDocument latest s) := by
  rw [ensureSearchDocument]
  split
  · exact h
  · next hnone =>
    refine .blank h.distinct (fun a ha => h.not_current hnone ha) fun d hd => ?_
    obtain ⟨version, -, rfl⟩ := Option.map_eq_some_iff.1 hd
    exact ⟨rfl, rfl⟩

/-- What the row holds after it was ensured: what it held, or nothing semantic. -/
private theorem ensure_document (latest : Option FileVersion)
    (hd : (ensureSearchDocument latest s).document = some d) :
    s.document = some d ∨ s.document = none ∧ Wordless d.semantic := by
  rw [ensureSearchDocument] at hd
  split at hd
  · exact .inl hd
  · next hnone =>
    obtain ⟨version, -, rfl⟩ := Option.map_eq_some_iff.1 hd
    exact .inr ⟨hnone, rfl, rfl⟩

/-- An extraction keeps the row coherent when it is not taken or finds no semantic words. -/
theorem extraction_coherent_iff (h : Coherent s) (latest : Option FileVersion)
    (extractionResultId : Nat) (result : ExtractionResultInput) :
    Coherent (synchronizeSearchExtraction latest extractionResultId result s) ↔
      ∀ d, s.document = some d → result.errorCategory ≠ some .cancelled →
        takesExtraction d result.status → Wordless d.semantic := by
  rw [synchronizeSearchExtraction]
  by_cases hcancelled : result.errorCategory = some .cancelled
  · rw [if_pos hcancelled]
    exact iff_of_true h fun d _ hne => absurd hcancelled hne
  rw [if_neg hcancelled]
  have hensured := ensure_coherent h latest
  rw [coherent_row_iff hensured (fun d => by split <;> rfl) (fun d => by split <;> rfl)]
  constructor
  · intro hindexed d hd _ htakes
    have hdocument : (ensureSearchDocument latest s).document = some d := by
      simp only [ensureSearchDocument, hd]
    have hwords := hindexed d hdocument
    rw [if_pos htakes] at hwords
    exact (fileWords_eq_iff _ _ _).1 hwords
  · intro hwordless d hd
    by_cases htakes : takesExtraction d result.status = true
    · rw [if_pos htakes]
      refine (fileWords_eq_iff _ _ _).2 ?_
      rcases ensure_document latest hd with hbefore | ⟨-, hblank⟩
      · exact hwordless d hbefore hcancelled htakes
      · exact hblank
    · rw [if_neg htakes]
      exact hensured.indexed d hd

theorem unfinished_coherent (h : Coherent s) (extractionResultId fileVersionId : Nat) :
    Coherent (synchronizeUnfinished extractionResultId fileVersionId s) := by
  rw [synchronizeUnfinished, coherent_row_iff h (fun d => by split <;> rfl)
    (fun d => by split <;> rfl)]
  intro d hd
  split <;> exact h.indexed d hd

/-! ## Analyses -/

theorem Coherent.distinct_append (h : Coherent s) (hfresh : ∀ a ∈ s.analyses, a.id ≠ row.id) :
    ((s.analyses ++ [row]).map AnalysisRow.id).Nodup := by
  rw [List.map_append, List.nodup_append]
  refine ⟨h.distinct, List.nodup_singleton _, fun id hid other hother => ?_⟩
  obtain ⟨a, ha, rfl⟩ := List.mem_map.1 hid
  obtain rfl := List.mem_singleton.1 hother
  exact hfresh a ha

/-- A row that is not current is added. -/
theorem Coherent.append (h : Coherent s) (hfresh : ∀ a ∈ s.analyses, a.id ≠ row.id)
    (hrow : ¬ row.isCurrent) : Coherent { s with analyses := s.analyses ++ [row] } where
  distinct := h.distinct_append hfresh
  single := by
    intro a ha b hb hcurrent hcurrent'
    rcases List.mem_append.1 ha with ha | ha
    · rcases List.mem_append.1 hb with hb | hb
      · exact h.single a ha b hb hcurrent hcurrent'
      · exact absurd hcurrent' (List.mem_singleton.1 hb ▸ hrow)
    · exact absurd hcurrent (List.mem_singleton.1 ha ▸ hrow)
  pointed := by
    intro a ha hcurrent
    rcases List.mem_append.1 ha with ha | ha
    · exact h.pointed a ha hcurrent
    · exact absurd hcurrent (List.mem_singleton.1 ha ▸ hrow)
  projected := by
    intro d hd
    obtain ⟨hshown, hnone⟩ := h.projected d hd
    refine ⟨fun a ha hcurrent => ?_, fun hno => hnone fun a ha => hno a ?_⟩
    · rcases List.mem_append.1 ha with ha | ha
      · exact hshown a ha hcurrent
      · exact absurd hcurrent (List.mem_singleton.1 ha ▸ hrow)
    · exact List.mem_append_left _ ha
  indexed := h.indexed

private theorem finished_ids (analysisId fileVersionId : Nat) (analysis : SemanticAnalysis)
    (analyses : List AnalysisRow) :
    (finishAnalysis analysisId analysis (supersede analysisId fileVersionId analyses)).map
      AnalysisRow.id = analyses.map AnalysisRow.id := by
  simp only [finishAnalysis, supersede, List.map_map]
  refine List.map_congr_left fun row _ => ?_
  simp only [Function.comp_apply]
  split <;> split <;> rfl

variable {analysisId batchId : Nat} {candidate : SemanticAnalysisCandidate}
  {analysis : SemanticAnalysis} {awaited : AnalysisRow}

/-- The row of an analysis once it is stored. -/
def storedRow (analysis : SemanticAnalysis) (awaited : AnalysisRow) : AnalysisRow :=
  { awaited with status := analysis.status, fields := analysis.fields, isCurrent := true }

theorem awaitedRow_spec {fileVersionId : Nat} {analyses : List AnalysisRow}
    (h : awaitedRow analysisId fileVersionId analyses = some awaited) :
    awaited ∈ analyses ∧ awaited.id = analysisId ∧ awaited.fileVersionId = fileVersionId ∧
      awaited.status = .running := by
  have hfound := List.find?_some h
  simp only [Bool.and_eq_true, decide_eq_true_eq] at hfound
  exact ⟨List.mem_of_find?_eq_some h, hfound.1.1, hfound.1.2, hfound.2⟩

private theorem stored_mem
    (hawaited : awaitedRow analysisId candidate.fileVersionId s.analyses = some awaited) :
    storedRow analysis awaited ∈ (recordAnalysis analysisId candidate analysis batchId s).analyses
      := by
  obtain ⟨hmem, hid, -, hrunning⟩ := awaitedRow_spec hawaited
  refine List.mem_map.2 ⟨awaited, List.mem_map.2 ⟨awaited, hmem, ?_⟩, ?_⟩
  · rw [if_neg fun hclose => hclose.2.2 hid]
  · rw [if_pos ⟨hid, hrunning⟩]
    rfl

/-- The current analyses after one was stored are it and those of other versions. -/
private theorem current_recorded (h : Coherent s)
    (hawaited : awaitedRow analysisId candidate.fileVersionId s.analyses = some awaited)
    (ha : a ∈ (recordAnalysis analysisId candidate analysis batchId s).analyses)
    (hcurrent : a.isCurrent) :
    a = storedRow analysis awaited ∨
      a ∈ s.analyses ∧ a.fileVersionId ≠ candidate.fileVersionId := by
  obtain ⟨hmem, hid, -, hrunning⟩ := awaitedRow_spec hawaited
  obtain ⟨middle, hmiddle, rfl⟩ := List.mem_map.1 ha
  obtain ⟨before, hbefore, hmiddle⟩ := List.mem_map.1 hmiddle
  by_cases hsame : before.id = analysisId
  · -- the rows have different ids, so this one is the one that was running
    obtain rfl := List.inj_on_of_nodup_map h.distinct hbefore hmem (hsame.trans hid.symm)
    rw [if_neg fun hclose => hclose.2.2 hsame] at hmiddle
    subst hmiddle
    left
    rw [if_pos ⟨hsame, hrunning⟩]
    rfl
  · right
    have hother : middle.id ≠ analysisId := by
      rw [← hmiddle]
      split <;> exact hsame
    rw [if_neg fun hfinish => hother hfinish.1] at hcurrent ⊢
    by_cases hclose : before.fileVersionId = candidate.fileVersionId ∧ before.isCurrent ∧
        before.id ≠ analysisId
    · rw [if_pos hclose] at hmiddle
      subst hmiddle
      cases hcurrent
    · rw [if_neg hclose] at hmiddle
      subst hmiddle
      exact ⟨hbefore, fun hversion => hclose ⟨hversion, hcurrent, hsame⟩⟩

/-- An analysis that is stored keeps the row coherent when the row points at its version. -/
theorem recordAnalysis_coherent_iff (h : Coherent s)
    (hawaited : awaitedRow analysisId candidate.fileVersionId s.analyses = some awaited) :
    Coherent (recordAnalysis analysisId candidate analysis batchId s) ↔
      pointsAt candidate.fileVersionId s := by
  have hversion : (storedRow analysis awaited).fileVersionId = candidate.fileVersionId :=
    (awaitedRow_spec hawaited).2.2.1
  constructor
  · intro hcoherent
    obtain ⟨d', hd', hpointed⟩ := hcoherent.pointed _ (stored_mem hawaited) rfl
    obtain ⟨d, hd, rfl⟩ := Option.map_eq_some_iff.1 hd'
    refine ⟨d, hd, ?_⟩
    rw [← hversion, ← hpointed, showAnalysis]
    split <;> rfl
  · rintro ⟨d, hd, hpoints⟩
    have hafter : (recordAnalysis analysisId candidate analysis batchId s).document =
        some (showAnalysis candidate.fileVersionId
          (semanticProjectionValues analysis.status analysis.fields) d) := by
      simp only [recordAnalysis, hd, Option.map_some]
    rw [showAnalysis, if_pos hpoints] at hafter
    -- whatever was current was of the version the row points at, and is superseded
    have honly : ∀ a ∈ (recordAnalysis analysisId candidate analysis batchId s).analyses,
        a.isCurrent → a = storedRow analysis awaited := by
      intro a ha hcurrent
      rcases current_recorded h hawaited ha hcurrent with heq | ⟨hbefore, hother⟩
      · exact heq
      · obtain ⟨d', hd', hpointed⟩ := h.pointed a hbefore hcurrent
        obtain rfl := Option.some.inj (hd.symm.trans hd')
        exact absurd (hpointed.symm.trans hpoints) hother
    refine ⟨?_, ?_, ?_, ?_, ?_⟩
    · rw [show (recordAnalysis analysisId candidate analysis batchId s).analyses.map
        AnalysisRow.id = s.analyses.map AnalysisRow.id from finished_ids ..]
      exact h.distinct
    · intro a ha b hb hcurrent hcurrent'
      rw [honly a ha hcurrent, honly b hb hcurrent']
    · intro a ha hcurrent
      rw [honly a ha hcurrent]
      exact ⟨_, hafter, hpoints.trans hversion.symm⟩
    · intro d' hd'
      obtain rfl := Option.some.inj (hafter.symm.trans hd')
      refine ⟨fun a ha hcurrent => ?_, fun hno => absurd rfl (hno _ (stored_mem hawaited))⟩
      rw [honly a ha hcurrent]
      rfl
    · intro d' hd'
      obtain rfl := Option.some.inj (hafter.symm.trans hd')
      rfl

theorem storeSemanticAnalysis_ok {valid rowsAccepted : Bool} :
    storeSemanticAnalysis analysisId candidate analysis valid rowsAccepted s = .ok t ↔
      valid ∧ isFinished analysis.status ∧ rowsAccepted ∧
        ∃ awaited, awaitedRow analysisId candidate.fileVersionId s.analyses = some awaited ∧
          hasRoom awaited.batchId s.batches ∧
          t = recordAnalysis analysisId candidate analysis awaited.batchId s := by
  simp only [storeSemanticAnalysis, bind_eq_ok, require_eq_ok, orError_eq_ok, pure, Except.pure,
    Except.ok.injEq, Bool.and_eq_true]
  constructor
  · rintro ⟨-, ⟨hvalid, hstatus⟩, awaited, hawaited, -, hrows, -, hroom, rfl⟩
    exact ⟨hvalid, hstatus, hrows, awaited, hawaited, hroom, rfl⟩
  · rintro ⟨hvalid, hstatus, hrows, awaited, hawaited, hroom, rfl⟩
    exact ⟨(), ⟨hvalid, hstatus⟩, awaited, hawaited, (), hrows, (), hroom, rfl⟩

/-! ## Failures -/

theorem storeSemanticFailure_ok {rowsAccepted : Bool} :
    storeSemanticFailure analysisId batchId candidate rowsAccepted s = .ok t ↔
      AcceptsFailure analysisId batchId rowsAccepted s ∧
        t = recordFailure analysisId batchId candidate s := by
  simp only [storeSemanticFailure, test_bind_eq_ok, require_eq_ok, pure, Except.pure,
    Except.ok.injEq, Bool.and_eq_true, List.all_eq_true, decide_eq_true_eq, AcceptsFailure,
    and_assoc]
  constructor
  · rintro ⟨h1, h2, h3, h4, h5⟩
    exact ⟨h1, h2, h3, h4, h5.symm⟩
  · rintro ⟨h1, h2, h3, h4, h5⟩
    exact ⟨h1, h2, h3, h4, h5.symm⟩

theorem hasCurrent_iff {fileVersionId : Nat} {analyses : List AnalysisRow} :
    hasCurrent fileVersionId analyses ↔
      ∃ a ∈ analyses, a.fileVersionId = fileVersionId ∧ a.isCurrent := by
  simp only [hasCurrent, List.any_eq_true, Bool.and_eq_true, decide_eq_true_eq]

/-- A failure that is stored keeps the row coherent when its version has a current analysis, or the
row points at its version. -/
theorem recordFailure_coherent_iff (h : Coherent s)
    (hfresh : ∀ row ∈ s.analyses, row.id ≠ analysisId) :
    Coherent (recordFailure analysisId batchId candidate s) ↔
      (¬ hasCurrent candidate.fileVersionId s.analyses → pointsAt candidate.fileVersionId s) := by
  by_cases hcurrent : hasCurrent candidate.fileVersionId s.analyses = true
  · -- the failure is only remembered
    refine iff_of_true ?_ fun hno => absurd hcurrent hno
    have happend : Coherent { s with analyses := s.analyses ++
        [⟨analysisId, batchId, candidate.fileVersionId, .failed, [], false⟩] } :=
      h.append hfresh Bool.false_ne_true
    rw [recordFailure, if_pos hcurrent, hcurrent]
    exact happend.with_batches (completeFile batchId s.batches)
  · have hrow : recordFailure analysisId batchId candidate s =
        ⟨s.document.map (showFailure candidate.fileVersionId), s.analyses ++
          [⟨analysisId, batchId, candidate.fileVersionId, .failed, [], true⟩],
          completeFile batchId s.batches⟩ := by
      rw [recordFailure, if_neg hcurrent, Bool.eq_false_iff.2 hcurrent]
      rfl
    rw [hrow]
    constructor
    · rintro hcoherent -
      obtain ⟨d', hd', hpointed⟩ := hcoherent.pointed _ List.mem_concat_self rfl
      obtain ⟨d, hd, rfl⟩ := Option.map_eq_some_iff.1 hd'
      refine ⟨d, hd, Eq.trans ?_ hpointed⟩
      rw [showFailure]
      split <;> rfl
    · intro hpoints
      obtain ⟨d, hd, hversion⟩ := hpoints hcurrent
      -- nothing was current: it would have been of this version
      have hnone : ∀ a ∈ s.analyses, ¬ a.isCurrent := by
        intro a ha hcurrent'
        obtain ⟨d', hd', hpointed⟩ := h.pointed a ha hcurrent'
        obtain rfl := Option.some.inj (hd.symm.trans hd')
        exact hcurrent (hasCurrent_iff.2 ⟨a, ha, hpointed.symm.trans hversion, hcurrent'⟩)
      have hblank : d.semantic = .none := (h.projected d hd).2 hnone
      have honly : ∀ a ∈ s.analyses ++ [(⟨analysisId, batchId, candidate.fileVersionId, .failed,
          [], true⟩ : AnalysisRow)], a.isCurrent → a = ⟨analysisId, batchId,
            candidate.fileVersionId, .failed, [], true⟩ := by
        intro a ha hcurrent'
        rcases List.mem_append.1 ha with ha | ha
        · exact absurd hcurrent' (hnone a ha)
        · exact List.mem_singleton.1 ha
      rw [hd, Option.map_some, showFailure, if_pos hversion]
      refine ⟨?_, ?_, ?_, ?_, ?_⟩
      · exact h.distinct_append hfresh
      · intro a ha b hb hcurrent' hcurrent''
        rw [honly a ha hcurrent', honly b hb hcurrent'']
      · intro a ha hcurrent'
        rw [honly a ha hcurrent']
        exact ⟨_, rfl, hversion⟩
      · intro d' hd'
        obtain rfl := Option.some.inj hd'
        refine ⟨fun a ha hcurrent' => ?_, fun hno => absurd rfl (hno _ List.mem_concat_self)⟩
        rw [honly a ha hcurrent']
        rfl
      · -- the text is not rebuilt, and was without semantic words
        intro d' hd'
        obtain rfl := Option.some.inj hd'
        have hwords := h.indexed d hd
        rw [hblank] at hwords
        exact hwords

/-! ## Steps and runs -/

theorem step_ok (h : w.run s = .ok t) : step w s = t := by
  rw [step, h]

theorem step_of_not_ok (h : ∀ t, w.run s ≠ .ok t) : step w s = s := by
  rw [step]
  split
  · next t ht => exact absurd ht (h t)
  · rfl

private theorem step_storeFailure {rowsAccepted : Bool}
    (haccepts : AcceptsFailure analysisId batchId rowsAccepted s) :
    step (.storeFailure analysisId batchId candidate rowsAccepted) s =
      recordFailure analysisId batchId candidate s :=
  step_ok (storeSemanticFailure_ok.2 ⟨haccepts, rfl⟩ :
    (Write.storeFailure analysisId batchId candidate rowsAccepted).run s = .ok _)

private theorem step_storeFailure_refused {rowsAccepted : Bool}
    (hrefused : ¬ AcceptsFailure analysisId batchId rowsAccepted s) :
    step (.storeFailure analysisId batchId candidate rowsAccepted) s = s := by
  refine step_of_not_ok fun t ht => hrefused ?_
  exact (storeSemanticFailure_ok.1 ht).1

/-- **A writer keeps the row coherent exactly under its condition.** -/
theorem step_coherent_iff (h : Coherent s) (w : Write) : Coherent (step w s) ↔ Calm s w := by
  cases w with
  | upsertScan version => exact upsert_coherent_iff h version
  | storeExtraction latest extractionResultId result =>
    exact extraction_coherent_iff h latest extractionResultId result
  | abandonExtraction extractionResultId fileVersionId =>
    exact iff_of_true (unfinished_coherent h extractionResultId fileVersionId) trivial
  | beginBatch id scanId filesQueued =>
    refine iff_of_true ?_ trivial
    by_cases hok : ∃ t, (Write.beginBatch id scanId filesQueued).run s = .ok t
    · obtain ⟨t, ht⟩ := hok
      rw [step_ok ht]
      obtain ⟨-, ht⟩ := test_bind_eq_ok.1 ht
      obtain rfl := Except.ok.inj ht
      exact h.with_batches _
    · rw [step_of_not_ok (not_exists.1 hok)]
      exact h
  | finishBatch id =>
    refine iff_of_true ?_ trivial
    by_cases hok : ∃ t, (Write.finishBatch id).run s = .ok t
    · obtain ⟨t, ht⟩ := hok
      rw [step_ok ht]
      obtain ⟨-, ht⟩ := test_bind_eq_ok.1 ht
      obtain rfl := Except.ok.inj ht
      exact h.with_batches _
    · rw [step_of_not_ok (not_exists.1 hok)]
      exact h
  | beginAnalysis analysisId batchId candidate =>
    refine iff_of_true ?_ trivial
    by_cases hok : ∃ t, (Write.beginAnalysis analysisId batchId candidate).run s = .ok t
    · obtain ⟨t, ht⟩ := hok
      rw [step_ok ht]
      obtain ⟨-, ht⟩ := test_bind_eq_ok.1 ht
      obtain ⟨hfresh, ht⟩ := test_bind_eq_ok.1 ht
      obtain rfl := Except.ok.inj ht
      rw [require_eq_ok, List.all_eq_true] at hfresh
      exact h.append (fun a ha => of_decide_eq_true (hfresh a ha)) Bool.false_ne_true
    · rw [step_of_not_ok (not_exists.1 hok)]
      exact h
  | storeAnalysis analysisId candidate analysis valid rowsAccepted =>
    by_cases haccepts : AcceptsAnalysis analysisId candidate analysis valid rowsAccepted s
    · obtain ⟨hvalid, hstatus, hrows, awaited, hawaited, hroom⟩ := id haccepts
      have hrun : (Write.storeAnalysis analysisId candidate analysis valid rowsAccepted).run s =
          .ok _ :=
        storeSemanticAnalysis_ok.2 ⟨hvalid, hstatus, hrows, awaited, hawaited, hroom, rfl⟩
      rw [step_ok hrun, recordAnalysis_coherent_iff h hawaited]
      exact ⟨fun hpoints _ => hpoints, fun hcalm => hcalm haccepts⟩
    · rw [step_of_not_ok fun t ht => ?_]
      · exact iff_of_true h fun haccepts' => absurd haccepts' haccepts
      · obtain ⟨hvalid, hstatus, hrows, awaited, hawaited, hroom, -⟩ :=
          storeSemanticAnalysis_ok.1 ht
        exact haccepts ⟨hvalid, hstatus, hrows, awaited, hawaited, hroom⟩
  | storeFailure analysisId batchId candidate rowsAccepted =>
    by_cases haccepts : AcceptsFailure analysisId batchId rowsAccepted s
    · rw [step_storeFailure haccepts, recordFailure_coherent_iff h haccepts.2.2.1]
      exact ⟨fun hpoints _ => hpoints, fun hcalm => hcalm haccepts⟩
    · rw [step_storeFailure_refused haccepts]
      exact iff_of_true h fun haccepts' => absurd haccepts' haccepts

/-- A failure leaves every finished current analysis in its place. -/
def KeepsFinished (s : FileRecord) : Write → Prop
  | .storeFailure analysisId batchId candidate rowsAccepted =>
      ∀ a ∈ s.analyses, a.isCurrent → isFinished a.status →
        a ∈ (step (.storeFailure analysisId batchId candidate rowsAccepted) s).analyses
  | _ => True

theorem keepsFinished (s : FileRecord) (w : Write) : KeepsFinished s w := by
  cases w with
  | storeFailure analysisId batchId candidate rowsAccepted =>
    intro a ha _ _
    by_cases haccepts : AcceptsFailure analysisId batchId rowsAccepted s
    · rw [step_storeFailure haccepts]
      exact List.mem_append_left _ ha
    · rw [step_storeFailure_refused haccepts]
      exact ha
  | _ => trivial

theorem new_coherent : Coherent .new :=
  .blank List.nodup_nil (fun _ ha => absurd ha List.not_mem_nil) fun _ hd => nomatch hd

/-- What the row and its analyses are promised of one writer in a run. -/
def NeverDrifts (before : List Write) (w : Write) : Prop :=
  Coherent (Run.after step .new (before ++ [w])) ∧
    KeepsFinished (Run.after step .new before) w

/-- **The search row never drifts from the current analysis exactly in calm runs.** -/
theorem never_drifts_iff (writes : List Write) :
    History.Each NeverDrifts writes ↔
      History.Each (fun before w => Calm (Run.after step .new before) w) writes := by
  have hrun := Run.invariant_iff (fun w s (h : Coherent s) => step_coherent_iff h w) writes
    new_coherent
  rw [← hrun]
  constructor
  · intro h
    exact h.imp fun before w hdrift => hdrift.1
  · intro h
    exact h.imp fun before w hcoherent => ⟨hcoherent, keepsFinished _ _⟩

/-! A file that is analysed and then scanned again without having changed. -/

private def scanned : FileVersion := ⟨1, some "pdf", some "application/pdf"⟩

private def invoice : SemanticAnalysis where
  status := .success
  fields := [⟨.documentType, some (.documentType .invoice), 9 / 10⟩]

private def analysed : List Write :=
  [.upsertScan scanned, .beginBatch 1 1 2, .beginAnalysis 1 1 ⟨1, 1⟩,
    .storeAnalysis 1 ⟨1, 1⟩ invoice true true]

/-- A file that changed while it was analysed. -/
private def changedMeanwhile : List Write :=
  [.upsertScan scanned, .beginBatch 1 1 2, .beginAnalysis 1 1 ⟨1, 1⟩,
    .upsertScan ⟨2, some "pdf", none⟩]

/-- **The row drifts**: the second scan of an analysed file drops the words of the analysis from its
text, and an analysis that ends after the file changed is current beside a row of the new
version. -/
theorem search_row_drifts :
    ¬ History.Each NeverDrifts (analysed ++ [.upsertScan scanned]) ∧
      ¬ History.Each NeverDrifts
        (changedMeanwhile ++ [.storeAnalysis 1 ⟨1, 1⟩ invoice true true]) := by
  constructor
  · intro h
    have hindexed := (h analysed _ [] rfl).1.indexed _ rfl
    revert hindexed
    decide
  · intro h
    obtain ⟨d, hd, hpointed⟩ := (h changedMeanwhile _ [] rfl).1.pointed _ List.mem_cons_self rfl
    obtain rfl := Option.some.inj hd
    revert hpointed
    decide

end Zemo.Semantic
