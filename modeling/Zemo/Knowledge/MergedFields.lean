import Mathlib.Algebra.Order.BigOperators.Group.List
import Mathlib.Tactic.Linarith
import Mathlib.Tactic.Ring
import Zemo.Knowledge.Candidates

set_option autoImplicit false

/-! # What merged candidates give

Merging folds the candidates of a value from the first one on, so the confidence of a value depends
on which of its candidates comes first, and on nothing else of the order. The field follows the value
of the greatest confidence, and a second value near it makes it a conflict. -/

namespace Zemo.Knowledge

open Texts
open Semantic (SemanticFieldType SemanticValue)

variable {toLowercase : Text → Text} {policy : ConfidencePolicy}
variable {candidates : List SemanticCandidate} {first candidate merged : SemanticCandidate}

/-! ## Merging never fails -/

/-- What strengthening gives. -/
def strengthened (existing candidate : SemanticCandidate) : SemanticCandidate where
  value := existing.value
  originalValue := existing.originalValue
  confidence := {
    value := min (existing.confidence.value + candidate.confidence.value * (18 / 100)) (99 / 100)
    nonneg := le_min (add_nonneg existing.confidence.nonneg
      (mul_nonneg candidate.confidence.nonneg (by norm_num))) (by norm_num)
    le_one := (min_le_right _ _).trans (by norm_num) }
  evidence := appendUniqueEvidence existing.evidence candidate.evidence
  sourceMethod := existing.sourceMethod
  ambiguous := existing.ambiguous || candidate.ambiguous

theorem strengthen_eq (existing candidate : SemanticCandidate) :
    strengthen existing candidate = .ok (strengthened existing candidate) := by
  have hbounds : 0 ≤ min (existing.confidence.value + candidate.confidence.value * (18 / 100))
        (99 / 100)
      ∧ min (existing.confidence.value + candidate.confidence.value * (18 / 100)) (99 / 100) ≤ 1 :=
    ⟨(strengthened existing candidate).confidence.nonneg,
      (strengthened existing candidate).confidence.le_one⟩
  simp only [strengthen, ConfidenceScore.new, dif_pos hbounds]
  rfl

theorem keepsKey_strengthened : Grouping.KeepsKey (SemanticCandidate.key toLowercase) strengthened :=
  fun _ _ => rfl

theorem mergeCandidate_eq (candidate : SemanticCandidate) (merged : List SemanticCandidate) :
    mergeCandidate toLowercase candidate merged =
      .ok (Grouping.put (SemanticCandidate.key toLowercase) strengthened candidate merged) := by
  induction merged with
  | nil => rfl
  | cons existing rest ih =>
    unfold mergeCandidate Grouping.put
    split
    · rw [strengthen_eq]
      rfl
    · split
      · rfl
      · rw [ih]
        rfl

/-- Merging collects the candidates by their keys. -/
theorem mergeEquivalentCandidates_eq (candidates : List SemanticCandidate) :
    mergeEquivalentCandidates toLowercase candidates =
      .ok (Grouping.collect (SemanticCandidate.key toLowercase) strengthened candidates) := by
  unfold mergeEquivalentCandidates Grouping.collect
  generalize ([] : List SemanticCandidate) = merged
  induction candidates generalizing merged with
  | nil => rfl
  | cons candidate rest ih =>
    rw [List.foldlM_cons, mergeCandidate_eq]
    exact ih _

/-! ## The confidence of a value -/

/-- The candidates of a value. -/
def alike (toLowercase : Text → Text) (candidates : List SemanticCandidate)
    (candidate : SemanticCandidate) : List SemanticCandidate :=
  Grouping.group (SemanticCandidate.key toLowercase) candidates (candidate.key toLowercase)

/-- The confidence of the value of a candidate, when that candidate is the first one of its value:
the others of its value add less than a fifth of theirs. -/
def confidenceFrom (toLowercase : Text → Text) (candidates : List SemanticCandidate)
    (first : SemanticCandidate) : Rat :=
  let all := alike toLowercase candidates first
  if all.length = 1 then first.confidence.value
  else min (first.confidence.value
    + ((all.map (·.confidence.value)).sum - first.confidence.value) * (18 / 100)) (99 / 100)

theorem sum_confidence_nonneg (candidates : List SemanticCandidate) :
    0 ≤ (candidates.map (·.confidence.value)).sum := by
  refine List.sum_nonneg fun x hx => ?_
  obtain ⟨candidate, -, rfl⟩ := List.mem_map.1 hx
  exact candidate.confidence.nonneg

/-- Once there are two, the sum is capped. -/
theorem foldl_strengthened_confidence {rest : List SemanticCandidate} (hrest : rest ≠ []) :
    (rest.foldl strengthened first).confidence.value =
      min (first.confidence.value + (rest.map (·.confidence.value)).sum * (18 / 100))
        (99 / 100) := by
  induction rest generalizing first with
  | nil => exact absurd rfl hrest
  | cons candidate rest ih =>
    rw [List.foldl_cons]
    by_cases hnil : rest = []
    · subst hnil
      simp [strengthened]
    · rw [ih hnil, List.map_cons, List.sum_cons]
      have hsum := sum_confidence_nonneg rest
      simp only [strengthened]
      rcases le_total (first.confidence.value + candidate.confidence.value * (18 / 100)) (99 / 100)
        with hle | hle
      · rw [min_eq_left hle]
        congr 1
        ring
      · rw [min_eq_right hle, min_eq_right (by linarith), min_eq_right (by linarith)]

theorem foldl_strengthened_value (rest : List SemanticCandidate) :
    (rest.foldl strengthened first).value = first.value
      ∧ (rest.foldl strengthened first).sourceMethod = first.sourceMethod
      ∧ ((rest.foldl strengthened first).ambiguous = true ↔
          ∃ candidate ∈ first :: rest, candidate.ambiguous = true) := by
  induction rest generalizing first with
  | nil => simp
  | cons candidate rest ih =>
    obtain ⟨hvalue, hmethod, hambiguous⟩ := @ih (strengthened first candidate)
    refine ⟨hvalue, hmethod, hambiguous.trans ?_⟩
    simp [strengthened, or_assoc]

/-- The first candidate of a value. -/
abbrev firstAlike (toLowercase : Text → Text) (key : Text) (candidates : List SemanticCandidate) :
    Option SemanticCandidate :=
  Grouping.firstOf (SemanticCandidate.key toLowercase) key candidates

/-- Some candidate of the value is ambiguous. -/
def ambiguousAmong (toLowercase : Text → Text) (candidates : List SemanticCandidate)
    (candidate : SemanticCandidate) : Bool :=
  (alike toLowercase candidates candidate).any (·.ambiguous)

/-- What the candidates of a value are merged to, by the first of them. -/
structure MergedFrom (toLowercase : Text → Text) (candidates : List SemanticCandidate)
    (first merged : SemanticCandidate) : Prop where
  value : merged.value = first.value
  sourceMethod : merged.sourceMethod = first.sourceMethod
  confidence : merged.confidence.value = confidenceFrom toLowercase candidates first
  ambiguous : merged.ambiguous = ambiguousAmong toLowercase candidates first

theorem MergedFrom.key (h : MergedFrom toLowercase candidates first merged) :
    merged.key toLowercase = first.key toLowercase := by
  rw [SemanticCandidate.key, h.value, SemanticCandidate.key]

theorem mergedFrom_folded
    (h : firstAlike toLowercase (first.key toLowercase) candidates = some first) :
    ∃ merged, Grouping.folded (SemanticCandidate.key toLowercase) strengthened candidates
        (first.key toLowercase) = some merged
      ∧ MergedFrom toLowercase candidates first merged := by
  obtain ⟨rest, hrest⟩ := Grouping.group_of_firstOf h
  refine ⟨rest.foldl strengthened first, ?_, ?_⟩
  · rw [Grouping.folded_eq, show Grouping.firstOf _ _ _ = some first from h, hrest]
    rfl
  · obtain ⟨hvalue, hmethod, hambiguous⟩ := @foldl_strengthened_value first rest
    refine ⟨hvalue, hmethod, ?_, ?_⟩
    · rw [confidenceFrom, alike, hrest]
      by_cases hnil : rest = []
      · rw [hnil]
        rfl
      · rw [foldl_strengthened_confidence hnil,
          if_neg (by simpa using hnil), List.map_cons, List.sum_cons, add_sub_cancel_left]
    · rw [ambiguousAmong, alike, hrest, Bool.eq_iff_iff, hambiguous, List.any_eq_true]

/-- **Merging, by first candidates.** -/
theorem mem_collect_iff {merged : SemanticCandidate} :
    merged ∈ Grouping.collect (SemanticCandidate.key toLowercase) strengthened candidates →
      ∃ first, firstAlike toLowercase (first.key toLowercase) candidates = some first
        ∧ MergedFrom toLowercase candidates first merged := by
  intro h
  have hfolded := (Grouping.mem_collect keepsKey_strengthened).1 h
  obtain ⟨first, hfirst, -⟩ := Option.map_eq_some_iff.1 ((Grouping.folded_eq _).symm.trans hfolded)
  obtain ⟨-, hkey⟩ := Grouping.key_firstOf hfirst
  rw [← hkey] at hfirst hfolded
  obtain ⟨merged', hmerged, hfrom⟩ := mergedFrom_folded hfirst
  rw [hmerged] at hfolded
  obtain rfl := Option.some.inj hfolded
  exact ⟨first, hfirst, hfrom⟩

theorem exists_mem_collect
    (h : firstAlike toLowercase (first.key toLowercase) candidates = some first) :
    ∃ merged ∈ Grouping.collect (SemanticCandidate.key toLowercase) strengthened candidates,
      MergedFrom toLowercase candidates first merged := by
  obtain ⟨merged, hmerged, hfrom⟩ := mergedFrom_folded h
  refine ⟨merged, (Grouping.mem_collect keepsKey_strengthened).2 ?_, hfrom⟩
  rw [hfrom.key]
  exact hmerged

/-! ## The field -/

/-- The confidence of a value, from its first candidate. -/
def confidenceOf (toLowercase : Text → Text) (candidates : List SemanticCandidate)
    (candidate : SemanticCandidate) : Rat :=
  (firstAlike toLowercase (candidate.key toLowercase) candidates).elim 0
    (confidenceFrom toLowercase candidates)

/-- The value of a field, its confidence and its status. -/
structure Outcome where
  value : Option SemanticValue
  confidence : Rat
  status : FieldStatus
deriving DecidableEq

def SemanticField.outcome (field : SemanticField) : Outcome :=
  ⟨field.value, field.confidence.value, field.status⟩

/-- The outcome for a first candidate, with a confidence, an ambiguity and a near rival. -/
def outcomeFrom (policy : ConfidencePolicy) (first : SemanticCandidate) (confidence : Rat)
    (ambiguous rival : Bool) : Outcome :=
  if isUnknownValue first.value then ⟨none, confidence, .unknown⟩
  else if rival then ⟨none, confidence, .conflicting⟩
  else if confidence < policy.medium then
    ⟨none, confidence, if ambiguous then .ambiguous else .unknown⟩
  else ⟨some first.value, confidence,
    if ambiguous then .ambiguous
    else if policy.high ≤ confidence && first.sourceMethod ≠ .filenameHint then .confirmed
    else .inferred⟩

/-- Two confidences are good enough and near each other. -/
def near (policy : ConfidencePolicy) (confidence other : Rat) : Bool :=
  policy.medium ≤ confidence && policy.medium ≤ other
    && confidence - other < policy.conflictMargin

/-- Another value is near the one of a candidate. -/
def hasRival (toLowercase : Text → Text) (policy : ConfidencePolicy)
    (candidates : List SemanticCandidate) (first : SemanticCandidate) : Bool :=
  candidates.any fun other => other.key toLowercase ≠ first.key toLowercase
    && near policy (confidenceOf toLowercase candidates first)
      (confidenceOf toLowercase candidates other)

/-- The first candidate of the value of the greatest confidence, which is the least one of these. -/
structure Primary (toLowercase : Text → Text) (candidates : List SemanticCandidate)
    (first : SemanticCandidate) : Prop where
  isFirst : firstAlike toLowercase (first.key toLowercase) candidates = some first
  greatest : ∀ other ∈ candidates,
    confidenceOf toLowercase candidates other ≤ confidenceOf toLowercase candidates first
  least : ∀ other ∈ candidates,
    confidenceOf toLowercase candidates other = confidenceOf toLowercase candidates first →
      first.key toLowercase ≤ other.key toLowercase

theorem confidenceOf_congr (h : first.key toLowercase = candidate.key toLowercase) :
    confidenceOf toLowercase candidates first = confidenceOf toLowercase candidates candidate := by
  rw [confidenceOf, h, confidenceOf]

theorem confidenceOf_first
    (h : firstAlike toLowercase (first.key toLowercase) candidates = some first) :
    confidenceOf toLowercase candidates first = confidenceFrom toLowercase candidates first := by
  rw [confidenceOf, h]
  rfl

theorem MergedFrom.confidence_eq (h : MergedFrom toLowercase candidates first merged)
    (hfirst : firstAlike toLowercase (first.key toLowercase) candidates = some first) :
    merged.confidence.value = confidenceOf toLowercase candidates merged := by
  rw [h.confidence, ← confidenceOf_first hfirst, confidenceOf_congr h.key]

/-- Every candidate has a merged one of its value. -/
theorem exists_merged (toLowercase : Text → Text) (h : candidate ∈ candidates) :
    ∃ merged ∈ Grouping.collect (SemanticCandidate.key toLowercase) strengthened candidates,
      merged.key toLowercase = candidate.key toLowercase
        ∧ merged.confidence.value = confidenceOf toLowercase candidates candidate := by
  obtain ⟨first, hfirst⟩ := @Grouping.exists_firstOf _ _ _ (SemanticCandidate.key toLowercase) _ _ h
  obtain ⟨-, hkey⟩ := Grouping.key_firstOf hfirst
  rw [← hkey] at hfirst
  obtain ⟨merged, hmem, hfrom⟩ := exists_mem_collect hfirst
  refine ⟨merged, hmem, hfrom.key.trans hkey, ?_⟩
  rw [hfrom.confidence_eq hfirst, confidenceOf_congr (hfrom.key.trans hkey)]

theorem near_mono {confidence other better : Rat} (hle : other ≤ better)
    (h : near policy confidence other = true) : near policy confidence better = true := by
  simp only [near, Bool.and_eq_true, decide_eq_true_eq] at h ⊢
  obtain ⟨⟨hmedium, hother⟩, hmargin⟩ := h
  exact ⟨⟨hmedium, hother.trans hle⟩, by linarith⟩

theorem collect_pairwise (toLowercase : Text → Text) (candidates : List SemanticCandidate) :
    (Grouping.collect (SemanticCandidate.key toLowercase) strengthened candidates).Pairwise
      fun x y => x.key toLowercase < y.key toLowercase :=
  Grouping.collect_sorted keepsKey_strengthened candidates

/-- The second candidate is in conflict with the first when any other value is near it. -/
theorem inConflict_second (policy : ConfidencePolicy) {primary : SemanticCandidate}
    {rest : List SemanticCandidate}
    (hfrom : MergedFrom toLowercase candidates first primary)
    (hfirst : firstAlike toLowercase (first.key toLowercase) candidates = some first)
    (hsort : ((Grouping.collect (SemanticCandidate.key toLowercase) strengthened candidates
      ).insertionSort fun left right => right.confidence.value ≤ left.confidence.value)
        = primary :: rest) :
    rest.head?.any (inConflict toLowercase policy primary) =
      hasRival toLowercase policy candidates first := by
  have hperm := List.perm_insertionSort
    (fun left right : SemanticCandidate => right.confidence.value ≤ left.confidence.value)
    (Grouping.collect (SemanticCandidate.key toLowercase) strengthened candidates)
  rw [hsort] at hperm
  have hmem : ∀ merged, merged ∈ Grouping.collect (SemanticCandidate.key toLowercase)
      strengthened candidates ↔ merged = primary ∨ merged ∈ rest := fun merged =>
    hperm.mem_iff.symm.trans List.mem_cons
  have hconfidence : primary.confidence.value = confidenceOf toLowercase candidates first := by
    rw [hfrom.confidence_eq hfirst, confidenceOf_congr hfrom.key]
  rw [Bool.eq_iff_iff, hasRival, List.any_eq_true]
  constructor
  · intro hconflict
    cases rest with
    | nil => cases hconflict
    | cons second rest =>
      simp only [List.head?_cons, Option.any_some, inConflict, Bool.and_eq_true,
        decide_eq_true_eq] at hconflict
      obtain ⟨⟨⟨hmedium, hsecond⟩, hmargin⟩, hkey⟩ := hconflict
      obtain ⟨first', hfirst', hfrom'⟩ := mem_collect_iff ((hmem second).2 (by simp))
      refine ⟨first', (Grouping.key_firstOf hfirst').1, ?_⟩
      rw [← confidenceOf_congr hfrom'.key, ← hfrom'.confidence_eq hfirst', ← hconfidence]
      simp only [near, Bool.and_eq_true, decide_eq_true_eq]
      rw [hfrom.key, hfrom'.key] at hkey
      exact ⟨fun h => hkey h.symm, ⟨hmedium, hsecond⟩, hmargin⟩
  · rintro ⟨other, hother, hrival⟩
    obtain ⟨hkey, hnear⟩ := Bool.and_eq_true_iff.1 hrival
    obtain ⟨merged, hmerged, hmergedKey, hmergedConfidence⟩ := exists_merged toLowercase hother
    have hne : merged ≠ primary := by
      rintro rfl
      exact of_decide_eq_true hkey (hmergedKey.symm.trans hfrom.key)
    cases rest with
    | nil => exact absurd ((hmem merged).1 hmerged) (by simp [hne])
    | cons second rest =>
      have hle := Grouping.le_second hsort hmerged hne
      rw [hmergedConfidence] at hle
      have hsecondNear := near_mono hle hnear
      rw [← hconfidence] at hsecondNear
      have hkeys := ((collect_pairwise toLowercase candidates).imp
        ne_of_lt).perm hperm.symm fun h => h.symm
      simp only [near, Bool.and_eq_true, decide_eq_true_eq] at hsecondNear
      simp only [List.head?_cons, Option.any_some, inConflict, Bool.and_eq_true, decide_eq_true_eq]
      exact ⟨hsecondNear, (List.pairwise_cons.1 hkeys).1 second (by simp)⟩

/-- **What a field becomes.** The outcome follows the first candidate of the leading value. -/
theorem resolveField_outcome (fieldType : SemanticFieldType) (h : candidates ≠ []) :
    ∃ first field, Primary toLowercase candidates first
      ∧ resolveField toLowercase policy fieldType candidates = .ok field
      ∧ field.outcome = outcomeFrom policy first (confidenceOf toLowercase candidates first)
          (ambiguousAmong toLowercase candidates first)
          (hasRival toLowercase policy candidates first) := by
  have hpairwise := collect_pairwise toLowercase candidates
  cases hsort : (Grouping.collect (SemanticCandidate.key toLowercase) strengthened candidates
    ).insertionSort fun left right => right.confidence.value ≤ left.confidence.value with
  | nil =>
    obtain ⟨candidate, hcandidate⟩ := List.exists_mem_of_ne_nil _ h
    obtain ⟨merged, hmerged, -⟩ := exists_merged toLowercase hcandidate
    have hmem := (List.mem_insertionSort fun left right : SemanticCandidate =>
      right.confidence.value ≤ left.confidence.value).2 hmerged
    rw [hsort] at hmem
    cases hmem
  | cons primary rest =>
    obtain ⟨hprimary, hgreatest⟩ :=
      @Grouping.head?_insertionSort _ _ _ (fun merged : SemanticCandidate => merged.confidence.value)
        _ _ _ hpairwise (congrArg List.head? hsort)
    obtain ⟨first, hfirst, hfrom⟩ := mem_collect_iff hprimary
    have hconfidence : primary.confidence.value = confidenceOf toLowercase candidates first := by
      rw [hfrom.confidence_eq hfirst, confidenceOf_congr hfrom.key]
    have hrival := inConflict_second policy hfrom hfirst hsort
    have hrest : (rest.take 7).head? = rest.head? := by cases rest <;> rfl
    refine ⟨first, ?_⟩
    have hleads : Primary toLowercase candidates first := by
      refine ⟨hfirst, fun other hother => ?_, fun other hother heq => ?_⟩
      · obtain ⟨merged, hmerged, -, hvalue⟩ := exists_merged toLowercase hother
        rw [← hvalue, ← hconfidence]
        exact (hgreatest merged hmerged).1
      · obtain ⟨merged, hmerged, hkey, hvalue⟩ := exists_merged toLowercase hother
        rw [← hvalue, ← hconfidence] at heq
        rw [← hkey, ← hfrom.key]
        rcases (hgreatest merged hmerged).2 heq with rfl | hlt
        · exact le_refl _
        · exact hlt.le
    have hresolve : resolveField toLowercase policy fieldType candidates =
        if isUnknownValue primary.value then
          .ok (undecided fieldType (primary :: rest.take 7) primary .unknown primary.evidence)
        else if rest.head?.any (inConflict toLowercase policy primary) then
          .ok (undecided fieldType (primary :: rest.take 7) primary .conflicting
            (appendUniqueEvidence primary.evidence (rest.head?.elim [] (·.evidence))))
        else if primary.confidence.value < policy.medium then
          .ok (undecided fieldType (primary :: rest.take 7) primary
            (if primary.ambiguous then .ambiguous else .unknown) primary.evidence)
        else .ok {
          fieldType, value := some primary.value, originalValue := some primary.originalValue
          confidence := primary.confidence, status := decidedStatus policy primary
          evidence := primary.evidence, candidates := primary :: rest.take 7
          sourceMethod := primary.sourceMethod, analyzerVersion } := by
      unfold resolveField
      rw [mergeEquivalentCandidates_eq]
      simp only [bind, Except.bind, hsort, List.take_succ_cons, hrest]
      rfl
    rw [hresolve, hrival]
    unfold outcomeFrom
    rw [hfrom.value, ← hfrom.ambiguous, ← hfrom.sourceMethod, ← hconfidence]
    by_cases hunknown : isUnknownValue first.value = true
    · rw [if_pos hunknown, if_pos hunknown]
      exact ⟨_, hleads, rfl, rfl⟩
    rw [if_neg hunknown, if_neg hunknown]
    by_cases hconflict : hasRival toLowercase policy candidates first = true
    · rw [if_pos hconflict, if_pos hconflict]
      exact ⟨_, hleads, rfl, rfl⟩
    rw [if_neg hconflict, if_neg hconflict]
    split
    · exact ⟨_, hleads, rfl, rfl⟩
    · exact ⟨_, hleads, rfl, rfl⟩

end Zemo.Knowledge
