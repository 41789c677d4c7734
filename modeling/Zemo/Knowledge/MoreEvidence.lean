import Zemo.Knowledge.FieldOrder

set_option autoImplicit false

/-! # More evidence

More evidence should not weaken a field, and the order of the candidates should not matter. The
merged confidence of a value counts its first candidate in full and the others by less than a fifth,
so both fail: a weak mention in front of a strong one gives less than the strong one alone. What is
said of confirmed fields holds, and two best values near each other make a conflict unless a type or
context that is not known leads. -/

namespace Zemo.Knowledge

open Texts
open Semantic (SemanticFieldType SemanticValue)

variable (toLowercase : Text → Text) (policy : ConfidencePolicy)
variable (candidates : List SemanticCandidate)

/-! ## What is asked for -/

/-- Two merged candidates stand for different values that are good enough and near each other. -/
def NearRivals (first second : SemanticCandidate) : Prop :=
  second.key toLowercase ≠ first.key toLowercase
    ∧ near policy first.confidence.value second.confidence.value = true

/-- The two best of the merged candidates. -/
structure TwoBest (merged : List SemanticCandidate) (first second : SemanticCandidate) : Prop where
  first_mem : first ∈ merged
  second_mem : second ∈ merged
  first_best : ∀ other ∈ merged, other.confidence.value ≤ first.confidence.value
  second_best : ∀ other ∈ merged, other.key toLowercase ≠ first.key toLowercase →
    other.confidence.value ≤ second.confidence.value

/-- Evidence does no harm, and a field is settled by what is near its value. -/
structure EvidenceHelps : Prop where
  /-- A merged value is at least as sure as its best candidate. -/
  neverWeaker : ∀ merged, mergeEquivalentCandidates toLowercase candidates = .ok merged →
    ∀ candidate ∈ candidates, ∃ value ∈ merged,
      value.key toLowercase = candidate.key toLowercase
        ∧ candidate.confidence.value ≤ value.confidence.value
  /-- Every order gives the same value, confidence and status. -/
  orderFree : ∀ fieldType order, order.Perm candidates →
    outcomeOf toLowercase policy order fieldType =
      outcomeOf toLowercase policy candidates fieldType
  /-- A confirmed value is not ambiguous and has no rival. -/
  confirmed : ∀ fieldType field merged,
    resolveField toLowercase policy fieldType candidates = .ok field →
    mergeEquivalentCandidates toLowercase candidates = .ok merged → field.status = .confirmed →
      ∃ primary ∈ merged, field.value = some primary.value ∧ primary.ambiguous = false
        ∧ ∀ other ∈ merged, ¬NearRivals toLowercase policy primary other
  /-- Two best values near each other make a conflict. -/
  conflicting : ∀ fieldType field merged first second,
    resolveField toLowercase policy fieldType candidates = .ok field →
    mergeEquivalentCandidates toLowercase candidates = .ok merged →
    TwoBest toLowercase merged first second → NearRivals toLowercase policy first second →
      field.status = .conflicting ∧ field.value = none

/-! ## The conditions -/

/-- The first candidate of a value with others is not much weaker than any of them. -/
def FirstIsStrong : Prop :=
  ∀ first candidate, candidate ∈ candidates →
    firstAlike toLowercase (candidate.key toLowercase) candidates = some first →
      (alike toLowercase candidates first).length = 1
        ∨ (candidate.confidence.value ≤ first.confidence.value
              + (((alike toLowercase candidates first).map (·.confidence.value)).sum
                - first.confidence.value) * (18 / 100)
            ∧ candidate.confidence.value ≤ 99 / 100)

/-- A type or context that is not known does not lead in front of a near rival. -/
def UnknownHasNoRival : Prop :=
  ∀ first, Primary toLowercase candidates first → isUnknownValue first.value = true →
    hasRival toLowercase policy candidates first = false

variable {toLowercase policy candidates} {first : SemanticCandidate} {fieldType : SemanticFieldType}

/-! ## More evidence -/

/-- A value is as sure as its candidates when its first candidate is strong. -/
theorem firstIsStrong_iff :
    FirstIsStrong toLowercase candidates ↔ ∀ candidate ∈ candidates,
      candidate.confidence.value ≤ confidenceOf toLowercase candidates candidate := by
  have hfrom : ∀ candidate ∈ candidates, ∀ first,
      firstAlike toLowercase (candidate.key toLowercase) candidates = some first →
      (candidate.confidence.value ≤ confidenceOf toLowercase candidates candidate ↔
        (alike toLowercase candidates first).length = 1
          ∨ (candidate.confidence.value ≤ first.confidence.value
                + (((alike toLowercase candidates first).map (·.confidence.value)).sum
                  - first.confidence.value) * (18 / 100)
              ∧ candidate.confidence.value ≤ 99 / 100)) := by
    intro candidate hmem first hfirst
    have hkey := (Grouping.key_firstOf hfirst).2
    rw [confidenceOf, hfirst, Option.elim_some, confidenceFrom]
    by_cases hone : (alike toLowercase candidates first).length = 1
    · obtain ⟨only, honly⟩ := List.length_eq_one_iff.1 hone
      have hcandidate : candidate ∈ alike toLowercase candidates first :=
        Grouping.mem_group.2 ⟨hmem, hkey.symm⟩
      have hfirstMem : first ∈ alike toLowercase candidates first :=
        Grouping.mem_group.2 ⟨(Grouping.key_firstOf hfirst).1, rfl⟩
      rw [honly, List.mem_singleton] at hcandidate hfirstMem
      rw [if_pos hone, hcandidate.trans hfirstMem.symm]
      simp [hone]
    · rw [if_neg hone, le_min_iff]
      simp [hone]
  constructor
  · intro h candidate hmem
    obtain ⟨first, hfirst, -⟩ := exists_first toLowercase hmem
    exact (hfrom candidate hmem first hfirst).2 (h first candidate hmem hfirst)
  · intro h first candidate hmem hfirst
    exact (hfrom candidate hmem first hfirst).1 (h candidate hmem)

/-- The merged candidate of a value is the only one. -/
theorem merged_unique {value value' : SemanticCandidate}
    (h : value ∈ Grouping.collect (SemanticCandidate.key toLowercase) strengthened candidates)
    (h' : value' ∈ Grouping.collect (SemanticCandidate.key toLowercase) strengthened candidates)
    (hkey : value.key toLowercase = value'.key toLowercase) : value = value' := by
  have hfold := (Grouping.mem_collect keepsKey_strengthened).1 h
  rw [hkey, (Grouping.mem_collect keepsKey_strengthened).1 h'] at hfold
  exact (Option.some.inj hfold).symm

theorem neverWeaker_iff :
    (∀ merged, mergeEquivalentCandidates toLowercase candidates = .ok merged →
      ∀ candidate ∈ candidates, ∃ value ∈ merged,
        value.key toLowercase = candidate.key toLowercase
          ∧ candidate.confidence.value ≤ value.confidence.value)
      ↔ FirstIsStrong toLowercase candidates := by
  rw [firstIsStrong_iff, mergeEquivalentCandidates_eq]
  constructor
  · intro h candidate hmem
    obtain ⟨value, hvalue, hkey, hle⟩ := h _ rfl candidate hmem
    obtain ⟨value', hvalue', hkey', hconfidence⟩ := exists_merged toLowercase hmem
    rw [← hconfidence, ← merged_unique hvalue hvalue' (hkey.trans hkey'.symm)]
    exact hle
  · rintro h merged hmerged candidate hmem
    obtain rfl := Except.ok.inj hmerged
    obtain ⟨value, hvalue, hkey, hconfidence⟩ := exists_merged toLowercase hmem
    exact ⟨value, hvalue, hkey, hconfidence ▸ h candidate hmem⟩

/-! ## Confirmation and conflict -/

/-- A merged candidate is as sure as its value. -/
theorem confidence_of_mem_collect {value : SemanticCandidate}
    (h : value ∈ Grouping.collect (SemanticCandidate.key toLowercase) strengthened candidates) :
    value.confidence.value = confidenceOf toLowercase candidates value
      ∧ ∃ candidate ∈ candidates, candidate.key toLowercase = value.key toLowercase := by
  obtain ⟨first, hfirst, hfrom⟩ := mem_collect_iff h
  exact ⟨hfrom.confidence_eq hfirst, first, (Grouping.key_firstOf hfirst).1, hfrom.key.symm⟩

/-- A near rival among the merged candidates is one of the value. -/
theorem hasRival_of_nearRivals {value rival : SemanticCandidate}
    (hvalue : value ∈ Grouping.collect (SemanticCandidate.key toLowercase) strengthened candidates)
    (hrival : rival ∈ Grouping.collect (SemanticCandidate.key toLowercase) strengthened candidates)
    (hkey : value.key toLowercase = first.key toLowercase)
    (h : NearRivals toLowercase policy value rival) :
    hasRival toLowercase policy candidates first = true := by
  obtain ⟨hne, hnear⟩ := h
  obtain ⟨hrivalConfidence, candidate, hmem, hcandidate⟩ := confidence_of_mem_collect hrival
  rw [(confidence_of_mem_collect hvalue).1, hrivalConfidence, confidenceOf_congr hkey,
    ← confidenceOf_congr hcandidate] at hnear
  rw [hkey, ← hcandidate] at hne
  exact List.any_eq_true.2 ⟨candidate, hmem, Bool.and_eq_true_iff.2 ⟨decide_eq_true hne, hnear⟩⟩

theorem confirmed_spec {field : SemanticField} {merged : List SemanticCandidate}
    (hresolve : resolveField toLowercase policy fieldType candidates = .ok field)
    (hmerged : mergeEquivalentCandidates toLowercase candidates = .ok merged)
    (hstatus : field.status = .confirmed) :
    ∃ primary ∈ merged, field.value = some primary.value ∧ primary.ambiguous = false
      ∧ ∀ other ∈ merged, ¬NearRivals toLowercase policy primary other := by
  rw [mergeEquivalentCandidates_eq] at hmerged
  obtain rfl := Except.ok.inj hmerged
  have hne : candidates ≠ [] := by
    rintro rfl
    obtain rfl := Except.ok.inj hresolve
    cases hstatus
  obtain ⟨first, hprimary, houtcome⟩ :=
    @outcomeOf_eq toLowercase policy _ _ fieldType (List.Perm.refl candidates) hne
  rw [outcomeOf, hresolve] at houtcome
  have houtcome := Except.ok.inj houtcome
  have hled := led toLowercase policy candidates candidates first
  rw [← houtcome] at hled
  obtain ⟨hvalue, hambiguous, hrival⟩ := hled.of_confirmed hstatus
  obtain ⟨primary, hmem, hfrom⟩ := exists_mem_collect hprimary.isFirst
  refine ⟨primary, hmem, hvalue.trans (congrArg some hfrom.value.symm),
    hfrom.ambiguous.trans hambiguous, fun other hother hnear => ?_⟩
  rw [hasRival_of_nearRivals hmem hother hfrom.key hnear] at hrival
  cases hrival

/-- The two best values have a near rival where the field's value has one. -/
theorem Primary.hasRival_of_twoBest {best second : SemanticCandidate}
    (hprimary : Primary toLowercase candidates first)
    (hbest : TwoBest toLowercase
      (Grouping.collect (SemanticCandidate.key toLowercase) strengthened candidates) best second)
    (hnear : NearRivals toLowercase policy best second) :
    hasRival toLowercase policy candidates first = true := by
  obtain ⟨primary, hmem, hfrom⟩ := exists_mem_collect hprimary.isFirst
  by_cases hkey : best.key toLowercase = first.key toLowercase
  · exact hasRival_of_nearRivals hbest.first_mem hbest.second_mem hkey hnear
  · -- the two lead together, so one is near the other
    refine hasRival_of_nearRivals hmem hbest.first_mem hfrom.key ⟨fun h => hkey ?_, ?_⟩
    · exact h.trans hfrom.key
    · obtain ⟨hconfidence, candidate, hcandidate, hcandidateKey⟩ :=
        confidence_of_mem_collect hbest.first_mem
      have hle := hbest.first_best primary hmem
      have hge := hprimary.greatest candidate hcandidate
      rw [confidenceOf_congr hcandidateKey, ← hconfidence, ← confidenceOf_congr hfrom.key,
        ← (confidence_of_mem_collect hmem).1] at hge
      have hsecond := hbest.first_best second hbest.second_mem
      obtain ⟨-, hnear⟩ := hnear
      simp only [near, Bool.and_eq_true, decide_eq_true_eq] at hnear ⊢
      obtain ⟨⟨hmedium, hother⟩, hmargin⟩ := hnear
      exact ⟨⟨by linarith, hmedium⟩, by linarith⟩

/-- A field's value with a rival is one of the two best, near the other. -/
theorem Primary.exists_twoBest (hprimary : Primary toLowercase candidates first)
    (hrival : hasRival toLowercase policy candidates first = true) :
    ∃ best second, TwoBest toLowercase
        (Grouping.collect (SemanticCandidate.key toLowercase) strengthened candidates) best second
      ∧ NearRivals toLowercase policy best second := by
  obtain ⟨best, hmem, hfrom⟩ := exists_mem_collect hprimary.isFirst
  have hbestConfidence : best.confidence.value = confidenceOf toLowercase candidates first := by
    rw [(confidence_of_mem_collect hmem).1, confidenceOf_congr hfrom.key]
  obtain ⟨other, hother, hrival⟩ := List.any_eq_true.1 hrival
  obtain ⟨hkey, hnear⟩ := Bool.and_eq_true_iff.1 hrival
  obtain ⟨rival, hrivalMem, hrivalKey, hrivalConfidence⟩ := exists_merged toLowercase hother
  have hrivalOther : rival.key toLowercase ≠ best.key toLowercase := by
    rw [hrivalKey, hfrom.key]
    exact of_decide_eq_true hkey
  obtain ⟨second, hsecond, hgreatest⟩ := @Grouping.exists_greatest _
    ((Grouping.collect (SemanticCandidate.key toLowercase) strengthened candidates).filter
      fun value => value.key toLowercase ≠ best.key toLowercase) _ _
    (fun value => value.confidence.value)
    (List.ne_nil_of_mem (List.mem_filter.2 ⟨hrivalMem, decide_eq_true hrivalOther⟩))
  obtain ⟨hsecondMem, hsecondKey⟩ := List.mem_filter.1 hsecond
  refine ⟨best, second, ⟨hmem, hsecondMem, fun value hvalue => ?_, fun value hvalue hne => ?_⟩,
    of_decide_eq_true hsecondKey, ?_⟩
  · obtain ⟨hconfidence, candidate, hcandidate, hcandidateKey⟩ := confidence_of_mem_collect hvalue
    rw [hconfidence, ← confidenceOf_congr hcandidateKey, hbestConfidence]
    exact hprimary.greatest candidate hcandidate
  · exact hgreatest value (List.mem_filter.2 ⟨hvalue, decide_eq_true hne⟩)
  · have hle := hgreatest rival (List.mem_filter.2 ⟨hrivalMem, decide_eq_true hrivalOther⟩)
    rw [hrivalConfidence] at hle
    rw [hbestConfidence]
    exact near_mono hle hnear

theorem conflicting_iff :
    (∀ fieldType field merged first second,
      resolveField toLowercase policy fieldType candidates = .ok field →
      mergeEquivalentCandidates toLowercase candidates = .ok merged →
      TwoBest toLowercase merged first second → NearRivals toLowercase policy first second →
        field.status = .conflicting ∧ field.value = none)
      ↔ UnknownHasNoRival toLowercase policy candidates := by
  rw [mergeEquivalentCandidates_eq]
  constructor
  · intro h first hprimary hunknown
    rw [← Bool.not_eq_true]
    intro hrival
    obtain ⟨primary, second, hbest, hnear⟩ := hprimary.exists_twoBest hrival
    obtain ⟨first', field, hprimary', hresolve, houtcome⟩ :=
      @resolveField_outcome toLowercase policy _ .documentType
        (List.ne_nil_of_mem (Grouping.key_firstOf hprimary.isFirst).1)
    obtain rfl := hprimary.unique hprimary'
    have hstatus := (h .documentType field _ primary second hresolve rfl hbest hnear).1
    have houtcome := congrArg Outcome.status houtcome
    rw [outcomeFrom, if_pos hunknown] at houtcome
    cases hstatus.symm.trans houtcome
  · rintro h fieldType field merged best second hresolve hmerged hbest hnear
    obtain rfl := Except.ok.inj hmerged
    have hne : candidates ≠ [] := by
      rintro rfl
      exact absurd hbest.first_mem (List.not_mem_nil)
    obtain ⟨first, hprimary, houtcome⟩ :=
      @outcomeOf_eq toLowercase policy _ _ fieldType (List.Perm.refl candidates) hne
    rw [outcomeOf, hresolve] at houtcome
    have houtcome := Except.ok.inj houtcome
    have hrival := hprimary.hasRival_of_twoBest hbest hnear
    have hknown : isUnknownValue first.value = false := by
      rw [← Bool.not_eq_true]
      intro hunknown
      rw [h first hprimary hunknown] at hrival
      cases hrival
    have hconflict : field.outcome =
        ⟨none, confidenceFrom toLowercase candidates first, .conflicting⟩ := by
      rw [houtcome, outcomeIn, outcomeFrom, hknown, hrival]
      simp
    exact ⟨congrArg Outcome.status hconflict, congrArg Outcome.value hconflict⟩

/-- **When evidence helps.** More evidence never weakens a field, in whatever order, and its status
follows what is near its value, exactly when the first candidate of every value is strong, what leads
does not depend on the order, and no value that is not known leads in front of a near one. -/
theorem evidenceHelps_iff :
    EvidenceHelps toLowercase policy candidates ↔
      FirstIsStrong toLowercase candidates ∧ OrderFree toLowercase policy candidates
        ∧ UnknownHasNoRival toLowercase policy candidates := by
  constructor
  · intro h
    exact ⟨neverWeaker_iff.1 h.neverWeaker, orderFree_of_same h.orderFree,
      conflicting_iff.1 h.conflicting⟩
  · rintro ⟨hstrong, horder, hunknown⟩
    exact ⟨neverWeaker_iff.2 hstrong, fun fieldType order hperm => horder.outcomeOf_eq hperm,
      fun fieldType field merged hresolve hmerged hstatus =>
        confirmed_spec hresolve hmerged hstatus,
      conflicting_iff.2 hunknown⟩

/-! ## A weak mention first -/

/-- A candidate for a party, without evidence. -/
def mention (name : String) (confidence : ConfidenceScore) : SemanticCandidate :=
  { value := .text name, originalValue := name.toList, confidence, evidence := []
    sourceMethod := .regexParser, ambiguous := false }

def weakConfidence : ConfidenceScore := ⟨1 / 10, by norm_num, by norm_num⟩

def strongConfidence : ConfidenceScore := ⟨9 / 10, by norm_num, by norm_num⟩

/-- A weak mention in front of a strong one leaves the field without a value that the strong one
gives alone, and in front of the weak one too. -/
theorem weakFirst_not_helps :
    ¬EvidenceHelps id .default [mention "ACME" weakConfidence, mention "ACME" strongConfidence]
      ∧ outcomeOf id .default [mention "ACME" weakConfidence, mention "ACME" strongConfidence]
          .supplierCandidate = .ok ⟨none, 262 / 1000, .unknown⟩
      ∧ outcomeOf id .default [mention "ACME" strongConfidence, mention "ACME" weakConfidence]
          .supplierCandidate = .ok ⟨some (.text "ACME"), 918 / 1000, .confirmed⟩
      ∧ outcomeOf id .default [mention "ACME" strongConfidence] .supplierCandidate =
          .ok ⟨some (.text "ACME"), 9 / 10, .confirmed⟩ := by
  have hweak : outcomeOf id .default
      [mention "ACME" weakConfidence, mention "ACME" strongConfidence] .supplierCandidate =
        .ok ⟨none, 262 / 1000, .unknown⟩ := by decide +kernel
  have hstrong : outcomeOf id .default
      [mention "ACME" strongConfidence, mention "ACME" weakConfidence] .supplierCandidate =
        .ok ⟨some (.text "ACME"), 918 / 1000, .confirmed⟩ := by decide +kernel
  refine ⟨fun h => ?_, hweak, hstrong, by decide +kernel⟩
  have hsame := h.orderFree .supplierCandidate
    [mention "ACME" strongConfidence, mention "ACME" weakConfidence] (List.Perm.swap ..)
  rw [hweak, hstrong] at hsame
  cases Except.ok.inj hsame

end Zemo.Knowledge
