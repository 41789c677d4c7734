import Zemo.Knowledge.MergedFields

set_option autoImplicit false

/-! # A field and the order of its candidates

The confidence of a value depends on which of its candidates comes first, so the order of the
candidates can decide which value leads, whether another one is near it, and how the field is
written. The file says exactly when a field has the same value, confidence and status in every
order: the confidence of the leading value must not depend on the order, and all candidates that can
come first in it must agree on what becomes of the field. -/

namespace Zemo.Knowledge

open Texts
open Semantic (SemanticFieldType SemanticValue)

variable (toLowercase : Text → Text) (policy : ConfidencePolicy)
variable (candidates : List SemanticCandidate)

/-- The outcome of resolving a field. -/
def outcomeOf (fieldType : SemanticFieldType) : Except KnowledgeError Outcome :=
  (resolveField toLowercase policy fieldType candidates).map SemanticField.outcome

/-! ## The conditions -/

/-- A candidate can be the first of the leading value. -/
structure CanLead (first : SemanticCandidate) : Prop where
  mem : first ∈ candidates
  greatest : ∀ other ∈ candidates,
    confidenceFrom toLowercase candidates other ≤ confidenceFrom toLowercase candidates first
  least : ∀ other ∈ candidates, other.key toLowercase < first.key toLowercase →
    ∃ weaker ∈ candidates, weaker.key toLowercase = other.key toLowercase
      ∧ confidenceFrom toLowercase candidates weaker < confidenceFrom toLowercase candidates first

/-- A candidate can be the first of another value while `first` leads. -/
def CanFollow (first other : SemanticCandidate) : Prop :=
  first.key toLowercase < other.key toLowercase
    ∨ (other.key toLowercase ≠ first.key toLowercase
      ∧ confidenceFrom toLowercase candidates other < confidenceFrom toLowercase candidates first)

/-- As first candidates of their values the two are near each other. -/
def NearFrom (first other : SemanticCandidate) : Prop :=
  near policy (confidenceFrom toLowercase candidates first)
    (confidenceFrom toLowercase candidates other) = true

/-- Some value is as sure in every order as any value in any order. -/
def TopIsFixed : Prop :=
  ∃ top ∈ candidates, ∀ alike ∈ candidates, alike.key toLowercase = top.key toLowercase →
    ∀ other ∈ candidates,
      confidenceFrom toLowercase candidates other ≤ confidenceFrom toLowercase candidates alike

/-- Whatever leads is not known. -/
def LeadsUnknown : Prop :=
  ∀ first, CanLead toLowercase candidates first →
    isUnknownValue first.value = true
      ∨ (confidenceFrom toLowercase candidates first < policy.medium
        ∧ ambiguousAmong toLowercase candidates first = false)

/-- Whatever leads has another value near it in every order. -/
def LeadsConflicting : Prop :=
  ∀ first, CanLead toLowercase candidates first →
    isUnknownValue first.value = false
      ∧ ∃ other ∈ candidates, other.key toLowercase ≠ first.key toLowercase
        ∧ ∀ alike ∈ candidates, alike.key toLowercase = other.key toLowercase →
          CanFollow toLowercase candidates first alike →
            NearFrom toLowercase policy candidates first alike

/-- Whatever leads is ambiguous and not good enough. -/
def LeadsWeakly : Prop :=
  ∀ first, CanLead toLowercase candidates first →
    isUnknownValue first.value = false
      ∧ confidenceFrom toLowercase candidates first < policy.medium
      ∧ ambiguousAmong toLowercase candidates first = true

/-- Whatever leads has one value and one status, and never another value near it. -/
def LeadsDecided : Prop :=
  (∀ first, CanLead toLowercase candidates first →
    isUnknownValue first.value = false
      ∧ policy.medium ≤ confidenceFrom toLowercase candidates first
      ∧ ∀ other ∈ candidates, CanFollow toLowercase candidates first other →
        ¬NearFrom toLowercase policy candidates first other)
  ∧ ∀ first second, CanLead toLowercase candidates first →
    CanLead toLowercase candidates second →
      first.value = second.value
        ∧ (ambiguousAmong toLowercase candidates first = true
          ∨ confidenceFrom toLowercase candidates first < policy.high
          ∨ (first.sourceMethod = .filenameHint ↔ second.sourceMethod = .filenameHint))

/-- The field is the same in every order. -/
def OrderFree : Prop :=
  candidates = [] ∨ (TopIsFixed toLowercase candidates
    ∧ (LeadsUnknown toLowercase policy candidates ∨ LeadsConflicting toLowercase policy candidates
      ∨ LeadsWeakly toLowercase policy candidates ∨ LeadsDecided toLowercase policy candidates))

/-! ## The outcome in an order -/

variable {toLowercase policy candidates}
variable {order : List SemanticCandidate} {first other : SemanticCandidate}
variable {fieldType : SemanticFieldType}

theorem alike_perm (hperm : order.Perm candidates) (candidate : SemanticCandidate) :
    (alike toLowercase order candidate).Perm (alike toLowercase candidates candidate) :=
  hperm.filter _

/-- What a candidate gives as the first one does not depend on the order. -/
theorem confidenceFrom_perm (hperm : order.Perm candidates) (candidate : SemanticCandidate) :
    confidenceFrom toLowercase order candidate =
      confidenceFrom toLowercase candidates candidate := by
  have halike := @alike_perm toLowercase _ _ hperm candidate
  rw [confidenceFrom, confidenceFrom, halike.length_eq, (halike.map _).sum_eq]

theorem ambiguousAmong_perm (hperm : order.Perm candidates) (candidate : SemanticCandidate) :
    ambiguousAmong toLowercase order candidate =
      ambiguousAmong toLowercase candidates candidate :=
  (alike_perm hperm candidate).any_eq

/-- The first candidate of a value gives its confidence. -/
theorem confidenceOf_perm (hperm : order.Perm candidates)
    (hfirst : firstAlike toLowercase (other.key toLowercase) order = some first) :
    confidenceOf toLowercase order other = confidenceFrom toLowercase candidates first := by
  rw [confidenceOf, hfirst, ← confidenceFrom_perm hperm]
  rfl

theorem exists_first (toLowercase : Text → Text) (hother : other ∈ order) :
    ∃ first, firstAlike toLowercase (other.key toLowercase) order = some first
      ∧ first ∈ order ∧ first.key toLowercase = other.key toLowercase := by
  obtain ⟨first, hfirst⟩ := @Grouping.exists_firstOf _ _ _ (SemanticCandidate.key toLowercase) _ _
    hother
  exact ⟨first, hfirst, Grouping.key_firstOf hfirst⟩

/-- The outcome when a candidate leads in an order. -/
def outcomeIn (toLowercase : Text → Text) (policy : ConfidencePolicy)
    (candidates order : List SemanticCandidate) (first : SemanticCandidate) : Outcome :=
  outcomeFrom policy first (confidenceFrom toLowercase candidates first)
    (ambiguousAmong toLowercase candidates first) (hasRival toLowercase policy order first)

theorem outcomeOf_eq (hperm : order.Perm candidates) (hne : candidates ≠ []) :
    ∃ first, Primary toLowercase order first
      ∧ outcomeOf toLowercase policy order fieldType =
          .ok (outcomeIn toLowercase policy candidates order first) := by
  have horder : order ≠ [] := fun h => hne (by
    rw [h] at hperm
    exact hperm.nil_eq.symm)
  obtain ⟨first, field, hprimary, hresolve, houtcome⟩ :=
    @resolveField_outcome toLowercase policy _ fieldType horder
  refine ⟨first, hprimary, ?_⟩
  rw [outcomeOf, hresolve]
  refine congrArg Except.ok (houtcome.trans ?_)
  rw [outcomeIn, confidenceOf_perm hperm hprimary.isFirst, ambiguousAmong_perm hperm]

/-- What the order puts first of the other values can follow. -/
theorem Primary.canFollow (hprimary : Primary toLowercase order first)
    (hperm : order.Perm candidates)
    (hother : firstAlike toLowercase (other.key toLowercase) order = some other)
    (hkey : other.key toLowercase ≠ first.key toLowercase) :
    CanFollow toLowercase candidates first other := by
  rcases lt_or_gt_of_ne hkey with hlt | hgt
  · right
    have hmem := (Grouping.key_firstOf hother).1
    have hle := hprimary.greatest other hmem
    have hleast := hprimary.least other hmem
    rw [confidenceOf_perm hperm hother, confidenceOf_perm hperm hprimary.isFirst] at hle hleast
    exact ⟨hkey, lt_of_le_of_ne hle fun heq => absurd (hleast heq) (not_le.2 hlt)⟩
  · exact Or.inl hgt

/-- The rivals in an order are among the first candidates. -/
theorem hasRival_iff (hprimary : Primary toLowercase order first)
    (hperm : order.Perm candidates) :
    hasRival toLowercase policy order first = true ↔
      ∃ other, firstAlike toLowercase (other.key toLowercase) order = some other
        ∧ other.key toLowercase ≠ first.key toLowercase
        ∧ NearFrom toLowercase policy candidates first other := by
  rw [hasRival, List.any_eq_true]
  simp only [confidenceOf_perm hperm hprimary.isFirst, Bool.and_eq_true, decide_eq_true_eq]
  constructor
  · rintro ⟨candidate, hmem, hkey, hnear⟩
    obtain ⟨other, hother, -, hotherKey⟩ := exists_first toLowercase hmem
    rw [confidenceOf_perm hperm hother] at hnear
    rw [← hotherKey] at hother hkey
    exact ⟨other, hother, hkey, hnear⟩
  · rintro ⟨other, hother, hkey, hnear⟩
    refine ⟨other, (Grouping.key_firstOf hother).1, hkey, ?_⟩
    rw [confidenceOf_perm hperm hother]
    exact hnear

/-! ## The conditions are enough -/

theorem TopIsFixed.canLead (htop : TopIsFixed toLowercase candidates)
    (hprimary : Primary toLowercase order first) (hperm : order.Perm candidates) :
    CanLead toLowercase candidates first := by
  obtain ⟨top, htopMem, htop⟩ := htop
  refine ⟨hperm.mem_iff.1 (Grouping.key_firstOf hprimary.isFirst).1, fun other hother => ?_,
    fun other hother hlt => ?_⟩
  · obtain ⟨topFirst, hfirst, hmem, hkey⟩ :=
      exists_first toLowercase (hperm.mem_iff.2 htopMem)
    have hle := hprimary.greatest top (hperm.mem_iff.2 htopMem)
    rw [confidenceOf_perm hperm hfirst, confidenceOf_perm hperm hprimary.isFirst] at hle
    exact (htop topFirst (hperm.mem_iff.1 hmem) hkey other hother).trans hle
  · obtain ⟨otherFirst, hfirst, hmem, hkey⟩ :=
      exists_first toLowercase (hperm.mem_iff.2 hother)
    rw [← hkey] at hfirst hlt
    refine ⟨otherFirst, hperm.mem_iff.1 hmem, hkey, ?_⟩
    rcases hprimary.canFollow hperm hfirst hlt.ne with hgt | ⟨-, hweaker⟩
    · exact absurd hgt (not_lt.2 hlt.le)
    · exact hweaker

theorem CanLead.confidence_eq {second : SemanticCandidate}
    (hfirst : CanLead toLowercase candidates first)
    (hsecond : CanLead toLowercase candidates second) :
    confidenceFrom toLowercase candidates first =
      confidenceFrom toLowercase candidates second :=
  le_antisymm (hsecond.greatest first hfirst.mem) (hfirst.greatest second hsecond.mem)

/-- Nothing is near what is not good enough. -/
theorem not_near_of_lt {confidence other : Rat} (h : confidence < policy.medium) :
    near policy confidence other = false := by
  rw [← Bool.not_eq_true]
  intro hnear
  simp only [near, Bool.and_eq_true, decide_eq_true_eq] at hnear
  exact absurd hnear.1.1 (not_le.2 h)

theorem hasRival_of_lt (hprimary : Primary toLowercase order first)
    (hperm : order.Perm candidates)
    (hlow : confidenceFrom toLowercase candidates first < policy.medium) :
    hasRival toLowercase policy order first = false := by
  rw [← Bool.not_eq_true, hasRival_iff hprimary hperm]
  rintro ⟨other, -, -, hnear⟩
  rw [NearFrom, not_near_of_lt hlow] at hnear
  cases hnear

section Leads

variable (hprimary : Primary toLowercase order first) (hperm : order.Perm candidates)
variable (hlead : CanLead toLowercase candidates first)

include hprimary hperm hlead

theorem LeadsUnknown.outcome (h : LeadsUnknown toLowercase policy candidates) :
    outcomeIn toLowercase policy candidates order first =
      ⟨none, confidenceFrom toLowercase candidates first, .unknown⟩ := by
  rcases h first hlead with hunknown | ⟨hlow, hclear⟩
  · rw [outcomeIn, outcomeFrom, if_pos hunknown]
  · rw [outcomeIn, outcomeFrom, hasRival_of_lt hprimary hperm hlow, hclear, if_pos hlow]
    simp

theorem LeadsConflicting.outcome (h : LeadsConflicting toLowercase policy candidates) :
    outcomeIn toLowercase policy candidates order first =
      ⟨none, confidenceFrom toLowercase candidates first, .conflicting⟩ := by
  obtain ⟨hknown, candidate, hmem, hkey, hnear⟩ := h first hlead
  have hrival : hasRival toLowercase policy order first = true := by
    obtain ⟨other, hother, hotherMem, hotherKey⟩ :=
      exists_first toLowercase (hperm.mem_iff.2 hmem)
    rw [← hotherKey] at hother hkey
    exact (hasRival_iff hprimary hperm).2 ⟨other, hother, hkey,
      hnear other (hperm.mem_iff.1 hotherMem) hotherKey (hprimary.canFollow hperm hother hkey)⟩
  rw [outcomeIn, outcomeFrom, hknown, hrival]
  simp

theorem LeadsWeakly.outcome (h : LeadsWeakly toLowercase policy candidates) :
    outcomeIn toLowercase policy candidates order first =
      ⟨none, confidenceFrom toLowercase candidates first, .ambiguous⟩ := by
  obtain ⟨hknown, hlow, hambiguous⟩ := h first hlead
  rw [outcomeIn, outcomeFrom, hknown, hasRival_of_lt hprimary hperm hlow, hambiguous]
  simp [hlow]

omit hlead in
/-- A value that is good enough is decided. -/
theorem outcomeIn_decided (hknown : isUnknownValue first.value = false)
    (hmedium : policy.medium ≤ confidenceFrom toLowercase candidates first)
    (hrival : ∀ other ∈ candidates, CanFollow toLowercase candidates first other →
      ¬NearFrom toLowercase policy candidates first other) :
    outcomeIn toLowercase policy candidates order first =
      ⟨some first.value, confidenceFrom toLowercase candidates first,
        if ambiguousAmong toLowercase candidates first then .ambiguous
        else if policy.high ≤ confidenceFrom toLowercase candidates first
          && first.sourceMethod ≠ .filenameHint then .confirmed
        else .inferred⟩ := by
  have hnone : hasRival toLowercase policy order first = false := by
    rw [← Bool.not_eq_true, hasRival_iff hprimary hperm]
    rintro ⟨other, hother, hkey, hnear⟩
    exact hrival other (hperm.mem_iff.1 (Grouping.key_firstOf hother).1)
      (hprimary.canFollow hperm hother hkey) hnear
  rw [outcomeIn, outcomeFrom, hknown, hnone, if_neg Bool.noConfusion, if_neg Bool.noConfusion,
    if_neg (not_lt.2 hmedium)]

end Leads

theorem ambiguousAmong_congr {second : SemanticCandidate} (h : first.value = second.value) :
    ambiguousAmong toLowercase candidates first =
      ambiguousAmong toLowercase candidates second := by
  rw [ambiguousAmong, alike, SemanticCandidate.key, h, ambiguousAmong, alike, SemanticCandidate.key]

/-- **The conditions are enough.** -/
theorem OrderFree.outcomeOf_eq (h : OrderFree toLowercase policy candidates)
    (hperm : order.Perm candidates) :
    outcomeOf toLowercase policy order fieldType =
      outcomeOf toLowercase policy candidates fieldType := by
  rcases h with rfl | ⟨htop, hleads⟩
  · rw [hperm.eq_nil]
  have hne : candidates ≠ [] := by
    rintro rfl
    obtain ⟨top, hmem, -⟩ := htop
    cases hmem
  obtain ⟨first, hprimary, houtcome⟩ :=
    @Knowledge.outcomeOf_eq toLowercase policy _ _ fieldType hperm hne
  obtain ⟨second, hsecond, houtcome'⟩ :=
    @Knowledge.outcomeOf_eq toLowercase policy _ _ fieldType (List.Perm.refl candidates) hne
  have hlead := htop.canLead hprimary hperm
  have hlead' := htop.canLead hsecond (.refl _)
  have hconfidence := hlead.confidence_eq hlead'
  rw [houtcome, houtcome']
  refine congrArg Except.ok ?_
  rcases hleads with h | h | h | ⟨h, hsame⟩
  · rw [h.outcome hprimary hperm hlead, h.outcome hsecond (.refl _) hlead', hconfidence]
  · rw [h.outcome hprimary hperm hlead, h.outcome hsecond (.refl _) hlead', hconfidence]
  · rw [h.outcome hprimary hperm hlead, h.outcome hsecond (.refl _) hlead', hconfidence]
  · obtain ⟨hknown, hmedium, hrival⟩ := h first hlead
    obtain ⟨hknown', hmedium', hrival'⟩ := h second hlead'
    obtain ⟨hvalue, hstatus⟩ := hsame first second hlead hlead'
    rw [outcomeIn_decided hprimary hperm hknown hmedium hrival,
      outcomeIn_decided hsecond (.refl _) hknown' hmedium' hrival',
      ambiguousAmong_congr hvalue, hvalue]
    rw [ambiguousAmong_congr hvalue] at hstatus
    rw [hconfidence] at hstatus ⊢
    congr 1
    split
    · rfl
    · next hclear =>
      rcases hstatus with hambiguous | hlow | hmethod
      · exact absurd hambiguous hclear
      · simp [not_le.2 hlow]
      · simp [hmethod]

/-! ## The conditions are needed -/

/-- Every other value has a candidate that can follow. -/
theorem CanLead.exists_follower (hlead : CanLead toLowercase candidates first)
    (hother : other ∈ candidates) (hkey : other.key toLowercase ≠ first.key toLowercase) :
    ∃ follower ∈ candidates, follower.key toLowercase = other.key toLowercase
      ∧ CanFollow toLowercase candidates first follower := by
  rcases lt_or_gt_of_ne hkey with hlt | hgt
  · obtain ⟨weaker, hweaker, hweakerKey, hlower⟩ := hlead.least other hother hlt
    exact ⟨weaker, hweaker, hweakerKey, Or.inr ⟨hweakerKey ▸ hkey, hlower⟩⟩
  · exact ⟨other, hother, rfl, Or.inl hgt⟩

/-- A candidate that can lead does so in some order, whatever follows. -/
theorem CanLead.exists_order {Q : SemanticCandidate → Prop}
    (hlead : CanLead toLowercase candidates first)
    (hQ : ∀ other ∈ candidates, other.key toLowercase ≠ first.key toLowercase →
      ∃ follower ∈ candidates, follower.key toLowercase = other.key toLowercase
        ∧ CanFollow toLowercase candidates first follower ∧ Q follower) :
    ∃ order, order.Perm candidates ∧ Primary toLowercase order first
      ∧ ∀ other, firstAlike toLowercase (other.key toLowercase) order = some other →
        other.key toLowercase ≠ first.key toLowercase → Q other := by
  obtain ⟨order, hperm, hfirsts⟩ := @Grouping.exists_perm_forall_first _ _ _
    (SemanticCandidate.key toLowercase) candidates
    (fun other => (other.key toLowercase = first.key toLowercase → other = first)
      ∧ (other.key toLowercase ≠ first.key toLowercase →
        CanFollow toLowercase candidates first other ∧ Q other))
    (fun other hother => by
      by_cases hkey : other.key toLowercase = first.key toLowercase
      · exact ⟨first, hlead.mem, hkey.symm, fun _ => rfl, fun hne => absurd rfl hne⟩
      · obtain ⟨follower, hmem, hfollower, hfollows⟩ := hQ other hother hkey
        exact ⟨follower, hmem, hfollower, fun heq => absurd (hfollower.symm.trans heq) hkey,
          fun _ => hfollows⟩)
  have hfirst : firstAlike toLowercase (first.key toLowercase) order = some first := by
    obtain ⟨found, hfound, -, hkey⟩ := exists_first toLowercase (hperm.mem_iff.2 hlead.mem)
    rw [hfound, (hfirsts _ _ hfound).1 hkey]
  refine ⟨order, hperm, ⟨hfirst, fun other hother => ?_, fun other hother heq => ?_⟩,
    fun other hother hkey => ((hfirsts _ _ hother).2 hkey).2⟩
  · obtain ⟨found, hfound, hmem, -⟩ := exists_first toLowercase hother
    rw [confidenceOf_perm hperm hfound, confidenceOf_perm hperm hfirst]
    exact hlead.greatest found (hperm.mem_iff.1 hmem)
  · obtain ⟨found, hfound, hmem, hkey⟩ := exists_first toLowercase hother
    rw [confidenceOf_perm hperm hfound, confidenceOf_perm hperm hfirst] at heq
    by_contra hlt
    rw [← hkey] at hlt
    rcases ((hfirsts _ _ hfound).2 (not_le.1 hlt).ne).1 with hgt | ⟨-, hweaker⟩
    · exact hlt hgt.le
    · exact absurd heq hweaker.ne

theorem CanLead.exists_order' (hlead : CanLead toLowercase candidates first) :
    ∃ order, order.Perm candidates ∧ Primary toLowercase order first := by
  obtain ⟨order, hperm, hprimary, -⟩ := @CanLead.exists_order _ _ _ (fun _ => True) hlead
    fun other hother hkey => by
      obtain ⟨follower, hmem, hfollower, hfollows⟩ := hlead.exists_follower hother hkey
      exact ⟨follower, hmem, hfollower, hfollows, trivial⟩
  exact ⟨order, hperm, hprimary⟩

/-- What leads in an order gives the confidence of the outcome. -/
theorem outcomeIn_confidence :
    (outcomeIn toLowercase policy candidates order first).confidence =
      confidenceFrom toLowercase candidates first := by
  unfold outcomeIn outcomeFrom
  split
  · rfl
  · split
    · rfl
    · split <;> rfl

theorem Primary.unique {second : SemanticCandidate} (hfirst : Primary toLowercase order first)
    (hsecond : Primary toLowercase order second) : first = second := by
  have hmem := (Grouping.key_firstOf hfirst.isFirst).1
  have hmem' := (Grouping.key_firstOf hsecond.isFirst).1
  have heq := le_antisymm (hsecond.greatest first hmem) (hfirst.greatest second hmem')
  have hkey := le_antisymm (hfirst.least second hmem' heq.symm) (hsecond.least first hmem heq)
  have h := hfirst.isFirst
  rw [hkey, hsecond.isFirst] at h
  exact (Option.some.inj h).symm

theorem Primary.outcomeOf_eq (hprimary : Primary toLowercase order first)
    (hperm : order.Perm candidates) :
    outcomeOf toLowercase policy order fieldType =
      .ok (outcomeIn toLowercase policy candidates order first) := by
  have hne : candidates ≠ [] :=
    List.ne_nil_of_mem (hperm.mem_iff.1 (Grouping.key_firstOf hprimary.isFirst).1)
  obtain ⟨second, hsecond, h⟩ := @Knowledge.outcomeOf_eq toLowercase policy _ _ fieldType hperm hne
  rw [h, hprimary.unique hsecond]

/-- The kinds of outcomes. -/
inductive Led (toLowercase : Text → Text) (policy : ConfidencePolicy)
    (candidates order : List SemanticCandidate) (first : SemanticCandidate) : Outcome → Prop
  | unknown {confidence : Rat} : isUnknownValue first.value = true
      ∨ (confidenceFrom toLowercase candidates first < policy.medium
        ∧ ambiguousAmong toLowercase candidates first = false) →
      Led toLowercase policy candidates order first ⟨none, confidence, .unknown⟩
  | conflicting {confidence : Rat} : isUnknownValue first.value = false →
      hasRival toLowercase policy order first = true →
      Led toLowercase policy candidates order first ⟨none, confidence, .conflicting⟩
  | weak {confidence : Rat} : isUnknownValue first.value = false →
      confidenceFrom toLowercase candidates first < policy.medium →
      ambiguousAmong toLowercase candidates first = true →
      Led toLowercase policy candidates order first ⟨none, confidence, .ambiguous⟩
  | decided {confidence : Rat} : isUnknownValue first.value = false →
      hasRival toLowercase policy order first = false →
      policy.medium ≤ confidenceFrom toLowercase candidates first →
      Led toLowercase policy candidates order first ⟨some first.value, confidence,
        if ambiguousAmong toLowercase candidates first then .ambiguous
        else if policy.high ≤ confidenceFrom toLowercase candidates first
          && first.sourceMethod ≠ .filenameHint then .confirmed
        else .inferred⟩

theorem led (toLowercase : Text → Text) (policy : ConfidencePolicy)
    (candidates order : List SemanticCandidate) (first : SemanticCandidate) :
    Led toLowercase policy candidates order first
      (outcomeIn toLowercase policy candidates order first) := by
  unfold outcomeIn outcomeFrom
  by_cases hunknown : isUnknownValue first.value = true
  · rw [if_pos hunknown]
    exact .unknown (Or.inl hunknown)
  rw [if_neg hunknown]
  rw [Bool.not_eq_true] at hunknown
  by_cases hrival : hasRival toLowercase policy order first = true
  · rw [if_pos hrival]
    exact .conflicting hunknown hrival
  rw [if_neg hrival]
  rw [Bool.not_eq_true] at hrival
  by_cases hlow : confidenceFrom toLowercase candidates first < policy.medium
  · rw [if_pos hlow]
    cases hambiguous : ambiguousAmong toLowercase candidates first with
    | true => exact .weak hunknown hlow hambiguous
    | false => exact .unknown (Or.inr ⟨hlow, hambiguous⟩)
  · rw [if_neg hlow]
    exact .decided hunknown hrival (not_lt.1 hlow)

/-- What led to a value. -/
theorem Led.of_value {outcome : Outcome} {value : SemanticValue}
    (h : Led toLowercase policy candidates order first outcome)
    (hvalue : outcome.value = some value) :
    first.value = value ∧ isUnknownValue first.value = false
      ∧ hasRival toLowercase policy order first = false
      ∧ policy.medium ≤ confidenceFrom toLowercase candidates first
      ∧ outcome.status = if ambiguousAmong toLowercase candidates first then .ambiguous
        else if policy.high ≤ confidenceFrom toLowercase candidates first
          && first.sourceMethod ≠ .filenameHint then .confirmed
        else .inferred := by
  cases h with
  | unknown => cases hvalue
  | conflicting => cases hvalue
  | weak => cases hvalue
  | decided hknown hrival hmedium =>
    exact ⟨Option.some.inj hvalue, hknown, hrival, hmedium, rfl⟩

/-- Equal statuses of equally sure values. -/
theorem sourceMethod_of_status {confidence : Rat} {method method' : SourceMethod}
    (h : (if (policy.high ≤ confidence && method ≠ .filenameHint) = true then
        FieldStatus.confirmed else .inferred)
      = if (policy.high ≤ confidence && method' ≠ .filenameHint) = true then .confirmed
        else .inferred) :
    confidence < policy.high ∨ (method = .filenameHint ↔ method' = .filenameHint) := by
  by_cases hhigh : policy.high ≤ confidence
  · right
    by_cases hmethod : method = .filenameHint <;> by_cases hmethod' : method' = .filenameHint <;>
      simp_all
  · exact Or.inl (not_le.1 hhigh)

theorem Led.of_confirmed {outcome : Outcome}
    (h : Led toLowercase policy candidates order first outcome)
    (hstatus : outcome.status = .confirmed) :
    outcome.value = some first.value ∧ ambiguousAmong toLowercase candidates first = false
      ∧ hasRival toLowercase policy order first = false := by
  cases h with
  | unknown => cases hstatus
  | conflicting => cases hstatus
  | weak => cases hstatus
  | decided _ hrival =>
    refine ⟨rfl, ?_, hrival⟩
    rw [← Bool.not_eq_true]
    intro hambiguous
    simp only [hambiguous, if_true] at hstatus
    cases hstatus

section Needed

variable (hsame : ∀ fieldType order, order.Perm candidates →
  outcomeOf toLowercase policy order fieldType = outcomeOf toLowercase policy candidates fieldType)

include hsame

/-- Two orders have one outcome, whatever leads in them. -/
theorem outcomeIn_same {order' : List SemanticCandidate} {second : SemanticCandidate}
    (hperm : order.Perm candidates) (hprimary : Primary toLowercase order first)
    (hperm' : order'.Perm candidates) (hsecond : Primary toLowercase order' second) :
    outcomeIn toLowercase policy candidates order first =
      outcomeIn toLowercase policy candidates order' second := by
  have h := (hsame .documentType order hperm).trans (hsame .documentType order' hperm').symm
  rw [hprimary.outcomeOf_eq hperm, hsecond.outcomeOf_eq hperm'] at h
  exact Except.ok.inj h

/-- The weakest first candidates and the strongest give the same. -/
theorem topIsFixed_of_same (hne : candidates ≠ []) : TopIsFixed toLowercase candidates := by
  -- in every group there is a weakest and a strongest first candidate
  have hextreme : ∀ score : SemanticCandidate → Rat, ∃ order, order.Perm candidates
      ∧ ∀ k a, firstAlike toLowercase k order = some a →
        ∀ other ∈ candidates, other.key toLowercase = a.key toLowercase →
          score other ≤ score a := by
    intro score
    refine Grouping.exists_perm_forall_first fun a ha => ?_
    have hgroup : alike toLowercase candidates a ≠ [] :=
      List.ne_nil_of_mem (Grouping.mem_group.2 ⟨ha, rfl⟩)
    obtain ⟨b, hb, hgreatest⟩ := Grouping.exists_greatest score hgroup
    obtain ⟨hbMem, hbKey⟩ := Grouping.mem_group.1 hb
    exact ⟨b, hbMem, hbKey, fun other hother hkey =>
      hgreatest other (Grouping.mem_group.2 ⟨hother, hkey.trans hbKey⟩)⟩
  obtain ⟨low, hlow, hweakest⟩ := hextreme fun c => -confidenceFrom toLowercase candidates c
  obtain ⟨high, hhigh, hstrongest⟩ := hextreme (confidenceFrom toLowercase candidates)
  obtain ⟨first, hfirst, -⟩ := @Knowledge.outcomeOf_eq toLowercase policy _ _ .documentType hlow hne
  obtain ⟨second, hsecond, -⟩ :=
    @Knowledge.outcomeOf_eq toLowercase policy _ _ .documentType hhigh hne
  have hconfidence := congrArg Outcome.confidence (outcomeIn_same hsame hlow hfirst hhigh hsecond)
  rw [outcomeIn_confidence, outcomeIn_confidence] at hconfidence
  refine ⟨first, hlow.mem_iff.1 (Grouping.key_firstOf hfirst.isFirst).1,
    fun a ha hkey other hother => ?_⟩
  have hleast := neg_le_neg_iff.1 (hweakest _ _ hfirst.isFirst a ha hkey)
  obtain ⟨found, hfound, -, hfoundKey⟩ := exists_first toLowercase (hhigh.mem_iff.2 hother)
  have hle := hsecond.greatest other (hhigh.mem_iff.2 hother)
  rw [confidenceOf_perm hhigh hfound, confidenceOf_perm hhigh hsecond.isFirst] at hle
  have hmost := hstrongest _ _ hfound other hother hfoundKey.symm
  linarith

/-- **The conditions are needed.** -/
theorem orderFree_of_same : OrderFree toLowercase policy candidates := by
  by_cases hne : candidates = []
  · exact Or.inl hne
  right
  have htop := topIsFixed_of_same hsame hne
  refine ⟨htop, ?_⟩
  obtain ⟨first, hprimary, -⟩ :=
    @Knowledge.outcomeOf_eq toLowercase policy _ _ .documentType (List.Perm.refl candidates) hne
  -- whatever leads, the outcome is of the kind it has in the given order
  have hkind : ∀ second order, order.Perm candidates → Primary toLowercase order second →
      Led toLowercase policy candidates order second
        (outcomeIn toLowercase policy candidates candidates first) :=
    fun second order hperm hsecond =>
      outcomeIn_same hsame hperm hsecond (.refl _) hprimary ▸ led ..
  have hlead : ∀ second, CanLead toLowercase candidates second →
      ∃ order, Led toLowercase policy candidates order second
        (outcomeIn toLowercase policy candidates candidates first) := by
    intro second hsecond
    obtain ⟨order, hperm, hleads⟩ := hsecond.exists_order'
    exact ⟨order, hkind second order hperm hleads⟩
  have hfirst := led toLowercase policy candidates candidates first
  generalize outcomeIn toLowercase policy candidates candidates first = outcome
    at hkind hlead hfirst
  cases hfirst with
  | unknown =>
    left
    intro second hsecond
    obtain ⟨order, hled⟩ := hlead second hsecond
    cases hled with
    | unknown h => exact h
  | conflicting =>
    right; left
    intro second hsecond
    obtain ⟨order, hled⟩ := hlead second hsecond
    cases hled with
    | conflicting hknown =>
      refine ⟨hknown, ?_⟩
      -- else no first candidate of another value is near it in some order
      by_contra hfar
      push Not at hfar
      obtain ⟨order', hperm, hleads, hothers⟩ := hsecond.exists_order hfar
      cases hkind second order' hperm hleads with
      | conflicting _ hrival =>
        obtain ⟨other, hother, hkey, hnear⟩ := (hasRival_iff hleads hperm).1 hrival
        exact hothers other hother hkey hnear
  | weak =>
    right; right; left
    intro second hsecond
    obtain ⟨order, hled⟩ := hlead second hsecond
    cases hled with
    | weak hknown hlow hambiguous => exact ⟨hknown, hlow, hambiguous⟩
  | decided =>
    right; right; right
    refine ⟨fun second hsecond => ?_, fun second third hsecond hthird => ?_⟩
    · obtain ⟨order, hled⟩ := hlead second hsecond
      obtain ⟨-, hknown, -, hmedium, -⟩ := hled.of_value rfl
      refine ⟨hknown, hmedium, fun other hother hfollows hnear => ?_⟩
      have hkey : other.key toLowercase ≠ second.key toLowercase := by
        rcases hfollows with hgt | ⟨hne, -⟩
        · exact hgt.ne'
        · exact hne
      -- else it is the first candidate of its value in some order
      obtain ⟨order', hperm, hleads, hothers⟩ := @CanLead.exists_order _ _ _
        (fun follower => follower.key toLowercase = other.key toLowercase → follower = other)
        hsecond fun candidate hcandidate hne => by
          by_cases heq : candidate.key toLowercase = other.key toLowercase
          · exact ⟨other, hother, heq.symm, hfollows, fun _ => rfl⟩
          · obtain ⟨follower, hmem, hfollower, hcan⟩ := hsecond.exists_follower hcandidate hne
            exact ⟨follower, hmem, hfollower, hcan, fun h => absurd (hfollower.symm.trans h) heq⟩
      obtain ⟨-, -, hrival, -⟩ := (hkind second order' hperm hleads).of_value rfl
      obtain ⟨found, hfound, -, hfoundKey⟩ := exists_first toLowercase (hperm.mem_iff.2 hother)
      rw [← hfoundKey] at hfound
      obtain rfl := hothers found hfound (hfoundKey ▸ hkey) hfoundKey
      rw [(hasRival_iff hleads hperm).2 ⟨found, hfound, hkey, hnear⟩] at hrival
      cases hrival
    · obtain ⟨order, hled⟩ := hlead second hsecond
      obtain ⟨order', hled'⟩ := hlead third hthird
      obtain ⟨hvalue, -, -, -, hstatus⟩ := hled.of_value rfl
      obtain ⟨hvalue', -, -, -, hstatus'⟩ := hled'.of_value rfl
      have heq := hvalue.trans hvalue'.symm
      refine ⟨heq, ?_⟩
      rw [ambiguousAmong_congr heq] at hstatus ⊢
      rw [hstatus, ← hsecond.confidence_eq hthird] at hstatus'
      by_cases hambiguous : ambiguousAmong toLowercase candidates third = true
      · exact Or.inl hambiguous
      · rw [if_neg hambiguous, if_neg hambiguous] at hstatus'
        exact Or.inr (sourceMethod_of_status hstatus')

end Needed

end Zemo.Knowledge
