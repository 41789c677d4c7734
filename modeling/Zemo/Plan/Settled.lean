import Zemo.Plan.Prepare

set_option autoImplicit false

/-! # What the passes over the candidates change

A pass over the candidates leaves the blocked ones alone; to the others it may add dependencies, and
it may block them. `Evolves` says so of one candidate, and every pass relates the candidates before
and after it, place by place, in this way. -/

namespace Zemo

/-! ## One candidate -/

/-- The candidate with other dependencies. -/
def PlannedCandidate.waiting (candidate : PlannedCandidate) (dependencies : List OperationStepId) :
    PlannedCandidate :=
  { candidate with operation := { candidate.operation with dependencies := dependencies } }

/-- What the passes may make of a candidate. -/
inductive PlannedCandidate.Evolves (candidate : PlannedCandidate) : PlannedCandidate → Prop
  | closed (h : candidate.blocked = true) : candidate.Evolves candidate
  | goesOn (h : candidate.blocked = false) (dependencies : List OperationStepId) :
      candidate.Evolves (candidate.waiting dependencies)
  | blocks (h : candidate.blocked = false) (dependencies : List OperationStepId) (why : Blocking) :
      candidate.Evolves ((candidate.waiting dependencies).block why)

namespace PlannedCandidate.Evolves

variable {a b c : PlannedCandidate}

theorem refl (a : PlannedCandidate) : a.Evolves a := by
  cases h : a.blocked with
  | true => exact .closed h
  | false => exact .goesOn h a.operation.dependencies

theorem trans (hab : a.Evolves b) (hbc : b.Evolves c) : a.Evolves c := by
  cases hab with
  | closed h => exact hbc
  | goesOn h dependencies =>
      cases hbc with
      | closed hb =>
          change a.blocked = true at hb
          rw [h] at hb
          cases hb
      | goesOn _ later => exact .goesOn h later
      | blocks _ later why => exact .blocks h later why
  | blocks h dependencies why =>
      cases hbc with
      | closed hb => exact .blocks h dependencies why
      | goesOn hb later => exact absurd hb (by simp [PlannedCandidate.block])
      | blocks hb later why' => exact absurd hb (by simp [PlannedCandidate.block])

/-- A candidate that is not blocked was never blocked, and has only other dependencies. -/
theorem of_open (h : a.Evolves b) (hb : b.blocked = false) :
    a.blocked = false ∧ ∃ dependencies, b = a.waiting dependencies := by
  cases h with
  | closed ha => exact absurd ha (by rw [hb]; simp)
  | goesOn ha dependencies => exact ⟨ha, dependencies, rfl⟩
  | blocks ha dependencies why => exact absurd hb (by simp [PlannedCandidate.block])

theorem kind (h : a.Evolves b) : b.operation.kind = a.operation.kind := by cases h <;> rfl

theorem destination (h : a.Evolves b) :
    b.operation.destinationRelativePath = a.operation.destinationRelativePath := by cases h <;> rfl

theorem block (h : a.blocked = false) (why : Blocking) : a.Evolves (a.block why) :=
  .blocks h a.operation.dependencies why

theorem settle (h : a.blocked = false) (verdict : DestinationVerdict) :
    a.Evolves (a.settle verdict) := by
  cases verdict with
  | free => exact refl a
  | after id => exact .goesOn h _
  | blocked why => exact block h why

end PlannedCandidate.Evolves

/-! ## The passes -/

/-- The candidates after a pass, place by place. -/
def Evolved : List PlannedCandidate → List PlannedCandidate → Prop :=
  List.Forall₂ PlannedCandidate.Evolves

theorem Evolved.nil : Evolved [] [] := List.Forall₂.nil

theorem Evolved.cons {a b : PlannedCandidate} {as bs : List PlannedCandidate} (h : a.Evolves b)
    (hrest : Evolved as bs) : Evolved (a :: as) (b :: bs) := List.Forall₂.cons h hrest

theorem Evolved.refl (candidates : List PlannedCandidate) : Evolved candidates candidates :=
  List.forall₂_same.2 fun a _ => .refl a

theorem Evolved.trans {as bs cs : List PlannedCandidate} (h : Evolved as bs)
    (h' : Evolved bs cs) : Evolved as cs := by
  unfold Evolved at *
  induction h generalizing cs with
  | nil => exact h'
  | cons hab _ ih =>
      cases h' with
      | cons hbc htail => exact .cons (hab.trans hbc) (ih htail)

/-- What is at a place evolved from what was there. -/
theorem Evolved.of_get {as bs : List PlannedCandidate} {index : Nat} {b : PlannedCandidate}
    (h : Evolved as bs) (hb : bs[index]? = some b) : ∃ a, as[index]? = some a ∧ a.Evolves b := by
  unfold Evolved at h
  induction h generalizing index with
  | nil => simp at hb
  | @cons a c _ _ hac _ ih =>
      cases index with
      | zero =>
          obtain rfl : c = b := by simpa using hb
          exact ⟨a, rfl, hac⟩
      | succ index => exact ih (by simpa using hb)

/-- A map that evolves every candidate. -/
theorem Evolved.map {f : PlannedCandidate → PlannedCandidate}
    (hf : ∀ a : PlannedCandidate, a.Evolves (f a))
    (candidates : List PlannedCandidate) : Evolved candidates (candidates.map f) := by
  induction candidates with
  | nil => exact .nil
  | cons a rest ih => exact .cons (hf a) ih

/-- One candidate evolves. -/
theorem Evolved.set {candidates : List PlannedCandidate} {index : Nat} {a b : PlannedCandidate}
    (ha : candidates[index]? = some a) (h : a.Evolves b) :
    Evolved candidates (candidates.set index b) := by
  induction candidates generalizing index with
  | nil => simp at ha
  | cons c rest ih =>
      cases index with
      | zero =>
          obtain rfl : c = a := by simpa using ha
          exact .cons h (.refl rest)
      | succ index => exact .cons (.refl c) (ih (by simpa using ha))

theorem detectPlanCollisions_evolved (planner : Planner) (candidates : List PlannedCandidate) :
    Evolved candidates (detectPlanCollisions planner candidates) := by
  refine .map (fun a => ?_) candidates
  split
  · rename_i h
    exact .block h.1 _
  · exact .refl a

theorem resolveAt_evolved (planner : Planner) (tree : Tree) (open_ : List Bool)
    (candidates : List PlannedCandidate) (index : Nat) :
    Evolved candidates (resolveAt planner tree open_ candidates index) := by
  unfold resolveAt
  split
  · exact .refl candidates
  · rename_i a ha
    split
    · exact .refl candidates
    · rename_i hopen
      exact .set ha (.settle (by simpa using hopen) _)

theorem foldl_resolveAt_evolved (planner : Planner) (tree : Tree) (open_ : List Bool)
    (indexes : List Nat) (candidates : List PlannedCandidate) :
    Evolved candidates (indexes.foldl (resolveAt planner tree open_) candidates) := by
  induction indexes generalizing candidates with
  | nil => exact .refl candidates
  | cons index rest ih =>
      exact (resolveAt_evolved planner tree open_ candidates index).trans (ih _)

theorem resolveDestinationDependencies_evolved (planner : Planner) (tree : Tree)
    (candidates : List PlannedCandidate) :
    Evolved candidates (resolveDestinationDependencies planner tree candidates) :=
  foldl_resolveAt_evolved planner tree _ _ candidates

theorem propagateRound_evolved (candidates : List PlannedCandidate) :
    Evolved candidates (propagateRound candidates) := by
  refine .map (fun a => ?_) candidates
  split
  · rename_i h
    exact .block h.1 _
  · exact .refl a

theorem propagateFor_evolved (fuel : Nat) (candidates : List PlannedCandidate) :
    Evolved candidates (propagateFor fuel candidates) := by
  induction fuel generalizing candidates with
  | zero => exact .refl candidates
  | succ fuel ih =>
      rw [propagateFor]
      split
      · exact .refl candidates
      · exact (propagateRound_evolved candidates).trans (ih _)

/-! ## The candidates of a plan -/

section Candidates

variable (planner : Planner) (proposal : OrganizationProposal) (tree : Tree)
  (volume : VolumeIdentity)

/-- The candidates before any of them is compared with another. -/
def preflighted : List PlannedCandidate :=
  (proposal.operations.filter (asksForMove planner)).mapIdx (preflightCandidate planner tree volume)

theorem planCandidates_evolved :
    Evolved (preflighted planner proposal tree volume)
      (planCandidates planner proposal tree volume) :=
  ((detectPlanCollisions_evolved planner _).trans
    (resolveDestinationDependencies_evolved planner tree _)).trans (propagateFor_evolved _ _)

variable {planner proposal tree volume}

/-- A candidate of a plan, with the operation of the proposal it was made of. -/
structure Planned (planner : Planner) (proposal : OrganizationProposal) (tree : Tree)
    (volume : VolumeIdentity) (candidate : PlannedCandidate) (index : Nat)
    (asked : OrganizationProposalOperation) : Prop where
  mem : (proposal.operations.filter (asksForMove planner))[index]? = some asked
  evolves : (preflightCandidate planner tree volume index asked).Evolves candidate

theorem planned_of_mem {candidate : PlannedCandidate}
    (h : candidate ∈ planCandidates planner proposal tree volume) :
    ∃ index asked, Planned planner proposal tree volume candidate index asked := by
  obtain ⟨index, hindex, hget⟩ := List.getElem_of_mem h
  obtain ⟨before, hbefore, hevolves⟩ := (planCandidates_evolved planner proposal tree volume).of_get
    ((List.getElem?_eq_getElem hindex).trans (congrArg some hget))
  rw [preflighted, List.getElem?_mapIdx, Option.map_eq_some_iff] at hbefore
  obtain ⟨asked, hasked, rfl⟩ := hbefore
  exact ⟨index, asked, hasked, hevolves⟩

/-- What is known of a candidate that is not blocked: its operation passed every check. -/
structure Planned.Open (planner : Planner) (tree : Tree) (volume : VolumeIdentity)
    (candidate : PlannedCandidate) (index : Nat) (asked : OrganizationProposalOperation) : Prop where
  checked : ∃ fingerprint, preflightChecks planner tree volume asked = .ok fingerprint ∧
    ∃ dependencies, candidate.operation =
      { candidateOperation planner index asked with
        liveFingerprint := some fingerprint
        dependencies := dependencies }

theorem Planned.open_of {candidate : PlannedCandidate} {index : Nat}
    {asked : OrganizationProposalOperation}
    (h : Planned planner proposal tree volume candidate index asked)
    (hopen : candidate.blocked = false) :
    Planned.Open planner tree volume candidate index asked := by
  obtain ⟨hbefore, dependencies, rfl⟩ := h.evolves.of_open hopen
  unfold preflightCandidate at hbefore ⊢
  cases hchecks : preflightChecks planner tree volume asked with
  | error why => simp [hchecks] at hbefore
  | ok fingerprint => exact ⟨fingerprint, hchecks, dependencies, by simp [PlannedCandidate.waiting]⟩

theorem ExecutionOperation.block_status (operation : ExecutionOperation) (why : Blocking) :
    (operation.block why).status = .blocked ∨ (operation.block why).status = .stale := by
  simp only [ExecutionOperation.block]
  split
  · exact .inr rfl
  · exact .inl rfl

/-- The operation of a blocked candidate will not be run. -/
theorem Planned.status_of_blocked {candidate : PlannedCandidate} {index : Nat}
    {asked : OrganizationProposalOperation}
    (h : Planned planner proposal tree volume candidate index asked)
    (hblocked : candidate.blocked = true) :
    candidate.operation.status = .blocked ∨ candidate.operation.status = .stale := by
  cases h.evolves with
  | closed hb =>
      unfold preflightCandidate at hb ⊢
      cases hchecks : preflightChecks planner tree volume asked with
      | ok fingerprint => simp [hchecks] at hb
      | error why => exact ExecutionOperation.block_status _ why
  | goesOn hb dependencies =>
      change (preflightCandidate planner tree volume index asked).blocked = true at hblocked
      rw [hb] at hblocked
      cases hblocked
  | blocks hb dependencies why => exact ExecutionOperation.block_status _ why

/-- The operation of a candidate that is not blocked will be run. -/
theorem Planned.status_of_open {candidate : PlannedCandidate} {index : Nat}
    {asked : OrganizationProposalOperation}
    (h : Planned planner proposal tree volume candidate index asked)
    (hopen : candidate.blocked = false) : candidate.operation.status = .preflightOk := by
  obtain ⟨fingerprint, -, dependencies, hop⟩ := (h.open_of hopen).checked
  rw [hop]
  rfl

/-- A candidate moves a file. -/
theorem Planned.moves {candidate : PlannedCandidate} {index : Nat}
    {asked : OrganizationProposalOperation}
    (h : Planned planner proposal tree volume candidate index asked) :
    candidate.operation.kind ≠ .internalStage ∧ candidate.operation.kind.isDirectory = false := by
  rw [h.evolves.kind]
  have hkind : (preflightCandidate planner tree volume index asked).operation.kind =
      classifyOperation (normalizeRelativeString asked.source.relativePath)
        (destinationRelative asked.proposedDestination asked.proposedName) := by
    unfold preflightCandidate
    cases preflightChecks planner tree volume asked <;> rfl
  rw [hkind, classifyOperation]
  split_ifs <;> exact ⟨by decide, rfl⟩

end Candidates

end Zemo
