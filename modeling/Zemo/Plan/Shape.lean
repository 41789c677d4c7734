import Zemo.Plan.Settled

set_option autoImplicit false

/-! # The shape of a plan

A file that goes to a staging path leaves it soon: the move from the staging path follows the move to
it at once, or follows when all files of the cycles are staged. `Staged` says so of a sequence of
operations, and the operations of every plan that will be run are staged. -/

namespace Zemo

/-- The operation moves a file on from where the stage put it, and waits for the stage. -/
structure FinalMove (stage final : ExecutionOperation) : Prop where
  source : final.sourceRelativePath = some stage.destinationRelativePath
  waits : stage.id ∈ final.dependencies
  notStage : final.kind ≠ .internalStage
  moves : final.kind.isDirectory = false

/-- Stages that are directly followed by their final moves, among other operations. -/
inductive Paired : List ExecutionOperation → Prop
  | nil : Paired []
  | single {op : ExecutionOperation} {rest : List ExecutionOperation}
      (h : op.kind ≠ .internalStage) (hrest : Paired rest) : Paired (op :: rest)
  | pair {stage final : ExecutionOperation} {rest : List ExecutionOperation}
      (hstage : stage.kind = .internalStage) (h : FinalMove stage final) (hrest : Paired rest) :
      Paired (stage :: final :: rest)

/-- Pairs, then a group of stages with their final moves, then operations that stage nothing. -/
structure Staged (direct stages finals cleanup : List ExecutionOperation) : Prop where
  paired : Paired direct
  stage : ∀ op ∈ stages, op.kind = .internalStage
  final : ∀ stage ∈ stages, ∃ final ∈ finals, FinalMove stage final
  waits : ∀ final ∈ finals, final.kind ≠ .internalStage ∧
    ∀ stage ∈ stages, stage.id ∈ final.dependencies
  cleanup : ∀ op ∈ cleanup, op.kind ≠ .internalStage

/-! ## Pairs -/

theorem Paired.append {as bs : List ExecutionOperation} (ha : Paired as) (hb : Paired bs) :
    Paired (as ++ bs) := by
  induction ha with
  | nil => exact hb
  | single h _ ih => exact .single h ih
  | pair hstage h _ ih => exact .pair hstage h ih

theorem Paired.of_noStage {ops : List ExecutionOperation}
    (h : ∀ op ∈ ops, op.kind ≠ .internalStage) : Paired ops := by
  induction ops with
  | nil => exact .nil
  | cons op rest ih =>
      exact .single (h op (List.mem_cons_self ..))
        (ih fun op' hop' => h op' (List.mem_cons_of_mem _ hop'))

/-- What may be changed of an operation without changing the shape of a plan. -/
structure SameMove (op op' : ExecutionOperation) : Prop where
  id : op'.id = op.id
  kind : op'.kind = op.kind
  source : op'.sourceRelativePath = op.sourceRelativePath
  destination : op'.destinationRelativePath = op.destinationRelativePath
  dependencies : op'.dependencies = op.dependencies

theorem FinalMove.same {stage final stage' final' : ExecutionOperation} (h : FinalMove stage final)
    (hs : SameMove stage stage') (hf : SameMove final final') : FinalMove stage' final' where
  source := by rw [hf.source, hs.destination, h.source]
  waits := by rw [hf.dependencies, hs.id]; exact h.waits
  notStage := by rw [hf.kind]; exact h.notStage
  moves := by rw [hf.kind]; exact h.moves

theorem Paired.mapIdx {ops : List ExecutionOperation} (h : Paired ops)
    {f : ℕ → ExecutionOperation → ExecutionOperation} (hf : ∀ i op, SameMove op (f i op)) :
    Paired (ops.mapIdx f) := by
  induction h generalizing f with
  | nil => exact .nil
  | single h _ ih =>
      rw [List.mapIdx_cons]
      exact .single (by rw [(hf 0 _).kind]; exact h) (ih fun i op => hf (i + 1) op)
  | pair hstage h _ ih =>
      rw [List.mapIdx_cons, List.mapIdx_cons]
      exact .pair (by rw [(hf 0 _).kind]; exact hstage) (h.same (hf 0 _) (hf 1 _))
        (ih fun i op => hf (i + 1 + 1) op)

private theorem mem_mapIdx {ops : List ExecutionOperation}
    {f : ℕ → ExecutionOperation → ExecutionOperation} (hf : ∀ i op, SameMove op (f i op))
    {op' : ExecutionOperation} (h : op' ∈ ops.mapIdx f) : ∃ op ∈ ops, SameMove op op' := by
  obtain ⟨i, hi, rfl⟩ := List.mem_mapIdx.1 h
  exact ⟨_, List.getElem_mem hi, hf i _⟩

private theorem mapIdx_mem {ops : List ExecutionOperation}
    {f : ℕ → ExecutionOperation → ExecutionOperation} (hf : ∀ i op, SameMove op (f i op))
    {op : ExecutionOperation} (h : op ∈ ops) : ∃ op' ∈ ops.mapIdx f, SameMove op op' := by
  obtain ⟨i, hi, rfl⟩ := List.getElem_of_mem h
  exact ⟨f i ops[i], List.mem_mapIdx.2 ⟨i, hi, rfl⟩, hf i _⟩

/-- Numbering the operations does not change the shape. -/
theorem Staged.mapIdx {direct stages finals cleanup : List ExecutionOperation}
    (h : Staged direct stages finals cleanup) {f₁ f₂ f₃ f₄ : ℕ → ExecutionOperation →
      ExecutionOperation} (h₁ : ∀ i op, SameMove op (f₁ i op)) (h₂ : ∀ i op, SameMove op (f₂ i op))
    (h₃ : ∀ i op, SameMove op (f₃ i op)) (h₄ : ∀ i op, SameMove op (f₄ i op)) :
    Staged (direct.mapIdx f₁) (stages.mapIdx f₂) (finals.mapIdx f₃) (cleanup.mapIdx f₄) where
  paired := h.paired.mapIdx h₁
  stage op' hop' := by
    obtain ⟨op, hop, hsame⟩ := mem_mapIdx h₂ hop'
    rw [hsame.kind]
    exact h.stage op hop
  final stage' hstage' := by
    obtain ⟨stage, hstage, hs⟩ := mem_mapIdx h₂ hstage'
    obtain ⟨final, hfinal, hmove⟩ := h.final stage hstage
    obtain ⟨final', hfinal', hf⟩ := mapIdx_mem h₃ hfinal
    exact ⟨final', hfinal', hmove.same hs hf⟩
  waits final' hfinal' := by
    obtain ⟨final, hfinal, hf⟩ := mem_mapIdx h₃ hfinal'
    refine ⟨by rw [hf.kind]; exact (h.waits final hfinal).1, fun stage' hstage' => ?_⟩
    obtain ⟨stage, hstage, hs⟩ := mem_mapIdx h₂ hstage'
    rw [hf.dependencies, hs.id]
    exact (h.waits final hfinal).2 stage hstage
  cleanup op' hop' := by
    obtain ⟨op, hop, hsame⟩ := mem_mapIdx h₄ hop'
    rw [hsame.kind]
    exact h.cleanup op hop

/-! ## Where a run may stop -/

/-- Every stage has its final move. -/
def Placed (ops : List ExecutionOperation) : Prop :=
  ∀ stage ∈ ops, stage.kind = .internalStage → ∃ final ∈ ops, FinalMove stage final

theorem Placed.append {as bs : List ExecutionOperation} (ha : Placed as) (hb : Placed bs) :
    Placed (as ++ bs) := by
  intro stage hstage hkind
  rcases List.mem_append.1 hstage with h | h
  · obtain ⟨final, hfinal, hmove⟩ := ha stage h hkind
    exact ⟨final, List.mem_append_left _ hfinal, hmove⟩
  · obtain ⟨final, hfinal, hmove⟩ := hb stage h hkind
    exact ⟨final, List.mem_append_right _ hfinal, hmove⟩

theorem Placed.of_noStage {ops : List ExecutionOperation}
    (h : ∀ op ∈ ops, op.kind ≠ .internalStage) : Placed ops :=
  fun stage hstage hkind => absurd hkind (h stage hstage)

theorem Paired.placed {ops : List ExecutionOperation} (h : Paired ops) : Placed ops := by
  induction h with
  | nil => exact fun _ h => nomatch h
  | single h _ ih =>
      exact @Placed.append [_] _ (.of_noStage (by simpa using h)) ih
  | @pair stage final rest _ h _ ih =>
      refine @Placed.append [stage, final] _ (fun s hs hkind => ?_) ih
      rcases List.mem_pair.1 hs with rfl | rfl
      · exact ⟨final, by simp, h⟩
      · exact absurd hkind h.notStage

theorem Staged.group_placed {direct stages finals cleanup : List ExecutionOperation}
    (h : Staged direct stages finals cleanup) : Placed (stages ++ finals) := by
  intro s hs hkind
  rcases List.mem_append.1 hs with hs | hs
  · obtain ⟨final, hfinal, hmove⟩ := h.final s hs
    exact ⟨final, List.mem_append_right _ hfinal, hmove⟩
  · exact absurd hkind (h.waits s hs).1

theorem Staged.placed {direct stages finals cleanup : List ExecutionOperation}
    (h : Staged direct stages finals cleanup) :
    Placed (direct ++ (stages ++ finals) ++ cleanup) :=
  (h.paired.placed.append h.group_placed).append (.of_noStage h.cleanup)

/-- The operation is a stage, or waits for one of these. -/
def WaitsForStage (ops : List ExecutionOperation) (op : ExecutionOperation) : Prop :=
  op.kind = .internalStage ∨ ∃ stage ∈ ops, stage.kind = .internalStage ∧ stage.id ∈ op.dependencies

/-- What is done at a point where a run may stop: there is no stage yet, or the next operation has
    nothing to do with stages. -/
def MayStop (all done : List ExecutionOperation) (next : ExecutionOperation) : Prop :=
  (∀ op ∈ done, op.kind ≠ .internalStage) ∨ ¬WaitsForStage all next

theorem MayStop.of_append {all before done : List ExecutionOperation} {next : ExecutionOperation}
    (h : MayStop all (before ++ done) next) : MayStop all done next :=
  h.imp_left fun hdone op hop => hdone op (List.mem_append_right _ hop)

/-- Wherever a run of `ops` may stop, every stage that is done has its final move. -/
def SafeToStop (all ops : List ExecutionOperation) : Prop :=
  ∀ done next rest, ops = done ++ next :: rest → MayStop all done next → Placed done

theorem SafeToStop.append {all as bs : List ExecutionOperation} (ha : SafeToStop all as)
    (hplaced : Placed as) (hb : SafeToStop all bs) : SafeToStop all (as ++ bs) := by
  intro done next rest heq hstop
  rcases List.append_eq_append_iff.1 heq with ⟨done', rfl, heq'⟩ | ⟨late, rfl, heq'⟩
  · exact hplaced.append (hb done' next rest heq' hstop.of_append)
  · cases late with
    | nil =>
        rw [List.append_nil] at hplaced
        exact hplaced
    | cons op late =>
        obtain ⟨rfl, rfl⟩ := List.cons.inj heq'
        exact ha done next late rfl hstop

theorem SafeToStop.of_noStage {all ops : List ExecutionOperation}
    (h : ∀ op ∈ ops, op.kind ≠ .internalStage) : SafeToStop all ops := by
  rintro done next rest rfl -
  exact .of_noStage fun op hop => h op (List.mem_append_left _ hop)

/-- After a stage that is paired only its final move may come, and a run does not stop there. -/
private theorem safeToStop_pair {all : List ExecutionOperation} {stage final : ExecutionOperation}
    (hmem : stage ∈ all) (hstage : stage.kind = .internalStage) (h : FinalMove stage final) :
    SafeToStop all [stage, final] := by
  intro done next rest heq hstop
  rcases done with - | ⟨op, - | ⟨op', done⟩⟩
  · exact fun _ hs => nomatch hs
  · obtain ⟨rfl, htail⟩ := List.cons.inj heq
    obtain ⟨rfl, -⟩ := List.cons.inj htail
    rcases hstop with hnone | hnext
    · exact absurd hstage (hnone _ (List.mem_singleton_self _))
    · exact absurd (.inr ⟨_, hmem, hstage, h.waits⟩) hnext
  · simp at heq

theorem Paired.safeToStop {all ops : List ExecutionOperation} (h : Paired ops)
    (hall : ∀ op ∈ ops, op ∈ all) : SafeToStop all ops := by
  induction h with
  | nil => exact fun done next rest heq => by simp at heq
  | @single op ops hop _ ih =>
      have hrest := ih fun op hop => hall op (List.mem_cons_of_mem _ hop)
      exact @SafeToStop.append _ [op] _ (.of_noStage (by simpa using hop))
        (.of_noStage (by simpa using hop)) hrest
  | @pair stage final ops hstage hfinal _ ih =>
      have hrest := ih fun op hop =>
        hall op (List.mem_cons_of_mem _ (List.mem_cons_of_mem _ hop))
      have hpair := safeToStop_pair (hall stage (List.mem_cons_self ..)) hstage hfinal
      exact @SafeToStop.append _ [stage, final] _ hpair
        (Paired.placed (.pair hstage hfinal .nil)) hrest

/-- Once a stage of the group is done, everything up to the end of the group has to do with it. -/
theorem Staged.group_safeToStop {all direct stages finals cleanup : List ExecutionOperation}
    (h : Staged direct stages finals cleanup) (hall : ∀ op ∈ stages, op ∈ all) :
    SafeToStop all (stages ++ finals) := by
  intro done next rest heq hstop
  refine .of_noStage fun op hop hkind => ?_
  have hgroup : ∀ op, op ∈ done ++ next :: rest → op ∈ stages ∨ op ∈ finals := fun op hop => by
    rwa [← heq, List.mem_append] at hop
  have hstage : op ∈ stages := by
    rcases hgroup op (List.mem_append_left _ hop) with h' | h'
    · exact h'
    · exact absurd hkind (h.waits op h').1
  rcases hstop with hnone | hnext
  · exact hnone op hop hkind
  · rcases hgroup next (List.mem_append_right _ (List.mem_cons_self ..)) with h' | h'
    · exact hnext (.inl (h.stage next h'))
    · exact hnext (.inr ⟨op, hall op hstage, hkind, (h.waits next h').2 op hstage⟩)

/-- **A run of a staged sequence strands nothing**: where it may stop, every stage that is done is
    followed by its final move. -/
theorem Staged.safeToStop {direct stages finals cleanup : List ExecutionOperation}
    (h : Staged direct stages finals cleanup) :
    SafeToStop (direct ++ (stages ++ finals) ++ cleanup)
      (direct ++ (stages ++ finals) ++ cleanup) := by
  refine SafeToStop.append (SafeToStop.append ?_ h.paired.placed ?_)
    (h.paired.placed.append h.group_placed) (.of_noStage h.cleanup)
  · exact h.paired.safeToStop fun op hop => by simp [hop]
  · exact h.group_safeToStop fun op hop => by simp [hop]

end Zemo
