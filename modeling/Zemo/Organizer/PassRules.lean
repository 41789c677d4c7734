import Zemo.Lib.Pointwise
import Zemo.Organizer.Build

set_option autoImplicit false

/-! # Rules for the passes

Each pass changes the drafts one by one. A relation between a draft and what a single step makes of
it therefore holds between the drafts before and after the whole pass. -/

namespace Zemo.Organizer

variable {engine : EngineContext} {policy : VirtualPathPolicy}
variable {R : DraftOperation → DraftOperation → Prop}

/-! ## Small groups -/

theorem optionalTail_of_isSmall {drafts : List DraftOperation} {minimumGroupSize : Nat}
    {draft : DraftOperation} (h : engine.isSmall drafts minimumGroupSize draft = true) :
    draft.optionalTail.getLast? = some true := by
  unfold EngineContext.isSmall at h
  exact of_decide_eq_true (Bool.and_eq_true .. ▸ h).1

theorem groupRound_forall₂ (hrefl : ∀ draft, R draft draft)
    (hpop : ∀ draft, draft.optionalTail.getLast? = some true → R draft draft.popped)
    (minimumGroupSize : Nat) (drafts : List DraftOperation) :
    List.Forall₂ R drafts (engine.groupRound minimumGroupSize drafts) := by
  refine Pointwise.of_map fun draft _ => ?_
  split
  · rename_i hsmall
    exact hpop draft (optionalTail_of_isSmall hsmall)
  · exact hrefl draft

theorem groupLoop_forall₂ (hrefl : ∀ draft, R draft draft)
    (htrans : ∀ a b c, R a b → R b c → R a c)
    (hpop : ∀ draft, draft.optionalTail.getLast? = some true → R draft draft.popped)
    (minimumGroupSize fuel : Nat) (drafts : List DraftOperation) :
    List.Forall₂ R drafts (engine.groupLoop minimumGroupSize fuel drafts) := by
  induction fuel generalizing drafts with
  | zero => exact List.forall₂_same.2 fun draft _ => hrefl draft
  | succ fuel ih =>
      unfold EngineContext.groupLoop
      split
      · exact Pointwise.comp (groupRound_forall₂ hrefl hpop minimumGroupSize drafts) (ih _) htrans
      · exact List.forall₂_same.2 fun draft _ => hrefl draft

/-- The group policy takes optional folders away and measures the drafts again. -/
theorem applyMinimumGroupPolicy_forall₂ (hrefl : ∀ draft, R draft draft)
    (htrans : ∀ a b c, R a b → R b c → R a c)
    (hpop : ∀ draft, draft.optionalTail.getLast? = some true → R draft draft.popped)
    (hmeasure : ∀ draft, R draft (engine.remeasured draft))
    (minimumGroupSize : Nat) (drafts : List DraftOperation) :
    List.Forall₂ R drafts (engine.applyMinimumGroupPolicy minimumGroupSize drafts) := by
  unfold EngineContext.applyMinimumGroupPolicy
  split
  · exact List.forall₂_same.2 fun draft _ => hrefl draft
  · exact Pointwise.comp (groupLoop_forall₂ hrefl htrans hpop minimumGroupSize _ drafts)
      (Pointwise.of_map (R := R) fun draft _ => hmeasure draft) htrans

/-! ## Places taken twice -/

/-- The operation under a name with a suffix. -/
def DraftOperation.suffixed (draft : DraftOperation) (name : String) : DraftOperation :=
  DraftOperation.measured
    { draft with
      operation :=
        { draft.operation with
          proposedName := name
          conflictState := .autoResolved
          reasons := draft.operation.reasons ++ [reason "collision_resolved"
            ("A deterministic numeric suffix avoids a case-insensitive destination "
              ++ "collision.") none] } }

/-- What one step of the collision pass makes of a draft. -/
inductive CollisionStep (policy : VirtualPathPolicy) (draft : DraftOperation) :
    DraftOperation → Prop where
  | kept : CollisionStep policy draft draft
  | ofUser (code explanation : String) (hmoved : isLeftAlone draft.operation = false)
      (huser : draft.operation.userOverride = true) :
      CollisionStep policy draft (draft.unresolved code explanation)
  | unresolved (code explanation : String) (hmoved : isLeftAlone draft.operation = false)
      (hmachine : draft.operation.userOverride = false) :
      CollisionStep policy draft (draft.unresolved code explanation).measured
  | suffixed (suffix : Nat) (hmoved : isLeftAlone draft.operation = false)
      (hmachine : draft.operation.userOverride = false)
      (hshort : VirtualPathPolicy.pathLengthUtf16 draft.operation.proposedDestination
        (collisionName draft.operation.proposedName suffix policy.maximumFilenameUtf16)
          ≤ policy.maximumPathUtf16) :
      CollisionStep policy draft (draft.suffixed
        (collisionName draft.operation.proposedName suffix policy.maximumFilenameUtf16))

theorem resolveCollision_step (seen : List String) (draft : DraftOperation) :
    CollisionStep policy draft (engine.resolveCollision policy seen draft).2 := by
  unfold EngineContext.resolveCollision
  by_cases hleft : isLeftAlone draft.operation = true
  · rw [if_pos hleft]
    exact .kept
  rw [if_neg hleft]
  have hmoved : isLeftAlone draft.operation = false := Bool.eq_false_iff.2 hleft
  simp only
  by_cases hfirst : seen.count (engine.placeKey draft.operation) + 1 = 1
  · rw [if_pos hfirst]
    exact .kept
  rw [if_neg hfirst]
  by_cases huser : draft.operation.userOverride = true
  · rw [if_pos huser]
    exact .ofUser _ _ hmoved huser
  rw [if_neg huser]
  have hmachine : draft.operation.userOverride = false := Bool.eq_false_iff.2 huser
  split
  · exact .unresolved _ _ hmoved hmachine
  · rename_i hfree
    exact .suffixed _ hmoved hmachine (Nat.le_of_not_lt (not_or.1 hfree).2)

theorem resolveCollisionsFrom_forall₂
    (h : ∀ draft result, CollisionStep policy draft result → R draft result)
    (drafts : List DraftOperation) (seen : List String) :
    List.Forall₂ R drafts (engine.resolveCollisionsFrom policy seen drafts) := by
  induction drafts generalizing seen with
  | nil => exact .nil
  | cons draft rest ih => exact .cons (h _ _ (resolveCollision_step seen draft)) (ih _)

theorem resolveCollisions_forall₂
    (h : ∀ draft result, CollisionStep policy draft result → R draft result)
    (drafts : List DraftOperation) :
    List.Forall₂ R drafts (engine.resolveCollisions policy drafts) :=
  resolveCollisionsFrom_forall₂ h drafts []

end Zemo.Organizer
