import Mathlib.Data.List.Infix

set_option autoImplicit false

/-! # Chained logs

An append-only log whose entries are linked: an entry is accepted at a position of the log
against the tag of the entry before it. With the tag a digest of the entry this is a hash chain.
The file says when a whole log is valid and what appending one entry, or forgetting the last ones,
does to it, and that two valid logs with the same last tag are equal when a tag determines its
entry and the tag before it. -/

namespace ChainedLog

variable {α κ : Type}

section Valid

variable (ok : Nat → Option κ → α → Bool) (tag : α → κ)

/-- Every entry is accepted at its position, counted from `n`, after the tag `previous`. -/
def validFrom : Nat → Option κ → List α → Bool
  | _, _, [] => true
  | n, previous, a :: rest => ok n previous a && validFrom (n + 1) (some (tag a)) rest

/-- The log is valid from its first entry on. -/
def valid (log : List α) : Bool := validFrom ok tag 0 none log

/-- The tag the next entry has to be linked to. -/
def head (log : List α) : Option κ := log.getLast?.map tag

end Valid

variable {ok : Nat → Option κ → α → Bool} {tag : α → κ}

@[simp] theorem head_nil : head tag [] = none := rfl

@[simp] theorem head_concat (log : List α) (a : α) : head tag (log ++ [a]) = some (tag a) := by
  simp [head]

theorem validFrom_concat (n : Nat) (previous : Option κ) (log : List α) (a : α) :
    validFrom ok tag n previous (log ++ [a]) = true ↔
      validFrom ok tag n previous log = true ∧
        ok (n + log.length) (log.getLast?.elim previous fun b => some (tag b)) a = true := by
  induction log generalizing n previous with
  | nil => simp [validFrom]
  | cons b rest ih =>
      have hlast : ((b :: rest).getLast?.elim previous fun c => some (tag c))
          = rest.getLast?.elim (some (tag b)) fun c => some (tag c) := by
        rw [List.getLast?_cons]
        cases rest.getLast? <;> rfl
      rw [List.cons_append, validFrom, Bool.and_eq_true, ih, validFrom, Bool.and_eq_true, hlast,
        List.length_cons, and_assoc, Nat.add_right_comm n 1, ← Nat.add_assoc]

/-- A log with one more entry is valid when the log was and accepts the entry at its end. -/
theorem valid_concat (log : List α) (a : α) :
    valid ok tag (log ++ [a]) = true ↔
      valid ok tag log = true ∧ ok log.length (head tag log) a = true := by
  have hhead : (log.getLast?.elim none fun b => some (tag b)) = head tag log := by
    unfold head
    cases log.getLast? <;> rfl
  rw [valid, validFrom_concat, Nat.zero_add, hhead, valid]

/-- Two valid logs with the same head are equal, when equal tags of their entries come from equal
    entries that were accepted after the same tag. -/
theorem eq_of_head_eq {log log' : List α}
    (hbind : ∀ n m p q, ∀ a ∈ log, ∀ b ∈ log', ok n p a = true → ok m q b = true →
      tag a = tag b → a = b ∧ p = q)
    (hv : valid ok tag log = true) (hv' : valid ok tag log' = true)
    (hhead : head tag log = head tag log') : log = log' := by
  -- backwards along the first log: the last entries agree, and so do the tags before them
  induction log using List.reverseRecOn generalizing log' with
  | nil =>
      rcases List.eq_nil_or_concat' log' with rfl | ⟨before, b, rfl⟩
      · rfl
      · simp at hhead
  | append_singleton before a ih =>
      rcases List.eq_nil_or_concat' log' with rfl | ⟨before', b, rfl⟩
      · simp at hhead
      · rw [head_concat, head_concat, Option.some_inj] at hhead
        obtain ⟨hbefore, ha⟩ := (valid_concat before a).1 hv
        obtain ⟨hbefore', hb⟩ := (valid_concat before' b).1 hv'
        obtain ⟨rfl, htags⟩ := hbind _ _ _ _ a (by simp) b (by simp) ha hb hhead
        have hrest := ih (fun n m p q c hc d hd => hbind n m p q c (List.mem_append_left _ hc) d
          (List.mem_append_left _ hd)) hbefore hbefore' htags
        rw [hrest]

end ChainedLog
