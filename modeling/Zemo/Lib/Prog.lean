import Mathlib.Tactic.Common

set_option autoImplicit false

/-! # Programs that can fail or crash

A program over a state `σ` returns a value, stops with an error the caller can catch, or crashes:
after a crash nothing of the program runs any more, and only the state it leaves behind remains.
Which of the three happens is decided by the state itself (a script of faults kept in it, say), so
one definition of a program describes all of its faulty runs.

The file gives the judgements the proofs about such programs use. `Keeps I m` says that `m`
preserves `I` on every way out; it is what an invariant of a whole run needs. `Triple P m Q S` adds
what is known when `m` returns. `Within I J m` is the case between them: `m` preserves `I`, and
whenever it returns also `J`. Each comes with one rule for each way of building a program. -/

/-- How a program stops. -/
inductive Exit (ε α : Type) where
  | ok (value : α)
  | error (cause : ε)
  | crash
deriving DecidableEq, Repr

/-- The program returned. -/
def Exit.isOk {ε α : Type} : Exit ε α → Bool
  | .ok _ => true
  | _ => false

/-- A program over the state `σ` with errors `ε` and result `α`. -/
def Prog (σ ε α : Type) : Type := σ → Exit ε α × σ

namespace Prog

variable {σ ε α β : Type}

/-- Sequencing: the rest runs only when the first part returns. -/
def seq (m : Prog σ ε α) (f : α → Prog σ ε β) : Prog σ ε β := fun s =>
  match m s with
  | (.ok a, t) => f a t
  | (.error e, t) => (.error e, t)
  | (.crash, t) => (.crash, t)

instance : Monad (Prog σ ε) where
  pure a := fun s => (.ok a, s)
  bind := seq

/-- Stop with an error. -/
def fail (e : ε) : Prog σ ε α := fun s => (.error e, s)

/-- Stop with the error `e` unless `c` holds. -/
def ensure (c : Prop) [Decidable c] (e : ε) : Prog σ ε Unit :=
  if c then pure () else fail e

/-- The value of an option; none is the error `e`. -/
def orFail (o : Option α) (e : ε) : Prog σ ε α :=
  match o with
  | some a => pure a
  | none => fail e

/-- A computation that does not look at the state. -/
def lift (r : Except ε α) : Prog σ ε α :=
  match r with
  | .ok a => pure a
  | .error e => fail e

/-- Run `m` and hand its error to the caller as a value. A crash is not caught. -/
def attempt (m : Prog σ ε α) : Prog σ ε (Except ε α) := fun s =>
  match m s with
  | (.ok a, t) => (.ok (.ok a), t)
  | (.error e, t) => (.ok (.error e), t)
  | (.crash, t) => (.crash, t)

/-- Read part of the state. -/
def reads (f : σ → α) : Prog σ ε α := fun s => (.ok (f s), s)

/-- Change the state. -/
def modifies (f : σ → σ) : Prog σ ε Unit := fun s => (.ok (), f s)

/-- Run `f` on the members of a list, in order. -/
def forEach (f : β → Prog σ ε Unit) : List β → Prog σ ε Unit
  | [] => pure ()
  | b :: bs => f b >>= fun _ => forEach f bs

/-! ## Running -/

@[simp] theorem pure_apply (a : α) (s : σ) : (pure a : Prog σ ε α) s = (.ok a, s) := rfl

@[simp] theorem fail_apply (e : ε) (s : σ) : (fail e : Prog σ ε α) s = (.error e, s) := rfl

@[simp] theorem reads_apply (f : σ → α) (s : σ) : (reads f : Prog σ ε α) s = (.ok (f s), s) := rfl

theorem bind_apply (m : Prog σ ε α) (f : α → Prog σ ε β) (s : σ) :
    (m >>= f) s = match m s with
      | (.ok a, t) => f a t
      | (.error e, t) => (.error e, t)
      | (.crash, t) => (.crash, t) := rfl

/-- A part that returns hands its value and state to the rest. -/
theorem bind_ok {m : Prog σ ε α} {f : α → Prog σ ε β} {s t : σ} {a : α} (h : m s = (.ok a, t)) :
    (m >>= f) s = f a t := by
  rw [bind_apply, h]

/-- A sequence that returns came through both of its parts. -/
theorem bind_eq_ok {m : Prog σ ε α} {f : α → Prog σ ε β} {s u : σ} {b : β}
    (h : (m >>= f) s = (.ok b, u)) : ∃ a t, m s = (.ok a, t) ∧ f a t = (.ok b, u) := by
  rw [bind_apply] at h
  split at h
  · exact ⟨_, _, ‹_›, h⟩
  · simp at h
  · simp at h

theorem ensure_pos {c : Prop} [Decidable c] (e : ε) (h : c) :
    (ensure c e : Prog σ ε Unit) = pure () := if_pos h

theorem ensure_neg {c : Prop} [Decidable c] (e : ε) (h : ¬c) :
    (ensure c e : Prog σ ε Unit) = fail e := if_neg h

theorem ensure_eq_ok {c : Prop} [Decidable c] {e : ε} {s t : σ} {u : Unit}
    (h : (ensure c e : Prog σ ε Unit) s = (.ok u, t)) : c ∧ t = s := by
  by_cases hc : c
  · rw [ensure_pos e hc, pure_apply] at h
    exact ⟨hc, (Prod.mk.inj h).2.symm⟩
  · rw [ensure_neg e hc, fail_apply] at h
    simp at h

theorem exists_of_isOk {m : Prog σ ε α} {s : σ} (h : (m s).1.isOk = true) :
    ∃ a t, m s = (.ok a, t) := by
  rcases hm : m s with ⟨a | e | _, t⟩
  · exact ⟨a, t, rfl⟩
  · rw [hm] at h
    cases h
  · rw [hm] at h
    cases h

theorem attempt_ok {m : Prog σ ε α} {s t : σ} {a : α} (h : m s = (.ok a, t)) :
    attempt m s = (.ok (.ok a), t) := by
  simp only [attempt, h]

/-! ## Invariants -/

/-- `m` preserves `I`, however it stops. -/
def Keeps (I : σ → Prop) (m : Prog σ ε α) : Prop := ∀ s, I s → I (m s).2

variable {I P P' S S' : σ → Prop}

/-- From a state in `P`, the program `m` returns a value and a state in `Q`, or stops with an error
    or by a crash in a state in `S`. -/
def Triple (P : σ → Prop) (m : Prog σ ε α) (Q : α → σ → Prop) (S : σ → Prop) : Prop :=
  ∀ s, P s → match m s with
    | (.ok a, t) => Q a t
    | (.error _, t) => S t
    | (.crash, t) => S t

variable {Q T : α → σ → Prop} {R : β → σ → Prop}

/-- What holds on every way out holds at the end. -/
theorem Triple.ends {m : Prog σ ε α} (h : Triple P m (fun _ => S) S) {s : σ} (hs : P s) :
    S (m s).2 := by
  have h1 := h s hs
  revert h1
  rcases m s with ⟨a | e | _, t⟩ <;> exact id

theorem Triple.keeps {m : Prog σ ε α} (h : Triple I m (fun _ => I) I) : Keeps I m :=
  fun _ hs => h.ends hs

theorem Keeps.triple {m : Prog σ ε α} (h : Keeps I m) : Triple I m (fun _ => I) I := by
  intro s hs
  have h1 := h s hs
  revert h1
  rcases m s with ⟨a | e | _, t⟩ <;> exact id

theorem Triple.weaken {m : Prog σ ε α} (h : Triple P m Q S) (hP : ∀ s, P' s → P s)
    (hQ : ∀ a s, Q a s → T a s) (hS : ∀ s, S s → S' s) : Triple P' m T S' := by
  intro s hs
  have h1 := h s (hP s hs)
  revert h1
  rcases m s with ⟨a | e | _, t⟩
  · exact hQ a t
  · exact hS t
  · exact hS t

theorem Triple.pure {a : α} (h : ∀ s, P s → Q a s) : Triple P (pure a : Prog σ ε α) Q S :=
  fun s hs => h s hs

theorem Triple.fail {e : ε} (h : ∀ s, P s → S s) : Triple P (fail e : Prog σ ε α) Q S :=
  fun s hs => h s hs

theorem Triple.reads {f : σ → α} (h : ∀ s, P s → Q (f s) s) :
    Triple P (reads f : Prog σ ε α) Q S :=
  fun s hs => h s hs

theorem Triple.bind {m : Prog σ ε α} {f : α → Prog σ ε β} (hm : Triple P m Q S)
    (hf : ∀ a, Triple (Q a) (f a) R S) : Triple P (m >>= f) R S := by
  intro s hs
  have h1 := hm s hs
  rw [bind_apply]
  revert h1
  rcases m s with ⟨a | e | _, t⟩
  · exact hf a t
  · exact id
  · exact id

theorem Triple.ensure {c : Prop} [Decidable c] {e : ε} {Q : Unit → σ → Prop}
    (ht : ∀ s, P s → c → Q () s) (hf : ∀ s, P s → ¬c → S s) :
    Triple P (ensure c e : Prog σ ε Unit) Q S := by
  intro s hs
  by_cases hc : c
  · rw [ensure_pos e hc]
    exact ht s hs hc
  · rw [ensure_neg e hc]
    exact hf s hs hc

theorem Triple.orFail {o : Option α} {e : ε} (ht : ∀ s a, P s → o = some a → Q a s)
    (hf : ∀ s, P s → o = none → S s) : Triple P (orFail o e : Prog σ ε α) Q S := by
  intro s hs
  cases o with
  | some a => exact ht s a hs rfl
  | none => exact hf s hs rfl

theorem Triple.lift {r : Except ε α} (ht : ∀ s a, P s → r = .ok a → Q a s)
    (hf : ∀ s e, P s → r = .error e → S s) : Triple P (lift r : Prog σ ε α) Q S := by
  intro s hs
  cases r with
  | ok a => exact ht s a hs rfl
  | error e => exact hf s e hs rfl

/-- A caught error becomes a value; the states it can be caught in are those `m` fails in. -/
theorem Triple.attempt {m : Prog σ ε α} (h : Triple P m Q S) :
    Triple P (attempt m) (fun r s => match r with | .ok a => Q a s | .error _ => S s) S := by
  intro s hs
  have h1 := h s hs
  unfold Prog.attempt
  revert h1
  rcases m s with ⟨a | e | _, t⟩ <;> exact id

/-! ### The rules for `Returns` -/

/-- From a state in `P`, when `m` returns, it returns with `Q`. -/
abbrev Returns (P : σ → Prop) (m : Prog σ ε α) (Q : α → σ → Prop) : Prop :=
  Triple P m Q fun _ => True

theorem Triple.returns {m : Prog σ ε α} (h : Triple P m Q S) : Returns P m Q :=
  h.weaken (fun _ hs => hs) (fun _ _ hs => hs) fun _ _ => trivial

theorem Returns.of_ok {m : Prog σ ε α} {s t : σ} {a : α} (h : Returns P m Q) (hs : P s)
    (hm : m s = (.ok a, t)) : Q a t := by
  have h1 := h s hs
  rw [hm] at h1
  exact h1

theorem Returns.any {m : Prog σ ε α} : Returns P m fun _ _ => True := by
  intro s _
  rcases m s with ⟨a | e | _, t⟩ <;> exact trivial

/-- A program that ends with an error does not return. -/
theorem Returns.fails {m : Prog σ ε α} {e : ε} {Q : β → σ → Prop} :
    Returns P (m >>= fun _ => fail e) Q :=
  Triple.bind Returns.any fun _ => .fail fun _ hs => hs

/-! ### The rules for `Keeps` -/

theorem Keeps.pure {a : α} : Keeps I (pure a : Prog σ ε α) := fun _ hs => hs

theorem Keeps.fail {e : ε} : Keeps I (fail e : Prog σ ε α) := fun _ hs => hs

theorem Keeps.reads {f : σ → α} : Keeps I (reads f : Prog σ ε α) := fun _ hs => hs

theorem Keeps.modifies {f : σ → σ} (h : ∀ s, I s → I (f s)) :
    Keeps I (modifies f : Prog σ ε Unit) := h

theorem Keeps.bind {m : Prog σ ε α} {f : α → Prog σ ε β} (hm : Keeps I m)
    (hf : ∀ a, Keeps I (f a)) : Keeps I (m >>= f) :=
  (Triple.bind hm.triple fun a => (hf a).triple).keeps

theorem Keeps.ensure {c : Prop} [Decidable c] {e : ε} :
    Keeps I (ensure c e : Prog σ ε Unit) :=
  (Triple.ensure (Q := fun _ => I) (fun _ hs _ => hs) fun _ hs _ => hs).keeps

theorem Keeps.orFail {o : Option α} {e : ε} : Keeps I (orFail o e : Prog σ ε α) :=
  (Triple.orFail (Q := fun _ => I) (fun _ _ hs _ => hs) fun _ hs _ => hs).keeps

theorem Keeps.lift {r : Except ε α} : Keeps I (lift r : Prog σ ε α) :=
  (Triple.lift (Q := fun _ => I) (fun _ _ hs _ => hs) fun _ _ hs _ => hs).keeps

theorem Keeps.attempt {m : Prog σ ε α} (h : Keeps I m) : Keeps I (attempt m) := by
  intro s hs
  have h1 := h s hs
  unfold Prog.attempt
  revert h1
  rcases m s with ⟨a | e | _, t⟩ <;> exact id

/-! ### The rules for `Within` -/

/-- `m` preserves `I` however it stops, and `J` with it when it returns. -/
def Within (I J : σ → Prop) (m : Prog σ ε α) : Prop :=
  Triple (fun s => I s ∧ J s) m (fun _ s => I s ∧ J s) I

variable {J : σ → Prop}

theorem Keeps.within {m : Prog σ ε α} (h : Keeps (fun s => I s ∧ J s) m) : Within I J m :=
  h.triple.weaken (fun _ hs => hs) (fun _ _ hs => hs) fun _ hs => hs.1

theorem Within.triple {m : Prog σ ε α} (h : Within I J m) :
    Triple (fun s => I s ∧ J s) m (fun _ s => I s ∧ J s) I := h

/-- A program that keeps both is known to keep the first. -/
theorem Triple.forget {m : Prog σ ε α} (h : Triple P m Q fun s => I s ∧ J s) : Triple P m Q I :=
  h.weaken (fun _ hs => hs) (fun _ _ hs => hs) fun _ hs => hs.1

theorem Within.pure {a : α} : Within I J (pure a : Prog σ ε α) := Keeps.pure.within

theorem Within.fail {e : ε} : Within I J (fail e : Prog σ ε α) := Keeps.fail.within

theorem Within.reads {f : σ → α} : Within I J (reads f : Prog σ ε α) := Keeps.reads.within

theorem Within.ensure {c : Prop} [Decidable c] {e : ε} :
    Within I J (ensure c e : Prog σ ε Unit) := Keeps.ensure.within

theorem Within.orFail {o : Option α} {e : ε} : Within I J (orFail o e : Prog σ ε α) :=
  Keeps.orFail.within

theorem Within.lift {r : Except ε α} : Within I J (lift r : Prog σ ε α) := Keeps.lift.within

theorem Within.bind {m : Prog σ ε α} {f : α → Prog σ ε β} (hm : Within I J m)
    (hf : ∀ a, Within I J (f a)) : Within I J (m >>= f) :=
  Triple.bind hm.triple fun a => (hf a).triple

/-- The rest of a program runs within `J` once its first part has established it. -/
theorem Keeps.bind_within {m : Prog σ ε α} {f : α → Prog σ ε β}
    (hm : Triple I m (fun _ s => I s ∧ J s) I) (hf : ∀ a, Within I J (f a)) :
    Keeps I (m >>= f) :=
  (Triple.weaken (Triple.bind hm fun a => (hf a).triple) (T := fun _ => I) (fun _ hs => hs)
    (fun _ _ hs => hs.1) fun _ hs => hs).keeps

end Prog
