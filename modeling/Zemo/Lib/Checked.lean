import Mathlib.Tactic.Common

set_option autoImplicit false

/-! # Checked computations

Computations that return a value or an error, built from tests that must hold. What is proved of
one is read off its success: a computation that returns went through every test. -/

/-! ## Membership

The tests whether a text or a list of bytes is among some others. -/

instance lawfulBEq_text : LawfulBEq (List Char) := inferInstance

instance lawfulBEq_bytes : LawfulBEq (List UInt8) := inferInstance

/-! ## Tests -/

namespace Checked

variable {ε α β : Type}

/-- Go on when `c` holds; otherwise the error `e`. -/
def require (c : Prop) [Decidable c] (e : ε) : Except ε Unit :=
  if c then .ok () else .error e

/-- The value of an option; none is the error `e`. -/
def orError (o : Option α) (e : ε) : Except ε α :=
  match o with
  | some a => .ok a
  | none => .error e

@[simp] theorem require_eq_ok {c : Prop} [Decidable c] {e : ε} {u : Unit} :
    require c e = .ok u ↔ c := by
  by_cases h : c <;> simp [require, h]

@[simp] theorem orError_eq_ok {o : Option α} {e : ε} {a : α} :
    orError o e = .ok a ↔ o = some a := by
  cases o <;> simp [orError]

theorem bind_eq_ok {x : Except ε α} {f : α → Except ε β} {b : β} :
    (x >>= f) = .ok b ↔ ∃ a, x = .ok a ∧ f a = .ok b := by
  cases x with
  | error e => simp [bind, Except.bind]
  | ok a => simp [bind, Except.bind]

theorem exists_of_isOk {x : Except ε α} (h : x.isOk = true) : ∃ a, x = .ok a := by
  cases x with
  | error e => exact nomatch h
  | ok a => exact ⟨a, rfl⟩

/-- A test, and what comes after it. -/
theorem test_bind_eq_ok {x : Except ε Unit} {f : Unit → Except ε β} {b : β} :
    (x >>= f) = .ok b ↔ x = .ok () ∧ f () = .ok b :=
  bind_eq_ok.trans ⟨fun ⟨_, h⟩ => h, fun h => ⟨(), h⟩⟩

theorem test_bind_isOk {x : Except ε Unit} {f : Unit → Except ε β} :
    (x >>= f).isOk ↔ x = .ok () ∧ (f ()).isOk := by
  cases x with
  | error e => simp [bind, Except.bind, Except.isOk, Except.toBool]
  | ok u => simp [bind, Except.bind]

/-- A list of tests passes when each of them does. -/
theorem forM_eq_ok {f : α → Except ε Unit} {l : List α} :
    forM l f = .ok () ↔ ∀ a ∈ l, f a = .ok () := by
  induction l with
  | nil => simp [pure, Except.pure]
  | cons a l ih =>
      rw [List.forM_cons, bind_eq_ok, List.forall_mem_cons, ← ih]
      exact ⟨fun ⟨_, h1, h2⟩ => ⟨h1, h2⟩, fun ⟨h1, h2⟩ => ⟨(), h1, h2⟩⟩

theorem bind_ok {x : Except ε α} {f : α → Except ε β} {a : α} (h : x = .ok a) :
    (x >>= f) = f a := by
  rw [h]
  rfl

theorem bind_error {x : Except ε α} {f : α → Except ε β} {e : ε} (h : x = .error e) :
    (x >>= f) = .error e := by
  rw [h]
  rfl

theorem require_pos {c : Prop} [Decidable c] (e : ε) (h : c) : require c e = .ok () := if_pos h

theorem require_neg {c : Prop} [Decidable c] (e : ε) (h : ¬c) : require c e = .error e := if_neg h

/-! ## Computations that never end in one error -/

/-- The computation does not end in the error `e`, and what it returns satisfies `P`. -/
def Avoids (e : ε) (P : α → Prop) (x : Except ε α) : Prop :=
  x ≠ .error e ∧ ∀ a, x = .ok a → P a

variable {e : ε} {P : α → Prop} {Q : β → Prop}

theorem Avoids.pure {a : α} (h : P a) : Avoids e P (pure a) :=
  ⟨nofun, fun _ ha => Except.ok.inj ha ▸ h⟩

theorem Avoids.error {e' : ε} (h : e' ≠ e) : Avoids e P (.error e') :=
  ⟨fun he => h (Except.error.inj he), nofun⟩

theorem Avoids.bind {x : Except ε α} {f : α → Except ε β} (hx : Avoids e P x)
    (hf : ∀ a, P a → Avoids e Q (f a)) : Avoids e Q (x >>= f) := by
  cases x with
  | error e' => exact .error fun he => hx.1 (congrArg _ he)
  | ok a => exact hf a (hx.2 a rfl)

theorem Avoids.mono {P' : α → Prop} {x : Except ε α} (hx : Avoids e P x) (h : ∀ a, P a → P' a) :
    Avoids e P' x :=
  ⟨hx.1, fun a ha => h a (hx.2 a ha)⟩

theorem Avoids.and {P' : α → Prop} {x : Except ε α} (hx : Avoids e P x) (hx' : Avoids e P' x) :
    Avoids e (fun a => P a ∧ P' a) x :=
  ⟨hx.1, fun a ha => ⟨hx.2 a ha, hx'.2 a ha⟩⟩

theorem Avoids.require {c : Prop} [Decidable c] {e' : ε} (h : e' ≠ e) :
    Avoids e (fun _ => c) (require c e') := by
  by_cases hc : c
  · rw [require_pos e' hc]
    exact .pure hc
  · rw [require_neg e' hc]
    exact .error h

theorem Avoids.orError {o : Option α} {e' : ε} (h : e' ≠ e) :
    Avoids e (fun a => o = some a) (orError o e') := by
  cases o with
  | none => exact .error h
  | some a => exact .pure rfl

theorem Avoids.forM {f : α → Except ε Unit} {l : List α}
    (h : ∀ a ∈ l, Avoids e (fun _ => True) (f a)) : Avoids e (fun _ => True) (forM l f) := by
  induction l with
  | nil => exact .pure trivial
  | cons a l ih =>
      rw [List.forM_cons]
      exact .bind (h a (List.mem_cons_self ..)) fun _ _ =>
        ih fun b hb => h b (List.mem_cons_of_mem _ hb)

end Checked
