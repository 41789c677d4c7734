import Mathlib.Data.List.Forall2

set_option autoImplicit false

/-! # Passes over a list, member by member

A pass that changes the members of a list one by one relates each member to what is made of it. What
such a relation says of the members it says of the list. -/

namespace Pointwise

variable {α β γ : Type} {R : α → β → Prop} {l : List α} {l' : List β}

theorem exists_of_mem_left (h : List.Forall₂ R l l') {a : α} (ha : a ∈ l) : ∃ b ∈ l', R a b := by
  induction h with
  | nil => exact absurd ha List.not_mem_nil
  | cons hfirst _ ih =>
      rcases List.mem_cons.1 ha with rfl | ha
      · exact ⟨_, List.mem_cons_self .., hfirst⟩
      · obtain ⟨b, hb, hr⟩ := ih ha
        exact ⟨b, List.mem_cons_of_mem _ hb, hr⟩

theorem exists_of_mem_right (h : List.Forall₂ R l l') {b : β} (hb : b ∈ l') : ∃ a ∈ l, R a b :=
  exists_of_mem_left (R := fun b a => R a b) h.flip hb

/-- A pass that may fail on a member succeeds when it does so on every member. -/
theorem mapM_eq_some {f : α → Option β} :
    l.mapM f = some l' ↔ List.Forall₂ (fun a b => f a = some b) l l' := by
  induction l generalizing l' with
  | nil => cases l' <;> simp
  | cons a l ih =>
    rw [List.mapM_cons]
    constructor
    · intro h
      obtain ⟨b, hb, h⟩ := Option.bind_eq_some_iff.1 h
      obtain ⟨rest, hrest, h⟩ := Option.bind_eq_some_iff.1 h
      obtain rfl := Option.some.inj h
      exact .cons hb (ih.1 hrest)
    · intro h
      cases h with
      | cons hfirst hrest =>
        rw [hfirst, ih.2 hrest]
        rfl

/-- A pass that may fail with an error. -/
theorem mapM_eq_ok {ε : Type} {f : α → Except ε β} :
    l.mapM f = .ok l' ↔ List.Forall₂ (fun a b => f a = .ok b) l l' := by
  induction l generalizing l' with
  | nil => cases l' <;> simp [pure, Except.pure]
  | cons a l ih =>
    rw [List.mapM_cons]
    cases hfirst : f a with
    | error e =>
      refine ⟨fun h => (nomatch h), fun h => ?_⟩
      cases h with
      | cons h _ => cases hfirst.symm.trans h
    | ok b =>
      cases hrest : l.mapM f with
      | error e =>
        refine ⟨fun h => (nomatch h), fun h => ?_⟩
        cases h with
        | cons _ h => cases hrest.symm.trans (ih.2 h)
      | ok rest =>
        constructor
        · intro h
          obtain rfl := Except.ok.inj h
          exact .cons hfirst (ih.1 hrest)
        · intro h
          cases h with
          | cons hb h =>
            obtain rfl := Except.ok.inj (hfirst.symm.trans hb)
            obtain rfl := Except.ok.inj (hrest.symm.trans (ih.2 h))
            rfl

/-- Two passes one after the other. -/
theorem comp {S : β → γ → Prop} {T : α → γ → Prop} {l'' : List γ} (h : List.Forall₂ R l l')
    (h' : List.Forall₂ S l' l'') (hT : ∀ a b c, R a b → S b c → T a c) :
    List.Forall₂ T l l'' := by
  induction h generalizing l'' with
  | nil =>
      cases h'
      exact .nil
  | cons hfirst _ ih =>
      cases h' with
      | cons hsecond hrest => exact .cons (hT _ _ _ hfirst hsecond) (ih hrest)

/-- What else is known of the members after the pass. -/
theorem and_right {Q : β → Prop} (h : List.Forall₂ R l l') (hQ : ∀ b ∈ l', Q b) :
    List.Forall₂ (fun a b => R a b ∧ Q b) l l' := by
  induction h with
  | nil => exact .nil
  | cons hfirst _ ih =>
      exact .cons ⟨hfirst, hQ _ (List.mem_cons_self ..)⟩
        (ih fun b hb => hQ b (List.mem_cons_of_mem _ hb))

/-- What is known of a pass in two ways. -/
theorem and {S : α → β → Prop} (h : List.Forall₂ R l l') (h' : List.Forall₂ S l l') :
    List.Forall₂ (fun a b => R a b ∧ S a b) l l' := by
  induction h with
  | nil => exact .nil
  | cons hfirst _ ih =>
      cases h' with
      | cons hsecond hrest => exact .cons ⟨hfirst, hsecond⟩ (ih hrest)

/-- A pass that may fail makes of all members what it should when it does so of each. -/
theorem exists_mapM_iff {f : α → Option β} :
    (∃ l', l.mapM f = some l' ∧ List.Forall₂ R l l') ↔ ∀ a ∈ l, ∃ b, f a = some b ∧ R a b := by
  constructor
  · rintro ⟨l', hpass, hmade⟩ a ha
    obtain ⟨b, -, h⟩ := exists_of_mem_left (Pointwise.and (mapM_eq_some.1 hpass) hmade) ha
    exact ⟨b, h⟩
  · intro h
    induction l with
    | nil => exact ⟨[], rfl, .nil⟩
    | cons a l ih =>
      obtain ⟨b, hb, hr⟩ := h a (List.mem_cons_self ..)
      obtain ⟨l', hl', hrest⟩ := ih fun c hc => h c (List.mem_cons_of_mem _ hc)
      exact ⟨b :: l', mapM_eq_some.2 (.cons hb (mapM_eq_some.1 hl')), .cons hr hrest⟩

/-- What is made of the members and their images two by two. -/
theorem exists_of_mem_zipWith {f : α → β → γ} (h : List.Forall₂ R l l') {c : γ}
    (hc : c ∈ List.zipWith f l l') : ∃ a ∈ l, ∃ b ∈ l', R a b ∧ c = f a b := by
  induction h with
  | nil => exact absurd hc List.not_mem_nil
  | cons hfirst _ ih =>
      rcases List.mem_cons.1 hc with rfl | hc
      · exact ⟨_, List.mem_cons_self .., _, List.mem_cons_self .., hfirst, rfl⟩
      · obtain ⟨a, ha, b, hb, hr, rfl⟩ := ih hc
        exact ⟨a, List.mem_cons_of_mem _ ha, b, List.mem_cons_of_mem _ hb, hr, rfl⟩

/-- A pass that is a function on the members. -/
theorem of_map {f : α → β} (h : ∀ a ∈ l, R a (f a)) : List.Forall₂ R l (l.map f) :=
  List.forall₂_map_right_iff.2 (List.forall₂_same.2 h)

/-- A pass that is a function on the members and their positions. -/
theorem of_mapIdx {f : Nat → α → β} (h : ∀ i, ∀ a ∈ l, R a (f i a)) :
    List.Forall₂ R l (l.mapIdx f) := by
  induction l generalizing f with
  | nil => exact .nil
  | cons a l ih =>
      rw [List.mapIdx_cons]
      exact .cons (h 0 a (List.mem_cons_self ..))
        (ih fun i b hb => h (i + 1) b (List.mem_cons_of_mem _ hb))

/-- What holds of a member before the pass exactly when it holds of what is made of it. -/
theorem forall_iff {P : α → Prop} {Q : β → Prop} (h : List.Forall₂ R l l')
    (hPQ : ∀ a b, R a b → (P a ↔ Q b)) : (∀ a ∈ l, P a) ↔ ∀ b ∈ l', Q b := by
  constructor
  · intro hall b hb
    obtain ⟨a, ha, hr⟩ := exists_of_mem_right h hb
    exact (hPQ a b hr).1 (hall a ha)
  · intro hall a ha
    obtain ⟨b, hb, hr⟩ := exists_of_mem_left h ha
    exact (hPQ a b hr).2 (hall b hb)

/-- What a pass leaves as it is. -/
theorem map_eq {f : α → γ} {g : β → γ} (h : List.Forall₂ R l l')
    (hfg : ∀ a b, R a b → g b = f a) : l'.map g = l.map f := by
  induction h with
  | nil => rfl
  | cons hfirst _ ih => rw [List.map_cons, List.map_cons, hfg _ _ hfirst, ih]

end Pointwise
