import Mathlib.Data.List.Infix
import Mathlib.Logic.Relation

set_option autoImplicit false

/-! # Histories

A history is a list to which entries are added at its end. `Each P history` says that every entry
satisfied `P` together with the entries before it, which is what a loop that checks an entry against
what it remembers of the earlier ones establishes. -/

namespace History

variable {α : Type} {P Q : List α → α → Prop} {history : List α} {entry : α}

/-- Every entry satisfies `P` with the entries before it. -/
def Each (P : List α → α → Prop) (history : List α) : Prop :=
  ∀ before entry rest, history = before ++ entry :: rest → P before entry

@[simp] theorem each_nil : Each P [] := by
  intro before entry rest h
  cases before <;> cases h

/-- An entry that satisfies `P` with the whole history extends it. -/
theorem Each.concat (h : Each P history) (hentry : P history entry) :
    Each P (history ++ [entry]) := by
  intro before e rest heq
  rcases List.eq_nil_or_concat' rest with rfl | ⟨init, last, rfl⟩
  · obtain ⟨rfl, hlast⟩ := List.append_inj' heq rfl
    obtain rfl := List.singleton_inj.1 hlast
    exact hentry
  · rw [show before ++ e :: (init ++ [last]) = (before ++ e :: init) ++ [last] by simp] at heq
    exact h before e init (List.append_inj' heq rfl).1

/-- The last entry, and the history before it. -/
theorem each_concat_iff : Each P (history ++ [entry]) ↔ Each P history ∧ P history entry := by
  refine ⟨fun h => ⟨fun before e rest heq => ?_, h history entry [] rfl⟩,
    fun h => h.1.concat h.2⟩
  exact h before e (rest ++ [entry]) (by rw [heq]; simp)

theorem Each.imp (h : Each P history) (hPQ : ∀ before entry, P before entry → Q before entry) :
    Each Q history :=
  fun before entry rest heq => hPQ before entry (h before entry rest heq)

/-- An entry of the history has a position in it. -/
theorem Each.of_mem (h : Each P history) (hmem : entry ∈ history) :
    ∃ before rest, history = before ++ entry :: rest ∧ P before entry := by
  obtain ⟨before, rest, heq⟩ := List.append_of_mem hmem
  exact ⟨before, rest, heq, h before entry rest heq⟩

/-- A relation each entry has to all earlier ones holds pairwise. -/
theorem Each.pairwise {R : α → α → Prop} (h : Each (fun before e => ∀ b ∈ before, R b e) history) :
    history.Pairwise R := by
  induction history using List.reverseRecOn with
  | nil => exact .nil
  | append_singleton init last ih =>
    refine List.pairwise_append.2 ⟨ih ?_, List.pairwise_singleton _ _, ?_⟩
    · intro before e rest heq
      exact h before e (rest ++ [last]) (by rw [heq]; simp)
    · intro b hb e he
      obtain rfl := List.mem_singleton.1 he
      exact h init e [] rfl b hb

end History

/-! ## Runs

The states a system goes through when it executes a list of calls one after the other, and the rule
for properties that every call preserves. A property that looks at the calls as well is a property
of the state paired with what is remembered of them (`Run.afterWith`). -/

namespace Run

variable {σ κ μ : Type} {step : κ → σ → σ} {I : σ → Prop} {s : σ}

/-- The state after the calls. -/
def after (step : κ → σ → σ) (s : σ) (calls : List κ) : σ := calls.foldl (fun s c => step c s) s

@[simp] theorem after_nil : after step s [] = s := rfl

@[simp] theorem after_cons (c : κ) (calls : List κ) :
    after step s (c :: calls) = after step (step c s) calls := rfl

@[simp] theorem after_append (before rest : List κ) :
    after step s (before ++ rest) = after step (after step s before) rest :=
  List.foldl_append

/-- What every call preserves holds after every list of calls. -/
theorem invariant (h : ∀ c s, I s → I (step c s)) (calls : List κ) (hs : I s) :
    I (after step s calls) := by
  induction calls generalizing s with
  | nil => exact hs
  | cons c calls ih => exact ih (h c s hs)

/-- What every call preserves exactly under a condition holds all along a run exactly when all its
calls meet the condition. -/
theorem invariant_iff {P : κ → σ → Prop} (h : ∀ c s, I s → (I (step c s) ↔ P c s))
    (calls : List κ) (hs : I s) :
    History.Each (fun before c => I (after step s (before ++ [c]))) calls ↔
      History.Each (fun before c => P c (after step s before)) calls := by
  constructor
  · intro hall before c rest heq
    have hbefore : I (after step s before) := by
      rcases List.eq_nil_or_concat' before with rfl | ⟨init, last, rfl⟩
      · exact hs
      · exact hall init last (c :: rest) (by rw [heq, List.append_assoc, List.singleton_append])
    rw [← h _ _ hbefore]
    simpa using hall before c rest heq
  · intro hall
    induction calls using List.reverseRecOn with
    | nil => exact History.each_nil
    | append_singleton calls last ih =>
      have hcalls := ih fun before c rest heq => hall before c (rest ++ [last]) (by rw [heq]; simp)
      have hlast : I (after step s calls) := by
        rcases List.eq_nil_or_concat' calls with rfl | ⟨init, c, rfl⟩
        · exact hs
        · exact hcalls init c [] rfl
      refine hcalls.concat ?_
      simpa using (h _ _ hlast).2 (hall calls last [] rfl)

/-- The same with a property `J` of the states, which calls that meet the condition preserve and
which says nothing of the others. -/
theorem invariant_iff_with {J : σ → Prop} {P : κ → σ → Prop}
    (hkeep : ∀ c s, I s → J s → P c s → I (step c s) ∧ J (step c s))
    (hbreak : ∀ c s, I s → J s → I (step c s) → P c s) (calls : List κ) (hI : I s) (hJ : J s) :
    History.Each (fun before c => I (after step s (before ++ [c]))) calls ↔
      History.Each (fun before c => P c (after step s before)) calls := by
  -- as long as all calls meet the condition, both properties hold at the end
  have hall : ∀ calls, History.Each (fun before c => P c (after step s before)) calls →
      I (after step s calls) ∧ J (after step s calls) := by
    intro calls
    induction calls using List.reverseRecOn with
    | nil => exact fun _ => ⟨hI, hJ⟩
    | append_singleton calls last ih =>
      intro h
      obtain ⟨hbefore, hlast⟩ := History.each_concat_iff.1 h
      obtain ⟨hi, hj⟩ := ih hbefore
      rw [after_append]
      exact hkeep last _ hi hj hlast
  induction calls using List.reverseRecOn with
  | nil => exact ⟨fun _ => History.each_nil, fun _ => History.each_nil⟩
  | append_singleton calls last ih =>
    rw [History.each_concat_iff, History.each_concat_iff]
    refine (and_congr_left' ih).trans (and_congr_right fun hbefore => ?_)
    obtain ⟨hi, hj⟩ := hall calls hbefore
    rw [after_append]
    exact ⟨hbreak last _ hi hj, fun h => (hkeep last _ hi hj h).1⟩

/-- The state after the calls with a memory that each call updates, knowing the state it met. -/
def afterWith (step : κ → σ → σ) (note : κ → σ → μ → μ) (s : σ) (m : μ) (calls : List κ) : σ × μ :=
  calls.foldl (fun p c => (step c p.1, note c p.1 p.2)) (s, m)

variable {note : κ → σ → μ → μ} {m : μ} {J : σ → μ → Prop}

@[simp] theorem afterWith_fst (calls : List κ) :
    (afterWith step note s m calls).1 = after step s calls := by
  induction calls generalizing s m with
  | nil => rfl
  | cons c calls ih => exact ih

/-- What every call preserves of state and memory holds after every list of calls. -/
theorem invariantWith (h : ∀ c s m, J s m → J (step c s) (note c s m)) (calls : List κ)
    (hs : J s m) :
    J (afterWith step note s m calls).1 (afterWith step note s m calls).2 := by
  induction calls generalizing s m with
  | nil => exact hs
  | cons c calls ih => exact ih (h c s m hs)

/-! ## States reached by steps that meet a condition -/

/-- `s` is reached from `s₀` by steps that all meet `P` where they are taken. -/
inductive Reach (step : σ → κ → σ) (P : σ → κ → Prop) (s₀ : σ) : σ → Prop where
  | start : Reach step P s₀ s₀
  | step {s : σ} {c : κ} : Reach step P s₀ s → P s c → Reach step P s₀ (step s c)

variable {move : σ → κ → σ} {P Q : σ → κ → Prop} {s₀ : σ}

/-- What holds at the start and is preserved by every step that meets the condition. -/
theorem Reach.invariant (h : Reach move P s₀ s) (hstart : I s₀)
    (hstep : ∀ s c, I s → P s c → I (move s c)) : I s := by
  induction h with
  | start => exact hstart
  | step _ hp ih => exact hstep _ _ ih hp

theorem Reach.mono (h : Reach move P s₀ s) (hPQ : ∀ s c, P s c → Q s c) : Reach move Q s₀ s := by
  induction h with
  | start => exact .start
  | step _ hp ih => exact .step ih (hPQ _ _ hp)

end Run

/-! ## Transition systems that come to an end

A step relation with a measure that every step lowers: no run goes on for ever, and from every state
some run leads to a state that has no step. -/
