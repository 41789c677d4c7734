import Mathlib.Data.List.Nodup
import Mathlib.Data.Set.Basic
import Zemo.Lib.Run

set_option autoImplicit false

/-! # Maps as lists

A map as the list of its entries, in the order in which they were put there. Where the keys are
different (`Keyed`), looking up, removing and adding are those of a map. -/

namespace KeyedList

variable {κ α : Type} [DecidableEq κ] {key : κ} {a : α} {entries : List (κ × α)} {entry : κ × α}

/-- What the map holds for a key. -/
def lookup (key : κ) (entries : List (κ × α)) : Option α :=
  (entries.find? fun entry => entry.1 = key).map Prod.snd

/-- The map without a key. -/
def remove (key : κ) (entries : List (κ × α)) : List (κ × α) :=
  entries.filter fun entry => entry.1 ≠ key

/-- The map with a value for a key, in place of the one it had. -/
def insert (key : κ) (a : α) (entries : List (κ × α)) : List (κ × α) :=
  remove key entries ++ [(key, a)]

/-- The keys are different. -/
def Keyed (entries : List (κ × α)) : Prop := (entries.map Prod.fst).Nodup

omit [DecidableEq κ] in
theorem Keyed.nil : Keyed ([] : List (κ × α)) := List.nodup_nil

theorem mem_of_lookup (h : lookup key entries = some a) : (key, a) ∈ entries := by
  obtain ⟨entry, hfind, rfl⟩ := Option.map_eq_some_iff.1 h
  have hkey := List.find?_some hfind
  rw [decide_eq_true_eq] at hkey
  exact hkey ▸ List.mem_of_find?_eq_some hfind

theorem ne_of_lookup_none (h : lookup key entries = none) (hmem : entry ∈ entries) :
    entry.1 ≠ key := by
  rw [lookup, Option.map_eq_none_iff, List.find?_eq_none] at h
  exact fun hkey => h entry hmem (decide_eq_true hkey)

/-- The entry of a key is the only one. -/
theorem Keyed.eq_of_lookup (hkeyed : Keyed entries) (h : lookup key entries = some a)
    (hmem : entry ∈ entries) (hkey : entry.1 = key) : entry = (key, a) :=
  List.inj_on_of_nodup_map hkeyed hmem (mem_of_lookup h) hkey

theorem mem_remove : entry ∈ remove key entries ↔ entry ∈ entries ∧ entry.1 ≠ key := by
  rw [remove, List.mem_filter, decide_eq_true_eq]

omit [DecidableEq κ] in
theorem Keyed.filter (hkeyed : Keyed entries) (p : κ × α → Bool) : Keyed (entries.filter p) :=
  (List.filter_sublist.map _).nodup hkeyed

theorem Keyed.remove (hkeyed : Keyed entries) : Keyed (remove key entries) := hkeyed.filter _

omit [DecidableEq κ] in
/-- An entry is added under a key that is not there. -/
theorem Keyed.append (hkeyed : Keyed entries) (hne : ∀ entry ∈ entries, entry.1 ≠ key) :
    Keyed (entries ++ [(key, a)]) := by
  rw [Keyed, List.map_append, List.nodup_append]
  refine ⟨hkeyed, List.nodup_singleton _, fun first hfirst second hsecond heq => ?_⟩
  obtain ⟨entry, hentry, rfl⟩ := List.mem_map.1 hfirst
  exact hne entry hentry (heq.trans (List.mem_singleton.1 hsecond))

theorem Keyed.insert (hkeyed : Keyed entries) : Keyed (insert key a entries) :=
  hkeyed.remove.append fun _ hentry => (mem_remove.1 hentry).2

/-- The entries of a map are what it holds for its keys. -/
theorem Keyed.mem_iff_lookup (hkeyed : Keyed entries) :
    (key, a) ∈ entries ↔ lookup key entries = some a := by
  refine ⟨fun hmem => ?_, mem_of_lookup⟩
  cases h : lookup key entries with
  | none => exact absurd rfl (ne_of_lookup_none h hmem)
  | some b => exact congrArg some (Prod.mk.inj (hkeyed.eq_of_lookup h hmem rfl)).2.symm

@[simp] theorem lookup_remove_self : lookup key (remove key entries) = none := by
  rw [lookup, Option.map_eq_none_iff, List.find?_eq_none]
  intro entry hentry hkey
  exact (mem_remove.1 hentry).2 (of_decide_eq_true hkey)

theorem lookup_remove_of_ne {other : κ} (h : other ≠ key) :
    lookup other (remove key entries) = lookup other entries := by
  unfold lookup remove
  rw [List.find?_filter]
  congr 2
  funext entry
  by_cases hentry : entry.1 = other
  · simp [hentry, h]
  · simp [hentry]

@[simp] theorem lookup_insert_self : lookup key (insert key a entries) = some a := by
  have hnone : (remove key entries).find? (fun entry => entry.1 = key) = none :=
    Option.map_eq_none_iff.1 lookup_remove_self
  rw [lookup, insert, List.find?_append, hnone, Option.none_or, List.find?_singleton]
  simp

theorem lookup_insert_of_ne {other : κ} (h : other ≠ key) :
    lookup other (insert key a entries) = lookup other entries := by
  have hremove : lookup other (remove key entries) = lookup other entries := lookup_remove_of_ne h
  rw [← hremove, lookup, insert, List.find?_append, List.find?_singleton]
  simp [lookup, Ne.symm h]

end KeyedList

/-! ## Tables with two keys

A table in which every entry has two keys of its own, and entries that are put there one after the
other. An entry takes the place of the one with its first key, else of the one with its second key,
if that one may be changed from `here`; it is not admitted when the entry with its second key stays
beside it. What is `Free` to be put there is said of the table before all of them. -/
