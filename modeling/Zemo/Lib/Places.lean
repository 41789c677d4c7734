import Zemo.Lib.Run
import Zemo.Lib.Texts

set_option autoImplicit false

/-! # Places in a text

A place in a text is counted in bytes, and a part of the text is what stands between two places
where characters begin. A text is the lines it is cut into, each with the character that ends it. -/

namespace Texts

/-! ## Parts -/

/-- `text[start..stop]`, when characters begin there. -/
def slice (text : Text) (start stop : Nat) : Option Text := do
  let upTo ← sliceTo text stop
  let front ← sliceTo upTo start
  some (upTo.drop front.length)

section Parts

variable {text front part back front' part' : Text} {start stop : Nat}

theorem slice_eq_some :
    slice text start stop = some part ↔
      ∃ front back, text = front ++ part ++ back ∧ byteLength front = start
        ∧ byteLength front + byteLength part = stop := by
  unfold slice
  constructor
  · intro h
    obtain ⟨upTo, hupTo, hupper⟩ := Option.bind_eq_some_iff.1 h
    obtain ⟨front, hfront, hdrop⟩ := Option.bind_eq_some_iff.1 hupper
    obtain ⟨⟨back, rfl⟩, hstop⟩ := sliceTo_eq_some.1 hupTo
    obtain ⟨⟨rest, rfl⟩, hstart⟩ := sliceTo_eq_some.1 hfront
    have hpart : rest = part := List.drop_left.symm.trans (Option.some.inj hdrop)
    rw [byteLength_append, hpart] at hstop
    exact ⟨front, back, by rw [hpart], hstart, hstop⟩
  · rintro ⟨front, back, rfl, hstart, hstop⟩
    rw [← byteLength_append] at hstop
    refine Option.bind_eq_some_iff.2 ⟨_, sliceTo_eq_some.2 ⟨List.prefix_append _ _, hstop⟩, ?_⟩
    refine Option.bind_eq_some_iff.2 ⟨_, sliceTo_eq_some.2 ⟨List.prefix_append _ _, hstart⟩, ?_⟩
    rw [List.drop_left]

/-- A part of a part is a part of the text. -/
theorem slice_slice (h : slice text start stop = some part) {start' stop' : Nat}
    (h' : slice part start' stop' = some part') :
    slice text (start + start') (start + stop') = some part' := by
  obtain ⟨front, back, rfl, rfl, rfl⟩ := slice_eq_some.1 h
  obtain ⟨front', back', rfl, rfl, rfl⟩ := slice_eq_some.1 h'
  refine slice_eq_some.2 ⟨front ++ front', back' ++ back, by simp, byteLength_append .., ?_⟩
  rw [byteLength_append, Nat.add_assoc]

/-- Of two starts of a text, the longer one takes more bytes. -/
theorem byteLength_le_iff {a b : Text} (ha : a <+: text) (hb : b <+: text) :
    byteLength a ≤ byteLength b ↔ a.length ≤ b.length := by
  constructor
  · intro hbytes
    by_contra hlength
    obtain ⟨c, rfl⟩ := List.prefix_of_prefix_length_le hb ha (by omega)
    obtain ⟨d, rest, rfl⟩ : ∃ d rest, c = d :: rest := by
      refine List.exists_cons_of_ne_nil ?_
      rintro rfl
      simp at hlength
    have hpos := d.utf8Size_pos
    rw [byteLength_append, byteLength_cons] at hbytes
    omega
  · intro hlength
    obtain ⟨c, rfl⟩ := List.prefix_of_prefix_length_le ha hb hlength
    rw [byteLength_append]
    exact Nat.le_add_right ..

/-- The first place is not behind another one. -/
theorem find_le (h : text = front ++ part ++ back) :
    ∃ i, find part text = some i ∧ i ≤ front.length := by
  induction front generalizing text with
  | nil =>
    refine ⟨0, ?_, Nat.le_refl _⟩
    have hprefixed : part <+: text := ⟨back, by rw [h]; rfl⟩
    cases text with
    | nil => exact if_pos (List.prefix_nil.1 hprefixed)
    | cons c text => exact if_pos hprefixed
  | cons c front ih =>
    obtain ⟨i, hi, hle⟩ := ih rfl
    rw [h, List.cons_append, List.cons_append, find]
    split
    · exact ⟨0, rfl, Nat.zero_le _⟩
    · exact ⟨i + 1, by rw [hi]; rfl, Nat.succ_le_succ hle⟩

end Parts

/-! ## Lines -/

/-- `split_inclusive`. -/
def splitInclusive (ends : Char → Bool) : Text → List Text
  | [] => []
  | c :: rest =>
      if ends c then [c] :: splitInclusive ends rest
      else
        match splitInclusive ends rest with
        | [] => [[c]]
        | line :: lines => (c :: line) :: lines

theorem flatten_splitInclusive (ends : Char → Bool) (text : Text) :
    (splitInclusive ends text).flatten = text := by
  induction text with
  | nil => rfl
  | cons c rest ih =>
    unfold splitInclusive
    split
    · rw [List.flatten_cons, ih]
      rfl
    · cases hlines : splitInclusive ends rest with
      | nil =>
        rw [hlines] at ih
        rw [← ih]
        rfl
      | cons line lines =>
        rw [hlines] at ih
        rw [← ih]
        rfl

end Texts

namespace History

/-- The first entry has nothing before it. -/
theorem each_cons_iff {α : Type} {P : List α → α → Prop} {entry : α} {history : List α} :
    Each P (entry :: history) ↔
      P [] entry ∧ Each (fun before => P (entry :: before)) history := by
  constructor
  · intro h
    exact ⟨h [] entry history rfl,
      fun before e rest heq => h (entry :: before) e rest (by rw [heq]; rfl)⟩
  · rintro ⟨hfirst, hrest⟩ before e rest heq
    cases before with
    | nil =>
      obtain ⟨rfl, -⟩ := List.cons.inj heq
      exact hfirst
    | cons b before =>
      obtain ⟨rfl, htail⟩ := List.cons.inj heq
      exact hrest before e rest htail

theorem each_congr {α : Type} {P Q : List α → α → Prop} {history : List α}
    (h : ∀ before entry, P before entry ↔ Q before entry) : Each P history ↔ Each Q history :=
  ⟨fun hall => hall.imp fun before entry => (h before entry).1,
    fun hall => hall.imp fun before entry => (h before entry).2⟩

end History
