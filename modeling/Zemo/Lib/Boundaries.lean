import Zemo.Lib.Utf8

set_option autoImplicit false

/-! # Positions in the bytes of a text

A text that is cut at byte positions can only be cut between two characters: where it begins, where
it ends, and before every byte that does not continue a character. -/

namespace Utf8

/-! ## Positions and slices -/

/-- A position between two characters of a text, told from its bytes. -/
def isBoundary (bytes : List UInt8) (index : Nat) : Bool :=
  index = 0 || index = bytes.length ||
    match bytes[index]? with
    | some b => b.toNat < 0x80 || 0xC0 ≤ b.toNat
    | none => false

/-- The bytes from one position to another; nothing when one of them is inside a character. -/
def slice (bytes : List UInt8) (start stop : Nat) : Option (List UInt8) :=
  if start ≤ stop ∧ isBoundary bytes start = true ∧ isBoundary bytes stop = true then
    some ((bytes.take stop).drop start)
  else none

variable {c : Char} {before head after : List UInt8} {text : List Char}

/-! ## The bytes of a character -/

theorem encodeChar_ascii (h : c.toNat < 128) :
    String.utf8EncodeChar c = [UInt8.ofNat c.toNat] := by
  have hsmall : c.val.toNat ≤ 127 := Nat.le_of_lt_succ h
  unfold String.utf8EncodeChar
  dsimp only
  rw [if_pos hsmall]
  rfl

/-- A character that is not ASCII has a first byte and bytes that continue it. -/
theorem encodeChar_wide (h : 128 ≤ c.toNat) : ∃ first tail,
    String.utf8EncodeChar c = first :: tail ∧
    0xC0 ≤ first.toNat ∧ tail ≠ [] ∧ ∀ b ∈ tail, 0x80 ≤ b.toNat ∧ b.toNat < 0xC0 := by
  have hwide : ¬c.val.toNat ≤ 127 := Nat.not_le_of_gt h
  have htail (n : Nat) : 0x80 ≤ (UInt8.ofNat (n % 0x40 + 0x80)).toNat ∧
      (UInt8.ofNat (n % 0x40 + 0x80)).toNat < 0xC0 := by
    rw [UInt8.toNat_ofNat_of_lt' (show n % 0x40 + 0x80 < 256 by omega)]
    omega
  have hfirst (n bound low : Nat) (hbound : 0 < bound) (hlow : 0xC0 ≤ low)
      (hsum : bound + low ≤ 256) : 0xC0 ≤ (UInt8.ofNat (n % bound + low)).toNat := by
    have hlt := Nat.mod_lt n hbound
    rw [UInt8.toNat_ofNat_of_lt' (show n % bound + low < 256 by omega)]
    omega
  unfold String.utf8EncodeChar
  dsimp only
  rw [if_neg hwide]
  split_ifs with htwo hthree
  · exact ⟨_, _, rfl, hfirst _ 0x20 0xc0 (by omega) (by omega) (by omega), by simp,
      by simpa using htail _⟩
  · exact ⟨_, _, rfl, hfirst _ 0x10 0xe0 (by omega) (by omega) (by omega), by simp,
      by simpa using ⟨htail _, htail _⟩⟩
  · exact ⟨_, _, rfl, hfirst _ 0x08 0xf0 (by omega) (by omega) (by omega), by simp,
      by simpa using ⟨htail _, htail _, htail _⟩⟩

/-! ## Which positions are between characters -/

/-- A text that begins at a position begins between two characters. -/
theorem isBoundary_start : isBoundary (before ++ encode text) before.length = true := by
  cases text with
  | nil => simp [isBoundary]
  | cons c text =>
    have hget (b : UInt8) (rest : List UInt8) (hb : b.toNat < 0x80 ∨ 0xC0 ≤ b.toNat) :
        isBoundary (before ++ b :: rest) before.length = true := by
      rw [isBoundary, List.getElem?_append_right (Nat.le_refl _), Nat.sub_self]
      simpa using .inr hb
    by_cases hascii : c.toNat < 128
    · rw [encode_cons, encodeChar_ascii hascii]
      refine hget _ _ (.inl ?_)
      rw [UInt8.toNat_ofNat_of_lt' (show c.toNat < 256 by omega)]
      exact hascii
    · obtain ⟨first, tail, hencode, hfirst, -, -⟩ := encodeChar_wide (Nat.le_of_not_lt hascii)
      rw [encode_cons, hencode]
      exact hget _ _ (.inr hfirst)

/-- A byte that continues a character is not at such a position. -/
theorem isBoundary_inside {b : UInt8} (hbefore : before ≠ [])
    (hb : 0x80 ≤ b.toNat ∧ b.toNat < 0xC0) :
    isBoundary (before ++ b :: after) before.length = false := by
  have hlength : before.length ≠ 0 := fun h => hbefore (List.length_eq_zero_iff.1 h)
  rw [isBoundary, List.getElem?_append_right (Nat.le_refl _), Nat.sub_self]
  simp [hlength]
  omega

/-- The slice of the bytes before a text that follows. -/
theorem slice_eq_some (hbefore : isBoundary (before ++ head ++ encode text) before.length = true) :
    slice (before ++ head ++ encode text) before.length (before.length + head.length) =
      some head := by
  have hstop : isBoundary (before ++ head ++ encode text) (before.length + head.length) = true := by
    rw [← List.length_append]
    exact isBoundary_start
  rw [slice, if_pos ⟨Nat.le_add_right _ _, hbefore, hstop⟩, ← List.length_append, List.take_left,
    List.drop_left]

/-- No slice ends before a byte that continues a character. -/
theorem slice_eq_none {b : UInt8} {start : Nat} (hhead : head ≠ [])
    (hb : 0x80 ≤ b.toNat ∧ b.toNat < 0xC0) :
    slice (head ++ b :: after) start head.length = none := by
  rw [slice, if_neg]
  rintro ⟨-, -, hstop⟩
  rw [isBoundary_inside hhead hb] at hstop
  exact Bool.noConfusion hstop

end Utf8
