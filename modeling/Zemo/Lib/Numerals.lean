import Mathlib.Data.List.Infix
import Mathlib.Tactic.Linarith
import Mathlib.Tactic.Ring

set_option autoImplicit false

/-! # Decimal numerals

A text of decimal digits stands for a number. Digits added at the end multiply it by a power of ten;
a numeral that is cut into whole and decimal digits has one value in hundredths, whatever the number
of decimal digits, when the digits behind the second one are dropped. -/

namespace Numerals

/-- The number that digits stand for. -/
def value (digits : List Char) : Nat := Nat.ofDigitChars 10 digits 0

@[simp] theorem value_nil : value [] = 0 := Nat.ofDigitChars_nil

/-- Digits that follow are worth less. -/
theorem value_append (front back : List Char) :
    value (front ++ back) = value front * 10 ^ back.length + value back := by
  unfold value
  rw [Nat.ofDigitChars_append, Nat.ofDigitChars_eq_ofDigitChars_zero, Nat.mul_comm]

/-- The code points of the digits. -/
theorem digit_bounds {c : Char} (hdigit : c.isDigit = true) : '0'.toNat ≤ c.toNat ∧ c.toNat ≤ 57 := by
  simpa [Char.isDigit, UInt32.le_iff_toNat_le] using hdigit

theorem value_singleton (c : Char) : value [c] = c.toNat - '0'.toNat := by
  simp [value, Nat.ofDigitChars_cons]

/-- A numeral is less than the power of ten of its length. -/
theorem value_lt {digits : List Char} (hdigits : ∀ c ∈ digits, c.isDigit = true) :
    value digits < 10 ^ digits.length := by
  induction digits using List.reverseRecOn with
  | nil => simp
  | append_singleton front c ih =>
    have hfront := ih fun x hx => hdigits x (List.mem_append_left _ hx)
    have hlast := digit_bounds (hdigits c (by simp))
    have hzero : '0'.toNat = 48 := rfl
    rw [value_append, value_singleton, List.length_append, List.length_singleton, pow_succ]
    omega

/-- Only zeros stand for zero. -/
theorem value_eq_zero_iff {digits : List Char} (hdigits : ∀ c ∈ digits, c.isDigit = true) :
    value digits = 0 ↔ ∀ c ∈ digits, c = '0' := by
  induction digits using List.reverseRecOn with
  | nil => simp
  | append_singleton front c ih =>
    have hbounds := digit_bounds (hdigits c (by simp))
    have hlast : value [c] = 0 ↔ c = '0' := by
      rw [value_singleton]
      refine ⟨fun h => Char.toNat_inj.1 (by omega), ?_⟩
      rintro rfl
      rfl
    rw [value_append, Nat.add_eq_zero_iff, Nat.mul_eq_zero, hlast,
      ih fun x hx => hdigits x (List.mem_append_left _ hx)]
    simp [or_imp, forall_and]

/-- **Hundredths.** Two decimal digits complete a numeral, and the digits behind the second decimal
digit do not count. -/
theorem value_hundredths (whole : List Char) {decimals : List Char}
    (hdigits : ∀ c ∈ decimals, c.isDigit = true) :
    value whole * 100 + value (decimals.take 2) * 10 ^ (2 - decimals.length) =
      value (whole ++ decimals) * 100 / 10 ^ decimals.length := by
  have hpow : 0 < 10 ^ decimals.length := Nat.pow_pos (by decide)
  rw [value_append]
  match decimals, hdigits with
  | [], _ => simp
  | [first], _ =>
    simp
    omega
  | first :: second :: rest, hdigits =>
    have hrest : value rest < 10 ^ rest.length := value_lt fun c hc =>
      hdigits c (List.mem_cons_of_mem _ (List.mem_cons_of_mem _ hc))
    have hsplit := value_append [first, second] rest
    simp only [List.cons_append, List.nil_append] at hsplit
    have hlength : (first :: second :: rest).length = rest.length + 2 := rfl
    rw [hsplit, hlength, pow_add]
    symm
    -- what follows the second decimal digit is less than one hundredth
    apply Nat.div_eq_of_lt_le
    · simp only [List.take_succ_cons, List.take_zero]
      rw [show 2 - (rest.length + 2) = 0 by omega]
      nlinarith
    · simp only [List.take_succ_cons, List.take_zero]
      rw [show 2 - (rest.length + 2) = 0 by omega]
      nlinarith

/-- A number other than zero gives the same hundredths by as many decimal digits only. -/
theorem hundredths_eq_iff {n f g : Nat} (hf : f ≤ 2) :
    n * 10 ^ (2 - f) = n * 100 / 10 ^ g ↔ n = 0 ∨ f = g := by
  rcases Nat.eq_zero_or_pos n with rfl | hpos
  · simp
  have hn : n ≠ 0 := by omega
  simp only [hn, false_or]
  rcases Nat.lt_or_ge g 3 with hg | hg
  · have hfs : f = 0 ∨ f = 1 ∨ f = 2 := by omega
    have hgs : g = 0 ∨ g = 1 ∨ g = 2 := by omega
    rcases hfs with rfl | rfl | rfl <;> rcases hgs with rfl | rfl | rfl <;> norm_num <;> omega
  · -- a third decimal digit makes the hundredths smaller than the number of the digits
    have hsmall : n * 100 / 10 ^ g ≤ n * 100 / 10 ^ 3 :=
      Nat.div_le_div_left (Nat.pow_le_pow_right (by decide) hg) (by decide)
    have hlarge : n ≤ n * 10 ^ (2 - f) := Nat.le_mul_of_pos_right n (Nat.pow_pos (by decide))
    norm_num at hsmall
    constructor <;> intro h <;> omega

end Numerals

/-! ## Numbers as bytes, the highest byte first -/

namespace BigEndian

/-- The number that bytes write. -/
def value (bytes : List UInt8) : Nat := bytes.foldl (fun n b => n * 256 + b.toNat) 0

/-- A number in so many bytes. -/
def encode : Nat → Nat → List UInt8
  | 0, _ => []
  | width + 1, n => encode width (n / 256) ++ [UInt8.ofNat n]

@[simp] theorem value_nil : value [] = 0 := rfl

@[simp] theorem value_singleton (b : UInt8) : value [b] = b.toNat := by simp [value]

@[simp] theorem length_encode (width n : Nat) : (encode width n).length = width := by
  induction width generalizing n with
  | zero => rfl
  | succ width ih => rw [encode, List.length_append, ih, List.length_singleton]

theorem foldl_eq (bytes : List UInt8) (start : Nat) :
    bytes.foldl (fun n b => n * 256 + b.toNat) start =
      start * 256 ^ bytes.length + value bytes := by
  induction bytes generalizing start with
  | nil => simp
  | cons b rest ih =>
    unfold value
    rw [List.foldl_cons, List.foldl_cons, ih, ih (0 * 256 + b.toNat), List.length_cons]
    ring

/-- The bytes of a number and those of a lower one, together. -/
theorem value_append (high low : List UInt8) :
    value (high ++ low) = value high * 256 ^ low.length + value low := by
  unfold value
  rw [List.foldl_append, foldl_eq]
  rfl

theorem value_cons (b : UInt8) (bytes : List UInt8) :
    value (b :: bytes) = b.toNat * 256 ^ bytes.length + value bytes := by
  rw [← List.singleton_append, value_append, value_singleton]

theorem value_lt (bytes : List UInt8) : value bytes < 256 ^ bytes.length := by
  induction bytes with
  | nil => simp
  | cons b rest ih =>
    have hb : b.toNat + 1 ≤ 256 := b.toNat_lt
    have hmul : (b.toNat + 1) * 256 ^ rest.length ≤ 256 * 256 ^ rest.length :=
      Nat.mul_le_mul_right _ hb
    rw [value_cons, List.length_cons, pow_succ]
    rw [Nat.add_mul] at hmul
    omega

/-- Of a number that needs more bytes the low digits are read back. -/
theorem value_encode_mod (width n : Nat) : value (encode width n) = n % 256 ^ width := by
  induction width generalizing n with
  | zero => simp [encode, Nat.mod_one]
  | succ width ih =>
    have hmod : n % 256 ^ (width + 1) = n % 256 + 256 * (n / 256 % 256 ^ width) := by
      rw [pow_succ, Nat.mul_comm, Nat.mod_mul]
    rw [encode, value_append, ih, value_singleton, List.length_singleton, UInt8.toNat_ofNat',
      hmod, pow_one]
    omega

/-- A number is read back from as many bytes as it needs. -/
theorem value_encode {width n : Nat} (h : n < 256 ^ width) : value (encode width n) = n := by
  rw [value_encode_mod, Nat.mod_eq_of_lt h]

/-- The first byte of a number of more than one byte is its highest digit. -/
theorem encode_succ_eq_cons {width n : Nat} (h : n < 256 ^ (width + 1)) :
    encode (width + 1) n = UInt8.ofNat (n / 256 ^ width) :: encode width n := by
  induction width generalizing n with
  | zero => simp [encode]
  | succ width ih =>
    have hhigh : n / 256 < 256 ^ (width + 1) := by
      rw [Nat.div_lt_iff_lt_mul (by omega), ← pow_succ]
      exact h
    have hdigit : n / 256 / 256 ^ width = n / 256 ^ (width + 1) := by
      rw [Nat.div_div_eq_div_mul, pow_succ, Nat.mul_comm]
    rw [encode, ih hhigh, hdigit, List.cons_append]
    rfl

/-- Bytes are those of their number. -/
theorem encode_value (bytes : List UInt8) : encode bytes.length (value bytes) = bytes := by
  induction bytes using List.reverseRecOn with
  | nil => rfl
  | append_singleton bytes b ih =>
    have hb : b.toNat < 256 := b.toNat_lt
    have hvalue : value (bytes ++ [b]) = value bytes * 256 + b.toNat := by
      rw [value_append, value_singleton, List.length_singleton, pow_one]
    have hhigh : value (bytes ++ [b]) / 256 = value bytes := by
      rw [hvalue]
      omega
    have hlow : UInt8.ofNat (value (bytes ++ [b])) = b := by
      apply UInt8.toNat_inj.1
      rw [UInt8.toNat_ofNat', hvalue]
      change _ % 256 = _
      omega
    rw [List.length_append, List.length_singleton, encode, hhigh, hlow, ih]

/-- A number below 256 whose first byte is not zero has one byte. -/
theorem length_eq_one {b : UInt8} {rest : List UInt8} (hb : b ≠ 0)
    (h : value (b :: rest) < 256) : rest = [] := by
  cases rest with
  | nil => rfl
  | cons c rest =>
    have hpos : 0 < b.toNat := Nat.pos_of_ne_zero fun h0 => hb (UInt8.toNat_inj.1 h0)
    have hpow : 256 ≤ 256 ^ (c :: rest).length := by
      rw [List.length_cons, pow_succ]
      have := Nat.one_le_two_pow.trans (Nat.pow_le_pow_left (by omega : 2 ≤ 256) rest.length)
      omega
    rw [value_cons] at h
    have : 256 ^ (c :: rest).length ≤ b.toNat * 256 ^ (c :: rest).length :=
      Nat.le_mul_of_pos_left _ hpos
    omega

end BigEndian
