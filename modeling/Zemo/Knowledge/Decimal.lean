import Zemo.Lib.Numerals
import Zemo.Search.Interpretation

set_option autoImplicit false

/-! # Amounts in documents

`parse_decimal_minor` reads a number with spaces, commas and dots as an amount in minor units. It
takes the last dot for the decimal separator, or the last comma when there is no dot, and only when
two characters follow it. -/

namespace Zemo.Knowledge

open Texts
open Search.Interpretation (parseDigits i64Max)

/-! ## The parser -/

def i128Max : Int := 2 ^ 127 - 1

/-- `checked_mul` of `i128`, for numbers that are not negative. -/
def checkedMul (a b : Int) : Option Int := if a * b ≤ i128Max then some (a * b) else none

/-- The value without the spaces and apostrophes. -/
def compactAmount (value : Text) : Text :=
  value.filter fun c => c ≠ ' ' && c ≠ '\u00a0' && c ≠ '\u202f' && c ≠ '\x27'

/-- The place of the decimal separator; the commas come before the dots. -/
def decimalIndex (compact : Text) : Option Nat :=
  (places (· = ',') compact ++ places (· = '.') compact).getLast?.filter fun index =>
    compact.length - (index + 1) = 2

/-- The digits behind the decimal separator, counted in an `u8`. -/
def fractionDigits (compact : Text) : Nat :=
  min 255 (compact.zipIdx.filter fun entry =>
    entry.1.isDigit && (decimalIndex compact).any (· < entry.2)).length

/-- The characters of a number. -/
def isAmountCharacter (c : Char) : Bool := c.isDigit || c = ',' || c = '.'

/-- The number of the digits in minor units, by the digits counted behind the separator. -/
def scaledAmount (majorMinor : Int) : Nat → Option Int
  | 0 => checkedMul majorMinor 100
  | 1 => checkedMul majorMinor 10
  | 2 => some majorMinor
  | _ => none

/-- `parse_decimal_minor`. -/
def parseDecimalMinor (value : Text) : Option Int :=
  let compact := compactAmount value
  if compact = [] ∨ compact.head? = some '-' then none
  else if compact.all isAmountCharacter = false then none
  else
    let digits := compact.filter Char.isDigit
    if digits = [] ∨ 2 < fractionDigits compact then none
    else do
      let majorMinor ← parseDigits i128Max digits
      let scaled ← scaledAmount majorMinor (fractionDigits compact)
      if scaled ≤ i64Max then some scaled else none

/-! ## What it reads -/

variable {value compact : Text}

theorem decimalIndex_eq_some {i : Nat} (h : decimalIndex compact = some i) :
    compact.length = i + 3 := by
  obtain ⟨hlast, hlength⟩ := Option.filter_eq_some_iff.1 h
  have hlength : compact.length - (i + 1) = 2 := of_decide_eq_true hlength
  omega

/-- The digits that are counted are those behind the separator. -/
theorem fractionDigits_of_some {i : Nat} (h : decimalIndex compact = some i) :
    fractionDigits compact = ((compact.drop (i + 1)).filter Char.isDigit).length := by
  have hlength := decimalIndex_eq_some h
  have hbehind := congrArg List.length (filter_behind Char.isDigit compact i 0)
  have hle := List.length_filter_le Char.isDigit (compact.drop (i + 1))
  rw [List.length_map, Nat.sub_zero] at hbehind
  rw [List.length_drop] at hle
  simp only [fractionDigits, h, Option.any_some]
  rw [hbehind]
  omega

theorem fractionDigits_of_none (h : decimalIndex compact = none) : fractionDigits compact = 0 := by
  simp [fractionDigits, h]

theorem fractionDigits_le (compact : Text) : fractionDigits compact ≤ 2 := by
  cases h : decimalIndex compact with
  | none =>
    rw [fractionDigits_of_none h]
    exact Nat.zero_le _
  | some i =>
    have hlength := decimalIndex_eq_some h
    have hle := List.length_filter_le Char.isDigit (compact.drop (i + 1))
    rw [List.length_drop] at hle
    rw [fractionDigits_of_some h]
    omega

theorem parseDigits_eq_some {bound n : Int} {digits : Text}
    (hdigits : ∀ c ∈ digits, c.isDigit = true) :
    parseDigits bound digits = some n ↔
      digits ≠ [] ∧ n = Numerals.value digits ∧ (Numerals.value digits : Int) ≤ bound := by
  have hall : digits.all Char.isDigit = true := List.all_eq_true.2 hdigits
  unfold parseDigits
  by_cases hnil : digits = []
  · simp [hnil]
  · rw [if_pos ⟨hnil, hall⟩]
    simp only [Numerals.value]
    split
    · next hle =>
      simp only [Option.some_inj, ne_eq, hnil, not_false_eq_true, hle, true_and, and_true]
      exact eq_comm
    · next hlt =>
      simp [hlt]

/-- An amount that fits in an `i64` has fitted in an `i128` on the way. -/
theorem scaledAmount_eq_some {n fraction : Nat} {amount : Int} (hfraction : fraction ≤ 2)
    (hle : amount ≤ i64Max) :
    scaledAmount n fraction = some amount ↔ amount = (n * 10 ^ (2 - fraction) : Nat) := by
  have hbound : i64Max ≤ i128Max := by decide
  have hcases : fraction = 0 ∨ fraction = 1 ∨ fraction = 2 := by omega
  rcases hcases with rfl | rfl | rfl <;>
    simp only [scaledAmount, checkedMul, Option.ite_none_right_eq_some, Option.some_inj] <;>
    omega

/-- **What a text is read as.** The amount is the number of all its digits, in the unit of the last
one that is counted behind the separator. -/
theorem parseDecimalMinor_eq_some {amount : Int} :
    parseDecimalMinor value = some amount ↔
      (∀ c ∈ compactAmount value, isAmountCharacter c = true)
        ∧ (compactAmount value).filter Char.isDigit ≠ []
        ∧ amount = (Numerals.value ((compactAmount value).filter Char.isDigit)
            * 10 ^ (2 - fractionDigits (compactAmount value)) : Nat)
        ∧ amount ≤ i64Max := by
  have hfraction := fractionDigits_le (compactAmount value)
  unfold parseDecimalMinor
  dsimp only
  generalize compactAmount value = compact at hfraction ⊢
  by_cases hall : ∀ c ∈ compact, isAmountCharacter c = true
  swap
  · have hall' : compact.all isAmountCharacter = false := by
      rw [← Bool.not_eq_true, List.all_eq_true]
      exact hall
    rw [if_pos hall', ite_self]
    exact ⟨fun h => (nomatch h), fun h => absurd h.1 hall⟩
  by_cases hdigits : compact.filter Char.isDigit = []
  · rw [if_pos (Or.inl hdigits), ite_self, ite_self]
    exact ⟨fun h => (nomatch h), fun h => absurd hdigits h.2.1⟩
  have hstart : ¬(compact = [] ∨ compact.head? = some '-') := by
    rintro (rfl | hhead)
    · exact hdigits rfl
    · exact absurd (hall _ (List.mem_of_mem_head? hhead)) (by decide)
  have hallTrue : compact.all isAmountCharacter = true := List.all_eq_true.2 hall
  rw [if_neg hstart, if_neg (by simp [hallTrue]),
    if_neg (by rintro (h | h); exacts [hdigits h, by omega])]
  have hdigit : ∀ c ∈ compact.filter Char.isDigit, c.isDigit = true := fun c hc =>
    (List.mem_filter.1 hc).2
  generalize hn : Numerals.value (compact.filter Char.isDigit) = n
  constructor
  · intro h
    obtain ⟨major, hmajor, h⟩ := Option.bind_eq_some_iff.1 h
    obtain ⟨scaled, hscaled, h⟩ := Option.bind_eq_some_iff.1 h
    obtain ⟨hle, h⟩ := Option.ite_none_right_eq_some.1 h
    obtain rfl := Option.some.inj h
    obtain ⟨-, hmajor, -⟩ := (parseDigits_eq_some hdigit).1 hmajor
    rw [hmajor, hn] at hscaled
    exact ⟨hall, hdigits, (scaledAmount_eq_some hfraction hle).1 hscaled, hle⟩
  · rintro ⟨-, -, hamount, hle⟩
    have hmajor : (n : Int) ≤ i128Max := by
      have hmul : n ≤ n * 10 ^ (2 - fractionDigits compact) :=
        Nat.le_mul_of_pos_right n (Nat.pow_pos (by decide))
      have hbound : i64Max ≤ i128Max := by decide
      omega
    have hscaled := (scaledAmount_eq_some hfraction hle).2 hamount
    rw [← hn] at hmajor hscaled
    refine Option.bind_eq_some_iff.2
      ⟨_, (parseDigits_eq_some hdigit).2 ⟨hdigits, rfl, hmajor⟩, ?_⟩
    exact Option.bind_eq_some_iff.2 ⟨_, hscaled, if_pos hle⟩

end Zemo.Knowledge
