import Mathlib.Tactic.IntervalCases
import Zemo.Extraction.VideoHeaders
import Zemo.Lib.Scanning

set_option autoImplicit false

/-! # Matroska files and what is read of them

Elements as the format has them: identifier, size in one to eight bytes, body. Of a level the parser
reads the elements before the first one whose size takes eight bytes. -/

namespace Zemo.Extraction

open Scanning

/-! ## Elements -/

/-- A size in so many bytes; all bits set is the unknown size. -/
def encodeSize (length n : Nat) : Bytes := BigEndian.encode length (2 ^ (7 * length) + n)

/-- An element; the first byte of an identifier tells its length. -/
structure EbmlElement where
  idBytes : Bytes
  sizeLength : Nat
  body : Bytes
  id_fits : idBytes.length = leadingZeros (idBytes.headD 0) + 1 ∧ idBytes.length ≤ 4
  size_fits : 1 ≤ sizeLength ∧ sizeLength ≤ 8 ∧ body.length < 2 ^ (7 * sizeLength) - 1
  deriving DecidableEq

/-- The identifier. -/
def EbmlElement.id (e : EbmlElement) : Nat := BigEndian.value e.idBytes

/-- The bytes of an element. -/
def EbmlElement.encode (e : EbmlElement) : Bytes :=
  e.idBytes ++ (encodeSize e.sizeLength e.body.length ++ e.body)

/-- The bytes of elements. -/
def encodeAll (elements : List EbmlElement) : Bytes := elements.flatMap EbmlElement.encode

/-- The size takes less than eight bytes. -/
def EbmlElement.Short (e : EbmlElement) : Prop := e.sizeLength ≠ 8

instance (e : EbmlElement) : Decidable e.Short := inferInstanceAs (Decidable (_ ≠ _))

theorem leadingZeros_eq {b : UInt8} {zeros : Nat} (hzeros : zeros ≤ 7)
    (hlow : 2 ^ (7 - zeros) ≤ b.toNat) (hhigh : b.toNat < 2 ^ (8 - zeros)) :
    leadingZeros b = zeros := by
  have h1 := Nat.lt_size.2 hlow
  have h2 := Nat.size_le.2 hhigh
  unfold leadingZeros
  omega

/-- The bits of a first byte below its mark. -/
theorem masked_first {b : UInt8} {length : Nat} (hpos : 1 ≤ length) (hshort : length ≤ 7) :
    (b &&& ((0xFF : UInt8) >>> UInt8.ofNat length)).toNat = b.toNat % 2 ^ (8 - length) := by
  have hmask : ((0xFF : UInt8) >>> UInt8.ofNat length).toNat = 2 ^ (8 - length) - 1 := by
    interval_cases length <;> decide
  rw [UInt8.toNat_and, hmask, Nat.and_two_pow_sub_one_eq_mod]

/-- **A size is read back exactly when it takes less than eight bytes**: the mask of a size of eight
bytes keeps the mark itself, so that `2 ^ 56` is added to it. -/
theorem readEbmlSize_encode {length n : Nat} (hpos : 1 ≤ length) (hlength : length ≤ 8)
    (hn : n < 2 ^ (7 * length)) (rest : Bytes) :
    readEbmlSize (encodeSize length n ++ rest) =
      if length = 8 then some (some (2 ^ 56 + n), length)
      else if n = 2 ^ (7 * length) - 1 then some (none, length) else some (some n, length) := by
  obtain ⟨width, rfl⟩ : ∃ width, length = width + 1 := ⟨length - 1, by omega⟩
  have hwidth : width ≤ 7 := by omega
  have hfit : 2 ^ (7 * (width + 1)) + n < 256 ^ (width + 1) := by
    clear hpos hlength
    interval_cases width <;> omega
  obtain ⟨first, hfirst⟩ : ∃ first : UInt8,
      first = UInt8.ofNat ((2 ^ (7 * (width + 1)) + n) / 256 ^ width) := ⟨_, rfl⟩
  have hvalue : first.toNat = (2 ^ (7 * (width + 1)) + n) / 256 ^ width := by
    rw [hfirst, UInt8.toNat_ofNat']
    apply Nat.mod_eq_of_lt
    rw [Nat.div_lt_iff_lt_mul (by positivity)]
    exact hfit.trans_eq (by rw [pow_succ, Nat.mul_comm])
  have hzeros : leadingZeros first = width := by
    apply leadingZeros_eq hwidth
    · rw [hvalue]
      clear hpos hlength hfit hfirst hvalue
      interval_cases width <;> omega
    · rw [hvalue]
      clear hpos hlength hfit hfirst hvalue
      interval_cases width <;> omega
  have hbytes : encodeSize (width + 1) n =
      first :: BigEndian.encode width (2 ^ (7 * (width + 1)) + n) := by
    rw [encodeSize, BigEndian.encode_succ_eq_cons hfit, hfirst]
  have htail : (BigEndian.encode width (2 ^ (7 * (width + 1)) + n) ++ rest).take width =
      BigEndian.encode width (2 ^ (7 * (width + 1)) + n) :=
    List.take_left' (BigEndian.length_encode _ _)
  rw [hbytes, List.cons_append]
  unfold readEbmlSize
  simp only [hzeros, Nat.add_sub_cancel, htail]
  rw [if_pos ⟨hlength, by simp⟩, BigEndian.value_cons, BigEndian.value_encode_mod,
    BigEndian.length_encode]
  by_cases hlast : width = 7
  · subst hlast
    have hmask : (first &&& (0xFF : UInt8) >>> UInt8.ofNat (7 + 1)).toNat = first.toNat := by
      have hones : (0xFF : UInt8) >>> UInt8.ofNat (7 + 1) = 0xFF := by decide
      rw [hones, UInt8.toNat_and]
      exact (Nat.and_two_pow_sub_one_eq_mod _ 8).trans (Nat.mod_eq_of_lt first.toNat_lt)
    have hsum : first.toNat * 256 ^ 7 + (2 ^ (7 * (7 + 1)) + n) % 256 ^ 7 = 2 ^ 56 + n := by
      rw [hvalue]
      omega
    rw [hmask, hsum, if_pos rfl, if_neg (by omega)]
  · have hshort : width + 1 ≠ 8 := by omega
    have hsum : (first &&& (0xFF : UInt8) >>> UInt8.ofNat (width + 1)).toNat * 256 ^ width +
        (2 ^ (7 * (width + 1)) + n) % 256 ^ width = n := by
      rw [masked_first hpos (by omega), hvalue]
      clear hlength hfit hfirst hvalue hzeros hbytes htail
      interval_cases width <;> omega
    rw [hsum, if_neg hshort]

theorem readEbmlId_append {idBytes : Bytes}
    (hfits : idBytes.length = leadingZeros (idBytes.headD 0) + 1 ∧ idBytes.length ≤ 4)
    (rest : Bytes) :
    readEbmlId (idBytes ++ rest) = some (BigEndian.value idBytes, idBytes.length) := by
  obtain ⟨hlength, hmax⟩ := hfits
  cases idBytes with
  | nil => exact absurd hlength (by simp)
  | cons first others =>
    have hzeros : leadingZeros first + 1 = (first :: others).length := hlength.symm
    have htake : (first :: (others ++ rest)).take (leadingZeros first + 1) = first :: others := by
      rw [hzeros]
      exact List.take_left' rfl
    rw [List.cons_append]
    unfold readEbmlId
    simp only [htake]
    rw [if_pos ⟨by omega, by simp only [List.length_cons, List.length_append] at hzeros ⊢; omega⟩,
      hzeros]

/-- The size that is read of an element. -/
def EbmlElement.readSize (e : EbmlElement) : Nat :=
  if e.sizeLength = 8 then 2 ^ 56 + e.body.length else e.body.length

theorem readHeader_encode (e : EbmlElement) (rest : Bytes) :
    readHeader (e.encode ++ rest) =
      some (e.id, e.idBytes.length + e.sizeLength, some e.readSize) := by
  obtain ⟨hpos, hmax, hfit⟩ := e.size_fits
  have hsize := readEbmlSize_encode hpos hmax (by omega : e.body.length < 2 ^ (7 * e.sizeLength))
    (e.body ++ rest)
  unfold readHeader EbmlElement.encode
  rw [List.append_assoc, readEbmlId_append e.id_fits]
  dsimp only
  rw [List.drop_left, List.append_assoc, hsize]
  unfold EbmlElement.readSize
  split_ifs with hlong hunknown
  · rfl
  · omega
  · rfl

theorem EbmlElement.length_encode (e : EbmlElement) :
    e.encode.length = e.idBytes.length + e.sizeLength + e.body.length := by
  unfold EbmlElement.encode encodeSize
  rw [List.length_append, List.length_append, BigEndian.length_encode, Nat.add_assoc]

theorem body_length_le {e : EbmlElement} {elements : List EbmlElement} (h : e ∈ elements) :
    e.body.length ≤ (encodeAll elements).length := by
  induction elements with
  | nil => exact absurd h List.not_mem_nil
  | cons x rest ih =>
    have hlength : (encodeAll (x :: rest)).length = x.encode.length + (encodeAll rest).length :=
      List.length_append
    have hx := x.length_encode
    obtain rfl | hrest := List.mem_cons.1 h
    · omega
    · have := ih hrest
      omega

/-! ## The elements of an inner level -/

/-- The lengths are those of bytes in memory. -/
def Small (bytes : Bytes) : Prop := bytes.length < 2 ^ 56

section Level

variable {σ τ : Type} {visit : σ → Nat → Bytes → σ}

/-- One turn of the loop. -/
theorem eachElement_cons (e : EbmlElement) {rest : Bytes} (hsmall : Small (e.encode ++ rest))
    (s : σ) :
    eachElement visit (e.encode ++ rest) s =
      if e.Short then eachElement visit rest (visit s e.id e.body) else s := by
  have hlength := e.length_encode
  have htotal : (e.encode ++ rest).length = e.encode.length + rest.length := List.length_append
  unfold Small at hsmall
  rw [eachElement, readHeader_encode]
  dsimp only [Option.getD_some]
  unfold EbmlElement.readSize
  by_cases hshort : e.Short
  · have hlong : ¬e.sizeLength = 8 := hshort
    have hbody : ((e.encode ++ rest).drop (e.idBytes.length + e.sizeLength)).take e.body.length =
        e.body := by
      have hencode : e.encode ++ rest =
          (e.idBytes ++ encodeSize e.sizeLength e.body.length) ++ (e.body ++ rest) := by
        simp [EbmlElement.encode]
      rw [hencode, List.drop_left' (by simp [encodeSize]), List.take_left]
    have hrest : (e.encode ++ rest).drop (e.idBytes.length + e.sizeLength + e.body.length) =
        rest := by
      rw [← hlength, List.drop_left]
    rw [if_neg hlong, if_neg (by omega), if_pos hshort, hbody, hrest]
  · have hlong : e.sizeLength = 8 := not_not.1 hshort
    rw [if_pos hlong, if_pos (by omega), if_neg hshort]

/-- **The loop visits the elements before the first whose size takes eight bytes.** -/
theorem eachElement_encodeAll (elements : List EbmlElement) (hsmall : Small (encodeAll elements))
    (s : σ) :
    eachElement visit (encodeAll elements) s =
      (elements.takeWhile (·.Short)).foldl (fun s e => visit s e.id e.body) s := by
  induction elements generalizing s with
  | nil => rw [encodeAll, List.flatMap_nil, eachElement]; rfl
  | cons e rest ih =>
    have hcons : encodeAll (e :: rest) = e.encode ++ encodeAll rest := List.flatMap_cons
    rw [hcons] at hsmall ⊢
    have hrest : Small (encodeAll rest) := by
      unfold Small at hsmall ⊢
      rw [List.length_append] at hsmall
      omega
    rw [eachElement_cons e hsmall]
    by_cases hshort : e.Short
    · rw [if_pos hshort, ih hrest, List.takeWhile_cons_of_pos (by simpa using hshort),
        List.foldl_cons]
    · rw [if_neg hshort, List.takeWhile_cons_of_neg (by simpa using hshort), List.foldl_nil]

/-- What the loop makes of what is looked at is up to the one element, if it is read. -/
theorem eachElement_split {others : EbmlElement → Prop} {before after : List EbmlElement}
    {e : EbmlElement} (hothers : ∀ x ∈ before ++ after, others x) {look : σ → τ} {apply : τ → τ}
    (hskip : ∀ x, others x → ∀ s, look (visit s x.id x.body) = look s)
    (happly : ∀ s, look (visit s e.id e.body) = apply (look s))
    (hsmall : Small (encodeAll (before ++ e :: after))) (s : σ) :
    look (eachElement visit (encodeAll (before ++ e :: after)) s) =
      if ∀ x ∈ before ++ [e], x.Short then apply (look s) else look s := by
  rw [eachElement_encodeAll _ hsmall, foldl_split (List.takeWhile_prefix _) hothers hskip happly]
  simp only [takeWhile_reaches]

/-- What no element touches stays. -/
theorem eachElement_keeps {look : σ → τ} (hskip : ∀ s id body, look (visit s id body) = look s)
    (bytes : Bytes) (s : σ) : look (eachElement visit bytes s) = look s := by
  induction bytes, s using eachElement.induct visit with
  | case1 bytes s hnone => rw [eachElement, hnone]
  | case2 bytes s id header size hheader payload hpast =>
    rw [eachElement, hheader]
    dsimp only
    rw [if_pos hpast]
  | case3 bytes s id header size hheader payload hfits ih =>
    rw [eachElement, hheader]
    dsimp only
    rw [if_neg hfits, ih, hskip]

end Level

/-! ## One element of its kind -/

/-- The element is read: it and all before it have sizes of less than eight bytes. -/
def IsRead (elements : List EbmlElement) (e : EbmlElement) : Prop :=
  e ∈ elements.takeWhile (·.Short)

instance (elements : List EbmlElement) (e : EbmlElement) : Decidable (IsRead elements e) :=
  inferInstanceAs (Decidable (_ ∈ _))

section Single

variable {σ τ : Type} {visit : σ → Nat → Bytes → σ} {id : Nat} {elements : List EbmlElement}
  {e : EbmlElement}

/-- What the loop makes of what is looked at is up to the element with the identifier. -/
theorem eachElement_alone (halone : Alone EbmlElement.id id elements e)
    {look : σ → τ} {apply : τ → τ}
    (hskip : ∀ x, x ≠ id → ∀ body s, look (visit s x body) = look s)
    (happly : ∀ s, look (visit s id e.body) = apply (look s))
    (hsmall : Small (encodeAll elements)) (s : σ) :
    (IsRead elements e →
        look (eachElement visit (encodeAll elements) s) = apply (look s)) ∧
      (¬IsRead elements e → look (eachElement visit (encodeAll elements) s) = look s) := by
  rw [eachElement_encodeAll _ hsmall]
  have hkind := halone
  obtain ⟨-, -, -, rfl, -⟩ := hkind
  exact foldl_alone halone (List.takeWhile_prefix _) (fun x hx s => hskip x.id hx x.body s) happly s

end Single

end Zemo.Extraction
