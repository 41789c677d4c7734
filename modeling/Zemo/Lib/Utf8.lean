import Mathlib.Data.List.Basic

set_option autoImplicit false

/-! # UTF-8

Bytes read as characters from the left, as far as they are valid. The reader works byte by byte: it
stands between two characters, or inside one with some bytes still owed and the bounds of the next
of them. -/

namespace Utf8

/-- Why the reading stopped: at the end of the bytes, at their end but inside a character, or at a
byte that no valid text goes on with. -/
inductive Ending where
  | complete | cut | broken
  deriving DecidableEq, Repr

/-- The reader inside a character: the bytes owed, the bounds of the next one, and the bits read. -/
structure Inside where
  owed : Nat
  low : Nat
  high : Nat
  bits : Nat

/-- What a first byte starts. -/
inductive Lead where
  | char (c : Char)
  | inside (p : Inside)
  | refused

/-- The first byte of a character. -/
def lead (b : Nat) : Lead :=
  if b < 0x80 then .char (Char.ofNat b)
  else if 0xC2 ≤ b ∧ b ≤ 0xDF then .inside ⟨1, 0x80, 0xBF, b - 0xC0⟩
  else if b = 0xE0 then .inside ⟨2, 0xA0, 0xBF, 0⟩
  else if b = 0xED then .inside ⟨2, 0x80, 0x9F, 0xD⟩
  else if 0xE1 ≤ b ∧ b ≤ 0xEF then .inside ⟨2, 0x80, 0xBF, b - 0xE0⟩
  else if b = 0xF0 then .inside ⟨3, 0x90, 0xBF, 0⟩
  else if b = 0xF4 then .inside ⟨3, 0x80, 0x8F, 4⟩
  else if 0xF1 ≤ b ∧ b ≤ 0xF3 then .inside ⟨3, 0x80, 0xBF, b - 0xF0⟩
  else .refused

/-- The bits read after a byte inside a character. -/
def Inside.push (p : Inside) (b : Nat) : Nat := p.bits * 64 + (b - 0x80)

/-- The characters from where the reader stands, and why it stopped. -/
def decodeFrom : Option Inside → List UInt8 → List Char × Ending
  | none, [] => ([], .complete)
  | some _, [] => ([], .cut)
  | none, b :: rest =>
      match lead b.toNat with
      | .char c =>
          let later := decodeFrom none rest
          (c :: later.1, later.2)
      | .inside p => decodeFrom (some p) rest
      | .refused => ([], .broken)
  | some p, b :: rest =>
      if p.low ≤ b.toNat ∧ b.toNat ≤ p.high then
        if p.owed = 1 then
          let later := decodeFrom none rest
          (Char.ofNat (p.push b.toNat) :: later.1, later.2)
        else decodeFrom (some ⟨p.owed - 1, 0x80, 0xBF, p.push b.toNat⟩) rest
      else ([], .broken)

/-- The characters of the longest valid start, and how the bytes go on. -/
def decode (bytes : List UInt8) : List Char × Ending := decodeFrom none bytes

/-- The characters of bytes that are valid throughout. -/
def decode? (bytes : List UInt8) : Option (List Char) :=
  match decode bytes with
  | (text, .complete) => some text
  | _ => none

/-! ## No NUL without a zero byte -/

example : decode [0x68, 0xC3, 0xA9, 0xE2, 0x82] = (['h', 'é'], .cut) := by decide

/-! ## Encoding -/

/-- The bytes of a text. -/
def encode (text : List Char) : List UInt8 := text.flatMap String.utf8EncodeChar

@[simp] theorem encode_nil : encode [] = [] := rfl

@[simp] theorem encode_cons (c : Char) (text : List Char) :
    encode (c :: text) = String.utf8EncodeChar c ++ encode text := rfl

@[simp] theorem encode_append (a b : List Char) : encode (a ++ b) = encode a ++ encode b :=
  List.flatMap_append

/-- From where the reader stands the bytes spell a character: read to their end they give it, and
cut before that the reader is left inside it. -/
def Spells (place : Option Inside) (bytes : List UInt8) (c : Char) : Prop :=
  (∀ rest, decodeFrom place (bytes ++ rest) = (c :: (decodeFrom none rest).1, (decodeFrom none rest).2))
    ∧ ∀ m < bytes.length, place.isSome ∨ 0 < m → decodeFrom place (bytes.take m) = ([], .cut)

section Spelling

variable {p : Inside} {b : UInt8} {bytes : List UInt8} {c : Char}

theorem spells_char (h : lead b.toNat = .char c) : Spells none [b] c := by
  refine ⟨fun rest => ?_, fun m hm hpos => ?_⟩
  · simp only [List.singleton_append, decodeFrom, h]
  · rcases hpos with hpos | hpos
    · cases hpos
    · rw [List.length_singleton] at hm
      omega

theorem spells_lead (h : lead b.toNat = .inside p) (hbytes : Spells (some p) bytes c) :
    Spells none (b :: bytes) c := by
  refine ⟨fun rest => ?_, fun m hm hpos => ?_⟩
  · rw [List.cons_append]
    simp only [decodeFrom, h]
    exact hbytes.1 rest
  · cases m with
    | zero => exact absurd hpos (by simp)
    | succ m =>
      rw [List.take_succ_cons]
      simp only [decodeFrom, h]
      exact hbytes.2 m (Nat.lt_of_succ_lt_succ hm) (.inl rfl)

theorem spells_next (hlow : p.low ≤ b.toNat) (hhigh : b.toNat ≤ p.high) (howed : p.owed ≠ 1)
    (hbytes : Spells (some ⟨p.owed - 1, 0x80, 0xBF, p.push b.toNat⟩) bytes c) :
    Spells (some p) (b :: bytes) c := by
  refine ⟨fun rest => ?_, fun m hm hpos => ?_⟩
  · rw [List.cons_append]
    simp only [decodeFrom]
    rw [if_pos ⟨hlow, hhigh⟩, if_neg howed]
    exact hbytes.1 rest
  · cases m with
    | zero => rfl
    | succ m =>
      rw [List.take_succ_cons]
      simp only [decodeFrom]
      rw [if_pos ⟨hlow, hhigh⟩, if_neg howed]
      exact hbytes.2 m (Nat.lt_of_succ_lt_succ hm) (.inl rfl)

theorem spells_last (hlow : p.low ≤ b.toNat) (hhigh : b.toNat ≤ p.high) (howed : p.owed = 1)
    (hc : Char.ofNat (p.push b.toNat) = c) : Spells (some p) [b] c := by
  refine ⟨fun rest => ?_, fun m hm _ => ?_⟩
  · rw [List.singleton_append]
    simp only [decodeFrom]
    rw [if_pos ⟨hlow, hhigh⟩, if_pos howed, hc]
  · obtain rfl : m = 0 := by simpa using hm
    rfl

/-- The first of two bytes leaves the reader where the second one fits. -/
theorem lead_two {v : Nat} (hlow : 0x7f < v) (hhigh : v ≤ 0x7ff) :
    ∃ p : Inside, lead (v / 64 % 0x20 + 0xc0) = .inside p ∧ p.owed = 1 ∧ p.bits = v / 64
      ∧ p.low ≤ v % 0x40 + 0x80 ∧ v % 0x40 + 0x80 ≤ p.high := by
  rw [lead, if_neg (by omega), if_pos (by omega)]
  refine ⟨_, rfl, rfl, ?_, ?_, ?_⟩ <;> dsimp only <;> omega

/-- The first of three bytes: the bounds of the second one keep out what two bytes can spell, and
the surrogates. -/
theorem lead_three {v : Nat} (hlow : 0x7ff < v) (hhigh : v ≤ 0xffff)
    (hvalid : v < 55296 ∨ 57343 < v) :
    ∃ p : Inside, lead (v / 4096 % 0x10 + 0xe0) = .inside p ∧ p.owed = 2 ∧ p.bits = v / 4096
      ∧ p.low ≤ v / 64 % 0x40 + 0x80 ∧ v / 64 % 0x40 + 0x80 ≤ p.high := by
  rw [lead, if_neg (by omega), if_neg (by omega)]
  by_cases hE0 : v / 4096 % 0x10 + 0xe0 = 0xE0
  · rw [if_pos hE0]
    refine ⟨_, rfl, rfl, ?_, ?_, ?_⟩ <;> dsimp only <;> omega
  · rw [if_neg hE0]
    by_cases hED : v / 4096 % 0x10 + 0xe0 = 0xED
    · rw [if_pos hED]
      refine ⟨_, rfl, rfl, ?_, ?_, ?_⟩ <;> dsimp only <;> omega
    · rw [if_neg hED, if_pos (by omega)]
      refine ⟨_, rfl, rfl, ?_, ?_, ?_⟩ <;> dsimp only <;> omega

/-- The first of four bytes: the bounds of the second one keep out what three bytes can spell, and
what is no character any more. -/
theorem lead_four {v : Nat} (hlow : 0xffff < v) (hhigh : v < 1114112) :
    ∃ p : Inside, lead (v / 262144 % 0x08 + 0xf0) = .inside p ∧ p.owed = 3 ∧ p.bits = v / 262144
      ∧ p.low ≤ v / 4096 % 0x40 + 0x80 ∧ v / 4096 % 0x40 + 0x80 ≤ p.high := by
  rw [lead, if_neg (by omega), if_neg (by omega), if_neg (by omega), if_neg (by omega),
    if_neg (by omega)]
  by_cases hF0 : v / 262144 % 0x08 + 0xf0 = 0xF0
  · rw [if_pos hF0]
    refine ⟨_, rfl, rfl, ?_, ?_, ?_⟩ <;> dsimp only <;> omega
  · rw [if_neg hF0]
    by_cases hF4 : v / 262144 % 0x08 + 0xf0 = 0xF4
    · rw [if_pos hF4]
      refine ⟨_, rfl, rfl, ?_, ?_, ?_⟩ <;> dsimp only <;> omega
    · rw [if_neg hF4, if_pos (by omega)]
      refine ⟨_, rfl, rfl, ?_, ?_, ?_⟩ <;> dsimp only <;> omega

/-- The bytes of a character spell it. -/
theorem spells_encodeChar (c : Char) : Spells none (String.utf8EncodeChar c) c := by
  have hvalid : c.val.toNat < 55296 ∨ 57343 < c.val.toNat ∧ c.val.toNat < 1114112 := c.valid
  have hofNat : ∀ n, n = c.val.toNat → Char.ofNat n = c := by
    rintro n rfl
    exact Char.ofNat_toNat c
  have hbyte : ∀ n < 256, (UInt8.ofNat n).toNat = n := fun n hn => UInt8.toNat_ofNat_of_lt' hn
  unfold String.utf8EncodeChar
  generalize c.val.toNat = v at hvalid hofNat ⊢
  have htail : ∀ n, (UInt8.ofNat (n % 0x40 + 0x80)).toNat = n % 0x40 + 0x80 :=
    fun n => hbyte _ (by omega)
  dsimp only
  split_ifs with h1 h2 h3
  · refine spells_char ?_
    rw [hbyte v (by omega), lead, if_pos (by omega), hofNat v rfl]
  · obtain ⟨p, hlead, howed, hbits, hlow, hhigh⟩ := lead_two (Nat.lt_of_not_le h1) h2
    rw [← hbyte (v / 64 % 0x20 + 0xc0) (by omega)] at hlead
    rw [← htail] at hlow hhigh
    refine spells_lead hlead (spells_last hlow hhigh howed (hofNat _ ?_))
    have hlast := htail v
    unfold Inside.push
    omega
  · obtain ⟨p, hlead, howed, hbits, hlow, hhigh⟩ := lead_three (Nat.lt_of_not_le h2) h3 (by omega)
    rw [← hbyte (v / 4096 % 0x10 + 0xe0) (by omega)] at hlead
    rw [← htail] at hlow hhigh
    refine spells_lead hlead (spells_next hlow hhigh (by omega)
      (spells_last ?_ ?_ ?_ (hofNat _ ?_)))
    all_goals
      have hlast := htail v
      have hsecond := htail (v / 64)
      dsimp only [Inside.push]
      omega
  · obtain ⟨p, hlead, howed, hbits, hlow, hhigh⟩ := lead_four (Nat.lt_of_not_le h3) (by omega)
    rw [← hbyte (v / 262144 % 0x08 + 0xf0) (by omega)] at hlead
    rw [← htail] at hlow hhigh
    refine spells_lead hlead (spells_next hlow hhigh (by omega)
      (spells_next ?_ ?_ ?_ (spells_last ?_ ?_ ?_ (hofNat _ ?_))))
    all_goals
      have hlast := htail v
      have hthird := htail (v / 64)
      have hsecond := htail (v / 4096)
      dsimp only [Inside.push]
      omega

end Spelling

/-! ## Reading what was encoded -/

variable {text : List Char} {head : List UInt8}

/-- A text is read back, and a start of its bytes as well, up to a character that is cut. -/
theorem decode_start (hhead : head <+: encode text) :
    (∃ start, start <+: text ∧ head = encode start ∧ decode head = (start, .complete))
      ∨ (decode head).2 = .cut := by
  induction text generalizing head with
  | nil =>
    rw [encode_nil, List.prefix_nil] at hhead
    exact .inl ⟨[], List.nil_prefix, hhead, by rw [hhead]; rfl⟩
  | cons c text ih =>
    obtain ⟨hwhole, hcut⟩ := spells_encodeChar c
    by_cases hshort : head.length < (String.utf8EncodeChar c).length
    · -- the bytes end inside the first character, or before it
      have htake : head = (String.utf8EncodeChar c).take head.length := by
        rw [← List.prefix_iff_eq_take]
        exact List.prefix_of_prefix_length_le hhead (List.prefix_append _ _)
          (Nat.le_of_lt hshort)
      by_cases hempty : head = []
      · exact .inl ⟨[], List.nil_prefix, hempty, by rw [hempty]; rfl⟩
      · refine .inr ?_
        rw [htake, decode, hcut _ hshort (.inr (List.length_pos_iff.2 hempty))]
    · obtain ⟨rest, rfl⟩ : String.utf8EncodeChar c <+: head :=
        List.prefix_of_prefix_length_le (List.prefix_append _ _) hhead (Nat.le_of_not_lt hshort)
      rw [encode_cons, List.prefix_append_right_inj] at hhead
      rw [decode, hwhole]
      rcases ih hhead with ⟨start, hstart, hrest, hdecode⟩ | hrest
      · refine .inl ⟨c :: start, List.cons_prefix_cons.2 ⟨rfl, hstart⟩, ?_, ?_⟩
        · rw [encode_cons, hrest]
        · rw [decode] at hdecode
          rw [hdecode]
      · exact .inr hrest

theorem decode_encode (text : List Char) : decode (encode text) = (text, .complete) := by
  induction text with
  | nil => rfl
  | cons c text ih =>
    rw [decode] at ih
    rw [encode_cons, decode, (spells_encodeChar c).1, ih]

@[simp] theorem decode?_encode (text : List Char) : decode? (encode text) = some text := by
  rw [decode?, decode_encode]

theorem encode_injective {other : List Char} (h : encode text = encode other) : text = other := by
  have hdecode := congrArg decode? h
  rw [decode?_encode, decode?_encode] at hdecode
  exact Option.some.inj hdecode

/-- A start of a text's bytes is read when it ends with a character. -/
theorem decode?_eq_some {start : List Char} (hhead : head <+: encode text) :
    decode? head = some start ↔ head = encode start := by
  constructor
  · intro h
    rcases decode_start hhead with ⟨start', -, hstart, hdecode⟩ | hcut
    · rw [decode?, hdecode] at h
      obtain rfl := Option.some.inj h
      exact hstart
    · rw [decode?] at h
      split at h
      · next hcomplete =>
        rw [hcomplete] at hcut
        cases hcut
      · cases h
  · rintro rfl
    exact decode?_encode start

/-- No text's bytes begin with bytes that are broken. -/
theorem not_prefix_of_broken (hhead : (decode head).2 = .broken) : ¬head <+: encode text := by
  intro hprefixed
  rcases decode_start hprefixed with ⟨start, -, -, hdecode⟩ | hcut
  · rw [hdecode] at hhead
    cases hhead
  · rw [hcut] at hhead
    cases hhead

/-- The bytes of one text begin with those of another when the texts do so. -/
theorem encode_prefix_iff {start : List Char} : encode start <+: encode text ↔ start <+: text := by
  constructor
  · intro h
    rcases decode_start h with ⟨start', hstart, heq, -⟩ | hcut
    · rwa [encode_injective heq]
    · rw [decode_encode] at hcut
      cases hcut
  · rintro ⟨rest, rfl⟩
    rw [encode_append]
    exact List.prefix_append _ _

theorem zero_notMem_encodeChar {c : Char} (hc : c ≠ '\x00') : 0 ∉ String.utf8EncodeChar c := by
  have hpos : c.val.toNat ≠ 0 := by
    intro h
    refine hc (Char.ext (UInt32.toNat_inj.1 ?_))
    exact h
  unfold String.utf8EncodeChar
  generalize c.val.toNat = v at hpos
  have hbyte : ∀ n < 256, n ≠ 0 → (0 : UInt8) ≠ UInt8.ofNat n := by
    intro n hn hne h
    have hnat := congrArg UInt8.toNat h
    rw [UInt8.toNat_ofNat_of_lt' hn] at hnat
    exact hne hnat.symm
  dsimp only
  split_ifs with h1 h2 h3
  all_goals simp only [List.mem_cons, List.not_mem_nil, or_false, not_or]
  · exact hbyte v (by omega) hpos
  · exact ⟨hbyte _ (by omega) (by omega), hbyte _ (by omega) (by omega)⟩
  · exact ⟨hbyte _ (by omega) (by omega), hbyte _ (by omega) (by omega),
      hbyte _ (by omega) (by omega)⟩
  · exact ⟨hbyte _ (by omega) (by omega), hbyte _ (by omega) (by omega),
      hbyte _ (by omega) (by omega), hbyte _ (by omega) (by omega)⟩

/-- A text without NUL has no zero byte. -/
theorem zero_notMem_encode (hnul : '\x00' ∉ text) : 0 ∉ encode text := by
  intro hzero
  obtain ⟨c, hc, hmem⟩ := List.mem_flatMap.1 hzero
  exact zero_notMem_encodeChar (fun h => hnul (h ▸ hc)) hmem

end Utf8
