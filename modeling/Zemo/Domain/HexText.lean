import Zemo.Lib.Boundaries
import Zemo.Persistence.Database

set_option autoImplicit false

/-! # Bytes as hexadecimal text

Digests and secrets are stored as texts of two digits a byte. The decoders check the number of bytes
of a text, cut it into pairs at byte positions, and give each pair to the parser of integers, which
takes a plus sign as well. -/

namespace Zemo.HexText

/-! ## The parser of integers -/

inductive IntErrorKind where
  | empty | invalidDigit | posOverflow
  deriving DecidableEq, Repr

def IntErrorKind.message : IntErrorKind → String
  | .empty => "cannot parse integer from empty string"
  | .invalidDigit => "invalid digit found in string"
  | .posOverflow => "number too large to fit in target type"

/-- `to_digit(16)`. -/
def toDigit (c : Char) : Option Nat :=
  if 48 ≤ c.toNat ∧ c.toNat ≤ 57 then some (c.toNat - 48)
  else if 97 ≤ c.toNat ∧ c.toNat ≤ 102 then some (c.toNat - 87)
  else if 65 ≤ c.toNat ∧ c.toNat ≤ 70 then some (c.toNat - 55)
  else none

def readDigits (value : Nat) : List UInt8 → Except IntErrorKind UInt8
  | [] => .ok (UInt8.ofNat value)
  | b :: rest =>
    match toDigit (Char.ofNat b.toNat) with
    | none => .error .invalidDigit
    | some digit =>
      if 255 < value * 16 + digit then .error .posOverflow else readDigits (value * 16 + digit) rest

/-- `u8::from_str_radix(src, 16)`. -/
def fromStrRadix : List UInt8 → Except IntErrorKind UInt8
  | [] => .error .empty
  | [b] => if b = 43 ∨ b = 45 then .error .invalidDigit else readDigits 0 [b]
  | b :: next :: rest =>
    if b = 43 then readDigits 0 (next :: rest) else readDigits 0 (b :: next :: rest)

/-! ## The decoders -/

/-- A decoder returns bytes or an error, or panics at a slice that cuts a character. -/
inductive Outcome (ε α : Type) where
  | panic
  | error (e : ε)
  | ok (value : α)
  deriving DecidableEq, Repr

namespace Outcome

variable {ε α β : Type}

def map (f : α → β) : Outcome ε α → Outcome ε β
  | .panic => .panic
  | .error e => .error e
  | .ok value => .ok (f value)

@[simp] theorem map_eq_panic {f : α → β} {o : Outcome ε α} : o.map f = .panic ↔ o = .panic := by
  cases o <;> simp [map]

@[simp] theorem map_eq_ok {f : α → β} {o : Outcome ε α} {b : β} :
    o.map f = .ok b ↔ ∃ a, o = .ok a ∧ f a = b := by
  cases o <;> simp [map]

end Outcome

variable {ε : Type}

/-- The bytes of the pairs from one on, in order, up to the first that cannot be read. -/
def readPairs (onError : IntErrorKind → ε) (bytes : List UInt8) (index : Nat) :
    Nat → Outcome ε (List UInt8)
  | 0 => .ok []
  | count + 1 =>
    match Utf8.slice bytes (index * 2) (index * 2 + 2) with
    | none => .panic
    | some pair =>
      match fromStrRadix pair with
      | .error kind => .error (onError kind)
      | .ok byte => (readPairs onError bytes (index + 1) count).map (byte :: ·)

/-- A decoder for texts whose number of bytes fits. -/
def decodeFitting (fits : Nat → Bool) (wrongLength : ε) (onError : IntErrorKind → ε)
    (value : String) : Outcome ε (List UInt8) :=
  let bytes := Utf8.encode value.toList
  if fits bytes.length then readPairs onError bytes 0 (bytes.length / 2) else .error wrongLength

def isDigestLength (length : Nat) : Bool := length == 64

def isPairsLength (length : Nat) : Bool := length % 2 == 0

/-- Of a file's content, in the application. -/
def decodeHexDigest (value : String) : Outcome Unit (List UInt8) :=
  decodeFitting isDigestLength () (fun _ => ()) value

/-- Of the journal, in the store. -/
def decodeDigest (value : String) : Outcome PersistenceError (List UInt8) :=
  decodeFitting isDigestLength .invalidExecution (fun _ => .invalidExecution) value

/-- `PlatformError::SecretStore`. -/
structure SecretStoreError where
  message : String
  deriving DecidableEq, Repr

/-- Of stored secrets. -/
def decodeHex (value : String) : Outcome SecretStoreError (List UInt8) :=
  decodeFitting isPairsLength ⟨"stored secret has an invalid encoding"⟩
    (fun kind => ⟨kind.message⟩) value

/-! ## The encoders -/

def hexTable : List Char := "0123456789abcdef".toList

def encodeHexBytes (value : List UInt8) : String :=
  String.ofList (value.flatMap fun (byte : UInt8) =>
    [hexTable.getD (byte >>> 4).toNat '0', hexTable.getD (byte &&& 0x0f).toNat '0'])

/-- `format!("{byte:02x}")`. -/
def paddedHex (byte : UInt8) : List Char :=
  let digits := Nat.toDigits 16 byte.toNat
  List.replicate (2 - digits.length) '0' ++ digits

def encodeDigest (value : List UInt8) : String := String.ofList (value.flatMap paddedHex)

def encodeHex (bytes : List UInt8) : String := String.ofList (bytes.flatMap paddedHex)

/-! ## What the decoders read, by characters -/

def IsHexDigit (c : Char) : Prop :=
  48 ≤ c.toNat ∧ c.toNat ≤ 57 ∨ 97 ≤ c.toNat ∧ c.toNat ≤ 102 ∨ 65 ≤ c.toNat ∧ c.toNat ≤ 70

/-- Two characters that the parser of integers takes for a byte. -/
def IsPair (c d : Char) : Prop := (c = '+' ∨ IsHexDigit c) ∧ IsHexDigit d

/-- All of a text is pairs. -/
def Paired : List Char → Prop
  | [] => True
  | [_] => False
  | c :: d :: rest => IsPair c d ∧ Paired rest

/-- After some pairs, a character lies across the end of the two bytes that follow them: it is the
    next one and longer than two bytes, or the one after a byte of ASCII. -/
def Splits : List Char → Prop
  | [] => False
  | [c] => 2 < c.utf8Size
  | c :: d :: rest =>
    2 < c.utf8Size ∨ (c.toNat < 128 ∧ 128 ≤ d.toNat) ∨ (IsPair c d ∧ Splits rest)

/-- The byte of two characters. -/
def pairValue (c d : Char) : Option UInt8 :=
  match toDigit d with
  | none => none
  | some low =>
    if c = '+' then some (UInt8.ofNat low)
    else (toDigit c).map fun high => UInt8.ofNat (high * 16 + low)

/-- The reading of the pairs, character by character. -/
def readCharacters (onError : IntErrorKind → ε) : List Char → Outcome ε (List UInt8)
  | [] => .ok []
  | [c] => if 2 < c.utf8Size then .panic else .error (onError .invalidDigit)
  | c :: d :: rest =>
    if 2 < c.utf8Size then .panic
    else if c.toNat < 128 ∧ 128 ≤ d.toNat then .panic
    else
      match pairValue c d with
      | none => .error (onError .invalidDigit)
      | some byte => (readCharacters onError rest).map (byte :: ·)

/-! ## Digits and pairs -/

theorem toDigit_isSome_iff {c : Char} : (toDigit c).isSome ↔ IsHexDigit c := by
  rw [toDigit, IsHexDigit]
  split_ifs with hdecimal hlower hupper
  · simp [hdecimal]
  · simp [hlower]
  · simp [hupper]
  · simp [hdecimal, hlower, hupper]

theorem toDigit_lt {c : Char} {digit : Nat} (h : toDigit c = some digit) : digit < 16 := by
  rw [toDigit] at h
  split_ifs at h
  all_goals
    cases h
    omega

theorem IsHexDigit.ascii {c : Char} (h : IsHexDigit c) : c.toNat < 128 := by
  rw [IsHexDigit] at h
  omega

theorem plus_not_digit : ¬IsHexDigit '+' := by
  rw [← toDigit_isSome_iff]
  decide

variable {c d : Char}

theorem IsPair.ascii (h : IsPair c d) : c.toNat < 128 ∧ d.toNat < 128 := by
  refine ⟨?_, h.2.ascii⟩
  rcases h.1 with rfl | hc
  · decide
  · exact hc.ascii

theorem pairValue_isSome_iff : (pairValue c d).isSome ↔ IsPair c d := by
  rw [pairValue, IsPair, ← toDigit_isSome_iff (c := c), ← toDigit_isSome_iff (c := d)]
  cases toDigit d with
  | none => simp
  | some low =>
    by_cases hplus : c = '+'
    · simp [hplus]
    · simp [hplus]

theorem pairValue_eq_none_of_wide (h : 128 ≤ c.toNat) : pairValue c d = none := by
  rw [← Option.not_isSome_iff_eq_none, pairValue_isSome_iff]
  intro hpair
  have hascii := hpair.ascii.1
  omega

theorem utf8Size_le_one (h : c.toNat < 128) : c.utf8Size = 1 := by
  rw [← String.length_utf8EncodeChar, Utf8.encodeChar_ascii h, List.length_singleton]

theorem wide_of_utf8Size (h : 2 < c.utf8Size) : 128 ≤ c.toNat := by
  by_contra hascii
  rw [utf8Size_le_one (Nat.lt_of_not_le hascii)] at h
  omega

/-! ## The parser on two bytes -/

theorem ofNat_toNat_byte {b : UInt8} : (Char.ofNat b.toNat).toNat = b.toNat := by
  have hb := b.toNat_lt
  have hvalid : b.toNat.isValidChar := .inl (by omega)
  rw [Char.ofNat, dif_pos hvalid]
  rfl

theorem char_of_byte (h : c.toNat < 128) : Char.ofNat (UInt8.ofNat c.toNat).toNat = c := by
  rw [UInt8.toNat_ofNat_of_lt' (show c.toNat < 256 by omega)]
  exact Char.ofNat_toNat c

/-- Two characters of ASCII are parsed as a pair. -/
theorem fromStrRadix_ascii (hc : c.toNat < 128) (hd : d.toNat < 128) :
    fromStrRadix [UInt8.ofNat c.toNat, UInt8.ofNat d.toNat] =
      match pairValue c d with
      | none => .error .invalidDigit
      | some byte => .ok byte := by
  rw [fromStrRadix, pairValue]
  by_cases hplus : c = '+'
  · subst hplus
    rw [if_pos (by decide), readDigits, char_of_byte hd]
    cases hlow : toDigit d with
    | none => rfl
    | some low =>
      have hlt := toDigit_lt hlow
      dsimp only
      rw [if_neg (by omega), if_pos rfl, readDigits, Nat.zero_mul, Nat.zero_add]
  · have hbyte : UInt8.ofNat c.toNat ≠ 43 := by
      intro heq
      refine hplus (Char.toNat_inj.1 ?_)
      have hnat := congrArg UInt8.toNat heq
      rw [UInt8.toNat_ofNat_of_lt' (show c.toNat < 256 by omega)] at hnat
      exact hnat
    rw [if_neg hbyte, readDigits, char_of_byte hc]
    cases hhigh : toDigit c with
    | none => cases toDigit d <;> simp [hplus]
    | some high =>
      have hhighLt := toDigit_lt hhigh
      dsimp only
      rw [if_neg (by omega), readDigits, char_of_byte hd]
      cases hlow : toDigit d with
      | none => rfl
      | some low =>
        have hlowLt := toDigit_lt hlow
        dsimp only
        rw [if_neg (by omega), if_neg hplus, readDigits, Nat.zero_mul, Nat.zero_add]
        rfl

/-- The first byte of a longer character is no digit. -/
theorem fromStrRadix_wide {first b : UInt8} (h : 0xC0 ≤ first.toNat) :
    fromStrRadix [first, b] = .error .invalidDigit := by
  have hplus : first ≠ 43 := by
    rintro rfl
    exact absurd h (by decide)
  have hdigit : toDigit (Char.ofNat first.toNat) = none := by
    rw [← Option.not_isSome_iff_eq_none, toDigit_isSome_iff]
    intro hdigit
    have hascii := hdigit.ascii
    rw [ofNat_toNat_byte] at hascii
    omega
  rw [fromStrRadix, if_neg hplus, readDigits, hdigit]

/-! ## From bytes to characters -/

variable {before : List UInt8} {rest : List Char}

/-- The two bytes after a position end inside a character of three or four bytes. -/
theorem slice_long (h : 2 < c.utf8Size) :
    Utf8.slice (before ++ Utf8.encode (c :: rest)) before.length (before.length + 2) = none := by
  obtain ⟨first, tail, hencode, -, -, htail⟩ := Utf8.encodeChar_wide (wide_of_utf8Size h)
  have hlength := String.length_utf8EncodeChar c
  rw [hencode, List.length_cons] at hlength
  cases tail with
  | nil =>
    simp only [List.length_nil] at hlength
    omega
  | cons second tail =>
    cases tail with
    | nil =>
      simp only [List.length_cons, List.length_nil] at hlength
      omega
    | cons third more =>
      have hsplit : before ++ Utf8.encode (c :: rest) =
          (before ++ [first, second]) ++ third :: (more ++ Utf8.encode rest) := by
        simp [hencode]
      have hstop : before.length + 2 = (before ++ [first, second]).length := by simp
      rw [hsplit, hstop]
      exact Utf8.slice_eq_none (by simp) (htail third (by simp))

/-- They end inside a character that follows one of ASCII. -/
theorem slice_across (hc : c.toNat < 128) (hd : 128 ≤ d.toNat) :
    Utf8.slice (before ++ Utf8.encode (c :: d :: rest)) before.length (before.length + 2) =
      none := by
  obtain ⟨first, tail, hencode, -, hne, htail⟩ := Utf8.encodeChar_wide hd
  obtain ⟨second, more, rfl⟩ := List.exists_cons_of_ne_nil hne
  have hsplit : before ++ Utf8.encode (c :: d :: rest) =
      (before ++ [UInt8.ofNat c.toNat, first]) ++ second :: (more ++ Utf8.encode rest) := by
    simp [Utf8.encodeChar_ascii hc, hencode]
  have hstop : before.length + 2 = (before ++ [UInt8.ofNat c.toNat, first]).length := by simp
  rw [hsplit, hstop]
  exact Utf8.slice_eq_none (by simp) (htail second (by simp))

/-- They are a character of two bytes. -/
theorem slice_two (hc : 128 ≤ c.toNat) (hsize : ¬2 < c.utf8Size) :
    ∃ first second, 0xC0 ≤ first.toNat ∧
      Utf8.slice (before ++ Utf8.encode (c :: rest)) before.length (before.length + 2) =
        some [first, second] := by
  obtain ⟨first, tail, hencode, hfirst, hne, -⟩ := Utf8.encodeChar_wide hc
  have hlength := String.length_utf8EncodeChar c
  rw [hencode, List.length_cons] at hlength
  obtain ⟨second, rfl⟩ : ∃ second, tail = [second] := by
    refine List.length_eq_one_iff.1 ?_
    have := List.length_pos_iff.2 hne
    omega
  have hstart : Utf8.isBoundary (before ++ Utf8.encode (c :: rest)) before.length = true :=
    Utf8.isBoundary_start
  refine ⟨first, second, hfirst, ?_⟩
  have hsplit : before ++ Utf8.encode (c :: rest) =
      before ++ [first, second] ++ Utf8.encode rest := by
    simp [hencode]
  rw [hsplit] at hstart ⊢
  exact Utf8.slice_eq_some hstart

/-- They are two characters of ASCII. -/
theorem slice_ascii (hc : c.toNat < 128) (hd : d.toNat < 128) :
    Utf8.slice (before ++ Utf8.encode (c :: d :: rest)) before.length (before.length + 2) =
      some [UInt8.ofNat c.toNat, UInt8.ofNat d.toNat] := by
  have hstart : Utf8.isBoundary (before ++ Utf8.encode (c :: d :: rest)) before.length = true :=
    Utf8.isBoundary_start
  have hsplit : before ++ Utf8.encode (c :: d :: rest) =
      before ++ [UInt8.ofNat c.toNat, UInt8.ofNat d.toNat] ++ Utf8.encode rest := by
    simp [Utf8.encodeChar_ascii hc, Utf8.encodeChar_ascii hd]
  rw [hsplit] at hstart ⊢
  exact Utf8.slice_eq_some hstart

/-- **The reading at byte positions is the reading by characters.** -/
theorem readPairs_eq (onError : IntErrorKind → ε) (text : List Char) (before : List UInt8)
    (index count : Nat) (hindex : before.length = index * 2)
    (hcount : (Utf8.encode text).length = count * 2) :
    readPairs onError (before ++ Utf8.encode text) index count = readCharacters onError text := by
  induction count generalizing text before index with
  | zero =>
    cases text with
    | nil => rfl
    | cons c rest =>
      have hpos := c.utf8Size_pos
      rw [Utf8.encode_cons, List.length_append, String.length_utf8EncodeChar] at hcount
      omega
  | succ count ih =>
    rw [readPairs, ← hindex]
    cases text with
    | nil =>
      rw [Utf8.encode_nil, List.length_nil] at hcount
      omega
    | cons c tail =>
    cases tail with
    | nil =>
      rw [readCharacters]
      by_cases hlong : 2 < c.utf8Size
      · rw [if_pos hlong, slice_long hlong]
      · have hsize : (Utf8.encode [c]).length = c.utf8Size := by simp
        have hwide : 128 ≤ c.toNat := by
          by_contra hascii
          rw [hsize, utf8Size_le_one (Nat.lt_of_not_le hascii)] at hcount
          omega
        obtain ⟨first, second, hfirst, hslice⟩ :=
          @slice_two _ before [] hwide hlong
        rw [if_neg hlong, hslice]
        dsimp only
        rw [fromStrRadix_wide hfirst]
    | cons d rest =>
      rw [readCharacters]
      by_cases hlong : 2 < c.utf8Size
      · rw [if_pos hlong, slice_long hlong]
      · rw [if_neg hlong]
        by_cases hc : c.toNat < 128
        · by_cases hd : d.toNat < 128
          · rw [if_neg (fun h => by omega), slice_ascii hc hd]
            dsimp only
            rw [fromStrRadix_ascii hc hd]
            cases pairValue c d with
            | none => rfl
            | some byte =>
              have hsplit : before ++ Utf8.encode (c :: d :: rest) =
                  before ++ [UInt8.ofNat c.toNat, UInt8.ofNat d.toNat] ++ Utf8.encode rest := by
                simp [Utf8.encodeChar_ascii hc, Utf8.encodeChar_ascii hd]
              dsimp only
              rw [hsplit, ih rest _ (index + 1)]
              · simp only [List.length_append, List.length_cons, List.length_nil]
                omega
              · simp only [Utf8.encode_cons, List.length_append, Utf8.encodeChar_ascii hc,
                  Utf8.encodeChar_ascii hd, List.length_singleton] at hcount
                omega
          · rw [if_pos ⟨hc, Nat.le_of_not_lt hd⟩, slice_across hc (Nat.le_of_not_lt hd)]
        · obtain ⟨first, second, hfirst, hslice⟩ :=
            @slice_two _ before (d :: rest) (Nat.le_of_not_lt hc) hlong
          rw [if_neg (fun h => hc h.1), hslice, pairValue_eq_none_of_wide (Nat.le_of_not_lt hc)]
          dsimp only
          rw [fromStrRadix_wide hfirst]

/-! ## What is read -/

variable {onError : IntErrorKind → ε} {text : List Char} {value : List UInt8} {byte : UInt8}

theorem readCharacters_pair (h : pairValue c d = some byte) :
    readCharacters onError (c :: d :: rest) = (readCharacters onError rest).map (byte :: ·) := by
  have hpair : IsPair c d := pairValue_isSome_iff.1 (by simp [h])
  obtain ⟨hc, hd⟩ := hpair.ascii
  rw [readCharacters, utf8Size_le_one hc, if_neg (by omega), if_neg (by omega), h]

theorem readCharacters_panic_iff : readCharacters onError text = .panic ↔ Splits text := by
  induction text using List.twoStepInduction with
  | nil => simp [readCharacters, Splits]
  | singleton c =>
    rw [readCharacters, Splits]
    by_cases hlong : 2 < c.utf8Size
    · simp [hlong]
    · simp [hlong]
  | cons_cons c d rest ih _ =>
    rw [Splits]
    cases hvalue : pairValue c d with
    | some byte =>
      have hpair : IsPair c d := pairValue_isSome_iff.1 (by simp [hvalue])
      obtain ⟨hc, hd⟩ := hpair.ascii
      have hsize := utf8Size_le_one hc
      rw [readCharacters_pair hvalue, Outcome.map_eq_panic, ih]
      constructor
      · exact fun hsplits => .inr (.inr ⟨hpair, hsplits⟩)
      · rintro (hlong | ⟨-, hwide⟩ | ⟨-, hsplits⟩)
        · omega
        · omega
        · exact hsplits
    | none =>
      have hpair : ¬IsPair c d := by simp [← pairValue_isSome_iff, hvalue]
      rw [readCharacters, hvalue]
      split_ifs with hlong hacross
      · simp [hlong]
      · simp [hacross]
      · simp [hlong, hacross, hpair]

theorem readCharacters_ok_iff :
    (∃ value, readCharacters onError text = .ok value) ↔ Paired text := by
  induction text using List.twoStepInduction with
  | nil => simp [readCharacters, Paired]
  | singleton c =>
    rw [readCharacters, Paired]
    split_ifs
    · simp
    · simp
  | cons_cons c d rest ih _ =>
    rw [Paired]
    cases hvalue : pairValue c d with
    | some byte =>
      have hpair : IsPair c d := pairValue_isSome_iff.1 (by simp [hvalue])
      rw [readCharacters_pair hvalue, ← ih]
      simp [hpair]
    | none =>
      have hpair : ¬IsPair c d := by simp [← pairValue_isSome_iff, hvalue]
      rw [readCharacters, hvalue]
      split_ifs
      · simp [hpair]
      · simp [hpair]
      · simp [hpair]

/-- The characters of pairs are digits and plus signs. -/
theorem Paired.digits (h : Paired text) : ∀ c ∈ text, c = '+' ∨ IsHexDigit c := by
  induction text using List.twoStepInduction with
  | nil => simp
  | singleton c => exact h.elim
  | cons_cons c d rest ih _ =>
    intro e he
    rcases List.mem_cons.1 he with rfl | he
    · exact h.1.1
    rcases List.mem_cons.1 he with rfl | he
    · exact .inr h.1.2
    · exact ih h.2 e he

theorem encode_length_of_ascii (h : ∀ c ∈ text, c.toNat < 128) :
    (Utf8.encode text).length = text.length := by
  induction text with
  | nil => rfl
  | cons c rest ih =>
    obtain ⟨hc, hrest⟩ := List.forall_mem_cons.1 h
    rw [Utf8.encode_cons, List.length_append, Utf8.encodeChar_ascii hc, ih hrest,
      List.length_singleton, List.length_cons, Nat.add_comm]

theorem Paired.length (h : Paired text) : (Utf8.encode text).length = text.length := by
  refine encode_length_of_ascii fun c hc => ?_
  rcases h.digits c hc with rfl | hdigit
  · decide
  · exact hdigit.ascii

/-! ## What is written -/

/-- The two digits of a byte. -/
def pairText (byte : UInt8) : List Char :=
  [Nat.digitChar (byte.toNat / 16), Nat.digitChar (byte.toNat % 16)]

theorem toDigit_digitChar : ∀ digit < 16, toDigit (Nat.digitChar digit) = some digit := by decide

theorem pairValue_pairText (byte : UInt8) :
    pairValue (Nat.digitChar (byte.toNat / 16)) (Nat.digitChar (byte.toNat % 16)) = some byte := by
  have hbyte := byte.toNat_lt
  have hplus : ∀ digit < 16, Nat.digitChar digit ≠ '+' := by decide
  rw [pairValue, toDigit_digitChar _ (by omega), toDigit_digitChar _ (by omega)]
  dsimp only
  rw [if_neg (hplus _ (by omega)), Option.map_some]
  refine congrArg some (UInt8.toNat_inj.1 ?_)
  rw [UInt8.toNat_ofNat_of_lt' (show byte.toNat / 16 * 16 + byte.toNat % 16 < 256 by omega)]
  omega

theorem readCharacters_pairText (value : List UInt8) :
    readCharacters onError (value.flatMap pairText) = .ok value := by
  induction value with
  | nil => rfl
  | cons byte value ih =>
    rw [List.flatMap_cons, pairText, List.cons_append, List.cons_append, List.nil_append,
      readCharacters_pair (pairValue_pairText byte), ih]
    rfl

theorem hexTable_pair (byte : UInt8) :
    [hexTable.getD (byte >>> 4).toNat '0', hexTable.getD (byte &&& 0x0f).toNat '0'] =
      pairText byte := by
  have htable : ∀ digit < 16, hexTable.getD digit '0' = Nat.digitChar digit := by decide
  have hbyte := byte.toNat_lt
  have hhigh : (byte >>> 4).toNat = byte.toNat / 16 := by
    rw [UInt8.toNat_shiftRight]
    exact Nat.shiftRight_eq_div_pow byte.toNat 4
  have hlow : (byte &&& 0x0f).toNat = byte.toNat % 16 := by
    rw [UInt8.toNat_and]
    exact Nat.and_two_pow_sub_one_eq_mod byte.toNat 4
  rw [hhigh, hlow, htable _ (by omega), htable _ (by omega), pairText]

theorem paddedHex_pair (byte : UInt8) : paddedHex byte = pairText byte := by
  have hpadded : ∀ n < 256, List.replicate (2 - (Nat.toDigits 16 n).length) '0' ++
      Nat.toDigits 16 n = [Nat.digitChar (n / 16), Nat.digitChar (n % 16)] := by decide +kernel
  exact hpadded byte.toNat byte.toNat_lt

theorem pairText_length (value : List UInt8) :
    (value.flatMap pairText).length = value.length * 2 := by
  induction value with
  | nil => rfl
  | cons byte value ih =>
    rw [List.flatMap_cons, List.length_append, ih, List.length_cons, pairText]
    simp only [List.length_cons, List.length_nil]
    omega

/-- A lowercase digit is the one of its value. -/
theorem digitChar_of_toDigit {digit : Nat} (h : toDigit c = some digit)
    (hlower : c.isUpper = false) : c = Nat.digitChar digit := by
  have hchar : ∀ digit < 16, (Nat.digitChar digit).toNat =
      if digit < 10 then digit + 48 else digit + 87 := by decide
  have hcase : ¬(65 ≤ c.toNat ∧ c.toNat ≤ 90) := by
    rintro ⟨hlow, hhigh⟩
    have hupper : c.isUpper = true :=
      decide_eq_true ⟨UInt32.le_iff_toNat_le.2 hlow, UInt32.le_iff_toNat_le.2 hhigh⟩
    rw [hlower] at hupper
    cases hupper
  refine Char.toNat_inj.1 ?_
  rw [hchar digit (toDigit_lt h)]
  rw [toDigit] at h
  split_ifs at h
  all_goals
    cases h
    split_ifs <;> omega

/-- Without plus signs and capitals only one text is read as given bytes. -/
theorem eq_pairText_of_read (h : readCharacters onError text = .ok value) (hplus : '+' ∉ text)
    (hlower : ∀ c ∈ text, c.isUpper = false) : text = value.flatMap pairText := by
  induction text using List.twoStepInduction generalizing value with
  | nil =>
    cases h
    rfl
  | singleton c =>
    rw [readCharacters] at h
    split_ifs at h
  | cons_cons c d rest ih _ =>
    simp only [List.mem_cons, not_or] at hplus
    obtain ⟨hc, hd, hrest⟩ : c.isUpper = false ∧ d.isUpper = false ∧
        ∀ e ∈ rest, e.isUpper = false := by simpa using hlower
    cases hvalue : pairValue c d with
    | none =>
      rw [readCharacters, hvalue] at h
      split_ifs at h
    | some byte =>
      rw [readCharacters_pair hvalue, Outcome.map_eq_ok] at h
      obtain ⟨value, hread, rfl⟩ := h
      rw [List.flatMap_cons, ← ih hread hplus.2.2 hrest]
      suffices hpair : pairText byte = [c, d] by rw [hpair]; rfl
      rw [pairValue] at hvalue
      cases hlow : toDigit d with
      | none => simp [hlow] at hvalue
      | some low =>
        rw [hlow] at hvalue
        dsimp only at hvalue
        rw [if_neg (Ne.symm hplus.1)] at hvalue
        obtain ⟨high, hhigh, rfl⟩ := Option.map_eq_some_iff.1 hvalue
        have h1 := toDigit_lt hhigh
        have h2 := toDigit_lt hlow
        rw [pairText, UInt8.toNat_ofNat_of_lt' (show high * 16 + low < 256 by omega),
          show (high * 16 + low) / 16 = high by omega, show (high * 16 + low) % 16 = low by omega,
          ← digitChar_of_toDigit hhigh hc, ← digitChar_of_toDigit hlow hd]

/-! ## Decoders -/

/-- The decoder neither panics nor takes anything but digits, as many as fit. -/
structure Lawful (fits : Nat → Bool) (s : String) (outcome : Outcome ε (List UInt8)) : Prop where
  noPanic : outcome ≠ .panic
  digits : ∀ value, outcome = .ok value →
    (∀ c ∈ s.toList, IsHexDigit c) ∧ fits s.toList.length = true

/-- A text with a number of bytes that fits is not cut inside a character, and is not made of pairs
    one of which begins with a plus sign. -/
def Safe (fits : Nat → Bool) (s : String) : Prop :=
  fits (Utf8.encode s.toList).length = true →
    ¬Splits s.toList ∧ ¬(Paired s.toList ∧ '+' ∈ s.toList)

/-- A decoder is lawful for the safe texts and no others, and takes no two safe lowercase texts for
    the same bytes. -/
structure LawfulIfSafe (fits : Nat → Bool) (decode : String → Outcome ε (List UInt8)) : Prop where
  lawful_iff : ∀ s, Lawful fits s (decode s) ↔ Safe fits s
  unique : ∀ s t value, Safe fits s → Safe fits t → (∀ c ∈ s.toList, c.isUpper = false) →
    (∀ c ∈ t.toList, c.isUpper = false) → decode s = .ok value → decode t = .ok value → s = t

variable {fits : Nat → Bool} {wrongLength : ε} {s : String}

theorem decodeFitting_eq (heven : ∀ n, fits n = true → n % 2 = 0) :
    decodeFitting fits wrongLength onError s =
      if fits (Utf8.encode s.toList).length then readCharacters onError s.toList
      else .error wrongLength := by
  rw [decodeFitting]
  split_ifs with hfits
  · have hcount := heven _ hfits
    exact readPairs_eq onError s.toList [] 0 _ rfl (by omega)
  · rfl

theorem decodeFitting_lawful (heven : ∀ n, fits n = true → n % 2 = 0) :
    LawfulIfSafe fits (decodeFitting fits wrongLength onError) := by
  refine ⟨fun s => ?_, fun s t value hs ht hslower htlower hdecode hother => ?_⟩
  · rw [decodeFitting_eq heven]
    by_cases hfits : fits (Utf8.encode s.toList).length = true
    · rw [if_pos hfits]
      constructor
      · intro hlawful _
        refine ⟨fun hsplits => hlawful.noPanic (readCharacters_panic_iff.2 hsplits), ?_⟩
        rintro ⟨hpaired, hplus⟩
        obtain ⟨value, hvalue⟩ := (@readCharacters_ok_iff ε onError _).2 hpaired
        exact plus_not_digit ((hlawful.digits value hvalue).1 '+' hplus)
      · intro hsafe
        obtain ⟨hsplits, hplus⟩ := hsafe hfits
        refine ⟨fun hpanic => hsplits (readCharacters_panic_iff.1 hpanic), fun value hvalue => ?_⟩
        have hpaired := readCharacters_ok_iff.1 ⟨value, hvalue⟩
        refine ⟨fun c hc => (hpaired.digits c hc).resolve_left ?_, hpaired.length ▸ hfits⟩
        rintro rfl
        exact hplus ⟨hpaired, hc⟩
    · rw [if_neg hfits]
      exact ⟨fun _ h => absurd h hfits, fun _ => ⟨by simp, by simp⟩⟩
  · have read {s : String} (hsafe : Safe fits s) (hlower : ∀ c ∈ s.toList, c.isUpper = false)
        (hdecode : decodeFitting fits wrongLength onError s = .ok value) :
        s.toList = value.flatMap pairText := by
      rw [decodeFitting_eq heven] at hdecode
      split_ifs at hdecode with hfits
      have hpaired := readCharacters_ok_iff.1 ⟨value, hdecode⟩
      exact eq_pairText_of_read hdecode (fun hplus => (hsafe hfits).2 ⟨hpaired, hplus⟩) hlower
    exact String.toList_inj.1 ((read hs hslower hdecode).trans (read ht htlower hother).symm)

theorem decodeFitting_pairText (heven : ∀ n, fits n = true → n % 2 = 0)
    (hfits : fits (value.length * 2) = true) :
    decodeFitting fits wrongLength onError (String.ofList (value.flatMap pairText)) =
      .ok value := by
  have hread := @readCharacters_pairText ε onError value
  have hpaired := readCharacters_ok_iff.1 ⟨value, hread⟩
  rw [decodeFitting_eq heven, String.toList_ofList, hpaired.length, pairText_length, if_pos hfits,
    hread]

theorem even_of_isDigestLength : ∀ n, isDigestLength n = true → n % 2 = 0 := by
  intro n h
  rw [eq_of_beq h]

theorem even_of_isPairsLength : ∀ n, isPairsLength n = true → n % 2 = 0 := by
  intro n h
  exact eq_of_beq h

/-- **What was encoded is decoded, and the decoders neither panic nor take anything but digits
exactly for the safe texts**, among which no two in lowercase stand for the same bytes. -/
theorem codecs_lawful_iff (digest bytes : List UInt8) :
    (digest.length = 32 → decodeHexDigest (encodeHexBytes digest) = .ok digest) ∧
    (digest.length = 32 → decodeDigest (encodeDigest digest) = .ok digest) ∧
    decodeHex (encodeHex bytes) = .ok bytes ∧
    LawfulIfSafe isDigestLength decodeHexDigest ∧ LawfulIfSafe isDigestLength decodeDigest ∧
    LawfulIfSafe isPairsLength decodeHex := by
  refine ⟨fun h => ?_, fun h => ?_, ?_,
    decodeFitting_lawful even_of_isDigestLength, decodeFitting_lawful even_of_isDigestLength,
    decodeFitting_lawful even_of_isPairsLength⟩
  · rw [encodeHexBytes, funext hexTable_pair]
    exact decodeFitting_pairText even_of_isDigestLength (by rw [h]; rfl)
  · rw [encodeDigest, funext paddedHex_pair]
    exact decodeFitting_pairText even_of_isDigestLength (by rw [h]; rfl)
  · rw [encodeHex, funext paddedHex_pair]
    exact decodeFitting_pairText even_of_isPairsLength (by simp [isPairsLength])

/-- A plus sign is taken for a digit, so that two lowercase texts stand for one secret; and a text
    of 64 bytes is cut inside a character. -/
theorem plus_taken_for_digit :
    decodeHex "+f" = .ok [15] ∧ decodeHex "0f" = .ok [15] ∧
      ¬Lawful isPairsLength "+f" (decodeHex "+f") ∧
    decodeHexDigest (String.ofList ('0' :: 'é' :: List.replicate 61 '0')) = .panic ∧
      decodeDigest (String.ofList ('0' :: 'é' :: List.replicate 61 '0')) = .panic := by
  refine ⟨by decide, by decide, fun h => ?_, by decide, by decide⟩
  exact plus_not_digit ((h.digits [15] (by decide)).1 '+' (by decide))

end Zemo.HexText
