import Mathlib.Algebra.GroupWithZero.Nat
import Mathlib.Data.List.DropRight
import Mathlib.Data.List.Forall2
import Mathlib.Data.List.Infix
import Mathlib.Data.Option.Basic

set_option autoImplicit false

/-! # Texts by characters and by bytes

A text is the list of its characters. The file has what is needed of texts to follow positions in
them: the first place a part occurs at, the bytes of a text and the part of it that ends at a byte,
what is left when the characters of a kind are taken off both ends, and the piece of a text that was
put together from pieces a character comes from. -/

namespace Texts

abbrev Text := List Char

/-! ## Occurrences -/

section Occurrences

variable {α : Type}

/-- The first place where `part` occurs in `text`. -/
def find [DecidableEq α] (part : List α) : List α → Option Nat
  | [] => if part = [] then some 0 else none
  | c :: rest => if part <+: c :: rest then some 0 else (find part rest).map (· + 1)

variable [DecidableEq α] {part text : List α} {i : Nat}

/-- Where a part is found, it occurs. -/
theorem isPrefix_of_find (h : find part text = some i) : part <+: text.drop i := by
  induction text generalizing i with
  | nil =>
    unfold find at h
    split at h
    · next hpart =>
      rw [hpart]
      exact List.nil_prefix
    · cases h
  | cons c rest ih =>
    unfold find at h
    split at h
    · next hpart =>
      obtain rfl := Option.some.inj h
      exact hpart
    · obtain ⟨j, hj, rfl⟩ := Option.map_eq_some_iff.1 h
      exact ih hj

theorem getElem?_of_find (h : find part text = some i) {j : Nat} (hj : j < part.length) :
    text[i + j]? = part[j]? := by
  obtain ⟨rest, hrest⟩ := isPrefix_of_find h
  rw [← List.getElem?_drop, ← hrest, List.getElem?_append_left hj]

theorem find_le_length (h : find part text = some i) : i ≤ text.length := by
  induction text generalizing i with
  | nil =>
    unfold find at h
    split at h
    · exact Nat.le_of_eq (Option.some.inj h).symm
    · cases h
  | cons c rest ih =>
    unfold find at h
    split at h
    · obtain rfl := Option.some.inj h
      exact Nat.zero_le _
    · obtain ⟨j, hj, rfl⟩ := Option.map_eq_some_iff.1 h
      exact Nat.succ_le_succ (ih hj)

end Occurrences

/-! ## Bytes -/

/-- The bytes a text takes. -/
def byteLength (text : Text) : Nat := (text.map Char.utf8Size).sum

@[simp] theorem byteLength_nil : byteLength [] = 0 := rfl

@[simp] theorem byteLength_cons (c : Char) (text : Text) :
    byteLength (c :: text) = c.utf8Size + byteLength text := by
  simp [byteLength]

@[simp] theorem byteLength_append (a b : Text) :
    byteLength (a ++ b) = byteLength a + byteLength b := by
  simp [byteLength]

/-- A longer start takes more bytes. -/
theorem byteLength_take_lt {text : Text} {i j : Nat} (hij : i < j) (hi : i < text.length) :
    byteLength (text.take i) < byteLength (text.take j) := by
  induction text generalizing i j with
  | nil => exact absurd hi (Nat.not_lt_zero _)
  | cons c rest ih =>
    obtain ⟨j, rfl⟩ := Nat.exists_eq_succ_of_ne_zero (by omega : j ≠ 0)
    cases i with
    | zero =>
      have := c.utf8Size_pos
      simp
      omega
    | succ i => simpa using ih (by omega) (by simpa using hi)

theorem byteLength_take_mono (text : Text) {i j : Nat} (hij : i ≤ j) :
    byteLength (text.take i) ≤ byteLength (text.take j) := by
  obtain ⟨k, rfl⟩ := Nat.exists_eq_add_of_le hij
  rw [List.take_add, byteLength_append]
  exact Nat.le_add_right ..

theorem byteLength_take_inj {text : Text} {i j : Nat} (hi : i ≤ text.length)
    (hj : j ≤ text.length) (h : byteLength (text.take i) = byteLength (text.take j)) : i = j := by
  rcases Nat.lt_trichotomy i j with hlt | heq | hlt
  · have := byteLength_take_lt hlt (show i < text.length by omega)
    omega
  · exact heq
  · have := byteLength_take_lt hlt (show j < text.length by omega)
    omega

/-- `text[..bytes]`, when a character ends there. -/
def sliceTo : Text → Nat → Option Text
  | _, 0 => some []
  | [], _ + 1 => none
  | c :: rest, bytes + 1 =>
      if c.utf8Size ≤ bytes + 1 then (sliceTo rest (bytes + 1 - c.utf8Size)).map (c :: ·) else none

/-- A slice is a start of the text of that many bytes. -/
theorem sliceTo_eq_some {text slice : Text} {bytes : Nat} :
    sliceTo text bytes = some slice ↔ slice <+: text ∧ byteLength slice = bytes := by
  induction text generalizing slice bytes with
  | nil =>
    cases bytes with
    | zero =>
      constructor
      · intro h
        obtain rfl := Option.some.inj h
        exact ⟨List.nil_prefix, rfl⟩
      · rintro ⟨hslice, -⟩
        rw [List.prefix_nil.1 hslice]
        rfl
    | succ bytes =>
      refine ⟨fun h => (nomatch h), ?_⟩
      rintro ⟨hslice, hbytes⟩
      rw [List.prefix_nil.1 hslice, byteLength_nil] at hbytes
      omega
  | cons c rest ih =>
    have hpos := c.utf8Size_pos
    cases bytes with
    | zero =>
      constructor
      · rintro h
        obtain rfl := Option.some.inj h
        exact ⟨List.nil_prefix, rfl⟩
      · rintro ⟨hprefixed, hbytes⟩
        cases slice with
        | nil => rfl
        | cons d slice =>
          have := d.utf8Size_pos
          rw [byteLength_cons] at hbytes
          omega
    | succ bytes =>
      unfold sliceTo
      cases slice with
      | nil =>
        constructor
        · intro h
          split at h
          · simp at h
          · cases h
        · rintro ⟨-, h⟩
          simp at h
      | cons d slice =>
        rw [List.cons_prefix_cons, byteLength_cons]
        split
        · next hle =>
          rw [Option.map_eq_some_iff]
          constructor
          · rintro ⟨tail, htail, hcons⟩
            obtain ⟨rfl, rfl⟩ := List.cons.inj hcons
            obtain ⟨htail, hbytes⟩ := ih.1 htail
            exact ⟨⟨rfl, htail⟩, by omega⟩
          · rintro ⟨⟨rfl, htail⟩, hbytes⟩
            exact ⟨slice, ih.2 ⟨htail, by omega⟩, rfl⟩
        · next hlt =>
          refine ⟨fun h => (nomatch h), ?_⟩
          rintro ⟨⟨rfl, -⟩, hbytes⟩
          omega

/-! ## Both ends -/

/-- The text without the characters of a kind at its ends. -/
def trim (p : Char → Bool) (text : Text) : Text := (text.dropWhile p).rdropWhile p

/-- How many characters of the kind the text begins with. -/
def leading (p : Char → Bool) (text : Text) : Nat := (text.takeWhile p).length

theorem dropWhile_eq_drop (p : Char → Bool) (text : Text) :
    text.dropWhile p = text.drop (leading p text) := by
  have h := @List.drop_left' _ (text.takeWhile p) (text.dropWhile p) _ rfl
  rw [List.takeWhile_append_dropWhile] at h
  exact h.symm

theorem leading_add_length_trim_le (p : Char → Bool) (text : Text) :
    leading p text + (trim p text).length ≤ text.length := by
  have htrim := (List.rdropWhile_prefix p (text.dropWhile p)).length_le
  have hsplit := congrArg List.length (List.takeWhile_append_dropWhile (p := p) (l := text))
  rw [List.length_append] at hsplit
  rw [trim, leading]
  omega

/-- The characters left begin before every one that is not of the kind … -/
theorem leading_le {p : Char → Bool} {text : Text} {i : Nat} {c : Char} (hi : text[i]? = some c)
    (hc : p c = false) : leading p text ≤ i := by
  by_contra hlt
  rw [← List.takeWhile_append_dropWhile (p := p) (l := text),
    List.getElem?_append_left (Nat.lt_of_not_le hlt)] at hi
  have hp := List.mem_takeWhile_imp (List.mem_of_getElem? hi)
  rw [hc] at hp
  cases hp

/-- … and end after it. -/
theorem lt_leading_add {p : Char → Bool} {text : Text} {i : Nat} {c : Char}
    (hi : text[i]? = some c) (hc : p c = false) :
    i < leading p text + (trim p text).length := by
  by_contra hle
  obtain ⟨j, rfl⟩ := Nat.exists_eq_add_of_le (leading_le hi hc)
  rw [← List.getElem?_drop, ← dropWhile_eq_drop,
    ← List.rdropWhile_append_rtakeWhile (p := p) (l := text.dropWhile p),
    List.getElem?_append_right (by rw [trim] at hle; omega)] at hi
  have hp := List.mem_rtakeWhile_imp (List.mem_of_getElem? hi)
  rw [hc] at hp
  cases hp

/-- Trimming leaves nothing to trim. -/
theorem trim_trim (p : Char → Bool) (text : Text) : trim p (trim p text) = trim p text := by
  have hdrop : (trim p text).dropWhile p = trim p text := by
    refine List.dropWhile_eq_self_iff.2 fun hpos => ?_
    -- its first character is the first one that is not of the kind
    have hprefixed : trim p text <+: text.dropWhile p := List.rdropWhile_prefix p _
    rw [hprefixed.getElem hpos]
    exact List.dropWhile_get_zero_not p text _
  rw [trim, hdrop]
  exact List.rdropWhile_idempotent p _

theorem mem_of_mem_trim {p : Char → Bool} {text : Text} {c : Char} (h : c ∈ trim p text) :
    c ∈ text :=
  (List.dropWhile_sublist p).mem ((List.rdropWhile_prefix p _).sublist.mem h)

/-! ## Places -/

section Places

variable {α : Type}

/-- The places of the elements of a kind. -/
def places (p : α → Bool) (text : List α) : List Nat :=
  (text.zipIdx.filter fun entry => p entry.1).map (·.2)

@[simp] theorem places_nil (p : α → Bool) : places p ([] : List α) = [] := rfl

theorem places_concat (p : α → Bool) (text : List α) (a : α) :
    places p (text ++ [a]) = places p text ++ if p a = true then [text.length] else [] := by
  unfold places
  rw [List.zipIdx_append, List.filter_append, List.map_append]
  by_cases ha : p a = true <;> simp [ha]

theorem places_eq_nil_iff {p : α → Bool} {text : List α} :
    places p text = [] ↔ ∀ a ∈ text, p a = false := by
  induction text using List.reverseRecOn with
  | nil => simp
  | append_singleton text a ih =>
    rw [places_concat, List.append_eq_nil_iff, ih]
    by_cases ha : p a = true <;> simp [ha, or_imp, forall_and]

/-- The last place of a kind parts the text: what follows is of the other kind. -/
theorem getLast?_places {p : α → Bool} {text : List α} {i : Nat} :
    (places p text).getLast? = some i ↔
      ∃ front a back, text = front ++ a :: back ∧ p a = true ∧ (∀ b ∈ back, p b = false)
        ∧ front.length = i := by
  induction text using List.reverseRecOn with
  | nil => simp
  | append_singleton text a ih =>
    rw [places_concat]
    by_cases ha : p a = true
    · rw [if_pos ha, List.getLast?_concat, Option.some_inj]
      constructor
      · rintro rfl
        exact ⟨text, a, [], rfl, ha, List.forall_mem_nil _, rfl⟩
      · rintro ⟨front, b, back, hsplit, hb, hback, rfl⟩
        rcases List.eq_nil_or_concat back with rfl | ⟨back, c, rfl⟩
        · rw [(List.append_inj' hsplit rfl).1]
        · rw [List.concat_eq_append, ← List.cons_append, ← List.append_assoc] at hsplit
          obtain rfl := List.singleton_inj.1 (List.append_inj' hsplit rfl).2
          rw [hback a (by simp)] at ha
          cases ha
    · rw [if_neg ha, List.append_nil, ih]
      constructor
      · rintro ⟨front, b, back, rfl, hb, hback, rfl⟩
        refine ⟨front, b, back ++ [a], by simp, hb, ?_, rfl⟩
        simp only [List.mem_append, List.mem_singleton]
        rintro c (hc | rfl)
        · exact hback c hc
        · exact Bool.eq_false_iff.2 ha
      · rintro ⟨front, b, back, hsplit, hb, hback, rfl⟩
        rcases List.eq_nil_or_concat back with rfl | ⟨back, c, rfl⟩
        · obtain rfl := List.singleton_inj.1 (List.append_inj' hsplit rfl).2
          exact absurd hb ha
        · rw [List.concat_eq_append, ← List.cons_append, ← List.append_assoc] at hsplit
          exact ⟨front, b, back, (List.append_inj' hsplit rfl).1, hb,
            fun d hd => hback d (by simp [hd]), rfl⟩

/-- What is of a kind and lies behind a place. -/
theorem filter_behind (p : α → Bool) (text : List α) (i start : Nat) :
    ((text.zipIdx start).filter fun entry => p entry.1 && decide (i < entry.2)).map (·.1) =
      (text.drop (i + 1 - start)).filter p := by
  induction text generalizing start with
  | nil => simp
  | cons a rest ih =>
    rw [List.zipIdx_cons, List.filter_cons]
    by_cases hi : i < start
    · rw [show i + 1 - start = 0 by omega, List.drop_zero, List.filter_cons]
      have hrest := ih (start + 1)
      rw [show i + 1 - (start + 1) = 0 by omega, List.drop_zero] at hrest
      by_cases ha : p a = true <;> simp [ha, hi, hrest]
    · rw [show i + 1 - start = (i + 1 - (start + 1)) + 1 by omega, List.drop_succ_cons,
        ← ih (start + 1), if_neg (by simp [hi])]

/-- What is of a kind and lies up to a place. -/
theorem filter_upTo (p : α → Bool) (text : List α) (i start : Nat) :
    ((text.zipIdx start).filter fun entry => p entry.1 && !decide (i < entry.2)).map (·.1) =
      (text.take (i + 1 - start)).filter p := by
  induction text generalizing start with
  | nil => simp
  | cons a rest ih =>
    rw [List.zipIdx_cons, List.filter_cons]
    by_cases hi : i < start
    · have hrest := ih (start + 1)
      rw [show i + 1 - (start + 1) = 0 by omega, List.take_zero] at hrest
      rw [show i + 1 - start = 0 by omega, List.take_zero, if_neg (by simp [hi]), hrest]
    · rw [show i + 1 - start = (i + 1 - (start + 1)) + 1 by omega, List.take_succ_cons,
        List.filter_cons, ← ih (start + 1)]
      by_cases ha : p a = true <;> simp [ha, hi]

end Places

/-! ## Pieces -/

variable {α : Type}

/-- The number of the piece that the character at a place of the flattened text is in. -/
def pieceAt : List (List α) → Nat → Nat
  | [], _ => 0
  | piece :: rest, n => if n < piece.length then 0 else pieceAt rest (n - piece.length) + 1

theorem mem_piece {pieces : List (List α)} {n : Nat} {a : α} (h : pieces.flatten[n]? = some a) :
    ∃ piece, pieces[pieceAt pieces n]? = some piece ∧ a ∈ piece := by
  induction pieces generalizing n with
  | nil => simp at h
  | cons piece rest ih =>
    rw [List.flatten_cons] at h
    unfold pieceAt
    split
    · next hn =>
      rw [List.getElem?_append_left hn] at h
      exact ⟨piece, rfl, List.mem_of_getElem? h⟩
    · next hn =>
      rw [List.getElem?_append_right (Nat.le_of_not_lt hn)] at h
      exact ih h

theorem pieceAt_mono {pieces : List (List α)} {m n : Nat} (h : m ≤ n) :
    pieceAt pieces m ≤ pieceAt pieces n := by
  induction pieces generalizing m n with
  | nil => exact Nat.le_refl _
  | cons piece rest ih =>
    unfold pieceAt
    split
    · exact Nat.zero_le _
    · next hm =>
      rw [if_neg (by omega)]
      exact Nat.succ_le_succ (ih (by omega))

/-- Between separators there is everything else. -/
theorem flatten_splitOnP (p : α → Bool) (text : List α) :
    (text.splitOnP p).flatten = text.filter (! p ·) := by
  induction text with
  | nil => rfl
  | cons a rest ih =>
    rw [List.splitOnP_cons_eq_if_modifyHead]
    split
    · next ha => rw [List.flatten_cons, List.nil_append, ih, List.filter_cons_of_neg (by simp [ha])]
    · next ha =>
      rw [List.filter_cons_of_pos (by simp [ha]), ← ih]
      cases hsplit : rest.splitOnP p with
      | nil => exact absurd hsplit (List.splitOnP_ne_nil p rest)
      | cons first others => rfl

/-- The words between separators have no separator. -/
theorem of_mem_splitOnP {p : α → Bool} {text word : List α} (h : word ∈ text.splitOnP p) {a : α}
    (ha : a ∈ word) : p a = false := by
  induction text generalizing word with
  | nil =>
    rw [List.splitOnP_nil, List.mem_singleton] at h
    rw [h] at ha
    cases ha
  | cons b rest ih =>
    rw [List.splitOnP_cons_eq_if_modifyHead] at h
    split at h
    · rcases List.mem_cons.1 h with rfl | h
      · cases ha
      · exact ih h ha
    · next hb =>
      cases hsplit : rest.splitOnP p with
      | nil => exact absurd hsplit (List.splitOnP_ne_nil p rest)
      | cons first others =>
        rw [hsplit, List.modifyHead_cons, List.mem_cons] at h
        rcases h with rfl | h
        · rcases List.mem_cons.1 ha with rfl | ha
          · exact Bool.eq_false_iff.2 hb
          · exact ih (hsplit ▸ List.mem_cons_self ..) ha
        · exact ih (hsplit ▸ List.mem_cons_of_mem _ h) ha

end Texts

/-! ## Texts up to blanks

Some characters are blanks. Two texts that differ in the blanks at their ends trim to the same text;
inside, a blank counts. What is put together from words with blanks between them determines the
words, and the blanks between them, as soon as each word shows how many characters that are no
blanks it has. -/

namespace Texts

/-- A text of blanks. -/
def Blank (p : Char → Bool) (text : Text) : Prop := ∀ c ∈ text, p c = true

instance (p : Char → Bool) (text : Text) : Decidable (Blank p text) :=
  inferInstanceAs (Decidable (∀ c ∈ text, p c = true))

/-- The number of characters that are no blanks. -/
def weight (p : Char → Bool) (text : Text) : Nat := text.countP fun c => ! p c

/-- A text that neither begins nor ends with a blank. -/
def Solid (p : Char → Bool) (text : Text) : Prop :=
  (∃ c ∈ text.head?, p c = false) ∧ ∃ c ∈ text.getLast?, p c = false

section Blanks

variable {p : Char → Bool} {text a b x y s t : Text}

/-! ## Blanks at the ends -/

theorem Blank.append (hx : Blank p x) (hy : Blank p y) : Blank p (x ++ y) := by
  intro c hc
  rcases List.mem_append.1 hc with hc | hc
  · exact hx c hc
  · exact hy c hc

theorem blank_nil : Blank p [] := List.forall_mem_nil _

@[simp] theorem weight_append (x y : Text) : weight p (x ++ y) = weight p x + weight p y :=
  List.countP_append

theorem weight_eq_zero_iff : weight p text = 0 ↔ Blank p text := by
  simp [weight, Blank, List.countP_eq_zero]

theorem dropWhile_blank_append (hx : Blank p x) : (x ++ text).dropWhile p = text.dropWhile p := by
  induction x with
  | nil => rfl
  | cons c x ih =>
    rw [List.cons_append, List.dropWhile_cons_of_pos (hx c (List.mem_cons_self ..))]
    exact ih fun d hd => hx d (List.mem_cons_of_mem _ hd)

theorem rdropWhile_append_blank (hy : Blank p y) :
    (text ++ y).rdropWhile p = text.rdropWhile p := by
  induction y using List.reverseRecOn with
  | nil => rw [List.append_nil]
  | append_singleton y c ih =>
    rw [← List.append_assoc, List.rdropWhile_concat_pos _ _ _ (hy c (by simp))]
    exact ih fun d hd => hy d (List.mem_append_left _ hd)

theorem trim_eq_nil_iff : trim p text = [] ↔ Blank p text := by
  unfold trim
  rw [List.rdropWhile_eq_nil_iff]
  constructor
  · intro h c hc
    rw [← List.takeWhile_append_dropWhile (p := p) (l := text)] at hc
    rcases List.mem_append.1 hc with hc | hc
    · exact List.mem_takeWhile_imp hc
    · exact h c hc
  · exact fun h c hc => h c ((List.dropWhile_sublist p).mem hc)

/-- A text is what is left of it, between blanks. -/
theorem exists_trim (p : Char → Bool) (text : Text) :
    ∃ front back, Blank p front ∧ Blank p back ∧ text = front ++ trim p text ++ back :=
  ⟨text.takeWhile p, (text.dropWhile p).rtakeWhile p, fun _ hc => List.mem_takeWhile_imp hc,
    fun _ hc => List.mem_rtakeWhile_imp hc, by
      rw [trim, List.append_assoc, List.rdropWhile_append_rtakeWhile,
        List.takeWhile_append_dropWhile]⟩

/-- Blanks at the ends are not seen. -/
theorem trim_blank_append_blank (hx : Blank p x) (hy : Blank p y) :
    trim p (x ++ text ++ y) = trim p text := by
  have hdrop : ∀ text : Text, trim p (text ++ y) = trim p text := by
    intro text
    by_cases hblank : Blank p text
    · rw [trim_eq_nil_iff.2 hblank, trim_eq_nil_iff.2 (hblank.append hy)]
    · have hleft : text.dropWhile p ≠ [] := by
        intro hnil
        refine hblank (trim_eq_nil_iff.1 ?_)
        rw [trim, hnil]
        rfl
      rw [trim, List.dropWhile_append, if_neg (by simpa using hleft), rdropWhile_append_blank hy,
        trim]
  rw [List.append_assoc, trim, dropWhile_blank_append hx]
  exact hdrop text

theorem trim_eq_trim (hx : Blank p x) (hy : Blank p y) (hs : Blank p s) (ht : Blank p t)
    (h : x ++ a ++ y = s ++ b ++ t) : trim p a = trim p b := by
  rw [← trim_blank_append_blank hx hy, h, trim_blank_append_blank hs ht]

theorem weight_trim (p : Char → Bool) (text : Text) : weight p (trim p text) = weight p text := by
  obtain ⟨front, back, hfront, hback, htext⟩ := exists_trim p text
  have h := congrArg (weight p) htext
  rw [weight_append, weight_append, weight_eq_zero_iff.2 hfront, weight_eq_zero_iff.2 hback] at h
  omega

theorem length_trim_le (p : Char → Bool) (text : Text) : (trim p text).length ≤ text.length :=
  (Nat.le_add_left ..).trans (leading_add_length_trim_le p text)

/-- Trimming that takes nothing off. -/
theorem trim_eq_self_of_length (h : text.length ≤ (trim p text).length) : trim p text = text := by
  obtain ⟨front, back, -, -, htext⟩ := exists_trim p text
  have hlength := congrArg List.length htext
  rw [List.length_append, List.length_append] at hlength
  have hfront : front = [] := List.length_eq_zero_iff.1 (by omega)
  have hback : back = [] := List.length_eq_zero_iff.1 (by omega)
  rw [hfront, hback, List.append_nil, List.nil_append] at htext
  exact htext.symm

/-! ## Words -/

theorem solid_trim (h : ¬Blank p text) : Solid p (trim p text) := by
  have hne : trim p text ≠ [] := fun hnil => h (trim_eq_nil_iff.1 hnil)
  have hfirst : (trim p text).dropWhile p = trim p text := by
    refine List.dropWhile_eq_self_iff.2 fun hpos => ?_
    have hprefixed : trim p text <+: text.dropWhile p := List.rdropWhile_prefix p _
    rw [hprefixed.getElem hpos]
    exact List.dropWhile_get_zero_not p text _
  constructor
  · refine ⟨(trim p text).head hne, List.head?_eq_some_head hne, ?_⟩
    have hpos : 0 < (trim p text).length := List.length_pos_iff.2 hne
    have h := List.dropWhile_eq_self_iff.1 hfirst hpos
    rw [List.head_eq_getElem]
    simpa using h
  · refine ⟨(trim p text).getLast hne, List.getLast?_eq_some_getLast hne, ?_⟩
    exact Bool.eq_false_iff.2 (List.rdropWhile_last_not p (text.dropWhile p) hne)

theorem trim_eq_self (h : Solid p text) : trim p text = text := by
  obtain ⟨⟨c, hfirst, hc⟩, d, hlast, hd⟩ := h
  have hdrop : text.dropWhile p = text := by
    obtain ⟨rest, rfl⟩ := List.head?_eq_some_iff.1 hfirst
    exact List.dropWhile_cons_of_neg (by simp [hc])
  obtain ⟨front, rfl⟩ := List.getLast?_eq_some_iff.1 hlast
  rw [trim, hdrop, List.rdropWhile_concat_neg _ _ _ (by simp [hd])]

theorem Solid.not_blank (h : Solid p text) : ¬Blank p text := by
  obtain ⟨⟨c, hc, hp⟩, -⟩ := h
  intro hblank
  rw [hblank c (List.mem_of_mem_head? hc)] at hp
  cases hp

/-- A start of a word ends with no blank when its last character is none. -/
theorem trim_take_eq_iff (h : Solid p text) (n : Nat) :
    trim p (text.take (n + 1)) = text.take (n + 1) ↔ ∀ c ∈ text[n]?, p c = false := by
  cases hlast : text[n]? with
  | none =>
    have hlength := List.getElem?_eq_none_iff.1 hlast
    rw [List.take_of_length_le (by omega)]
    exact iff_of_true (trim_eq_self h) (by simp)
  | some c =>
    have htake : text.take (n + 1) = text.take n ++ [c] := by rw [List.take_add_one, hlast]; rfl
    obtain ⟨⟨d, hd, hfirst⟩, -⟩ := h
    obtain ⟨rest, rfl⟩ := List.head?_eq_some_iff.1 hd
    constructor
    · intro htrim e he
      obtain rfl := Option.some.inj he
      have hsolid := @solid_trim p ((d :: rest).take (n + 1)) fun hblank => by
        rw [hblank d (by simp)] at hfirst
        cases hfirst
      rw [htrim] at hsolid
      obtain ⟨-, e, he, hend⟩ := hsolid
      rw [htake, List.getLast?_concat] at he
      rw [Option.some.inj he]
      exact hend
    · intro hend
      refine trim_eq_self ⟨⟨d, by simp, hfirst⟩, c, ?_, hend c rfl⟩
      rw [htake, List.getLast?_concat]
      rfl

/-- A word behind blanks is found by its weight. -/
theorem solid_unique (hx : Blank p x) (hy : Blank p y) (ha : Solid p a) (hb : Solid p b)
    (hweight : weight p a = weight p b) (h : x ++ (a ++ s) = y ++ (b ++ t)) :
    x = y ∧ a = b ∧ s = t := by
  have hfront : ∀ {x a s : Text}, Blank p x → Solid p a → (x ++ (a ++ s)).takeWhile p = x := by
    rintro x (_ | ⟨c, a⟩) s hx ⟨⟨d, hd, hp⟩, -⟩
    · cases hd
    · obtain rfl := Option.some.inj hd
      rw [List.takeWhile_append_of_pos hx, List.cons_append,
        List.takeWhile_cons_of_neg (by simp [hp]), List.append_nil]
  obtain rfl : x = y := (hfront hx ha).symm.trans ((congrArg _ h).trans (hfront hy hb))
  have htail := List.append_cancel_left h
  -- what one word has more is of no weight, and it ends with a character that is no blank
  have hshort : ∀ {a b e : Text}, Solid p b → weight p a = weight p b → b = a ++ e → e = [] := by
    rintro a b e hb hweight rfl
    rw [weight_append] at hweight
    have hblank : Blank p e := weight_eq_zero_iff.1 (by omega)
    rcases List.eq_nil_or_concat e with rfl | ⟨e, c, rfl⟩
    · rfl
    · obtain ⟨-, d, hd, hp⟩ := hb
      rw [List.concat_eq_append, ← List.append_assoc, List.getLast?_concat] at hd
      obtain rfl := Option.some.inj hd
      rw [hblank c (by simp)] at hp
      cases hp
  rcases List.append_eq_append_iff.1 htail with ⟨e, he, hs⟩ | ⟨e, he, ht⟩
  · obtain rfl := hshort hb hweight he
    exact ⟨rfl, by rw [he, List.append_nil], by rw [hs]; rfl⟩
  · obtain rfl := hshort ha hweight.symm he
    exact ⟨rfl, by rw [he, List.append_nil], by rw [ht]; rfl⟩

/-- What is put together from lines determines what each of them shows, when their weights are
known. -/
theorem trims_eq_of_intercalate {sep : Char} (hsep : p sep = true) {ds es : List Text}
    (h : List.Forall₂ (fun d e => ¬Blank p d ∧ ¬Blank p e ∧ weight p d = weight p e) ds es)
    (hx : Blank p x) (hy : Blank p y) (htext : x ++ [sep].intercalate ds = y ++ [sep].intercalate es) :
    ds.map (trim p) = es.map (trim p) := by
  induction h generalizing x y with
  | nil => rfl
  | @cons d e ds es hfirst hothers ih =>
    obtain ⟨hd, he, hweight⟩ := hfirst
    have hmore : ∀ (d : Text) (ds : List Text), ∃ more,
        [sep].intercalate (d :: ds) = d ++ more
          ∧ (ds ≠ [] → more = [sep] ++ [sep].intercalate ds) := by
      intro d ds
      cases ds with
      | nil => exact ⟨[], by simp, fun h => absurd rfl h⟩
      | cons c ds =>
        exact ⟨_, (List.intercalate_cons_cons ..).trans (List.append_assoc ..), fun _ => rfl⟩
    obtain ⟨more, hleft, hmoreLeft⟩ := hmore d ds
    obtain ⟨more', hright, hmoreRight⟩ := hmore e es
    obtain ⟨front, back, hfront, hback, hdsplit⟩ := exists_trim p d
    obtain ⟨front', back', hfront', hback', hesplit⟩ := exists_trim p e
    have haligned : x ++ front ++ (trim p d ++ (back ++ more))
        = y ++ front' ++ (trim p e ++ (back' ++ more')) := by
      rw [hleft, hright] at htext
      calc x ++ front ++ (trim p d ++ (back ++ more))
          = x ++ ((front ++ trim p d ++ back) ++ more) := by simp only [List.append_assoc]
        _ = y ++ ((front' ++ trim p e ++ back') ++ more') := by rw [← hdsplit, ← hesplit, htext]
        _ = _ := by simp only [List.append_assoc]
    obtain ⟨-, htrim, hrest⟩ := solid_unique (hx.append hfront) (hy.append hfront') (solid_trim hd)
      (solid_trim he) (by rw [weight_trim, weight_trim, hweight]) haligned
    rw [List.map_cons, List.map_cons, htrim]
    cases hothers with
    | nil => rfl
    | cons hsecond hothers =>
      rw [hmoreLeft (List.cons_ne_nil _ _), hmoreRight (List.cons_ne_nil _ _),
        ← List.append_assoc, ← List.append_assoc] at hrest
      have hblank : Blank p [sep] := fun c hc => by rwa [List.mem_singleton.1 hc]
      rw [ih (hback.append hblank) (hback'.append hblank) hrest]

theorem trim_dropWhile (p : Char → Bool) (text : Text) : trim p (text.dropWhile p) = trim p text :=
  trim_eq_trim (x := text.takeWhile p) (y := []) (s := []) (t := [])
    (fun _ hc => List.mem_takeWhile_imp hc) blank_nil blank_nil blank_nil (by simp)

theorem trim_rdropWhile (p : Char → Bool) (text : Text) : trim p (text.rdropWhile p) = trim p text :=
  trim_eq_trim (x := []) (y := text.rtakeWhile p) (s := []) (t := []) blank_nil
    (fun _ hc => List.mem_rtakeWhile_imp hc) blank_nil blank_nil (by simp)

theorem rdropWhile_append_of_not_blank (h : ¬Blank p b) :
    (a ++ b).rdropWhile p = a ++ b.rdropWhile p := by
  have hne : b.reverse.dropWhile p ≠ [] := by
    intro hnil
    refine h fun c hc => List.dropWhile_eq_nil_iff.1 hnil c (List.mem_reverse.2 hc)
  unfold List.rdropWhile
  rw [List.reverse_append, List.dropWhile_append, if_neg (by simpa using hne),
    List.reverse_append, List.reverse_reverse]

theorem not_blank_intercalate (sep : Text) {d : Text} {ds : List Text} (h : ¬Blank p d) :
    ¬Blank p (sep.intercalate (d :: ds)) := by
  intro hblank
  refine h fun c hc => hblank c ?_
  cases ds with
  | nil => simpa using hc
  | cons e ds =>
    rw [List.intercalate_cons_cons]
    exact List.mem_append_left _ (List.mem_append_left _ hc)

/-- Lines that are put together trim to lines that show the same. -/
theorem exists_trim_intercalate (sep : Text) {ds : List Text} (h : ∀ d ∈ ds, ¬Blank p d) :
    ∃ es, es.map (trim p) = ds.map (trim p) ∧ trim p (sep.intercalate ds) = sep.intercalate es := by
  have hright : ∀ ds : List Text, (∀ d ∈ ds, ¬Blank p d) →
      ∃ es, es.map (trim p) = ds.map (trim p)
        ∧ (sep.intercalate ds).rdropWhile p = sep.intercalate es := by
    intro ds h
    induction ds with
    | nil => exact ⟨[], rfl, rfl⟩
    | cons d ds ih =>
      cases ds with
      | nil =>
        refine ⟨[d.rdropWhile p], ?_, by simp⟩
        rw [List.map_singleton, List.map_singleton, trim_rdropWhile]
      | cons c ds =>
        obtain ⟨es, htrims, hes⟩ := ih fun e he => h e (List.mem_cons_of_mem _ he)
        have hrest : ¬Blank p (sep.intercalate (c :: ds)) :=
          not_blank_intercalate sep (h c (by simp))
        refine ⟨d :: es, by rw [List.map_cons, List.map_cons, htrims], ?_⟩
        cases es with
        | nil => cases htrims
        | cons e es =>
          rw [List.intercalate_cons_cons, List.intercalate_cons_cons, ← hes,
            rdropWhile_append_of_not_blank hrest]
  cases ds with
  | nil => exact ⟨[], rfl, rfl⟩
  | cons d ds =>
    have hd := h d (List.mem_cons_self ..)
    have hne : d.dropWhile p ≠ [] := fun hnil => hd (trim_eq_nil_iff.1 (by rw [trim, hnil]; rfl))
    have hleft : (sep.intercalate (d :: ds)).dropWhile p = sep.intercalate (d.dropWhile p :: ds) := by
      cases ds with
      | nil => simp
      | cons c ds =>
        rw [List.intercalate_cons_cons, List.intercalate_cons_cons, List.append_assoc,
          List.dropWhile_append, if_neg (by simpa using hne), List.append_assoc]
    have hvisible : ∀ e ∈ d.dropWhile p :: ds, ¬Blank p e := by
      intro e he
      rcases List.mem_cons.1 he with rfl | he
      · rw [← trim_eq_nil_iff, trim_dropWhile, trim_eq_nil_iff]
        exact hd
      · exact h e (List.mem_cons_of_mem _ he)
    obtain ⟨es, htrims, hes⟩ := hright _ hvisible
    refine ⟨es, ?_, by rw [trim, hleft, hes]⟩
    rw [htrims, List.map_cons, trim_dropWhile, List.map_cons]

/-! ## Words and gaps -/

/-- Words, each behind a gap, and a gap at the end. -/
def spread (words : List (Text × Text)) (last : Text) : Text :=
  words.flatMap (fun word => word.1 ++ word.2) ++ last

/-- Blanks around the words, and one `sep` between two of them. -/
def Spaced (p : Char → Bool) (sep : Char) (words : List (Text × Text)) (last : Text) : Prop :=
  (∀ word ∈ words.head?, Blank p word.1) ∧ (∀ word ∈ words.tail, word.1 = [sep]) ∧ Blank p last

theorem intercalate_eq_spread (sep : Char) (first : Text) (words : List Text) :
    [sep].intercalate (first :: words)
      = first ++ spread (words.map fun word => ([sep], word)) [] := by
  induction words generalizing first with
  | nil => simp [spread]
  | cons word words ih =>
    rw [List.intercalate_cons_cons, ih, List.append_assoc]
    simp [spread]

theorem weight_spread (words : List (Text × Text)) (last : Text) :
    weight p (spread words last) = (words.map fun word => weight p word.1).sum
      + (words.map fun word => weight p word.2).sum + weight p last := by
  induction words with
  | nil => simp [spread]
  | cons word words ih =>
    unfold spread at ih ⊢
    rw [List.flatMap_cons, List.append_assoc, weight_append, ih]
    simp
    omega

theorem rdropWhile_solid_append (h : Solid p a) : (a ++ b).rdropWhile p = a ++ b.rdropWhile p := by
  by_cases hb : Blank p b
  · obtain ⟨-, c, hc, hp⟩ := h
    obtain ⟨front, rfl⟩ := List.getLast?_eq_some_iff.1 hc
    rw [rdropWhile_append_blank hb, List.rdropWhile_concat_neg _ _ _ (by simp [hp]),
      List.rdropWhile_eq_nil_iff.2 hb, List.append_nil]
  · exact rdropWhile_append_of_not_blank hb

theorem not_blank_spread {word : Text × Text} {words : List (Text × Text)}
    (h : ¬Blank p word.2) : ¬Blank p (spread (word :: words) s) := fun hblank =>
  h fun c hc => hblank c (by simp [spread, hc])

/-- Behind the same words, the gaps are the same. -/
theorem gaps_unique {words gaps : List (Text × Text)}
    (hwords : words.map Prod.snd = gaps.map Prod.snd) (hvisible : ∀ word ∈ words, ¬Blank p word.2)
    (hblank : ∀ word ∈ words, Blank p word.1) (hblank' : ∀ word ∈ gaps, Blank p word.1)
    (h : (spread words s).rdropWhile p = (spread gaps t).rdropWhile p) : words = gaps := by
  induction words generalizing gaps with
  | nil => exact (List.map_eq_nil_iff.1 hwords.symm).symm
  | cons word words ih =>
    cases gaps with
    | nil => cases hwords
    | cons gap gaps =>
      obtain ⟨hword, hothers⟩ := List.cons.inj hwords
      obtain ⟨front, back, hfront, hback, hsplit⟩ := exists_trim p word.2
      have hfirst := hvisible word (List.mem_cons_self ..)
      have hsolid := solid_trim hfirst
      have hopen : ∀ (entry : Text × Text) (rest : List (Text × Text)) (end_ : Text),
          entry.2 = word.2 → (spread (entry :: rest) end_).rdropWhile p
            = entry.1 ++ front ++ (trim p word.2 ++ (back ++ spread rest end_).rdropWhile p) := by
        intro entry rest end_ hentry
        have hshape : spread (entry :: rest) end_
            = entry.1 ++ front ++ (trim p word.2 ++ (back ++ spread rest end_)) := by
          rw [spread, List.flatMap_cons, hentry]
          conv_lhs => rw [hsplit]
          simp [spread]
        rw [hshape, rdropWhile_append_of_not_blank, rdropWhile_solid_append hsolid]
        exact fun hall => hsolid.not_blank fun c hc => hall c (List.mem_append_left _ hc)
      rw [hopen word words s rfl, hopen gap gaps t hword.symm] at h
      obtain ⟨hgap, -, hrest⟩ := solid_unique ((hblank word (List.mem_cons_self ..)).append hfront)
        ((hblank' gap (List.mem_cons_self ..)).append hfront) hsolid hsolid rfl h
      suffices hmore : words = gaps by
        rw [hmore, Prod.ext (List.append_cancel_right hgap) hword]
      cases words with
      | nil => exact (List.map_eq_nil_iff.1 hothers.symm).symm
      | cons second words =>
        cases gaps with
        | nil => cases hothers
        | cons second' gaps =>
          have hsecond := hvisible second (by simp)
          have hsecond' : ¬Blank p second'.2 := by
            rw [← (List.cons.inj hothers).1]
            exact hsecond
          rw [rdropWhile_append_of_not_blank (not_blank_spread hsecond),
            rdropWhile_append_of_not_blank (not_blank_spread hsecond')] at hrest
          exact ih hothers (fun w hw => hvisible w (List.mem_cons_of_mem _ hw))
            (fun w hw => hblank w (List.mem_cons_of_mem _ hw))
            (fun w hw => hblank' w (List.mem_cons_of_mem _ hw)) (List.append_cancel_left hrest)

theorem trim_spread {word : Text × Text} {words : List (Text × Text)} {last : Text}
    (hgap : Blank p word.1) (hword : ¬Blank p word.2) :
    trim p (spread (word :: words) last)
      = (spread (([], word.2.dropWhile p) :: words) last).rdropWhile p := by
  have hne : word.2.dropWhile p ≠ [] := fun hnil =>
    hword (trim_eq_nil_iff.1 (by rw [trim, hnil]; rfl))
  have hshape : ∀ first : Text × Text,
      spread (first :: words) last = first.1 ++ (first.2 ++ spread words last) := by
    intro first
    simp [spread]
  rw [trim, hshape, hshape, dropWhile_blank_append hgap, List.dropWhile_append,
    if_neg (by simpa using hne)]
  rfl

/-- **Words show up to blanks what was put between them**: joined by a blank they show the text
exactly when one was between any two of them. -/
theorem trim_spread_eq_iff {sep : Char} (hsep : p sep = true) {words : List (Text × Text)}
    {last : Text} (hvisible : ∀ word ∈ words, ¬Blank p word.2) :
    trim p ([sep].intercalate (words.map Prod.snd)) = trim p (spread words last)
      ↔ Spaced p sep words last := by
  have hblank : Blank p [sep] := fun c hc => by rwa [List.mem_singleton.1 hc]
  cases words with
  | nil =>
    have hnil : trim p ([sep].intercalate ([] : List Text)) = [] := rfl
    rw [List.map_nil, hnil, eq_comm, trim_eq_nil_iff]
    simp [spread, Spaced]
  | cons first words =>
    have hjoined : [sep].intercalate ((first :: words).map Prod.snd)
        = spread (([], first.2) :: words.map fun word => ([sep], word.2)) [] := by
      rw [List.map_cons, intercalate_eq_spread, List.map_map]
      simp [spread, Function.comp_def]
    rw [hjoined]
    constructor
    · intro h
      have hweight := congrArg (weight p) h
      rw [weight_trim, weight_trim, weight_spread, weight_spread] at hweight
      simp only [List.map_cons, List.map_map, List.sum_cons, Function.comp_def,
        weight_eq_zero_iff.2 hblank, weight_eq_zero_iff.2 blank_nil] at hweight
      -- the gaps have no weight
      have hgaps : ∀ n ∈ words.map fun word => weight p word.1, n = 0 :=
        List.sum_eq_zero_iff_forall_eq_nat.1 (by simp at hweight; omega)
      have hfirst : Blank p first.1 := weight_eq_zero_iff.1 (by simp at hweight; omega)
      have hlast : Blank p last := weight_eq_zero_iff.1 (by simp at hweight; omega)
      have hmore : ∀ word ∈ words, Blank p word.1 := fun word hword =>
        weight_eq_zero_iff.1 (hgaps _ (List.mem_map_of_mem hword))
      have hword := hvisible first (List.mem_cons_self ..)
      have hleft : trim p (spread (([], first.2) :: words.map fun word => ([sep], word.2)) [])
          = (spread (([], first.2.dropWhile p) :: words.map fun word => ([sep], word.2))
              []).rdropWhile p := trim_spread blank_nil hword
      rw [hleft, trim_spread hfirst hword] at h
      have hdropped : ¬Blank p (first.2.dropWhile p) := by
        rw [← trim_eq_nil_iff, trim_dropWhile, trim_eq_nil_iff]
        exact hword
      have hsnds : (words.map fun word => ([sep], word.2)).map Prod.snd = words.map Prod.snd := by
        rw [List.map_map]
        rfl
      have hall : ∀ word ∈ words.map fun word => ([sep], word.2),
          ¬Blank p word.2 ∧ Blank p word.1 := by
        intro word hmem
        obtain ⟨other, hother, rfl⟩ := List.mem_map.1 hmem
        exact ⟨hvisible other (List.mem_cons_of_mem _ hother), hblank⟩
      have hsame := gaps_unique (by rw [List.map_cons, List.map_cons, hsnds])
        (List.forall_mem_cons.2 ⟨hdropped, fun word hmem => (hall word hmem).1⟩)
        (List.forall_mem_cons.2 ⟨blank_nil, fun word hmem => (hall word hmem).2⟩)
        (List.forall_mem_cons.2 ⟨blank_nil, hmore⟩) h
      refine ⟨fun word hhead => by rwa [← Option.some.inj hhead], fun word hmem => ?_, hlast⟩
      rw [List.tail_cons, ← (List.cons.inj hsame).2] at hmem
      obtain ⟨other, -, rfl⟩ := List.mem_map.1 hmem
      rfl
    · rintro ⟨hfirst, hwords, hlast⟩
      have hmap : (words.map fun word => ([sep], word.2)) = words := by
        refine (List.map_congr_left fun word hword => ?_).trans (List.map_id _)
        exact Prod.ext (hwords word hword).symm rfl
      rw [hmap]
      refine trim_eq_trim (x := first.1) (y := last) (s := []) (t := [])
        (hfirst first rfl) hlast blank_nil blank_nil ?_
      simp [spread]

end Blanks

end Texts
