import Zemo.Lib.Texts
import Zemo.Organizer.Depths

set_option autoImplicit false

/-! # Machine names that are names

What the cleaning leaves of an input begins like a name and has no character and no ending that a name
may not have. Only the cut to the limit of units comes after it, and what the cut leaves may end in a
space or a dot, or be a device name. -/

namespace Zemo

open Organizer Checked

/-! ## Names -/

/-- A character Windows drops at the end of a name. -/
def isDropped (c : Char) : Bool := c = ' ' || c = '.'

/-- A character the cleaning drops at the end of an input. -/
def isTrimmed (c : Char) : Bool := isWhiteSpace c || c = '.'

/-- The text begins like a name and has only characters a name may have. -/
structure Begun (text : List Char) : Prop where
  starts : ∀ c, text.head? = some c → isWhiteSpace c = false
  allowed : ∀ c ∈ text, isWindowsInvalid c = false ∧ c ≠ '/' ∧ c ≠ '\\'

/-- The text is not empty, does not end in a bad character and is no device name. -/
structure KeepsName (bad : Char → Bool) (text : List Char) : Prop where
  nonempty : text ≠ []
  ends : ∀ c, text.getLast? = some c → bad c = false
  free : isReservedWindowsName text = false

variable {bad : Char → Bool} {kept more text : List Char}

theorem KeepsName.dropped (h : KeepsName isTrimmed text) : KeepsName isDropped text := by
  refine ⟨h.nonempty, fun c hc => ?_, h.free⟩
  have htrimmed := h.ends c hc
  rw [isTrimmed, Bool.or_eq_false_iff] at htrimmed
  rw [isDropped, Bool.or_eq_false_iff]
  refine ⟨?_, htrimmed.2⟩
  rw [decide_eq_false_iff_not]
  rintro rfl
  exact absurd htrimmed.1 (by decide)

theorem Begun.of_begins (h : Begun text) (hbegins : kept <+: text) : Begun kept := by
  obtain ⟨rest, rfl⟩ := hbegins
  refine ⟨fun c hc => h.starts c ?_, fun c hc => h.allowed c (List.mem_append_left _ hc)⟩
  rw [List.head?_append, hc, Option.some_or]

theorem Begun.no_colon (h : Begun text) : ':' ∉ text := fun hmem => by
  have hinvalid := (h.allowed ':' hmem).1
  revert hinvalid
  decide

theorem Begun.no_drive (h : Begun text) : hasDrivePrefix text = false := by
  unfold hasDrivePrefix
  split
  · exact absurd (by simp) h.no_colon
  · rfl

/-! ## Device names -/

theorem rdropWhile_cons {α : Type} {p : α → Bool} {a : α} (l : List α) (h : p a = false) :
    (a :: l).rdropWhile p = a :: l.rdropWhile p := by
  induction l using List.reverseRecOn with
  | nil => simp [h]
  | append_singleton l b ih =>
      rw [← List.cons_append]
      by_cases hb : p b = true
      · rw [List.rdropWhile_concat_pos _ _ _ hb, List.rdropWhile_concat_pos _ _ _ hb, ih]
      · rw [List.rdropWhile_concat_neg _ _ _ hb, List.rdropWhile_concat_neg _ _ _ hb,
          List.cons_append]

/-- No device name begins with an underscore. -/
theorem isReservedWindowsName_underscore (text : List Char) :
    isReservedWindowsName ('_' :: text) = false := by
  unfold isReservedWindowsName
  rw [List.takeWhile_cons_of_pos (by decide), rdropWhile_cons _ (by decide), List.map_cons]
  generalize ((text.takeWhile _).rdropWhile _).map Char.toUpper = stem
  simp [List.isPrefixOf]

/-- What follows a dot does not make a name a device name or not. -/
theorem isReservedWindowsName_ending (stem ending : List Char) :
    isReservedWindowsName (stem ++ '.' :: ending) = isReservedWindowsName stem := by
  have htake : (stem ++ '.' :: ending).takeWhile (· ≠ '.') = stem.takeWhile (· ≠ '.') := by
    induction stem with
    | nil => simp
    | cons c stem ih =>
        rw [List.cons_append, List.takeWhile_cons, List.takeWhile_cons, ih]
  unfold isReservedWindowsName
  rw [htake]

/-! ## Validation -/

/-- A text that begins like a name and fits is a name if it ends like one. -/
theorem validateComponent_iff {limit : Nat} {value : String} (hbegun : Begun value.toList)
    (hfits : utf16Count value ≤ limit) :
    validateComponent value limit = .ok () ↔ KeepsName isDropped value.toList := by
  have hlast : value.toList.getLast? ≠ some ' ' ∧ value.toList.getLast? ≠ some '.' ↔
      ∀ c, value.toList.getLast? = some c → isDropped c = false := by
    cases value.toList.getLast? with
    | none => simp
    | some c => simp [isDropped]
  have hallowed : ¬value.toList.any isWindowsInvalid ∧ '/' ∉ value.toList ∧
      '\\' ∉ value.toList := by
    refine ⟨?_, fun h => (hbegun.allowed _ h).2.1 rfl, fun h => (hbegun.allowed _ h).2.2 rfl⟩
    rw [List.any_eq_true]
    rintro ⟨c, hc, hinvalid⟩
    rw [(hbegun.allowed c hc).1] at hinvalid
    cases hinvalid
  have hempty : ¬value.toList.all isWhiteSpace ↔ value.toList ≠ [] := by
    cases hchars : value.toList with
    | nil => simp
    | cons c rest => simp [hbegun.starts c (by rw [hchars]; rfl)]
  simp only [validateComponent, test_bind_eq_ok, require_eq_ok, hbegun.no_drive, hempty]
  constructor
  · rintro ⟨hne, -, -, ⟨-, hends⟩, hfree, -⟩
    exact ⟨hne, hlast.1 hends, hfree⟩
  · rintro ⟨hne, hends, hfree⟩
    refine ⟨hne, ⟨?_, ?_, hallowed.2⟩, trivial, ⟨hallowed.1, hlast.2 hends⟩, hfree, hfits⟩
    · rintro rfl
      exact absurd (hends '.' rfl) (by decide)
    · rintro rfl
      exact absurd (hends '.' rfl) (by decide)

/-! ## Replacing -/

theorem replaceInvalid_allowed (previous : Bool) (text : List Char) :
    ∀ c ∈ replaceInvalid previous text, isWindowsInvalid c = false ∧ c ≠ '/' ∧ c ≠ '\\' := by
  induction text generalizing previous with
  | nil => simp [replaceInvalid]
  | cons c rest ih =>
      rw [replaceInvalid]
      split
      · split
        · exact ih true
        · exact List.forall_mem_cons.2 ⟨by decide, ih true⟩
      · rename_i hvalid
        refine List.forall_mem_cons.2 ⟨?_, ih false⟩
        simpa [not_or, and_assoc] using hvalid

theorem replaceInvalid_eq_self (previous : Bool)
    (h : ∀ c ∈ text, isWindowsInvalid c = false ∧ c ≠ '/' ∧ c ≠ '\\') :
    replaceInvalid previous text = text := by
  induction text generalizing previous with
  | nil => rfl
  | cons c rest ih =>
      obtain ⟨⟨hinvalid, hslash, hbackslash⟩, hrest⟩ := List.forall_mem_cons.1 h
      rw [replaceInvalid, if_neg (by simp [hinvalid, hslash, hbackslash]), ih false hrest]

theorem replaceInvalid_starts (h : ∀ c, text.head? = some c → isWhiteSpace c = false) :
    ∀ c, (replaceInvalid false text).head? = some c → isWhiteSpace c = false := by
  cases text with
  | nil => simp [replaceInvalid]
  | cons c rest =>
      rw [replaceInvalid]
      split
      · intro first hfirst
        obtain rfl : '_' = first := by simpa using hfirst
        decide
      · intro first hfirst
        obtain rfl : c = first := by simpa using hfirst
        exact h c rfl

/-! ## Cleaning -/

/-- An input without what is dropped at its ends, and with invalid runs replaced. -/
def strippedName (input : String) : List Char :=
  (replaceInvalid false (trimChars input.toList)).rdropWhile isDropped

/-- The same, or the name for an input nothing is left of. -/
def plainName (input : String) : List Char :=
  if strippedName input = [] then "Unclassified".toList else strippedName input

theorem rdropWhile_ends {p : Char → Bool} :
    ∀ c, (text.rdropWhile p).getLast? = some c → p c = false := by
  intro c hc
  have hne : text.rdropWhile p ≠ [] := by
    intro hnil
    rw [hnil] at hc
    cases hc
  rw [List.getLast?_eq_some_getLast hne] at hc
  have hlast := List.rdropWhile_last_not p text hne
  rw [Option.some.inj hc] at hlast
  simpa using hlast

theorem trimChars_starts : ∀ c, (trimChars text).head? = some c → isWhiteSpace c = false := by
  intro c hc
  have hbegins : trimChars text <+: text.dropWhile isWhiteSpace := List.rdropWhile_prefix _ _
  obtain ⟨rest, hrest⟩ := hbegins
  have hhead : (text.dropWhile isWhiteSpace).head? = some c := by
    rw [← hrest, List.head?_append, hc, Option.some_or]
  have hnot := List.head?_dropWhile_not isWhiteSpace text
  rw [hhead] at hnot
  exact hnot

theorem strippedName_begun (input : String) : Begun (strippedName input) :=
  Begun.of_begins ⟨replaceInvalid_starts trimChars_starts, replaceInvalid_allowed false _⟩
    (List.rdropWhile_prefix _ _)

theorem plainName_begun (input : String) : Begun (plainName input) := by
  unfold plainName
  split
  · refine ⟨fun c hc => ?_, fun c hc => ?_⟩
    · obtain rfl : 'U' = c := Option.some.inj hc
      decide
    · exact replaceInvalid_allowed false "Unclassified".toList c
        (by rwa [show replaceInvalid false "Unclassified".toList = "Unclassified".toList by decide])
  · exact strippedName_begun input

theorem plainName_ends (input : String) :
    plainName input ≠ [] ∧ ∀ c, (plainName input).getLast? = some c → isDropped c = false := by
  unfold plainName
  split
  · refine ⟨by decide, fun c hc => ?_⟩
    obtain rfl : 'd' = c := Option.some.inj hc
    decide
  · rename_i hne
    exact ⟨hne, rdropWhile_ends⟩

/-- The cleaning in two steps: no drive is ever left to be replaced. -/
theorem cleanComponent_eq (input : String) : cleanComponent input =
    if isReservedWindowsName (plainName input) then '_' :: plainName input
    else plainName input := by
  have hends : ∀ c, (strippedName input).getLast? = some c → isDropped c = false := rdropWhile_ends
  have hplain : (if strippedName input = [] ∨ strippedName input = ['.'] ∨
      strippedName input = ['.', '.'] then "Unclassified".toList else strippedName input) =
      plainName input := by
    have hdot (front : List Char) (h : strippedName input = front ++ ['.']) : False := by
      have hlast := hends '.' (by rw [h, List.getLast?_concat])
      revert hlast
      decide
    rw [plainName]
    by_cases hnil : strippedName input = []
    · rw [if_pos hnil, if_pos (.inl hnil)]
    · rw [if_neg hnil, if_neg]
      rintro (h | h | h)
      · exact hnil h
      · exact hdot [] h
      · exact hdot ['.'] h
  have hunfold : cleanComponent input =
      (let output := if strippedName input = [] ∨ strippedName input = ['.'] ∨
          strippedName input = ['.', '.'] then "Unclassified".toList else strippedName input
       let output := if hasDrivePrefix output then output.set 1 '_' else output
       if isReservedWindowsName output then '_' :: output else output) := rfl
  rw [hunfold, hplain]
  dsimp only
  rw [(plainName_begun input).no_drive, if_neg Bool.false_ne_true]

theorem cleanComponent_begun (input : String) : Begun (cleanComponent input) := by
  have hplain := plainName_begun input
  rw [cleanComponent_eq]
  split
  · refine ⟨fun c hc => ?_, List.forall_mem_cons.2 ⟨by decide, hplain.allowed⟩⟩
    obtain rfl : '_' = c := Option.some.inj hc
    decide
  · exact hplain

/-- What the cleaning leaves is a name. -/
theorem cleanComponent_keepsName (input : String) : KeepsName isDropped (cleanComponent input) := by
  obtain ⟨hne, hends⟩ := plainName_ends input
  rw [cleanComponent_eq]
  split
  · refine ⟨List.cons_ne_nil _ _, fun c hc => hends c ?_, isReservedWindowsName_underscore _⟩
    rwa [List.getLast?_cons_of_ne_nil hne] at hc
  · rename_i hfree
    exact ⟨hne, hends, by simpa using hfree⟩

theorem rdropWhile_eq_self {p : Char → Bool} (h : ∀ c, text.getLast? = some c → p c = false) :
    text.rdropWhile p = text := by
  rw [List.rdropWhile_eq_self_iff]
  intro hne hlast
  rw [h _ (List.getLast?_eq_some_getLast hne)] at hlast
  cases hlast

/-- An input that begins and ends in no whitespace is not trimmed. -/
theorem trimChars_eq_self (hbegun : Begun text) (hkeeps : KeepsName isTrimmed text) :
    trimChars text = text := by
  obtain ⟨first, rest, rfl⟩ := List.exists_cons_of_ne_nil hkeeps.nonempty
  refine Texts.trim_eq_self ⟨⟨first, rfl, hbegun.starts first rfl⟩, _,
    List.getLast?_eq_some_getLast hkeeps.nonempty, ?_⟩
  have htrimmed := hkeeps.ends _ (List.getLast?_eq_some_getLast hkeeps.nonempty)
  rw [isTrimmed, Bool.or_eq_false_iff] at htrimmed
  exact htrimmed.1

/-- A name that is marked as a device name is not what was cleaned: the mark was not there. -/
theorem not_reserved_of_marked {value : String} (hbegun : Begun value.toList)
    (h : '_' :: plainName value = value.toList) :
    isReservedWindowsName (plainName value) = false := by
  have hbegins : strippedName value <+: value.toList := by
    have hdrop : value.toList.dropWhile isWhiteSpace = value.toList := by
      rw [← h] at hbegun ⊢
      rw [List.dropWhile_cons_of_neg (by simp [hbegun.starts '_' rfl])]
    have htrim : trimChars value.toList <+: value.toList := by
      rw [trimChars, hdrop]
      exact List.rdropWhile_prefix _ _
    rw [strippedName, replaceInvalid_eq_self]
    · exact (List.rdropWhile_prefix _ _).trans htrim
    · exact fun c hc => hbegun.allowed c (Texts.mem_of_mem_trim hc)
  unfold plainName at h ⊢
  split at h
  · rename_i hnil
    rw [if_pos hnil]
    decide
  · rename_i hne
    rw [if_neg hne]
    obtain ⟨first, rest, hcons⟩ := List.exists_cons_of_ne_nil hne
    obtain ⟨more, hmore⟩ := hbegins
    rw [hcons] at h hmore ⊢
    rw [← h] at hmore
    obtain rfl : first = '_' := (List.cons.inj hmore).1
    exact isReservedWindowsName_underscore rest

/-- A text that begins like a name is left alone by the cleaning exactly when it is a name and does
    not end in whitespace. -/
theorem cleanComponent_eq_self_iff {value : String} (hbegun : Begun value.toList)
    (hne : value.toList ≠ []) :
    cleanComponent value = value.toList ↔ KeepsName isTrimmed value.toList := by
  have hstripped : strippedName value = (trimChars value.toList).rdropWhile isDropped := by
    rw [strippedName, replaceInvalid_eq_self]
    exact fun c hc => hbegun.allowed c (Texts.mem_of_mem_trim hc)
  constructor
  · intro hclean
    have hplain : plainName value = value.toList := by
      rw [cleanComponent_eq] at hclean
      split at hclean
      · rename_i hreserved
        exact absurd hreserved (by simp [not_reserved_of_marked hbegun hclean])
      · exact hclean
    have hkeeps := cleanComponent_keepsName value
    rw [hclean] at hkeeps
    refine ⟨hne, fun c hc => ?_, hkeeps.free⟩
    unfold plainName at hplain
    split at hplain
    · rw [← hplain] at hc
      obtain rfl : 'd' = c := Option.some.inj hc
      decide
    · -- nothing can have been trimmed
      have hlength : value.toList.length ≤ (trimChars value.toList).length := by
        have hle := (List.rdropWhile_prefix isDropped (trimChars value.toList)).length_le
        rwa [← hstripped, hplain] at hle
      have htrim : trimChars value.toList = value.toList := Texts.trim_eq_self_of_length hlength
      have hblank : isWhiteSpace c = false := rdropWhile_ends c (by
        change (trimChars value.toList).getLast? = some c
        rw [htrim]
        exact hc)
      have hdropped := hkeeps.ends c hc
      rw [isDropped, Bool.or_eq_false_iff] at hdropped
      rw [isTrimmed, hblank, hdropped.2, Bool.or_false]
  · intro hkeeps
    have hplain : plainName value = value.toList := by
      rw [plainName, hstripped, trimChars_eq_self hbegun hkeeps,
        rdropWhile_eq_self hkeeps.dropped.ends, if_neg hne]
    rw [cleanComponent_eq, hplain, hkeeps.free, if_neg Bool.false_ne_true]

/-! ## Cutting -/

/-- The number of UTF-16 units of a text. -/
def utf16Length (text : List Char) : Nat := (text.map utf16Units).sum

/-- The longest beginning of a name that is not longer than a limit. -/
structure Beginning (name : List Char) (limit : Nat) (kept : List Char) : Prop where
  begins : kept <+: name
  fits : utf16Length kept ≤ limit
  longest : ∀ more, more <+: name → utf16Length more ≤ limit → more.length ≤ kept.length

/-- What a cut at a limit keeps of a text is a name. -/
def GoodCut (bad : Char → Bool) (limit : Nat) (name : List Char) : Prop :=
  ∀ kept, Beginning name limit kept → KeepsName bad kept

variable {name : List Char} {limit : Nat}

@[simp] theorem utf16Length_cons (c : Char) (text : List Char) :
    utf16Length (c :: text) = utf16Units c + utf16Length text := by simp [utf16Length]

@[simp] theorem utf16Length_append (text more : List Char) :
    utf16Length (text ++ more) = utf16Length text + utf16Length more := by simp [utf16Length]

theorem utf16Length_le_of_begins (h : kept <+: text) : utf16Length kept ≤ utf16Length text := by
  obtain ⟨rest, rfl⟩ := h
  rw [utf16Length_append]
  omega

theorem utf16Count_eq (value : String) : utf16Count value = utf16Length value.toList := rfl

theorem beginning_truncateChars (name : List Char) (limit : Nat) :
    Beginning name limit (truncateChars limit name) := by
  induction name generalizing limit with
  | nil => exact ⟨List.prefix_rfl, Nat.zero_le _, fun more hmore _ => hmore.length_le⟩
  | cons c rest ih =>
      rw [truncateChars]
      split
      · rename_i hunits
        obtain ⟨hbegins, hfits, hlongest⟩ := ih (limit - utf16Units c)
        refine ⟨(List.prefix_cons_inj c).2 hbegins, by rw [utf16Length_cons]; omega,
          fun more hmore hlength => ?_⟩
        cases more with
        | nil => exact Nat.zero_le _
        | cons d more =>
            obtain ⟨rfl, htail⟩ := List.cons_prefix_cons.1 hmore
            rw [utf16Length_cons] at hlength
            exact Nat.succ_le_succ (hlongest more htail (by omega))
      · rename_i hunits
        refine ⟨List.nil_prefix, Nat.zero_le _, fun more hmore hlength => ?_⟩
        cases more with
        | nil => exact Nat.le_refl _
        | cons d more =>
            obtain ⟨rfl, -⟩ := List.cons_prefix_cons.1 hmore
            rw [utf16Length_cons] at hlength
            omega

theorem Beginning.eq (h : Beginning name limit kept) : kept = truncateChars limit name := by
  obtain ⟨hbegins, hfits, hlongest⟩ := beginning_truncateChars name limit
  have hle := hlongest kept h.begins h.fits
  have hge := h.longest _ hbegins hfits
  exact (List.prefix_of_prefix_length_le h.begins hbegins hle).eq_of_length
    (Nat.le_antisymm hle hge)

theorem goodCut_iff : GoodCut bad limit name ↔ KeepsName bad (truncateChars limit name) :=
  ⟨fun h => h _ (beginning_truncateChars name limit), fun h _ hkept => hkept.eq ▸ h⟩

/-- A text that fits is not cut. -/
theorem truncateChars_eq_self (h : utf16Length name ≤ limit) : truncateChars limit name = name := by
  obtain ⟨hbegins, -, hlongest⟩ := beginning_truncateChars name limit
  exact hbegins.eq_of_length_le (hlongest name List.prefix_rfl h)

/-- Of two cuts the shorter one decides. -/
theorem truncateChars_truncateChars (first second : Nat) (name : List Char) :
    truncateChars second (truncateChars first name) = truncateChars (min second first) name := by
  obtain ⟨hbegins, hfits, hlongest⟩ := beginning_truncateChars name first
  obtain ⟨hbegins', hfits', hlongest'⟩ := beginning_truncateChars (truncateChars first name) second
  refine Beginning.eq ⟨hbegins'.trans hbegins,
    Nat.le_min.2 ⟨hfits', (utf16Length_le_of_begins hbegins').trans hfits⟩,
    fun more hmore hlength => ?_⟩
  have hboth := Nat.le_min.1 hlength
  exact hlongest' more (List.prefix_of_prefix_length_le hmore hbegins (hlongest more hmore hboth.2))
    hboth.1

/-! ## File names -/

theorem rsplitOnce_some {separator : Char} {value front back : String}
    (h : rsplitOnce separator value = some (front, back)) :
    value.toList = front.toList ++ separator :: back.toList := by
  unfold rsplitOnce at h
  dsimp only at h
  split at h
  · rename_i hmem
    obtain ⟨rfl, rfl⟩ := Prod.mk.inj (Option.some.inj h)
    have hne : value.toList.rdropWhile (· ≠ separator) ≠ [] := by
      rw [ne_eq, List.rdropWhile_eq_nil_iff]
      intro hall
      simpa using hall separator hmem
    have hlast : (value.toList.rdropWhile (· ≠ separator)).getLast hne = separator := by
      simpa using List.rdropWhile_last_not (· ≠ separator) value.toList hne
    have hfront := List.dropLast_append_getLast hne
    rw [hlast] at hfront
    rw [String.toList_ofList, String.toList_ofList, List.append_cons, hfront,
      List.rdropWhile_append_rtakeWhile]
  · cases h

theorem splitExtension_some {filename stem ending : String}
    (h : splitExtension filename = (stem, some ending)) :
    filename.toList = stem.toList ++ '.' :: ending.toList ∧ ending.toList ≠ [] := by
  unfold splitExtension at h
  split at h
  · cases h
  · rename_i front back hsplit
    split at h
    · cases h
    · rename_i hends
      obtain ⟨rfl, hback⟩ := Prod.mk.inj h
      obtain rfl := Option.some.inj hback
      refine ⟨rsplitOnce_some hsplit, fun hnil => hends (.inr (.inl ?_))⟩
      rwa [String.toList_eq_nil_iff] at hnil

/-- The ending a cut to a limit keeps, with what is before its dot. -/
def keptEnding (limit : Nat) (name : String) : Option (String × String) :=
  match splitExtension name with
  | (_, none) => none
  | (stem, some ending) =>
      if limit ≤ utf16Count ending + 1 then none else some (stem, ending)

theorem keptEnding_some {filename stem ending : String}
    (h : keptEnding limit filename = some (stem, ending)) :
    filename.toList = stem.toList ++ '.' :: ending.toList ∧ ending.toList ≠ [] ∧
      utf16Count ending + 1 < limit := by
  unfold keptEnding at h
  split at h
  · cases h
  · rename_i front back hsplit
    split at h
    · cases h
    · rename_i hlimit
      obtain ⟨rfl, rfl⟩ := Prod.mk.inj (Option.some.inj h)
      obtain ⟨hname, hne⟩ := splitExtension_some hsplit
      exact ⟨hname, hne, Nat.lt_of_not_le hlimit⟩

theorem truncateFilename_of_fits {filename : String} (h : utf16Count filename ≤ limit) :
    truncateFilenamePreservingExtension filename limit = filename := by
  rw [truncateFilenamePreservingExtension, if_pos h]

theorem truncateFilename_of_none {filename : String} (hlong : limit < utf16Count filename)
    (h : keptEnding limit filename = none) :
    truncateFilenamePreservingExtension filename limit = truncateUtf16 filename limit := by
  rw [truncateFilenamePreservingExtension, if_neg (Nat.not_le_of_lt hlong)]
  unfold keptEnding at h
  split
  · rfl
  · rename_i hsplit
    rw [hsplit] at h
    dsimp only at h ⊢
    split at h
    · rename_i hlimit
      rw [if_pos hlimit]
    · cases h

theorem truncateFilename_of_some {filename stem ending : String}
    (hlong : limit < utf16Count filename) (h : keptEnding limit filename = some (stem, ending)) :
    (truncateFilenamePreservingExtension filename limit).toList =
      truncateChars (limit - (utf16Count ending + 1)) stem.toList ++ '.' :: ending.toList := by
  rw [truncateFilenamePreservingExtension, if_neg (Nat.not_le_of_lt hlong)]
  unfold keptEnding at h
  split
  · rename_i hsplit
    rw [hsplit] at h
    cases h
  · rename_i front back hsplit
    rw [hsplit] at h
    dsimp only at h ⊢
    split at h
    · cases h
    · rename_i hlimit
      obtain ⟨rfl, rfl⟩ := Prod.mk.inj (Option.some.inj h)
      rw [if_neg hlimit, String.toList_append, String.toList_append, truncateUtf16,
        String.toList_ofList, List.append_assoc]
      rfl

/-- What a cut at a limit keeps of a file name, with its ending when there is room for it, is a
    name. -/
structure GoodFilenameCut (bad : Char → Bool) (limit : Nat) (filename : String) : Prop where
  whole : utf16Count filename ≤ limit → KeepsName bad filename.toList
  plain : limit < utf16Count filename → keptEnding limit filename = none →
    GoodCut bad limit filename.toList
  ending : limit < utf16Count filename → ∀ stem ending,
    keptEnding limit filename = some (stem, ending) →
      (∀ c, filename.toList.getLast? = some c → bad c = false) ∧
      ∀ kept, Beginning stem.toList (limit - (utf16Count ending + 1)) kept →
        isReservedWindowsName kept = false

/-- What is known of a value after it is cut. -/
structure CutTo (limit : Nat) (value : String) : Prop where
  begun : Begun value.toList
  fits : utf16Count value ≤ limit

theorem truncateUtf16_cutTo {filename : String} (h : Begun filename.toList) (limit : Nat) :
    CutTo limit (truncateUtf16 filename limit) := by
  obtain ⟨hbegins, hfits, -⟩ := beginning_truncateChars filename.toList limit
  exact ⟨by rw [truncateUtf16, String.toList_ofList]; exact h.of_begins hbegins,
    by rw [utf16Count_eq, truncateUtf16, String.toList_ofList]; exact hfits⟩

theorem truncateFilename_cutTo {filename : String} (h : Begun filename.toList) (limit : Nat) :
    CutTo limit (truncateFilenamePreservingExtension filename limit) := by
  by_cases hfits : utf16Count filename ≤ limit
  · rw [truncateFilename_of_fits hfits]
    exact ⟨h, hfits⟩
  · have hlong := Nat.lt_of_not_le hfits
    cases hkept : keptEnding limit filename with
    | none =>
        rw [truncateFilename_of_none hlong hkept]
        exact truncateUtf16_cutTo h limit
    | some parts =>
        obtain ⟨stem, ending⟩ := parts
        obtain ⟨hname, -, hlimit⟩ := keptEnding_some hkept
        have hvalue := truncateFilename_of_some hlong hkept
        obtain ⟨hbegins, hstem, -⟩ :=
          beginning_truncateChars stem.toList (limit - (utf16Count ending + 1))
        rw [hname] at h
        refine ⟨⟨fun c hc => ?_, fun c hc => ?_⟩, ?_⟩
        · rw [hvalue] at hc
          rw [List.head?_append] at hc
          cases hfirst : (truncateChars (limit - (utf16Count ending + 1)) stem.toList).head? with
          | none =>
              rw [hfirst] at hc
              obtain rfl : '.' = c := Option.some.inj hc
              decide
          | some first =>
              rw [hfirst] at hc
              obtain rfl : first = c := Option.some.inj hc
              exact (h.of_begins (List.prefix_append ..)).of_begins hbegins |>.starts first hfirst
        · rw [hvalue] at hc
          refine h.allowed c ?_
          rcases List.mem_append.1 hc with hc | hc
          · exact List.mem_append_left _ (hbegins.subset hc)
          · exact List.mem_append_right _ hc
        · have hdot : utf16Units '.' = 1 := by decide
          rw [utf16Count_eq, hvalue, utf16Length_append, utf16Length_cons, hdot]
          rw [utf16Count_eq] at hstem hlimit ⊢
          omega

theorem keepsName_truncateFilename {filename : String} :
    KeepsName bad (truncateFilenamePreservingExtension filename limit).toList ↔
      GoodFilenameCut bad limit filename := by
  by_cases hfits : utf16Count filename ≤ limit
  · rw [truncateFilename_of_fits hfits]
    exact ⟨fun h => ⟨fun _ => h, fun hlong => absurd hfits (Nat.not_le_of_lt hlong),
      fun hlong => absurd hfits (Nat.not_le_of_lt hlong)⟩, fun h => h.whole hfits⟩
  · have hlong := Nat.lt_of_not_le hfits
    cases hkept : keptEnding limit filename with
    | none =>
        rw [truncateFilename_of_none hlong hkept, truncateUtf16, String.toList_ofList,
          ← goodCut_iff]
        refine ⟨fun h => ⟨fun h => absurd h hfits, fun _ _ => h, fun _ _ _ hsome => ?_⟩,
          fun h => h.plain hlong hkept⟩
        rw [hkept] at hsome
        cases hsome
    | some parts =>
        obtain ⟨stem, ending⟩ := parts
        obtain ⟨hname, hne, -⟩ := keptEnding_some hkept
        rw [truncateFilename_of_some hlong hkept]
        have hlast (front : List Char) :
            (front ++ '.' :: ending.toList).getLast? = ending.toList.getLast? := by
          rw [List.getLast?_append_of_ne_nil _ (List.cons_ne_nil _ _),
            List.getLast?_cons_of_ne_nil hne]
        constructor
        · intro h
          refine ⟨fun h => absurd h hfits, fun _ hnone => ?_, fun _ stem' ending' hsome => ?_⟩
          · rw [hkept] at hnone
            cases hnone
          · rw [hkept] at hsome
            cases hsome
            refine ⟨fun c hc => h.ends c ?_, fun kept hbeginning => ?_⟩
            · rw [hname, hlast] at hc
              rwa [hlast]
            · rw [hbeginning.eq, ← isReservedWindowsName_ending _ ending.toList]
              exact h.free
        · intro h
          obtain ⟨hends, hfree⟩ := h.ending hlong stem ending hkept
          refine ⟨by simp, fun c hc => hends c ?_, ?_⟩
          · rw [hlast] at hc
            rwa [hname, hlast]
          · rw [isReservedWindowsName_ending]
            exact hfree _ (beginning_truncateChars _ _)

/-! ## Sanitizers -/

/-- The value of a sanitizer is a name, and is left alone by the sanitizer. -/
structure MachineNamed (limit : Nat) (preserveExtension : Bool) (input : String) : Prop where
  valid : validateComponent (sanitizeComponent input limit preserveExtension).value limit = .ok ()
  stable : sanitizeComponent (sanitizeComponent input limit preserveExtension).value limit
    preserveExtension = ⟨(sanitizeComponent input limit preserveExtension).value, false⟩

/-- A text cut to a limit, as a file name or not. -/
def cutName (limit : Nat) (preserveExtension : Bool) (name : String) : String :=
  if preserveExtension then truncateFilenamePreservingExtension name limit
  else truncateUtf16 name limit

theorem sanitizeComponent_eq (input : String) (limit : Nat) (preserveExtension : Bool) :
    sanitizeComponent input limit preserveExtension =
      { value := cutName limit preserveExtension (String.ofList (cleanComponent input))
        changed := cutName limit preserveExtension (String.ofList (cleanComponent input)) ≠ input ||
          cutName limit preserveExtension (String.ofList (cleanComponent input)) ≠
            String.ofList (cleanComponent input) } := rfl

theorem cutName_of_fits {value : String} (preserveExtension : Bool) (h : utf16Count value ≤ limit) :
    cutName limit preserveExtension value = value := by
  unfold cutName
  split
  · exact truncateFilename_of_fits h
  · rw [truncateUtf16, truncateChars_eq_self h, String.ofList_toList]

theorem cutName_cutTo {value : String} (preserveExtension : Bool) (h : Begun value.toList)
    (limit : Nat) : CutTo limit (cutName limit preserveExtension value) := by
  unfold cutName
  split
  · exact truncateFilename_cutTo h limit
  · exact truncateUtf16_cutTo h limit

theorem sanitizeComponent_cutTo (input : String) (limit : Nat) (preserveExtension : Bool) :
    CutTo limit (sanitizeComponent input limit preserveExtension).value := by
  refine cutName_cutTo preserveExtension ?_ limit
  rw [String.toList_ofList]
  exact cleanComponent_begun input

/-- A value that fits is left alone by the sanitizer exactly when the cleaning leaves it alone. -/
theorem sanitizeComponent_stable_iff {value : String} (preserveExtension : Bool)
    (hfits : utf16Count value ≤ limit) :
    sanitizeComponent value limit preserveExtension = ⟨value, false⟩ ↔
      cleanComponent value = value.toList := by
  rw [sanitizeComponent_eq, SanitizedValue.mk.injEq]
  constructor
  · rintro ⟨hvalue, hchanged⟩
    simp only [hvalue, ne_eq, not_true_eq_false, decide_false, Bool.false_or, decide_not,
      Bool.not_eq_false', decide_eq_true_eq] at hchanged
    have hclean := congrArg String.toList hchanged
    rw [String.toList_ofList] at hclean
    exact hclean.symm
  · intro hclean
    rw [hclean, String.ofList_toList, cutName_of_fits preserveExtension hfits]
    simp

theorem machineNamed_iff (input : String) (limit : Nat) (preserveExtension : Bool) :
    MachineNamed limit preserveExtension input ↔
      KeepsName isTrimmed (sanitizeComponent input limit preserveExtension).value.toList := by
  have hcut := sanitizeComponent_cutTo input limit preserveExtension
  have hvalid := validateComponent_iff hcut.begun hcut.fits
  have hstable := sanitizeComponent_stable_iff preserveExtension hcut.fits
  constructor
  · intro h
    have hne := (hvalid.1 h.valid).nonempty
    exact (cleanComponent_eq_self_iff hcut.begun hne).1 (hstable.1 h.stable)
  · intro hkeeps
    exact ⟨hvalid.2 hkeeps.dropped,
      hstable.2 ((cleanComponent_eq_self_iff hcut.begun hkeeps.nonempty).2 hkeeps)⟩

theorem machineNamed_segment_iff (input : String) (limit : Nat) :
    MachineNamed limit false input ↔ GoodCut isTrimmed limit (cleanComponent input) := by
  rw [machineNamed_iff, goodCut_iff, sanitizeComponent_eq, cutName, if_neg Bool.false_ne_true,
    truncateUtf16, String.toList_ofList, String.toList_ofList]

theorem machineNamed_filename_iff (input : String) (limit : Nat) :
    MachineNamed limit true input ↔
      GoodFilenameCut isTrimmed limit (String.ofList (cleanComponent input)) := by
  rw [machineNamed_iff, ← keepsName_truncateFilename, sanitizeComponent_eq, cutName, if_pos rfl]

end Zemo
