import Zemo.Search.Chunking

set_option autoImplicit false

/-! # The segments of a text

Whatever structure is found in a text, its segments have all characters of it in their order, up to
whitespace and the headers of sheets, and no more characters than the text. -/

namespace Zemo.Search.Chunking

open Texts

variable {text : Text} {segments : List TextSegment}

/-- The characters that are not whitespace. -/
def visible (text : Text) : Text := text.filter fun c => !isWhiteSpace c

@[simp] theorem visible_nil : visible [] = [] := rfl

@[simp] theorem visible_append (a b : Text) : visible (a ++ b) = visible a ++ visible b :=
  List.filter_append ..

theorem visible_cons (c : Char) (text : Text) :
    visible (c :: text) = visible [c] ++ visible text :=
  visible_append [c] text

theorem visible_newline : visible ['\n'] = [] := rfl

theorem visible_return : visible ['\r'] = [] := rfl

/-- Blank text has nothing visible. -/
theorem visible_eq_nil : visible text = [] ↔ isBlank text = true := by
  rw [visible, List.filter_eq_nil_iff, isBlank, List.all_eq_true]
  simp

theorem visible_dropWhile (text : Text) : visible (text.dropWhile isWhiteSpace) = visible text := by
  induction text with
  | nil => rfl
  | cons c rest ih =>
    rw [List.dropWhile_cons]
    split
    · next hc =>
      have hblank : visible [c] = [] := visible_eq_nil.2 (by simpa [isBlank] using hc)
      rw [ih, visible_cons c rest, hblank, List.nil_append]
    · rfl

theorem visible_reverse (text : Text) : visible text.reverse = (visible text).reverse :=
  List.filter_reverse

/-- Trimming takes nothing visible. -/
@[simp] theorem visible_trimText (text : Text) : visible (trimText text) = visible text := by
  rw [trimText, trim, List.rdropWhile, visible_reverse, visible_dropWhile, visible_reverse,
    List.reverse_reverse, visible_dropWhile]

theorem visible_flatMap (parts : List Text) : visible parts.flatten = parts.flatMap visible := by
  induction parts with
  | nil => rfl
  | cons part rest ih => rw [List.flatten_cons, visible_append, ih, List.flatMap_cons]

/-! ## Parts -/

/-- Between separators there is everything else. -/
theorem flatten_splitOn (c : Char) (text : Text) :
    (text.splitOn c).flatten = text.filter (· ≠ c) := by
  rw [List.splitOn_eq_splitOnP, flatten_splitOnP]
  exact List.filter_congr fun d _ => by rw [Bool.eq_iff_iff]; simp

theorem length_splitOn (c : Char) (text : Text) :
    (text.splitOn c).flatten.length + (text.splitOn c).length = text.length + 1 := by
  induction text with
  | nil => rfl
  | cons d rest ih =>
    rw [List.splitOn, List.splitOnP_cons_eq_if_modifyHead, ← List.splitOn]
    split
    · rw [List.flatten_cons, List.nil_append, List.length_cons, List.length_cons]
      omega
    · cases hsplit : rest.splitOn c with
      | nil => exact absurd hsplit (List.splitOnP_ne_nil _ _)
      | cons first others =>
        rw [hsplit] at ih
        simp only [List.modifyHead_cons, List.flatten_cons, List.length_append,
          List.length_cons] at ih ⊢
        omega

theorem visible_splitOn {c : Char} (hc : isWhiteSpace c = true) (text : Text) :
    (text.splitOn c).flatMap visible = visible text := by
  rw [← visible_flatMap, flatten_splitOn, visible, List.filter_filter]
  refine List.filter_congr fun d _ => ?_
  by_cases hd : d = c
  · rw [hd, hc]
    rfl
  · simp [hd]

theorem splitEmptyLines_ne_nil (text : Text) : splitEmptyLines text ≠ [] := by
  induction text using splitEmptyLines.induct with
  | case1 => exact List.cons_ne_nil _ _
  | case2 rest ih =>
    rw [splitEmptyLines]
    exact List.cons_ne_nil _ _
  | case3 c rest hlines ih =>
    rw [splitEmptyLines.eq_3 _ _ hlines, List.modifyHead_eq_nil_iff.ne]
    exact ih

/-- Nothing visible is lost at empty lines. -/
theorem splitEmptyLines_spec (text : Text) :
    (splitEmptyLines text).flatMap visible = visible text
      ∧ (splitEmptyLines text).flatten.length ≤ text.length := by
  induction text using splitEmptyLines.induct with
  | case1 => exact ⟨rfl, le_rfl⟩
  | case2 rest ih =>
    rw [splitEmptyLines, List.flatMap_cons, List.flatten_cons, visible_nil, List.nil_append,
      List.nil_append, visible_cons, visible_cons _ rest, visible_newline, List.nil_append,
      List.nil_append]
    exact ⟨ih.1, ih.2.trans (by simp only [List.length_cons]; omega)⟩
  | case3 c rest hlines ih =>
    rw [splitEmptyLines.eq_3 _ _ hlines, visible_cons]
    cases hsplit : splitEmptyLines rest with
    | nil => exact absurd hsplit (splitEmptyLines_ne_nil rest)
    | cons first others =>
      rw [hsplit] at ih
      rw [List.modifyHead_cons, List.flatMap_cons, visible_cons, List.append_assoc,
        ← List.flatMap_cons, ih.1, List.flatten_cons, List.cons_append, List.length_cons,
        List.length_cons, ← List.flatten_cons]
      exact ⟨rfl, Nat.succ_le_succ ih.2⟩

/-! ## Lines -/

/-- A line without its carriage return. -/
theorem line_spec (line : Text) :
    visible (if line.getLast? = some '\r' then line.dropLast else line) = visible line
      ∧ (if line.getLast? = some '\r' then line.dropLast else line).length ≤ line.length := by
  split
  · next hlast =>
    obtain ⟨front, rfl⟩ := List.getLast?_eq_some_iff.1 hlast
    rw [List.dropLast_concat, visible_append, visible_return, List.append_nil]
    exact ⟨rfl, by simp⟩
  · exact ⟨rfl, le_rfl⟩

theorem line_specs (parts : List Text) :
    (parts.map fun line => if line.getLast? = some '\r' then line.dropLast else line).flatMap visible
        = parts.flatMap visible
      ∧ (parts.map fun line =>
        if line.getLast? = some '\r' then line.dropLast else line).flatten.length
        ≤ parts.flatten.length := by
  induction parts with
  | nil => exact ⟨rfl, le_rfl⟩
  | cons line rest ih =>
    obtain ⟨hvisible, hlength⟩ := line_spec line
    simp only [List.map_cons, List.flatMap_cons, List.flatten_cons, List.length_append]
    exact ⟨by rw [hvisible, ih.1], Nat.add_le_add hlength ih.2⟩

/-- The lines have everything visible, and with a newline for each are at most as long as the text
and a last newline. -/
theorem lines_spec (text : Text) :
    (Extraction.lines text).flatMap visible = visible text
      ∧ (Extraction.lines text).flatten.length + (Extraction.lines text).length
        ≤ text.length + 1 := by
  have hvisible := visible_splitOn (c := '\n') rfl text
  have hlength := length_splitOn '\n' text
  unfold Extraction.lines
  dsimp only
  obtain hnil | ⟨front, last, hparts⟩ := (text.splitOn '\n').eq_nil_or_concat
  · exact absurd hnil (List.splitOnP_ne_nil _ _)
  · obtain ⟨hfront, hfront'⟩ := line_specs front
    rw [hparts, List.concat_eq_append] at hvisible hlength ⊢
    simp only [List.flatMap_append, List.flatten_append, List.length_append, List.flatMap_singleton,
      List.flatten_singleton, List.length_singleton] at hvisible hlength
    rw [List.dropLast_concat, List.getLast?_concat]
    split
    · next hlast =>
      obtain rfl : last = [] := by simpa using hlast
      rw [visible_nil, List.append_nil] at hvisible
      rw [hfront, List.length_map]
      exact ⟨hvisible, (Nat.add_le_add_right hfront' _).trans
        (by rw [List.length_nil] at hlength; omega)⟩
    · next hlast => cases hlast
    · next other _ hlast =>
      obtain rfl := Option.some.inj hlast
      simp only [List.flatMap_append, List.flatten_append, List.length_append,
        List.flatMap_singleton, List.flatten_singleton, List.length_singleton, List.length_map]
      rw [hfront]
      exact ⟨hvisible, (Nat.add_le_add_right (Nat.add_le_add_right hfront' _) _).trans
        (by omega)⟩

/-! ## Segments -/

/-- The lines that are not headers. -/
def bodyLines (text : Text) : List Text := (Extraction.lines text).filter (sheetHeader · = none)

/-- The text is read as sheets or slides. -/
def readsSheets (text : Text) : Prop :=
  isBlank text = false ∧ '\x0c' ∉ text ∧ hasHeader text = true
    ∧ sheetSegments (Extraction.lines text) none [] ≠ []

instance (text : Text) : Decidable (readsSheets text) :=
  inferInstanceAs (Decidable (_ ∧ _ ∧ _ ∧ _))

/-- What the segments of a text are to have: everything visible but the headers. -/
def bodyText (text : Text) : Text := if readsSheets text then (bodyLines text).flatten else text

/-- The texts of the segments, one after the other. -/
def joinedText (segments : List TextSegment) : Text := segments.flatMap (·.text)

theorem isBlank_eq_false_iff : isBlank text = false ↔ visible text ≠ [] := by
  rw [Ne, visible_eq_nil, Bool.not_eq_true]

theorem trimText_eq_nil : trimText text = [] ↔ isBlank text = true := by
  constructor
  · intro h
    rw [← visible_eq_nil, ← visible_trimText, h, visible_nil]
  · intro h
    by_contra hne
    -- the last character of a trimmed text is visible
    have hlast := List.rdropWhile_last_not isWhiteSpace (text.dropWhile isWhiteSpace) hne
    have hmem : (trimText text).getLast hne ∈ text :=
      (List.dropWhile_sublist _).mem ((List.rdropWhile_prefix _ _).sublist.mem
        (List.getLast_mem hne))
    rw [isBlank, List.all_eq_true] at h
    exact hlast (h _ hmem)

/-- Segments with all of a text, each with something visible. -/
structure SegmentsOf (segments : List TextSegment) (body : Text) (length : Nat) : Prop where
  visible_eq : visible (joinedText segments) = visible body
  length_le : (joinedText segments).length ≤ length
  not_blank : ∀ segment ∈ segments, isBlank segment.text = false

/-- The parts that are not blank, trimmed. -/
theorem segmentsOf_parts {α : Type} (parts : List α) (textOf : α → Text)
    (segmentOf : α → TextSegment) (hsegment : ∀ part, (segmentOf part).text = trimText (textOf part)) :
    SegmentsOf (parts.filterMap fun part =>
        if trimText (textOf part) = [] then none else some (segmentOf part))
      (parts.flatMap textOf) (parts.flatMap textOf).length := by
  induction parts with
  | nil => exact ⟨rfl, le_rfl, List.forall_mem_nil _⟩
  | cons part rest ih =>
    by_cases hblank : trimText (textOf part) = []
    · have hvisible := visible_trimText (textOf part)
      rw [hblank, visible_nil] at hvisible
      rw [List.filterMap_cons, if_pos hblank, List.flatMap_cons, List.length_append]
      refine ⟨?_, ih.length_le.trans (Nat.le_add_left _ _), ih.not_blank⟩
      rw [ih.visible_eq, visible_append, ← hvisible, List.nil_append]
    · rw [List.filterMap_cons, if_neg hblank, List.flatMap_cons, List.length_append]
      have hjoined : ∀ segments : List TextSegment, joinedText (segmentOf part :: segments)
          = trimText (textOf part) ++ joinedText segments := by
        intro segments
        rw [joinedText, List.flatMap_cons, hsegment]
        rfl
      refine ⟨?_, ?_, List.forall_mem_cons.2 ⟨?_, ih.not_blank⟩⟩
      · rw [hjoined, visible_append, visible_append, visible_trimText, ih.visible_eq]
      · rw [hjoined, List.length_append]
        have htrim := leading_add_length_trim_le isWhiteSpace (textOf part)
        have := ih.length_le
        rw [trimText]
        omega
      · rw [hsegment, isBlank_eq_false_iff, visible_trimText, ← isBlank_eq_false_iff]
        exact Bool.eq_false_iff.2 fun h => hblank (trimText_eq_nil.2 h)

theorem SegmentsOf.mono {body body' : Text} {length length' : Nat}
    (h : SegmentsOf segments body length) (hbody : visible body = visible body')
    (hlength : length ≤ length') : SegmentsOf segments body' length' :=
  ⟨h.visible_eq.trans hbody, h.length_le.trans hlength, h.not_blank⟩

theorem segmentsOf_pages (text : Text) : SegmentsOf (pageSegments text) text text.length := by
  have hflat : (text.splitOn '\x0c').zipIdx.flatMap Prod.fst = (text.splitOn '\x0c').flatten := by
    rw [List.flatMap_def, List.zipIdx_map_fst]
  refine (segmentsOf_parts (text.splitOn '\x0c').zipIdx Prod.fst (fun part =>
    { text := trimText part.1, pageNumber := some (min (part.2 + 1) u32Max),
      sheetOrSlide := none }) fun _ => rfl).mono ?_ ?_
  · rw [hflat, visible_flatMap]
    exact visible_splitOn (c := '\x0c') rfl text
  · rw [hflat, flatten_splitOn]
    exact List.length_filter_le _ _

theorem paragraphs_eq (text : Text) : paragraphs text
    = (splitEmptyLines text).filterMap fun part => if trimText part = [] then none
      else some { text := trimText part, pageNumber := none, sheetOrSlide := none } := by
  unfold paragraphs
  induction splitEmptyLines text with
  | nil => rfl
  | cons part rest ih =>
    by_cases hblank : trimText part = []
    · rw [List.filterMap_cons, if_pos hblank, List.map_cons,
        List.filter_cons_of_neg (by simpa using hblank)]
      exact ih
    · rw [List.filterMap_cons, if_neg hblank, List.map_cons,
        List.filter_cons_of_pos (by simpa using hblank), List.map_cons]
      exact congrArg _ ih

theorem segmentsOf_paragraphs (text : Text) : SegmentsOf (paragraphs text) text text.length := by
  obtain ⟨hvisible, hlength⟩ := splitEmptyLines_spec text
  rw [paragraphs_eq]
  refine (segmentsOf_parts (splitEmptyLines text) id (fun part =>
    { text := trimText part, pageNumber := none, sheetOrSlide := none }) fun _ => rfl).mono ?_ ?_
  · rw [List.flatMap_id, visible_flatMap, hvisible]
  · rw [List.flatMap_id]
    exact hlength

theorem segmentsOf_plain (h : isBlank text = false) :
    SegmentsOf (plainSegments text) text text.length := by
  unfold plainSegments
  split
  · exact segmentsOf_paragraphs text
  · refine ⟨?_, ?_, List.forall_mem_singleton.2 h⟩
    · rw [joinedText, List.flatMap_singleton]
    · rw [joinedText, List.flatMap_singleton]

/-- A buffer ends with a newline, unless it is empty. -/
def Buffer (buffer : Text) : Prop := buffer = [] ∨ ∃ front, buffer = front ++ ['\n']

/-- The text of a segment is shorter than the buffer. -/
theorem Buffer.trim_lt {buffer : Text} (h : Buffer buffer) (hblank : isBlank buffer = false) :
    (trimText buffer).length + 1 ≤ buffer.length := by
  rcases h with rfl | ⟨front, rfl⟩
  · cases hblank
  · have hdrop : (front ++ ['\n']).dropWhile isWhiteSpace
        = front.dropWhile isWhiteSpace ++ ['\n'] := by
      rw [List.dropWhile_append, if_neg]
      intro hempty
      have hvisible : visible (front ++ ['\n']) = [] := by
        rw [visible_append, visible_newline, List.append_nil, ← visible_dropWhile,
          List.isEmpty_iff.1 hempty, visible_nil]
      exact isBlank_eq_false_iff.1 hblank hvisible
    have htrim := (List.rdropWhile_prefix isWhiteSpace (front.dropWhile isWhiteSpace)).length_le
    have hle := (List.dropWhile_sublist isWhiteSpace (l := front)).length_le
    rw [trimText, trim, hdrop, List.rdropWhile_concat_pos _ _ _ rfl, List.length_append,
      List.length_singleton]
    omega

theorem sheetSegments_visible (lines : List Text) (name : Option Text) (buffer : Text) :
    visible (joinedText (sheetSegments lines name buffer))
        = visible buffer ++ (lines.filter (sheetHeader · = none)).flatMap visible
      ∧ ∀ segment ∈ sheetSegments lines name buffer, isBlank segment.text = false := by
  have htrim : ∀ {buffer : Text}, isBlank buffer = false → isBlank (trimText buffer) = false := by
    intro buffer h
    rwa [isBlank_eq_false_iff, visible_trimText, ← isBlank_eq_false_iff]
  induction lines generalizing name buffer with
  | nil =>
    rw [sheetSegments]
    cases hblank : isBlank buffer with
    | true => exact ⟨by simp [joinedText, visible_eq_nil.2 hblank], List.forall_mem_nil _⟩
    | false => exact ⟨by simp [joinedText], List.forall_mem_singleton.2 (htrim hblank)⟩
  | cons line rest ih =>
    rw [sheetSegments]
    cases hheader : sheetHeader line with
    | some header =>
      rw [List.filter_cons_of_neg (by simp [hheader])]
      dsimp only
      cases hblank : isBlank buffer with
      | true =>
        obtain ⟨hvisible, hrest⟩ := ih (some (boundedChars (trimText header) 80)) buffer
        rw [if_pos rfl]
        exact ⟨hvisible, hrest⟩
      | false =>
        obtain ⟨hvisible, hrest⟩ := ih (some (boundedChars (trimText header) 80)) []
        rw [if_neg Bool.noConfusion]
        refine ⟨?_, List.forall_mem_cons.2 ⟨htrim hblank, hrest⟩⟩
        rw [joinedText, List.flatMap_cons, visible_append, visible_trimText, ← joinedText, hvisible,
          visible_nil, List.nil_append]
    | none =>
      obtain ⟨hvisible, hrest⟩ := ih name (buffer ++ line ++ ['\n'])
      rw [List.filter_cons_of_pos (by simp [hheader]), List.flatMap_cons]
      refine ⟨?_, hrest⟩
      rw [hvisible, visible_append, visible_append, visible_newline, List.append_nil,
        List.append_assoc]

/-- The segments are shorter than the lines with their newlines. -/
theorem sheetSegments_length (lines : List Text) (name : Option Text) {buffer : Text}
    (hbuffer : Buffer buffer) :
    (joinedText (sheetSegments lines name buffer)).length
      ≤ buffer.length + lines.flatten.length + lines.length - 1 := by
  induction lines generalizing name buffer with
  | nil =>
    rw [sheetSegments]
    cases hblank : isBlank buffer with
    | true => exact Nat.zero_le _
    | false =>
      have := hbuffer.trim_lt hblank
      rw [if_neg Bool.noConfusion, joinedText, List.flatMap_singleton]
      simp only [List.flatten_nil, List.length_nil]
      omega
  | cons line rest ih =>
    rw [sheetSegments, List.flatten_cons, List.length_append, List.length_cons]
    cases hheader : sheetHeader line with
    | some header =>
      dsimp only
      cases hblank : isBlank buffer with
      | true =>
        have := ih (some (boundedChars (trimText header) 80)) hbuffer
        rw [if_pos rfl]
        omega
      | false =>
        have := ih (some (boundedChars (trimText header) 80)) (.inl rfl)
        have hlt := hbuffer.trim_lt hblank
        rw [List.length_nil] at this
        rw [if_neg Bool.noConfusion, joinedText, List.flatMap_cons, List.length_append, ← joinedText]
        dsimp only
        omega
    | none =>
      have := ih name (.inr ⟨buffer ++ line, rfl⟩)
      simp only [List.length_append, List.length_singleton] at this
      dsimp only
      omega

theorem segmentsOf_sheets (text : Text) :
    SegmentsOf (sheetSegments (Extraction.lines text) none []) (bodyLines text).flatten
      text.length := by
  obtain ⟨hvisible, hblank⟩ := sheetSegments_visible (Extraction.lines text) none []
  have hlength := sheetSegments_length (Extraction.lines text) none (.inl rfl)
  have hlines := (lines_spec text).2
  rw [List.length_nil] at hlength
  refine ⟨?_, by omega, hblank⟩
  rw [hvisible, visible_nil, List.nil_append, visible_flatMap]
  rfl

/-- **Segments keep the text**: they have everything visible but the headers of sheets, in order, and
no more characters than the text. -/
theorem structureAwareSegments_of (text : Text) :
    SegmentsOf (structureAwareSegments text) (bodyText text) text.length := by
  unfold structureAwareSegments bodyText
  by_cases hblank : isBlank text = true
  · have hsheets : ¬ readsSheets text := fun h => by rw [h.1] at hblank; cases hblank
    rw [if_pos hblank, if_neg hsheets]
    exact ⟨(visible_eq_nil.2 hblank).symm, Nat.zero_le _, List.forall_mem_nil _⟩
  · rw [if_neg hblank]
    by_cases hpage : '\x0c' ∈ text
    · have hsheets : ¬ readsSheets text := fun h => h.2.1 hpage
      rw [if_pos hpage, if_neg hsheets]
      exact segmentsOf_pages text
    · rw [if_neg hpage]
      by_cases hsheet : hasHeader text = true ∧ sheetSegments (Extraction.lines text) none [] ≠ []
      · have hsheets : readsSheets text := ⟨Bool.eq_false_iff.2 hblank, hpage, hsheet⟩
        rw [if_pos hsheet, if_pos hsheets]
        exact segmentsOf_sheets text
      · have hsheets : ¬ readsSheets text := fun h => hsheet h.2.2
        rw [if_neg hsheet, if_neg hsheets]
        exact segmentsOf_plain (Bool.eq_false_iff.2 hblank)

end Zemo.Search.Chunking
