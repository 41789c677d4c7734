import Zemo.Extraction.Markup

set_option autoImplicit false

/-! # Cells of a worksheet

A worksheet as it is written in XML, with its shared strings, and what `parse_worksheet` reads of it.
The cell limit is kept, and cells come in order. A cell is shown as it is displayed unless part of
its text is a reference or a blank at an end, a self-closed shared string moved the ones behind it
up, or a self-closed formula was not seen. -/

namespace Zemo.Extraction

/-! ## The parts -/

/-- A shared string: `<si/>`, or its text runs. -/
inductive SharedItem where
  | selfClosed
  | runs (texts : List Markup)

def SharedItem.text : SharedItem → Text
  | .selfClosed => []
  | .runs texts => texts.flatMap Markup.text

/-- A formula: `<f/>`, or its text. -/
inductive Formula where
  | selfClosed
  | body (text : Markup)

inductive CellContent where
  /-- A cell without content: `<c/>` or `<c></c>`. -/
  | empty (selfClosed : Bool)
  | literal (cellType : Option Text) (value : Markup)
      (plain : cellType ≠ some ['s'] ∧ cellType ≠ some ['b'])
  | boolean (value : Bool)
  | inlineString (texts : List Markup)
  | shared (index : Nat)
  | formula (cellType : Option Text) (written : Formula) (cached : Markup)

/-- A cell, with the attributes it has beside its type. -/
structure Cell where
  content : CellContent
  attributes : List (Bytes × Text)
  untyped : ∀ entry ∈ attributes, localName entry.1 ≠ ascii "t"

abbrev Rows := List (List Cell)

/-! ## What is displayed -/

/-- A text that is shown. -/
def shownText (text : Text) : Option Text := if text = [] then none else some text

/-- What a cell displays, unless it is empty or a formula. -/
def Cell.displayed (items : List SharedItem) (cell : Cell) : Option Text :=
  match cell.content with
  | .empty _ => none
  | .literal _ value _ => shownText value.text
  | .boolean value => some (if value then "TRUE" else "FALSE").toList
  | .inlineString texts => shownText (texts.flatMap Markup.text)
  | .shared index => (items[index]?).bind fun item => shownText item.text
  | .formula _ _ _ => none

/-! ## The events -/

section Events

-- the names of the elements, with the prefix they have in the part
variable (tag : String → Bytes)

/-- The prefix leaves the local names. -/
def Tags : Prop :=
  ∀ name ∈ ["sst", "si", "r", "t", "worksheet", "sheetData", "row", "c", "v", "is", "f"],
    localName (tag name) = ascii name

/-- The events of a run. -/
def runEvents (trims : Bool) (run : Markup) : List XmlEvent :=
  .start (tag "r") [] :: .start (tag "t") [] :: (run.events trims
    ++ [.close (tag "t"), .close (tag "r")])

def SharedItem.events : SharedItem → List XmlEvent
  | .selfClosed => [.empty (tag "si") []]
  | .runs texts => .start (tag "si") [] :: (texts.flatMap (runEvents tag false)
      ++ [.close (tag "si")])

/-- The events of the shared strings. -/
def sharedEvents (items : List SharedItem) : List XmlEvent :=
  .start (tag "sst") [] :: (items.flatMap (SharedItem.events tag) ++ [.close (tag "sst")])

/-- A value of a cell. -/
def valueEvents (text : List XmlEvent) : List XmlEvent :=
  .start (tag "v") [] :: (text ++ [.close (tag "v")])

def Formula.events : Formula → List XmlEvent
  | .selfClosed => [.empty (tag "f") []]
  | .body text => .start (tag "f") [] :: (text.events true ++ [.close (tag "f")])

/-- The type of a cell, as its attribute says. -/
def CellContent.cellType : CellContent → Option Text
  | .empty _ => none
  | .literal cellType _ _ => cellType
  | .boolean _ => some ['b']
  | .inlineString _ => some "inlineStr".toList
  | .shared _ => some ['s']
  | .formula cellType _ _ => cellType

/-- The events inside a cell. -/
def CellContent.events : CellContent → List XmlEvent
  | .empty _ => []
  | .literal _ value _ => valueEvents tag (value.events true)
  | .boolean value => valueEvents tag [.text (some [if value then '1' else '0'])]
  | .inlineString texts =>
      .start (tag "is") [] :: (texts.flatMap (runEvents tag true) ++ [.close (tag "is")])
  | .shared index => valueEvents tag [.text (some (Nat.toDigits 10 index))]
  | .formula _ written cached =>
      written.events tag ++ valueEvents tag (cached.events true)

/-- The attributes of a cell. -/
def Cell.allAttributes (cell : Cell) : List (Bytes × Text) :=
  cell.attributes ++ cell.content.cellType.toList.map fun cellType => (ascii "t", cellType)

/-- The cell has no closing tag. -/
def CellContent.isClosed : CellContent → Bool
  | .empty selfClosed => selfClosed
  | .literal _ _ _ | .boolean _ | .inlineString _ | .shared _ | .formula _ _ _ => false

def Cell.events (cell : Cell) : List XmlEvent :=
  if cell.content.isClosed then [.empty (tag "c") cell.allAttributes]
  else .start (tag "c") cell.allAttributes :: (cell.content.events tag ++ [.close (tag "c")])

/-- The events of a row. -/
def rowEvents (row : List Cell) : List XmlEvent :=
  .start (tag "row") [] :: (row.flatMap (Cell.events tag) ++ [.close (tag "row")])

/-- The events of a worksheet. -/
def worksheetEvents (rows : Rows) : List XmlEvent :=
  .start (tag "worksheet") [] :: .start (tag "sheetData") [] :: (rows.flatMap (rowEvents tag)
    ++ [.close (tag "sheetData"), .close (tag "worksheet")])

end Events

/-! ## What the loops read -/

/-- The text of a shared string that is read: none is for `<si/>`. -/
def SharedItem.read? : SharedItem → Option Text
  | .selfClosed => none
  | .runs texts => some (texts.flatMap (Markup.read false))

/-- The shared strings that are read. -/
def readStrings (items : List SharedItem) : List Text := items.filterMap SharedItem.read?

/-- What a value of a cell is shown as. -/
def shownAs (strings : List Text) (cellType : Option Text) (value : Text) : Option Text :=
  if value = [] then none else shownText (renderCell strings cellType value)

/-- The value that is read inside a cell. -/
def CellContent.readValue : CellContent → Text
  | .empty _ => []
  | .literal _ value _ => value.read true
  | .boolean value => [if value then '1' else '0']
  | .inlineString texts => texts.flatMap (Markup.read true)
  | .shared index => Nat.toDigits 10 index
  | .formula _ _ cached => cached.read true

/-- A formula is seen unless it is self-closed. -/
def CellContent.seenFormula : CellContent → Bool
  | .empty _ | .literal _ _ _ | .boolean _ | .inlineString _ | .shared _ => false
  | .formula _ .selfClosed _ => false
  | .formula _ (.body _) _ => true

/-- What `parse_worksheet` shows of a cell. -/
def Cell.read (strings : List Text) (cell : Cell) : Option Text :=
  if cell.content.seenFormula then none
  else shownAs strings cell.content.cellType cell.content.readValue

variable {tag : String → Bytes} {tools : Tools} {wellFormed : Bool} {items : List SharedItem}
variable {strings values : List Text} {current : Text} {maxCells : Nat} {s : Worksheet}
variable {rest : List XmlEvent}

/-! ## Shared strings -/

section Shared

variable (htag : Tags tag) (hunescape : UnescapesPlain tools)

include htag hunescape

/-- A run is appended to the shared string it is in. -/
theorem sharedStringsLoop_run (run : Markup) (rest : List XmlEvent) (current : Text) :
    sharedStringsLoop tools wellFormed (runEvents tag false run ++ rest) values current true =
      sharedStringsLoop tools wellFormed rest values (current ++ run.read false) true := by
  have hr : localName (tag "r") = ascii "r" := htag _ (by simp)
  have ht : localName (tag "t") = ascii "t" := htag _ (by simp)
  have hrsi : ascii "r" ≠ ascii "si" := by decide
  have htsi : ascii "t" ≠ ascii "si" := by decide
  have hevents := @events_append false run (Text × Bool) ExtractionFailure (List Text)
    (fun events s => sharedStringsLoop tools wellFormed events values s.1 s.2)
    (fun text s => (s.1 ++ text, s.2)) (fun s => s.2 = true) (fun _ _ => rfl)
    (fun chunk hchunk rest s hs => by
      simp only [sharedStringsLoop, hs, if_true, eventText_delivered hunescape hchunk])
    (fun _ _ hs => hs) (fun s => by simp) (fun a b s => by simp)
  have hread := hevents (.close (tag "t") :: .close (tag "r") :: rest) (s := (current, true)) rfl
  simp only [runEvents, List.cons_append, List.append_assoc, List.nil_append, sharedStringsLoop,
    hr, ht, hrsi, htsi, if_false] at hread ⊢
  exact hread

theorem sharedStringsLoop_runs (runs : List Markup) (rest : List XmlEvent) (current : Text) :
    sharedStringsLoop tools wellFormed (runs.flatMap (runEvents tag false) ++ rest) values current
        true =
      sharedStringsLoop tools wellFormed rest values (current ++ runs.flatMap (Markup.read false))
        true := by
  induction runs generalizing current with
  | nil => simp
  | cons run runs ih =>
    rw [List.flatMap_cons, List.append_assoc, sharedStringsLoop_run htag hunescape, ih,
      List.flatMap_cons, List.append_assoc]

/-- A self-closed shared string is passed over. -/
theorem sharedStringsLoop_item (item : SharedItem) (rest : List XmlEvent) (current : Text) :
    ∃ current', sharedStringsLoop tools wellFormed (item.events tag ++ rest) values current false =
      sharedStringsLoop tools wellFormed rest (values ++ item.read?.toList) current' false := by
  have hsi : localName (tag "si") = ascii "si" := htag _ (by simp)
  cases item with
  | selfClosed => exact ⟨current, by simp [SharedItem.events, SharedItem.read?, sharedStringsLoop]⟩
  | runs texts =>
    refine ⟨texts.flatMap (Markup.read false), ?_⟩
    simp only [SharedItem.events, List.cons_append, List.append_assoc, List.nil_append,
      sharedStringsLoop, hsi, if_true, SharedItem.read?, Option.toList_some]
    rw [sharedStringsLoop_runs htag hunescape, List.nil_append]
    simp only [sharedStringsLoop, hsi, if_true]

/-- **The shared strings that are read** are those that are not self-closed. -/
theorem parseSharedStrings_eq {xml : Bytes}
    (hxml : tools.readXml false xml = ⟨sharedEvents tag items, true⟩) :
    parseSharedStrings tools xml = .ok (readStrings items) := by
  have hsst : localName (tag "sst") = ascii "sst" := htag _ (by simp)
  have hne : ascii "sst" ≠ ascii "si" := by decide
  have hitems : ∀ (items : List SharedItem) (values : List Text) (current : Text),
      sharedStringsLoop tools true (items.flatMap (SharedItem.events tag) ++ [.close (tag "sst")])
        values current false = .ok (values ++ readStrings items) := by
    intro items
    induction items with
    | nil => intro values current; simp [sharedStringsLoop, hsst, hne, readStrings]
    | cons item items ih =>
      intro values current
      rw [List.flatMap_cons, List.append_assoc]
      obtain ⟨current', h⟩ := @sharedStringsLoop_item tag tools true values htag hunescape item
        (items.flatMap (SharedItem.events tag) ++ [.close (tag "sst")]) current
      rw [h, ih]
      cases hread : item.read? <;> simp [readStrings, hread]
  unfold parseSharedStrings
  rw [hxml]
  simp only [sharedEvents, sharedStringsLoop, hsst, hne, if_false]
  exact hitems items [] []

end Shared

/-! ## Cells -/

/-- The loop is between cells. -/
def Worksheet.Idle (s : Worksheet) : Prop := s.insideCell = false ∧ s.insideValue = false

/-- The loop is in a cell, outside its value. -/
def Worksheet.InCell (s : Worksheet) : Prop := s.insideCell = true ∧ s.insideValue = false

/-- The loop appends some events to the value of the cell. -/
def Appends (tools : Tools) (strings : List Text) (maxCells : Nat) (wellFormed : Bool)
    (events : List XmlEvent) (text : Text) : Prop :=
  ∀ rest s, s.insideCell = true → s.insideValue = true →
    worksheetLoop tools strings maxCells wellFormed (events ++ rest) s =
      worksheetLoop tools strings maxCells wellFormed rest { s with value := s.value ++ text }

theorem appends_events (hunescape : UnescapesPlain tools) (markup : Markup) :
    Appends tools strings maxCells wellFormed (markup.events true) (markup.read true) := by
  intro rest s hcell hvalue
  exact @events_append true markup Worksheet _ _
    (worksheetLoop tools strings maxCells wellFormed)
    (fun text s => { s with value := s.value ++ text })
    (fun s => s.insideCell = true ∧ s.insideValue = true) (fun _ _ => rfl)
    (fun chunk hchunk rest s hs => by
      simp only [worksheetLoop, if_pos hs, eventText_delivered hunescape hchunk])
    (fun _ _ hs => hs) (fun s => by simp) (fun a b s => by simp) rest s ⟨hcell, hvalue⟩

theorem appends_text (hunescape : UnescapesPlain tools) {text : Text} (htext : '&' ∉ text) :
    Appends tools strings maxCells wellFormed [.text (some text)] text := by
  intro rest s hcell hvalue
  simp only [List.cons_append, List.nil_append, worksheetLoop, if_pos (And.intro hcell hvalue),
    eventText, Option.bind_some, hunescape text htext]

/-- Outside values text is passed over. -/
theorem worksheetLoop_skip (markup : Markup) (hs : s.insideValue = false) :
    worksheetLoop tools strings maxCells wellFormed (markup.events true ++ rest) s =
      worksheetLoop tools strings maxCells wellFormed rest s :=
  @events_append true markup Worksheet _ _ (worksheetLoop tools strings maxCells wellFormed)
    (fun _ s => s) (fun s => s.insideValue = false) (fun _ _ => rfl)
    (fun chunk _ rest s hs => by simp [worksheetLoop, hs])
    (fun _ _ hs => hs) (fun _ => rfl) (fun _ _ _ => rfl) rest s hs

section Steps

variable {name : Bytes} {attributes : List (Bytes × Text)}

theorem worksheetLoop_startOther
    (hname : localName name ≠ ascii "c" ∧ localName name ≠ ascii "v" ∧ localName name ≠ ascii "t"
      ∧ localName name ≠ ascii "f") :
    worksheetLoop tools strings maxCells wellFormed (.start name attributes :: rest) s =
      worksheetLoop tools strings maxCells wellFormed rest s := by
  simp [worksheetLoop, hname]

theorem worksheetLoop_closeOther
    (hname : localName name ≠ ascii "c" ∧ localName name ≠ ascii "v"
      ∧ localName name ≠ ascii "t") :
    worksheetLoop tools strings maxCells wellFormed (.close name :: rest) s =
      worksheetLoop tools strings maxCells wellFormed rest s := by
  simp [worksheetLoop, hname]

/-- A value between its tags is appended. -/
theorem worksheetLoop_between (hname : localName name = ascii "v" ∨ localName name = ascii "t")
    {events : List XmlEvent} {text : Text}
    (hevents : Appends tools strings maxCells wellFormed events text) (hs : s.InCell) :
    worksheetLoop tools strings maxCells wellFormed
        (.start name attributes :: (events ++ .close name :: rest)) s =
      worksheetLoop tools strings maxCells wellFormed rest
        { s with value := s.value ++ text } := by
  have hvc : ascii "v" ≠ ascii "c" := by decide
  have htc : ascii "t" ≠ ascii "c" := by decide
  have hc : localName name ≠ ascii "c" := by
    rcases hname with h | h
    · rw [h]; exact hvc
    · rw [h]; exact htc
  rw [worksheetLoop, if_neg hc, if_pos ⟨hs.1, hname⟩,
    hevents _ { s with insideValue := true } hs.1 rfl, worksheetLoop,
    if_pos hname]
  obtain ⟨hcell, hvalue⟩ := hs
  cases s
  cases hvalue
  rfl

end Steps

section Cells

variable (htag : Tags tag)

include htag

theorem worksheetLoop_value {events : List XmlEvent} {text : Text}
    (hevents : Appends tools strings maxCells wellFormed events text) (hs : s.InCell) :
    worksheetLoop tools strings maxCells wellFormed (valueEvents tag events ++ rest) s =
      worksheetLoop tools strings maxCells wellFormed rest { s with value := s.value ++ text } := by
  rw [valueEvents, List.cons_append, List.append_assoc]
  exact worksheetLoop_between (Or.inl (htag _ (by simp))) hevents hs

theorem worksheetLoop_runs (hunescape : UnescapesPlain tools) (runs : List Markup)
    (hs : s.InCell) :
    worksheetLoop tools strings maxCells wellFormed (runs.flatMap (runEvents tag true) ++ rest) s =
      worksheetLoop tools strings maxCells wellFormed rest
        { s with value := s.value ++ runs.flatMap (Markup.read true) } := by
  have hr : localName (tag "r") = ascii "r" := htag _ (by simp)
  induction runs generalizing s with
  | nil => simp
  | cons run runs ih =>
    rw [List.flatMap_cons, List.append_assoc, runEvents, List.cons_append,
      worksheetLoop_startOther (by rw [hr]; decide), List.cons_append, List.append_assoc,
      List.cons_append, worksheetLoop_between (Or.inr (htag _ (by simp)))
        (appends_events hunescape run) hs, List.cons_append, List.nil_append,
      worksheetLoop_closeOther (by rw [hr]; decide),
      @ih { s with value := s.value ++ run.read true } hs]
    simp

/-- What the events inside a cell leave: its value, and whether a formula was seen. -/
theorem worksheetLoop_content (hunescape : UnescapesPlain tools) (content : CellContent)
    (hs : s.InCell) (hvalue : s.value = []) (hformula : s.hasFormula = false) :
    worksheetLoop tools strings maxCells wellFormed (content.events tag ++ rest) s =
      worksheetLoop tools strings maxCells wellFormed rest
        { s with value := content.readValue, hasFormula := content.seenFormula } := by
  have hplain : ∀ {text : Text}, '&' ∉ text →
      worksheetLoop tools strings maxCells wellFormed
          (valueEvents tag [.text (some text)] ++ rest) s =
        worksheetLoop tools strings maxCells wellFormed rest
          { s with value := text, hasFormula := false } := by
    intro text htext
    rw [worksheetLoop_value htag (appends_text hunescape htext) hs, hvalue, List.nil_append,
      ← hformula]
  cases content with
  | empty => rw [CellContent.events, CellContent.readValue, CellContent.seenFormula, ← hvalue,
      ← hformula, List.nil_append]
  | literal _ value =>
    rw [CellContent.events, worksheetLoop_value htag (appends_events hunescape value) hs, hvalue,
      List.nil_append, CellContent.readValue, CellContent.seenFormula, ← hformula]
  | boolean value => exact hplain (by cases value <;> decide)
  | inlineString texts =>
    have his : localName (tag "is") = ascii "is" := htag _ (by simp)
    rw [CellContent.events, List.cons_append, List.append_assoc,
      worksheetLoop_startOther (by rw [his]; decide), worksheetLoop_runs htag hunescape texts hs,
      List.cons_append, List.nil_append, worksheetLoop_closeOther (by rw [his]; decide), hvalue,
      List.nil_append, CellContent.readValue, CellContent.seenFormula, ← hformula]
  | shared index =>
    refine hplain fun hmem => ?_
    have := Nat.isDigit_of_mem_toDigits (by decide) (by decide) hmem
    exact absurd this (by decide)
  | formula cellType written cached =>
    have hf : localName (tag "f") = ascii "f" := htag _ (by simp)
    cases written with
    | selfClosed =>
      have hfc : ascii "f" ≠ ascii "c" := by decide
      rw [CellContent.events, Formula.events, List.append_assoc, List.cons_append, List.nil_append,
        worksheetLoop, if_neg (by rw [hf]; exact hfc),
        worksheetLoop_value htag (appends_events hunescape cached) hs, hvalue,
        List.nil_append, CellContent.readValue, CellContent.seenFormula, ← hformula]
    | body text =>
      have hfc : ascii "f" ≠ ascii "c" := by decide
      have hfvt : ¬(ascii "f" = ascii "v" ∨ ascii "f" = ascii "t") := by decide
      rw [CellContent.events, Formula.events, List.append_assoc, List.cons_append,
        worksheetLoop, if_neg (by rw [hf]; exact hfc), if_neg (by rw [hf]; exact fun h => hfvt h.2),
        if_pos ⟨hs.1, hf⟩, List.append_assoc,
        worksheetLoop_skip (s := { s with hasFormula := true }) text hs.2, List.cons_append,
        List.nil_append, worksheetLoop_closeOther (by rw [hf]; decide),
        worksheetLoop_value (s := { s with hasFormula := true }) htag
          (appends_events hunescape cached) hs]
      simp [hvalue, CellContent.readValue, CellContent.seenFormula]

end Cells

/-! ## Worksheets -/

/-- Some events are read as some cells: all of them, or as many as there is room for. -/
def ReadsCells (tools : Tools) (strings : List Text) (maxCells : Nat) (wellFormed : Bool)
    (events : List XmlEvent) (cells : List Cell) : Prop :=
  ∀ rest s, s.Idle → s.cellsSeen ≤ maxCells →
    (s.cellsSeen + cells.length ≤ maxCells → ∃ s',
      worksheetLoop tools strings maxCells wellFormed (events ++ rest) s =
          worksheetLoop tools strings maxCells wellFormed rest s'
        ∧ s'.Idle ∧ s'.cellsSeen = s.cellsSeen + cells.length ∧ s'.truncated = s.truncated
        ∧ s'.values = s.values ++ cells.filterMap (Cell.read strings))
    ∧ (maxCells < s.cellsSeen + cells.length → ∃ s',
      worksheetLoop tools strings maxCells wellFormed (events ++ rest) s = .ok s'
        ∧ s'.truncated = true
        ∧ s'.values = s.values
          ++ (cells.take (maxCells - s.cellsSeen)).filterMap (Cell.read strings))

theorem ReadsCells.nil : ReadsCells tools strings maxCells wellFormed [] [] := by
  intro rest s hs hle
  refine ⟨fun _ => ⟨s, rfl, hs, rfl, rfl, by simp⟩, fun hlt => ?_⟩
  rw [List.length_nil] at hlt
  omega

theorem ReadsCells.append {events events' : List XmlEvent} {cells cells' : List Cell}
    (h : ReadsCells tools strings maxCells wellFormed events cells)
    (h' : ReadsCells tools strings maxCells wellFormed events' cells') :
    ReadsCells tools strings maxCells wellFormed (events ++ events') (cells ++ cells') := by
  intro rest s hs hle
  rw [List.append_assoc, List.length_append]
  obtain ⟨hall, hsome⟩ := h (events' ++ rest) s hs hle
  by_cases hroom : s.cellsSeen + cells.length ≤ maxCells
  · obtain ⟨s', hloop, hidle, hseen, htruncated, hvalues⟩ := hall hroom
    obtain ⟨hall', hsome'⟩ := h' rest s' hidle (by omega)
    rw [hloop]
    refine ⟨fun hfit => ?_, fun hover => ?_⟩
    · obtain ⟨s'', hloop', hidle', hseen', htruncated', hvalues'⟩ := hall' (by omega)
      exact ⟨s'', hloop', hidle', by omega, htruncated'.trans htruncated,
        by rw [hvalues', hvalues, List.filterMap_append, List.append_assoc]⟩
    · obtain ⟨s'', hloop', htruncated', hvalues'⟩ := hsome' (by omega)
      refine ⟨s'', hloop', htruncated', ?_⟩
      rw [hvalues', hvalues, hseen, Nat.sub_add_eq, List.take_append, List.filterMap_append,
        List.append_assoc, List.take_of_length_le (i := maxCells - s.cellsSeen) (l := cells)
          (by omega)]
  · refine ⟨fun hfit => by omega, fun _ => ?_⟩
    obtain ⟨s', hloop, htruncated, hvalues⟩ := hsome (by omega)
    refine ⟨s', hloop, htruncated, ?_⟩
    rw [hvalues, List.take_append_of_le_length (by omega)]

/-- Events that the loop passes over. -/
theorem ReadsCells.silent {event : XmlEvent}
    (h : ∀ rest s, worksheetLoop tools strings maxCells wellFormed (event :: rest) s =
      worksheetLoop tools strings maxCells wellFormed rest s) :
    ReadsCells tools strings maxCells wellFormed [event] [] := by
  intro rest s hs hle
  refine ⟨fun _ => ⟨s, h rest s, hs, rfl, rfl, by simp⟩, fun hlt => ?_⟩
  rw [List.length_nil] at hlt
  omega

theorem ReadsCells.flatMap {α : Type} {events : α → List XmlEvent} {cells : α → List Cell}
    (h : ∀ a, ReadsCells tools strings maxCells wellFormed (events a) (cells a)) (list : List α) :
    ReadsCells tools strings maxCells wellFormed (list.flatMap events) (list.flatMap cells) := by
  induction list with
  | nil => exact .nil
  | cons a rest ih =>
    rw [List.flatMap_cons, List.flatMap_cons]
    exact (h a).append ih

section Worksheets

variable (htag : Tags tag) (hunescape : UnescapesPlain tools)

include htag

omit htag in
/-- The cell's type is the first attribute of that name. -/
theorem find_cellType (cell : Cell) :
    ((cell.allAttributes.find? fun a => localName a.1 = ascii "t").map Prod.snd) =
      cell.content.cellType := by
  have hnone : cell.attributes.find? (fun a => localName a.1 = ascii "t") = none := by
    rw [List.find?_eq_none]
    exact fun entry hentry => by simpa using cell.untyped entry hentry
  have ht : localName (ascii "t") = ascii "t" := by decide
  rw [Cell.allAttributes, List.find?_append, hnone, Option.none_or]
  cases cell.content.cellType with
  | none => rfl
  | some cellType => simp [ht]

omit htag in
/-- The end of a cell that was read. -/
theorem closeCell_values (cell : Cell) (htype : s.cellType = cell.content.cellType)
    (hvalue : s.value = cell.content.readValue) (hformula : s.hasFormula = cell.content.seenFormula) :
    (s.closeCell strings).values = s.values ++ (cell.read strings).toList := by
  unfold Worksheet.closeCell Cell.read shownAs shownText
  rw [htype, hvalue, hformula]
  dsimp only
  cases cell.content.seenFormula with
  | true => simp
  | false =>
    by_cases hnil : cell.content.readValue = []
    · simp [hnil]
    · by_cases hrendered : renderCell strings cell.content.cellType cell.content.readValue = []
      · simp [hrendered]
      · simp [hnil, hrendered]

include hunescape

/-- **A cell is read.** -/
theorem readsCells_cell (cell : Cell) :
    ReadsCells tools strings maxCells wellFormed (cell.events tag) [cell] := by
  have hc : localName (tag "c") = ascii "c" := htag _ (by simp)
  have hcvt : ¬(ascii "c" = ascii "v" ∨ ascii "c" = ascii "t") := by decide
  intro rest s hs hle
  by_cases hroom : maxCells ≤ s.cellsSeen
  · refine ⟨fun hfit => by rw [List.length_singleton] at hfit; omega, fun _ => ?_⟩
    refine ⟨{ s with truncated := true }, ?_, rfl, ?_⟩
    · unfold Cell.events
      by_cases hclosed : cell.content.isClosed = true
      · rw [if_pos hclosed, List.cons_append, worksheetLoop, if_pos hc, if_pos hroom]
      · rw [if_neg hclosed, List.cons_append, worksheetLoop, if_pos hc, if_pos hroom]
    · rw [Nat.sub_eq_zero_of_le hroom]
      simp
  · refine ⟨fun _ => ?_, fun hover => by rw [List.length_singleton] at hover; omega⟩
    unfold Cell.events
    by_cases hclosed : cell.content.isClosed = true
    · refine ⟨{ s with cellsSeen := s.cellsSeen + 1 }, ?_, hs, rfl, rfl, ?_⟩
      · rw [if_pos hclosed, List.cons_append, worksheetLoop, if_pos hc, if_neg hroom,
          List.nil_append]
      · have hread : cell.read strings = none := by
          unfold Cell.read
          cases hcontent : cell.content <;> simp_all [CellContent.isClosed, shownAs,
            CellContent.readValue, CellContent.seenFormula]
        simp [hread]
    · obtain ⟨started, hstarted⟩ : ∃ started : Worksheet, started = {
          s with
          cellsSeen := s.cellsSeen + 1
          insideCell := true
          hasFormula := false
          value := []
          cellType := cell.content.cellType } := ⟨_, rfl⟩
      have hin : started.InCell := by
        rw [hstarted]
        exact ⟨rfl, hs.2⟩
      have hloop : worksheetLoop tools strings maxCells wellFormed
          (.start (tag "c") cell.allAttributes :: (cell.content.events tag
            ++ ([.close (tag "c")] ++ rest))) s =
          worksheetLoop tools strings maxCells wellFormed rest
            (Worksheet.closeCell strings
              { started with
                value := cell.content.readValue
                hasFormula := cell.content.seenFormula }) := by
        rw [worksheetLoop, if_pos hc, if_neg hroom, find_cellType, ← hstarted,
          worksheetLoop_content htag hunescape cell.content hin (by rw [hstarted]) (by rw [hstarted]),
          List.cons_append, List.nil_append, worksheetLoop, hc, if_neg hcvt, if_pos rfl]
      have hvalues := @closeCell_values strings
        { started with
          value := cell.content.readValue
          hasFormula := cell.content.seenFormula } cell (by rw [hstarted]) rfl rfl
      refine ⟨_, by
        rw [if_neg hclosed, List.cons_append, List.append_assoc]
        exact hloop, ⟨rfl, rfl⟩, by rw [hstarted]; rfl, by rw [hstarted]; rfl, hvalues.trans ?_⟩
      rw [hstarted]
      cases hread : cell.read strings <;> simp [hread]

/-- **What a worksheet is read as.** -/
theorem parseWorksheet_eq {xml : Bytes} {rows : Rows}
    (hxml : tools.readXml true xml = ⟨worksheetEvents tag rows, true⟩) :
    ∃ sheet, parseWorksheet tools xml strings maxCells = .ok sheet
      ∧ sheet.values = (rows.flatten.take maxCells).filterMap (Cell.read strings)
      ∧ (sheet.truncated = true ↔ maxCells < rows.flatten.length) := by
  have hsilent : ∀ name ∈ ["worksheet", "sheetData", "row"],
      localName (tag name) ≠ ascii "c" ∧ localName (tag name) ≠ ascii "v"
        ∧ localName (tag name) ≠ ascii "t" ∧ localName (tag name) ≠ ascii "f" := by
    intro name hname
    rw [htag name (by simp at hname ⊢; tauto)]
    revert name
    decide
  have hstart : ∀ name ∈ ["worksheet", "sheetData", "row"],
      ReadsCells tools strings maxCells true [.start (tag name) []] [] := fun name hname =>
    .silent fun _ _ => worksheetLoop_startOther (hsilent name hname)
  have hclose : ∀ name ∈ ["worksheet", "sheetData", "row"],
      ReadsCells tools strings maxCells true [.close (tag name)] [] := fun name hname =>
    .silent fun _ _ => worksheetLoop_closeOther
      ⟨(hsilent name hname).1, (hsilent name hname).2.1, (hsilent name hname).2.2.1⟩
  have hrow : ∀ row : List Cell,
      ReadsCells tools strings maxCells true (rowEvents tag row) row := by
    intro row
    have hcells : ReadsCells tools strings maxCells true (row.flatMap (Cell.events tag))
        (row.flatMap fun cell => [cell]) := .flatMap (readsCells_cell htag hunescape) row
    have hall := ((hstart "row" (by simp)).append hcells).append (hclose "row" (by simp))
    simpa [rowEvents] using hall
  have hrows := ReadsCells.flatMap hrow rows
  have hall := (((hstart "worksheet" (by simp)).append (hstart "sheetData" (by simp))).append
    hrows).append ((hclose "sheetData" (by simp)).append (hclose "worksheet" (by simp)))
  have hevents : [.start (tag "worksheet") []] ++ [.start (tag "sheetData") []]
      ++ rows.flatMap (rowEvents tag) ++ ([.close (tag "sheetData")] ++ [.close (tag "worksheet")])
        = worksheetEvents tag rows := by
    simp [worksheetEvents]
  have hcells : [] ++ [] ++ rows.flatMap (fun row => row) ++ ([] ++ []) = rows.flatten := by
    simp
  rw [hevents, hcells] at hall
  obtain ⟨hfit, hover⟩ := hall [] {} ⟨rfl, rfl⟩ (Nat.zero_le _)
  rw [List.append_nil, Nat.zero_add] at hfit hover
  unfold parseWorksheet
  rw [hxml]
  by_cases hlt : maxCells < rows.flatten.length
  · obtain ⟨sheet, hloop, htruncated, hvalues⟩ := hover hlt
    exact ⟨sheet, hloop, by simpa using hvalues, ⟨fun _ => hlt, fun _ => htruncated⟩⟩
  · obtain ⟨sheet, hloop, -, -, htruncated, hvalues⟩ := hfit (by omega)
    refine ⟨sheet, ?_, ?_, ⟨fun h => ?_, fun h => absurd h hlt⟩⟩
    · dsimp only
      rw [hloop, worksheetLoop, if_pos rfl]
    · rw [List.take_of_length_le (by omega)]
      simpa using hvalues
    · rw [htruncated] at h
      cases h

end Worksheets

/-! ## Faithful cells -/

/-- The shared string is not self-closed. -/
def SharedItem.isOpen : SharedItem → Bool
  | .selfClosed => false
  | .runs _ => true

/-- The text of a shared string without what is written as references. -/
def SharedItem.literal : SharedItem → Text
  | .selfClosed => []
  | .runs texts => texts.flatMap Markup.literal

/-- What a cell of an index shows, by the shared strings that are not self-closed. -/
def shownAt (items : List SharedItem) (index : Nat) : Option Text :=
  ((items.filter SharedItem.isOpen)[index]?).bind fun item => shownText item.literal

/-- A cell shows what it displays: its text is plain; its index leads to the same text without the
self-closed shared strings; no value is cached behind a self-closed formula. -/
def Cell.Faithful (items : List SharedItem) (cell : Cell) : Prop :=
  match cell.content with
  | .empty _ | .boolean _ | .formula _ (.body _) _ => True
  | .literal _ value _ => value.Plain
  | .inlineString texts => ∀ run ∈ texts, run.Plain
  | .shared index =>
      shownAt items index = (items[index]?).bind fun item => shownText item.text
  | .formula cellType .selfClosed cached =>
      cached.read true = []
        ∨ (cellType = some ['s']
          ∧ (parseUnsigned 64 (cached.read true)).bind (shownAt items) = none)

theorem shownText_inj {a b : Text} : shownText a = shownText b ↔ a = b := by
  unfold shownText
  by_cases ha : a = [] <;> by_cases hb : b = [] <;> simp [ha, hb, eq_comm]

theorem readStrings_eq (items : List SharedItem) :
    readStrings items = (items.filter SharedItem.isOpen).map SharedItem.literal := by
  have hread : Markup.read false = Markup.literal := funext read_false
  induction items with
  | nil => rfl
  | cons item items ih =>
    unfold readStrings at ih ⊢
    cases item with
    | selfClosed =>
      rw [List.filterMap_cons_none rfl, List.filter_cons_of_neg (by simp [SharedItem.isOpen]), ih]
    | runs texts =>
      rw [List.filterMap_cons, List.filter_cons_of_pos (by simp [SharedItem.isOpen]),
        List.map_cons, ← ih, SharedItem.literal, ← hread]
      rfl

theorem shownText_readStrings (items : List SharedItem) (index : Nat) :
    shownText (((readStrings items)[index]?).getD []) = shownAt items index := by
  rw [readStrings_eq, List.getElem?_map, shownAt]
  cases (items.filter SharedItem.isOpen)[index]? <;> rfl

/-- The digits of an index are read back when it fits. -/
theorem parseUnsigned_toDigits (bits index : Nat) :
    parseUnsigned bits (Nat.toDigits 10 index) = if index < 2 ^ bits then some index else none := by
  have hdigits : ∀ c ∈ Nat.toDigits 10 index, c.isDigit = true := fun c hc =>
    Nat.isDigit_of_mem_toDigits (by decide) (by decide) hc
  have hvalue : digitsValue (Nat.toDigits 10 index) = index := by
    have hfold : ∀ (digits : Text) (init : Nat), Nat.ofDigitChars 10 digits init =
        digits.foldl (fun n c => n * 10 + (c.toNat - 48)) init := by
      intro digits
      induction digits with
      | nil => simp
      | cons c digits ih =>
        intro init
        rw [Nat.ofDigitChars_cons, ih, List.foldl_cons, Nat.mul_comm 10 init]
        rfl
    rw [digitsValue, ← hfold]
    exact Nat.ofDigitChars_ten_toDigits
  have hsign : (Nat.toDigits 10 index).head? ≠ some '+' := by
    intro hhead
    exact absurd (hdigits _ (List.mem_of_mem_head? hhead)) (by decide)
  have hall : (Nat.toDigits 10 index).all Char.isDigit = true := List.all_eq_true.2 hdigits
  unfold parseUnsigned
  dsimp only
  rw [if_neg hsign, hvalue]
  by_cases hlt : index < 2 ^ bits
  · rw [if_pos ⟨Nat.toDigits_ne_nil, hall, hlt⟩, if_pos hlt]
  · rw [if_neg (fun h => hlt h.2.2), if_neg hlt]

theorem shownAs_plain {cellType : Option Text} {value : Text}
    (hplain : cellType ≠ some ['s'] ∧ cellType ≠ some ['b']) :
    shownAs strings cellType value = shownText value := by
  unfold shownAs renderCell shownText
  rw [if_neg hplain.1, if_neg hplain.2]
  split <;> rfl

theorem shownAs_shared {value : Text} (hvalue : value ≠ []) :
    shownAs (readStrings items) (some ['s']) value =
      (parseUnsigned 64 value).bind (shownAt items) := by
  rw [shownAs, if_neg hvalue, renderCell, if_pos rfl]
  cases parseUnsigned 64 value with
  | none => rfl
  | some index => exact shownText_readStrings items index

/-- **A cell shows what it displays** when it is faithful. -/
theorem cell_read_eq_iff (hitems : items.length ≤ 2 ^ 64) (cell : Cell) :
    cell.read (readStrings items) = cell.displayed items ↔ cell.Faithful items := by
  unfold Cell.read Cell.displayed Cell.Faithful
  cases cell.content with
  | empty => simp [CellContent.seenFormula, CellContent.readValue, shownAs]
  | literal cellType value plain =>
    rw [if_neg Bool.noConfusion, CellContent.cellType, shownAs_plain plain]
    exact shownText_inj.trans read_eq_text_iff
  | boolean value => cases value <;> simp [CellContent.seenFormula] <;> rfl
  | inlineString texts =>
    rw [if_neg Bool.noConfusion, CellContent.cellType, shownAs_plain (by decide)]
    exact shownText_inj.trans (flatMap_read_eq_iff texts)
  | shared index =>
    rw [if_neg Bool.noConfusion, CellContent.cellType, CellContent.readValue,
      shownAs_shared Nat.toDigits_ne_nil, parseUnsigned_toDigits]
    split
    · rfl
    · -- no list is long enough for the index
      have hnone : items[index]? = none := List.getElem?_eq_none (by omega)
      have hopen : (items.filter SharedItem.isOpen)[index]? = none :=
        List.getElem?_eq_none ((List.length_filter_le ..).trans (by omega))
      simp [hnone, shownAt, hopen]
  | formula cellType written cached =>
    cases written with
    | body text => simp [CellContent.seenFormula]
    | selfClosed =>
      rw [if_neg Bool.noConfusion, CellContent.cellType, CellContent.readValue]
      dsimp only
      by_cases hnil : cached.read true = []
      · simp [hnil, shownAs]
      · by_cases hs : cellType = some ['s']
        · rw [hs, shownAs_shared hnil]
          simp [hnil]
        · have hshown : shownAs (readStrings items) cellType (cached.read true) ≠ none := by
            by_cases hb : cellType = some ['b']
            · rw [shownAs, if_neg hnil, renderCell, if_neg hs, if_pos hb, shownText]
              split <;> simp
            · rw [shownAs_plain ⟨hs, hb⟩, shownText, if_neg hnil]
              simp
          simp [hnil, hs, hshown]

/-! ## Faithful worksheets -/

/-- What is shown agrees after any number of cells only if it does for each. -/
theorem filterMap_take_eq_iff {α β : Type} {f g : α → Option β} {list : List α} :
    (∀ n, (list.take n).filterMap f = (list.take n).filterMap g) ↔ ∀ a ∈ list, f a = g a := by
  constructor
  · intro h a ha
    obtain ⟨n, hn, rfl⟩ := List.mem_iff_getElem.1 ha
    have hnext := h (n + 1)
    rw [List.take_add_one, List.getElem?_eq_getElem hn, Option.toList_some, List.filterMap_append,
      List.filterMap_append, h n, List.append_cancel_left_eq] at hnext
    cases hf : f list[n] <;> cases hg : g list[n] <;> simp_all
  · intro h n
    exact List.filterMap_congr fun a ha => h a (List.mem_of_mem_take ha)

/-- A character that is written as itself. -/
def plainSymbol (char : Char) (plain : char ≠ '&' ∧ char ≠ '<') : Symbol := ⟨char, false, fun _ => plain⟩

def totalMarkup : Markup := [plainSymbol 'A' (by decide)]

/-- Two shared strings, the first one empty, and a cell of each. -/
def sampleItems : List SharedItem := [.selfClosed, .runs [totalMarkup]]

def sharedCell (index : Nat) : Cell := ⟨.shared index, [], List.forall_mem_nil _⟩

/-- A calculated amount whose formula is shared with another cell. -/
def formulaCell : Cell := ⟨.formula none .selfClosed totalMarkup, [], List.forall_mem_nil _⟩

def sampleTools (items : List SharedItem) (rows : Rows) : Tools :=
  partTools fun trims => if trims then worksheetEvents ascii rows else sharedEvents ascii items

theorem ascii_tags : Tags ascii := by
  unfold Tags
  decide

/-- **Faithful spreadsheets.** Whatever the limit, the values are in order what the cells up to it
display, exactly when every cell is faithful; and the limit is reported exactly when cells are left. -/
theorem worksheet_shows_iff {rows : Rows} {sharedXml sheetXml : Bytes} (htag : Tags tag)
    (hunescape : UnescapesPlain tools) (hitems : items.length ≤ 2 ^ 64)
    (hshared : tools.readXml false sharedXml = ⟨sharedEvents tag items, true⟩)
    (hsheet : tools.readXml true sheetXml = ⟨worksheetEvents tag rows, true⟩) :
    (∃ strings, parseSharedStrings tools sharedXml = .ok strings
        ∧ ∀ maxCells, ∃ sheet, parseWorksheet tools sheetXml strings maxCells = .ok sheet
          ∧ sheet.values = (rows.flatten.take maxCells).filterMap (Cell.displayed items)
          ∧ (sheet.truncated = true ↔ maxCells < rows.flatten.length))
      ↔ ∀ cell ∈ rows.flatten, cell.Faithful items := by
  have hread : (∀ cell ∈ rows.flatten, cell.Faithful items) ↔
      ∀ cell ∈ rows.flatten, cell.read (readStrings items) = cell.displayed items :=
    forall₂_congr fun cell _ => (cell_read_eq_iff hitems cell).symm
  rw [hread, ← filterMap_take_eq_iff]
  constructor
  · rintro ⟨strings, hstrings, h⟩ maxCells
    rw [parseSharedStrings_eq htag hunescape hshared] at hstrings
    obtain rfl := Except.ok.inj hstrings
    obtain ⟨sheet, hparse, hvalues, -⟩ := h maxCells
    obtain ⟨sheet', hparse', hvalues', -⟩ := @parseWorksheet_eq tag tools (readStrings items) maxCells
      htag hunescape sheetXml rows hsheet
    obtain rfl := Except.ok.inj (hparse.symm.trans hparse')
    exact hvalues'.symm.trans hvalues
  · intro h
    refine ⟨readStrings items, parseSharedStrings_eq htag hunescape hshared, fun maxCells => ?_⟩
    obtain ⟨sheet, hparse, hvalues, htruncated⟩ := @parseWorksheet_eq tag tools (readStrings items)
      maxCells htag hunescape sheetXml rows hsheet
    exact ⟨sheet, hparse, hvalues.trans (h maxCells), htruncated⟩

theorem worksheet_shows_iff_total :
    (∃ strings, parseSharedStrings (sampleTools [.runs [totalMarkup]] [[sharedCell 0]]) [] = .ok strings
        ∧ ∀ maxCells, ∃ sheet,
          parseWorksheet (sampleTools [.runs [totalMarkup]] [[sharedCell 0]]) [] strings maxCells
              = .ok sheet
            ∧ sheet.values = ([[sharedCell 0]].flatten.take maxCells).filterMap
                (Cell.displayed [.runs [totalMarkup]])
            ∧ (sheet.truncated = true ↔ maxCells < [[sharedCell 0]].flatten.length))
      ↔ ∀ cell ∈ [[sharedCell 0]].flatten, cell.Faithful [.runs [totalMarkup]] :=
  worksheet_shows_iff ascii_tags (fun _ _ => rfl) (by norm_num) rfl rfl

/-- An empty shared string that is self-closed moves the next one up, so the cell of the empty one
shows it and its own cell shows nothing; and a value cached behind `<f/>` is shown. -/
theorem selfClosed_shifts :
    parseSharedStrings (sampleTools sampleItems []) [] = .ok ["A".toList]
      ∧ (∃ sheet, parseWorksheet (sampleTools sampleItems [[sharedCell 1]]) [] ["A".toList] 10
            = .ok sheet ∧ sheet.values = [])
      ∧ (sharedCell 1).displayed sampleItems = some "A".toList
      ∧ (∃ sheet, parseWorksheet (sampleTools sampleItems [[formulaCell]]) [] ["A".toList] 10
            = .ok sheet ∧ sheet.values = ["A".toList])
      ∧ formulaCell.displayed sampleItems = none := by
  refine ⟨by rfl, ?_, by decide +kernel, ?_, rfl⟩
  · exact ⟨_, rfl, by decide +kernel⟩
  · exact ⟨_, rfl, by decide +kernel⟩

end Zemo.Extraction
