import Zemo.Extraction.SilentCuts

set_option autoImplicit false

/-! # The names of worksheets

The names of the sheets are read in the order of the tabs, the parts are read in the order of their
numbers, and the two lists are paired place by place. The relationships, which say what part a tab
shows, are not read. -/

namespace Zemo.Extraction

/-! ## Workbooks -/

/-- A worksheet of a workbook: its name, its relationship, and the part that this leads to. -/
structure Tab where
  name : Text
  id : Text
  part : Text
  deriving DecidableEq

/-- The attributes of the elements of a local name. -/
def elements (name : String) (events : List XmlEvent) : List (List (Bytes × Text)) :=
  events.filterMap fun event =>
    match event with
    | .start element attributes | .empty element attributes =>
        if localName element = ascii name then some attributes else none
    | _ => none

/-- The values of the attributes of a local name, before they are unescaped. -/
def attributeValues (key : String) (attributes : List (Bytes × Text)) : List Text :=
  (attributes.filter fun a => localName a.1 = ascii key).map Prod.snd

/-- An element has one attribute of a local name, with a value. -/
def HasAttribute (tools : Tools) (key : String) (attributes : List (Bytes × Text))
    (value : Text) : Prop :=
  ∃ raw, attributeValues key attributes = [raw] ∧ tools.unescape raw = some value

/-- The XML of a part. -/
def partXml (archive : ZipArchive) (name : Text) : Option Bytes :=
  (archive.part name).bind Prod.snd

/-- The tabs of the workbook in a package, in their order. A relationship leads to the part that
its target, resolved from the workbook, names. -/
structure IsWorkbook (tools : Tools) (resolve : Text → Text) (archive : ZipArchive)
    (names : List Text) (tabs : List Tab) : Prop where
  listed : ∃ xml, partXml archive "xl/workbook.xml".toList = some xml ∧
    List.Forall₂ (fun attributes tab =>
        HasAttribute tools "name" attributes tab.name ∧ HasAttribute tools "id" attributes tab.id)
      (elements "sheet" (tools.readXml false xml).events) tabs
  related : ∃ xml, partXml archive "xl/_rels/workbook.xml.rels".toList = some xml ∧
    ∀ tab ∈ tabs, ∃ attributes ∈ elements "Relationship" (tools.readXml false xml).events,
      ∃ target, HasAttribute tools "Id" attributes tab.id ∧
        HasAttribute tools "Target" attributes target ∧ resolve target = tab.part
  stored : ∀ tab ∈ tabs, tab.part ∈ sheetNames names
  distinct : (tabs.map Tab.part).Nodup
  readable : ∀ tab ∈ tabs, ∃ xml sheet, partXml archive tab.part = some xml ∧
    parseWorksheet tools xml [] (partCells tools archive tab.part) = .ok sheet

/-- What a part that the archive may have is parsed to. -/
def partValues {α : Type} (archive : ZipArchive) (names : List Text) (name : String)
    (parse : Bytes → Except ExtractionFailure (List α)) : List α :=
  if name.toList ∈ names then
    ((partXml archive name.toList).bind fun xml => (parse xml).toOption).getD []
  else []

/-- The shared strings of a package. -/
def sharedStrings (tools : Tools) (archive : ZipArchive) (names : List Text) : List Text :=
  partValues archive names "xl/sharedStrings.xml" (parseSharedStrings tools)

/-- The texts of the first cells of a part, as many as there is room for. -/
def textsWithin (tools : Tools) (archive : ZipArchive) (strings : List Text) (room : Nat)
    (part : Text) : List Text :=
  match partXml archive part with
  | some xml => ((parseWorksheet tools xml strings room).toOption.map Worksheet.values).getD []
  | none => []

/-- The texts of all cells of a part. -/
def cellTexts (tools : Tools) (archive : ZipArchive) (strings : List Text) (part : Text) :
    List Text :=
  textsWithin tools archive strings (partCells tools archive part) part

/-- The texts of the cells of parts, one after the other as far as there is room. -/
def visibleTexts (tools : Tools) (archive : ZipArchive) (strings : List Text) :
    Nat → List Text → List (List Text)
  | _, [] => []
  | room, part :: rest =>
      textsWithin tools archive strings room part ::
        if room < partCells tools archive part then []
        else visibleTexts tools archive strings (room - partCells tools archive part) rest

/-! ## The sections that are written -/

/-- The name written for the worksheet at a place. -/
def displayName (titles : List Text) (index : Nat) : Text :=
  titles[index]?.getD ("Sheet ".toList ++ (toString (index + 1)).toList)

/-- The two sections of a worksheet. -/
def appendSheet (text : Text) (sheet : Text × List Text) : Text :=
  appendSection (appendSection text ("[Sheet: ".toList ++ sheet.1 ++ [']']))
    (['\n'].intercalate sheet.2)

/-- The names and the texts that the loop of `extract_xlsx` writes sections of, in their order, and
whether the cell limit was reached. -/
def writtenLoop (context : ExtractionContext) (archive : ZipArchive)
    (strings titles : List Text) :
    Nat → List Text → Nat → Nat → Except ExtractionFailure (List (Text × List Text) × Bool)
  | _, [], _, _ => .ok ([], false)
  | index, name :: rest, cellsSeen, bytesRead =>
      if context.tools.isCancelled (index + 1) then
        .error (.skipped .cancelled "spreadsheet extraction was cancelled")
      else
        match readEntry context.limits archive name bytesRead with
        | .error failure => .error failure
        | .ok (xml, bytesRead) =>
            match parseWorksheet context.tools xml strings
                (context.limits.maxSpreadsheetCells - cellsSeen) with
            | .error failure => .error failure
            | .ok sheet =>
                if sheet.truncated then .ok ([(displayName titles index, sheet.values)], true)
                else
                  (writtenLoop context archive strings titles (index + 1) rest
                    (cellsSeen + sheet.cellsSeen) bytesRead).map fun (sheets, truncated) =>
                      ((displayName titles index, sheet.values) :: sheets, truncated)

/-- The parts of the worksheets, in the order of their numbers. -/
def numberedSheets (names : List Text) : List Text := sortByKey numberedXmlIndex (sheetNames names)

/-- The names and the texts that `extract_xlsx` writes sections of. -/
def writtenSheets (context : ExtractionContext) (archive : ZipArchive) (names : List Text) :
    Except ExtractionFailure (List (Text × List Text) × Bool) :=
  match optionalPart context archive names "xl/sharedStrings.xml"
      (parseSharedStrings context.tools) 0 with
  | .error failure => .error failure
  | .ok (strings, bytesRead) =>
      match optionalPart context archive names "xl/workbook.xml"
          (parseSheetNames context.tools) bytesRead with
      | .error failure => .error failure
      | .ok (titles, bytesRead) =>
          writtenLoop context archive strings titles 0 (numberedSheets names) 0 bytesRead

/-- Every worksheet is written once, its name right before the texts of the part that the workbook
binds to it, and the worksheets are counted. -/
def Attributed (tools : Tools) (archive : ZipArchive) (strings : List Text) (tabs : List Tab)
    (written : List (Text × List Text)) (sheetCount : Option Nat) : Prop :=
  (∃ order : List Tab, order.Perm tabs ∧
    written = order.map fun tab => (tab.name, cellTexts tools archive strings tab.part)) ∧
  sheetCount = some tabs.length

/-- Place by place, the parts in the order of their numbers show within the cell limit what the
parts of the tabs show, except that tabs of one name may stand for each other. -/
def InPlace (context : ExtractionContext) (archive : ZipArchive) (names : List Text)
    (tabs : List Tab) : Prop :=
  let strings := sharedStrings context.tools archive names
  min (sheetNames names).length (2 ^ 32 - 1) = tabs.length ∧
    ∃ order : List Tab, order.Perm tabs ∧ order.map Tab.name = tabs.map Tab.name ∧
      (order.map fun tab => cellTexts context.tools archive strings tab.part) =
        visibleTexts context.tools archive strings context.limits.maxSpreadsheetCells
          (numberedSheets names)

/-! ## The text of a spreadsheet is made of the sections -/

section

variable {context : ExtractionContext} {archive : ZipArchive}

theorem xlsxLoop_written (strings titles parts : List Text) (index : Nat) (text : Text)
    (cellsSeen bytesRead : Nat) :
    xlsxLoop context archive strings titles index parts text cellsSeen bytesRead =
      (writtenLoop context archive strings titles index parts cellsSeen bytesRead).map
        fun (sheets, truncated) => (sheets.foldl appendSheet text, truncated) := by
  induction parts generalizing index text cellsSeen bytesRead with
  | nil => rfl
  | cons part rest ih =>
    unfold xlsxLoop writtenLoop
    by_cases hcancel : context.tools.isCancelled (index + 1) = true
    · rw [if_pos hcancel, if_pos hcancel]
      rfl
    rw [if_neg hcancel, if_neg hcancel]
    cases readEntry context.limits archive part bytesRead with
    | error failure => rfl
    | ok entry =>
      dsimp only
      cases parseWorksheet context.tools entry.1 strings
          (context.limits.maxSpreadsheetCells - cellsSeen) with
      | error failure => rfl
      | ok sheet =>
        dsimp only
        by_cases htruncated : sheet.truncated = true
        · rw [if_pos htruncated, if_pos htruncated]
          rfl
        · rw [if_neg htruncated, if_neg htruncated, ih]
          cases writtenLoop context archive strings titles (index + 1) rest
              (cellsSeen + sheet.cellsSeen) entry.2 with
          | error failure => rfl
          | ok sheets => rfl

theorem xlsxText_written (names : List Text) :
    xlsxText context archive names =
      (writtenSheets context archive names).map fun (sheets, truncated) =>
        (sheets.foldl appendSheet [], truncated,
          min (numberedSheets names).length (2 ^ 32 - 1)) := by
  unfold xlsxText writtenSheets
  cases optionalPart context archive names "xl/sharedStrings.xml"
      (parseSharedStrings context.tools) 0 with
  | error failure => rfl
  | ok strings =>
    dsimp only
    cases optionalPart context archive names "xl/workbook.xml"
        (parseSheetNames context.tools) strings.2 with
    | error failure => rfl
    | ok titles =>
      dsimp only
      rw [xlsxLoop_written]
      change Except.map _ (Except.map _ (writtenLoop context archive strings.1 titles.1 0
        (numberedSheets names) 0 titles.2)) = _
      cases writtenLoop context archive strings.1 titles.1 0 (numberedSheets names) 0 titles.2 with
      | error failure => rfl
      | ok sheets => rfl

end

/-! ## What is read -/

section

variable {tools : Tools}

/-- The names among the attributes of an element are added in their order. -/
theorem sheetAttributes_eq {attributes : List (Bytes × Text)} {values : List Text}
    (h : List.Forall₂ (fun raw value => tools.unescape raw = some value)
      (attributeValues "name" attributes) values) (names : List Text) :
    sheetAttributes tools attributes names = .ok (names ++ values) := by
  induction attributes generalizing names values with
  | nil =>
    cases h
    simp [sheetAttributes]
  | cons first rest ih =>
    obtain ⟨key, raw⟩ := first
    unfold sheetAttributes
    by_cases hkey : localName key = ascii "name"
    · rw [if_pos hkey]
      have hvalues : attributeValues "name" ((key, raw) :: rest) =
          raw :: attributeValues "name" rest := by simp [attributeValues, hkey]
      rw [hvalues] at h
      cases h with
      | @cons _ value _ values hvalue hrest =>
        rw [hvalue]
        dsimp only
        rw [ih hrest, List.append_assoc, List.singleton_append]
    · rw [if_neg hkey]
      have hvalues : attributeValues "name" ((key, raw) :: rest) =
          attributeValues "name" rest := by simp [attributeValues, hkey]
      rw [hvalues] at h
      exact ih h names

theorem HasAttribute.sheetAttributes_eq {attributes : List (Bytes × Text)} {name : Text}
    (h : HasAttribute tools "name" attributes name) (names : List Text) :
    sheetAttributes tools attributes names = .ok (names ++ [name]) := by
  obtain ⟨raw, hvalues, hraw⟩ := h
  exact Zemo.Extraction.sheetAttributes_eq (hvalues ▸ .cons hraw .nil) names

/-- The titles are the names of the sheet elements, in their order. -/
theorem sheetNamesLoop_titles {wellFormed : Bool} {events : List XmlEvent}
    {names titles result : List Text}
    (hnames : List.Forall₂ (HasAttribute tools "name") (elements "sheet" events) titles)
    (h : sheetNamesLoop tools wellFormed events names = .ok result) : result = names ++ titles := by
  induction events generalizing names titles with
  | nil =>
    cases hnames
    unfold sheetNamesLoop at h
    split_ifs at h
    rw [List.append_nil]
    exact (Except.ok.inj h).symm
  | cons event rest ih =>
    -- an event that opens no sheet element is passed over
    have hpass (hevent : elements "sheet" (event :: rest) = elements "sheet" rest)
        (h : sheetNamesLoop tools wellFormed rest names = .ok result) : result = names ++ titles :=
      ih (hevent ▸ hnames) h
    have hsheet {attributes : List (Bytes × Text)}
        (hevent : elements "sheet" (event :: rest) = attributes :: elements "sheet" rest) :
        ∃ title, sheetAttributes tools attributes names = .ok (names ++ [title]) ∧
          (sheetNamesLoop tools wellFormed rest (names ++ [title]) = .ok result →
            result = names ++ titles) := by
      rw [hevent] at hnames
      cases hnames with
      | @cons _ title _ titles hfirst hrest =>
        refine ⟨title, hfirst.sheetAttributes_eq names, fun h => ?_⟩
        rw [ih hrest h, List.append_assoc, List.singleton_append]
    cases event with
    | start name attributes =>
      unfold sheetNamesLoop at h
      by_cases hname : localName name = ascii "sheet"
      · rw [if_pos hname] at h
        obtain ⟨title, hread, hrest⟩ :=
          @hsheet attributes (by simp [elements, hname])
        rw [hread] at h
        exact hrest h
      · rw [if_neg hname] at h
        exact hpass (by simp [elements, hname]) h
    | empty name attributes =>
      unfold sheetNamesLoop at h
      by_cases hname : localName name = ascii "sheet"
      · rw [if_pos hname] at h
        obtain ⟨title, hread, hrest⟩ :=
          @hsheet attributes (by simp [elements, hname])
        rw [hread] at h
        exact hrest h
      · rw [if_neg hname] at h
        exact hpass (by simp [elements, hname]) h
    | text decoded => exact hpass (by simp [elements]) h
    | close name => exact hpass (by simp [elements]) h
    | other => exact hpass (by simp [elements]) h

end

section

variable {context : ExtractionContext} {archive : ZipArchive}

/-- An entry that is read is the part of the archive. -/
theorem readEntry_partXml {limits : ExtractionLimits} {name : Text} {totalRead : Nat}
    {entry : Bytes × Nat} (h : readEntry limits archive name totalRead = .ok entry) :
    partXml archive name = some entry.1 := by
  unfold readEntry at h
  unfold partXml
  cases hpart : archive.part name with
  | none => rw [hpart] at h; exact nomatch h
  | some part =>
    obtain ⟨size, content⟩ := part
    rw [hpart] at h
    dsimp only at h
    split_ifs at h
    cases content with
    | none => exact nomatch h
    | some bytes =>
      dsimp only at h
      split_ifs at h
      rw [← Except.ok.inj h]
      rfl

/-- What is read of a part that the archive may have. -/
theorem optionalPart_values {α : Type} {names : List Text} {name : String}
    {parse : Bytes → Except ExtractionFailure (List α)} {bytesRead : Nat}
    {result : List α × Nat}
    (h : optionalPart context archive names name parse bytesRead = .ok result) :
    result.1 = partValues archive names name parse := by
  unfold optionalPart at h
  unfold partValues
  by_cases hname : name.toList ∈ names
  · rw [if_pos hname] at h ⊢
    cases hentry : readEntry context.limits archive name.toList bytesRead with
    | error failure => rw [hentry] at h; exact nomatch h
    | ok entry =>
      rw [hentry] at h
      rw [readEntry_partXml hentry]
      change (parse entry.1).map _ = _ at h
      cases hparse : parse entry.1 with
      | error failure => rw [hparse] at h; exact nomatch h
      | ok values =>
        rw [hparse] at h
        rw [← Except.ok.inj h]
        simp [hparse, Except.toOption]
  · rw [if_neg hname] at h ⊢
    rw [← Except.ok.inj h]

/-- The titles that are read of a workbook are the names of its tabs, in their order. -/
theorem IsWorkbook.titles_eq {resolve : Text → Text} {names : List Text} {tabs : List Tab}
    {bytesRead : Nat} {result : List Text × Nat}
    (hbook : IsWorkbook context.tools resolve archive names tabs)
    (hmem : "xl/workbook.xml".toList ∈ names)
    (h : optionalPart context archive names "xl/workbook.xml" (parseSheetNames context.tools)
      bytesRead = .ok result) : result.1 = tabs.map Tab.name := by
  obtain ⟨xml, hxml, hlisted⟩ := hbook.listed
  have hnames : List.Forall₂ (HasAttribute context.tools "name")
      (elements "sheet" (context.tools.readXml false xml).events) (tabs.map Tab.name) :=
    List.forall₂_map_right_iff.2 (hlisted.imp fun _ _ htab => htab.1)
  unfold optionalPart at h
  rw [if_pos hmem] at h
  cases hentry : readEntry context.limits archive "xl/workbook.xml".toList bytesRead with
  | error failure => rw [hentry] at h; exact nomatch h
  | ok entry =>
    rw [hentry] at h
    obtain rfl : xml = entry.1 :=
      Option.some.inj (hxml.symm.trans (readEntry_partXml hentry))
    change (parseSheetNames context.tools entry.1).map _ = _ at h
    cases hparse : parseSheetNames context.tools entry.1 with
    | error failure => rw [hparse] at h; exact nomatch h
    | ok titles =>
      rw [hparse] at h
      rw [← Except.ok.inj h]
      exact sheetNamesLoop_titles hnames hparse

end

/-! ## The cell limit -/

section

variable {tools : Tools} {strings : List Text} {wellFormed : Bool}

/-- With room for all cells that come, a worksheet is read as with any other such limit, and is not
cut. -/
theorem worksheetLoop_room {room room' : Nat} {events : List XmlEvent} {s : Worksheet}
    (hs : s.truncated = false) (hroom : s.cellsSeen + cellCount events ≤ room)
    (hroom' : s.cellsSeen + cellCount events ≤ room') :
    worksheetLoop tools strings room wellFormed events s =
        worksheetLoop tools strings room' wellFormed events s ∧
      ∀ sheet, worksheetLoop tools strings room wellFormed events s = .ok sheet →
        sheet.truncated = false := by
  induction events generalizing s with
  | nil =>
    unfold worksheetLoop
    refine ⟨rfl, fun sheet h => ?_⟩
    split_ifs at h
    rw [← Except.ok.inj h, hs]
  | cons event rest ih =>
    have hskip {s' : Worksheet} (htruncated : s'.truncated = false)
        (hseen : s'.cellsSeen + cellCount rest ≤ s.cellsSeen + cellCount (event :: rest)) :=
      @ih s' htruncated (hseen.trans hroom) (hseen.trans hroom')
    cases event with
    | start name attributes =>
      unfold worksheetLoop
      by_cases hc : localName name = ascii "c"
      · have hcount : cellCount (.start name attributes :: rest) = cellCount rest + 1 :=
          List.countP_cons_of_pos (by simpa using hc)
        rw [if_pos hc, if_pos hc, if_neg (by omega), if_neg (by omega)]
        exact hskip hs (by rw [hcount]; dsimp only; omega)
      · have hcount : cellCount (.start name attributes :: rest) = cellCount rest :=
          List.countP_cons_of_neg (by simpa using hc)
        rw [if_neg hc, if_neg hc]
        split_ifs
        · exact hskip hs (by rw [hcount])
        · exact hskip hs (by rw [hcount])
        · exact hskip hs (by rw [hcount])
    | empty name attributes =>
      unfold worksheetLoop
      by_cases hc : localName name = ascii "c"
      · have hcount : cellCount (.empty name attributes :: rest) = cellCount rest + 1 :=
          List.countP_cons_of_pos (by simpa using hc)
        rw [if_pos hc, if_pos hc, if_neg (by omega), if_neg (by omega)]
        exact hskip hs (by rw [hcount]; dsimp only; omega)
      · have hcount : cellCount (.empty name attributes :: rest) = cellCount rest :=
          List.countP_cons_of_neg (by simpa using hc)
        rw [if_neg hc, if_neg hc]
        exact hskip hs (by rw [hcount])
    | text decoded =>
      have hcount : cellCount (.text decoded :: rest) = cellCount rest :=
        List.countP_cons_of_neg (by simp)
      unfold worksheetLoop
      split_ifs
      · cases eventText tools decoded with
        | error failure => exact ⟨rfl, (fun _ h => by cases h)⟩
        | ok text => exact hskip hs (by rw [hcount])
      · exact hskip hs (by rw [hcount])
    | close name =>
      have hcount : cellCount (.close name :: rest) = cellCount rest :=
        List.countP_cons_of_neg (by simp)
      unfold worksheetLoop
      split_ifs
      · exact hskip hs (by rw [hcount])
      · exact hskip hs (by rw [hcount]; rfl)
      · exact hskip hs (by rw [hcount])
    | other =>
      unfold worksheetLoop
      exact hskip hs (by rw [show cellCount (.other :: rest) = cellCount rest from
        List.countP_cons_of_neg (by simp)])

/-- A worksheet that can be read is cut exactly where its cells are more than there is room for. -/
theorem parseWorksheet_truncated_iff {xml : Bytes} {room : Nat} {sheet : Worksheet}
    (h : parseWorksheet tools xml strings room = .ok sheet) :
    sheet.truncated = true ↔ room < cellCount (tools.readXml true xml).events := by
  constructor
  · intro htruncated
    refine Nat.not_le.1 fun hfits => ?_
    have hwhole := (@worksheetLoop_room tools strings _ room room _ {} rfl
      (by simpa using hfits) (by simpa using hfits)).2 sheet h
    rw [hwhole] at htruncated
    exact nomatch htruncated
  · intro hmore
    by_contra hwhole
    obtain ⟨hseen, hmax⟩ := parseWorksheet_cells h (by simpa using hwhole)
    omega

end

theorem partCells_eq {tools : Tools} {archive : ZipArchive} {part : Text} {xml : Bytes}
    (h : partXml archive part = some xml) :
    partCells tools archive part = cellCount (tools.readXml true xml).events := by
  unfold partXml at h
  unfold partCells
  obtain ⟨⟨size, content⟩, hpart, rfl⟩ := Option.bind_eq_some_iff.1 h
  rw [hpart]

/-! ## The names that are written -/

section

variable {context : ExtractionContext} {archive : ZipArchive}

/-- The loop writes the texts within the cell limit of the parts that it reaches, each under the
title at its place. -/
theorem writtenLoop_eq {strings titles parts : List Text} {index cellsSeen bytesRead : Nat}
    {written : List (Text × List Text)} {truncated : Bool}
    (h : writtenLoop context archive strings titles index parts cellsSeen bytesRead =
      .ok (written, truncated)) :
    written.map Prod.snd = visibleTexts context.tools archive strings
        (context.limits.maxSpreadsheetCells - cellsSeen) parts ∧
      written.map Prod.fst =
        (List.range' index written.length).map (displayName titles) := by
  induction parts generalizing index cellsSeen bytesRead written with
  | nil =>
    obtain ⟨rfl, -⟩ := Prod.mk.inj (Except.ok.inj h)
    exact ⟨rfl, rfl⟩
  | cons part rest ih =>
    unfold writtenLoop at h
    split_ifs at h
    cases hentry : readEntry context.limits archive part bytesRead with
    | error failure => rw [hentry] at h; exact nomatch h
    | ok entry =>
      rw [hentry] at h
      dsimp only at h
      have hxml := readEntry_partXml hentry
      cases hsheet : parseWorksheet context.tools entry.1 strings
          (context.limits.maxSpreadsheetCells - cellsSeen) with
      | error failure => rw [hsheet] at h; exact nomatch h
      | ok sheet =>
        rw [hsheet] at h
        dsimp only at h
        have hcut := parseWorksheet_truncated_iff hsheet
        rw [← partCells_eq hxml] at hcut
        have htexts : textsWithin context.tools archive strings
            (context.limits.maxSpreadsheetCells - cellsSeen) part = sheet.values := by
          simp [textsWithin, hxml, hsheet, Except.toOption]
        unfold visibleTexts
        rw [htexts]
        by_cases htruncated : sheet.truncated = true
        · rw [if_pos htruncated] at h
          obtain ⟨rfl, -⟩ := Prod.mk.inj (Except.ok.inj h)
          rw [if_pos (hcut.1 htruncated)]
          exact ⟨rfl, rfl⟩
        · rw [if_neg htruncated] at h
          rw [if_neg fun hmore => htruncated (hcut.2 hmore)]
          cases hrest : writtenLoop context archive strings titles (index + 1) rest
              (cellsSeen + sheet.cellsSeen) entry.2 with
          | error failure => rw [hrest] at h; exact nomatch h
          | ok sheets =>
            obtain ⟨sheets, cut⟩ := sheets
            rw [hrest] at h
            obtain ⟨rfl, rfl⟩ := Prod.mk.inj (Except.ok.inj h)
            obtain ⟨htexts, hnames⟩ := ih hrest
            have hseen := (parseWorksheet_cells hsheet (by simpa using htruncated)).1
            rw [← partCells_eq hxml] at hseen
            refine ⟨?_, ?_⟩
            · rw [List.map_cons, htexts, hseen, Nat.sub_sub]
            · rw [List.map_cons, hnames, List.length_cons, List.range'_succ, List.map_cons]

/-- As many titles as places: each place has its own. -/
theorem range_displayName (titles : List Text) :
    (List.range' 0 titles.length).map (displayName titles) = titles := by
  refine List.ext_getElem (by simp) fun i h h' => ?_
  rw [List.getElem_map, List.getElem_range', Nat.zero_add, Nat.one_mul, displayName,
    List.getElem?_eq_getElem h', Option.getD_some]

/-- What is written belongs to the tabs exactly where the texts written do, place by place, tabs of
one name aside. -/
theorem exists_order_iff {tabs : List Tab} {texts : Text → List Text}
    {written : List (Text × List Text)}
    (hnames : written.map Prod.fst =
      (List.range' 0 written.length).map (displayName (tabs.map Tab.name))) :
    (∃ order : List Tab, order.Perm tabs ∧
        written = order.map fun tab => (tab.name, texts tab.part)) ↔
      ∃ order : List Tab, order.Perm tabs ∧ order.map Tab.name = tabs.map Tab.name ∧
        (order.map fun tab => texts tab.part) = written.map Prod.snd := by
  have htitles (hlength : written.length = tabs.length) :
      written.map Prod.fst = tabs.map Tab.name := by
    have hlength' : written.length = (tabs.map Tab.name).length := by
      rw [hlength, List.length_map]
    rw [hnames, hlength', range_displayName]
  constructor
  · rintro ⟨order, hperm, rfl⟩
    have htabs := htitles (by rw [List.length_map, hperm.length_eq])
    refine ⟨order, hperm, ?_, ?_⟩
    · rw [← htabs, List.map_map]
      rfl
    · rw [List.map_map]
      rfl
  · rintro ⟨order, hperm, horder, htexts⟩
    have hlength : written.length = tabs.length := by
      have hsame := congrArg List.length htexts
      rw [List.length_map, List.length_map, hperm.length_eq] at hsame
      exact hsame.symm
    refine ⟨order, hperm, ?_⟩
    rw [List.zip_of_prod (htitles hlength) htexts.symm, ← horder, List.zip_map']

/-- **The worksheets of an XLSX package are written under their own names, once each, and counted,
exactly where the parts in the order of their numbers show what the tabs in theirs do**: the text is
made of the sections that are written. -/
theorem sheets_attributed_iff {resolve : Text → Text} {input : ExtractionInput}
    {names : List Text} {tabs : List Tab} {payload : ExtractionPayload}
    (hopens : OpensOffice .xlsx input context archive names)
    (hbook : IsWorkbook context.tools resolve archive names tabs)
    (hok : extractOffice .xlsx input context = .ok payload) :
    ∃ written, writtenSheets context archive names = .ok (written, payload.truncated) ∧
      payload.text = written.foldl appendSheet [] ∧
      (Attributed context.tools archive (sharedStrings context.tools archive names) tabs written
        payload.sheetCount ↔ InPlace context archive names tabs) := by
  rw [extractOffice_of_opens hopens] at hok
  unfold officePayload at hok
  rw [xlsxText_written] at hok
  cases hwritten : writtenSheets context archive names with
  | error failure => rw [hwritten] at hok; exact nomatch hok
  | ok sheets =>
    obtain ⟨written, truncated⟩ := sheets
    rw [hwritten] at hok
    obtain rfl := Except.ok.inj hok
    have hcount : (xlsxPayload context.limits (written.foldl appendSheet []) truncated
        (min (numberedSheets names).length (2 ^ 32 - 1))).sheetCount =
          some (min (sheetNames names).length (2 ^ 32 - 1)) := by
      have hperm : (numberedSheets names).Perm (sheetNames names) := List.perm_insertionSort _ _
      rw [← hperm.length_eq]
      unfold xlsxPayload
      cases truncated <;> rfl
    refine ⟨written, ?_, xlsxPayload_text _ _ _ _, ?_⟩
    · unfold xlsxPayload
      cases truncated <;> rfl
    have hmem : "xl/workbook.xml".toList ∈ names := by
      have hkind := hopens.2.2.2
      by_contra hmissing
      simp only [officeKind, hmissing, false_and, if_false] at hkind
      split_ifs at hkind <;> cases hkind
    unfold writtenSheets at hwritten
    cases hstrings : optionalPart context archive names "xl/sharedStrings.xml"
        (parseSharedStrings context.tools) 0 with
    | error failure => rw [hstrings] at hwritten; exact nomatch hwritten
    | ok strings =>
      rw [hstrings] at hwritten
      dsimp only at hwritten
      cases htitles : optionalPart context archive names "xl/workbook.xml"
          (parseSheetNames context.tools) strings.2 with
      | error failure => rw [htitles] at hwritten; exact nomatch hwritten
      | ok titles =>
        rw [htitles] at hwritten
        dsimp only at hwritten
        obtain ⟨htexts, hnames⟩ := writtenLoop_eq hwritten
        rw [hbook.titles_eq hmem htitles] at hnames
        rw [optionalPart_values hstrings, Nat.sub_zero] at htexts
        unfold Attributed InPlace
        rw [exists_order_iff hnames, hcount, htexts, Option.some_inj, and_comm]
        rfl

end

/-! ## A tab that was moved -/

def firstTab : Tab := ⟨"A".toList, "rId1".toList, "xl/worksheets/sheet1.xml".toList⟩

def secondTab : Tab := ⟨"B".toList, "rId2".toList, "xl/worksheets/sheet2.xml".toList⟩

/-- A worksheet of one cell. -/
def oneCell (text : String) : List XmlEvent :=
  [.start (ascii "c") [(ascii "t", "str".toList)], .start (ascii "v") [],
    .text (some text.toList), .close (ascii "v"), .close (ascii "c")]

/-- The parts of a package whose tabs stand in an order. -/
def bookEvents (tabs : List Tab) : Bytes → List XmlEvent
  | [0] => tabs.map fun tab =>
      .empty (ascii "sheet") [(ascii "name", tab.name), (ascii "r:id", tab.id)]
  | [1] => [firstTab, secondTab].map fun tab =>
      .empty (ascii "Relationship") [(ascii "Id", tab.id), (ascii "Target", tab.part.drop 3)]
  | [2] => oneCell "one"
  | [3] => oneCell "two"
  | _ => []

/-- The parts of the package. -/
def bookParts : List Text :=
  ["xl/workbook.xml".toList, "xl/_rels/workbook.xml.rels".toList, firstTab.part, secondTab.part]

/-- The package: each part is one byte, its place. -/
def bookArchive : ZipArchive where
  entries := bookParts.map fun part => some ⟨part, 1, 1⟩
  part name :=
    if name ∈ bookParts then some (1, some [(bookParts.idxOf name).toUInt8]) else none

def bookTools (tabs : List Tab) : Tools :=
  { partTools fun _ => [] with
    openZip := fun _ => some bookArchive
    readXml := fun _ xml => ⟨bookEvents tabs xml, true⟩ }

def bookContext (tabs : List Tab) : ExtractionContext := ⟨{}, bookTools tabs, []⟩

def bookInput : ExtractionInput :=
  ⟨[0x50, 0x4b], false, ⟨some "xlsx", .office .xlsx, "", true, false⟩⟩

/-- A target of a relationship of the workbook, which is in the folder `xl`. -/
def besideWorkbook (target : Text) : Text := "xl/".toList ++ target

/-- The attributes of the two tabs are read, in whatever order they stand. -/
theorem book_listed (tabs : List Tab) :
    List.Forall₂ (fun attributes tab =>
        HasAttribute (bookTools tabs) "name" attributes tab.name ∧
          HasAttribute (bookTools tabs) "id" attributes tab.id)
      (elements "sheet" (bookEvents tabs [0])) tabs := by
  have helements : elements "sheet" (bookEvents tabs [0]) =
      tabs.map fun tab => [(ascii "name", tab.name), (ascii "r:id", tab.id)] := by
    have hsheet : localName (ascii "sheet") = ascii "sheet" := by decide
    simp [elements, bookEvents, List.filterMap_map, hsheet]
  rw [helements, List.forall₂_map_left_iff]
  have hname : localName (ascii "name") = ascii "name" := by decide
  have hid : localName (ascii "r:id") = ascii "id" := by decide
  have hother : ascii "id" ≠ ascii "name" := by decide
  refine List.forall₂_same.2 fun tab _ => ⟨⟨tab.name, ?_, rfl⟩, ⟨tab.id, ?_, rfl⟩⟩
  · simp [attributeValues, hname, hid, hother]
  · simp [attributeValues, hname, hid, hother.symm]

theorem book_isWorkbook {tabs : List Tab} (h : tabs.Perm [firstTab, secondTab]) :
    IsWorkbook (bookTools tabs) besideWorkbook bookArchive bookParts tabs where
  listed := ⟨[0], by decide, book_listed tabs⟩
  related := by
    refine ⟨[1], by decide, fun tab htab => ?_⟩
    have htab := h.mem_iff.1 htab
    simp only [List.mem_cons, List.not_mem_nil, or_false] at htab
    rcases htab with rfl | rfl
    · exact ⟨_, List.mem_cons_self, firstTab.part.drop 3, ⟨_, by decide, rfl⟩,
        ⟨_, by decide, rfl⟩, by decide⟩
    · exact ⟨_, List.mem_cons_of_mem _ List.mem_cons_self, secondTab.part.drop 3,
        ⟨_, by decide, rfl⟩, ⟨_, by decide, rfl⟩, by decide⟩
  stored := by
    intro tab htab
    have htab := h.mem_iff.1 htab
    simp only [List.mem_cons, List.not_mem_nil, or_false] at htab
    rcases htab with rfl | rfl <;> decide
  distinct := ((h.map Tab.part).nodup_iff).2 (by decide)
  readable := by
    intro tab htab
    have htab := h.mem_iff.1 htab
    simp only [List.mem_cons, List.not_mem_nil, or_false] at htab
    rcases htab with rfl | rfl
    · exact ⟨[2], _, by decide, rfl⟩
    · exact ⟨[3], _, by decide, rfl⟩

/-- Two tabs in the order of their parts. -/
theorem sheets_attributed_iff_book :
    ∃ payload, extractOffice .xlsx bookInput (bookContext [firstTab, secondTab]) = .ok payload ∧
      ∃ written, writtenSheets (bookContext [firstTab, secondTab]) bookArchive bookParts =
          .ok (written, payload.truncated) ∧
        payload.text = written.foldl appendSheet [] ∧
        (Attributed (bookTools [firstTab, secondTab]) bookArchive
            (sharedStrings (bookTools [firstTab, secondTab]) bookArchive bookParts)
            [firstTab, secondTab] written payload.sheetCount ↔
          InPlace (bookContext [firstTab, secondTab]) bookArchive bookParts
            [firstTab, secondTab]) := by
  have hok : ∃ payload,
      extractOffice .xlsx bookInput (bookContext [firstTab, secondTab]) = .ok payload := ⟨_, rfl⟩
  obtain ⟨payload, hok⟩ := hok
  exact ⟨payload, hok, sheets_attributed_iff ⟨rfl, rfl, rfl, by decide⟩
    (book_isWorkbook (.refl _)) hok⟩

/-- The second tab was moved before the first one: each of the two worksheets is written under the
name of the other. -/
theorem movedTab_misnames :
    OpensOffice .xlsx bookInput (bookContext [secondTab, firstTab]) bookArchive bookParts ∧
      IsWorkbook (bookTools [secondTab, firstTab]) besideWorkbook bookArchive bookParts
        [secondTab, firstTab] ∧
      ∃ payload written,
        extractOffice .xlsx bookInput (bookContext [secondTab, firstTab]) = .ok payload ∧
        writtenSheets (bookContext [secondTab, firstTab]) bookArchive bookParts =
          .ok (written, payload.truncated) ∧
        payload.text = "[Sheet: B]\none\n[Sheet: A]\ntwo".toList ∧
        ¬Attributed (bookTools [secondTab, firstTab]) bookArchive
          (sharedStrings (bookTools [secondTab, firstTab]) bookArchive bookParts)
          [secondTab, firstTab] written payload.sheetCount := by
  refine ⟨⟨rfl, rfl, rfl, by decide⟩, book_isWorkbook (.swap _ _ _), _, _, rfl, rfl,
    by decide +kernel, ?_⟩
  rintro ⟨⟨order, hperm, hwritten⟩, -⟩
  have hmem : ("B".toList, ["one".toList]) ∈ order.map fun tab =>
      (tab.name, cellTexts (bookTools [secondTab, firstTab]) bookArchive
        (sharedStrings (bookTools [secondTab, firstTab]) bookArchive bookParts) tab.part) :=
    hwritten ▸ List.mem_cons_self
  obtain ⟨tab, htab, heq⟩ := List.mem_map.1 hmem
  have htab := hperm.mem_iff.1 htab
  simp only [List.mem_cons, List.not_mem_nil, or_false] at htab
  rcases htab with rfl | rfl
  · exact absurd heq (by decide +kernel)
  · exact absurd heq (by decide +kernel)

end Zemo.Extraction
