import Zemo.Extraction.Documents
import Zemo.Lib.Texts

set_option autoImplicit false

/-! # Text in XML

A text is written in XML character by character, some of them as references: the ampersand and the
less-than sign must be. The reader cuts it at the references, delivers each one as an event of its
own and, when asked to, takes the blanks off both ends of every text event. The loops of the Office
extractors add up the text events, so what they read is the text when nothing was cut off. -/

namespace Zemo.Extraction

open Texts (trim)

/-! ## Writing -/

/-- A character of a text, written as itself or as a reference. -/
structure Symbol where
  char : Char
  referenced : Bool
  required : referenced = false → char ≠ '&' ∧ char ≠ '<'

/-- A text as it is written. -/
abbrev Markup := List Symbol

/-- The text that is written. -/
def Markup.text (markup : Markup) : Text := markup.map Symbol.char

/-- The parts that are written as themselves. -/
def Markup.chunks (markup : Markup) : List Text :=
  (markup.splitOnP Symbol.referenced).map fun chunk => chunk.map Symbol.char

/-- The white space of XML. -/
def isXmlSpace (c : Char) : Bool := c = ' ' || c = '\t' || c = '\r' || c = '\n'

/-- The text of an event, with or without `trim_text`. -/
def delivered (trims : Bool) (chunk : Text) : Text := if trims then trim isXmlSpace chunk else chunk

/-- The events of a part between references: there is none for an empty text. -/
def chunkEvents (trims : Bool) (chunk : Text) : List XmlEvent :=
  if delivered trims chunk = [] then [] else [.text (some (delivered trims chunk))]

/-- The events of a text; a reference is one that the loops do not name. -/
def Markup.events (trims : Bool) (markup : Markup) : List XmlEvent :=
  [XmlEvent.other].intercalate (markup.chunks.map (chunkEvents trims))

/-- What the text events of a text add up to. -/
def Markup.read (trims : Bool) (markup : Markup) : Text :=
  (markup.chunks.map (delivered trims)).flatten

/-- `unescape` of a text without references. -/
def UnescapesPlain (tools : Tools) : Prop := ∀ text, '&' ∉ text → tools.unescape text = some text

/-- The part of a text that is written as itself. -/
def Markup.literal (markup : Markup) : Text :=
  (markup.filter (! ·.referenced)).map Symbol.char

/-- The text is written without references, and has no blank at its ends. -/
def Markup.Plain (markup : Markup) : Prop :=
  (∀ symbol ∈ markup, symbol.referenced = false) ∧ trim isXmlSpace markup.text = markup.text

/-! ## Reading -/

variable {trims : Bool} {markup : Markup} {tools : Tools}

theorem delivered_sublist (trims : Bool) (chunk : Text) : (delivered trims chunk).Sublist chunk := by
  unfold delivered
  split
  · exact (List.rdropWhile_prefix _ _).sublist.trans (List.dropWhile_sublist _)
  · exact List.Sublist.refl _

/-- No ampersand is written as itself. -/
theorem ampersand_notMem {chunk : Text} (h : chunk ∈ markup.chunks) :
    '&' ∉ delivered trims chunk := by
  intro hmem
  obtain ⟨symbols, hsymbols, rfl⟩ := List.mem_map.1 h
  obtain ⟨symbol, hsymbol, hchar⟩ := List.mem_map.1 ((delivered_sublist trims _).mem hmem)
  exact (symbol.required (Texts.of_mem_splitOnP hsymbols hsymbol)).1 hchar

theorem eventText_delivered (hunescape : UnescapesPlain tools) {chunk : Text}
    (h : chunk ∈ markup.chunks) :
    eventText tools (some (delivered trims chunk)) = .ok (delivered trims chunk) := by
  simp only [eventText, Option.bind_some, hunescape _ (ampersand_notMem h)]

/-- A loop that, in the states of a kind, adds the text events and passes over the others adds up the
parts that are written as themselves. -/
theorem events_foldl {σ ε β : Type} {loop : List XmlEvent → σ → Except ε β} {add : σ → Text → σ}
    {Reads : σ → Prop} (hother : ∀ rest s, loop (.other :: rest) s = loop rest s)
    (htext : ∀ chunk ∈ markup.chunks, ∀ rest s, Reads s →
      loop (.text (some (delivered trims chunk)) :: rest) s
        = loop rest (add s (delivered trims chunk)))
    (hreads : ∀ a s, Reads s → Reads (add s a)) (hnil : ∀ s, add s [] = s) (rest : List XmlEvent)
    {s : σ} (hs : Reads s) :
    loop (markup.events trims ++ rest) s
      = loop rest ((markup.chunks.map (delivered trims)).foldl add s) := by
  have hchunk : ∀ chunk ∈ markup.chunks, ∀ rest s, Reads s →
      loop (chunkEvents trims chunk ++ rest) s = loop rest (add s (delivered trims chunk)) := by
    intro chunk hmem rest s hs
    unfold chunkEvents
    split
    · next h => rw [h, hnil, List.nil_append]
    · exact htext chunk hmem rest s hs
  unfold Markup.events
  generalize markup.chunks = chunks at hchunk
  clear htext
  induction chunks generalizing s with
  | nil => rfl
  | cons chunk chunks ih =>
    have hfirst := hchunk chunk (List.mem_cons_self ..)
    have hothers := @ih (add s (delivered trims chunk)) (hreads _ s hs) fun c hc =>
      hchunk c (List.mem_cons_of_mem _ hc)
    cases chunks with
    | nil => simpa using hfirst rest s hs
    | cons next chunks =>
      rw [List.map_cons, List.map_cons, List.intercalate_cons_cons, List.append_assoc,
        List.append_assoc, hfirst _ s hs, List.singleton_append, hother, ← List.map_cons, hothers]
      rfl

/-- When texts are added one behind the other, what is read is added. -/
theorem events_append {σ ε β : Type} {loop : List XmlEvent → σ → Except ε β} {add : Text → σ → σ}
    {Reads : σ → Prop} (hother : ∀ rest s, loop (.other :: rest) s = loop rest s)
    (htext : ∀ chunk ∈ markup.chunks, ∀ rest s, Reads s →
      loop (.text (some (delivered trims chunk)) :: rest) s
        = loop rest (add (delivered trims chunk) s))
    (hreads : ∀ a s, Reads s → Reads (add a s)) (hnil : ∀ s, add [] s = s)
    (hadd : ∀ a b s, add b (add a s) = add (a ++ b) s) (rest : List XmlEvent) {s : σ}
    (hs : Reads s) :
    loop (markup.events trims ++ rest) s = loop rest (add (markup.read trims) s) := by
  have hfold : ∀ (texts : List Text) (s : σ),
      texts.foldl (fun s text => add text s) s = add texts.flatten s := by
    intro texts
    induction texts with
    | nil => exact fun s => (hnil s).symm
    | cons text texts ih =>
      intro s
      rw [List.foldl_cons, ih, hadd, List.flatten_cons]
  rw [@events_foldl trims markup σ ε β loop (fun s text => add text s) Reads hother htext hreads
    hnil rest s hs, hfold]
  rfl

/-! ## Faithful reading -/

theorem flatten_chunks (markup : Markup) : markup.chunks.flatten = markup.literal := by
  rw [Markup.chunks, ← List.map_flatten, Texts.flatten_splitOnP, Markup.literal]

theorem read_false (markup : Markup) : markup.read false = markup.literal := by
  rw [← flatten_chunks, Markup.read]
  exact congrArg List.flatten (List.map_id _)

theorem read_sublist (trims : Bool) (markup : Markup) :
    (markup.read trims).Sublist markup.literal := by
  rw [← flatten_chunks, Markup.read]
  induction markup.chunks with
  | nil => exact List.Sublist.refl _
  | cons chunk rest ih => exact (delivered_sublist trims chunk).append ih

theorem literal_sublist (markup : Markup) : markup.literal.Sublist markup.text :=
  List.filter_sublist.map _

/-- **What is read is the text** when nothing is a reference and no blank is at an end. -/
theorem read_eq_text_iff : markup.read true = markup.text ↔ markup.Plain := by
  have hplain : (∀ symbol ∈ markup, symbol.referenced = false) →
      markup.read true = trim isXmlSpace markup.text := by
    intro h
    rw [Markup.read, Markup.chunks, List.splitOnP_eq_singleton h]
    simp [Markup.text, delivered]
  constructor
  · intro h
    have hlength := (read_sublist true markup).length_le
    rw [h, Markup.text, Markup.literal, List.length_map, List.length_map] at hlength
    have hall : ∀ symbol ∈ markup, symbol.referenced = false := by
      have heq := (List.filter_sublist (p := (! ·.referenced)) (l := markup)).eq_of_length_le hlength
      exact fun symbol hsymbol => by simpa using List.filter_eq_self.1 heq symbol hsymbol
    exact ⟨hall, (hplain hall).symm.trans h⟩
  · rintro ⟨hall, htrim⟩
    exact (hplain hall).trans htrim

/-- Runs are read as their texts when each of them is. -/
theorem flatMap_read_eq_iff (runs : List Markup) :
    runs.flatMap (Markup.read true) = runs.flatMap Markup.text ↔ ∀ run ∈ runs, run.Plain := by
  have hsub : ∀ run : Markup, (run.read true).Sublist run.text := fun run =>
    (read_sublist true run).trans (literal_sublist run)
  have hlength : ∀ runs : List Markup, (runs.flatMap (Markup.read true)).length
      ≤ (runs.flatMap Markup.text).length := by
    intro runs
    induction runs with
    | nil => exact le_rfl
    | cons run runs ih =>
      have := (hsub run).length_le
      rw [List.flatMap_cons, List.flatMap_cons, List.length_append, List.length_append]
      omega
  induction runs with
  | nil => simp
  | cons run runs ih =>
    rw [List.flatMap_cons, List.flatMap_cons, List.forall_mem_cons]
    constructor
    · intro h
      suffices hparts : run.read true = run.text
          ∧ runs.flatMap (Markup.read true) = runs.flatMap Markup.text from
        ⟨read_eq_text_iff.1 hparts.1, ih.1 hparts.2⟩
      refine List.append_inj h ?_
      -- neither of the two can be longer to make up for the other
      have htotal := congrArg List.length h
      have hrun := (hsub run).length_le
      have hruns := hlength runs
      rw [List.length_append, List.length_append] at htotal
      omega
    · rintro ⟨hrun, hruns⟩
      rw [read_eq_text_iff.2 hrun, ih.2 hruns]

/-- A reader of one part, the same in both ways; nothing else answers. -/
def partTools (events : Bool → List XmlEvent) : Tools where
  infer := fun _ => none
  openZip := fun _ => none
  readXml := fun trims _ => ⟨events trims, true⟩
  unescape := some
  loadPdf := fun _ => .error "no document"
  pdfText := fun _ => none
  blobSize := fun _ => none
  videoHeaders := fun _ => none
  tesseract := none
  renderPage := none
  gateLocks := fun _ => false
  parseF32 := fun _ => none
  isCancelled := fun _ => false
  panics := false
  elapsedMs := 0

end Zemo.Extraction
