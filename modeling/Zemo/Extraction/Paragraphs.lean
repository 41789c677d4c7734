import Mathlib.Algebra.Order.BigOperators.Group.List
import Zemo.Extraction.Spreadsheets

set_option autoImplicit false

/-! # Paragraphs of a document

A document as it is written in XML, by paragraphs and runs, and what `extract_word_text` reads of it.
The loop gets each paragraph in the parts that are written as themselves, without the blanks at
their ends, and puts a space between any two of them. So a paragraph keeps its words when that is
what stands there: a word must not go on in the next run, nor a character be a reference. -/

namespace Zemo.Extraction

open Organizer (trimChars)
open Texts (Blank Spaced spread trim weight)

/-! ## The parts of a text -/

/-- The parts of a text that are written as themselves, each behind the reference before it. -/
def Markup.pieces : Markup → List (Text × Text)
  | [] => [([], [])]
  | symbol :: rest =>
      if symbol.referenced then
        ([], []) :: (Markup.pieces rest).modifyHead fun piece => ([symbol.char], piece.2)
      else (Markup.pieces rest).modifyHead fun piece => (piece.1, symbol.char :: piece.2)

/-- The gaps before the parts that are shown, and these without the blanks at their ends. A gap has
what is not shown: blanks at the ends, references and parts of white space. -/
def gapsFrom : Text → List (Text × Text) → List (Text × Text)
  | _, [] => []
  | gap, (reference, chunk) :: rest =>
      if trimChars chunk = [] then gapsFrom (gap ++ reference ++ chunk) rest
      else (gap ++ reference ++ chunk.takeWhile isXmlSpace, trim isXmlSpace chunk)
        :: gapsFrom ((chunk.dropWhile isXmlSpace).rtakeWhile isXmlSpace) rest

/-- The gap behind the last part that is shown. -/
def lastGap : Text → List (Text × Text) → Text
  | gap, [] => gap
  | gap, (reference, chunk) :: rest =>
      if trimChars chunk = [] then lastGap (gap ++ reference ++ chunk) rest
      else lastGap ((chunk.dropWhile isXmlSpace).rtakeWhile isXmlSpace) rest

/-! ## Documents -/

section Documents

/-- The loop passes over the event. -/
def Silent : XmlEvent → Prop
  | .start name _ => localName name ≠ ascii "p"
  | .empty name _ => localName name ≠ ascii "tab" ∧ localName name ≠ ascii "br"
  | .text _ => False
  | .close _ | .other => True

/-- A run: its text behind its properties. -/
structure TextRun where
  properties : List XmlEvent
  silent : ∀ event ∈ properties, Silent event
  attributes : List (Bytes × Text)
  markup : Markup

/-- A paragraph: its runs behind its properties. -/
structure Paragraph where
  attributes : List (Bytes × Text)
  properties : List XmlEvent
  silent : ∀ event ∈ properties, Silent event
  runs : List TextRun

def Paragraph.text (paragraph : Paragraph) : Text :=
  paragraph.runs.flatMap fun run => run.markup.text

/-- The parts of a paragraph. -/
def Paragraph.pieces (paragraph : Paragraph) : List (Text × Text) :=
  paragraph.runs.flatMap fun run => run.markup.pieces

/-- Between two parts of the paragraph that show something, one space is left out; before the first
and behind the last, white space. -/
def Paragraph.KeepsWords (paragraph : Paragraph) : Prop :=
  Spaced isWhiteSpace ' ' (gapsFrom [] paragraph.pieces) (lastGap [] paragraph.pieces)

-- the names of the elements, with the prefix they have in the part
variable (tag : String → Bytes)

/-- The events of a run of text. -/
def TextRun.events (run : TextRun) : List XmlEvent :=
  .start (tag "r") [] :: (run.properties ++ .start (tag "t") run.attributes
    :: (run.markup.events true ++ [.close (tag "t"), .close (tag "r")]))

def Paragraph.events (paragraph : Paragraph) : List XmlEvent :=
  .start (tag "p") paragraph.attributes :: (paragraph.properties
    ++ (paragraph.runs.flatMap (TextRun.events tag) ++ [.close (tag "p")]))

end Documents

/-! ## What the loop writes -/

section Loop

variable {tag : String → Bytes} {tools : Tools}

/-- The parts of a paragraph, as they are delivered. -/
def Paragraph.delivered (paragraph : Paragraph) : List Text :=
  paragraph.runs.flatMap fun run => run.markup.chunks.map (Extraction.delivered true)

/-- The parts that show something. -/
def Paragraph.words (paragraph : Paragraph) : List Text :=
  paragraph.delivered.filter fun part => trimChars part ≠ []

/-- What is read of a paragraph. -/
def Paragraph.read (paragraph : Paragraph) : Text := [' '].intercalate paragraph.words

/-- The start of a paragraph: a new line, unless it is one. -/
def startParagraph (output : Text) : Text :=
  if output ≠ [] ∧ output.getLast? ≠ some '\n' then output ++ ['\n'] else output

theorem wordLoop_silent {events : List XmlEvent} (h : ∀ event ∈ events, Silent event)
    (wellFormed : Bool) (rest : List XmlEvent) (output : Text) :
    wordLoop tools wellFormed (events ++ rest) output = wordLoop tools wellFormed rest output := by
  induction events with
  | nil => rfl
  | cons event events ih =>
    have hevent := h event (List.mem_cons_self ..)
    have hothers := ih fun e he => h e (List.mem_cons_of_mem _ he)
    cases event with
    | start name attributes =>
      rw [List.cons_append, wordLoop, if_neg fun hp => hevent hp.1, hothers]
    | empty name attributes =>
      rw [List.cons_append, wordLoop, if_neg hevent.1, if_neg hevent.2, hothers]
    | text decoded => exact hevent.elim
    | close name => exact hothers
    | other => exact hothers

theorem appendWord_nil (output : Text) : appendWord output [] = output := if_pos rfl

theorem wordLoop_run (htag : ∀ name ∈ ["p", "r", "t"], localName (tag name) = ascii name)
    (hunescape : UnescapesPlain tools) (run : TextRun) (wellFormed : Bool) (rest : List XmlEvent)
    (output : Text) :
    wordLoop tools wellFormed (run.events tag ++ rest) output
      = wordLoop tools wellFormed rest
          ((run.markup.chunks.map (delivered true)).foldl appendWord output) := by
  have hsilent : ∀ name ∈ ["r", "t"], ∀ attributes, Silent (.start (tag name) attributes) := by
    intro name hname attributes
    rw [Silent, htag name (List.mem_cons_of_mem _ hname)]
    revert name
    decide
  have hfront : ∀ event ∈ .start (tag "r") [] :: (run.properties
      ++ [.start (tag "t") run.attributes]), Silent event := by
    rw [List.forall_mem_cons, List.forall_mem_append]
    exact ⟨hsilent _ (by simp) _, run.silent, List.forall_mem_singleton.2 (hsilent _ (by simp) _)⟩
  have hevents : run.events tag ++ rest = (.start (tag "r") [] :: (run.properties
      ++ [.start (tag "t") run.attributes])) ++ (run.markup.events true
        ++ (.close (tag "t") :: .close (tag "r") :: rest)) := by
    simp [TextRun.events]
  rw [hevents, wordLoop_silent hfront,
    @events_foldl true run.markup Text ExtractionFailure Text (wordLoop tools wellFormed) appendWord
      (fun _ => True) (fun _ _ => rfl) ?_ (fun _ _ _ => trivial) appendWord_nil _ output trivial]
  · rfl
  · intro chunk hchunk rest s _
    rw [wordLoop, eventText_delivered hunescape hchunk]

theorem wordLoop_paragraph (htag : ∀ name ∈ ["p", "r", "t"], localName (tag name) = ascii name)
    (hunescape : UnescapesPlain tools) (paragraph : Paragraph) (wellFormed : Bool)
    (rest : List XmlEvent) (output : Text) :
    wordLoop tools wellFormed (paragraph.events tag ++ rest) output
      = wordLoop tools wellFormed rest
          (paragraph.delivered.foldl appendWord (startParagraph output)) := by
  have hruns : ∀ (runs : List TextRun) (rest : List XmlEvent) (output : Text),
      wordLoop tools wellFormed (runs.flatMap (TextRun.events tag) ++ rest) output
        = wordLoop tools wellFormed rest
            ((runs.flatMap fun run => run.markup.chunks.map (delivered true)).foldl appendWord
              output) := by
    intro runs
    induction runs with
    | nil => exact fun _ _ => rfl
    | cons run runs ih =>
      intro rest output
      rw [List.flatMap_cons, List.append_assoc, wordLoop_run htag hunescape, ih, List.flatMap_cons,
        List.foldl_append]
  have hp : localName (tag "p") = ascii "p" := htag "p" (by simp)
  rw [Paragraph.events, List.cons_append, wordLoop, hp, List.append_assoc,
    wordLoop_silent paragraph.silent, List.append_assoc, hruns]
  simp only [true_and]
  rfl

/-- Lines that are ended. -/
def ended (lines : List Text) : Text := lines.flatMap fun line => line ++ ['\n']

/-- The output shows the lines, the last one ended or not. -/
def Shows (lines : List Text) (output : Text) : Prop :=
  output = ended lines ∨ ∃ front last, lines = front ++ [last] ∧ output = ended front ++ last

theorem ended_append (front back : List Text) : ended (front ++ back) = ended front ++ ended back :=
  List.flatMap_append

theorem getLast?_ended {lines : List Text} (h : ended lines ≠ []) :
    (ended lines).getLast? = some '\n' := by
  rcases List.eq_nil_or_concat lines with rfl | ⟨front, last, rfl⟩
  · exact absurd rfl h
  · rw [List.concat_eq_append, ended_append]
    simp [ended]

/-- A delivered part that shows something neither begins nor ends with a separator. -/
theorem delivered_ends {chunk : Text} (h : trimChars (delivered true chunk) ≠ []) :
    isSeparator (delivered true chunk).head? = false
      ∧ isSeparator (delivered true chunk).getLast? = false
      ∧ (delivered true chunk).getLast? ≠ some '\n' ∧ delivered true chunk ≠ [] := by
  have hne : trim isXmlSpace chunk ≠ [] := fun hnil => h (by rw [delivered, if_pos rfl, hnil]; rfl)
  obtain ⟨⟨first, hfirst, hfirstNot⟩, last, hlast, hlastNot⟩ :=
    Texts.solid_trim fun hblank => hne (Texts.trim_eq_nil_iff.2 hblank)
  have hseparator : ∀ c, isXmlSpace c = false → isSeparator (some c) = false ∧ c ≠ '\n' := by
    intro c hc
    unfold isXmlSpace at hc
    unfold isSeparator
    simp at hc ⊢
    tauto
  rw [delivered, if_pos rfl, Option.mem_def.1 hfirst, Option.mem_def.1 hlast]
  exact ⟨(hseparator first hfirstNot).1, (hseparator last hlastNot).1,
    fun h => (hseparator last hlastNot).2 (Option.some.inj h), hne⟩

/-- Behind a word, each part that shows something is written after a space. -/
theorem foldl_appendWord_behind {output : Text}
    (houtput : output ≠ [] ∧ isSeparator output.getLast? = false) {parts : List Text}
    (hparts : ∀ part ∈ parts, ∃ chunk, part = delivered true chunk) :
    parts.foldl appendWord output
      = output ++ (parts.filter fun part => trimChars part ≠ []).flatMap ([' '] ++ ·) := by
  induction parts generalizing output with
  | nil => simp
  | cons part parts ih =>
    obtain ⟨⟨chunk, rfl⟩, hothers⟩ := List.forall_mem_cons.1 hparts
    rw [List.foldl_cons]
    by_cases hshown : trimChars (delivered true chunk) = []
    · rw [appendWord, if_pos hshown, ih houtput hothers, List.filter_cons_of_neg (by simpa)]
    · obtain ⟨hhead, hlast, -, hne⟩ := delivered_ends hshown
      have hword : appendWord output (delivered true chunk)
          = output ++ ([' '] ++ delivered true chunk) := by
        rw [appendWord, if_neg hshown, if_pos ⟨houtput.1, by simp [houtput.2], by simp [hhead]⟩,
          List.append_assoc]
      rw [hword, ih ⟨by simp, ?_⟩ hothers, List.filter_cons_of_pos (by simpa), List.flatMap_cons,
        List.append_assoc]
      rw [← List.append_assoc, List.getLast?_append_of_ne_nil _ hne, hlast]

/-- The parts of a line are written with a space between those that show something. -/
theorem foldl_appendWord {start : Text} (hstart : start = [] ∨ start.getLast? = some '\n')
    {parts : List Text} (hparts : ∀ part ∈ parts, ∃ chunk, part = delivered true chunk) :
    parts.foldl appendWord start
      = start ++ [' '].intercalate (parts.filter fun part => trimChars part ≠ []) := by
  induction parts with
  | nil => simp
  | cons part parts ih =>
    obtain ⟨⟨chunk, rfl⟩, hothers⟩ := List.forall_mem_cons.1 hparts
    rw [List.foldl_cons]
    by_cases hshown : trimChars (delivered true chunk) = []
    · rw [appendWord, if_pos hshown, ih hothers, List.filter_cons_of_neg (by simpa)]
    · obtain ⟨-, hlast, -, hne⟩ := delivered_ends hshown
      have hword : appendWord start (delivered true chunk) = start ++ delivered true chunk := by
        have hno : ¬(start ≠ [] ∧ ¬isSeparator start.getLast?
            ∧ ¬isSeparator (delivered true chunk).head?) := by
          rintro ⟨hne, hseparator, -⟩
          rcases hstart with rfl | hend
          · exact hne rfl
          · rw [hend] at hseparator
            exact hseparator rfl
        rw [appendWord, if_neg hshown, if_neg hno, List.append_nil]
      rw [hword, foldl_appendWord_behind ⟨by simp [hne], ?_⟩ hothers,
        List.filter_cons_of_pos (by simpa), Texts.intercalate_eq_spread, List.append_assoc]
      · simp [spread, List.flatMap_map]
      · rw [List.getLast?_append_of_ne_nil _ hne, hlast]

theorem startParagraph_shows {lines : List Text} {output : Text} (h : Shows lines output)
    (hlines : ∀ line ∈ lines, line ≠ [] ∧ line.getLast? ≠ some '\n') :
    startParagraph output = ended lines := by
  unfold startParagraph
  rcases h with rfl | ⟨front, last, rfl, rfl⟩
  · rw [if_neg fun h => h.2 (getLast?_ended h.1)]
  · obtain ⟨hne, hlast⟩ := hlines last (by simp)
    rw [if_pos ⟨by simp [hne], by rwa [List.getLast?_append_of_ne_nil _ hne]⟩, ended_append]
    simp [ended]

theorem Paragraph.mem_delivered {paragraph : Paragraph} {part : Text}
    (h : part ∈ paragraph.delivered) : ∃ chunk, part = Extraction.delivered true chunk := by
  obtain ⟨run, -, hpart⟩ := List.mem_flatMap.1 h
  obtain ⟨chunk, -, rfl⟩ := List.mem_map.1 hpart
  exact ⟨chunk, rfl⟩

/-- What is read of a paragraph, when it is something, does not end with a separator. -/
theorem Paragraph.read_ends {paragraph : Paragraph} (h : paragraph.read ≠ []) :
    paragraph.read.getLast? ≠ some '\n' := by
  unfold Paragraph.read at h ⊢
  have hends : ∀ word ∈ paragraph.words, word ≠ [] ∧ word.getLast? ≠ some '\n' := by
    intro word hword
    obtain ⟨hmem, hshown⟩ := List.mem_filter.1 hword
    obtain ⟨chunk, rfl⟩ := mem_delivered hmem
    obtain ⟨-, -, hlast, hne⟩ := delivered_ends (by simpa using hshown)
    exact ⟨hne, hlast⟩
  generalize paragraph.words = words at h hends ⊢
  induction words with
  | nil => exact absurd rfl h
  | cons word words ih =>
    obtain ⟨⟨hne, hlast⟩, hothers⟩ := List.forall_mem_cons.1 hends
    cases words with
    | nil => simpa using hlast
    | cons next words =>
      have hrest : [' '].intercalate (next :: words) ≠ [] := by
        rw [Texts.intercalate_eq_spread]
        simp [(hothers next (by simp)).1]
      rw [List.intercalate_cons_cons, List.getLast?_append_of_ne_nil _ hrest]
      exact ih hrest hothers

/-- **What the paragraphs are read as**, each on a line of its own. -/
theorem wordLoop_paragraphs (htag : ∀ name ∈ ["p", "r", "t"], localName (tag name) = ascii name)
    (hunescape : UnescapesPlain tools) (wellFormed : Bool) (rest : List XmlEvent)
    (paragraphs : List Paragraph) {lines : List Text} {output : Text} (houtput : Shows lines output)
    (hlines : ∀ line ∈ lines, line ≠ [] ∧ line.getLast? ≠ some '\n') :
    ∃ output', wordLoop tools wellFormed (paragraphs.flatMap (Paragraph.events tag) ++ rest) output
        = wordLoop tools wellFormed rest output'
      ∧ Shows (lines ++ (paragraphs.map Paragraph.read).filter (· ≠ [])) output' := by
  induction paragraphs generalizing lines output with
  | nil => exact ⟨output, rfl, by simpa using houtput⟩
  | cons paragraph paragraphs ih =>
    rw [List.flatMap_cons, List.append_assoc, wordLoop_paragraph htag hunescape,
      startParagraph_shows houtput hlines, foldl_appendWord _ fun _ => Paragraph.mem_delivered]
    · change ∃ output', wordLoop tools wellFormed _ (ended lines ++ paragraph.read) = _ ∧ _
      by_cases hread : paragraph.read = []
      · rw [hread, List.append_nil, List.map_cons, List.filter_cons_of_neg (by simpa)]
        exact ih (.inl rfl) hlines
      · rw [List.map_cons, List.filter_cons_of_pos (by simpa), ← List.singleton_append,
          ← List.append_assoc]
        refine ih (.inr ⟨lines, _, rfl, rfl⟩) ?_
        rw [List.forall_mem_append]
        exact ⟨hlines, List.forall_mem_singleton.2 ⟨hread, Paragraph.read_ends hread⟩⟩
    · by_cases hnil : ended lines = []
      · exact .inl hnil
      · exact .inr (getLast?_ended hnil)

theorem trimChars_shows {lines : List Text} {output : Text} (h : Shows lines output) :
    trimChars output = trimChars (['\n'].intercalate lines) := by
  have hline : Blank isWhiteSpace ['\n'] := List.all_eq_true.1 (by decide)
  have hended : ∀ (front : List Text) (last : Text),
      ended front ++ last = ['\n'].intercalate (front ++ [last]) := by
    intro front last
    induction front with
    | nil => simp [ended]
    | cons line front ih =>
      have hcons : ended (line :: front) ++ last = line ++ ['\n'] ++ (ended front ++ last) := by
        simp [ended]
      rw [hcons, ih]
      cases front with
      | nil => simp [List.intercalate_cons_cons]
      | cons next front => exact (List.intercalate_cons_cons ..).symm
  rcases h with rfl | ⟨front, last, rfl, rfl⟩
  · rcases List.eq_nil_or_concat lines with rfl | ⟨front, last, rfl⟩
    · rfl
    · rw [List.concat_eq_append, ended_append, ← hended]
      refine Texts.trim_eq_trim (x := []) (y := []) (s := []) (t := ['\n']) Texts.blank_nil
        Texts.blank_nil Texts.blank_nil hline ?_
      simp [ended]
  · rw [hended]

/-- The document as it is written: its paragraphs, and what stands around them. -/
structure Document where
  front : List XmlEvent
  paragraphs : List Paragraph
  back : List XmlEvent
  silent : ∀ event ∈ front ++ back, Silent event

def Document.events (tag : String → Bytes) (document : Document) : List XmlEvent :=
  document.front ++ (document.paragraphs.flatMap (Paragraph.events tag) ++ document.back)

/-- **What a document is read as.** -/
theorem extractWordText_eq (htag : ∀ name ∈ ["p", "r", "t"], localName (tag name) = ascii name)
    (hunescape : UnescapesPlain tools) {xml : Bytes} {document : Document}
    (hxml : tools.readXml true xml = ⟨document.events tag, true⟩) :
    extractWordText tools xml = .ok (trimChars (['\n'].intercalate
      ((document.paragraphs.map Paragraph.read).filter (· ≠ [])))) := by
  obtain ⟨hfront, hback⟩ := List.forall_mem_append.1 document.silent
  obtain ⟨output, hloop, hshows⟩ := @wordLoop_paragraphs tag tools htag hunescape true document.back
    document.paragraphs [] [] (.inl rfl) (List.forall_mem_nil _)
  have hend : wordLoop tools true document.back output = .ok output := by
    rw [← List.append_nil document.back, wordLoop_silent hback, wordLoop, if_pos rfl]
  unfold extractWordText
  rw [hxml, Document.events]
  dsimp only
  rw [wordLoop_silent hfront, hloop, hend, Except.map, trimChars_shows hshows, List.nil_append]

end Loop

/-! ## What is left out -/

theorem pieces_text (markup : Markup) :
    markup.pieces.flatMap (fun piece => piece.1 ++ piece.2) = markup.text
      ∧ markup.pieces.map Prod.snd = markup.chunks
      ∧ ∃ chunk rest, markup.pieces = ([], chunk) :: rest := by
  induction markup with
  | nil => exact ⟨rfl, rfl, [], [], rfl⟩
  | cons symbol markup ih =>
    obtain ⟨htext, hchunks, chunk, rest, hpieces⟩ := ih
    rw [hpieces] at htext hchunks
    unfold Markup.chunks at hchunks
    unfold Markup.pieces Markup.chunks
    rw [hpieces, List.splitOnP_cons_eq_if_modifyHead]
    by_cases h : symbol.referenced = true
    · rw [if_pos h, if_pos h]
      refine ⟨?_, ?_, [], _, rfl⟩
      · simpa [Markup.text] using htext
      · rw [List.map_cons, List.map_cons, ← hchunks]
        rfl
    · rw [if_neg h, if_neg h]
      refine ⟨?_, ?_, symbol.char :: chunk, rest, rfl⟩
      · simpa [Markup.text] using htext
      · cases hsplit : markup.splitOnP Symbol.referenced with
        | nil => exact absurd hsplit (List.splitOnP_ne_nil _ _)
        | cons first parts =>
          rw [hsplit] at hchunks
          obtain ⟨hchunk, hrest⟩ := List.cons.inj hchunks
          rw [List.modifyHead_cons, List.modifyHead_cons, List.map_cons, List.map_cons, hrest]
          exact congrArg (fun text => (symbol.char :: text) :: _) hchunk

theorem Paragraph.pieces_text (paragraph : Paragraph) :
    paragraph.pieces.flatMap (fun piece => piece.1 ++ piece.2) = paragraph.text
      ∧ paragraph.pieces.map (fun piece => Extraction.delivered true piece.2)
        = paragraph.delivered := by
  unfold Paragraph.pieces Paragraph.text Paragraph.delivered
  induction paragraph.runs with
  | nil => exact ⟨rfl, rfl⟩
  | cons run runs ih =>
    obtain ⟨htext, hchunks, -⟩ := Extraction.pieces_text run.markup
    rw [List.flatMap_cons, List.flatMap_cons, List.flatMap_cons, List.flatMap_append,
      List.map_append, ih.1, ih.2, htext, ← hchunks, List.map_map]
    exact ⟨rfl, rfl⟩

theorem blank_delivered {chunk : Text} :
    trimChars (delivered true chunk) = [] ↔ trimChars chunk = [] := by
  have hxml : ∀ c, isXmlSpace c = true → isWhiteSpace c = true := by
    intro c hc
    unfold isXmlSpace at hc
    simp at hc
    rcases hc with ((rfl | rfl) | rfl) | rfl <;> rfl
  obtain ⟨front, back, hfront, hback, hsplit⟩ := Texts.exists_trim isXmlSpace chunk
  have hsame : trim isWhiteSpace (trim isXmlSpace chunk) = trim isWhiteSpace chunk :=
    Texts.trim_eq_trim (x := front) (y := back) (s := []) (t := [])
      (fun c hc => hxml c (hfront c hc)) (fun c hc => hxml c (hback c hc)) Texts.blank_nil
      Texts.blank_nil (by simpa using hsplit.symm)
  rw [delivered, if_pos rfl]
  exact ⟨fun h => hsame.symm.trans h, fun h => hsame.trans h⟩

/-- The gaps and what is shown make up the text. -/
theorem spread_gapsFrom (gap : Text) (pieces : List (Text × Text)) :
    spread (gapsFrom gap pieces) (lastGap gap pieces)
        = gap ++ pieces.flatMap (fun piece => piece.1 ++ piece.2)
      ∧ (gapsFrom gap pieces).map Prod.snd
        = (pieces.map fun piece => delivered true piece.2).filter fun part =>
            trimChars part ≠ [] := by
  induction pieces generalizing gap with
  | nil => simp [gapsFrom, lastGap, spread]
  | cons piece pieces ih =>
    obtain ⟨reference, chunk⟩ := piece
    unfold gapsFrom lastGap
    by_cases h : trimChars chunk = []
    · obtain ⟨htext, hwords⟩ := ih (gap ++ reference ++ chunk)
      rw [if_pos h, if_pos h, htext, hwords, List.map_cons,
        List.filter_cons_of_neg (by simpa using blank_delivered.2 h)]
      simp
    · obtain ⟨htext, hwords⟩ := ih ((chunk.dropWhile isXmlSpace).rtakeWhile isXmlSpace)
      have hshown : trimChars (delivered true chunk) ≠ [] := fun hnil => h (blank_delivered.1 hnil)
      rw [if_neg h, if_neg h, List.map_cons, hwords, List.map_cons,
        List.filter_cons_of_pos (by simpa using hshown)]
      refine ⟨?_, rfl⟩
      unfold spread at htext ⊢
      rw [List.flatMap_cons, List.append_assoc, htext, List.flatMap_cons]
      have hchunk : chunk.takeWhile isXmlSpace ++ (trim isXmlSpace chunk
          ++ (chunk.dropWhile isXmlSpace).rtakeWhile isXmlSpace) = chunk := by
        rw [trim, List.rdropWhile_append_rtakeWhile, List.takeWhile_append_dropWhile]
      calc _ = gap ++ reference ++ (chunk.takeWhile isXmlSpace ++ (trim isXmlSpace chunk
              ++ (chunk.dropWhile isXmlSpace).rtakeWhile isXmlSpace))
            ++ pieces.flatMap (fun piece => piece.1 ++ piece.2) := by simp only [List.append_assoc]
        _ = _ := by
          rw [hchunk]
          simp only [List.append_assoc]

/-- **A paragraph is read as its text** up to white space at its ends, exactly when its words are
kept. -/
theorem Paragraph.trim_read_eq_iff (paragraph : Paragraph) :
    trimChars paragraph.read = trimChars paragraph.text ↔ paragraph.KeepsWords := by
  obtain ⟨htext, hdelivered⟩ := paragraph.pieces_text
  obtain ⟨hspread, hwords⟩ := spread_gapsFrom [] paragraph.pieces
  rw [hdelivered] at hwords
  rw [List.nil_append, htext] at hspread
  have hvisible : ∀ word ∈ gapsFrom [] paragraph.pieces, ¬Blank isWhiteSpace word.2 := by
    intro word hword hblank
    have hmem := List.mem_map_of_mem (f := Prod.snd) hword
    rw [hwords] at hmem
    exact (by simpa using (List.mem_filter.1 hmem).2 : trimChars word.2 ≠ [])
      (Texts.trim_eq_nil_iff.2 hblank)
  have h := @Texts.trim_spread_eq_iff isWhiteSpace ' ' rfl _ (lastGap [] paragraph.pieces) hvisible
  rw [hwords, hspread] at h
  exact h

/-! ## Documents that keep their words -/

/-- The text shows the paragraphs in order, each as it is up to white space at its ends. -/
def ShowsParagraphs (texts : List Text) (result : Text) : Prop :=
  ∃ shown : List Text, shown.map trimChars = (texts.map trimChars).filter (· ≠ [])
    ∧ result = ['\n'].intercalate shown

theorem weight_intercalate {sep : Char} (hsep : isWhiteSpace sep = true) (lines : List Text) :
    weight isWhiteSpace ([sep].intercalate lines) = (lines.map (weight isWhiteSpace)).sum := by
  have hweight : weight isWhiteSpace [sep] = 0 :=
    Texts.weight_eq_zero_iff.2 fun c hc => by rwa [List.mem_singleton.1 hc]
  induction lines with
  | nil => rfl
  | cons line lines ih =>
    cases lines with
    | nil => simp
    | cons next lines =>
      rw [List.intercalate_cons_cons, Texts.weight_append, Texts.weight_append, ih, hweight,
        List.map_cons (a := line), List.sum_cons, Nat.add_zero]

/-- Nothing is read that is not written. -/
theorem Paragraph.weight_read_le (paragraph : Paragraph) :
    weight isWhiteSpace paragraph.read ≤ weight isWhiteSpace paragraph.text := by
  obtain ⟨htext, hdelivered⟩ := paragraph.pieces_text
  obtain ⟨hspread, hwords⟩ := spread_gapsFrom [] paragraph.pieces
  rw [hdelivered] at hwords
  rw [List.nil_append, htext] at hspread
  rw [← hspread, Texts.weight_spread, Paragraph.read, weight_intercalate rfl, Paragraph.words,
    ← hwords, List.map_map]
  exact (Nat.le_add_left ..).trans (Nat.le_add_right ..)

/-- Every paragraph is read in full, when all of them together are. -/
theorem weights_eq {paragraphs : List Paragraph}
    (h : (paragraphs.map fun paragraph => weight isWhiteSpace paragraph.text).sum
      ≤ (paragraphs.map fun paragraph => weight isWhiteSpace paragraph.read).sum) :
    ∀ paragraph ∈ paragraphs,
      weight isWhiteSpace paragraph.read = weight isWhiteSpace paragraph.text := by
  by_contra hne
  push Not at hne
  obtain ⟨paragraph, hmem, hdiffers⟩ := hne
  refine absurd h (Nat.not_le_of_lt (List.sum_lt_sum _ _ (fun p _ => p.weight_read_le)
    ⟨paragraph, hmem, ?_⟩))
  exact Nat.lt_of_le_of_ne paragraph.weight_read_le hdiffers

/-- A paragraph of which nothing is shown is read as nothing. -/
theorem filter_read (paragraphs : List Paragraph) :
    ((paragraphs.map Paragraph.read).filter (· ≠ [])).map trimChars
      = (paragraphs.map fun paragraph => trimChars paragraph.read).filter (· ≠ []) := by
  have hread : ∀ paragraph : Paragraph, trimChars paragraph.read = [] ↔ paragraph.read = [] := by
    intro paragraph
    refine ⟨fun hblank => ?_, fun h => by rw [h]; rfl⟩
    unfold Paragraph.read at hblank ⊢
    cases hwords : paragraph.words with
    | nil => rfl
    | cons word words =>
      have hword : word ∈ paragraph.words := by simp [hwords]
      have hshown : trimChars word ≠ [] := by simpa using (List.mem_filter.1 hword).2
      rw [hwords] at hblank
      exact absurd (Texts.trim_eq_nil_iff.1 hblank)
        (Texts.not_blank_intercalate _ fun h => hshown (Texts.trim_eq_nil_iff.2 h))
  rw [List.filter_map, List.filter_map, List.map_map]
  refine congrArg (List.map _) (List.filter_congr fun paragraph _ => ?_)
  simp [hread]

theorem sum_weight_filter (lines : List Text) :
    ((lines.filter (· ≠ [])).map (weight isWhiteSpace)).sum
      = (lines.map (weight isWhiteSpace)).sum := by
  induction lines with
  | nil => rfl
  | cons line lines ih =>
    by_cases h : line = []
    · rw [List.filter_cons_of_neg (by simpa), ih, h]
      simp [weight]
    · rw [List.filter_cons_of_pos (by simpa), List.map_cons, List.sum_cons, ih, List.map_cons,
        List.sum_cons]

theorem sum_weight_trim (lines : List Text) :
    ((lines.map trimChars).map (weight isWhiteSpace)).sum
      = (lines.map (weight isWhiteSpace)).sum := by
  rw [List.map_map]
  exact congrArg List.sum (List.map_congr_left fun line _ => Texts.weight_trim isWhiteSpace line)

/-- Lines of the same weights are aligned when the empty ones are left out. -/
theorem forall₂_filter {α : Type} {f g : α → Text} {list : List α}
    (h : ∀ a ∈ list, weight isWhiteSpace (f a) = weight isWhiteSpace (g a))
    (hnil : ∀ a ∈ list, f a = [] ↔ g a = []) :
    List.Forall₂ (fun x y => x ≠ [] ∧ y ≠ [] ∧ weight isWhiteSpace x = weight isWhiteSpace y)
        ((list.map f).filter (· ≠ [])) ((list.map g).filter (· ≠ []))
      ∧ ((list.map f).filter (· ≠ []) = (list.map g).filter (· ≠ []) → ∀ a ∈ list, f a = g a) := by
  induction list with
  | nil => exact ⟨.nil, fun _ => List.forall_mem_nil _⟩
  | cons a list ih =>
    rw [List.forall_mem_cons] at h hnil
    obtain ⟨haligned, hequal⟩ := ih h.2 hnil.2
    by_cases hf : f a = []
    · have hg := hnil.1.1 hf
      rw [List.map_cons, List.map_cons, List.filter_cons_of_neg (by simpa),
        List.filter_cons_of_neg (by simpa)]
      exact ⟨haligned, fun h => List.forall_mem_cons.2 ⟨hf.trans hg.symm, hequal h⟩⟩
    · have hg : g a ≠ [] := fun hg => hf (hnil.1.2 hg)
      rw [List.map_cons, List.map_cons, List.filter_cons_of_pos (by simpa),
        List.filter_cons_of_pos (by simpa)]
      refine ⟨.cons ⟨hf, hg, h.1⟩ haligned, fun h => ?_⟩
      obtain ⟨hfirst, hothers⟩ := List.cons.inj h
      exact List.forall_mem_cons.2 ⟨hfirst, hequal hothers⟩

/-- A run, a paragraph and a document without properties. -/
def plainRun (markup : Markup) : TextRun := ⟨[], List.forall_mem_nil _, [], markup⟩

def plainParagraph (texts : List Markup) : Paragraph :=
  ⟨[], [], List.forall_mem_nil _, texts.map plainRun⟩

def plainDocument (paragraphs : List Paragraph) : Document :=
  ⟨[], paragraphs, [], List.forall_mem_nil _⟩

/-- A text whose ampersands are references. -/
def referencedMarkup (text : Text) : Markup :=
  text.map fun char =>
    if h : char ≠ '&' ∧ char ≠ '<' then plainSymbol char h else ⟨char, true, fun h => nomatch h⟩

def wordTools (paragraphs : List (List String)) : Tools :=
  partTools fun _ => (plainDocument (paragraphs.map fun runs =>
    plainParagraph (runs.map fun run => referencedMarkup run.toList))).events ascii

/-- **Paragraphs that keep their words.** The text that is read shows the paragraphs exactly when
each of them keeps its words. -/
theorem wordText_shows_iff {tag : String → Bytes} {tools : Tools} {xml : Bytes} {document : Document}
    (htag : ∀ name ∈ ["p", "r", "t"], localName (tag name) = ascii name)
    (hunescape : UnescapesPlain tools)
    (hxml : tools.readXml true xml = ⟨document.events tag, true⟩) :
    (∃ result, extractWordText tools xml = .ok result
        ∧ ShowsParagraphs (document.paragraphs.map Paragraph.text) result)
      ↔ ∀ paragraph ∈ document.paragraphs, paragraph.KeepsWords := by
  have hkeeps : (∀ paragraph ∈ document.paragraphs, paragraph.KeepsWords) ↔
      ∀ paragraph ∈ document.paragraphs, trimChars paragraph.read = trimChars paragraph.text :=
    forall₂_congr fun paragraph _ => paragraph.trim_read_eq_iff.symm
  rw [hkeeps, extractWordText_eq htag hunescape hxml]
  generalize document.paragraphs = paragraphs
  have hlines := filter_read paragraphs
  generalize hreads : (paragraphs.map Paragraph.read).filter (· ≠ []) = reads at hlines
  have hvisible : ∀ line ∈ reads, ¬Blank isWhiteSpace line := by
    intro line hline hblank
    have hmem := List.mem_map_of_mem (f := trimChars) hline
    rw [hlines] at hmem
    exact (by simpa using (List.mem_filter.1 hmem).2 : trimChars line ≠ [])
      (Texts.trim_eq_nil_iff.2 hblank)
  obtain ⟨lines, htrims, hresult⟩ := Texts.exists_trim_intercalate ['\n'] hvisible
  have hresult : trimChars (['\n'].intercalate reads) = ['\n'].intercalate lines := hresult
  have htrims : lines.map trimChars = reads.map trimChars := htrims
  rw [hresult]
  constructor
  · rintro ⟨result, hok, shown, hshown, heq⟩
    obtain rfl := Except.ok.inj hok
    -- all that is written is shown, so every paragraph is read in full
    have hweights := @weights_eq paragraphs (by
      have hleft := congrArg (weight isWhiteSpace) heq
      rw [weight_intercalate rfl, weight_intercalate rfl, ← sum_weight_trim, htrims,
        sum_weight_trim, ← hreads, sum_weight_filter, ← sum_weight_trim shown, hshown,
        sum_weight_filter, sum_weight_trim, List.map_map, List.map_map] at hleft
      exact hleft.ge)
    have hweights' : ∀ paragraph ∈ paragraphs,
        weight isWhiteSpace (trimChars paragraph.read)
          = weight isWhiteSpace (trimChars paragraph.text) := by
      intro paragraph hmem
      exact (Texts.weight_trim isWhiteSpace _).trans
        ((hweights paragraph hmem).trans (Texts.weight_trim isWhiteSpace _).symm)
    have hnil : ∀ text : Text, trimChars text = [] ↔ weight isWhiteSpace (trimChars text) = 0 :=
      fun text => Texts.trim_eq_nil_iff.trans (Texts.weight_eq_zero_iff.symm.trans
        (by rw [← Texts.weight_trim]; rfl))
    obtain ⟨haligned, hequal⟩ := forall₂_filter hweights' fun paragraph hmem => by
      rw [hnil, hnil, hweights' paragraph hmem]
    refine hequal ?_
    rw [List.map_map] at hshown
    have hreadLines := htrims.trans hlines
    have hshown : shown.map trimChars
        = (paragraphs.map fun paragraph => trimChars paragraph.text).filter (· ≠ []) := hshown
    rw [← hreadLines, ← hshown] at haligned ⊢
    rw [List.forall₂_map_left_iff, List.forall₂_map_right_iff] at haligned
    refine @Texts.trims_eq_of_intercalate isWhiteSpace [] [] '\n' rfl lines shown
      (haligned.imp fun line other h => ?_) Texts.blank_nil Texts.blank_nil heq
    refine ⟨fun hblank => h.1 (Texts.trim_eq_nil_iff.2 hblank),
      fun hblank => h.2.1 (Texts.trim_eq_nil_iff.2 hblank), ?_⟩
    exact (Texts.weight_trim isWhiteSpace _).symm.trans
      (h.2.2.trans (Texts.weight_trim isWhiteSpace _))
  · intro h
    refine ⟨_, rfl, lines, ?_, rfl⟩
    rw [htrims, hlines, List.map_map]
    exact congrArg (List.filter _) (List.map_congr_left h)

theorem wordText_shows_iff_spaced :
    (∃ result, extractWordText (wordTools [["A ", "b"]]) [] = .ok result
        ∧ ShowsParagraphs ((plainDocument [plainParagraph
            [referencedMarkup "A ".toList, referencedMarkup "b".toList]]).paragraphs.map
              Paragraph.text) result)
      ↔ ∀ paragraph ∈ (plainDocument [plainParagraph
          [referencedMarkup "A ".toList, referencedMarkup "b".toList]]).paragraphs,
          paragraph.KeepsWords :=
  @wordText_shows_iff ascii (wordTools [["A ", "b"]]) [] _ (by decide) (fun _ _ => rfl) rfl

/-- One paragraph is shown as it is up to white space at its ends. -/
theorem trimChars_of_shows {text result : Text} (htext : trimChars text ≠ [])
    (h : ShowsParagraphs [text] result) : trimChars result = trimChars text := by
  obtain ⟨shown, hshown, rfl⟩ := h
  rw [List.map_singleton, List.filter_singleton, decide_eq_true htext] at hshown
  obtain ⟨line, rfl, hline⟩ := List.map_eq_singleton_iff.1 hshown
  rw [← hline, List.intercalate_singleton]

/-- A word that goes on in the next run is split by a space, and an ampersand is lost. -/
theorem splitWord_notShown :
    (extractWordText (wordTools [["Hel", "lo"]]) [] = .ok "Hel lo".toList
        ∧ ¬ShowsParagraphs [(plainParagraph
            [referencedMarkup "Hel".toList, referencedMarkup "lo".toList]).text] "Hel lo".toList)
      ∧ extractWordText (wordTools [["R&D"]]) [] = .ok "R D".toList
      ∧ ¬ShowsParagraphs [(plainParagraph [referencedMarkup "R&D".toList]).text]
          "R D".toList := by
  refine ⟨⟨by rfl, fun h => ?_⟩, by rfl, fun h => ?_⟩
  · exact absurd (trimChars_of_shows (by decide) h) (by decide)
  · exact absurd (trimChars_of_shows (by decide) h) (by decide)

end Zemo.Extraction
