import Zemo.Domain.Proposal
import Zemo.Lib.Pointwise
import Zemo.Lib.Texts

set_option autoImplicit false

/-! # Search excerpts

The in-memory search engine: the query's tokens, the ranked documents, and the excerpt of a document
around the first of the tokens. What is modelled is the path of the text; the fused rankings, which
are computed with floating-point scores, are given (`Ranking`), and so are the Unicode tables
(`CharTables`). The lower-case form of a text is put together from one piece for each of its
characters.

The place of a token is a byte offset in the lower-case copy of the body, and the body is cut at
that offset. -/

namespace Zemo.Search

open Texts

/-! ## Data -/

/-- The Unicode tables the engine uses: the kinds of a character, and `to_lowercase`, one piece for
    each character of the text. -/
structure CharTables where
  isAlphanumeric : Char → Bool
  isWhitespace : Char → Bool
  lowerPieces : Text → List Text

/-- `str::to_lowercase`. -/
def CharTables.lowercase (tables : CharTables) (text : Text) : Text :=
  (tables.lowerPieces text).flatten

/-- What is documented of the tables: every character has a lower-case form, that of a whitespace
    character is the character itself, and that of a letter or digit has no whitespace. -/
structure CharTables.Standard (tables : CharTables) : Prop where
  length_lowerPieces : ∀ text : Text, (tables.lowerPieces text).length = text.length
  nonempty : ∀ text : Text, ∀ piece ∈ tables.lowerPieces text, piece ≠ []
  whitespace : ∀ text : Text, ∀ entry ∈ text.zip (tables.lowerPieces text),
    tables.isWhitespace entry.1 = true → entry.2 = [entry.1]
  alphanumeric : ∀ text : Text, ∀ entry ∈ text.zip (tables.lowerPieces text),
    tables.isAlphanumeric entry.1 = true → ∀ c ∈ entry.2, tables.isWhitespace c = false

/-- An `f32`, as its bits. -/
abbrev Score := UInt32

structure SearchDocument where
  fileId : Nat
  fileVersionId : Nat
  displayLabel : String
  title : Text
  body : Text
  lexicalTokens : List Text
  embedding : Option (List Score)
  evidence : List Nat
deriving DecidableEq

structure SearchConfig where
  limit : Nat
  rrfK : Score
  embeddingDimensions : Nat
deriving DecidableEq

/-- A piece of a body: the place of its first character there, and the piece. -/
structure Excerpt where
  start : Nat
  text : Text
deriving DecidableEq

/-- A hit. Its summary comes with the place it was taken from. -/
structure SearchHit where
  fileId : Nat
  fileVersionId : Nat
  displayLabel : String
  summary : Excerpt
  score : Score
  lexicalRank : Option Nat
  semanticRank : Option Nat
  evidence : List Nat
deriving DecidableEq

structure SearchResponse where
  query : Text
  hits : List SearchHit
deriving DecidableEq

/-- The fused ranking of the documents: their numbers with their scores, best first, and the
    places of a document in the two rankings it was fused from. -/
structure Ranking where
  fused : List SearchDocument → List Text → Text → SearchConfig → List (Nat × Score)
  lexicalPositions : List SearchDocument → List Text → Text → SearchConfig → Nat → Option Nat
  semanticPositions : List SearchDocument → List Text → Text → SearchConfig → Nat → Option Nat

/-! ## Search -/

section Engine

variable (tables : CharTables)

/-- `tokenize`. -/
def tokenize (value : Text) : List Text :=
  ((value.splitOnP fun c => !tables.isAlphanumeric c).filter fun token => 2 ≤ token.length).map
    tables.lowercase

/-- Where the token is found in the text, in bytes. -/
def findBytes (text token : Text) : Option Nat :=
  (find token text).map fun index => byteLength (text.take index)

/-- The first place a token is found at, in bytes; the beginning when there is none. -/
def matchStart (body : Text) (queryTokens : List Text) : Nat :=
  (queryTokens.filterMap (findBytes (tables.lowercase body))).min?.getD 0

/-- The excerpt of `maxChars` characters from the character `start` on, without whitespace at its
    ends. -/
def excerptFrom (body : Text) (start maxChars : Nat) : Excerpt :=
  let window := (body.drop start).take maxChars
  { start := start + leading tables.isWhitespace window, text := trim tables.isWhitespace window }

/-- `best_excerpt`. The body is cut at a byte, which must be the end of a character. -/
def bestExcerpt (body : Text) (queryTokens : List Text) (maxChars : Nat) : Option Excerpt :=
  (sliceTo body (min (matchStart tables body queryTokens) (byteLength body))).map fun before =>
    excerptFrom tables body (before.length - 40) maxChars

/-- The excerpt of a hit has at most this many characters. -/
def excerptLength : Nat := 240

/-- The vector of an embedding can be allocated: its bytes fit into an `isize`. -/
def allocates (dimensions : Nat) : Prop := max dimensions 32 * 4 ≤ 2 ^ 63 - 1

instance (dimensions : Nat) : Decidable (allocates dimensions) :=
  inferInstanceAs (Decidable (_ ≤ _))

variable (ranking : Ranking)

/-- The documents that become hits, with their numbers and scores. -/
def hitDocuments (documents : List SearchDocument) (query : Text) (config : SearchConfig) :
    List (SearchDocument × Nat × Score) :=
  ((ranking.fused documents (tokenize tables query) query config).take config.limit).filterMap
    fun entry => documents[entry.1]?.map fun document => (document, entry)

/-- The hit a document becomes. -/
def searchHit (documents : List SearchDocument) (query : Text) (config : SearchConfig)
    (entry : SearchDocument × Nat × Score) (summary : Excerpt) : SearchHit where
  fileId := entry.1.fileId
  fileVersionId := entry.1.fileVersionId
  displayLabel := entry.1.displayLabel
  summary := summary
  score := entry.2.2
  lexicalRank :=
    ranking.lexicalPositions documents (tokenize tables query) query config entry.2.1
  semanticRank :=
    ranking.semanticPositions documents (tokenize tables query) query config entry.2.1
  evidence := entry.1.evidence

/-- `HybridSearchEngine::search`; no result is a panic. -/
def search (documents : List SearchDocument) (query : Text) (config : SearchConfig) :
    Option SearchResponse :=
  if tokenize tables query = [] then some { query := query, hits := [] }
  else if ¬allocates config.embeddingDimensions then none
  else
    ((hitDocuments tables ranking documents query config).mapM fun entry =>
      (bestExcerpt tables entry.1.body (tokenize tables query) excerptLength).map
        (searchHit tables ranking documents query config entry)).map fun hits =>
    { query := query, hits := hits }

end Engine

end Zemo.Search

/-! ## Whether an excerpt shows its match

A search returns, and its excerpts show the first match, when cutting the body at the place the
match has in its lower-case copy leads close to the match: the text in front of the match and its
lower-case form must have lengths in bytes that differ by little, and the cut must not divide a
character. Otherwise the excerpt is somewhere else, or the search panics. -/

namespace Zemo.Search

open Texts

variable {tables : CharTables} {body query : Text} {tokens : List Text} {token : Text}
  {index start : Nat}

/-! ## The first match -/

/-- The token is found at `index` in the lower-case copy of the body, and no token before it. -/
structure Earliest (tables : CharTables) (body : Text) (tokens : List Text) (token : Text)
    (index : Nat) : Prop where
  mem : token ∈ tokens
  found : find token (tables.lowercase body) = some index
  first : ∀ other ∈ tokens, ∀ i, find other (tables.lowercase body) = some i → index ≤ i

/-- The character of the body where the match begins. -/
def firstChar (tables : CharTables) (body : Text) (index : Nat) : Nat :=
  pieceAt (tables.lowerPieces body) index

/-- The character of the body where the match ends. -/
def lastChar (tables : CharTables) (body token : Text) (index : Nat) : Nat :=
  pieceAt (tables.lowerPieces body) (index + token.length - 1)

/-- The excerpt shows the first match, if it fits behind the 40 characters in front of it. -/
def ShowsMatch (tables : CharTables) (body : Text) (tokens : List Text) (excerpt : Excerpt) :
    Prop :=
  ∀ token index, Earliest tables body tokens token index → token.length ≤ excerptLength - 40 →
    excerpt.start ≤ firstChar tables body index
      ∧ lastChar tables body token index < excerpt.start + excerpt.text.length

/-- The byte the match begins at in the lower-case copy is the end of a character of the body (or
    beyond its end), with the match at most 40 characters before it and ending within the excerpt
    that begins 40 characters before it. -/
def Located (tables : CharTables) (body : Text) (tokens : List Text) : Prop :=
  ∀ token index, Earliest tables body tokens token index → ∃ cut ≤ body.length,
    byteLength (body.take cut)
        = min (byteLength ((tables.lowercase body).take index)) (byteLength body)
      ∧ (token.length ≤ excerptLength - 40 → cut ≤ firstChar tables body index + 40
        ∧ lastChar tables body token index < cut - 40 + excerptLength)

/-- The first matches begin at one place, which is where the body is cut. -/
theorem Earliest.matchStart (h : Earliest tables body tokens token index) :
    matchStart tables body tokens = byteLength ((tables.lowercase body).take index) := by
  have hmin : (tokens.filterMap (findBytes (tables.lowercase body))).min?
      = some (byteLength ((tables.lowercase body).take index)) := by
    rw [List.min?_eq_some_iff]
    constructor
    · exact List.mem_filterMap.2 ⟨token, h.mem, by rw [findBytes, h.found]; rfl⟩
    · intro bytes hbytes
      obtain ⟨other, hother, hfind⟩ := List.mem_filterMap.1 hbytes
      obtain ⟨i, hi, rfl⟩ := Option.map_eq_some_iff.1 hfind
      exact byteLength_take_mono _ (h.first other hother i hi)
  rw [Search.matchStart, hmin]
  rfl

/-- Without a match the body is cut at its beginning. -/
theorem matchStart_of_none (h : ∀ token index, ¬Earliest tables body tokens token index) :
    matchStart tables body tokens = 0 := by
  cases hmin : (tokens.filterMap (findBytes (tables.lowercase body))).min? with
  | none =>
    rw [matchStart, hmin]
    rfl
  | some bytes =>
    obtain ⟨hmem, hle⟩ := List.min?_eq_some_iff.1 hmin
    obtain ⟨token, htoken, hfind⟩ := List.mem_filterMap.1 hmem
    obtain ⟨index, hindex, rfl⟩ := Option.map_eq_some_iff.1 hfind
    refine absurd ⟨htoken, hindex, fun other hother i hi => ?_⟩ (h token index)
    by_contra hlt
    have hbytes : byteLength ((tables.lowercase body).take index)
        ≤ byteLength ((tables.lowercase body).take i) := hle _ (List.mem_filterMap.2 ⟨other, hother, by rw [findBytes, hi]; rfl⟩)
    have hlonger := byteLength_take_lt (Nat.lt_of_not_le hlt)
      (Nat.lt_of_lt_of_le (Nat.lt_of_not_le hlt) (find_le_length hindex))
    omega

/-! ## One excerpt -/

/-- The tokens of a query: not empty, and without whitespace. -/
def Solid (tables : CharTables) (tokens : List Text) : Prop :=
  ∀ token ∈ tokens, token ≠ [] ∧ ∀ c ∈ token, tables.isWhitespace c = false

/-- A character of the body whose lower-case form has part of a token is no whitespace. -/
theorem not_whitespace_of_piece (hstandard : tables.Standard) {n : Nat} {c : Char}
    (hc : (tables.lowercase body)[n]? = some c) (hspace : tables.isWhitespace c = false) :
    ∃ d, body[pieceAt (tables.lowerPieces body) n]? = some d
      ∧ tables.isWhitespace d = false := by
  obtain ⟨piece, hpiece, hmem⟩ := mem_piece hc
  have hlength := hstandard.length_lowerPieces body
  obtain ⟨hn, rfl⟩ := List.getElem?_eq_some_iff.1 hpiece
  have hbody : pieceAt (tables.lowerPieces body) n < body.length := by omega
  refine ⟨body[pieceAt (tables.lowerPieces body) n], List.getElem?_eq_getElem hbody, ?_⟩
  by_contra hd
  rw [Bool.not_eq_false] at hd
  have hentry : (body[pieceAt (tables.lowerPieces body) n],
      (tables.lowerPieces body)[pieceAt (tables.lowerPieces body) n])
        ∈ body.zip (tables.lowerPieces body) :=
    List.mem_of_getElem? (List.getElem?_zip_eq_some.2
      ⟨List.getElem?_eq_getElem hbody, hpiece⟩)
  have hself : (tables.lowerPieces body)[pieceAt (tables.lowerPieces body) n]
      = [body[pieceAt (tables.lowerPieces body) n]] := hstandard.whitespace body _ hentry hd
  rw [hself] at hmem
  rw [List.mem_singleton.1 hmem, hd] at hspace
  cases hspace

/-- The first and the last character of a match are no whitespace. -/
theorem Earliest.ends (hstandard : tables.Standard) (hsolid : Solid tables tokens)
    (h : Earliest tables body tokens token index) :
    (∃ d, body[firstChar tables body index]? = some d ∧ tables.isWhitespace d = false)
      ∧ (∃ d, body[lastChar tables body token index]? = some d ∧ tables.isWhitespace d = false)
      ∧ firstChar tables body index ≤ lastChar tables body token index := by
  obtain ⟨hne, hspace⟩ := hsolid token h.mem
  have hpos := List.length_pos_iff.2 hne
  have hat : ∀ j < token.length, ∃ c, (tables.lowercase body)[index + j]? = some c
      ∧ tables.isWhitespace c = false := by
    intro j hj
    refine ⟨token[j], ?_, hspace _ (List.getElem_mem hj)⟩
    rw [getElem?_of_find h.found hj, List.getElem?_eq_getElem hj]
  refine ⟨?_, ?_, pieceAt_mono (by omega)⟩
  · obtain ⟨c, hc, hsolidChar⟩ := hat 0 hpos
    exact not_whitespace_of_piece hstandard hc hsolidChar
  · obtain ⟨c, hc, hsolidChar⟩ := hat (token.length - 1) (by omega)
    rw [show index + (token.length - 1) = index + token.length - 1 by omega] at hc
    exact not_whitespace_of_piece hstandard hc hsolidChar

/-- A trimmed excerpt covers what its window covers. -/
theorem shows_excerptFrom (hstandard : tables.Standard) (hsolid : Solid tables tokens)
    (h : Earliest tables body tokens token index) {n : Nat} :
    ((excerptFrom tables body start n).start ≤ firstChar tables body index
      ∧ lastChar tables body token index < (excerptFrom tables body start n).start
        + (excerptFrom tables body start n).text.length)
    ↔ start ≤ firstChar tables body index ∧ lastChar tables body token index < start + n := by
  obtain ⟨⟨c, hc, hcspace⟩, ⟨d, hd, hdspace⟩, hle⟩ := h.ends hstandard hsolid
  generalize firstChar tables body index = first at *
  generalize lastChar tables body token index = last at *
  have hwindow : ∀ i, start ≤ i → i < start + n →
      ((body.drop start).take n)[i - start]? = body[i]? := by
    intro i hi hn
    rw [List.getElem?_take_of_lt (by omega), List.getElem?_drop]
    congr 1
    omega
  unfold excerptFrom
  dsimp only
  constructor
  · rintro ⟨hfirst, hlast⟩
    have hlength := leading_add_length_trim_le tables.isWhitespace ((body.drop start).take n)
    have htake := List.length_take_le n (body.drop start)
    omega
  · rintro ⟨hfirst, hlast⟩
    have hbegins := leading_le ((hwindow first hfirst (by omega)).trans hc) hcspace
    have hends := lt_leading_add ((hwindow last (by omega) hlast).trans hd) hdspace
    omega

/-- **An excerpt exists and shows the first match exactly when the match is located.** -/
theorem bestExcerpt_shows_iff (hstandard : tables.Standard) (hsolid : Solid tables tokens) :
    (∃ excerpt, bestExcerpt tables body tokens excerptLength = some excerpt
        ∧ ShowsMatch tables body tokens excerpt)
      ↔ Located tables body tokens := by
  have hcut : (∃ excerpt, bestExcerpt tables body tokens excerptLength = some excerpt
        ∧ ShowsMatch tables body tokens excerpt)
      ↔ ∃ cut ≤ body.length,
        byteLength (body.take cut) = min (matchStart tables body tokens) (byteLength body)
          ∧ ShowsMatch tables body tokens (excerptFrom tables body (cut - 40) excerptLength) := by
    unfold bestExcerpt
    constructor
    · rintro ⟨excerpt, hexcerpt, hshows⟩
      obtain ⟨slice, hslice, rfl⟩ := Option.map_eq_some_iff.1 hexcerpt
      obtain ⟨hstart, hbytes⟩ := sliceTo_eq_some.1 hslice
      rw [List.prefix_iff_eq_take.1 hstart] at hbytes
      exact ⟨slice.length, hstart.length_le, hbytes, hshows⟩
    · rintro ⟨cut, hle, hbytes, hshows⟩
      have hslice := sliceTo_eq_some.2 ⟨List.take_prefix cut body, hbytes⟩
      refine ⟨_, Option.map_eq_some_iff.2 ⟨body.take cut, hslice, rfl⟩, ?_⟩
      rwa [List.length_take_of_le hle]
  rw [hcut]
  constructor
  · rintro ⟨cut, hle, hbytes, hshows⟩ token index h
    refine ⟨cut, hle, by rw [hbytes, h.matchStart], fun hfits => ?_⟩
    have hwindow := (shows_excerptFrom hstandard hsolid h).1 (hshows token index h hfits)
    omega
  · intro hlocated
    by_cases hany : ∃ token index, Earliest tables body tokens token index
    · obtain ⟨token, index, h⟩ := hany
      obtain ⟨cut, hle, hbytes, -⟩ := hlocated token index h
      refine ⟨cut, hle, by rw [hbytes, h.matchStart], fun other i hother hfits => ?_⟩
      obtain ⟨cut', hle', hbytes', hshows⟩ := hlocated other i hother
      have hsame : cut' = cut := by
        refine byteLength_take_inj hle' hle ?_
        rw [hbytes, hbytes', ← h.matchStart, ← hother.matchStart]
      rw [hsame] at hshows
      have := hshows hfits
      exact (shows_excerptFrom hstandard hsolid hother).2 ⟨by omega, by omega⟩
    · have hnone : ∀ token index, ¬Earliest tables body tokens token index :=
        fun token index h => hany ⟨token, index, h⟩
      refine ⟨0, Nat.zero_le _, ?_, fun token index h => absurd h (hnone token index)⟩
      rw [matchStart_of_none hnone]
      simp

/-! ## The search -/

theorem tokenize_solid (hstandard : tables.Standard) : Solid tables (tokenize tables query) := by
  intro token htoken
  obtain ⟨word, hword, rfl⟩ := List.mem_map.1 htoken
  obtain ⟨hword, hlong⟩ := List.mem_filter.1 hword
  have hlength := hstandard.length_lowerPieces word
  have hlong : 2 ≤ word.length := by simpa using hlong
  constructor
  · intro hnil
    cases hpieces : tables.lowerPieces word with
    | nil =>
      rw [hpieces, List.length_nil] at hlength
      omega
    | cons piece rest =>
      have hempty := List.flatten_eq_nil_iff.1 hnil piece (hpieces ▸ List.mem_cons_self ..)
      exact hstandard.nonempty word piece (hpieces ▸ List.mem_cons_self ..) hempty
  · intro c hc
    obtain ⟨piece, hpiece, hmem⟩ := List.mem_flatten.1 hc
    obtain ⟨i, hi⟩ := List.mem_iff_getElem?.1 hpiece
    obtain ⟨hlt, -⟩ := List.getElem?_eq_some_iff.1 hi
    have hchar : word[i]? = some word[i] := List.getElem?_eq_getElem (by omega)
    have hentry : (word[i], piece) ∈ word.zip (tables.lowerPieces word) :=
      List.mem_of_getElem? (List.getElem?_zip_eq_some.2 ⟨hchar, hi⟩)
    refine hstandard.alphanumeric word _ hentry ?_ c hmem
    simpa using of_mem_splitOnP hword (List.mem_of_getElem? hchar)

/-- What a search promises: it returns, and every hit shows the first match in its document. -/
def FindsAndShows (tables : CharTables) (ranking : Ranking) (documents : List SearchDocument)
    (query : Text) (config : SearchConfig) : Prop :=
  ∃ response, search tables ranking documents query config = some response
    ∧ (tokenize tables query ≠ [] → List.Forall₂ (fun entry hit =>
        ShowsMatch tables entry.1.body (tokenize tables query) hit.summary)
      (hitDocuments tables ranking documents query config) response.hits)

/-- **A search returns and shows the first match in every hit exactly when the query has no tokens,
    or its vector can be allocated and the match is located in every document of the hits.** -/
theorem search_shows_iff {ranking : Ranking} {documents : List SearchDocument}
    {config : SearchConfig} (hstandard : tables.Standard) :
    FindsAndShows tables ranking documents query config ↔
      (tokenize tables query ≠ [] → allocates config.embeddingDimensions
        ∧ ∀ entry ∈ hitDocuments tables ranking documents query config,
          Located tables entry.1.body (tokenize tables query)) := by
  unfold FindsAndShows search
  by_cases htokens : tokenize tables query = []
  · simp [htokens]
  by_cases hallocates : allocates config.embeddingDimensions
  · have hpass : (∃ response, ((hitDocuments tables ranking documents query config).mapM
          fun entry => (bestExcerpt tables entry.1.body (tokenize tables query) excerptLength).map
            (searchHit tables ranking documents query config entry)).map
            (fun hits => ({ query := query, hits := hits } : SearchResponse)) = some response
        ∧ List.Forall₂ (fun entry hit =>
            ShowsMatch tables entry.1.body (tokenize tables query) hit.summary)
          (hitDocuments tables ranking documents query config) response.hits)
        ↔ ∀ entry ∈ hitDocuments tables ranking documents query config,
          ∃ hit, (bestExcerpt tables entry.1.body (tokenize tables query) excerptLength).map
            (searchHit tables ranking documents query config entry) = some hit
            ∧ ShowsMatch tables entry.1.body (tokenize tables query) hit.summary := by
      rw [← Pointwise.exists_mapM_iff]
      constructor
      · rintro ⟨response, hresponse, hshown⟩
        obtain ⟨hits, hhits, rfl⟩ := Option.map_eq_some_iff.1 hresponse
        exact ⟨hits, hhits, hshown⟩
      · rintro ⟨hits, hhits, hshown⟩
        exact ⟨_, Option.map_eq_some_iff.2 ⟨hits, hhits, rfl⟩, hshown⟩
    simp only [hallocates, not_true, if_false, ne_eq, htokens, not_false_eq_true,
      forall_const, true_and, hpass]
    refine forall₂_congr fun entry _ => ?_
    rw [← bestExcerpt_shows_iff hstandard (tokenize_solid hstandard)]
    constructor
    · rintro ⟨hit, hhit, hshown⟩
      obtain ⟨excerpt, hexcerpt, rfl⟩ := Option.map_eq_some_iff.1 hhit
      exact ⟨excerpt, hexcerpt, hshown⟩
    · rintro ⟨excerpt, hexcerpt, hshown⟩
      exact ⟨_, Option.map_eq_some_iff.2 ⟨excerpt, hexcerpt, rfl⟩, hshown⟩
  · simp [htokens, hallocates]

/-! ## Two searches -/

/-- The lower-case form of small letters and of the capital dotted I, where it is longer than the
    letter. -/
def samplePiece (c : Char) : Text := if c = 'İ' then ['i', '\u0307'] else [c]

def sampleTables : CharTables where
  isAlphanumeric c := c.isAlphanum || c = 'é' || c = 'İ'
  isWhitespace c := c = ' '
  lowerPieces text := text.map samplePiece

theorem zip_samplePiece {text : Text} {entry : Char × Text}
    (h : entry ∈ text.zip (text.map samplePiece)) : entry.2 = samplePiece entry.1 := by
  induction text with
  | nil => cases h
  | cons c rest ih =>
    rcases List.mem_cons.1 h with rfl | h
    · rfl
    · exact ih h

theorem sampleTables_standard : sampleTables.Standard where
  length_lowerPieces := fun _ => List.length_map ..
  nonempty := by
    intro text piece hpiece
    obtain ⟨c, -, rfl⟩ := List.mem_map.1 hpiece
    unfold samplePiece
    split <;> exact List.cons_ne_nil _ _
  whitespace := by
    intro text entry hentry hspace
    have hblank : entry.1 = ' ' := of_decide_eq_true hspace
    rw [zip_samplePiece hentry, hblank]
    rfl
  alphanumeric := by
    intro text entry hentry hletter c hc
    rw [zip_samplePiece hentry, samplePiece] at hc
    split at hc
    · rcases List.mem_pair.1 hc with rfl | rfl <;> rfl
    · rw [List.mem_singleton.1 hc]
      refine decide_eq_false fun hblank => ?_
      rw [hblank] at hletter
      revert hletter
      decide

def sampleRanking : Ranking where
  fused := fun documents _ _ _ => documents.mapIdx fun i _ => (i, 0x3c863d09)
  lexicalPositions := fun _ _ _ _ i => some (i + 1)
  semanticPositions := fun _ _ _ _ i => some (i + 1)

def sampleDocument (body : Text) : SearchDocument where
  fileId := 1
  fileVersionId := 2
  displayLabel := "notes.txt"
  title := ['n', 'o', 't', 'e', 's']
  body := body
  lexicalTokens := [['é', 't', 'é']]
  embedding := none
  evidence := []

def sampleConfig : SearchConfig where
  limit := 20
  rrfK := 0x42700000
  embeddingDimensions := 256

/-- In "İ été" the match has its place at the fifth byte of the lower-case copy, which is inside a
    character of the body: the search panics. -/
theorem search_not_findsAndShows :
    search sampleTables sampleRanking [sampleDocument ['İ', ' ', 'é', 't', 'é']] ['é', 't', 'é']
        sampleConfig = none
      ∧ ¬FindsAndShows sampleTables sampleRanking [sampleDocument ['İ', ' ', 'é', 't', 'é']]
        ['é', 't', 'é'] sampleConfig := by
  have hpanic : search sampleTables sampleRanking [sampleDocument ['İ', ' ', 'é', 't', 'é']]
      ['é', 't', 'é'] sampleConfig = none := by decide
  refine ⟨hpanic, ?_⟩
  rintro ⟨response, hresponse, -⟩
  exact nomatch hpanic.symm.trans hresponse

theorem search_shows_iff_sample :
    FindsAndShows sampleTables sampleRanking [sampleDocument ['a', ' ', 'é', 't', 'é']]
        ['é', 't', 'é'] sampleConfig ↔
      (tokenize sampleTables ['é', 't', 'é'] ≠ [] → allocates sampleConfig.embeddingDimensions
        ∧ ∀ entry ∈ hitDocuments sampleTables sampleRanking
            [sampleDocument ['a', ' ', 'é', 't', 'é']] ['é', 't', 'é'] sampleConfig,
          Located sampleTables entry.1.body (tokenize sampleTables ['é', 't', 'é'])) :=
  search_shows_iff sampleTables_standard

end Zemo.Search
