import Zemo.Extraction.VideoHeaders

set_option autoImplicit false

/-! # The video parsers at the offsets of their buffers

The loops of `video.rs` as they run over one buffer: every sum of offsets must fit 64 bits, every
shift must be shorter than its number, every slice must lie within the buffer, and every turn must
advance. A computation that breaks one of these stops with a fault. The loops over elements count
their turns, those of the levels within included. -/

namespace Zemo.Extraction

/-- What must not happen. -/
inductive Fault
  | overflow
  | shift
  | slice
  | stuck
  deriving DecidableEq

/-! ## Arithmetic and slices -/

/-- A sum of `usize`. -/
def addUsize (a b : Nat) : Except Fault Nat :=
  if a + b < 2 ^ 64 then .ok (a + b) else .error .overflow

/-- `u8 >> n`. -/
def shiftRight (b : UInt8) (n : Nat) : Except Fault UInt8 :=
  if n < 8 then .ok (b >>> UInt8.ofNat n) else .error .shift

/-- `bytes[start..stop]`. -/
def sliceBytes (bytes : Bytes) (start stop : Nat) : Except Fault Bytes :=
  if start ≤ stop ∧ stop ≤ bytes.length then .ok ((bytes.take stop).drop start) else .error .slice

/-- A number of so many bytes at an offset. -/
def readNumber (width : Nat) (bytes : Bytes) (offset : Nat) : Except Fault Nat := do
  let stop ← addUsize offset width
  let number ← sliceBytes bytes offset stop
  pure (BigEndian.value number)

/-! ## Elements -/

/-- `read_ebml_size`. -/
def readEbmlSizeAt (bytes : Bytes) : Except Fault (Option (Option Nat × Nat)) :=
  match bytes with
  | [] => .ok none
  | first :: rest =>
      let length := leadingZeros first + 1
      if length ≤ 8 ∧ length ≤ bytes.length then do
        let mask ← shiftRight 0xFF length
        let value := BigEndian.value ((first &&& mask) :: rest.take (length - 1))
        if value = 2 ^ (7 * length) - 1 then pure (some (none, length))
        else pure (some (some value, length))
      else .ok none

/-- The header of the element at an offset: its identifier, its length and the size it gives. -/
def headerAt (bytes : Bytes) (offset : Nat) : Except Fault (Option (Nat × Nat × Option Nat)) := do
  let here ← sliceBytes bytes offset bytes.length
  match readEbmlId here with
  | none => pure none
  | some (id, idLength) =>
      let sizeOffset ← addUsize offset idLength
      let there ← sliceBytes bytes sizeOffset bytes.length
      match ← readEbmlSizeAt there with
      | none => pure none
      | some (size, sizeLength) =>
          let header ← addUsize idLength sizeLength
          pure (some (id, header, size))

/-- The element of an inner level at an offset: its identifier, its body and the next offset; none
where the loop ends. -/
def elementAt (bytes : Bytes) (offset : Nat) : Except Fault (Option (Nat × Bytes × Nat)) := do
  match ← headerAt bytes offset with
  | none => pure none
  | some (id, header, size) =>
      let payload := size.getD 0
      let start ← addUsize offset header
      let stop ← addUsize start payload
      if bytes.length < stop then pure none
      else
        let body ← sliceBytes bytes start stop
        let advance ← addUsize header payload
        let next ← addUsize offset advance
        pure (some (id, body, next))

/-- The loop over the elements of an inner level, and its turns. -/
def eachElementAt {σ : Type} (visit : σ → Nat → Bytes → Except Fault (σ × Nat)) (bytes : Bytes)
    (offset : Nat) (s : σ) : Except Fault (σ × Nat) :=
  if offset < bytes.length then do
    match ← elementAt bytes offset with
    | none => pure (s, 1)
    | some (id, body, next) =>
        let (s, inner) ← visit s id body
        if offset < next then
          let (s, later) ← eachElementAt visit bytes next s
          pure (s, 1 + inner + later)
        else .error .stuck
  else pure (s, 0)
termination_by bytes.length - offset

/-- A visit without a level of its own. -/
def visiting {σ : Type} (visit : σ → Nat → Bytes → σ) (s : σ) (id : Nat) (body : Bytes) :
    Except Fault (σ × Nat) :=
  .ok (visit s id body, 0)

/-- `parse_segment_info`. -/
def parseSegmentInfoAt (bytes : Bytes) (m : VideoMetadata) : Except Fault (VideoMetadata × Nat) :=
  eachElementAt (visiting visitInfo) bytes 0 m

/-- An element of `parse_track_entry`. -/
def visitTrackEntryAt (t : TrackEntry) (id : Nat) (body : Bytes) :
    Except Fault (TrackEntry × Nat) :=
  if id = 0x83 ∧ body ≠ [] then .ok ({ t with trackType := body.head? }, 0)
  else if id = 0x86 then .ok ({ t with codec := Utf8.decode? body }, 0)
  else if id = 0xE0 then eachElementAt (visiting visitVideo) body 0 t
  else .ok (t, 0)

/-- `parse_track_entry`. -/
def parseTrackEntryAt (bytes : Bytes) (m : VideoMetadata) : Except Fault (VideoMetadata × Nat) := do
  let (t, turns) ← eachElementAt visitTrackEntryAt bytes 0 {}
  pure (m.addTrack t, turns)

/-- An element of `parse_tracks`. -/
def visitTracksAt (m : VideoMetadata) (id : Nat) (body : Bytes) :
    Except Fault (VideoMetadata × Nat) :=
  if id = 0xAE then parseTrackEntryAt body m else .ok (m, 0)

/-- `parse_tracks`. -/
def parseTracksAt (bytes : Bytes) (m : VideoMetadata) : Except Fault (VideoMetadata × Nat) :=
  eachElementAt visitTracksAt bytes 0 m

/-- The element of a file or of a Segment at an offset. -/
def segmentElementAt (bytes : Bytes) (offset : Nat) :
    Except Fault (Option (Nat × Bytes × Nat)) := do
  match ← headerAt bytes offset with
  | none => pure none
  | some (id, header, size) =>
      let start ← addUsize offset header
      if bytes.length < start then pure none
      else
        let stop ← match size with
          | some value => addUsize start value
          | none => pure bytes.length
        if bytes.length < stop then pure none
        else
          let body ← sliceBytes bytes start stop
          pure (some (id, body, stop))

/-- The loop of `parse_matroska_metadata`, and its turns. A Segment must be shorter than what it
lies in. -/
def matroskaLoopAt (elements : Nat) (bytes : Bytes) (offset : Nat) (m : VideoMetadata) :
    Except Fault (VideoMetadata × Nat) :=
  if offset < bytes.length ∧ elements ≠ 0 then do
    match ← segmentElementAt bytes offset with
    | none => pure ({ m with partially := true }, 1)
    | some (id, body, next) =>
        let visited : Except Fault (VideoMetadata × Nat) :=
          if id = 0x18538067 then
            if body.length < bytes.length then do
              let (nested, turns) ← matroskaLoopAt maxEbmlElements body 0 .matroska
              pure (m.merge nested, turns)
            else .error .stuck
          else if id = 0x1549A966 then parseSegmentInfoAt body m
          else if id = 0x1654AE6B then parseTracksAt body m
          else pure (m, 0)
        let (m, inner) ← visited
        if id = 0x1F43B675 then pure (m, 1)
        else if offset < next then
          let (m, later) ← matroskaLoopAt (elements - 1) bytes next m
          pure (m, 1 + inner + later)
        else .error .stuck
  else pure (m, 0)
termination_by (bytes.length, bytes.length - offset)

/-- `parse_matroska_metadata`, and the turns of all its loops. -/
def parseMatroskaMetadataAt (bytes : Bytes) : Except Fault (VideoMetadata × Nat) :=
  matroskaLoopAt maxEbmlElements bytes 0 .matroska

/-! ## Boxes -/

/-- The box of an inner level at an offset: its kind, its body and the next offset; none where it
does not fit. -/
def boxAt (bytes : Bytes) (offset : Nat) : Except Fault (Option (Bytes × Bytes × Nat)) := do
  let size ← readNumber 4 bytes offset
  let kindStart ← addUsize offset 4
  let start ← addUsize offset 8
  let kind ← sliceBytes bytes kindStart start
  if size < 8 then pure none
  else
    let stop ← addUsize offset size
    if bytes.length < stop then pure none
    else
      let body ← sliceBytes bytes start stop
      pure (some (kind, body, stop))

/-- The loop over the boxes of an inner level. -/
def eachBoxAt {σ : Type} (visit : σ → Bytes → Bytes → Except Fault σ) (bytes : Bytes)
    (offset : Nat) (s : σ) : Except Fault σ := do
  let start ← addUsize offset 8
  if bytes.length < start then pure s
  else
    match ← boxAt bytes offset with
    | none => pure s
    | some (kind, body, next) =>
        let s ← visit s kind body
        if offset < next ∧ offset < bytes.length then eachBoxAt visit bytes next s
        else .error .stuck
termination_by bytes.length - offset

/-- A visit of the boxes of one kind. -/
def visitKindAt (kind : String) (parse : Bytes → VideoMetadata → Except Fault VideoMetadata)
    (m : VideoMetadata) (boxKind body : Bytes) : Except Fault VideoMetadata :=
  if boxKind = ascii kind then parse body m else .ok m

/-- `parse_stsd`. -/
def parseStsdAt (body : Bytes) (m : VideoMetadata) : Except Fault VideoMetadata := do
  if body.length < 16 then pure m
  else
    let entry ← sliceBytes body 8 body.length
    let name ← sliceBytes entry 4 8
    let codec := (Utf8.decode? name).getD "unknown".toList
    let audio :=
      if m.audioCodec = none then { m with audioCodec := some codec } else m
    if 36 ≤ entry.length then
      let width ← readNumber 2 entry 32
      let height ← readNumber 2 entry 34
      if 0 < width ∧ 0 < height then
        pure { m with width := some width, height := some height, videoCodec := some codec }
      else pure audio
    else pure audio

/-- `parse_stbl`. -/
def parseStblAt (bytes : Bytes) (m : VideoMetadata) : Except Fault VideoMetadata :=
  eachBoxAt (visitKindAt "stsd" parseStsdAt) bytes 0 m

/-- `parse_minf`. -/
def parseMinfAt (bytes : Bytes) (m : VideoMetadata) : Except Fault VideoMetadata :=
  eachBoxAt (visitKindAt "stbl" parseStblAt) bytes 0 m

/-- `parse_mdia`. -/
def parseMdiaAt (bytes : Bytes) (m : VideoMetadata) : Except Fault VideoMetadata :=
  eachBoxAt (visitKindAt "minf" parseMinfAt) bytes 0 m

/-- `parse_trak`. -/
def parseTrakAt (bytes : Bytes) (m : VideoMetadata) : Except Fault VideoMetadata :=
  eachBoxAt (visitKindAt "mdia" parseMdiaAt) bytes 0 m

/-- `parse_mvhd`. -/
def parseMvhdAt (body : Bytes) (m : VideoMetadata) : Except Fault VideoMetadata :=
  match body.head? with
  | none => .ok m
  | some version =>
      if version = 0 ∧ 20 ≤ body.length then do
        let timescale ← readNumber 4 body 12
        let duration ← readNumber 4 body 16
        let creation ← readNumber 4 body 4
        let m :=
          if 0 < timescale then { m with durationSeconds := some ((duration : ℚ) / timescale) }
          else m
        pure { m with creationTime := mp4EpochToRfc3339 creation }
      else if version = 1 ∧ 32 ≤ body.length then do
        let timescale ← readNumber 4 body 20
        let duration ← readNumber 8 body 24
        pure
          (if 0 < timescale then { m with durationSeconds := some ((duration : ℚ) / timescale) }
          else m)
      else .ok m

/-- A box of `parse_moov`. -/
def visitMoovAt (m : VideoMetadata) (kind body : Bytes) : Except Fault VideoMetadata :=
  if kind = ascii "mvhd" then parseMvhdAt body m
  else if kind = ascii "trak" then parseTrakAt body m
  else .ok m

/-- The loop of `parse_moov`. -/
def moovLoopAt (boxes : Nat) (bytes : Bytes) (offset : Nat) (m : VideoMetadata) :
    Except Fault VideoMetadata :=
  match boxes with
  | 0 => .ok m
  | boxes + 1 => do
      let start ← addUsize offset 8
      if bytes.length < start then pure m
      else
        match ← boxAt bytes offset with
        | none => pure { m with partially := true }
        | some (kind, body, next) =>
            let m ← visitMoovAt m kind body
            if offset < next then moovLoopAt boxes bytes next m else .error .stuck

/-- `parse_moov`. -/
def parseMoovAt (bytes : Bytes) (m : VideoMetadata) : Except Fault VideoMetadata :=
  moovLoopAt maxBoxes bytes 0 m

/-- A box of `parse_iso_bmff_metadata`. -/
def visitFileAt (m : VideoMetadata) (kind body : Bytes) : Except Fault VideoMetadata :=
  if kind = ascii "moov" then parseMoovAt body m
  else if kind = ascii "ftyp" ∧ 4 ≤ body.length then .ok { m with container := "mp4" }
  else .ok m

/-- The length of the header and the size of the box of a file at an offset; none where the header
does not fit. -/
def boxSizeAt (bytes : Bytes) (offset : Nat) : Except Fault (Option (Nat × Nat)) := do
  let sizeField ← readNumber 4 bytes offset
  if sizeField = 1 then
    let start ← addUsize offset 16
    if bytes.length < start then pure none
    else
      let largeOffset ← addUsize offset 8
      let large ← readNumber 8 bytes largeOffset
      pure (some (16, large))
  else if sizeField = 0 then pure (some (8, bytes.length - offset))
  else pure (some (8, sizeField))

/-- The box of a file at an offset. -/
def fileBoxAt (bytes : Bytes) (offset : Nat) : Except Fault (Option (Bytes × Bytes × Nat)) := do
  let kindStart ← addUsize offset 4
  let kindStop ← addUsize offset 8
  let kind ← sliceBytes bytes kindStart kindStop
  match ← boxSizeAt bytes offset with
  | none => pure none
  | some (header, size) =>
      if size < header then pure none
      else
        let stop ← addUsize offset size
        if bytes.length < stop then pure none
        else
          let start ← addUsize offset header
          let body ← sliceBytes bytes start stop
          pure (some (kind, body, stop))

/-- The loop of `parse_iso_bmff_metadata`. -/
def isoLoopAt (boxes : Nat) (bytes : Bytes) (offset : Nat) (m : VideoMetadata) :
    Except Fault VideoMetadata :=
  match boxes with
  | 0 => .ok m
  | boxes + 1 => do
      let start ← addUsize offset 8
      if bytes.length < start then pure m
      else
        match ← fileBoxAt bytes offset with
        | none => pure { m with partially := true }
        | some (kind, body, next) =>
            let m ← visitFileAt m kind body
            if offset < next then isoLoopAt boxes bytes next m else .error .stuck

/-- `parse_iso_bmff_metadata`. -/
def parseIsoBmffMetadataAt (bytes : Bytes) : Except Fault VideoMetadata := do
  let m ← isoLoopAt maxBoxes bytes 0 { container := "iso_bmff" }
  pure m.settle

end Zemo.Extraction
