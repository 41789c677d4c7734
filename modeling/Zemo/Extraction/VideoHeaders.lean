import Mathlib.Data.Nat.Size
import Zemo.Extraction.Engine
import Zemo.Lib.Numerals

set_option autoImplicit false

/-! # The headers of videos

`parse_matroska_metadata` and `parse_iso_bmff_metadata` over the bytes that are left: each loop of
the source is a recursion on them. The shift of the mask of a size wraps around as it does without
overflow checks. Nobody cancels. -/

namespace Zemo.Extraction

open Organizer (containsText)

/-- `VideoMetadata`; durations are exact. -/
structure VideoMetadata where
  container : String
  durationSeconds : Option ℚ := none
  width : Option Nat := none
  height : Option Nat := none
  videoCodec : Option Text := none
  audioCodec : Option Text := none
  creationTime : Option String := none
  partially : Bool := false
  deriving DecidableEq

/-- The codec and the size of the pictures. -/
def VideoMetadata.picture (m : VideoMetadata) : Option Text × Option Nat × Option Nat :=
  (m.videoCodec, m.width, m.height)

/-! ## Identifiers and sizes -/

/-- `u8::leading_zeros`. -/
def leadingZeros (b : UInt8) : Nat := 8 - b.toNat.size

/-- `read_ebml_id`: the identifier and its length. -/
def readEbmlId (bytes : Bytes) : Option (Nat × Nat) :=
  match bytes with
  | [] => none
  | first :: _ =>
      let length := leadingZeros first + 1
      if length ≤ 4 ∧ length ≤ bytes.length then some (BigEndian.value (bytes.take length), length)
      else none

/-- `read_ebml_size`: the size, none when it is unknown, and its length. -/
def readEbmlSize (bytes : Bytes) : Option (Option Nat × Nat) :=
  match bytes with
  | [] => none
  | first :: rest =>
      let length := leadingZeros first + 1
      if length ≤ 8 ∧ length ≤ bytes.length then
        -- a shift by eight places shifts by none
        let mask := (0xFF : UInt8) >>> UInt8.ofNat length
        let value := BigEndian.value ((first &&& mask) :: rest.take (length - 1))
        if value = 2 ^ (7 * length) - 1 then some (none, length) else some (some value, length)
      else none

/-- The header of an element: its identifier, its length and the size it gives. -/
def readHeader (bytes : Bytes) : Option (Nat × Nat × Option Nat) :=
  match readEbmlId bytes with
  | none => none
  | some (id, idLength) =>
      match readEbmlSize (bytes.drop idLength) with
      | none => none
      | some (size, sizeLength) => some (id, idLength + sizeLength, size)

theorem readHeader_pos {bytes : Bytes} {id header : Nat} {size : Option Nat}
    (h : readHeader bytes = some (id, header, size)) : 0 < header ∧ 0 < bytes.length := by
  cases bytes with
  | nil => exact nomatch h
  | cons first rest =>
    refine ⟨?_, Nat.succ_pos _⟩
    unfold readHeader at h
    split at h
    · exact nomatch h
    · rename_i idLength hid
      have hlength : 0 < idLength := by
        unfold readEbmlId at hid
        dsimp only at hid
        split_ifs at hid
        obtain ⟨-, rfl⟩ := Prod.mk.inj (Option.some.inj hid)
        omega
      split at h
      · exact nomatch h
      · obtain ⟨-, hrest⟩ := Prod.mk.inj (Option.some.inj h)
        obtain ⟨rfl, -⟩ := Prod.mk.inj hrest
        omega

/-- The loop over the elements of an inner level, to the first that cannot be read. An unknown size
is taken as none at all. -/
def eachElement {σ : Type} (visit : σ → Nat → Bytes → σ) (bytes : Bytes) (s : σ) : σ :=
  match _h : readHeader bytes with
  | none => s
  | some (id, header, size) =>
      let payload := size.getD 0
      if bytes.length < header + payload then s
      else
        eachElement visit (bytes.drop (header + payload))
          (visit s id ((bytes.drop header).take payload))
termination_by bytes.length
decreasing_by
  have hpos := readHeader_pos _h
  simp only [List.length_drop]
  omega

/-! ## Information and tracks of a Segment -/

/-- `f64::from_bits`; none when it is not finite. -/
def doubleValue (bits : Nat) : Option ℚ :=
  let exponent : Nat := bits / 2 ^ 52 % 2 ^ 11
  let mantissa : Nat := bits % 2 ^ 52
  let sign : ℚ := if bits / 2 ^ 63 % 2 = 0 then 1 else -1
  if exponent = 2 ^ 11 - 1 then none
  else if exponent = 0 then some (sign * (mantissa * 2 / 2 ^ 1075))
  else some (sign * ((2 ^ 52 + mantissa) * 2 ^ exponent / 2 ^ 1075))

/-- An element of `parse_segment_info`. -/
def visitInfo (m : VideoMetadata) (id : Nat) (body : Bytes) : VideoMetadata :=
  if id = 0x4489 ∧ body.length = 8 then
    match doubleValue (BigEndian.value body) with
    | some duration =>
        if 0 < duration then { m with durationSeconds := some (duration / 1000000000) } else m
    | none => m
  else m

/-- `parse_segment_info`. -/
def parseSegmentInfo (bytes : Bytes) (m : VideoMetadata) : VideoMetadata :=
  eachElement visitInfo bytes m

/-- What `parse_track_entry` collects. -/
structure TrackEntry where
  codec : Option Text := none
  trackType : Option UInt8 := none
  width : Option Nat := none
  height : Option Nat := none
  deriving DecidableEq

/-- An element of `Video` in `parse_track_entry`. -/
def visitVideo (t : TrackEntry) (id : Nat) (body : Bytes) : TrackEntry :=
  let t := if id = 0xB0 ∧ body.length ≤ 4 then { t with width := some (BigEndian.value body) } else t
  if id = 0xBA ∧ body.length ≤ 4 then { t with height := some (BigEndian.value body) } else t

/-- An element of `parse_track_entry`. -/
def visitTrackEntry (t : TrackEntry) (id : Nat) (body : Bytes) : TrackEntry :=
  if id = 0x83 ∧ body ≠ [] then { t with trackType := body.head? }
  else if id = 0x86 then { t with codec := Utf8.decode? body }
  else if id = 0xE0 then eachElement visitVideo body t
  else t

/-- The end of `parse_track_entry`. -/
def VideoMetadata.addTrack (m : VideoMetadata) (t : TrackEntry) : VideoMetadata :=
  if t.trackType = some 1 then
    { m with videoCodec := t.codec, width := t.width, height := t.height }
  else if t.trackType = some 2 ∧ m.audioCodec = none then { m with audioCodec := t.codec }
  else m

/-- `parse_track_entry`. -/
def parseTrackEntry (bytes : Bytes) (m : VideoMetadata) : VideoMetadata :=
  m.addTrack (eachElement visitTrackEntry bytes {})

/-- An element of `parse_tracks`. -/
def visitTracks (m : VideoMetadata) (id : Nat) (body : Bytes) : VideoMetadata :=
  if id = 0xAE then parseTrackEntry body m else m

/-- `parse_tracks`. -/
def parseTracks (bytes : Bytes) (m : VideoMetadata) : VideoMetadata :=
  eachElement visitTracks bytes m

/-! ## The elements of a file or of a Segment -/

/-- `MAX_EBML_ELEMENTS`. -/
def maxEbmlElements : Nat := 4096

/-- `merge_video_metadata`. -/
def VideoMetadata.merge (target source : VideoMetadata) : VideoMetadata :=
  { target with
    durationSeconds := target.durationSeconds.or source.durationSeconds
    width := target.width.or source.width
    height := target.height.or source.height
    videoCodec := target.videoCodec.or source.videoCodec
    audioCodec := target.audioCodec.or source.audioCodec
    partially := target.partially || source.partially }

/-- The metadata of Matroska before anything is read. -/
def VideoMetadata.matroska : VideoMetadata := { container := "matroska" }

/-- The loop of `parse_matroska_metadata`, while so many elements may be read. -/
def matroskaLoop (elements : Nat) (bytes : Bytes) (m : VideoMetadata) : VideoMetadata :=
  if bytes = [] ∨ elements = 0 then m
  else
    match _h : readHeader bytes with
    | none => { m with partially := true }
    | some (id, header, size) =>
        let stop := (size.map (header + ·)).getD bytes.length
        if bytes.length < header ∨ bytes.length < stop then { m with partially := true }
        else
          let body := (bytes.take stop).drop header
          let rest := bytes.drop stop
          if id = 0x18538067 then
            matroskaLoop (elements - 1) rest (m.merge (matroskaLoop maxEbmlElements body .matroska))
          else if id = 0x1549A966 then matroskaLoop (elements - 1) rest (parseSegmentInfo body m)
          else if id = 0x1654AE6B then matroskaLoop (elements - 1) rest (parseTracks body m)
          else if id = 0x1F43B675 then m
          else matroskaLoop (elements - 1) rest m
termination_by bytes.length
decreasing_by
  all_goals
    have hpos := readHeader_pos _h
    simp only [List.length_drop, List.length_take]
    cases size <;> simp only [Option.map_none, Option.map_some, Option.getD_none,
      Option.getD_some] <;> omega

/-- `parse_matroska_metadata`. -/
def parseMatroskaMetadata (bytes : Bytes) : VideoMetadata :=
  matroskaLoop maxEbmlElements bytes .matroska

/-! ## The boxes of an inner level -/

/-- The loop over the boxes of an inner level, to the first that does not fit. -/
def eachBox {σ : Type} (visit : σ → Bytes → Bytes → σ) (bytes : Bytes) (s : σ) : σ :=
  if bytes.length < 8 then s
  else
    let size := BigEndian.value (bytes.take 4)
    if size < 8 ∨ bytes.length < size then s
    else
      eachBox visit (bytes.drop size) (visit s ((bytes.drop 4).take 4) ((bytes.take size).drop 8))
termination_by bytes.length
decreasing_by
  simp only [List.length_drop]
  omega

/-- A visit of the boxes of one kind. -/
def visitKind (kind : String) (parse : Bytes → VideoMetadata → VideoMetadata) (m : VideoMetadata)
    (boxKind body : Bytes) : VideoMetadata :=
  if boxKind = ascii kind then parse body m else m

/-- The picture of the first entry of a sample description, read as one of a visual track: the codec,
the width and the height, when these are not zero. -/
def descriptionPicture (body : Bytes) : Option (Text × Nat × Nat) :=
  let entry := body.drop 8
  let codec := (Utf8.decode? ((entry.drop 4).take 4)).getD "unknown".toList
  let width := BigEndian.value ((entry.drop 32).take 2)
  let height := BigEndian.value ((entry.drop 34).take 2)
  if 36 ≤ entry.length ∧ 0 < width ∧ 0 < height then some (codec, width, height) else none

/-- `parse_stsd`. -/
def parseStsd (body : Bytes) (m : VideoMetadata) : VideoMetadata :=
  if body.length < 16 then m
  else
    match descriptionPicture body with
    | some (codec, width, height) =>
        { m with width := some width, height := some height, videoCodec := some codec }
    | none =>
        if m.audioCodec = none then
          { m with
            audioCodec :=
              some ((Utf8.decode? (((body.drop 8).drop 4).take 4)).getD "unknown".toList) }
        else m

/-- `parse_stbl`. -/
def parseStbl (bytes : Bytes) (m : VideoMetadata) : VideoMetadata :=
  eachBox (visitKind "stsd" parseStsd) bytes m

/-- `parse_minf`. -/
def parseMinf (bytes : Bytes) (m : VideoMetadata) : VideoMetadata :=
  eachBox (visitKind "stbl" parseStbl) bytes m

/-- `parse_mdia`. -/
def parseMdia (bytes : Bytes) (m : VideoMetadata) : VideoMetadata :=
  eachBox (visitKind "minf" parseMinf) bytes m

/-- `parse_trak`. -/
def parseTrak (bytes : Bytes) (m : VideoMetadata) : VideoMetadata :=
  eachBox (visitKind "mdia" parseMdia) bytes m

/-! ## The boxes of a movie -/

/-- `mp4_epoch_to_rfc3339`. -/
def mp4EpochToRfc3339 (secondsSince1904 : Nat) : Option String :=
  if 2082844800 ≤ secondsSince1904 then some s!"unix:{secondsSince1904 - 2082844800}" else none

/-- `parse_mvhd`. -/
def parseMvhd (body : Bytes) (m : VideoMetadata) : VideoMetadata :=
  match body.head? with
  | none => m
  | some version =>
      if version = 0 ∧ 20 ≤ body.length then
        let timescale := BigEndian.value ((body.drop 12).take 4)
        let duration := BigEndian.value ((body.drop 16).take 4)
        let m :=
          if 0 < timescale then { m with durationSeconds := some ((duration : ℚ) / timescale) }
          else m
        { m with creationTime := mp4EpochToRfc3339 (BigEndian.value ((body.drop 4).take 4)) }
      else if version = 1 ∧ 32 ≤ body.length then
        let timescale := BigEndian.value ((body.drop 20).take 4)
        let duration := BigEndian.value ((body.drop 24).take 8)
        if 0 < timescale then { m with durationSeconds := some ((duration : ℚ) / timescale) }
        else m
      else m

/-- A box of `parse_moov`. -/
def visitMoov (m : VideoMetadata) (kind body : Bytes) : VideoMetadata :=
  if kind = ascii "mvhd" then parseMvhd body m
  else if kind = ascii "trak" then parseTrak body m
  else m

/-- `MAX_BOXES`. -/
def maxBoxes : Nat := 4096

/-- The loop of `parse_moov`, while so many boxes may be read. -/
def moovLoop (boxes : Nat) (bytes : Bytes) (m : VideoMetadata) : VideoMetadata :=
  match boxes with
  | 0 => m
  | boxes + 1 =>
      if bytes.length < 8 then m
      else
        let size := BigEndian.value (bytes.take 4)
        if size < 8 ∨ bytes.length < size then { m with partially := true }
        else
          moovLoop boxes (bytes.drop size)
            (visitMoov m ((bytes.drop 4).take 4) ((bytes.take size).drop 8))

/-- `parse_moov`. -/
def parseMoov (bytes : Bytes) (m : VideoMetadata) : VideoMetadata := moovLoop maxBoxes bytes m

/-! ## The boxes of a file -/

/-- A box of `parse_iso_bmff_metadata`. -/
def visitFile (m : VideoMetadata) (kind body : Bytes) : VideoMetadata :=
  if kind = ascii "moov" then parseMoov body m
  else if kind = ascii "ftyp" ∧ 4 ≤ body.length then { m with container := "mp4" }
  else m

/-- The loop of `parse_iso_bmff_metadata` at an offset, while so many boxes may be read; none is a
panic. -/
def isoLoop (boxes offset : Nat) (bytes : Bytes) (m : VideoMetadata) : Option VideoMetadata :=
  match boxes with
  | 0 => some m
  | boxes + 1 =>
      if bytes.length < 8 then some m
      else
        let sizeField := BigEndian.value (bytes.take 4)
        if sizeField = 1 ∧ bytes.length < 16 then some { m with partially := true }
        else
          let header := if sizeField = 1 then 16 else 8
          let size :=
            if sizeField = 1 then BigEndian.value ((bytes.drop 8).take 8)
            else if sizeField = 0 then bytes.length
            else sizeField
          if size < header then some { m with partially := true }
          -- an end past the largest offset: it overflows, or it wraps around to an end before the
          -- start of the body
          else if 2 ^ 64 ≤ offset + size then none
          else if bytes.length < size then some { m with partially := true }
          else
            isoLoop boxes (offset + size) (bytes.drop size)
              (visitFile m ((bytes.drop 4).take 4) ((bytes.take size).drop header))

/-- The end of `parse_iso_bmff_metadata`. -/
def VideoMetadata.settle (m : VideoMetadata) : VideoMetadata :=
  if m.durationSeconds = none ∧ m.width = none ∧ m.height = none ∧ m.videoCodec = none ∧
      m.audioCodec = none then
    { m with partially := true }
  else if m.durationSeconds ≠ none then { m with partially := false }
  else m

/-- `parse_iso_bmff_metadata`; none is a panic. -/
def parseIsoBmffMetadata (bytes : Bytes) : Option VideoMetadata :=
  (isoLoop maxBoxes 0 bytes { container := "iso_bmff" }).map VideoMetadata.settle

/-! ## The extraction -/

/-- What becomes of the headers of a video. -/
inductive VideoScan
  | unsupported
  | panicked
  | parsed (m : VideoMetadata)
  deriving DecidableEq

/-- The metadata that was parsed. -/
def VideoScan.metadata : VideoScan → Option VideoMetadata
  | .parsed m => some m
  | .unsupported | .panicked => none

/-- The parser that `VideoMetadataExtractor::extract` takes, and what it makes of the bytes. -/
def scanVideo (input : ExtractionInput) : VideoScan :=
  let media := input.detection.detectedContentType
  let bytes := input.bytes.take maxScanBytes
  if containsText media "webm" || containsText media "matroska" || looksLikeEbml bytes then
    .parsed (parseMatroskaMetadata bytes)
  else if containsText media "mp4" || containsText media "quicktime" || containsText media "x-m4v"
      || looksLikeIsoBmff bytes then
    match parseIsoBmffMetadata bytes with
    | none => .panicked
    | some m => .parsed m
  else .unsupported

/-- The metadata of a video in the result of `extract`. -/
def videoMetadata (plan : ExtractionPlan) (bytes : Bytes) (fileSize : Nat) :
    Option VideoMetadata :=
  if plan.preflightStatus.isSome ∨ ¬plan.requiresInput ∨ plan.detection.contentKind ≠ .video ∨
      (inputRefused plan.readMode bytes.length fileSize).isSome ∨ bytes.length < fileSize then
    none
  else (scanVideo ⟨bytes, false, plan.detection⟩).metadata

end Zemo.Extraction
