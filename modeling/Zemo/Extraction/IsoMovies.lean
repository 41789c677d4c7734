import Zemo.Extraction.VideoHeaders
import Zemo.Lib.Scanning

set_option autoImplicit false

/-! # ISO videos and what is reported of them

Boxes as the format has them, with sizes of four or eight bytes or to the end of the file. Of an
inner level the parser reads the boxes before the first one whose size is not in four bytes. -/

namespace Zemo.Extraction

open Organizer (containsText)
open Scanning

/-! ## Boxes -/

/-- How the size of a box is written. -/
inductive SizeForm
  | short
  | large
  | toEnd
  deriving DecidableEq

/-- A box. -/
structure IsoBox where
  kind : Bytes
  form : SizeForm
  body : Bytes
  kind_fits : kind.length = 4
  size_fits : (form = .short → body.length + 8 < 2 ^ 32) ∧
    (form = .large → body.length + 16 < 2 ^ 64)
  deriving DecidableEq

/-- The first four bytes of a box, as a number. -/
def IsoBox.sizeField (b : IsoBox) : Nat :=
  match b.form with
  | .short => b.body.length + 8
  | .large => 1
  | .toEnd => 0

/-- The size in eight bytes, where it is written so. -/
def IsoBox.largeSize (b : IsoBox) : Bytes :=
  if b.form = .large then BigEndian.encode 8 (b.body.length + 16) else []

/-- The bytes of a box. -/
def IsoBox.encode (b : IsoBox) : Bytes :=
  BigEndian.encode 4 b.sizeField ++ (b.kind ++ (b.largeSize ++ b.body))

/-- The bytes of boxes. -/
def encodeBoxes (boxes : List IsoBox) : Bytes := boxes.flatMap IsoBox.encode

theorem encodeBoxes_cons (b : IsoBox) (rest : List IsoBox) :
    encodeBoxes (b :: rest) = b.encode ++ encodeBoxes rest :=
  List.flatMap_cons

/-- The size is written in four bytes. -/
def IsoBox.Short (b : IsoBox) : Prop := b.form = .short

instance instDecidableShortBox (b : IsoBox) : Decidable b.Short := inferInstanceAs (Decidable (_ = _))

theorem IsoBox.length_encode (b : IsoBox) :
    b.encode.length = 8 + b.largeSize.length + b.body.length := by
  unfold IsoBox.encode
  simp only [List.length_append, BigEndian.length_encode, b.kind_fits]
  omega

theorem IsoBox.sizeField_lt (b : IsoBox) : b.sizeField < 256 ^ 4 := by
  have hfits := b.size_fits
  unfold IsoBox.sizeField
  cases h : b.form with
  | short => exact (hfits.1 h).trans_eq (by norm_num)
  | large => norm_num
  | toEnd => norm_num

/-- The size field and the kind are read from the start. -/
theorem IsoBox.read_start (b : IsoBox) (rest : Bytes) :
    BigEndian.value ((b.encode ++ rest).take 4) = b.sizeField ∧
      ((b.encode ++ rest).drop 4).take 4 = b.kind := by
  have hsize : (BigEndian.encode 4 b.sizeField).length = 4 := BigEndian.length_encode _ _
  unfold IsoBox.encode
  rw [List.append_assoc, List.take_left' hsize, List.drop_left' hsize, List.append_assoc,
    List.take_left' b.kind_fits, BigEndian.value_encode b.sizeField_lt]
  exact ⟨rfl, rfl⟩

theorem IsoBox.short_parts {b : IsoBox} (h : b.Short) :
    b.encode.length = b.sizeField ∧ (b.encode.take b.sizeField).drop 8 = b.body := by
  have hlarge : b.largeSize = [] := if_neg (by rw [h]; exact nofun)
  have hfield : b.sizeField = b.body.length + 8 := by
    unfold IsoBox.sizeField
    rw [h]
  have hlength := b.length_encode
  rw [hlarge, List.length_nil] at hlength
  refine ⟨by omega, ?_⟩
  rw [hfield, show b.body.length + 8 = b.encode.length by omega, List.take_length]
  unfold IsoBox.encode
  rw [hlarge, List.nil_append, ← List.append_assoc, List.drop_left' (by
    rw [List.length_append, BigEndian.length_encode, b.kind_fits])]

theorem IsoBox.sizeField_lt_eight {b : IsoBox} (h : ¬b.Short) : b.sizeField < 8 := by
  unfold IsoBox.sizeField
  cases hform : b.form with
  | short => exact absurd hform h
  | large => norm_num
  | toEnd => norm_num

/-! ## The boxes of an inner level -/

section Level

variable {σ τ : Type} {visit : σ → Bytes → Bytes → σ}

/-- One turn of the loop. -/
theorem eachBox_cons (b : IsoBox) (rest : Bytes) (s : σ) :
    eachBox visit (b.encode ++ rest) s =
      if b.Short then eachBox visit rest (visit s b.kind b.body) else s := by
  have hlength := b.length_encode
  have htotal : (b.encode ++ rest).length = b.encode.length + rest.length := List.length_append
  obtain ⟨hsize, hkind⟩ := b.read_start rest
  rw [eachBox, if_neg (by omega), hsize, hkind]
  dsimp only
  by_cases hshort : b.Short
  · obtain ⟨hfield, hbody⟩ := IsoBox.short_parts hshort
    rw [if_neg (by omega), if_pos hshort, ← hfield, List.take_left, List.drop_left]
    rw [← hfield, List.take_length] at hbody
    rw [hbody]
  · rw [if_pos (.inl (IsoBox.sizeField_lt_eight hshort)), if_neg hshort]

/-- **The loop visits the boxes before the first whose size is not in four bytes.** -/
theorem eachBox_encodeBoxes (boxes : List IsoBox) (s : σ) :
    eachBox visit (encodeBoxes boxes) s =
      (boxes.takeWhile (·.Short)).foldl (fun s b => visit s b.kind b.body) s := by
  induction boxes generalizing s with
  | nil => rw [encodeBoxes, List.flatMap_nil, eachBox]; rfl
  | cons b rest ih =>
    rw [encodeBoxes_cons, eachBox_cons]
    by_cases hshort : b.Short
    · rw [if_pos hshort, ih, List.takeWhile_cons_of_pos (by simpa using hshort), List.foldl_cons]
    · rw [if_neg hshort, List.takeWhile_cons_of_neg (by simpa using hshort), List.foldl_nil]

end Level

/-- The box is read: its size and those of all before it are in four bytes. -/
def IsReadBox (boxes : List IsoBox) (b : IsoBox) : Prop := b ∈ boxes.takeWhile (·.Short)

instance (boxes : List IsoBox) (b : IsoBox) : Decidable (IsReadBox boxes b) :=
  inferInstanceAs (Decidable (_ ∈ _))

/-- What the loop makes of what is looked at is up to the box of the kind, if it is read. -/
theorem eachBox_visitKind {kind : String} {boxes : List IsoBox} {b : IsoBox}
    (halone : Alone IsoBox.kind (ascii kind) boxes b) {τ : Type} {look : VideoMetadata → τ}
    {apply : τ → τ} {parse : Bytes → VideoMetadata → VideoMetadata}
    (hparse : ∀ m, look (parse b.body m) = apply (look m)) (m : VideoMetadata) :
    look (eachBox (visitKind kind parse) (encodeBoxes boxes) m) =
      if IsReadBox boxes b then apply (look m) else look m := by
  rw [eachBox_encodeBoxes]
  obtain ⟨hread, hunread⟩ := @foldl_alone _ _ _
    (fun m b => visitKind kind parse m b.kind b.body) _ _ _ _ _ halone _
    (List.takeWhile_prefix _) look apply
    (fun x hx m => by rw [visitKind, if_neg hx])
    (fun m => by rw [visitKind, if_pos halone.key_eq, hparse]) m
  split_ifs with h
  · exact hread h
  · exact hunread h

/-! ## Tracks -/

/-- The codec, the width and the height of pictures. -/
abbrev Picture := Text × Nat × Nat

/-- What is known of the picture once another one is found. -/
def showing (found : Option Picture) (old : Option Text × Option Nat × Option Nat) :
    Option Text × Option Nat × Option Nat :=
  match found with
  | some (codec, width, height) => (some codec, some width, some height)
  | none => old

/-- A track: its media with a handler and, three levels down, a sample description. -/
structure Trak where
  box : IsoBox
  children : List IsoBox
  mdia : IsoBox
  mdiaChildren : List IsoBox
  hdlr : IsoBox
  minf : IsoBox
  minfChildren : List IsoBox
  stbl : IsoBox
  stblChildren : List IsoBox
  stsd : IsoBox
  box_kind : box.kind = ascii "trak"
  box_body : box.body = encodeBoxes children
  mdia_alone : Alone IsoBox.kind (ascii "mdia") children mdia
  mdia_body : mdia.body = encodeBoxes mdiaChildren
  hdlr_alone : Alone IsoBox.kind (ascii "hdlr") mdiaChildren hdlr
  minf_alone : Alone IsoBox.kind (ascii "minf") mdiaChildren minf
  minf_body : minf.body = encodeBoxes minfChildren
  stbl_alone : Alone IsoBox.kind (ascii "stbl") minfChildren stbl
  stbl_body : stbl.body = encodeBoxes stblChildren
  stsd_alone : Alone IsoBox.kind (ascii "stsd") stblChildren stsd

namespace Trak

/-- The type of the handler: `vide` for a visual track. -/
def handler (t : Trak) : Bytes := (t.hdlr.body.drop 8).take 4

/-- The picture that is read of a track: its sample description is read, and as one of a visual
track it has a width and a height. -/
def reads (t : Trak) : Option Picture :=
  if IsReadBox t.children t.mdia ∧ IsReadBox t.mdiaChildren t.minf ∧
      IsReadBox t.minfChildren t.stbl ∧ IsReadBox t.stblChildren t.stsd then
    descriptionPicture t.stsd.body
  else none

theorem parseStsd_picture (body : Bytes) (m : VideoMetadata) :
    (parseStsd body m).picture = showing (descriptionPicture body) m.picture := by
  unfold parseStsd
  by_cases hshort : body.length < 16
  · have hnone : descriptionPicture body = none := by
      unfold descriptionPicture
      rw [if_neg]
      rw [List.length_drop]
      omega
    rw [if_pos hshort, hnone]
    rfl
  · rw [if_neg hshort]
    cases descriptionPicture body with
    | some picture => rfl
    | none =>
      dsimp only
      split_ifs <;> rfl

/-- What is known of the picture after a level. -/
theorem level_picture {kind : String} {boxes : List IsoBox} {b : IsoBox}
    (halone : Alone IsoBox.kind (ascii kind) boxes b)
    {parse : Bytes → VideoMetadata → VideoMetadata} {found : Option Picture}
    (hparse : ∀ m, (parse b.body m).picture = showing found m.picture) (m : VideoMetadata) :
    (eachBox (visitKind kind parse) (encodeBoxes boxes) m).picture =
      showing (if IsReadBox boxes b then found else none) m.picture := by
  rw [@eachBox_visitKind _ _ _ halone _ VideoMetadata.picture (showing found) parse hparse]
  split_ifs <;> rfl

theorem parseTrak_picture (t : Trak) (m : VideoMetadata) :
    (parseTrak t.box.body m).picture = showing t.reads m.picture := by
  have hstbl := level_picture t.stsd_alone (parseStsd_picture t.stsd.body)
  have hminf := level_picture t.stbl_alone (fun m => by rw [t.stbl_body]; exact hstbl m)
  have hmdia := level_picture t.minf_alone (fun m => by rw [t.minf_body]; exact hminf m)
  have htrak := level_picture t.mdia_alone (fun m => by rw [t.mdia_body]; exact hmdia m)
  rw [t.box_body]
  refine (htrak m).trans ?_
  unfold reads
  simp only [ite_and]

end Trak

/-- A visual track: its first sample entry is a visual one. -/
structure VisualTrak extends Trak where
  codec : Text
  visual : toTrak.handler = ascii "vide"
  entry_fits : 8 + 86 ≤ stsd.body.length
  codec_text : (stsd.body.drop 12).take 4 = Utf8.encode codec

/-- The picture of a visual track. -/
def VisualTrak.picture (t : VisualTrak) : Picture :=
  (t.codec, BigEndian.value ((t.stsd.body.drop 40).take 2),
    BigEndian.value ((t.stsd.body.drop 42).take 2))

/-! ## Movies -/

/-- A box of a movie. -/
inductive MovieBox
  | trak (t : Trak)
  | other (b : IsoBox) (h : b.kind ≠ ascii "trak")

/-- The box itself. -/
def MovieBox.box : MovieBox → IsoBox
  | .trak t => t.box
  | .other b _ => b

/-- The picture that is read of a box. -/
def MovieBox.reads : MovieBox → Option Picture
  | .trak t => t.reads
  | .other _ _ => none

/-- The box is no visual track. -/
def MovieBox.NotVisual : MovieBox → Prop
  | .trak t => t.handler ≠ ascii "vide"
  | .other _ _ => True

/-- A header of a movie, in its short or its long form. -/
structure MovieHeader where
  box : IsoBox
  long : Bool
  box_kind : box.kind = ascii "mvhd"
  version : box.body.head? = some (if long then 1 else 0)
  length : (if long then 112 else 100) ≤ box.body.length

namespace MovieHeader

variable (header : MovieHeader)

/-- The units a second has. -/
def timescale : Nat :=
  if header.long then BigEndian.value ((header.box.body.drop 20).take 4)
  else BigEndian.value ((header.box.body.drop 12).take 4)

/-- The units the movie takes. -/
def duration : Nat :=
  if header.long then BigEndian.value ((header.box.body.drop 24).take 8)
  else BigEndian.value ((header.box.body.drop 16).take 4)

/-- The duration in seconds. -/
def seconds : ℚ := (header.duration : ℚ) / header.timescale

theorem parseMvhd_duration {header : MovieHeader} (hscale : 0 < header.timescale)
    (m : VideoMetadata) :
    (parseMvhd header.box.body m).durationSeconds = some header.seconds := by
  have hlength := header.length
  unfold seconds timescale duration at *
  unfold parseMvhd
  rw [header.version]
  cases h : header.long with
  | false =>
    rw [h] at hlength hscale
    simp only [if_neg Bool.false_ne_true] at hlength hscale ⊢
    rw [if_pos ⟨trivial, by omega⟩, if_pos hscale]
  | true =>
    rw [h] at hlength hscale
    simp only [if_true] at hlength hscale ⊢
    rw [if_neg (by simp), if_pos ⟨trivial, by omega⟩, if_pos hscale]

end MovieHeader

/-- A movie: a file type, then boxes with one movie among them. Only the last may go to the end of
the file; the file type and the movie end within the first 4 MiB. -/
structure IsoMovie where
  ftyp : IsoBox
  preceding : List IsoBox
  moov : IsoBox
  following : List IsoBox
  before : List MovieBox
  first : VisualTrak
  after : List MovieBox
  header : MovieHeader
  ftyp_kind : ftyp.kind = ascii "ftyp"
  forms : ∀ b ∈ (ftyp :: (preceding ++ moov :: following)).dropLast, b.form ≠ .toEnd
  moov_kind : moov.kind = ascii "moov"
  others_kind : ∀ b ∈ preceding ++ following, b.kind ≠ ascii "moov"
  moov_body : moov.body = encodeBoxes ((before ++ .trak first.toTrak :: after).map MovieBox.box)
  header_alone : Alone IsoBox.kind (ascii "mvhd")
    ((before ++ .trak first.toTrak :: after).map MovieBox.box) header.box
  timescale_pos : 0 < header.timescale
  first_visual : ∀ b ∈ before, b.NotVisual
  headers_end : (encodeBoxes (ftyp :: (preceding ++ [moov]))).length ≤ maxScanBytes

namespace IsoMovie

variable (movie : IsoMovie)

/-- The boxes of the file. -/
def boxes : List IsoBox := movie.ftyp :: (movie.preceding ++ movie.moov :: movie.following)

/-- The bytes of the file. -/
def encode : Bytes := encodeBoxes movie.boxes

/-- The boxes of the movie. -/
def children : List MovieBox := movie.before ++ .trak movie.first.toTrak :: movie.after

/-- The boxes of the movie that are looked at: so many at most, before the first whose size is not in
four bytes. -/
def scannedChildren : List MovieBox :=
  (movie.children.take maxBoxes).takeWhile (·.box.Short)

/-- The duration, the codec and the size of the pictures are in the metadata. -/
def Reported (plan : ExtractionPlan) : Prop :=
  ∃ m, videoMetadata plan (movie.encode.take maxScanBytes) movie.encode.length = some m ∧
    m.durationSeconds = some movie.header.seconds ∧
    m.picture = showing (some movie.first.picture) (none, none, none)

/-- The file is taken for a video in a container of this format. -/
def TakenForIso (detection : FileTypeDetection) : Prop :=
  detection.contentKind = .video ∧ detection.mismatch = false ∧
    ¬(containsText detection.detectedContentType "webm" ∨
      containsText detection.detectedContentType "matroska") ∧
    (containsText detection.detectedContentType "mp4" ∨
      containsText detection.detectedContentType "quicktime" ∨
      containsText detection.detectedContentType "x-m4v" ∨ movie.ftyp.Short)

/-- The movie and its header are looked at, and the last track that is read as one with pictures
shows those of the first visual track. -/
def Readable : Prop :=
  movie.preceding.length + 1 < maxBoxes ∧ movie.header.box ∈ movie.scannedChildren.map (·.box) ∧
    (movie.scannedChildren.filterMap MovieBox.reads).getLast? = some movie.first.picture

end IsoMovie

/-! ## The walk over a movie -/

/-- What the loop tells of a box that does not fit apart, a movie is what its boxes make it. -/
theorem moovLoop_encodeBoxes {τ : Type} {look : VideoMetadata → τ}
    (hpart : ∀ m : VideoMetadata, look { m with partially := true } = look m) (n : Nat)
    (boxes : List IsoBox) (m : VideoMetadata) :
    look (moovLoop n (encodeBoxes boxes) m) =
      look (((boxes.take n).takeWhile (·.Short)).foldl
        (fun m b => visitMoov m b.kind b.body) m) := by
  induction boxes generalizing n m with
  | nil =>
    rw [encodeBoxes, List.flatMap_nil, List.take_nil]
    cases n with
    | zero => rfl
    | succ n => rfl
  | cons b rest ih =>
    cases n with
    | zero => rfl
    | succ n =>
      have hlength := b.length_encode
      have htotal : (b.encode ++ encodeBoxes rest).length =
          b.encode.length + (encodeBoxes rest).length := List.length_append
      obtain ⟨hsize, hkind⟩ := b.read_start (encodeBoxes rest)
      rw [encodeBoxes_cons, moovLoop, if_neg (by omega), hsize, hkind, List.take_succ_cons]
      dsimp only
      by_cases hshort : b.Short
      · obtain ⟨hfield, hbody⟩ := IsoBox.short_parts hshort
        rw [← hfield, List.take_length] at hbody
        rw [if_neg (by omega), ← hfield, List.take_left, List.drop_left, hbody, ih,
          List.takeWhile_cons_of_pos (by simpa using hshort), List.foldl_cons]
      · rw [if_pos (.inl (IsoBox.sizeField_lt_eight hshort)), hpart,
          List.takeWhile_cons_of_neg (by simpa using hshort), List.foldl_nil]

theorem eachBox_keeps {σ τ : Type} {visit : σ → Bytes → Bytes → σ} {look : σ → τ}
    (hskip : ∀ s kind body, look (visit s kind body) = look s) (bytes : Bytes) (s : σ) :
    look (eachBox visit bytes s) = look s := by
  induction bytes, s using eachBox.induct visit with
  | case1 bytes s hend => rw [eachBox, if_pos hend]
  | case2 bytes s hmore size hpast =>
    rw [eachBox, if_neg hmore]
    dsimp only
    rw [if_pos hpast]
  | case3 bytes s hmore size hfits ih =>
    rw [eachBox, if_neg hmore]
    dsimp only
    rw [if_neg hfits, ih, hskip]

theorem visitKind_duration {kind : String} {parse : Bytes → VideoMetadata → VideoMetadata}
    (hparse : ∀ body m, (parse body m).durationSeconds = m.durationSeconds) (m : VideoMetadata)
    (boxKind body : Bytes) :
    (visitKind kind parse m boxKind body).durationSeconds = m.durationSeconds := by
  unfold visitKind
  split_ifs
  · exact hparse body m
  · rfl

theorem parseTrak_duration (body : Bytes) (m : VideoMetadata) :
    (parseTrak body m).durationSeconds = m.durationSeconds := by
  refine eachBox_keeps (visitKind_duration fun body m => ?_) body m
  refine eachBox_keeps (visitKind_duration fun body m => ?_) body m
  refine eachBox_keeps (visitKind_duration fun body m => ?_) body m
  refine eachBox_keeps (visitKind_duration fun body m => ?_) body m
  unfold parseStsd
  by_cases hshort : body.length < 16
  · rw [if_pos hshort]
  · rw [if_neg hshort]
    cases descriptionPicture body with
    | some picture => rfl
    | none =>
      dsimp only
      split_ifs <;> rfl

theorem parseMvhd_picture (body : Bytes) (m : VideoMetadata) :
    (parseMvhd body m).picture = m.picture := by
  unfold parseMvhd
  cases body.head? with
  | none => rfl
  | some version =>
    dsimp only
    split_ifs <;> rfl

theorem visitMoov_picture (b : MovieBox) (m : VideoMetadata) :
    (visitMoov m b.box.kind b.box.body).picture = showing b.reads m.picture := by
  cases b with
  | trak t =>
    have hkind : t.box.kind ≠ ascii "mvhd" := by
      rw [t.box_kind]
      decide
    dsimp only [MovieBox.box, MovieBox.reads]
    rw [visitMoov, if_neg hkind, if_pos t.box_kind, Trak.parseTrak_picture]
  | other b h =>
    dsimp only [MovieBox.box, MovieBox.reads]
    rw [visitMoov, if_neg h]
    split_ifs
    · exact parseMvhd_picture b.body m
    · rfl

/-- The last picture that is read stands. -/
theorem foldl_picture (boxes : List MovieBox) (m : VideoMetadata) :
    ((boxes.map MovieBox.box).foldl (fun m b => visitMoov m b.kind b.body) m).picture =
      showing (boxes.filterMap MovieBox.reads).getLast? m.picture := by
  induction boxes generalizing m with
  | nil => rfl
  | cons b rest ih =>
    rw [List.map_cons, List.foldl_cons, ih, visitMoov_picture]
    cases h : b.reads with
    | none =>
      rw [List.filterMap_cons_none h]
      rfl
    | some picture =>
      rw [List.filterMap_cons_some h, List.getLast?_cons]
      cases (rest.filterMap MovieBox.reads).getLast? <;> rfl

namespace IsoMovie

variable {movie : IsoMovie}

theorem scanned_boxes : ((movie.children.map MovieBox.box).take maxBoxes).takeWhile (·.Short) =
    movie.scannedChildren.map MovieBox.box := by
  unfold scannedChildren
  rw [← List.map_take, List.takeWhile_map]
  rfl

theorem parseMoov_picture (m : VideoMetadata) :
    (parseMoov movie.moov.body m).picture =
      showing (movie.scannedChildren.filterMap MovieBox.reads).getLast? m.picture := by
  have hwalk := @moovLoop_encodeBoxes _ VideoMetadata.picture (fun _ => rfl) maxBoxes
    (movie.children.map MovieBox.box) m
  rw [parseMoov, movie.moov_body]
  refine hwalk.trans ?_
  rw [scanned_boxes, foldl_picture]

theorem parseMoov_duration (m : VideoMetadata) :
    (parseMoov movie.moov.body m).durationSeconds =
      if movie.header.box ∈ movie.scannedChildren.map MovieBox.box then
        some movie.header.seconds
      else m.durationSeconds := by
  have hwalk := @moovLoop_encodeBoxes _ VideoMetadata.durationSeconds (fun _ => rfl) maxBoxes
    (movie.children.map MovieBox.box) m
  obtain ⟨hread, hunread⟩ := @foldl_alone _ _ _ (fun m b => visitMoov m b.kind b.body) _ _ _ _ _
    movie.header_alone (((movie.children.map MovieBox.box).take maxBoxes).takeWhile (·.Short))
    ((List.takeWhile_prefix _).trans (List.take_prefix _ _)) VideoMetadata.durationSeconds
    (fun _ => some movie.header.seconds)
    (fun b hb m => by
      rw [visitMoov, if_neg hb]
      split_ifs
      · exact parseTrak_duration b.body m
      · rfl)
    (fun m => by
      rw [visitMoov, if_pos movie.header.box_kind,
        MovieHeader.parseMvhd_duration movie.timescale_pos]) m
  rw [scanned_boxes] at hread hunread hwalk
  rw [parseMoov, movie.moov_body]
  refine hwalk.trans ?_
  split_ifs with h
  · exact hread h
  · exact hunread h

end IsoMovie

/-! ## The walk over a file -/

/-- Where the body of a box starts. -/
def IsoBox.header (b : IsoBox) : Nat := if b.form = .large then 16 else 8

theorem IsoBox.drop_header (b : IsoBox) : b.encode.drop b.header = b.body := by
  unfold IsoBox.encode IsoBox.header IsoBox.largeSize
  rw [← List.append_assoc, ← List.append_assoc]
  refine List.drop_left' ?_
  split_ifs
  · simp only [List.length_append, BigEndian.length_encode, b.kind_fits]
  · simp only [List.length_append, BigEndian.length_encode, b.kind_fits, List.length_nil]

theorem IsoBox.length_eq (b : IsoBox) : b.encode.length = b.header + b.body.length := by
  have hlength := b.length_encode
  unfold IsoBox.header IsoBox.largeSize at *
  split_ifs at hlength ⊢
  · rw [BigEndian.length_encode] at hlength
    omega
  · rw [List.length_nil] at hlength
    omega

theorem IsoBox.read_largeSize {b : IsoBox} (h : b.form = .large) (rest : Bytes) :
    BigEndian.value (((b.encode ++ rest).drop 8).take 8) = b.encode.length := by
  have hfits := b.size_fits.2 h
  have hlength := b.length_eq
  have hlarge : b.largeSize = BigEndian.encode 8 (b.body.length + 16) := if_pos h
  have hstart : (BigEndian.encode 4 b.sizeField ++ b.kind).length = 8 := by
    rw [List.length_append, BigEndian.length_encode, b.kind_fits]
  have hdrop : (b.encode ++ rest).drop 8 =
      BigEndian.encode 8 (b.body.length + 16) ++ (b.body ++ rest) := by
    unfold IsoBox.encode
    rw [← List.append_assoc, List.append_assoc, List.drop_left' hstart, List.append_assoc, hlarge]
  have hheader : b.header = 16 := if_pos h
  rw [hdrop, List.take_left' (BigEndian.length_encode _ _),
    BigEndian.value_encode (hfits.trans_le (by norm_num))]
  omega

/-- The size that is read is the length of the box, however it is written. -/
theorem IsoBox.read_size {b : IsoBox} {rest : Bytes} (hend : b.form = .toEnd → rest = []) :
    (if b.sizeField = 1 then BigEndian.value (((b.encode ++ rest).drop 8).take 8)
      else if b.sizeField = 0 then (b.encode ++ rest).length
      else b.sizeField) = b.encode.length := by
  cases hform : b.form with
  | short =>
    obtain ⟨hlength, -⟩ := IsoBox.short_parts hform
    have hlong := b.length_encode
    rw [if_neg (by omega), if_neg (by omega), hlength]
  | large =>
    have hfield : b.sizeField = 1 := by
      unfold IsoBox.sizeField
      rw [hform]
    rw [if_pos hfield, b.read_largeSize hform]
  | toEnd =>
    have hfield : b.sizeField = 0 := by
      unfold IsoBox.sizeField
      rw [hform]
    rw [hfield, if_neg (by norm_num), if_pos rfl, hend hform, List.append_nil]

theorem IsoBox.read_header (b : IsoBox) : (if b.sizeField = 1 then 16 else 8) = b.header := by
  unfold IsoBox.header IsoBox.sizeField
  cases b.form with
  | short => rw [if_neg (by dsimp only; omega), if_neg nofun]
  | large => rfl
  | toEnd => rfl

/-- One turn of the walk, at a box that is complete. -/
theorem isoLoop_cons (n offset : Nat) {b : IsoBox} {rest : Bytes}
    (hend : b.form = .toEnd → rest = []) (hfits : offset + (b.encode ++ rest).length < 2 ^ 64)
    (m : VideoMetadata) :
    isoLoop (n + 1) offset (b.encode ++ rest) m =
      isoLoop n (offset + b.encode.length) rest (visitFile m b.kind b.body) := by
  have htotal : (b.encode ++ rest).length = b.encode.length + rest.length := List.length_append
  obtain ⟨hsize, hkind⟩ := b.read_start rest
  have hheader := b.length_eq
  have hlong : 8 ≤ b.header := by
    unfold IsoBox.header
    split_ifs <;> omega
  have hroom : ¬(b.sizeField = 1 ∧ (b.encode ++ rest).length < 16) := by
    rintro ⟨hfield, hroom⟩
    have hread := b.read_header
    rw [if_pos hfield] at hread
    omega
  rw [isoLoop, if_neg (by omega), hsize, hkind]
  dsimp only
  rw [if_neg hroom, IsoBox.read_size hend, b.read_header, if_neg (by omega), if_neg (by omega),
    if_neg (by omega), List.take_left, List.drop_left, b.drop_header]

/-- **The walk visits the boxes of a file one by one**, those with sizes in eight bytes as well. -/
theorem isoLoop_encodeBoxes {boxes : List IsoBox} (hforms : ∀ b ∈ boxes.dropLast, b.form ≠ .toEnd)
    (n offset : Nat) (hfits : offset + (encodeBoxes boxes).length < 2 ^ 64) (m : VideoMetadata) :
    isoLoop n offset (encodeBoxes boxes) m =
      some ((boxes.take n).foldl (fun m b => visitFile m b.kind b.body) m) := by
  induction boxes generalizing n offset m with
  | nil =>
    rw [encodeBoxes, List.flatMap_nil, List.take_nil]
    cases n with
    | zero => rfl
    | succ n => rfl
  | cons b rest ih =>
    cases n with
    | zero => rfl
    | succ n =>
      have hend : b.form = .toEnd → encodeBoxes rest = [] := by
        intro hform
        cases rest with
        | nil => rfl
        | cons y ys => exact absurd hform (hforms b List.mem_cons_self)
      rw [encodeBoxes_cons] at hfits ⊢
      rw [isoLoop_cons n offset hend hfits, List.take_succ_cons, List.foldl_cons]
      rw [List.length_append] at hfits
      refine ih (fun x hx => ?_) n _ (by omega) _
      cases rest with
      | nil => exact absurd hx List.not_mem_nil
      | cons y ys => exact hforms x (List.mem_cons_of_mem _ hx)

namespace IsoMovie

variable {movie : IsoMovie}

theorem settle_duration (m : VideoMetadata) : m.settle.durationSeconds = m.durationSeconds := by
  unfold VideoMetadata.settle
  split_ifs <;> rfl

theorem settle_picture (m : VideoMetadata) : m.settle.picture = m.picture := by
  unfold VideoMetadata.settle
  split_ifs <;> rfl

theorem showing_iff {found : Option Picture} {picture : Picture} :
    showing found (none, none, none) = showing (some picture) (none, none, none) ↔
      found = some picture := by
  cases found with
  | none => exact iff_of_false nofun nofun
  | some other =>
    obtain ⟨codec, width, height⟩ := picture
    simp [showing, Prod.ext_iff]

/-- What is looked at after the boxes of a file. -/
theorem parse_encode (hsmall : movie.encode.length ≤ maxScanBytes) :
    ∃ m, parseIsoBmffMetadata movie.encode = some m ∧
      (m.durationSeconds = some movie.header.seconds ∧
          m.picture = showing (some movie.first.picture) (none, none, none) ↔
        movie.Readable) := by
  obtain ⟨m, hm⟩ : ∃ m, m = (movie.boxes.take maxBoxes).foldl
      (fun m b => visitFile m b.kind b.body) { container := "iso_bmff" } := ⟨_, rfl⟩
  have hwalk : isoLoop maxBoxes 0 movie.encode { container := "iso_bmff" } = some m := by
    rw [hm]
    refine isoLoop_encodeBoxes movie.forms maxBoxes 0 ?_ _
    have : movie.encode.length ≤ 2 ^ 22 := hsmall
    unfold encode boxes at this
    omega
  refine ⟨m.settle, by rw [parseIsoBmffMetadata, hwalk, Option.map_some], ?_⟩
  have hlook := @foldl_split _ _ _ (fun m b => visitFile m b.kind b.body)
    (fun b => b.kind ≠ ascii "moov") (movie.ftyp :: movie.preceding) movie.following
    (movie.boxes.take maxBoxes) movie.moov (List.take_prefix _ _)
    (fun b hb => by
      rw [List.cons_append, List.mem_cons] at hb
      obtain rfl | hb := hb
      · rw [movie.ftyp_kind]
        decide
      · exact movie.others_kind b hb)
    (fun m => (m.durationSeconds, m.picture))
    (fun old => (if movie.header.box ∈ movie.scannedChildren.map MovieBox.box then
        some movie.header.seconds
      else old.1, showing (movie.scannedChildren.filterMap MovieBox.reads).getLast? old.2))
    (fun b hb m => by
      rw [visitFile, if_neg hb]
      split_ifs <;> rfl)
    (fun m => by
      rw [visitFile, if_pos movie.moov_kind, parseMoov_duration, parseMoov_picture])
    { container := "iso_bmff" }
  have hreached : (movie.ftyp :: movie.preceding).length < (movie.boxes.take maxBoxes).length ↔
      movie.preceding.length + 1 < maxBoxes := by
    unfold boxes
    rw [List.length_take, List.length_cons, List.length_cons, List.length_append,
      List.length_cons]
    omega
  rw [← hm] at hlook
  rw [settle_duration, settle_picture]
  unfold Readable
  by_cases hread : movie.preceding.length + 1 < maxBoxes
  · rw [if_pos (hreached.2 hread)] at hlook
    obtain ⟨hduration, hpicture⟩ := Prod.mk.inj hlook
    rw [hduration, hpicture, and_iff_right hread]
    refine and_congr ?_ showing_iff
    split_ifs with hheader
    · exact iff_of_true rfl hheader
    · exact iff_of_false nofun hheader
  · rw [if_neg (mt hreached.1 hread)] at hlook
    obtain ⟨hduration, -⟩ := Prod.mk.inj hlook
    rw [hduration]
    exact iff_of_false (fun h => nomatch h.1) fun h => hread h.1

/-! ## The plan and the extraction -/

theorem planForDetection_detection (limits : ExtractionLimits) (detection : FileTypeDetection)
    (fileSize : Nat) : (planForDetection limits detection fileSize).detection = detection := by
  have hwhole (limit : Nat) : (wholePlan detection fileSize limit).detection = detection := by
    unfold wholePlan
    split_ifs <;> rfl
  unfold planForDetection
  by_cases hmismatch : detection.mismatch = true
  · rw [if_pos hmismatch]
    rfl
  · rw [if_neg hmismatch]
    split <;> first | rfl | exact hwhole _

/-- There is metadata of a video that is not longer than what is scanned. -/
theorem videoMetadata_eq (limits : ExtractionLimits) (detection : FileTypeDetection)
    (bytes : Bytes) :
    videoMetadata (planForDetection limits detection bytes.length) (bytes.take maxScanBytes)
        bytes.length =
      if detection.mismatch = false ∧ detection.contentKind = .video ∧
          bytes.length ≤ maxScanBytes then
        (scanVideo ⟨bytes, false, detection⟩).metadata
      else none := by
  unfold videoMetadata
  rw [planForDetection_detection]
  by_cases hmismatch : detection.mismatch = true
  · have hplan : (planForDetection limits detection bytes.length).preflightStatus.isSome := by
      unfold planForDetection
      rw [if_pos hmismatch]
      rfl
    rw [if_pos (.inl hplan), if_neg (by simp [hmismatch])]
  · by_cases hkind : detection.contentKind = .video
    · have hplan : planForDetection limits detection bytes.length =
          readPlan detection (.start maxScanBytes) := by
        unfold planForDetection
        rw [if_neg hmismatch, hkind]
      have hlength : (bytes.take maxScanBytes).length = min maxScanBytes bytes.length :=
        List.length_take
      rw [hplan]
      by_cases hsmall : bytes.length ≤ maxScanBytes
      · rw [if_neg (by simp [readPlan, ExtractionPlan.requiresInput, hkind, inputRefused, hsmall]),
          if_pos ⟨by simpa using hmismatch, hkind, hsmall⟩, List.take_of_length_le hsmall]
      · rw [if_pos (.inr (.inr (.inr (.inr (by omega))))), if_neg fun h => hsmall h.2.2]
    · rw [if_pos (.inr (.inr (.inl hkind))), if_neg fun h => hkind h.2.1]

theorem encode_start : ∃ rest, movie.encode = 0 :: rest := by
  have hend := movie.headers_end
  have hcons : movie.encode = movie.ftyp.encode ++
      encodeBoxes (movie.preceding ++ movie.moov :: movie.following) := encodeBoxes_cons _ _
  have hfield : movie.ftyp.sizeField < 2 ^ 24 := by
    have hlength := movie.ftyp.length_encode
    rw [encodeBoxes, List.flatMap_cons, List.length_append] at hend
    unfold maxScanBytes at hend
    unfold IsoBox.sizeField
    cases movie.ftyp.form <;> dsimp only <;> omega
  have hfirst : movie.ftyp.sizeField / 256 ^ 3 = 0 := Nat.div_eq_of_lt hfield
  rw [hcons, IsoBox.encode, BigEndian.encode_succ_eq_cons movie.ftyp.sizeField_lt, hfirst]
  exact ⟨_, rfl⟩

theorem looksLikeIsoBmff_encode : looksLikeIsoBmff movie.encode = true ↔ movie.ftyp.Short := by
  have hcons : movie.encode = movie.ftyp.encode ++
      encodeBoxes (movie.preceding ++ movie.moov :: movie.following) := List.flatMap_cons
  have hlength := movie.ftyp.length_encode
  obtain ⟨hsize, hkind⟩ := movie.ftyp.read_start
    (encodeBoxes (movie.preceding ++ movie.moov :: movie.following))
  unfold looksLikeIsoBmff
  unfold BigEndian.value at hsize
  rw [hcons, decide_eq_true_eq, hsize, hkind, movie.ftyp_kind, List.length_append]
  constructor
  · rintro ⟨-, hfield, -⟩
    by_contra hshort
    have := IsoBox.sizeField_lt_eight hshort
    omega
  · intro hshort
    obtain ⟨hfield, -⟩ := IsoBox.short_parts hshort
    exact ⟨by omega, by omega, by decide⟩

/-- A parser for Matroska finds nothing in a file of boxes. -/
theorem parseMatroska_encode : (parseMatroskaMetadata movie.encode).durationSeconds = none := by
  obtain ⟨rest, hrest⟩ := movie.encode_start
  have hid : readEbmlId (0 :: rest) = none := by
    unfold readEbmlId
    dsimp only
    rw [if_neg fun h => absurd h.1 (by decide)]
  have hheader : readHeader (0 :: rest) = none := by
    unfold readHeader
    rw [hid]
  rw [hrest, parseMatroskaMetadata, matroskaLoop, if_neg (by simp [maxEbmlElements]), hheader]
  rfl

theorem scan_taken {detection : FileTypeDetection} (hkind : detection.contentKind = .video)
    (hmatch : detection.mismatch = false) (hsmall : movie.encode.length ≤ maxScanBytes) :
    (∃ m, (scanVideo ⟨movie.encode, false, detection⟩).metadata = some m ∧
        m.durationSeconds = some movie.header.seconds ∧
        m.picture = showing (some movie.first.picture) (none, none, none)) ↔
      movie.TakenForIso detection ∧ movie.Readable := by
  obtain ⟨m, hparse, hreadable⟩ := parse_encode hsmall
  have hebml : looksLikeEbml movie.encode = false := by
    obtain ⟨rest, hrest⟩ := movie.encode_start
    rw [hrest]
    exact decide_eq_false fun h => by simp at h
  have hiso := movie.looksLikeIsoBmff_encode
  unfold scanVideo TakenForIso
  dsimp only
  rw [List.take_of_length_le hsmall, hebml, hparse, and_iff_right hkind, and_iff_right hmatch,
    ← hreadable]
  by_cases hmatroska : containsText detection.detectedContentType "webm" = true ∨
      containsText detection.detectedContentType "matroska" = true
  · rw [if_pos (by simpa using hmatroska)]
    refine iff_of_false ?_ fun h => h.1.1 hmatroska
    rintro ⟨found, hfound, hduration, -⟩
    obtain rfl := Option.some.inj hfound
    exact absurd (parseMatroska_encode.symm.trans hduration) nofun
  · rw [if_neg (by simpa using hmatroska), and_assoc, and_iff_right hmatroska]
    by_cases hchosen : containsText detection.detectedContentType "mp4" = true ∨
        containsText detection.detectedContentType "quicktime" = true ∨
        containsText detection.detectedContentType "x-m4v" = true ∨ movie.ftyp.Short
    · have hparser : (containsText detection.detectedContentType "mp4" ||
          containsText detection.detectedContentType "quicktime" ||
          containsText detection.detectedContentType "x-m4v" ||
          looksLikeIsoBmff movie.encode) = true := by
        simp only [Bool.or_eq_true, hiso, or_assoc]
        exact hchosen
      rw [if_pos hparser, and_iff_right hchosen]
      constructor
      · rintro ⟨found, hfound, hreported⟩
        obtain rfl := Option.some.inj hfound
        exact hreported
      · exact fun hreported => ⟨m, rfl, hreported⟩
    · have hparser : ¬(containsText detection.detectedContentType "mp4" ||
          containsText detection.detectedContentType "quicktime" ||
          containsText detection.detectedContentType "x-m4v" ||
          looksLikeIsoBmff movie.encode) = true := by
        simp only [Bool.or_eq_true, hiso, or_assoc]
        exact hchosen
      rw [if_neg hparser]
      refine iff_of_false ?_ fun h => hchosen h.1
      rintro ⟨found, hfound, -⟩
      exact nomatch hfound

/-- **A movie is reported exactly when its file is taken for one of this format, is not longer than
what is scanned, and is readable.** -/
theorem reported_iff (limits : ExtractionLimits) (detection : FileTypeDetection) :
    movie.Reported (planForDetection limits detection movie.encode.length) ↔
      movie.TakenForIso detection ∧ movie.encode.length ≤ maxScanBytes ∧ movie.Readable := by
  unfold Reported
  rw [videoMetadata_eq]
  by_cases hvideo : detection.mismatch = false ∧ detection.contentKind = .video ∧
      movie.encode.length ≤ maxScanBytes
  · obtain ⟨hmatch, hkind, hsmall⟩ := hvideo
    rw [if_pos ⟨hmatch, hkind, hsmall⟩, scan_taken hkind hmatch hsmall, and_iff_right hsmall]
  · rw [if_neg hvideo]
    refine iff_of_false ?_ fun h => hvideo ⟨h.1.2.1, h.1.1, h.2.1⟩
    rintro ⟨found, hfound, -⟩
    exact nomatch hfound

end IsoMovie

/-- **The engine reports a movie whose headers lie within the first 4 MiB exactly when the whole file
does**, is taken for one of this format, and is readable. -/
theorem isoMovie_reported_iff (movie : IsoMovie) (engine : LocalExtractionEngine) (tools : Tools)
    (extension : Option String) (headLength : Nat) :
    movie.Reported
        (engine.prepare tools extension (movie.encode.take headLength) movie.encode.length) ↔
      movie.TakenForIso
          (detectFileType (tools.infer (movie.encode.take headLength))
            (Utf8.decode? (movie.encode.take headLength)) extension
            (movie.encode.take headLength)) ∧
        movie.encode.length ≤ maxScanBytes ∧ movie.Readable :=
  IsoMovie.reported_iff engine.limits _

/-! ## A movie of five seconds with 4 MiB of media data -/

/-- A box with a size of four bytes. -/
def shortBox (kind : String) (body : Bytes) (hkind : (ascii kind).length = 4)
    (hbody : body.length + 8 < 2 ^ 32) : IsoBox :=
  ⟨ascii kind, .short, body, hkind, fun _ => hbody, nofun⟩

/-- Zero bytes. -/
def zeros (n : Nat) : Bytes := List.replicate n 0

/-- A sample description with pictures of 640 by 480 pixels. -/
def vgaStsd : IsoBox :=
  shortBox "stsd"
    ([0, 0, 0, 0, 0, 0, 0, 1] ++ ([0, 0, 0, 86] ++ ascii "avc1" ++ [0, 0, 0, 0, 0, 0, 0, 1] ++
      zeros 16 ++ [2, 128, 1, 224] ++ zeros 50)) (by decide) (by decide)

/-- A table of samples. -/
def vgaStbl : IsoBox := shortBox "stbl" vgaStsd.encode (by decide) (by decide +kernel)

/-- Media information. -/
def vgaMinf : IsoBox := shortBox "minf" vgaStbl.encode (by decide) (by decide +kernel)

/-- The handler of a visual track. -/
def videHdlr : IsoBox :=
  shortBox "hdlr" (zeros 8 ++ ascii "vide" ++ zeros 13) (by decide) (by decide +kernel)

/-- The media of a track. -/
def vgaMdia : IsoBox :=
  shortBox "mdia" (encodeBoxes [videHdlr, vgaMinf]) (by decide) (by decide +kernel)

/-- A track with pictures of 640 by 480 pixels. -/
def vgaTrak : VisualTrak where
  box := shortBox "trak" (encodeBoxes [vgaMdia]) (by decide) (by decide +kernel)
  children := [vgaMdia]
  mdia := vgaMdia
  mdiaChildren := [videHdlr, vgaMinf]
  hdlr := videHdlr
  minf := vgaMinf
  minfChildren := [vgaStbl]
  stbl := vgaStbl
  stblChildren := [vgaStsd]
  stsd := vgaStsd
  box_kind := rfl
  box_body := rfl
  mdia_alone := ⟨[], [], rfl, rfl, by decide⟩
  mdia_body := rfl
  hdlr_alone := ⟨[], [_], rfl, rfl, by decide⟩
  minf_alone := ⟨[_], [], rfl, rfl, by decide⟩
  minf_body := by decide
  stbl_alone := ⟨[], [], rfl, rfl, by decide⟩
  stbl_body := by decide
  stsd_alone := ⟨[], [], rfl, rfl, by decide⟩
  codec := "avc1".toList
  visual := by decide
  entry_fits := by decide
  codec_text := by decide

/-- A header of five seconds. -/
def fiveSecondsHeader : MovieHeader where
  box := shortBox "mvhd" (zeros 12 ++ [0, 0, 3, 232, 0, 0, 19, 136] ++ zeros 80) (by decide)
    (by decide)
  long := false
  box_kind := rfl
  version := rfl
  length := by decide

/-- A movie of five seconds, with so many bytes of media data behind its headers. -/
def fiveSecondsMovie (mediaBytes : Nat) (h : mediaBytes + 8 < 2 ^ 32) : IsoMovie where
  ftyp := shortBox "ftyp" (ascii "isom" ++ zeros 4) (by decide) (by decide +kernel)
  preceding := []
  moov := shortBox "moov" (encodeBoxes [fiveSecondsHeader.box, vgaTrak.box]) (by decide) (by decide +kernel)
  following := [shortBox "mdat" (zeros mediaBytes) (by decide) (by simpa [zeros] using h)]
  before := [.other fiveSecondsHeader.box (by decide)]
  first := vgaTrak
  after := []
  header := fiveSecondsHeader
  ftyp_kind := rfl
  forms := by
    intro b hb
    simp only [List.nil_append, List.dropLast_cons_cons, List.dropLast_singleton, List.mem_cons,
      List.not_mem_nil, or_false] at hb
    obtain rfl | rfl := hb <;> exact nofun
  moov_kind := rfl
  others_kind := by
    intro b hb
    obtain rfl := List.mem_singleton.1 hb
    change ascii "mdat" ≠ ascii "moov"
    decide
  moov_body := rfl
  header_alone := ⟨[], [vgaTrak.box], rfl, rfl, by decide⟩
  timescale_pos := by decide
  first_visual := by
    intro b hb
    obtain rfl := List.mem_singleton.1 hb
    trivial
  headers_end := by decide +kernel

theorem fiveSecondsMovie_length (mediaBytes : Nat) (h : mediaBytes + 8 < 2 ^ 32) :
    mediaBytes < (fiveSecondsMovie mediaBytes h).encode.length := by
  obtain ⟨mdat, hmdat⟩ : ∃ mdat, mdat = shortBox "mdat" (zeros mediaBytes) (by decide)
      (by simpa [zeros] using h) := ⟨_, rfl⟩
  have hencode : (fiveSecondsMovie mediaBytes h).encode =
      (fiveSecondsMovie mediaBytes h).ftyp.encode ++
        ((fiveSecondsMovie mediaBytes h).moov.encode ++ (mdat.encode ++ [])) := by
    rw [hmdat]
    rfl
  have hbody : mdat.body.length = mediaBytes := by
    rw [hmdat]
    exact List.length_replicate
  have hlength := mdat.length_encode
  rw [hencode, List.length_append, List.length_append, List.length_append]
  omega

/-- With 4 MiB of media data nothing is reported of the movie, whatever its file is taken for; its
headers are such that it would be with less. -/
theorem fiveSecondsMovie_notReported :
    (fiveSecondsMovie (2 ^ 22) (by decide)).Readable ∧
      ∀ (engine : LocalExtractionEngine) (tools : Tools) (extension : Option String)
        (headLength : Nat),
        ¬(fiveSecondsMovie (2 ^ 22) (by decide)).Reported
          (engine.prepare tools extension
            ((fiveSecondsMovie (2 ^ 22) (by decide)).encode.take headLength)
            (fiveSecondsMovie (2 ^ 22) (by decide)).encode.length) := by
  refine ⟨⟨by decide, by decide +kernel, by decide +kernel⟩, ?_⟩
  intro engine tools extension headLength hreported
  have hsmall := ((IsoMovie.reported_iff engine.limits _).1 hreported).2.1
  have hlong := fiveSecondsMovie_length (2 ^ 22) (by decide)
  exact absurd hsmall (Nat.not_le.2 hlong)

end Zemo.Extraction
