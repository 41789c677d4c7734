import Zemo.Extraction.MatroskaFiles

set_option autoImplicit false

/-! # Matroska videos and what is reported of them

The duration, the codec and the size of the pictures of a file as the format defines them, beside
what `parse_matroska_metadata` finds. -/

namespace Zemo.Extraction

open Scanning

theorem Small.body {elements : List EbmlElement} (hsmall : Small (encodeAll elements))
    {e : EbmlElement} (he : e ∈ elements) : Small e.body :=
  (body_length_le he).trans_lt hsmall

/-! ## What is collected of a track -/

theorem visitVideo_trackType (t : TrackEntry) (id : Nat) (body : Bytes) :
    (visitVideo t id body).trackType = t.trackType := by
  unfold visitVideo
  split_ifs <;> rfl

theorem visitVideo_codec (t : TrackEntry) (id : Nat) (body : Bytes) :
    (visitVideo t id body).codec = t.codec := by
  unfold visitVideo
  split_ifs <;> rfl

theorem visitTrackEntry_trackType {id : Nat} (h : id ≠ 0x83) (body : Bytes) (t : TrackEntry) :
    (visitTrackEntry t id body).trackType = t.trackType := by
  unfold visitTrackEntry
  rw [if_neg fun hid => h hid.1]
  split_ifs
  · rfl
  · exact eachElement_keeps visitVideo_trackType body t
  · rfl

theorem visitTrackEntry_codec {id : Nat} (h : id ≠ 0x86) (body : Bytes) (t : TrackEntry) :
    (visitTrackEntry t id body).codec = t.codec := by
  unfold visitTrackEntry
  rw [if_neg h]
  split_ifs
  · rfl
  · exact eachElement_keeps visitVideo_codec body t
  · rfl

/-- The type that is collected is the first byte. -/
theorem collected_trackType {children : List EbmlElement} {trackType : EbmlElement}
    (hsmall : Small (encodeAll children)) (halone : Alone EbmlElement.id 0x83 children trackType) :
    (eachElement visitTrackEntry (encodeAll children) {}).trackType =
      if IsRead children trackType then trackType.body.head? else none := by
  obtain ⟨hread, hunread⟩ := @eachElement_alone _ _ visitTrackEntry _ _ _ halone
    TrackEntry.trackType (fun old => trackType.body.head?.or old)
    (fun x hx body t => visitTrackEntry_trackType hx body t)
    (fun t => by
      unfold visitTrackEntry
      cases trackType.body <;> simp) hsmall {}
  split_ifs with h
  · exact (hread h).trans Option.or_none
  · exact hunread h

/-! ## A video track -/

/-- The contents of the `TrackEntry` of a video. -/
structure VideoTrack where
  children : List EbmlElement
  trackType : EbmlElement
  codecId : EbmlElement
  codec : Text
  video : EbmlElement
  videoChildren : List EbmlElement
  pixelWidth : EbmlElement
  pixelHeight : EbmlElement
  trackType_alone : Alone EbmlElement.id 0x83 children trackType
  trackType_video : BigEndian.value trackType.body = 1
  codec_alone : Alone EbmlElement.id 0x86 children codecId
  codec_text : codecId.body = Utf8.encode codec
  video_alone : Alone EbmlElement.id 0xE0 children video
  video_body : video.body = encodeAll videoChildren
  width_alone : Alone EbmlElement.id 0xB0 videoChildren pixelWidth
  height_alone : Alone EbmlElement.id 0xBA videoChildren pixelHeight

namespace VideoTrack

variable (track : VideoTrack)

/-- The width of the pictures. -/
def width : Nat := BigEndian.value track.pixelWidth.body

/-- The height of the pictures. -/
def height : Nat := BigEndian.value track.pixelHeight.body

/-- What there is to be read is read, the type from its first byte and the width and the height from
at most four. -/
def Readable : Prop :=
  (IsRead track.children track.trackType ∧ track.trackType.body.length = 1) ∧
    IsRead track.children track.codecId ∧ IsRead track.children track.video ∧
    (IsRead track.videoChildren track.pixelWidth ∧ track.pixelWidth.body.length ≤ 4) ∧
    IsRead track.videoChildren track.pixelHeight ∧ track.pixelHeight.body.length ≤ 4

/-- What `parse_track_entry` collects of the track. -/
def entry : TrackEntry := eachElement visitTrackEntry (encodeAll track.children) {}

variable {track}

theorem entry_trackType (hsmall : Small (encodeAll track.children)) :
    track.entry.trackType = some 1 ↔
      IsRead track.children track.trackType ∧ track.trackType.body.length = 1 := by
  have hvalue := track.trackType_video
  rw [entry, collected_trackType hsmall track.trackType_alone]
  split_ifs with h
  · rw [and_iff_right h]
    cases hbody : track.trackType.body with
    | nil => simp
    | cons b rest =>
      rw [hbody] at hvalue
      constructor
      · intro hfirst
        obtain rfl : b = 1 := Option.some.inj hfirst
        rw [BigEndian.length_eq_one (by decide) (hvalue.trans_lt (by decide))]
        rfl
      · intro hone
        obtain rfl : rest = [] := List.eq_nil_of_length_eq_zero (Nat.succ.inj hone)
        rw [BigEndian.value_singleton] at hvalue
        exact congrArg some (UInt8.toNat_inj.1 hvalue)
  · exact iff_of_false (nomatch ·) fun hread => h hread.1

theorem entry_codec (hsmall : Small (encodeAll track.children)) :
    track.entry.codec = some track.codec ↔ IsRead track.children track.codecId := by
  obtain ⟨hread, hunread⟩ := @eachElement_alone _ _ visitTrackEntry _ _ _ track.codec_alone
    TrackEntry.codec (fun _ => some track.codec)
    (fun x hx body t => visitTrackEntry_codec hx body t)
    (fun s => by
      unfold visitTrackEntry
      rw [if_neg (by simp), if_pos rfl, track.codec_text, Utf8.decode?_encode]) hsmall {}
  by_cases h : IsRead track.children track.codecId
  · exact iff_of_true (hread h) h
  · rw [entry, hunread h]
    exact iff_of_false (nomatch ·) h

/-- The width or the height that is read. -/
theorem entry_side (hsmall : Small (encodeAll track.children)) {id : Nat} {e : EbmlElement}
    (halone : Alone EbmlElement.id id track.videoChildren e) {side : TrackEntry → Option Nat}
    (hvideo : ∀ t x body, side (visitVideo t x body) =
      if x = id ∧ body.length ≤ 4 then some (BigEndian.value body) else side t)
    (hother : ∀ x, x ≠ 0xE0 → ∀ body t, side (visitTrackEntry t x body) = side t)
    (hnone : side {} = none) :
    side track.entry = some (BigEndian.value e.body) ↔
      IsRead track.children track.video ∧ IsRead track.videoChildren e ∧ e.body.length ≤ 4 := by
  have hbody : Small (encodeAll track.videoChildren) :=
    track.video_body ▸ hsmall.body track.video_alone.mem
  have hinner : ∀ t, side (eachElement visitVideo (encodeAll track.videoChildren) t) =
      if IsRead track.videoChildren e ∧ e.body.length ≤ 4 then some (BigEndian.value e.body)
      else side t := by
    intro t
    obtain ⟨hread, hunread⟩ := @eachElement_alone _ _ visitVideo _ _ _ halone side
      (fun w => if e.body.length ≤ 4 then some (BigEndian.value e.body) else w)
      (fun x hx body s => by rw [hvideo, if_neg fun h => hx h.1])
      (fun s => by
        rw [hvideo]
        simp only [true_and]) hbody t
    by_cases h : IsRead track.videoChildren e
    · rw [hread h]
      simp only [h, true_and]
    · rw [hunread h, if_neg fun hboth => h hboth.1]
  obtain ⟨hread, hunread⟩ := @eachElement_alone _ _ visitTrackEntry _ _ _ track.video_alone side
    (fun w => if IsRead track.videoChildren e ∧ e.body.length ≤ 4 then
      some (BigEndian.value e.body) else w) hother
    (fun s => by
      rw [track.video_body, ← hinner]
      rfl) hsmall {}
  by_cases h : IsRead track.children track.video
  · rw [entry, hread h, and_iff_right h, hnone, ite_eq_left_iff]
    exact ⟨fun himp => by_contra fun hno => absurd (himp hno) nofun,
      fun hyes hno => absurd hyes hno⟩
  · rw [entry, hunread h, hnone]
    exact iff_of_false (nomatch ·) fun hread => h hread.1

theorem entry_width (hsmall : Small (encodeAll track.children)) :
    track.entry.width = some track.width ↔
      IsRead track.children track.video ∧
        IsRead track.videoChildren track.pixelWidth ∧ track.pixelWidth.body.length ≤ 4 :=
  entry_side hsmall track.width_alone
    (fun t x body => by
      unfold visitVideo
      split_ifs <;> rfl)
    (fun x hx body t => by
      unfold visitTrackEntry
      split_ifs <;> rfl) rfl

theorem entry_height (hsmall : Small (encodeAll track.children)) :
    track.entry.height = some track.height ↔
      IsRead track.children track.video ∧
        IsRead track.videoChildren track.pixelHeight ∧ track.pixelHeight.body.length ≤ 4 :=
  entry_side hsmall track.height_alone
    (fun t x body => by
      unfold visitVideo
      split_ifs <;> rfl)
    (fun x hx body t => by
      unfold visitTrackEntry
      split_ifs <;> rfl) rfl

/-- **The track is collected as it is exactly when it is readable.** -/
theorem entry_iff (hsmall : Small (encodeAll track.children)) :
    track.entry.trackType = some 1 ∧ track.entry.codec = some track.codec ∧
        track.entry.width = some track.width ∧ track.entry.height = some track.height ↔
      track.Readable := by
  rw [entry_trackType hsmall, entry_codec hsmall, entry_width hsmall, entry_height hsmall]
  unfold Readable
  tauto

end VideoTrack

/-! ## The tracks of a Segment -/

/-- An element of `Tracks` that gives no video track. -/
def OtherTrack (e : EbmlElement) : Prop :=
  e.id ≠ 0xAE ∨
    ∃ children trackType, e.body = encodeAll children ∧ Alone EbmlElement.id 0x83 children trackType ∧
      BigEndian.value trackType.body ≠ 1 ∧ BigEndian.value trackType.body < 256

/-- The contents of `Tracks` with one video track. -/
structure SegmentTracks where
  before : List EbmlElement
  entry : EbmlElement
  after : List EbmlElement
  track : VideoTrack
  entry_id : entry.id = 0xAE
  entry_body : entry.body = encodeAll track.children
  others : ∀ e ∈ before ++ after, OtherTrack e

theorem addTrack_keeps (m : VideoMetadata) {t : TrackEntry} (h : t.trackType ≠ some 1) :
    (m.addTrack t).picture = m.picture := by
  unfold VideoMetadata.addTrack
  rw [if_neg h]
  split_ifs <;> rfl

theorem visitTracks_other {e : EbmlElement} (hsmall : Small e.body) (h : OtherTrack e)
    (m : VideoMetadata) : (visitTracks m e.id e.body).picture = m.picture := by
  unfold visitTracks
  split_ifs with hid
  · obtain hother | ⟨children, trackType, hbody, halone, hvideo, hbyte⟩ := h
    · exact absurd hid hother
    · rw [hbody] at hsmall ⊢
      refine addTrack_keeps m ?_
      rw [collected_trackType hsmall halone]
      split_ifs
      · cases hfirst : trackType.body with
        | nil => simp
        | cons b rest =>
          rw [hfirst] at hvideo hbyte
          intro hone
          obtain rfl : b = 1 := Option.some.inj hone
          rw [BigEndian.length_eq_one (by decide) hbyte] at hvideo
          exact hvideo rfl
      · exact nofun
  · rfl

namespace SegmentTracks

variable (tracks : SegmentTracks)

/-- The elements of `Tracks`. -/
def children : List EbmlElement := tracks.before ++ tracks.entry :: tracks.after

/-- What there is of the picture. -/
def picture : Option Text × Option Nat × Option Nat :=
  (some tracks.track.codec, some tracks.track.width, some tracks.track.height)

/-- The track is read, and what there is in it. -/
def Readable : Prop :=
  (∀ e ∈ tracks.before ++ [tracks.entry], e.Short) ∧ tracks.track.Readable

/-- The picture that is found, after another one. -/
def found (old : Option Text × Option Nat × Option Nat) :
    Option Text × Option Nat × Option Nat :=
  if (∀ e ∈ tracks.before ++ [tracks.entry], e.Short) ∧
      tracks.track.entry.trackType = some 1 then
    (tracks.track.entry.codec, tracks.track.entry.width, tracks.track.entry.height)
  else old

variable {tracks}

theorem parseTracks_picture (hsmall : Small (encodeAll tracks.children)) (m : VideoMetadata) :
    (parseTracks (encodeAll tracks.children) m).picture = tracks.found m.picture := by
  have hothers : ∀ e ∈ tracks.before ++ tracks.after, OtherTrack e ∧ Small e.body := by
    intro e he
    refine ⟨tracks.others e he, hsmall.body ?_⟩
    rw [children, List.mem_append, List.mem_cons]
    obtain h | h := List.mem_append.1 he
    · exact .inl h
    · exact .inr (.inr h)
  have hsplit := @eachElement_split _ _ visitTracks (fun e => OtherTrack e ∧ Small e.body)
    tracks.before tracks.after tracks.entry hothers VideoMetadata.picture
    (fun old => if tracks.track.entry.trackType = some 1 then
      (tracks.track.entry.codec, tracks.track.entry.width, tracks.track.entry.height) else old)
    (fun e he m => visitTracks_other he.2 he.1 m)
    (fun m => by
      unfold visitTracks
      rw [if_pos tracks.entry_id, tracks.entry_body]
      change (m.addTrack tracks.track.entry).picture = _
      split_ifs with hvideo
      · unfold VideoMetadata.addTrack
        rw [if_pos hvideo]
        rfl
      · exact addTrack_keeps m hvideo) hsmall m
  rw [parseTracks, children, hsplit, found, ite_and]

theorem found_iff (hsmall : Small (encodeAll tracks.children)) :
    tracks.found (none, none, none) = tracks.picture ↔ tracks.Readable := by
  have hentry : Small (encodeAll tracks.track.children) :=
    tracks.entry_body ▸ hsmall.body (List.mem_append_right _ List.mem_cons_self)
  rw [Readable, ← VideoTrack.entry_iff hentry]
  unfold found picture
  split_ifs with hread
  · rw [and_iff_right hread.1, and_iff_right hread.2, Prod.mk.injEq, Prod.mk.injEq]
  · exact iff_of_false nofun fun h => hread ⟨h.1, h.2.1⟩

end SegmentTracks

/-! ## The information of a Segment -/

/-- The contents of `Info`: a duration of eight bytes, which is a finite positive number, and a
timestamp scale, by default a millisecond. -/
structure SegmentInfo where
  children : List EbmlElement
  duration : EbmlElement
  value : ℚ
  timestampScale : Nat
  duration_alone : Alone EbmlElement.id 0x4489 children duration
  duration_length : duration.body.length = 8
  duration_value : doubleValue (BigEndian.value duration.body) = some value
  value_pos : 0 < value
  scale_given : (timestampScale = 1000000 ∧ ∀ e ∈ children, e.id ≠ 0x2AD7B1) ∨
    ∃ e, Alone EbmlElement.id 0x2AD7B1 children e ∧ BigEndian.value e.body = timestampScale

namespace SegmentInfo

variable (info : SegmentInfo)

/-- The duration in seconds. -/
def seconds : ℚ := info.value * info.timestampScale / 1000000000

variable {info}

theorem parseSegmentInfo_duration (hsmall : Small (encodeAll info.children)) (m : VideoMetadata) :
    (parseSegmentInfo (encodeAll info.children) m).durationSeconds =
      if IsRead info.children info.duration then some (info.value / 1000000000)
      else m.durationSeconds := by
  obtain ⟨hread, hunread⟩ := @eachElement_alone _ _ visitInfo _ _ _ info.duration_alone
    VideoMetadata.durationSeconds (fun _ => some (info.value / 1000000000))
    (fun x hx body m => by
      unfold visitInfo
      rw [if_neg fun h => hx h.1])
    (fun m => by
      unfold visitInfo
      rw [if_pos ⟨rfl, info.duration_length⟩, info.duration_value]
      dsimp only
      rw [if_pos info.value_pos]) hsmall m
  split_ifs with h
  · exact hread h
  · exact hunread h

theorem seconds_iff : some (info.value / 1000000000) = some info.seconds ↔
    info.timestampScale = 1 := by
  have hvalue := info.value_pos
  rw [Option.some.injEq, seconds, div_left_inj' (by norm_num)]
  constructor
  · intro h
    have hone : (1 : ℚ) = info.timestampScale := mul_left_cancel₀ hvalue.ne' (by rwa [mul_one])
    exact_mod_cast hone.symm
  · intro h
    rw [h, Nat.cast_one, mul_one]

end SegmentInfo

/-! ## The elements of a Segment -/

/-- An element of a Segment in `parse_matroska_metadata`. -/
def visitSegment (m : VideoMetadata) (id : Nat) (body : Bytes) : VideoMetadata :=
  if id = 0x1549A966 then parseSegmentInfo body m
  else if id = 0x1654AE6B then parseTracks body m
  else m

/-- One turn of the loop over elements other than Segments. -/
theorem matroskaLoop_cons (n : Nat) {e : EbmlElement} (hid : e.id ≠ 0x18538067) {rest : Bytes}
    (hsmall : Small (e.encode ++ rest)) (m : VideoMetadata) :
    matroskaLoop (n + 1) (e.encode ++ rest) m =
      if ¬e.Short then { m with partially := true }
      else if e.id = 0x1F43B675 then m
      else matroskaLoop n rest (visitSegment m e.id e.body) := by
  have hlength := e.length_encode
  have htotal : (e.encode ++ rest).length = e.encode.length + rest.length := List.length_append
  have hsize := e.size_fits.1
  unfold Small at hsmall
  have hcons : ¬(e.encode ++ rest = [] ∨ n + 1 = 0) := by
    rintro (h | h)
    · rw [h] at htotal
      simp only [List.length_nil] at htotal
      omega
    · omega
  rw [matroskaLoop, if_neg hcons, readHeader_encode]
  dsimp only [Option.map_some, Option.getD_some]
  unfold EbmlElement.readSize
  by_cases hshort : e.Short
  · have hlong : ¬e.sizeLength = 8 := hshort
    have hbody : ((e.encode ++ rest).take (e.idBytes.length + e.sizeLength + e.body.length)).drop
        (e.idBytes.length + e.sizeLength) = e.body := by
      rw [← hlength, List.take_left]
      unfold EbmlElement.encode
      rw [← List.append_assoc, List.drop_left' (by simp [encodeSize])]
    have hrest : (e.encode ++ rest).drop (e.idBytes.length + e.sizeLength + e.body.length) =
        rest := by
      rw [← hlength, List.drop_left]
    rw [if_neg hlong, if_neg (by omega), if_neg (not_not.2 hshort), if_neg hid, hbody, hrest]
    unfold visitSegment
    split_ifs with hinfo htracks hcluster <;> first | rfl | omega
  · have hlong : e.sizeLength = 8 := not_not.1 hshort
    rw [if_pos hlong, if_pos (by omega), if_pos hshort]

/-- The loop goes on after the element. -/
def EbmlElement.Passed (e : EbmlElement) : Prop := e.Short ∧ e.id ≠ 0x1F43B675

instance (e : EbmlElement) : Decidable e.Passed := inferInstanceAs (Decidable (_ ∧ _))

/-- The elements that are looked at: so many at most, before the first Cluster and the first element
whose size takes eight bytes. -/
def scanned (n : Nat) (elements : List EbmlElement) : List EbmlElement :=
  (elements.take n).takeWhile (·.Passed)

theorem scanned_isStart (n : Nat) (elements : List EbmlElement) : scanned n elements <+: elements :=
  (List.takeWhile_prefix _).trans (List.take_prefix _ _)

/-- The loop does not stop at an element whose size takes eight bytes. -/
def Clear (n : Nat) (elements : List EbmlElement) : Prop :=
  ∀ e ∈ ((elements.take n).dropWhile (·.Passed)).head?, e.Short

instance (n : Nat) (elements : List EbmlElement) : Decidable (Clear n elements) :=
  decidable_of_iff (((elements.take n).dropWhile (·.Passed)).head?.all (·.Short)) (by
    unfold Clear
    cases ((elements.take n).dropWhile (·.Passed)).head? <;> simp)

theorem scanned_cons (n : Nat) (e : EbmlElement) (rest : List EbmlElement) :
    scanned (n + 1) (e :: rest) = if e.Passed then e :: scanned n rest else [] := by
  unfold scanned
  rw [List.take_succ_cons, List.takeWhile_cons]
  simp only [decide_eq_true_eq]

theorem clear_cons (n : Nat) (e : EbmlElement) (rest : List EbmlElement) :
    Clear (n + 1) (e :: rest) ↔ if e.Passed then Clear n rest else e.Short := by
  unfold Clear
  rw [List.take_succ_cons, List.dropWhile_cons]
  split_ifs <;> simp_all

/-- **The loop over a Segment visits the elements that are looked at**, and tells when it stopped at
a size of eight bytes. -/
theorem matroskaLoop_encodeAll {elements : List EbmlElement}
    (hids : ∀ e ∈ elements, e.id ≠ 0x18538067) (hsmall : Small (encodeAll elements)) (n : Nat)
    (m : VideoMetadata) :
    matroskaLoop n (encodeAll elements) m =
      if Clear n elements then
        (scanned n elements).foldl (fun m e => visitSegment m e.id e.body) m
      else
        { (scanned n elements).foldl (fun m e => visitSegment m e.id e.body) m with
          partially := true } := by
  induction elements generalizing n m with
  | nil =>
    rw [encodeAll, List.flatMap_nil, matroskaLoop, if_pos (.inl rfl)]
    simp [Clear, scanned]
  | cons e rest ih =>
    have hcons : encodeAll (e :: rest) = e.encode ++ encodeAll rest := List.flatMap_cons
    rw [List.forall_mem_cons] at hids
    cases n with
    | zero =>
      rw [matroskaLoop, if_pos (.inr rfl)]
      simp [Clear, scanned]
    | succ n =>
      rw [hcons] at hsmall ⊢
      have hrest : Small (encodeAll rest) := by
        unfold Small at hsmall ⊢
        rw [List.length_append] at hsmall
        omega
      rw [matroskaLoop_cons n hids.1 hsmall]
      by_cases hpassed : e.Passed
      · have hclear : Clear (n + 1) (e :: rest) ↔ Clear n rest := by
          rw [clear_cons, if_pos hpassed]
        rw [if_neg (not_not.2 hpassed.1), if_neg hpassed.2, ih hids.2 hrest, scanned_cons,
          if_pos hpassed, List.foldl_cons]
        simp only [hclear]
      · have hclear : Clear (n + 1) (e :: rest) ↔ e.Short := by
          rw [clear_cons, if_neg hpassed]
        rw [scanned_cons, if_neg hpassed, List.foldl_nil]
        by_cases hshort : e.Short
        · have hcluster : e.id = 0x1F43B675 := by
            by_contra h
            exact hpassed ⟨hshort, h⟩
          rw [if_neg (not_not.2 hshort), if_pos hcluster, if_pos (hclear.2 hshort)]
        · rw [if_pos hshort, if_neg (mt hclear.1 hshort)]

/-! ## Files -/

/-- The identifiers that `parse_matroska_metadata` knows. -/
def knownIds : List Nat := [0x18538067, 0x1549A966, 0x1654AE6B, 0x1F43B675]

/-- The bytes of a Segment's identifier. -/
def segmentId : Bytes := [0x18, 0x53, 0x80, 0x67]

/-- A video: elements before the Segment, such as the header of EBML, and a Segment of known or
unknown size with its information and its tracks. The file is scanned whole. -/
structure MatroskaVideo where
  preamble : List EbmlElement
  sizeLength : Nat
  sizeKnown : Bool
  children : List EbmlElement
  infoElement : EbmlElement
  info : SegmentInfo
  tracksElement : EbmlElement
  tracks : SegmentTracks
  preamble_ids : ∀ e ∈ preamble, e.id ∉ knownIds
  size_fits : 1 ≤ sizeLength ∧ sizeLength ≤ 8 ∧
    (sizeKnown = true → (encodeAll children).length < 2 ^ (7 * sizeLength) - 1)
  children_ids : ∀ e ∈ children, e.id ≠ 0x18538067
  info_alone : Alone EbmlElement.id 0x1549A966 children infoElement
  info_body : infoElement.body = encodeAll info.children
  tracks_alone : Alone EbmlElement.id 0x1654AE6B children tracksElement
  tracks_body : tracksElement.body = encodeAll tracks.children
  file_fits : (encodeAll preamble).length + segmentId.length + sizeLength +
    (encodeAll children).length ≤ maxScanBytes

namespace MatroskaVideo

variable (video : MatroskaVideo)

/-- The bytes of the Segment. -/
def segment : Bytes :=
  segmentId ++ (encodeSize video.sizeLength
    (if video.sizeKnown then (encodeAll video.children).length
      else 2 ^ (7 * video.sizeLength) - 1) ++ encodeAll video.children)

/-- The bytes of the file. -/
def encode : Bytes := encodeAll video.preamble ++ video.segment

/-- The duration, the codec and the size of the pictures are reported, and nothing is missing. -/
def Reported : Prop :=
  let m := parseMatroskaMetadata video.encode
  m.durationSeconds = some video.info.seconds ∧ m.picture = video.tracks.picture ∧
    m.partially = false

/-- Nothing that is needed has, or stands behind, a size of eight bytes, and the information and the
tracks come before the first Cluster and the limit of elements. -/
def Readable : Prop :=
  ((∀ e ∈ video.preamble, e.Short) ∧ video.preamble.length < maxEbmlElements) ∧
    video.sizeLength ≠ 8 ∧ Clear maxEbmlElements video.children ∧
    (video.infoElement ∈ scanned maxEbmlElements video.children ∧
      IsRead video.info.children video.info.duration) ∧
    video.tracksElement ∈ scanned maxEbmlElements video.children ∧ video.tracks.Readable

variable {video}

theorem children_small : Small (encodeAll video.children) := by
  have hfits := video.file_fits
  unfold maxScanBytes at hfits
  unfold Small
  omega

theorem encode_small : Small video.encode := by
  have hfits := video.file_fits
  have hlength : video.encode.length = (encodeAll video.preamble).length + segmentId.length +
      video.sizeLength + (encodeAll video.children).length := by
    simp only [encode, segment, encodeSize, List.length_append, BigEndian.length_encode]
    omega
  unfold maxScanBytes at hfits
  unfold Small
  omega

/-- What the Segment reads as, by itself. -/
def nested (video : MatroskaVideo) : VideoMetadata :=
  matroskaLoop maxEbmlElements (encodeAll video.children) .matroska

theorem visitSegment_partially (m : VideoMetadata) (id : Nat) (body : Bytes) :
    (visitSegment m id body).partially = m.partially := by
  unfold visitSegment
  split_ifs
  · exact @eachElement_keeps _ _ visitInfo VideoMetadata.partially (fun m id body => by
      unfold visitInfo
      split_ifs
      · split
        · split_ifs <;> rfl
        · rfl
      · rfl) body m
  · exact @eachElement_keeps _ _ visitTracks VideoMetadata.partially (fun m id body => by
      unfold visitTracks parseTrackEntry VideoMetadata.addTrack
      split_ifs <;> rfl) body m
  · rfl

theorem visitSegment_picture {id : Nat} (h : id ≠ 0x1654AE6B) (body : Bytes) (m : VideoMetadata) :
    (visitSegment m id body).picture = m.picture := by
  unfold visitSegment
  rw [if_neg h]
  split_ifs
  · exact @eachElement_keeps _ _ visitInfo VideoMetadata.picture (fun m id body => by
      unfold visitInfo
      split_ifs
      · split
        · split_ifs <;> rfl
        · rfl
      · rfl) body m
  · rfl

theorem visitSegment_duration {id : Nat} (h : id ≠ 0x1549A966) (body : Bytes)
    (m : VideoMetadata) : (visitSegment m id body).durationSeconds = m.durationSeconds := by
  unfold visitSegment
  rw [if_neg h]
  split_ifs
  · exact @eachElement_keeps _ _ visitTracks VideoMetadata.durationSeconds (fun m id body => by
      unfold visitTracks parseTrackEntry VideoMetadata.addTrack
      split_ifs <;> rfl) body m
  · rfl

theorem nested_partially : video.nested.partially = false ↔ Clear maxEbmlElements video.children := by
  rw [nested, matroskaLoop_encodeAll video.children_ids children_small]
  split_ifs with h
  · refine iff_of_true ?_ h
    have hkeeps := @foldl_others _ _ _ (fun m e => visitSegment m e.id e.body) (fun _ => True)
      VideoMetadata.partially (scanned maxEbmlElements video.children)
      (fun x _ m => visitSegment_partially m x.id x.body) (fun _ _ => trivial)
    exact hkeeps .matroska
  · exact iff_of_false nofun h

/-- What the loop tells of a size of eight bytes apart, the Segment is what its elements make it. -/
theorem nested_look {τ : Type} {look : VideoMetadata → τ}
    (hpart : ∀ m : VideoMetadata, look { m with partially := true } = look m) :
    look video.nested =
      look ((scanned maxEbmlElements video.children).foldl
        (fun m e => visitSegment m e.id e.body) .matroska) := by
  rw [nested, matroskaLoop_encodeAll video.children_ids children_small]
  split_ifs
  · rfl
  · exact hpart _

theorem nested_duration : video.nested.durationSeconds = some video.info.seconds ↔
    (video.infoElement ∈ scanned maxEbmlElements video.children ∧
      IsRead video.info.children video.info.duration) ∧ video.info.timestampScale = 1 := by
  have hbody : Small (encodeAll video.info.children) :=
    video.info_body ▸ children_small.body video.info_alone.mem
  obtain ⟨hread, hunread⟩ := @foldl_alone _ _ _
    (fun m e => visitSegment m e.id e.body) _ _ _ _ _ video.info_alone _
    (scanned_isStart maxEbmlElements _) VideoMetadata.durationSeconds
    (fun old => if IsRead video.info.children video.info.duration then
      some (video.info.value / 1000000000) else old)
    (fun x hx m => visitSegment_duration hx x.body m)
    (fun m => by
      unfold visitSegment
      rw [if_pos video.info_alone.key_eq, video.info_body, SegmentInfo.parseSegmentInfo_duration hbody]) .matroska
  rw [@nested_look video _ VideoMetadata.durationSeconds fun _ => rfl]
  by_cases h : video.infoElement ∈ scanned maxEbmlElements video.children
  · rw [hread h, and_iff_right h, ← SegmentInfo.seconds_iff]
    split_ifs with hduration
    · rw [and_iff_right hduration]
    · exact iff_of_false nofun fun h => hduration h.1
  · rw [hunread h]
    exact iff_of_false nofun fun hall => h hall.1.1

theorem nested_picture : video.nested.picture = video.tracks.picture ↔
    video.tracksElement ∈ scanned maxEbmlElements video.children ∧ video.tracks.Readable := by
  have hbody : Small (encodeAll video.tracks.children) :=
    video.tracks_body ▸ children_small.body video.tracks_alone.mem
  obtain ⟨hread, hunread⟩ := @foldl_alone _ _ _
    (fun m e => visitSegment m e.id e.body) _ _ _ _ _ video.tracks_alone _
    (scanned_isStart maxEbmlElements _) VideoMetadata.picture
    video.tracks.found (fun x hx m => visitSegment_picture hx x.body m)
    (fun m => by
      unfold visitSegment
      rw [video.tracks_alone.key_eq, if_neg (by decide), if_pos rfl, video.tracks_body,
        SegmentTracks.parseTracks_picture hbody]) .matroska
  rw [@nested_look video _ VideoMetadata.picture fun _ => rfl]
  by_cases h : video.tracksElement ∈ scanned maxEbmlElements video.children
  · rw [hread h, and_iff_right h]
    exact SegmentTracks.found_iff hbody
  · rw [hunread h]
    exact iff_of_false nofun fun hall => h hall.1

/-- The elements before the Segment are passed over, if the loop comes past them. -/
theorem matroskaLoop_preamble {preamble : List EbmlElement}
    (hids : ∀ e ∈ preamble, e.id ∉ knownIds) {rest : Bytes}
    (hsmall : Small (encodeAll preamble ++ rest)) (n : Nat) (m : VideoMetadata) :
    ((∀ e ∈ preamble, e.Short) ∧ preamble.length < n →
        matroskaLoop n (encodeAll preamble ++ rest) m =
          matroskaLoop (n - preamble.length) rest m) ∧
      (¬((∀ e ∈ preamble, e.Short) ∧ preamble.length < n) →
        (matroskaLoop n (encodeAll preamble ++ rest) m).durationSeconds = m.durationSeconds) := by
  induction preamble generalizing n with
  | nil =>
    refine ⟨fun _ => rfl, fun h => ?_⟩
    obtain rfl : n = 0 := by
      by_contra hn
      exact h ⟨List.forall_mem_nil _, Nat.pos_of_ne_zero hn⟩
    rw [matroskaLoop, if_pos (.inr rfl)]
  | cons e others ih =>
    rw [List.forall_mem_cons] at hids
    cases n with
    | zero =>
      refine ⟨fun h => absurd h.2 (Nat.not_lt_zero _), fun _ => ?_⟩
      rw [matroskaLoop, if_pos (.inr rfl)]
    | succ n =>
      have hcons : encodeAll (e :: others) ++ rest = e.encode ++ (encodeAll others ++ rest) := by
        rw [encodeAll, List.flatMap_cons, List.append_assoc, encodeAll]
      rw [hcons] at hsmall ⊢
      have hothers : Small (encodeAll others ++ rest) := by
        unfold Small at hsmall ⊢
        rw [List.length_append] at hsmall
        omega
      simp only [knownIds, List.mem_cons, List.not_mem_nil, or_false, not_or] at hids
      obtain ⟨⟨hsegment, hinfo, htracks, hcluster⟩, hids⟩ := hids
      have hvisit : visitSegment m e.id e.body = m := by
        rw [visitSegment, if_neg hinfo, if_neg htracks]
      obtain ⟨hpassed, hstopped⟩ := ih (fun x hx => by
        simpa only [knownIds, List.mem_cons, List.not_mem_nil, or_false, not_or] using hids x hx)
        hothers n
      rw [matroskaLoop_cons n hsegment hsmall, if_neg hcluster, hvisit, List.forall_mem_cons,
        List.length_cons, Nat.succ_lt_succ_iff, Nat.succ_sub_succ]
      by_cases hshort : e.Short
      · rw [if_neg (not_not.2 hshort), and_iff_right hshort]
        exact ⟨hpassed, hstopped⟩
      · rw [if_pos hshort]
        exact ⟨fun h => absurd h.1.1 hshort, fun _ => rfl⟩

/-- A Segment is read when its size takes less than eight bytes, known or not. -/
theorem matroskaLoop_segment (n : Nat) (m : VideoMetadata) :
    matroskaLoop (n + 1) video.segment m =
      if video.sizeLength = 8 then { m with partially := true } else m.merge video.nested := by
  obtain ⟨hpos, hmax, hknown⟩ := video.size_fits
  have hchildren : Small (encodeAll video.children) := children_small
  obtain ⟨size, hsize⟩ : ∃ size, size = if video.sizeKnown then (encodeAll video.children).length
      else 2 ^ (7 * video.sizeLength) - 1 := ⟨_, rfl⟩
  have hfits : size < 2 ^ (7 * video.sizeLength) := by
    have := Nat.two_pow_pos (7 * video.sizeLength)
    cases h : video.sizeKnown with
    | false =>
      rw [h, if_neg Bool.false_ne_true] at hsize
      omega
    | true =>
      rw [h, if_pos rfl] at hsize
      have := hknown h
      omega
  have hlength : video.segment.length =
      segmentId.length + video.sizeLength + (encodeAll video.children).length := by
    simp only [segment, encodeSize, List.length_append, BigEndian.length_encode]
    omega
  have hcons : ¬(video.segment = [] ∨ n + 1 = 0) := by
    rintro (h | h)
    · rw [h, List.length_nil] at hlength
      omega
    · omega
  have hid : readEbmlId (segmentId ++ (encodeSize video.sizeLength size ++
      encodeAll video.children)) = some (0x18538067, segmentId.length) :=
    readEbmlId_append (by decide) _
  have hheader : readHeader video.segment =
      some (0x18538067, segmentId.length + video.sizeLength,
        if video.sizeLength = 8 then some (2 ^ 56 + size)
        else if size = 2 ^ (7 * video.sizeLength) - 1 then none else some size) := by
    unfold readHeader segment
    rw [← hsize, hid]
    dsimp only
    rw [List.drop_left, readEbmlSize_encode hpos hmax hfits]
    split_ifs <;> rfl
  have hbody : video.segment.drop (segmentId.length + video.sizeLength) =
      encodeAll video.children := by
    unfold segment
    rw [← List.append_assoc, List.drop_left' (by simp [encodeSize])]
  by_cases hlong : video.sizeLength = 8
  · rw [if_pos hlong] at hheader ⊢
    rw [matroskaLoop, if_neg hcons, hheader]
    dsimp only [Option.map_some, Option.getD_some]
    unfold Small at hchildren
    rw [if_pos (.inr (by omega))]
  · rw [if_neg hlong] at hheader ⊢
    have hstop : ((if size = 2 ^ (7 * video.sizeLength) - 1 then none else some size).map
        (segmentId.length + video.sizeLength + ·)).getD video.segment.length =
          video.segment.length := by
      split_ifs with hunknown
      · rfl
      · have : size = (encodeAll video.children).length := by
          cases h : video.sizeKnown with
          | false =>
            rw [h, if_neg Bool.false_ne_true] at hsize
            exact absurd hsize hunknown
          | true => rwa [h, if_pos rfl] at hsize
        rw [Option.map_some, Option.getD_some, hlength, this]
    rw [matroskaLoop, if_neg hcons, hheader]
    dsimp only
    rw [hstop, if_neg (by omega), if_pos rfl, List.take_length, hbody, List.drop_length,
      matroskaLoop, if_pos (.inl rfl)]
    rfl

/-- **A video is reported exactly when its timestamp scale is one and it is readable.** -/
theorem reported_iff : video.Reported ↔ video.info.timestampScale = 1 ∧ video.Readable := by
  obtain ⟨hpassed, hstopped⟩ :=
    matroskaLoop_preamble video.preamble_ids encode_small maxEbmlElements .matroska
  unfold Reported Readable parseMatroskaMetadata
  by_cases hpreamble : (∀ e ∈ video.preamble, e.Short) ∧
      video.preamble.length < maxEbmlElements
  · obtain ⟨n, hn⟩ : ∃ n, maxEbmlElements - video.preamble.length = n + 1 :=
      ⟨maxEbmlElements - video.preamble.length - 1, by omega⟩
    rw [encode, hpassed hpreamble, hn, matroskaLoop_segment, and_iff_right hpreamble]
    by_cases hlong : video.sizeLength = 8
    · rw [if_pos hlong]
      exact iff_of_false (fun h => nomatch h.1) fun h => h.2.1 hlong
    · rw [if_neg hlong, and_iff_right hlong]
      change video.nested.durationSeconds = _ ∧ video.nested.picture = _ ∧
        video.nested.partially = _ ↔ _
      rw [nested_duration, nested_picture, nested_partially]
      tauto
  · have hnone := hstopped hpreamble
    exact iff_of_false (fun h => absurd (hnone.symm.trans h.1) nofun) fun h => hpreamble h.2.1

end MatroskaVideo

/-- **Matroska headers are read as the format defines them exactly when the timestamp scale is one
and nothing that is needed stands behind a size of eight bytes**; of the sizes, exactly those of
eight bytes are read as something else. -/
theorem matroskaVideo_reported_iff (video : MatroskaVideo) :
    (video.Reported ↔ video.info.timestampScale = 1 ∧ video.Readable) ∧
      ∀ (length n : Nat) (rest : Bytes), 1 ≤ length → length ≤ 8 → n < 2 ^ (7 * length) - 1 →
        (readEbmlSize (encodeSize length n ++ rest) = some (some n, length) ↔ length ≠ 8) ∧
        (readEbmlSize (encodeSize length (2 ^ (7 * length) - 1) ++ rest) = some (none, length) ↔
          length ≠ 8) := by
  refine ⟨MatroskaVideo.reported_iff, fun length n rest hpos hmax hn => ?_⟩
  have hpow := Nat.two_pow_pos (7 * length)
  rw [readEbmlSize_encode hpos hmax (by omega), readEbmlSize_encode hpos hmax (by omega)]
  by_cases hlong : length = 8
  · subst hlong
    rw [if_pos rfl, if_pos rfl]
    refine ⟨iff_of_false (fun h => ?_) (not_not.2 rfl), iff_of_false (fun h => ?_) (not_not.2 rfl)⟩
    · have := Option.some.inj (Prod.mk.inj (Option.some.inj h)).1
      omega
    · exact nomatch (Prod.mk.inj (Option.some.inj h)).1
  · rw [if_neg hlong, if_neg hlong, if_neg (by omega), if_pos rfl]
    exact ⟨iff_of_true rfl hlong, iff_of_true rfl hlong⟩

/-! ## A video of five seconds -/

/-- An element with a size of one byte. -/
def shortElement (idBytes body : Bytes)
    (hid : idBytes.length = leadingZeros (idBytes.headD 0) + 1 ∧ idBytes.length ≤ 4)
    (hbody : body.length < 127) : EbmlElement :=
  ⟨idBytes, 1, body, hid, le_refl 1, by decide, hbody⟩

/-- A track with pictures of 640 by 480 pixels. -/
def vgaTrack : VideoTrack where
  children :=
    [shortElement [0x83] [1] (by decide) (by decide),
      shortElement [0x86] (Utf8.encode "V_VP9".toList) (by decide) (by decide),
      shortElement [0xE0] [0xB0, 0x82, 2, 128, 0xBA, 0x82, 1, 224] (by decide) (by decide)]
  trackType := shortElement [0x83] [1] (by decide) (by decide)
  codecId := shortElement [0x86] (Utf8.encode "V_VP9".toList) (by decide) (by decide)
  codec := "V_VP9".toList
  video := shortElement [0xE0] [0xB0, 0x82, 2, 128, 0xBA, 0x82, 1, 224] (by decide) (by decide)
  videoChildren :=
    [shortElement [0xB0] [2, 128] (by decide) (by decide),
      shortElement [0xBA] [1, 224] (by decide) (by decide)]
  pixelWidth := shortElement [0xB0] [2, 128] (by decide) (by decide)
  pixelHeight := shortElement [0xBA] [1, 224] (by decide) (by decide)
  trackType_alone := ⟨[], _, rfl, by decide, by decide⟩
  trackType_video := by decide
  codec_alone := ⟨[_], [_], rfl, by decide, by decide⟩
  codec_text := rfl
  video_alone := ⟨[_, _], [], rfl, by decide, by decide⟩
  video_body := by decide
  width_alone := ⟨[], [_], rfl, by decide, by decide⟩
  height_alone := ⟨[_], [], rfl, by decide, by decide⟩

/-- `Tracks` with that track. -/
def vgaTracks : SegmentTracks where
  before := []
  entry := shortElement [0xAE] (encodeAll vgaTrack.children) (by decide) (by decide)
  after := []
  track := vgaTrack
  entry_id := by decide
  entry_body := rfl
  others := List.forall_mem_nil _

/-- `Info` with five thousand times the default timestamp scale. -/
def fiveSeconds : SegmentInfo where
  children := [shortElement [0x44, 0x89] [0x40, 0xB3, 0x88, 0, 0, 0, 0, 0] (by decide) (by decide)]
  duration := shortElement [0x44, 0x89] [0x40, 0xB3, 0x88, 0, 0, 0, 0, 0] (by decide) (by decide)
  value := 5000
  timestampScale := 1000000
  duration_alone := ⟨[], [], rfl, by decide, by decide⟩
  duration_length := rfl
  duration_value := by decide +kernel
  value_pos := by norm_num
  scale_given := .inl ⟨rfl, by decide⟩

/-- A video of five seconds. -/
def fiveSecondsVideo : MatroskaVideo where
  preamble := [shortElement [0x1A, 0x45, 0xDF, 0xA3] [] (by decide) (by decide)]
  sizeLength := 1
  sizeKnown := true
  children :=
    [shortElement [0x15, 0x49, 0xA9, 0x66] (encodeAll fiveSeconds.children) (by decide) (by decide),
      shortElement [0x16, 0x54, 0xAE, 0x6B] (encodeAll vgaTracks.children) (by decide) (by decide)]
  infoElement :=
    shortElement [0x15, 0x49, 0xA9, 0x66] (encodeAll fiveSeconds.children) (by decide) (by decide)
  info := fiveSeconds
  tracksElement :=
    shortElement [0x16, 0x54, 0xAE, 0x6B] (encodeAll vgaTracks.children) (by decide) (by decide)
  tracks := vgaTracks
  preamble_ids := by decide
  size_fits := by decide
  children_ids := by decide
  info_alone := ⟨[], [_], rfl, by decide, by decide⟩
  info_body := rfl
  tracks_alone := ⟨[_], [], rfl, by decide, by decide⟩
  tracks_body := rfl
  file_fits := by decide

/-- Five seconds are reported as five microseconds. -/
theorem fiveSecondsVideo_notReported :
    fiveSecondsVideo.info.seconds = 5 ∧
      (parseMatroskaMetadata fiveSecondsVideo.encode).durationSeconds = some (1 / 200000) ∧
      ¬fiveSecondsVideo.Reported := by
  have hread : (parseMatroskaMetadata fiveSecondsVideo.encode).durationSeconds =
      some (1 / 200000) := by decide +kernel
  have hseconds : fiveSecondsVideo.info.seconds = 5 := by decide +kernel
  refine ⟨hseconds, hread, fun h => ?_⟩
  have hreported := hread.symm.trans h.1
  rw [hseconds, Option.some.injEq] at hreported
  norm_num at hreported

end Zemo.Extraction
