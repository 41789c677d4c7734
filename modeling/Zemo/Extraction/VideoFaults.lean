import Zemo.Extraction.IsoMovies
import Zemo.Extraction.VideoOffsets

set_option autoImplicit false

/-! # Where the video parsers break off

At the offsets of a buffer the parsers compute what they do over the bytes that are left, unless a
fault stops them: in boxes one whose size of eight bytes takes the offset past 64 bits, in elements
a size of eight bytes. -/

namespace Zemo.Extraction

open Checked (bind_ok bind_error)

/-! ## Arithmetic and slices within a buffer -/

/-- The lengths of buffers are far below the largest offset. -/
def Buffer (bytes : Bytes) : Prop := bytes.length < 2 ^ 62

theorem Buffer.le {bytes part : Bytes} (h : Buffer bytes) (hle : part.length ≤ bytes.length) :
    Buffer part :=
  hle.trans_lt h

theorem addUsize_ok {a b : Nat} (h : a + b < 2 ^ 64) : addUsize a b = .ok (a + b) := if_pos h

theorem addUsize_overflow {a b : Nat} (h : 2 ^ 64 ≤ a + b) : addUsize a b = .error .overflow :=
  if_neg (Nat.not_lt.2 h)

theorem sliceBytes_ok {bytes : Bytes} {start stop : Nat} (hstart : start ≤ stop)
    (hstop : stop ≤ bytes.length) :
    sliceBytes bytes start stop = .ok ((bytes.drop start).take (stop - start)) := by
  rw [sliceBytes, if_pos ⟨hstart, hstop⟩, List.drop_take]

theorem readNumber_ok {bytes : Bytes} (hbuffer : Buffer bytes) {width offset : Nat}
    (h : offset + width ≤ bytes.length) :
    readNumber width bytes offset = .ok (BigEndian.value ((bytes.drop offset).take width)) := by
  unfold Buffer at hbuffer
  unfold readNumber
  rw [bind_ok (addUsize_ok (by omega)), bind_ok (sliceBytes_ok (Nat.le_add_right _ _) h),
    Nat.add_sub_cancel_left]
  rfl

/-! ## Boxes of an inner level -/

/-- The box at the start of what is left. -/
def boxOf (rest : Bytes) (offset : Nat) : Option (Bytes × Bytes × Nat) :=
  let size := BigEndian.value (rest.take 4)
  if size < 8 ∨ rest.length < size then none
  else some ((rest.drop 4).take 4, (rest.take size).drop 8, offset + size)

theorem value_take_lt (bytes : Bytes) (width : Nat) :
    BigEndian.value (bytes.take width) < 256 ^ width :=
  (BigEndian.value_lt _).trans_le (Nat.pow_le_pow_right (by norm_num) (List.length_take_le _ _))

theorem boxAt_eq {bytes : Bytes} (hbuffer : Buffer bytes) {offset : Nat}
    (h : offset + 8 ≤ bytes.length) :
    boxAt bytes offset = .ok (boxOf (bytes.drop offset) offset) := by
  have hsize := value_take_lt (bytes.drop offset) 4
  have hlength : (bytes.drop offset).length = bytes.length - offset := List.length_drop
  have hread := @readNumber_ok bytes hbuffer 4 offset (by omega)
  unfold Buffer at hbuffer
  unfold boxAt boxOf
  rw [bind_ok hread, bind_ok (addUsize_ok (by omega)), bind_ok (addUsize_ok (by omega)),
    bind_ok (sliceBytes_ok (by omega) h)]
  obtain ⟨size, hvalue⟩ : ∃ size, size = BigEndian.value ((bytes.drop offset).take 4) := ⟨_, rfl⟩
  dsimp only
  rw [← hvalue] at hsize ⊢
  by_cases hshort : size < 8
  · rw [if_pos hshort, if_pos (.inl hshort)]
    rfl
  · rw [if_neg hshort, bind_ok (addUsize_ok (by omega))]
    by_cases hpast : bytes.length < offset + size
    · rw [if_pos hpast, if_pos (.inr (by omega))]
      rfl
    · rw [if_neg hpast, if_neg (by omega), bind_ok (sliceBytes_ok (by omega) (by omega)),
        List.drop_drop, List.drop_take, List.drop_drop]
      have hkind : offset + 8 - (offset + 4) = 4 := by omega
      have hbody : offset + size - (offset + 8) = size - 8 := by omega
      rw [hkind, hbody]
      rfl

/-- **Over a buffer the loop computes what it does over the bytes that are left**, where its visits
do. -/
theorem eachBoxAt_eq {σ : Type} {visitAt : σ → Bytes → Bytes → Except Fault σ}
    {visit : σ → Bytes → Bytes → σ} {bytes : Bytes} (hbuffer : Buffer bytes)
    (hvisit : ∀ s kind body, Buffer body → visitAt s kind body = .ok (visit s kind body))
    (offset : Nat) (hoffset : offset ≤ bytes.length) (s : σ) :
    eachBoxAt visitAt bytes offset s = .ok (eachBox visit (bytes.drop offset) s) := by
  induction hleft : bytes.length - offset using Nat.strong_induction_on generalizing offset s with
  | _ left ih =>
    have hlength : (bytes.drop offset).length = bytes.length - offset := List.length_drop
    have hsum : addUsize offset 8 = .ok (offset + 8) := addUsize_ok (by
      unfold Buffer at hbuffer
      omega)
    rw [eachBoxAt, bind_ok hsum, eachBox]
    by_cases hend : bytes.length < offset + 8
    · rw [if_pos hend, if_pos (by omega)]
      rfl
    · rw [if_neg hend, if_neg (by omega), bind_ok (boxAt_eq hbuffer (by omega))]
      unfold boxOf
      dsimp only
      split_ifs with hpast
      · rfl
      · obtain ⟨hshort, hfits⟩ := not_or.1 hpast
        dsimp only
        rw [bind_ok (hvisit _ _ _ (hbuffer.le (by
          simp only [List.length_drop, List.length_take]
          omega))), if_pos (by omega), ih _ (by omega) _ (by omega) _ rfl]
        simp only [List.drop_drop]

theorem parseStsdAt_eq {body : Bytes} (hbuffer : Buffer body) (m : VideoMetadata) :
    parseStsdAt body m = .ok (parseStsd body m) := by
  have hlength : (body.drop 8).length = body.length - 8 := List.length_drop
  unfold parseStsdAt parseStsd
  by_cases hshort : body.length < 16
  · rw [if_pos hshort, if_pos hshort]
    rfl
  · have hentry : sliceBytes body 8 body.length = .ok (body.drop 8) := by
      rw [sliceBytes_ok (by omega) le_rfl, List.take_of_length_le (by omega)]
    have hpart : Buffer (body.drop 8) := hbuffer.le (by omega)
    rw [if_neg hshort, if_neg hshort, bind_ok hentry,
      bind_ok (sliceBytes_ok (by omega) (by omega))]
    by_cases hlong : 36 ≤ (body.drop 8).length
    · unfold descriptionPicture
      dsimp only
      rw [if_pos hlong, bind_ok (readNumber_ok hpart (by omega)),
        bind_ok (readNumber_ok hpart (by omega))]
      split_ifs <;> simp_all [pure, Except.pure]
    · have hnone : descriptionPicture body = none := if_neg fun h => hlong h.1
      rw [if_neg hlong, hnone]
      dsimp only
      split_ifs <;> rfl

/-- A level of boxes of one kind, over a buffer. -/
theorem level_eq {kind : String} {parseAt : Bytes → VideoMetadata → Except Fault VideoMetadata}
    {parse : Bytes → VideoMetadata → VideoMetadata}
    (hparse : ∀ body m, Buffer body → parseAt body m = .ok (parse body m)) (bytes : Bytes)
    (m : VideoMetadata) (hbuffer : Buffer bytes) :
    eachBoxAt (visitKindAt kind parseAt) bytes 0 m =
      .ok (eachBox (visitKind kind parse) bytes m) := by
  refine eachBoxAt_eq hbuffer (fun m boxKind body hbody => ?_) 0 (Nat.zero_le _) m
  unfold visitKindAt visitKind
  split_ifs
  · exact hparse body m hbody
  · rfl

theorem parseTrakAt_eq {body : Bytes} (hbuffer : Buffer body) (m : VideoMetadata) :
    parseTrakAt body m = .ok (parseTrak body m) := by
  have hstbl := @level_eq "stsd" _ _ fun _ m hbody => parseStsdAt_eq hbody m
  have hminf := @level_eq "stbl" parseStblAt parseStbl hstbl
  have hmdia := @level_eq "minf" parseMinfAt parseMinf hminf
  exact @level_eq "mdia" parseMdiaAt parseMdia hmdia body m hbuffer

/-! ## Boxes of a movie and of a file -/

theorem parseMvhdAt_eq {body : Bytes} (hbuffer : Buffer body) (m : VideoMetadata) :
    parseMvhdAt body m = .ok (parseMvhd body m) := by
  unfold parseMvhdAt parseMvhd
  cases body.head? with
  | none => rfl
  | some version =>
    dsimp only
    by_cases hshort : version = 0 ∧ 20 ≤ body.length
    · have hlength := hshort.2
      rw [if_pos hshort, if_pos hshort, bind_ok (readNumber_ok hbuffer (by omega)),
        bind_ok (readNumber_ok hbuffer (by omega)), bind_ok (readNumber_ok hbuffer (by omega))]
      rfl
    · rw [if_neg hshort, if_neg hshort]
      by_cases hlong : version = 1 ∧ 32 ≤ body.length
      · have hlength := hlong.2
        rw [if_pos hlong, if_pos hlong, bind_ok (readNumber_ok hbuffer (by omega)),
          bind_ok (readNumber_ok hbuffer (by omega))]
        rfl
      · rw [if_neg hlong, if_neg hlong]

theorem visitMoovAt_eq {body : Bytes} (hbuffer : Buffer body) (m : VideoMetadata) (kind : Bytes) :
    visitMoovAt m kind body = .ok (visitMoov m kind body) := by
  unfold visitMoovAt visitMoov
  split_ifs
  · exact parseMvhdAt_eq hbuffer m
  · exact parseTrakAt_eq hbuffer m
  · rfl

theorem moovLoopAt_eq {bytes : Bytes} (hbuffer : Buffer bytes) (n offset : Nat)
    (hoffset : offset ≤ bytes.length) (m : VideoMetadata) :
    moovLoopAt n bytes offset m = .ok (moovLoop n (bytes.drop offset) m) := by
  induction n generalizing offset m with
  | zero => rfl
  | succ n ih =>
    have hlength : (bytes.drop offset).length = bytes.length - offset := List.length_drop
    have hsum : addUsize offset 8 = .ok (offset + 8) := addUsize_ok (by
      unfold Buffer at hbuffer
      omega)
    rw [moovLoopAt, bind_ok hsum, moovLoop]
    by_cases hend : bytes.length < offset + 8
    · rw [if_pos hend, if_pos (by omega)]
      rfl
    · rw [if_neg hend, if_neg (by omega), bind_ok (boxAt_eq hbuffer (by omega))]
      unfold boxOf
      dsimp only
      split_ifs with hpast
      · rfl
      · obtain ⟨hshort, hfits⟩ := not_or.1 hpast
        dsimp only
        rw [bind_ok (visitMoovAt_eq (hbuffer.le (by
          simp only [List.length_drop, List.length_take]
          omega)) m _), if_pos (by omega), ih _ (by omega)]
        simp only [List.drop_drop]

theorem visitFileAt_eq {body : Bytes} (hbuffer : Buffer body) (m : VideoMetadata) (kind : Bytes) :
    visitFileAt m kind body = .ok (visitFile m kind body) := by
  unfold visitFileAt visitFile
  split_ifs
  · exact moovLoopAt_eq hbuffer maxBoxes 0 (Nat.zero_le _) m
  · rfl
  · rfl

/-- The length of the header and the size that the start of what is left gives. -/
def boxSizeOf (rest : Bytes) : Nat × Nat :=
  let sizeField := BigEndian.value (rest.take 4)
  (if sizeField = 1 then 16 else 8,
    if sizeField = 1 then BigEndian.value ((rest.drop 8).take 8)
    else if sizeField = 0 then rest.length
    else sizeField)

theorem boxSizeAt_eq {bytes : Bytes} (hbuffer : Buffer bytes) {offset : Nat}
    (h : offset + 8 ≤ bytes.length) :
    boxSizeAt bytes offset =
      .ok (if BigEndian.value ((bytes.drop offset).take 4) = 1 ∧ (bytes.drop offset).length < 16 then
          none
        else some (boxSizeOf (bytes.drop offset))) := by
  have hlength : (bytes.drop offset).length = bytes.length - offset := List.length_drop
  have hread := @readNumber_ok bytes hbuffer 4 offset (by omega)
  have hsmall := hbuffer
  unfold Buffer at hsmall
  unfold boxSizeAt boxSizeOf
  rw [bind_ok hread]
  dsimp only
  obtain ⟨field, hfield⟩ : ∃ field, field = BigEndian.value ((bytes.drop offset).take 4) :=
    ⟨_, rfl⟩
  rw [← hfield]
  by_cases hone : field = 1
  · rw [if_pos hone, bind_ok (addUsize_ok (by omega))]
    by_cases hend : bytes.length < offset + 16
    · rw [if_pos hend, if_pos ⟨hone, by omega⟩]
      rfl
    · rw [if_neg hend, if_neg (by omega), if_pos hone, if_pos hone,
        bind_ok (addUsize_ok (by omega)), bind_ok (readNumber_ok hbuffer (by omega)),
        List.drop_drop]
      rfl
  · have hroom : ¬(field = 1 ∧ (bytes.drop offset).length < 16) := fun h => hone h.1
    rw [if_neg hone, if_neg hroom, if_neg hone, if_neg hone, hlength]
    split_ifs <;> rfl

theorem fileBoxAt_eq {bytes : Bytes} (hbuffer : Buffer bytes) {offset : Nat}
    (h : offset + 8 ≤ bytes.length) :
    fileBoxAt bytes offset =
      if BigEndian.value ((bytes.drop offset).take 4) = 1 ∧ (bytes.drop offset).length < 16 then
        .ok none
      else if (boxSizeOf (bytes.drop offset)).2 < (boxSizeOf (bytes.drop offset)).1 then .ok none
      else if 2 ^ 64 ≤ offset + (boxSizeOf (bytes.drop offset)).2 then .error .overflow
      else if (bytes.drop offset).length < (boxSizeOf (bytes.drop offset)).2 then .ok none
      else
        .ok (some (((bytes.drop offset).drop 4).take 4,
          ((bytes.drop offset).take (boxSizeOf (bytes.drop offset)).2).drop
            (boxSizeOf (bytes.drop offset)).1,
          offset + (boxSizeOf (bytes.drop offset)).2)) := by
  have hlength : (bytes.drop offset).length = bytes.length - offset := List.length_drop
  have hsmall := hbuffer
  unfold Buffer at hsmall
  unfold fileBoxAt
  rw [bind_ok (addUsize_ok (by omega)), bind_ok (addUsize_ok (by omega)),
    bind_ok (sliceBytes_ok (by omega) (by omega)), bind_ok (boxSizeAt_eq hbuffer h)]
  split_ifs with hroom hshort hpast hend
  · rfl
  · dsimp only
    rw [if_pos hshort]
    rfl
  · dsimp only
    rw [if_neg hshort, bind_error (addUsize_overflow hpast)]
  · dsimp only
    rw [if_neg hshort, bind_ok (addUsize_ok (by omega)), if_pos (by omega)]
    rfl
  · dsimp only
    rw [if_neg hshort, bind_ok (addUsize_ok (by omega)), if_neg (by omega),
      bind_ok (addUsize_ok (by omega)), bind_ok (sliceBytes_ok (by omega) (by omega))]
    simp only [Nat.add_sub_add_left, List.drop_take, List.drop_drop]
    rfl

/-- One turn of the loop over the boxes of a file. -/
theorem isoLoop_succ (n offset : Nat) {rest : Bytes} (h : ¬rest.length < 8) (m : VideoMetadata) :
    isoLoop (n + 1) offset rest m =
      if BigEndian.value (rest.take 4) = 1 ∧ rest.length < 16 then some { m with partially := true }
      else if (boxSizeOf rest).2 < (boxSizeOf rest).1 then some { m with partially := true }
      else if 2 ^ 64 ≤ offset + (boxSizeOf rest).2 then none
      else if rest.length < (boxSizeOf rest).2 then some { m with partially := true }
      else
        isoLoop n (offset + (boxSizeOf rest).2) (rest.drop (boxSizeOf rest).2)
          (visitFile m ((rest.drop 4).take 4)
            ((rest.take (boxSizeOf rest).2).drop (boxSizeOf rest).1)) := by
  rw [isoLoop, if_neg h]
  rfl

theorem boxSizeOf_pos (rest : Bytes) : 8 ≤ (boxSizeOf rest).1 := by
  unfold boxSizeOf
  dsimp only
  split_ifs <;> omega

/-- **Over a buffer the loop computes what it does over the bytes that are left**, and an offset past
64 bits stops it. -/
theorem isoLoopAt_eq {bytes : Bytes} (hbuffer : Buffer bytes) (n offset : Nat)
    (hoffset : offset ≤ bytes.length) (m : VideoMetadata) :
    isoLoopAt n bytes offset m =
      Checked.orError (isoLoop n offset (bytes.drop offset) m) .overflow := by
  induction n generalizing offset m with
  | zero => rfl
  | succ n ih =>
    have hlength : (bytes.drop offset).length = bytes.length - offset := List.length_drop
    have hsmall := hbuffer
    unfold Buffer at hsmall
    have hsum : addUsize offset 8 = .ok (offset + 8) := addUsize_ok (by omega)
    have hheader := boxSizeOf_pos (bytes.drop offset)
    rw [isoLoopAt, bind_ok hsum]
    by_cases hend : bytes.length < offset + 8
    · rw [if_pos hend, isoLoop, if_pos (by omega)]
      rfl
    · have hbox := fileBoxAt_eq hbuffer (show offset + 8 ≤ bytes.length by omega)
      rw [if_neg hend, isoLoop_succ n offset (by omega)]
      split_ifs at hbox ⊢ with hroom hshort hpast hfits
      · rw [bind_ok hbox]
        rfl
      · rw [bind_ok hbox]
        rfl
      · rw [bind_error hbox]
        rfl
      · rw [bind_ok hbox]
        rfl
      · rw [bind_ok hbox]
        dsimp only
        rw [bind_ok (visitFileAt_eq (hbuffer.le (by
          simp only [List.length_drop, List.length_take]
          omega)) m _), if_pos (by omega), ih _ (by omega)]
        simp only [List.drop_drop]

/-! ## Boxes that take the offset past 64 bits -/

/-- What is left starts with a size of eight bytes that takes the offset past 64 bits. -/
def Overlong (offset : Nat) (rest : Bytes) : Prop :=
  16 ≤ rest.length ∧ BigEndian.value (rest.take 4) = 1 ∧
    2 ^ 64 ≤ offset + BigEndian.value ((rest.drop 8).take 8)

theorem part_append {l : Bytes} {a n size : Nat} (h : a + n ≤ size) :
    (l.drop a).take n ++ (l.take size).drop (a + n) = (l.take size).drop a := by
  have hparts := List.take_append_drop n ((l.take size).drop a)
  rwa [List.drop_drop, List.drop_take, List.take_take, Nat.min_eq_left (by omega),
    ← List.drop_take] at hparts

theorem start_append {l : Bytes} {n size : Nat} (h : n ≤ size) :
    l.take n ++ (l.take size).drop n = l.take size := by
  have hparts := List.take_append_drop n (l.take size)
  rwa [List.take_take, Nat.min_eq_left h] at hparts

/-- A complete box at the start of what is left. -/
theorem exists_box {rest : Bytes} (hlong : ¬rest.length < 8)
    (hzero : BigEndian.value (rest.take 4) ≠ 0) (hsize : ¬(boxSizeOf rest).2 < (boxSizeOf rest).1)
    (hfits : ¬rest.length < (boxSizeOf rest).2) :
    ∃ b : IsoBox, b.form ≠ .toEnd ∧ rest = b.encode ++ rest.drop (boxSizeOf rest).2 := by
  have hfield := value_take_lt rest 4
  have hkind : ((rest.drop 4).take 4).length = 4 := by
    rw [List.length_take, List.length_drop]
    omega
  have hstart : BigEndian.encode 4 (BigEndian.value (rest.take 4)) = rest.take 4 := by
    have h := BigEndian.encode_value (rest.take 4)
    rwa [List.length_take, Nat.min_eq_left (by omega)] at h
  unfold boxSizeOf at hsize hfits ⊢
  dsimp only at hsize hfits ⊢
  by_cases hone : BigEndian.value (rest.take 4) = 1
  · -- a size of eight bytes
    rw [if_pos hone, if_pos hone] at hsize
    rw [if_pos hone] at hfits ⊢
    have hlarge : BigEndian.encode 8 (BigEndian.value ((rest.drop 8).take 8)) =
        (rest.drop 8).take 8 := by
      have h := BigEndian.encode_value ((rest.drop 8).take 8)
      rwa [List.length_take, List.length_drop, Nat.min_eq_left (by omega)] at h
    have hbound := value_take_lt (rest.drop 8) 8
    obtain ⟨size, hvalue⟩ : ∃ size, size = BigEndian.value ((rest.drop 8).take 8) := ⟨_, rfl⟩
    rw [← hvalue] at hsize hfits hlarge hbound ⊢
    have hbody : ((rest.take size).drop 16).length + 16 = size := by
      rw [List.length_drop, List.length_take]
      omega
    refine ⟨⟨(rest.drop 4).take 4, .large, (rest.take size).drop 16, hkind,
      (fun h => by cases h), fun _ => ?_⟩, (fun h => by cases h), ?_⟩
    · omega
    · have hfirst : BigEndian.encode 4 1 = rest.take 4 := by rw [← hstart, hone]
      dsimp only [IsoBox.encode, IsoBox.sizeField, IsoBox.largeSize]
      rw [if_pos rfl, hbody, hlarge, hfirst, part_append (by omega : 8 + 8 ≤ size),
        part_append (by omega : 4 + 4 ≤ size), start_append (by omega : 4 ≤ size),
        List.take_append_drop]
  · -- a size of four bytes
    rw [if_neg hone, if_neg hone, if_neg hzero] at hsize
    rw [if_neg hone, if_neg hzero] at hfits ⊢
    obtain ⟨size, hvalue⟩ : ∃ size, size = BigEndian.value (rest.take 4) := ⟨_, rfl⟩
    rw [← hvalue] at hsize hfits hstart hfield ⊢
    have hbody : ((rest.take size).drop 8).length + 8 = size := by
      rw [List.length_drop, List.length_take]
      omega
    refine ⟨⟨(rest.drop 4).take 4, .short, (rest.take size).drop 8, hkind, fun _ => ?_, (fun h => by cases h)⟩,
      (fun h => by cases h), ?_⟩
    · omega
    · dsimp only [IsoBox.encode, IsoBox.sizeField, IsoBox.largeSize]
      rw [if_neg (fun h => by cases h), hbody, hstart, List.nil_append, part_append (by omega : 4 + 4 ≤ size),
        start_append (by omega : 4 ≤ size), List.take_append_drop]

/-- **An offset passes 64 bits exactly when a size of eight bytes takes it there**, behind fewer
complete boxes than may be read. -/
theorem isoLoop_none_iff {rest : Bytes} (n offset : Nat)
    (hsmall : offset + rest.length < 2 ^ 62) (m : VideoMetadata) :
    isoLoop n offset rest m = none ↔
      ∃ (boxes : List IsoBox) (tail : Bytes), rest = encodeBoxes boxes ++ tail ∧
        boxes.length < n ∧ (∀ b ∈ boxes, b.form ≠ .toEnd) ∧
        Overlong (offset + (encodeBoxes boxes).length) tail := by
  constructor
  · intro h
    induction n generalizing rest offset m with
    | zero => cases h
    | succ n ih =>
      have hloop := h
      by_cases hend : rest.length < 8
      · rw [isoLoop, if_pos hend] at h
        cases h
      · rw [isoLoop_succ n offset hend] at h
        split_ifs at h with hroom hsize hpast hfits
        · refine ⟨[], rest, rfl, Nat.succ_pos _, List.forall_mem_nil _, ?_⟩
          have hfield := value_take_lt rest 4
          unfold boxSizeOf at hpast
          dsimp only at hpast
          split_ifs at hpast with hone hzero
          · exact ⟨by omega, hone, hpast⟩
          · omega
          · omega
        · by_cases hzero : BigEndian.value (rest.take 4) = 0
          · -- a box to the end of the file is the last
            have hwhole : (boxSizeOf rest).2 = rest.length := by
              unfold boxSizeOf
              rw [hzero]
              rfl
            rw [hwhole, List.drop_length] at h
            cases n <;> cases h
          · obtain ⟨b, hform, hb⟩ := exists_box hend hzero hsize hfits
            obtain ⟨later, hlater⟩ : ∃ later, later = rest.drop (boxSizeOf rest).2 := ⟨_, rfl⟩
            rw [← hlater] at hb
            subst hb
            rw [isoLoop_cons n offset (fun hform' => absurd hform' hform) (by omega)] at hloop
            rw [List.length_append] at hsmall
            obtain ⟨boxes, tail, rfl, hn, hforms, hlong⟩ := ih _ (by omega) _ hloop
            refine ⟨b :: boxes, tail, ?_, Nat.succ_lt_succ hn,
              List.forall_mem_cons.2 ⟨hform, hforms⟩, ?_⟩
            · rw [encodeBoxes_cons, List.append_assoc]
            · rwa [encodeBoxes_cons, List.length_append, ← Nat.add_assoc]
  · rintro ⟨boxes, tail, rfl, hn, hforms, hlong⟩
    induction boxes generalizing n offset m with
    | nil =>
      cases n with
      | zero => exact absurd hn (Nat.not_lt_zero _)
      | succ n =>
        obtain ⟨hlength, hone, hpast⟩ := hlong
        change offset + tail.length < 2 ^ 62 at hsmall
        change 2 ^ 64 ≤ offset + 0 + _ at hpast
        change isoLoop (n + 1) offset tail m = none
        have hsize : boxSizeOf tail = (16, BigEndian.value ((tail.drop 8).take 8)) := by
          unfold boxSizeOf
          rw [hone]
          rfl
        rw [isoLoop_succ n offset (by omega), if_neg (by omega), hsize,
          if_neg (by dsimp only; omega), if_pos (by dsimp only; omega)]
    | cons b others ih =>
      cases n with
      | zero => exact absurd hn (Nat.not_lt_zero _)
      | succ n =>
        rw [List.forall_mem_cons] at hforms
        rw [encodeBoxes_cons, List.append_assoc] at hsmall ⊢
        rw [encodeBoxes_cons, List.length_append, ← Nat.add_assoc] at hlong
        rw [isoLoop_cons n offset (fun hform => absurd hform hforms.1)
          (hsmall.trans (by norm_num))]
        rw [List.length_append, ← Nat.add_assoc] at hsmall
        exact ih n _ _ hsmall (Nat.lt_of_succ_lt_succ hn) hforms.2 hlong

/-! ## The elements of a file -/

/-- The header at the start of what is left has a size of eight bytes. -/
def longHeader (rest : Bytes) : Bool :=
  match readEbmlId rest with
  | none => false
  | some (_, idLength) =>
      match rest.drop idLength with
      | [] => false
      | first :: others => leadingZeros first = 7 ∧ 8 ≤ (first :: others).length

/-- The elements of a level up to where it breaks off, with those of the levels within; none where a
size of eight bytes is met. -/
def levelElements (inner : Nat → Bytes → Option Nat) (bytes : Bytes) : Option Nat :=
  if bytes = [] then some 0
  else if longHeader bytes then none
  else
    match _h : readHeader bytes with
    | none => some 1
    | some (id, header, size) =>
        let payload := size.getD 0
        if bytes.length < header + payload then some 1
        else do
          let within ← inner id ((bytes.drop header).take payload)
          let later ← levelElements inner (bytes.drop (header + payload))
          some (1 + within + later)
termination_by bytes.length
decreasing_by
  have hpos := readHeader_pos _h
  simp only [List.length_drop]
  omega

/-- The elements of a level without levels of its own. -/
def flatElements (bytes : Bytes) : Option Nat := levelElements (fun _ _ => some 0) bytes

/-- The elements of a `TrackEntry`. -/
def entryElements (bytes : Bytes) : Option Nat :=
  levelElements (fun id body => if id = 0xE0 then flatElements body else some 0) bytes

/-- The elements of `Tracks`. -/
def tracksElements (bytes : Bytes) : Option Nat :=
  levelElements (fun id body => if id = 0xAE then entryElements body else some 0) bytes

/-- The elements of a file or of a Segment, so many of them at most, up to the first Cluster. -/
def segmentElements (elements : Nat) (bytes : Bytes) : Option Nat :=
  if bytes = [] ∨ elements = 0 then some 0
  else if longHeader bytes then none
  else
    match _h : readHeader bytes with
    | none => some 1
    | some (id, header, size) =>
        let stop := (size.map (header + ·)).getD bytes.length
        if bytes.length < header ∨ bytes.length < stop then some 1
        else do
          let body := (bytes.take stop).drop header
          let inside : Option Nat :=
            if id = 0x18538067 then segmentElements maxEbmlElements body
            else if id = 0x1549A966 then flatElements body
            else if id = 0x1654AE6B then tracksElements body
            else some 0
          let within ← inside
          if id = 0x1F43B675 then some 1
          else
            let later ← segmentElements (elements - 1) (bytes.drop stop)
            some (1 + within + later)
termination_by bytes.length
decreasing_by
  all_goals
    have hpos := readHeader_pos _h
    simp only [List.length_drop, List.length_take]
    cases size <;> simp only [Option.map_none, Option.map_some, Option.getD_none,
      Option.getD_some] <;> omega

/-- What a loop returns with its turns, when it meets no size of eight bytes. -/
def counted {σ : Type} (s : σ) : Option Nat → Except Fault (σ × Nat)
  | some turns => .ok (s, turns)
  | none => .error .shift

theorem counted_some {σ : Type} (s : σ) (turns : Nat) : counted s (some turns) = .ok (s, turns) := rfl

theorem readEbmlId_length {bytes : Bytes} {id idLength : Nat}
    (h : readEbmlId bytes = some (id, idLength)) : idLength ≤ 4 ∧ idLength ≤ bytes.length := by
  cases bytes with
  | nil => exact nomatch h
  | cons first rest =>
    unfold readEbmlId at h
    dsimp only at h
    split_ifs at h with hfits
    obtain ⟨-, rfl⟩ := Prod.mk.inj (Option.some.inj h)
    exact hfits

/-- A size is read of at most eight bytes, and of less it is below `2 ^ 56`. -/
theorem readEbmlSize_bounds {first : UInt8} {rest : Bytes} {size : Option Nat} {length : Nat}
    (h : readEbmlSize (first :: rest) = some (size, length)) :
    length = leadingZeros first + 1 ∧ length ≤ 8 ∧ length ≤ (first :: rest).length ∧
      (leadingZeros first ≠ 7 → size.getD 0 < 2 ^ 56) := by
  unfold readEbmlSize at h
  dsimp only at h
  split_ifs at h with hfits hunknown
  · obtain ⟨rfl, rfl⟩ := Prod.mk.inj (Option.some.inj h)
    exact ⟨rfl, hfits.1, hfits.2, fun _ => by norm_num⟩
  · obtain ⟨rfl, rfl⟩ := Prod.mk.inj (Option.some.inj h)
    refine ⟨rfl, hfits.1, hfits.2, fun hshort => ?_⟩
    refine (BigEndian.value_lt _).trans_le ?_
    have hwidth : ((first &&& (0xFF : UInt8) >>> UInt8.ofNat (leadingZeros first + 1)) ::
        rest.take (leadingZeros first + 1 - 1)).length ≤ 7 := by
      rw [List.length_cons, List.length_take]
      omega
    exact (Nat.pow_le_pow_right (by norm_num) hwidth).trans (by norm_num)

theorem readEbmlSizeAt_cons (first : UInt8) (rest : Bytes) :
    readEbmlSizeAt (first :: rest) =
      if leadingZeros first = 7 ∧ 8 ≤ (first :: rest).length then .error .shift
      else .ok (readEbmlSize (first :: rest)) := by
  unfold readEbmlSizeAt readEbmlSize
  dsimp only
  by_cases hfits : leadingZeros first + 1 ≤ 8 ∧ leadingZeros first + 1 ≤ (first :: rest).length
  · rw [if_pos hfits, if_pos hfits]
    by_cases hlong : leadingZeros first = 7
    · have hshift : shiftRight 0xFF (leadingZeros first + 1) = .error .shift := if_neg (by omega)
      rw [if_pos ⟨hlong, by omega⟩, bind_error hshift]
    · have hshift : shiftRight 0xFF (leadingZeros first + 1) =
          .ok (0xFF >>> UInt8.ofNat (leadingZeros first + 1)) := if_pos (by omega)
      rw [if_neg fun h => hlong h.1, bind_ok hshift]
      split_ifs <;> rfl
  · rw [if_neg hfits, if_neg hfits, if_neg (by omega)]

/-- **A header is read at an offset as it is over the bytes that are left**, but for a size of eight
bytes. -/
theorem headerAt_eq {bytes : Bytes} (hbuffer : Buffer bytes) {offset : Nat}
    (hoffset : offset ≤ bytes.length) :
    headerAt bytes offset =
      if longHeader (bytes.drop offset) then .error .shift
      else .ok (readHeader (bytes.drop offset)) := by
  have hsmall := hbuffer
  unfold Buffer at hsmall
  have hlength : (bytes.drop offset).length = bytes.length - offset := List.length_drop
  have hhere : sliceBytes bytes offset bytes.length = .ok (bytes.drop offset) := by
    rw [sliceBytes_ok hoffset le_rfl, List.take_of_length_le hlength.le]
  unfold headerAt
  rw [bind_ok hhere]
  cases hid : readEbmlId (bytes.drop offset) with
  | none =>
    have hlong : longHeader (bytes.drop offset) = false := by
      unfold longHeader
      rw [hid]
    have hread : readHeader (bytes.drop offset) = none := by
      unfold readHeader
      rw [hid]
    rw [hlong, hread]
    rfl
  | some found =>
    obtain ⟨id, idLength⟩ := found
    have hfits := readEbmlId_length hid
    have hthere : sliceBytes bytes (offset + idLength) bytes.length =
        .ok ((bytes.drop offset).drop idLength) := by
      rw [sliceBytes_ok (by omega) le_rfl, List.drop_drop, List.take_of_length_le]
      rw [List.length_drop]
    unfold readHeader
    rw [hid]
    dsimp only
    rw [bind_ok (addUsize_ok (by omega)), bind_ok hthere]
    cases hrest : (bytes.drop offset).drop idLength with
    | nil =>
      have hlong : longHeader (bytes.drop offset) = false := by
        unfold longHeader
        rw [hid]
        dsimp only
        rw [hrest]
      rw [hlong]
      rfl
    | cons first others =>
      have hlong : longHeader (bytes.drop offset) =
          decide (leadingZeros first = 7 ∧ 8 ≤ (first :: others).length) := by
        unfold longHeader
        rw [hid]
        dsimp only
        rw [hrest]
      rw [readEbmlSizeAt_cons, hlong]
      by_cases height : leadingZeros first = 7 ∧ 8 ≤ (first :: others).length
      · rw [if_pos height, if_pos (decide_eq_true height)]
        rfl
      · rw [if_neg height, if_neg (by simpa using height)]
        cases hsize : readEbmlSize (first :: others) with
        | none => rfl
        | some read =>
          obtain ⟨size, sizeLength⟩ := read
          have hbounds := readEbmlSize_bounds hsize
          change (addUsize idLength sizeLength >>= fun header => pure (some (id, header, size))) = _
          rw [bind_ok (addUsize_ok (by omega))]
          rfl

/-- The size in a header that is not of eight bytes is far below the largest offset. -/
theorem readHeader_bounds {rest : Bytes} (hshort : longHeader rest = false) {id header : Nat}
    {size : Option Nat} (h : readHeader rest = some (id, header, size)) :
    header ≤ 12 ∧ header ≤ rest.length ∧ size.getD 0 < 2 ^ 56 := by
  unfold readHeader at h
  unfold longHeader at hshort
  cases hid : readEbmlId rest with
  | none =>
    rw [hid] at h
    exact nomatch h
  | some found =>
    obtain ⟨id', idLength⟩ := found
    have hfits := readEbmlId_length hid
    rw [hid] at h hshort
    dsimp only at h hshort
    cases hrest : rest.drop idLength with
    | nil =>
      rw [hrest] at h
      exact nomatch h
    | cons first others =>
      have hlength : (first :: others).length = rest.length - idLength := by
        rw [← hrest, List.length_drop]
      rw [hrest] at h hshort
      cases hsize : readEbmlSize (first :: others) with
      | none =>
        rw [hsize] at h
        exact nomatch h
      | some read =>
        obtain ⟨size', sizeLength⟩ := read
        rw [hsize] at h
        obtain ⟨-, hpair⟩ := Prod.mk.inj (Option.some.inj h)
        obtain ⟨rfl, rfl⟩ := Prod.mk.inj hpair
        obtain ⟨hzeros, hmax, hin, hvalue⟩ := readEbmlSize_bounds hsize
        refine ⟨by omega, by omega, hvalue fun hseven => ?_⟩
        exact of_decide_eq_false hshort ⟨hseven, by omega⟩

/-! ## The loops over elements -/

/-- **Over a buffer the loop over elements computes what it does over the bytes that are left**, and
counts them, where its visits do. -/
theorem eachElementAt_eq {σ : Type} {visitAt : σ → Nat → Bytes → Except Fault (σ × Nat)}
    {visit : σ → Nat → Bytes → σ} {inner : Nat → Bytes → Option Nat} {bytes : Bytes}
    (hbuffer : Buffer bytes)
    (hvisit : ∀ s id body, Buffer body →
      visitAt s id body = counted (visit s id body) (inner id body))
    (offset : Nat) (hoffset : offset ≤ bytes.length) (s : σ) :
    eachElementAt visitAt bytes offset s =
      counted (eachElement visit (bytes.drop offset) s)
        (levelElements inner (bytes.drop offset)) := by
  have hsmall := hbuffer
  unfold Buffer at hsmall
  induction hleft : bytes.length - offset using Nat.strong_induction_on generalizing offset s with
  | _ left ih =>
    have hlength : (bytes.drop offset).length = bytes.length - offset := List.length_drop
    rw [eachElementAt]
    by_cases hend : bytes.length ≤ offset
    · have hnil : bytes.drop offset = [] := List.drop_eq_nil_of_le hend
      rw [if_neg (Nat.not_lt.2 hend), hnil, levelElements, if_pos rfl, eachElement]
      rfl
    · have hcons : bytes.drop offset ≠ [] := fun hnil => by
        rw [hnil, List.length_nil] at hlength
        omega
      rw [if_pos (Nat.not_le.1 hend), levelElements, if_neg hcons]
      have hheader := headerAt_eq hbuffer hoffset
      unfold elementAt
      cases hlong : longHeader (bytes.drop offset) with
      | true =>
        rw [hlong, if_pos rfl] at hheader
        rw [bind_error (bind_error hheader), if_pos rfl]
        rfl
      | false =>
        rw [hlong, if_neg Bool.false_ne_true] at hheader
        rw [if_neg Bool.false_ne_true, bind_ok hheader, eachElement]
        cases hread : readHeader (bytes.drop offset) with
        | none => rfl
        | some found =>
          obtain ⟨id, header, size⟩ := found
          obtain ⟨hshort, hin, hsize⟩ := readHeader_bounds hlong hread
          have hpos := (readHeader_pos hread).1
          dsimp only
          rw [bind_ok (addUsize_ok (by omega)), bind_ok (addUsize_ok (by omega))]
          by_cases hpast : bytes.length < offset + header + size.getD 0
          · rw [if_pos hpast, if_pos (by omega), if_pos (by omega)]
            rfl
          · have hbody : sliceBytes bytes (offset + header) (offset + header + size.getD 0) =
                .ok (((bytes.drop offset).drop header).take (size.getD 0)) := by
              rw [sliceBytes_ok (by omega) (by omega), List.drop_drop, Nat.add_sub_cancel_left]
            rw [if_neg hpast, if_neg (by omega), if_neg (by omega), bind_ok hbody,
              bind_ok (addUsize_ok (by omega)), bind_ok (addUsize_ok (by omega))]
            have hrest : (bytes.drop offset).drop (header + size.getD 0) =
                bytes.drop (offset + (header + size.getD 0)) := List.drop_drop ..
            obtain ⟨body, hbody⟩ : ∃ body, body =
                ((bytes.drop offset).drop header).take (size.getD 0) := ⟨_, rfl⟩
            rw [hrest, ← hbody]
            have hvisited := hvisit s id body (hbuffer.le (by
              rw [hbody]
              simp only [List.length_take, List.length_drop]
              omega))
            have hlater := ih (bytes.length - (offset + (header + size.getD 0))) (by omega)
              (offset + (header + size.getD 0)) (by omega) (visit s id body) rfl
            change (visitAt s id body >>= _) = _
            rw [hvisited]
            cases inner id body with
            | none => rfl
            | some within =>
              rw [bind_ok (counted_some ..), if_pos (by omega), hlater]
              cases levelElements inner (bytes.drop (offset + (header + size.getD 0))) <;> rfl

theorem flatAt_eq {σ : Type} {visit : σ → Nat → Bytes → σ} {bytes : Bytes}
    (hbuffer : Buffer bytes) (s : σ) :
    eachElementAt (visiting visit) bytes 0 s =
      counted (eachElement visit bytes s) (flatElements bytes) :=
  @eachElementAt_eq σ (visiting visit) visit (fun _ _ => some 0) bytes hbuffer
    (fun _ _ _ _ => rfl) 0 (Nat.zero_le _) s

theorem parseTrackEntryAt_eq {bytes : Bytes} (hbuffer : Buffer bytes) (m : VideoMetadata) :
    parseTrackEntryAt bytes m = counted (parseTrackEntry bytes m) (entryElements bytes) := by
  have hloop := @eachElementAt_eq TrackEntry visitTrackEntryAt visitTrackEntry
    (fun id body => if id = 0xE0 then flatElements body else some 0) bytes hbuffer
    (fun t id body hbody => by
      unfold visitTrackEntryAt visitTrackEntry
      by_cases htype : id = 0x83 ∧ body ≠ []
      · rw [if_pos htype, if_pos htype, if_neg (by omega)]
        rfl
      · rw [if_neg htype, if_neg htype]
        by_cases hcodec : id = 0x86
        · rw [if_pos hcodec, if_pos hcodec, if_neg (by omega)]
          rfl
        · rw [if_neg hcodec, if_neg hcodec]
          split_ifs
          · exact flatAt_eq hbody t
          · rfl) 0 (Nat.zero_le _) {}
  rw [List.drop_zero] at hloop
  unfold parseTrackEntryAt parseTrackEntry entryElements
  rw [hloop]
  cases levelElements (fun id body => if id = 0xE0 then flatElements body else some 0) bytes <;> rfl

theorem parseTracksAt_eq {bytes : Bytes} (hbuffer : Buffer bytes) (m : VideoMetadata) :
    parseTracksAt bytes m = counted (parseTracks bytes m) (tracksElements bytes) := by
  refine eachElementAt_eq hbuffer (fun m id body hbody => ?_) 0 (Nat.zero_le _) m
  unfold visitTracksAt visitTracks
  split_ifs
  · exact parseTrackEntryAt_eq hbody m
  · rfl

/-- The element of a file or of a Segment at the start of what is left. -/
def segmentElementOf (rest : Bytes) (offset : Nat) : Option (Nat × Bytes × Nat) :=
  match readHeader rest with
  | none => none
  | some (id, header, size) =>
      let stop := (size.map (header + ·)).getD rest.length
      if rest.length < header ∨ rest.length < stop then none
      else some (id, (rest.take stop).drop header, offset + stop)

theorem segmentElementAt_eq {bytes : Bytes} (hbuffer : Buffer bytes) {offset : Nat}
    (hoffset : offset ≤ bytes.length) :
    segmentElementAt bytes offset =
      if longHeader (bytes.drop offset) then .error .shift
      else .ok (segmentElementOf (bytes.drop offset) offset) := by
  have hsmall := hbuffer
  unfold Buffer at hsmall
  have hlength : (bytes.drop offset).length = bytes.length - offset := List.length_drop
  have hheader := headerAt_eq hbuffer hoffset
  unfold segmentElementAt segmentElementOf
  cases hlong : longHeader (bytes.drop offset) with
  | true =>
    rw [hlong, if_pos rfl] at hheader
    rw [bind_error hheader, if_pos rfl]
  | false =>
    rw [hlong, if_neg Bool.false_ne_true] at hheader
    rw [if_neg Bool.false_ne_true, bind_ok hheader]
    cases hread : readHeader (bytes.drop offset) with
    | none => rfl
    | some found =>
      obtain ⟨id, header, size⟩ := found
      obtain ⟨hshort, hin, hsize⟩ := readHeader_bounds hlong hread
      dsimp only
      rw [bind_ok (addUsize_ok (by omega)), if_neg (by omega)]
      cases size with
      | none =>
        dsimp only [Option.map_none, Option.getD_none]
        rw [pure_bind, if_neg (Nat.lt_irrefl _), bind_ok (sliceBytes_ok (by omega) le_rfl)]
        rw [if_neg (by omega), List.take_length, List.drop_drop, List.take_of_length_le (by
          rw [List.length_drop]), hlength, Nat.add_sub_cancel' hoffset]
        rfl
      | some value =>
        dsimp only [Option.map_some, Option.getD_some] at hsize ⊢
        rw [bind_ok (addUsize_ok (by omega))]
        by_cases hpast : bytes.length < offset + header + value
        · rw [if_pos hpast, if_pos (by omega)]
          rfl
        · rw [if_neg hpast, if_neg (by omega), bind_ok (sliceBytes_ok (by omega) (by omega)),
            List.drop_take, List.drop_drop, Nat.add_sub_cancel_left, Nat.add_sub_cancel_left,
            Nat.add_assoc]
          rfl

/-- What an element of a file or of a Segment adds. -/
def visitElement (m : VideoMetadata) (id : Nat) (body : Bytes) : VideoMetadata :=
  if id = 0x18538067 then m.merge (matroskaLoop maxEbmlElements body .matroska)
  else if id = 0x1549A966 then parseSegmentInfo body m
  else if id = 0x1654AE6B then parseTracks body m
  else m

/-- The elements within an element of a file or of a Segment. -/
def elementsWithin (id : Nat) (body : Bytes) : Option Nat :=
  if id = 0x18538067 then segmentElements maxEbmlElements body
  else if id = 0x1549A966 then flatElements body
  else if id = 0x1654AE6B then tracksElements body
  else some 0

/-- One turn of the loop over a file or a Segment. -/
theorem matroskaLoop_turn {n : Nat} {rest : Bytes} (hrest : ¬(rest = [] ∨ n = 0)) (offset : Nat)
    (m : VideoMetadata) :
    matroskaLoop n rest m =
      match segmentElementOf rest offset with
      | none => { m with partially := true }
      | some (id, body, next) =>
          if id = 0x1F43B675 then m
          else matroskaLoop (n - 1) (rest.drop (next - offset)) (visitElement m id body) := by
  rw [matroskaLoop, if_neg hrest]
  unfold segmentElementOf visitElement
  cases readHeader rest with
  | none => rfl
  | some found =>
    obtain ⟨id, header, size⟩ := found
    dsimp only
    obtain ⟨stop, hstop⟩ : ∃ stop, stop = (size.map (header + ·)).getD rest.length := ⟨_, rfl⟩
    rw [← hstop]
    by_cases hpast : rest.length < header ∨ rest.length < stop
    · rw [if_pos hpast, if_pos hpast]
    · rw [if_neg hpast, if_neg hpast]
      dsimp only
      rw [Nat.add_sub_cancel_left]
      by_cases hcluster : id = 0x1F43B675
      · rw [hcluster, if_neg (by decide), if_neg (by decide), if_neg (by decide), if_pos rfl,
          if_pos rfl]
      · rw [if_neg hcluster, if_neg hcluster]
        split_ifs <;> rfl

/-- The same turn, counted. -/
theorem segmentElements_turn {n : Nat} {rest : Bytes} (hrest : ¬(rest = [] ∨ n = 0))
    (hshort : longHeader rest = false) (offset : Nat) :
    segmentElements n rest =
      (match segmentElementOf rest offset with
      | none => some 1
      | some (id, body, next) => do
          let within ← elementsWithin id body
          if id = 0x1F43B675 then some 1
          else
            let later ← segmentElements (n - 1) (rest.drop (next - offset))
            some (1 + within + later)) := by
  rw [segmentElements, if_neg hrest, hshort, if_neg Bool.false_ne_true]
  unfold segmentElementOf elementsWithin
  cases readHeader rest with
  | none => rfl
  | some found =>
    obtain ⟨id, header, size⟩ := found
    dsimp only
    obtain ⟨stop, hstop⟩ : ∃ stop, stop = (size.map (header + ·)).getD rest.length := ⟨_, rfl⟩
    rw [← hstop]
    by_cases hpast : rest.length < header ∨ rest.length < stop
    · rw [if_pos hpast, if_pos hpast]
    · rw [if_neg hpast, if_neg hpast]
      dsimp only
      rw [Nat.add_sub_cancel_left]

/-- An element lies behind its header and ends behind the offset. -/
theorem segmentElementOf_bounds {rest : Bytes} {offset id next : Nat} {body : Bytes}
    (h : segmentElementOf rest offset = some (id, body, next)) :
    body.length < rest.length ∧ offset < next ∧ next ≤ offset + rest.length := by
  unfold segmentElementOf at h
  cases hread : readHeader rest with
  | none =>
    rw [hread] at h
    exact nomatch h
  | some found =>
    obtain ⟨id', header, size⟩ := found
    have hpos := readHeader_pos hread
    rw [hread] at h
    dsimp only at h
    obtain ⟨stop, hstop⟩ : ∃ stop, stop = (size.map (header + ·)).getD rest.length := ⟨_, rfl⟩
    rw [← hstop] at h
    split_ifs at h with hpast
    obtain ⟨-, hpair⟩ := Prod.mk.inj (Option.some.inj h)
    obtain ⟨rfl, rfl⟩ := Prod.mk.inj hpair
    have hheader : header ≤ stop := by
      rw [hstop]
      cases size with
      | none => exact Nat.le_of_not_lt (not_or.1 hpast).1
      | some value => exact Nat.le_add_right _ _
    simp only [List.length_drop, List.length_take]
    omega

/-- **Over a buffer a file or a Segment is parsed as it is over the bytes that are left**, and its
elements are counted, those of Segments within it included. -/
theorem matroskaLoopAt_eq {bytes : Bytes} (hbuffer : Buffer bytes) (n offset : Nat)
    (hoffset : offset ≤ bytes.length) (m : VideoMetadata) :
    matroskaLoopAt n bytes offset m =
      counted (matroskaLoop n (bytes.drop offset) m) (segmentElements n (bytes.drop offset)) := by
  induction htotal : bytes.length using Nat.strong_induction_on generalizing bytes n offset m with
  | _ total nested =>
    induction hleft : total - offset using Nat.strong_induction_on generalizing n offset m with
    | _ left ih =>
      have hlength : (bytes.drop offset).length = bytes.length - offset := List.length_drop
      rw [matroskaLoopAt]
      by_cases hend : offset < bytes.length ∧ n ≠ 0
      · have hrest : ¬(bytes.drop offset = [] ∨ n = 0) := by
          rintro (hnil | hzero)
          · rw [hnil, List.length_nil] at hlength
            omega
          · exact hend.2 hzero
        have helement := segmentElementAt_eq hbuffer hoffset
        rw [if_pos hend]
        cases hlong : longHeader (bytes.drop offset) with
        | true =>
          rw [hlong, if_pos rfl] at helement
          rw [bind_error helement, segmentElements, if_neg hrest, hlong, if_pos rfl]
          rfl
        | false =>
          rw [hlong, if_neg Bool.false_ne_true] at helement
          rw [bind_ok helement, matroskaLoop_turn hrest offset,
            segmentElements_turn hrest hlong offset]
          cases hfound : segmentElementOf (bytes.drop offset) offset with
          | none => rfl
          | some found =>
            obtain ⟨id, body, next⟩ := found
            obtain ⟨hshorter, hnext, hin⟩ := segmentElementOf_bounds hfound
            have hbody : Buffer body := hbuffer.le (by omega)
            have hrest : (bytes.drop offset).drop (next - offset) = bytes.drop next := by
              rw [List.drop_drop, Nat.add_sub_cancel' hnext.le]
            -- what the element adds, with the elements within it
            have hvisit : (if id = 0x18538067 then
                if body.length < bytes.length then
                  matroskaLoopAt maxEbmlElements body 0 .matroska >>= fun found =>
                    pure (m.merge found.1, found.2)
                else .error .stuck
              else if id = 0x1549A966 then parseSegmentInfoAt body m
              else if id = 0x1654AE6B then parseTracksAt body m
              else pure (m, 0)) = counted (visitElement m id body) (elementsWithin id body) := by
              unfold visitElement elementsWithin
              split_ifs with hsegment hinner hinfo htracks
              · have hnested := nested body.length (by omega) hbody maxEbmlElements 0
                  (Nat.zero_le _) .matroska rfl
                rw [List.drop_zero] at hnested
                rw [hnested]
                cases segmentElements maxEbmlElements body <;> rfl
              · omega
              · exact flatAt_eq hbody m
              · exact parseTracksAt_eq hbody m
              · rfl
            have hlater := ih (total - next) (by omega) (n - 1) next (by omega)
              (visitElement m id body) rfl
            dsimp only
            rw [hrest, hvisit]
            cases elementsWithin id body with
            | none => rfl
            | some within =>
              rw [bind_ok (counted_some ..)]
              dsimp only
              by_cases hcluster : id = 0x1F43B675
              · have hsame : visitElement m id body = m := by
                  rw [visitElement, hcluster]
                  rfl
                rw [if_pos hcluster, if_pos hcluster, hsame]
                simp only [if_pos hcluster]
                rfl
              · rw [if_neg hcluster, if_neg hcluster, if_pos hnext, hlater]
                simp only [if_neg hcluster]
                cases segmentElements (n - 1) (bytes.drop next) <;> rfl
      · have hrest : bytes.drop offset = [] ∨ n = 0 := by
          by_cases hzero : n = 0
          · exact .inr hzero
          · exact .inl (List.drop_eq_nil_of_le (by omega))
        rw [if_neg hend, matroskaLoop, if_pos hrest, segmentElements, if_pos hrest]
        rfl

/-! ## Hostile bytes -/

/-- Both parsers end without a fault, and the one for Matroska takes no more turns in all than one
level may have elements. -/
def ParsersTotal (bytes : Bytes) : Prop :=
  (∃ m, parseIsoBmffMetadataAt bytes = .ok m) ∧
    ∃ m turns, parseMatroskaMetadataAt bytes = .ok (m, turns) ∧ turns ≤ maxEbmlElements

/-- Behind fewer complete boxes than may be read there is a size of eight bytes that takes the offset
past 64 bits. -/
def HasOverlongBox (bytes : Bytes) : Prop :=
  ∃ (boxes : List IsoBox) (tail : Bytes), bytes = encodeBoxes boxes ++ tail ∧
    boxes.length < maxBoxes ∧ (∀ b ∈ boxes, b.form ≠ .toEnd) ∧
    Overlong (encodeBoxes boxes).length tail

/-- **The video parsers are total on hostile bytes exactly when no box takes the offset past 64 bits,
no size of eight bytes stands where one is read of an element, and the elements of all levels
together are no more than one level may have.** -/
theorem parsersTotal_iff {bytes : Bytes} (h : bytes.length ≤ maxScanBytes) :
    ParsersTotal bytes ↔
      ¬HasOverlongBox bytes ∧
        ∃ n ≤ maxEbmlElements, segmentElements maxEbmlElements bytes = some n := by
  have hbuffer : Buffer bytes := h.trans_lt (by norm_num [maxScanBytes])
  have hsmall : 0 + bytes.length < 2 ^ 62 := (Nat.zero_add _).trans_lt hbuffer
  have hiso := isoLoopAt_eq hbuffer maxBoxes 0 (Nat.zero_le _) { container := "iso_bmff" }
  have hnone := isoLoop_none_iff maxBoxes 0 hsmall { container := "iso_bmff" }
  have hmatroska := matroskaLoopAt_eq hbuffer maxEbmlElements 0 (Nat.zero_le _) .matroska
  rw [List.drop_zero] at hiso hmatroska
  simp only [Nat.zero_add] at hnone
  refine and_congr ?_ ?_
  · unfold parseIsoBmffMetadataAt HasOverlongBox
    rw [← hnone]
    cases hloop : isoLoop maxBoxes 0 bytes { container := "iso_bmff" } with
    | none =>
      rw [hloop] at hiso
      rw [bind_error hiso]
      exact iff_of_false (fun ⟨m, hm⟩ => nomatch hm) fun hsome => hsome rfl
    | some m =>
      rw [hloop] at hiso
      rw [bind_ok hiso]
      exact iff_of_true ⟨_, rfl⟩ nofun
  · unfold parseMatroskaMetadataAt
    rw [hmatroska]
    constructor
    · rintro ⟨m, turns, hok, hturns⟩
      cases hcount : segmentElements maxEbmlElements bytes with
      | none =>
        rw [hcount] at hok
        exact nomatch hok
      | some n =>
        rw [hcount] at hok
        obtain ⟨-, rfl⟩ := Prod.mk.inj (Except.ok.inj hok)
        exact ⟨n, hturns, rfl⟩
    · rintro ⟨n, hn, hcount⟩
      rw [hcount]
      exact ⟨_, n, rfl, hn⟩

/-- Two Segments, one within the other, hold two elements and no box that is too long. -/
theorem nestedSegments_total :
    ¬HasOverlongBox [0x18, 0x53, 0x80, 0x67, 0x85, 0x18, 0x53, 0x80, 0x67, 0x80] ∧
      ∃ n ≤ maxEbmlElements, segmentElements maxEbmlElements
        [0x18, 0x53, 0x80, 0x67, 0x85, 0x18, 0x53, 0x80, 0x67, 0x80] = some n :=
  (parsersTotal_iff (by decide)).1
    ⟨⟨{ container := "iso_bmff", partially := true }, by decide +kernel⟩,
      .matroska, 2, (matroskaLoopAt_eq (by unfold Buffer; decide) maxEbmlElements 0 (Nat.zero_le _)
        .matroska).trans (by decide +kernel), by decide⟩

/-- A box of eight bytes, and one with a size of `2 ^ 64 - 1`. -/
def hostileBoxes : Bytes :=
  [0, 0, 0, 8] ++ ascii "free" ++ [0, 0, 0, 1] ++ ascii "mdat" ++ List.replicate 8 0xFF

/-- The offset behind them overflows. -/
theorem hostileBoxes_overflow :
    parseIsoBmffMetadataAt hostileBoxes = .error .overflow ∧ ¬ParsersTotal hostileBoxes := by
  have hfault : parseIsoBmffMetadataAt hostileBoxes = .error .overflow := by decide +kernel
  refine ⟨hfault, fun h => ?_⟩
  obtain ⟨m, hm⟩ := h.1
  rw [hfault] at hm
  exact nomatch hm

end Zemo.Extraction
