import Zemo.ExecutorV2.Auth
import Zemo.Lib.Numerals
import Zemo.Lib.Streams

set_option autoImplicit false

/-! # Frames on the executor pipe

`write_frame`, and `read_frame` with the calls it makes: one byte is asked for until it is there or
the stream ends, the rest by `read_exact`. The reader hands out the bytes in pieces of its own
choice. `Pieces.readFrame_eq` says that the pieces do not matter, so that what a frame on the stream
means is shown over its bytes. -/

namespace Zemo.ExecutorV2

open Streams

/-- The JSON texts of values and what is read back from a text. -/
structure Json (T : Type) where
  toVec : T → Option (List UInt8)
  fromSlice : List UInt8 → Option T

/-- Decoding an encoded value gives the value. -/
def Json.Faithful {T : Type} (json : Json T) : Prop :=
  ∀ value payload, json.toVec value = some payload → json.fromSlice payload = some value

variable {T : Type} (json : Json T)

/-- `write_frame`: what it returns, and the writer after it. -/
def writeFrame (writer : Streams.Writer UInt8 String) (value : T) :
    Except FrameError Unit × Streams.Writer UInt8 String :=
  match json.toVec value with
  | none => (.error .encode, writer)
  | some payload =>
    if payload.isEmpty || maxFrameBytes < payload.length then (.error .oversized, writer)
    -- the length as a `u32`
    else if 2 ^ 32 ≤ payload.length then (.error .oversized, writer)
    else
      match writer.writeAll (BigEndian.encode 4 payload.length) with
      | (some error, writer) => (.error (.io error), writer)
      | (none, writer) =>
        match writer.writeAll payload with
        | (some error, writer) => (.error (.io error), writer)
        | (none, writer) =>
          match writer.flush with
          | (some error, writer) => (.error (.io error), writer)
          | (none, writer) => (.ok (), writer)

/-- Frames written one after the other, until one is refused. -/
def writeFrames (writer : Streams.Writer UInt8 String) :
    List T → Except FrameError Unit × Streams.Writer UInt8 String
  | [] => (.ok (), writer)
  | value :: values =>
    match writeFrame json writer value with
    | (.error error, writer) => (.error error, writer)
    | (.ok (), writer) => writeFrames writer values

namespace Pieces

/-- The loop for the first byte of a header, `none` at the end of the stream. -/
def readFirst (reader : Streams.Reader UInt8 String) :
    Except FrameError (Option UInt8) × Streams.Reader UInt8 String :=
  match _h : reader.read 1 with
  | (.interrupted, next) => readFirst next
  | (.failed error, next) => (.error (.io error), next)
  | (.piece [], next) => (.ok none, next)
  | (.piece (first :: _), next) => (.ok (some first), next)
termination_by reader.answers.length
decreasing_by exact Reader.read_interrupted_lt _h

/-- How a failure of `read_exact` is reported. -/
def frameError : ReadFailure String → FrameError
  | .unexpectedEof => .truncated
  | .failed error => .io error

/-- `read_frame`: what it returns, and the reader after it. -/
def readFrame (decode : List UInt8 → Option T) (reader : Streams.Reader UInt8 String) :
    Except FrameError (Option T) × Streams.Reader UInt8 String :=
  match readFirst reader with
  | (.error error, reader) => (.error error, reader)
  | (.ok none, reader) => (.ok none, reader)
  | (.ok (some first), reader) =>
    match reader.readExact 3 with
    | (.error failure, reader) => (.error (frameError failure), reader)
    | (.ok others, reader) =>
      let length := bigEndian (first :: others)
      if length = 0 ∨ maxFrameBytes < length then (.error .oversized, reader)
      else
        match reader.readExact length with
        | (.error failure, reader) => (.error (frameError failure), reader)
        | (.ok payload, reader) =>
          match decode payload with
          | some frame => (.ok (some frame), reader)
          | none => (.error .decode, reader)

/-- What so many calls of `read_frame` return. -/
def readFrames (decode : List UInt8 → Option T) :
    Nat → Streams.Reader UInt8 String → List (Except FrameError (Option T))
  | 0, _ => []
  | calls + 1, reader =>
    (readFrame decode reader).1 :: readFrames decode calls (readFrame decode reader).2

end Pieces

/-! ## The pieces do not matter -/

/-- The stream of the bytes one by one. -/
def events (bytes : List UInt8) : List ReadEvent := bytes.map .byte

@[simp] theorem events_cons (first : UInt8) (rest : List UInt8) :
    events (first :: rest) = .byte first :: events rest := rfl

/-- As many bytes as are asked for, when there are so many. -/
theorem readExact_events_ok {size : Nat} {bytes : List UInt8} (h : size ≤ bytes.length) :
    readExact (events bytes) size = (.ok (bytes.take size), events (bytes.drop size)) := by
  induction size generalizing bytes with
  | zero => rw [readExact, List.take_zero, List.drop_zero]
  | succ size ih =>
    cases bytes with
    | nil => cases h
    | cons first rest =>
      rw [events_cons, readExact, ih (Nat.le_of_succ_le_succ h)]
      rfl

theorem readExact_events_short {size : Nat} {bytes : List UInt8} (h : bytes.length < size) :
    readExact (events bytes) size = (.error .truncated, []) := by
  induction size generalizing bytes with
  | zero => cases h
  | succ size ih =>
    cases bytes with
    | nil => rfl
    | cons first rest =>
      rw [events_cons, readExact, ih (Nat.lt_of_succ_lt_succ h)]
      rfl

namespace Pieces

variable {reader : Streams.Reader UInt8 String}

/-- The first byte is the first byte of the stream. -/
theorem readFirst_eq (hsteady : reader.Steady) :
    ∃ answers, Reader.Steady (⟨reader.rest.tail, answers⟩ : Streams.Reader UInt8 String) ∧
      readFirst reader = (.ok reader.rest.head?, ⟨reader.rest.tail, answers⟩) := by
  induction hleft : reader.answers.length using Nat.strong_induction_on generalizing reader with
  | _ left ih =>
  rw [readFirst]
  rcases reader.read_cases Nat.one_pos with ⟨served, answers, hread, hpos, hone, hsuffix⟩ |
    ⟨answers, hread, hhead⟩ | ⟨error, answers, _, hhead⟩
  · obtain rfl : served = 1 := by omega
    refine ⟨answers, hsteady.of_suffix hsuffix, ?_⟩
    cases hrest : reader.rest with
    | nil =>
      rw [hrest] at hread
      split <;> rename_i hcase <;> rw [hread] at hcase <;> cases hcase
      rfl
    | cons first rest =>
      rw [hrest] at hread
      split <;> rename_i hcase <;> rw [hread] at hcase <;> cases hcase
      rfl
  · -- an interrupted call is made again
    have hsuffix : answers <:+ reader.answers := hhead ▸ List.suffix_cons _ _
    have hlt : answers.length < left := by
      rw [← hleft, hhead]
      exact Nat.lt_succ_self _
    obtain ⟨after, hafter, hnext⟩ := @ih _ hlt ⟨reader.rest, answers⟩
      (hsteady.of_suffix hsuffix) rfl
    refine ⟨after, hafter, ?_⟩
    split <;> rename_i hcase <;> rw [hread] at hcase <;> cases hcase
    exact hnext
  · exact absurd (hhead ▸ List.mem_cons_self) (hsteady error)

/-- `read_exact` is `read_exact` over the bytes one by one. -/
theorem readExact_eq (hsteady : reader.Steady) (size : Nat) :
    ∃ rest answers, Reader.Steady (⟨rest, answers⟩ : Streams.Reader UInt8 String) ∧
      (ExecutorV2.readExact (events reader.rest) size).2 = events rest ∧
      ((∃ bytes, reader.readExact size = (.ok bytes, ⟨rest, answers⟩) ∧
          (ExecutorV2.readExact (events reader.rest) size).1 = .ok bytes) ∨
        (reader.readExact size = (.error .unexpectedEof, ⟨rest, answers⟩) ∧
          (ExecutorV2.readExact (events reader.rest) size).1 = .error .truncated)) := by
  by_cases hsize : size ≤ reader.rest.length
  · obtain ⟨answers, hnext, heq⟩ := hsteady.readExact_ok size hsize
    rw [readExact_events_ok hsize]
    exact ⟨_, answers, hnext, rfl, .inl ⟨_, heq, rfl⟩⟩
  · obtain ⟨answers, hnext, heq⟩ := hsteady.readExact_eof size (Nat.lt_of_not_le hsize)
    rw [readExact_events_short (Nat.lt_of_not_le hsize)]
    exact ⟨[], answers, hnext, rfl, .inr ⟨heq, rfl⟩⟩

/-- **A frame is read in pieces as it is read byte by byte.** -/
theorem readFrame_eq (decode : List UInt8 → Option T) (hsteady : reader.Steady) :
    ∃ rest answers, Reader.Steady (⟨rest, answers⟩ : Streams.Reader UInt8 String) ∧
      (ExecutorV2.readFrame decode (events reader.rest)).2 = events rest ∧
      readFrame decode reader =
        ((ExecutorV2.readFrame decode (events reader.rest)).1, ⟨rest, answers⟩) := by
  obtain ⟨answers, hfirst, hread⟩ := readFirst_eq hsteady
  cases hbytes : reader.rest with
  | nil =>
    rw [hbytes] at hfirst hread
    refine ⟨[], answers, hfirst, rfl, ?_⟩
    rw [readFrame, hread]
    rfl
  | cons first others =>
    rw [hbytes] at hfirst hread
    rw [readFrame, hread, ExecutorV2.readFrame, events_cons, ExecutorV2.readFirst]
    simp only [List.head?_cons, List.tail_cons] at hfirst ⊢
    -- the rest of the header
    obtain ⟨rest, answers, hheader, hrest, hcases⟩ := readExact_eq hfirst 3
    rcases hcases with ⟨bytes, heq, hevents⟩ | ⟨heq, hevents⟩
    · rw [heq, Prod.ext (y := (.ok bytes, events rest)) hevents hrest]
      simp only
      split
      · exact ⟨rest, answers, hheader, rfl, rfl⟩
      -- the payload
      obtain ⟨rest', answers', hpayload, hrest', hcases'⟩ :=
        readExact_eq hheader (bigEndian (first :: bytes))
      rcases hcases' with ⟨payload, heq', hevents'⟩ | ⟨heq', hevents'⟩
      · rw [heq', Prod.ext (y := (.ok payload, events rest')) hevents' hrest']
        simp only
        cases decode payload <;> exact ⟨rest', answers', hpayload, rfl, rfl⟩
      · rw [heq', Prod.ext (y := (.error .truncated, events rest')) hevents' hrest']
        exact ⟨rest', answers', hpayload, rfl, rfl⟩
    · rw [heq, Prod.ext (y := (.error .truncated, events rest)) hevents hrest]
      exact ⟨rest, answers, hheader, rfl, rfl⟩

end Pieces

/-! ## Writing -/

/-- The bytes of a frame. -/
def frameBytes (payload : List UInt8) : List UInt8 :=
  BigEndian.encode 4 payload.length ++ payload

/-- A value with its payload, which is framed. -/
structure Framed (value : T) (payload : List UInt8) : Prop where
  encoded : json.toVec value = some payload
  nonempty : 0 < payload.length
  bounded : payload.length ≤ maxFrameBytes

variable {json} {value : T} {values : List T} {writer next : Streams.Writer UInt8 String}
  {payload : List UInt8} {payloads : List (List UInt8)} {reader : Streams.Reader UInt8 String}

/-- An accepted value has been written as its frame. -/
theorem writeFrame_ok (h : writeFrame json writer value = (.ok (), next)) :
    ∃ payload, Framed json value payload ∧ next.written = writer.written ++ frameBytes payload := by
  unfold writeFrame at h
  cases hpayload : json.toVec value with
  | none =>
    rw [hpayload] at h
    cases h
  | some payload =>
    simp only [hpayload] at h
    by_cases hsize : (payload.isEmpty || maxFrameBytes < payload.length) = true
    · rw [if_pos hsize] at h
      cases h
    rw [if_neg hsize] at h
    split at h
    · cases h
    simp only [List.isEmpty_iff, Bool.or_eq_true, decide_eq_true_eq, not_or] at hsize
    refine ⟨payload, ⟨hpayload, List.length_pos_of_ne_nil hsize.1, Nat.not_lt.1 hsize.2⟩, ?_⟩
    split at h
    · cases h
    next first hfirst =>
    split at h
    · cases h
    next second hsecond =>
    split at h
    · cases h
    next third hthird =>
    cases h
    have hflush := Writer.flush_written second
    rw [hthird] at hflush
    rw [hflush, Writer.writeAll_ok hsecond, Writer.writeAll_ok hfirst, frameBytes,
      List.append_assoc]

/-- Accepted values have been written as their frames, in order. -/
theorem writeFrames_ok (h : writeFrames json writer values = (.ok (), next)) :
    ∃ payloads, List.Forall₂ (Framed json) values payloads ∧
      next.written = writer.written ++ (payloads.map frameBytes).flatten := by
  induction values generalizing writer with
  | nil =>
    cases h
    exact ⟨[], .nil, by simp⟩
  | cons value values ih =>
    unfold writeFrames at h
    split at h
    · cases h
    next middle hmiddle =>
    obtain ⟨payload, hframed, hwritten⟩ := writeFrame_ok hmiddle
    obtain ⟨payloads, hpayloads, hrest⟩ := ih h
    refine ⟨payload :: payloads, .cons hframed hpayloads, ?_⟩
    rw [hrest, hwritten, List.map_cons, List.flatten_cons, List.append_assoc]

theorem writeFrames_append {before : List T} (h : writeFrames json writer before = (.ok (), next))
    (after : List T) : writeFrames json writer (before ++ after) = writeFrames json next after := by
  induction before generalizing writer with
  | nil =>
    cases h
    rfl
  | cons value before ih =>
    rw [List.cons_append, writeFrames]
    rw [writeFrames] at h
    split at h
    · cases h
    · next middle hmiddle => exact ih h

/-- Of accepted values the first ones are accepted as well. -/
theorem writeFrames_before_ok {before after : List T}
    (h : (writeFrames json writer (before ++ after)).1 = .ok ()) :
    ∃ middle, writeFrames json writer before = (.ok (), middle) := by
  induction before generalizing writer with
  | nil => exact ⟨writer, rfl⟩
  | cons value before ih =>
    rw [List.cons_append, writeFrames] at h
    rw [writeFrames]
    split at h
    · cases h
    · next middle hmiddle => exact ih h

/-! ## Reading -/

/-- The header of a frame, byte by byte. -/
theorem frameBytes_eq_cons (hbound : payload.length ≤ maxFrameBytes) :
    ∃ first others, frameBytes payload = first :: (others ++ payload) ∧ others.length = 3 ∧
      bigEndian (first :: others) = payload.length := by
  have hlt : payload.length < 256 ^ 4 := by
    simp only [maxFrameBytes] at hbound
    omega
  refine ⟨UInt8.ofNat (payload.length / 256 ^ 3), BigEndian.encode 3 payload.length, ?_,
    BigEndian.length_encode _ _, ?_⟩
  · rw [frameBytes, BigEndian.encode_succ_eq_cons hlt, List.cons_append]
  · rw [← BigEndian.encode_succ_eq_cons hlt]
    exact BigEndian.value_encode hlt

theorem Framed.length_ok (h : Framed json value payload) :
    ¬ (payload.length = 0 ∨ maxFrameBytes < payload.length) := by
  have := h.nonempty
  have := h.bounded
  omega

/-- A frame at the front of the stream is read, whatever comes behind it. -/
theorem readFrame_frame (hjson : json.Faithful) (hframed : Framed json value payload)
    (rest : List UInt8) :
    readFrame json.fromSlice (events (frameBytes payload ++ rest)) =
      (.ok (some value), events rest) := by
  obtain ⟨first, others, hbytes, hlength, hvalue⟩ := frameBytes_eq_cons hframed.bounded
  have htake : (others ++ (payload ++ rest)).take 3 = others := by rw [← hlength, List.take_left]
  have hdrop : (others ++ (payload ++ rest)).drop 3 = payload ++ rest := by
    rw [← hlength, List.drop_left]
  rw [hbytes, List.cons_append, List.append_assoc, events_cons, readFrame, readFirst]
  simp only
  rw [readExact_events_ok (by simp [hlength]), htake, hdrop]
  simp only
  rw [hvalue, if_neg hframed.length_ok, readExact_events_ok (by simp), List.take_left,
    List.drop_left]
  simp only [hjson value payload hframed.encoded]

/-- A frame that is cut off is reported as such. -/
theorem readFrame_cut {decode : List UInt8 → Option T} {cut : Nat}
    (hframed : Framed json value payload) (hpos : 0 < cut)
    (hcut : cut < (frameBytes payload).length) :
    (readFrame decode (events ((frameBytes payload).take cut))).1 = .error .truncated := by
  obtain ⟨first, others, hbytes, hlength, hvalue⟩ := frameBytes_eq_cons hframed.bounded
  obtain ⟨cut, rfl⟩ : ∃ n, cut = n + 1 := ⟨cut - 1, by omega⟩
  rw [hbytes, List.length_cons, List.length_append, hlength] at hcut
  rw [hbytes, List.take_succ_cons, events_cons, readFrame, readFirst]
  simp only
  by_cases hheader : cut < 3
  · -- the cut is within the header
    rw [readExact_events_short (by simp only [List.length_take, List.length_append]; omega)]
  · -- the header is there and gives the length of the whole payload
    have hrest : (others ++ payload).take cut = others ++ payload.take (cut - 3) := by
      rw [List.take_append, hlength, List.take_of_length_le (by omega)]
    have htake : (others ++ payload.take (cut - 3)).take 3 = others := by
      rw [← hlength, List.take_left]
    have hdrop : (others ++ payload.take (cut - 3)).drop 3 = payload.take (cut - 3) := by
      rw [← hlength, List.drop_left]
    rw [hrest, readExact_events_ok (by simp [hlength]), htake, hdrop]
    simp only
    rw [hvalue, if_neg hframed.length_ok,
      readExact_events_short (by simp only [List.length_take]; omega)]

/-- The frames at the front of the stream are read one after the other, and what follows is read
from what is behind them. -/
theorem readFrames_frames {rest : List UInt8} (hjson : json.Faithful)
    (hframed : List.Forall₂ (Framed json) values payloads) (hsteady : reader.Steady)
    (hrest : reader.rest = (payloads.map frameBytes).flatten ++ rest) (calls : Nat) :
    ∃ answers, Reader.Steady (⟨rest, answers⟩ : Streams.Reader UInt8 String) ∧
      Pieces.readFrames json.fromSlice (values.length + calls) reader =
        values.map (fun value => .ok (some value)) ++
          Pieces.readFrames json.fromSlice calls ⟨rest, answers⟩ := by
  induction hframed generalizing reader with
  | nil =>
    obtain ⟨bytes, answers⟩ := reader
    obtain rfl : bytes = rest := by simpa using hrest
    exact ⟨answers, hsteady, by simp⟩
  | @cons _ payload _ payloads hfirst _ ih =>
    obtain ⟨rest', answers, hsteady', hevents, hread⟩ :=
      Pieces.readFrame_eq json.fromSlice hsteady
    rw [hrest, List.map_cons, List.flatten_cons, List.append_assoc,
      readFrame_frame hjson hfirst] at hevents hread
    have hbehind : rest' = (payloads.map frameBytes).flatten ++ rest :=
      (List.map_injective_iff.2 (fun _ _ h => ReadEvent.byte.inj h) hevents).symm
    obtain ⟨answers', hlast, hothers⟩ := ih hsteady' hbehind
    refine ⟨answers', hlast, ?_⟩
    rw [List.length_cons, Nat.add_right_comm, Pieces.readFrames, hread]
    simp only [hothers, List.map_cons, List.cons_append]

/-- **Framing is lossless and self-delimiting.** Whatever a writer accepted is read back frame by
frame and then the end of the stream, in whatever pieces the reader hands out the bytes; of a stream
that is cut inside a frame the frames before it are read, and then that it is cut. -/
theorem framing_lossless (json : Json T) (hjson : json.Faithful) (frames : List T)
    (writes : List (Option (Nat × String))) (answers : List (ReadAnswer String))
    (haccepted : (writeFrames json ⟨[], writes⟩ frames).1 = .ok ())
    (hanswers : ∀ error, ReadAnswer.failed error ∉ answers) :
    Pieces.readFrames json.fromSlice (frames.length + 1)
        ⟨(writeFrames json ⟨[], writes⟩ frames).2.written, answers⟩
        = frames.map (fun frame => .ok (some frame)) ++ [.ok none] ∧
      ∀ before frame after cut, frames = before ++ frame :: after →
        (writeFrames json ⟨[], writes⟩ before).2.written.length < cut →
        cut < (writeFrames json ⟨[], writes⟩ (before ++ [frame])).2.written.length →
        Pieces.readFrames json.fromSlice (before.length + 1)
            ⟨(writeFrames json ⟨[], writes⟩ frames).2.written.take cut, answers⟩
          = before.map (fun frame => .ok (some frame)) ++ [.error .truncated] := by
  generalize hall : writeFrames json ⟨[], writes⟩ frames = all at haccepted ⊢
  obtain ⟨result, last⟩ := all
  obtain rfl : result = .ok () := haccepted
  constructor
  · obtain ⟨payloads, hframed, hwritten⟩ := writeFrames_ok hall
    obtain ⟨answers', hsteady, hread⟩ :=
      @readFrames_frames _ _ _ _ ⟨last.written, answers⟩ [] hjson hframed hanswers
        (by rw [List.append_nil]; exact hwritten) 1
    obtain ⟨rest, after, _, _, hend⟩ := Pieces.readFrame_eq json.fromSlice hsteady
    rw [hread, Pieces.readFrames, hend]
    rfl
  · intro before frame after cut hframes hlow hhigh
    rw [hframes] at hall
    -- the writer before the frame, the frame, and what comes behind it
    obtain ⟨start, hstart⟩ := writeFrames_before_ok (congrArg Prod.fst hall)
    rw [writeFrames_append hstart, ← List.singleton_append] at hall
    obtain ⟨stop, hstop⟩ := writeFrames_before_ok (congrArg Prod.fst hall)
    obtain ⟨payloads, hbefore, hwritten⟩ := writeFrames_ok hstart
    obtain ⟨_, hframe, hframeBytes⟩ := writeFrames_ok hstop
    rw [writeFrames_append hstop] at hall
    obtain ⟨_, _, hlast⟩ := writeFrames_ok hall
    rw [hstart] at hlow
    rw [writeFrames_append hstart, hstop] at hhigh
    cases hframe with
    | @cons _ payload _ _ hframe hnone =>
    cases hnone
    simp only [List.map_cons, List.map_nil, List.flatten_cons, List.flatten_nil, List.append_nil]
      at hframeBytes
    simp only [hframeBytes, List.length_append] at hlow hhigh
    have htake : last.written.take cut = (payloads.map frameBytes).flatten ++
        (frameBytes payload).take (cut - start.written.length) := by
      have hstartBytes : start.written = (payloads.map frameBytes).flatten := hwritten
      rw [hlast, hframeBytes, List.append_assoc, List.take_append,
        List.take_of_length_le (Nat.le_of_lt hlow), List.take_append_of_le_length (by omega),
        hstartBytes]
    obtain ⟨answers', hsteady, hread⟩ := @readFrames_frames _ _ _ _
      ⟨last.written.take cut, answers⟩ _ hjson hbefore hanswers htake 1
    obtain ⟨rest, after, _, _, hend⟩ := Pieces.readFrame_eq json.fromSlice hsteady
    rw [hread, Pieces.readFrames, hend, readFrame_cut hframe (by omega) (by omega)]
    rfl

/-- The JSON texts of truth values. -/
def boolJson : Json Bool where
  toVec value := some (if value then [0x74, 0x72, 0x75, 0x65] else [0x66, 0x61, 0x6c, 0x73, 0x65])
  fromSlice payload :=
    if payload = [0x74, 0x72, 0x75, 0x65] then some true
    else if payload = [0x66, 0x61, 0x6c, 0x73, 0x65] then some false
    else none

theorem boolJson_faithful : boolJson.Faithful := by
  intro value payload h
  obtain rfl := Option.some.inj h
  cases value <;> rfl

/-- Two frames read in pieces, whole and cut inside the second one. -/
theorem framing_lossless_bools :
    Pieces.readFrames boolJson.fromSlice 3
        ⟨(writeFrames boolJson ⟨[], []⟩ [true, false]).2.written, [.interrupted, .upTo 6, .upTo 0]⟩
        = [.ok (some true), .ok (some false), .ok none] ∧
      Pieces.readFrames boolJson.fromSlice 2
        ⟨(writeFrames boolJson ⟨[], []⟩ [true, false]).2.written.take 10,
          [.interrupted, .upTo 6, .upTo 0]⟩ = [.ok (some true), .error .truncated] := by
  have h := framing_lossless boolJson boolJson_faithful [true, false] []
    [.interrupted, .upTo 6, .upTo 0] (by decide) (by simp)
  exact ⟨h.1, h.2 [true] false [] 10 rfl (by decide) (by decide)⟩

end Zemo.ExecutorV2
