import Mathlib.Data.Bool.AllAny
import Zemo.Domain.Tamper
import Zemo.Lib.Run
import Zemo.Lib.Streams
import Zemo.Lib.Utf8
import Zemo.Organizer.PathSafety

set_option autoImplicit false

/-! # The recovery journal in a file

`FileJournal`: every event is one line, the JSON text of an encrypted record. An append checks the
event against the heads kept in memory, writes the line and then moves the head; `events` and `open`
read the whole file and refuse it when one line is no record or the events do not chain. JSON,
base64 and the cipher are parameters.

A write that fails may leave a part of its line in the file. The file says what that does to the
events that were acknowledged before and after. -/

namespace Zemo

open Checked Streams

/-! ## Records -/

structure EncryptedJournalRecord where
  version : Nat
  nonce : List Char
  ciphertext : List Char
deriving DecidableEq

/-- A nonce of the cipher. -/
abbrev JournalNonce := {bytes : List UInt8 // bytes.length = 24}

/-- How events are sealed: their JSON bytes, the cipher under the key of the journal, base64 and the
JSON text of a record. -/
structure JournalSealing where
  codec : Codec
  eventToVec : StoredJournalEvent → Except String (List UInt8)
  eventFromSlice : List UInt8 → Except String StoredJournalEvent
  encrypt : List UInt8 → List UInt8 → Option (List UInt8)
  decrypt : List UInt8 → List UInt8 → Option (List UInt8)
  encodeBase64 : List UInt8 → List Char
  decodeBase64 : List Char → Except String (List UInt8)
  recordToText : EncryptedJournalRecord → Except String (List Char)
  recordFromStr : List Char → Except String EncryptedJournalRecord

variable (sealing : JournalSealing)

/-- The line of an event, without its end. -/
def encodeRecord (event : StoredJournalEvent) (nonce : Except String JournalNonce) :
    Except String (List UInt8) := do
  let plaintext ← sealing.eventToVec event
  let nonce ← nonce
  let ciphertext ← orError (sealing.encrypt nonce.1 plaintext) "journal encryption failed"
  let text ← sealing.recordToText
    { version := 1
      nonce := sealing.encodeBase64 nonce.1
      ciphertext := sealing.encodeBase64 ciphertext }
  return Utf8.encode text

/-- One turn of the loop over the lines; a blank line has no event. -/
def decodeLine (line : List UInt8) : Except String (Option StoredJournalEvent) := do
  let text ← orError (Utf8.decode? line) "stream did not contain valid UTF-8"
  if text.all isWhiteSpace then return none
  else
    let record ← (sealing.recordFromStr text).mapError ("invalid journal record: " ++ ·)
    require (record.version = 1) "unsupported journal version"
    let nonce ← sealing.decodeBase64 record.nonce
    require (nonce.length = 24) "invalid journal nonce"
    let ciphertext ← sealing.decodeBase64 record.ciphertext
    let plaintext ← orError (sealing.decrypt nonce ciphertext) "journal authentication failed"
    let event ← sealing.eventFromSlice plaintext
    return some event

/-- `'\n'`. -/
def newline : UInt8 := 0x0a

/-- A terminated line loses a carriage return at its end. -/
def withoutReturn (line : List UInt8) : List UInt8 :=
  if line.getLast? = some 0x0d then line.dropLast else line

/-- `read_encrypted_events`. -/
def readEncryptedEvents (bytes : List UInt8) : Except String (List StoredJournalEvent) := do
  let events ← (lines newline withoutReturn bytes).mapM (decodeLine sealing)
  let _ ← validateEventChains sealing.codec (events.filterMap id) fun _ => none
  return events.filterMap id

/-! ## The journal -/

/-- `FileJournal`: the bytes of its file and the head of every execution. -/
structure FileJournal where
  file : List UInt8
  lastEvents : JournalChainHeads

/-- What is at the path of a journal, and how opening it for appending ends. -/
structure JournalPath where
  symbolicLink : Bool := false
  content : Option (List UInt8)
  opening : Except String Unit := .ok ()

namespace FileJournal

/-- `FileJournal::open`. -/
def openPath (path : JournalPath) : Except String FileJournal := do
  require (path.symbolicLink = false) "journal path cannot be a symbolic link"
  let existing ← path.content.elim (.ok []) (readEncryptedEvents sealing)
  let lastEvents ← validateEventChains sealing.codec existing fun _ => none
  path.opening
  return { file := path.content.getD [], lastEvents }

/-- `FileJournal::append`; `write` is what `write_all` does: it succeeds, or it fails behind so many
bytes. -/
def append (journal : FileJournal) (event : StoredJournalEvent)
    (nonce : Except String JournalNonce) (write : Option (Nat × String)) :
    Except String Unit × FileJournal :=
  if chainAccepts sealing.codec (journal.lastEvents event.executionId) event then
    match encodeRecord sealing event nonce with
    | .error error => (.error error, journal)
    | .ok encoded =>
      match Writer.writeAll ⟨journal.file, [write]⟩ (encoded ++ [newline]) with
      | (some error, writer) => (.error error, { journal with file := writer.written })
      | (none, writer) =>
        (.ok (),
          { file := writer.written
            lastEvents := Function.update journal.lastEvents event.executionId
              (some (event.sequence, event.eventDigest)) })
  else (.error "journal event sequence or hash chain is invalid", journal)

/-- `FileJournal::events`. -/
def events (journal : FileJournal) (executionId : ExecutionId) :
    Except String (List StoredJournalEvent) := do
  let all ← readEncryptedEvents sealing journal.file
  return all.filter (·.executionId = executionId)

end FileJournal

/-! ## Runs -/

inductive JournalCall where
  | append (event : StoredJournalEvent) (nonce : Except String JournalNonce)
    (write : Option (Nat × String))
  /-- The journal is closed and opened again; where that fails it stays as it is. -/
  | reopen

/-- The journal and the events whose append was acknowledged. -/
structure JournalState where
  journal : FileJournal
  acknowledged : List StoredJournalEvent

def JournalState.step : JournalCall → JournalState → JournalState
  | .append event nonce write, state =>
    match state.journal.append sealing event nonce write with
    | (.ok (), journal) => ⟨journal, state.acknowledged ++ [event]⟩
    | (.error _, journal) => ⟨journal, state.acknowledged⟩
  | .reopen, state =>
    match FileJournal.openPath sealing { content := some state.journal.file } with
    | .ok journal => ⟨journal, state.acknowledged⟩
    | .error _ => state

/-- Nothing is lost: the events of every execution are read as they were acknowledged, and opening
the file gives the journal as it is, with its heads. -/
structure JournalState.NothingLost (state : JournalState) : Prop where
  readable : ∀ executionId, state.journal.events sealing executionId =
    .ok (state.acknowledged.filter (·.executionId = executionId))
  heads : FileJournal.openPath sealing { content := some state.journal.file } = .ok state.journal

/-- The call comes to a write that fails behind at least one byte. -/
def JournalCall.Torn (call : JournalCall) (state : JournalState) : Prop :=
  match call with
  | .append event nonce (some (_ + 1, _)) =>
    chainAccepts sealing.codec (state.journal.lastEvents event.executionId) event = true ∧
      (encodeRecord sealing event nonce).isOk = true
  | _ => False

/-- What is asked of the parameters: what was encoded is decoded, a record is written on one line
between braces, and a text that was cut off is no record. -/
structure JournalSealing.Lawful : Prop where
  event : ∀ event bytes, sealing.eventToVec event = .ok bytes →
    sealing.eventFromSlice bytes = .ok event
  cipher : ∀ nonce plaintext ciphertext, sealing.encrypt nonce plaintext = some ciphertext →
    sealing.decrypt nonce ciphertext = some plaintext
  base64 : ∀ bytes, sealing.decodeBase64 (sealing.encodeBase64 bytes) = .ok bytes
  record : ∀ record text, sealing.recordToText record = .ok text →
    sealing.recordFromStr text = .ok record
  braces : ∀ record text, sealing.recordToText record = .ok text →
    newline ∉ Utf8.encode text ∧ ∃ inner, text = '\x7b' :: inner ++ ['\x7d']
  cut : ∀ record text start, sealing.recordToText record = .ok text → start <+: text →
    start ≠ text → (sealing.recordFromStr start).isOk = false

/-! ## Lines -/

section Lines

variable {sealing : JournalSealing} {event : StoredJournalEvent}
  {nonce : Except String JournalNonce} {encoded : List UInt8}

/-- What an append writes is the text of a record in which the event is sealed. -/
theorem encodeRecord_eq_ok (h : encodeRecord sealing event nonce = .ok encoded) :
    ∃ plaintext bytes ciphertext text, sealing.eventToVec event = .ok plaintext ∧
      nonce = .ok bytes ∧ sealing.encrypt bytes.1 plaintext = some ciphertext ∧
      sealing.recordToText ⟨1, sealing.encodeBase64 bytes.1, sealing.encodeBase64 ciphertext⟩
        = .ok text ∧ encoded = Utf8.encode text := by
  unfold encodeRecord at h
  obtain ⟨plaintext, hplaintext, h⟩ := bind_eq_ok.1 h
  obtain ⟨bytes, hnonce, h⟩ := bind_eq_ok.1 h
  obtain ⟨ciphertext, hciphertext, h⟩ := bind_eq_ok.1 h
  obtain ⟨text, htext, h⟩ := bind_eq_ok.1 h
  exact ⟨plaintext, bytes, ciphertext, text, hplaintext, hnonce, orError_eq_ok.1 hciphertext, htext,
    (Except.ok.inj h).symm⟩

/-- A text that begins with a brace is not blank. -/
theorem not_blank (rest : List Char) : ¬ ('\x7b' :: rest).all isWhiteSpace = true := by
  rw [List.all_cons, show isWhiteSpace '\x7b' = false by decide]
  exact Bool.false_ne_true

/-- A written line stays one line. -/
theorem encodeRecord_line (hlawful : sealing.Lawful)
    (h : encodeRecord sealing event nonce = .ok encoded) :
    newline ∉ encoded ∧ encoded ≠ [] ∧ withoutReturn encoded = encoded := by
  obtain ⟨_, _, _, text, _, _, _, htext, rfl⟩ := encodeRecord_eq_ok h
  obtain ⟨hnewline, inner, rfl⟩ := hlawful.braces _ _ htext
  have hend : Utf8.encode ('\x7b' :: inner ++ ['\x7d']) =
      Utf8.encode ('\x7b' :: inner) ++ [0x7d] := by
    rw [Utf8.encode_append]
    rfl
  refine ⟨hnewline, ?_, ?_⟩
  · rw [hend]
    exact List.concat_ne_nil _ _
  · rw [hend, withoutReturn, List.getLast?_concat, if_neg (by decide)]

/-- A written line is read back as its event. -/
theorem decodeLine_encodeRecord (hlawful : sealing.Lawful)
    (h : encodeRecord sealing event nonce = .ok encoded) :
    decodeLine sealing encoded = .ok (some event) := by
  obtain ⟨plaintext, bytes, ciphertext, text, hplaintext, _, hciphertext, htext, rfl⟩ :=
    encodeRecord_eq_ok h
  obtain ⟨-, inner, hinner⟩ := hlawful.braces _ _ htext
  have hblank : ¬ text.all isWhiteSpace = true := hinner ▸ not_blank _
  have hrecord := hlawful.record _ _ htext
  unfold decodeLine
  rw [bind_ok (orError_eq_ok.2 (Utf8.decode?_encode text)), if_neg hblank, hrecord]
  simp only [Except.mapError]
  rw [bind_ok rfl, bind_ok (require_pos _ rfl), bind_ok (hlawful.base64 _),
    bind_ok (require_pos _ bytes.2), bind_ok (hlawful.base64 _),
    bind_ok (orError_eq_ok.2 (hlawful.cipher _ _ _ hciphertext)),
    bind_ok (hlawful.event _ _ hplaintext)]
  rfl

/-- A line that was cut off is refused. -/
theorem decodeLine_cut (hlawful : sealing.Lawful)
    (h : encodeRecord sealing event nonce = .ok encoded) {size : Nat} (hpos : 0 < size)
    (hsize : size < encoded.length) : (decodeLine sealing (encoded.take size)).isOk = false := by
  obtain ⟨_, _, _, text, _, _, _, htext, rfl⟩ := encodeRecord_eq_ok h
  obtain ⟨-, inner, hinner⟩ := hlawful.braces _ _ htext
  unfold decodeLine
  cases hdecode : Utf8.decode? ((Utf8.encode text).take size) with
  | none => rfl
  | some start =>
    have hbytes := (Utf8.decode?_eq_some (List.take_prefix _ _)).1 hdecode
    have hstart : start <+: text := Utf8.encode_prefix_iff.1 (hbytes ▸ List.take_prefix _ _)
    have hshort : start ≠ text := by
      rintro rfl
      have hlength := congrArg List.length hbytes
      rw [List.length_take] at hlength
      omega
    -- the first brace is there
    have hblank : ¬ start.all isWhiteSpace = true := by
      cases start with
      | nil =>
        have hlength := congrArg List.length hbytes
        rw [List.length_take, Utf8.encode_nil, List.length_nil] at hlength
        omega
      | cons c rest =>
        rw [hinner, List.cons_append, List.cons_prefix_cons] at hstart
        rw [hstart.1]
        exact not_blank rest
    have hcut := hlawful.cut _ _ _ htext hstart hshort
    rw [bind_ok (orError_eq_ok.2 rfl), if_neg hblank]
    cases hrecord : sealing.recordFromStr start with
    | ok record =>
      rw [hrecord] at hcut
      cases hcut
    | error error => rfl

end Lines

/-! ## Reading -/

section Reading

variable {sealing : JournalSealing} {file line : List UInt8} {events : List StoredJournalEvent}
  {heads last : JournalChainHeads} {event : StoredJournalEvent}

/-- One more event is accepted when the head of its execution accepts it. -/
theorem validateEventChains_concat {codec : Codec}
    (h : validateEventChains codec events last = .ok heads)
    (haccepts : chainAccepts codec (heads event.executionId) event = true) :
    validateEventChains codec (events ++ [event]) last = .ok (Function.update heads
      event.executionId (some (event.sequence, event.eventDigest))) := by
  induction events generalizing last with
  | nil =>
    cases h
    rw [List.nil_append, validateEventChains, if_pos haccepts]
    rfl
  | cons first rest ih =>
    rw [validateEventChains] at h
    rw [List.cons_append, validateEventChains]
    by_cases hfirst : chainAccepts codec (last first.executionId) first = true
    · rw [if_pos hfirst] at h ⊢
      exact ih h
    · rw [if_neg hfirst] at h
      cases h

/-- The file reads as these events, which chain up to these heads. -/
structure ReadsAs (sealing : JournalSealing) (file : List UInt8)
    (events : List StoredJournalEvent) (heads : JournalChainHeads) : Prop where
  read : readEncryptedEvents sealing file = .ok events
  chained : validateEventChains sealing.codec events (fun _ => none) = .ok heads

/-- What is read of a file, line by line. -/
theorem readEncryptedEvents_eq_ok :
    readEncryptedEvents sealing file = .ok events ↔
      ∃ rows, (lines newline withoutReturn file).mapM (decodeLine sealing) = .ok rows ∧
        rows.filterMap id = events ∧
        ∃ heads, validateEventChains sealing.codec events (fun _ => none) = .ok heads := by
  unfold readEncryptedEvents
  simp only [bind_eq_ok, pure, Except.pure, Except.ok.injEq]
  constructor
  · rintro ⟨rows, hrows, heads, hheads, rfl⟩
    exact ⟨rows, hrows, rfl, heads, hheads⟩
  · rintro ⟨rows, hrows, rfl, heads, hheads⟩
    exact ⟨rows, hrows, heads, hheads, rfl⟩

/-- A line behind a file that ends its last one is read behind its events. -/
theorem ReadsAs.append (h : ReadsAs sealing file events heads) (hended : Ended newline file)
    {piece : List UInt8} (hpiece : lines newline withoutReturn piece = [line])
    (hline : decodeLine sealing line = .ok (some event))
    (haccepts : chainAccepts sealing.codec (heads event.executionId) event = true) :
    ReadsAs sealing (file ++ piece) (events ++ [event]) (Function.update heads event.executionId
      (some (event.sequence, event.eventDigest))) := by
  obtain ⟨rows, hrows, rfl, -⟩ := readEncryptedEvents_eq_ok.1 h.read
  have hheads := validateEventChains_concat h.chained haccepts
  refine ⟨readEncryptedEvents_eq_ok.2 ⟨rows ++ [some event], ?_, ?_, _, hheads⟩, hheads⟩
  · rw [hended.lines_append, hpiece, List.mapM_append, bind_ok hrows, List.mapM_cons,
      bind_ok (by rw [bind_ok hline]; rfl)]
    rfl
  · rw [List.filterMap_append]
    rfl

/-- A line that is refused makes the whole file unreadable. -/
theorem readEncryptedEvents_refused (hended : Ended newline file) {piece : List UInt8}
    (hpiece : lines newline withoutReturn piece = [line])
    (hline : (decodeLine sealing line).isOk = false) :
    ¬ ∃ events, readEncryptedEvents sealing (file ++ piece) = .ok events := by
  rintro ⟨events, h⟩
  obtain ⟨rows, hrows, -⟩ := readEncryptedEvents_eq_ok.1 h
  rw [hended.lines_append, hpiece, List.mapM_append] at hrows
  obtain ⟨before, -, hrows⟩ := bind_eq_ok.1 hrows
  obtain ⟨after, hafter, -⟩ := bind_eq_ok.1 hrows
  rw [List.mapM_cons] at hafter
  obtain ⟨row, hrow, -⟩ := bind_eq_ok.1 hafter
  rw [hrow] at hline
  cases hline

end Reading

/-! ## What every call keeps -/

section Steps

variable {sealing : JournalSealing} {state : JournalState}

/-- A journal whose file reads as the acknowledged events has lost nothing. -/
theorem ReadsAs.nothingLost
    (h : ReadsAs sealing state.journal.file state.acknowledged state.journal.lastEvents) :
    state.NothingLost sealing := by
  refine ⟨fun executionId => ?_, ?_⟩
  · rw [FileJournal.events, bind_ok h.read]
    rfl
  · rw [FileJournal.openPath, bind_ok (require_pos _ rfl)]
    simp only [Option.elim_some, Option.getD_some]
    rw [bind_ok h.read, bind_ok h.chained]
    rfl

theorem openPath_eq_ok {path : JournalPath} {journal : FileJournal}
    (h : FileJournal.openPath sealing path = .ok journal) :
    ∃ events, path.content.elim (.ok []) (readEncryptedEvents sealing) = .ok events ∧
      validateEventChains sealing.codec events (fun _ => none) = .ok journal.lastEvents ∧
      journal.file = path.content.getD [] := by
  unfold FileJournal.openPath at h
  obtain ⟨-, h⟩ := test_bind_eq_ok.1 h
  obtain ⟨events, hevents, h⟩ := bind_eq_ok.1 h
  obtain ⟨heads, hheads, h⟩ := bind_eq_ok.1 h
  obtain ⟨-, h⟩ := test_bind_eq_ok.1 h
  obtain rfl := Except.ok.inj h
  exact ⟨events, hevents, hheads, rfl⟩

/-- The journal that was opened reads as its events. -/
theorem readsAs_of_openPath {path : JournalPath} {journal : FileJournal}
    (h : FileJournal.openPath sealing path = .ok journal) :
    ∃ events, ReadsAs sealing journal.file events journal.lastEvents := by
  obtain ⟨events, hevents, hheads, hfile⟩ := openPath_eq_ok h
  refine ⟨events, ?_, hheads⟩
  rw [hfile]
  cases hcontent : path.content with
  | none =>
    rw [hcontent] at hevents
    exact hevents
  | some bytes =>
    rw [hcontent] at hevents
    exact hevents

/-- The file reads as the acknowledged events and ends its last line. -/
structure JournalState.Settled (sealing : JournalSealing) (state : JournalState) : Prop where
  reads : ReadsAs sealing state.journal.file state.acknowledged state.journal.lastEvents
  ended : Ended newline state.journal.file

/-- What an append does: it writes nothing and is not acknowledged, or it writes its line, whole or
in part. -/
theorem FileJournal.append_cases (journal : FileJournal) (event : StoredJournalEvent)
    (nonce : Except String JournalNonce) (write : Option (Nat × String)) :
    (∃ error, journal.append sealing event nonce write = (.error error, journal) ∧
      ¬ (JournalCall.append event nonce write).Torn sealing ⟨journal, []⟩) ∨
    ∃ encoded, chainAccepts sealing.codec (journal.lastEvents event.executionId) event = true ∧
      encodeRecord sealing event nonce = .ok encoded ∧
      ((write = none ∧ journal.append sealing event nonce write = (.ok (),
          ⟨journal.file ++ (encoded ++ [newline]), Function.update journal.lastEvents
            event.executionId (some (event.sequence, event.eventDigest))⟩)) ∨
        ∃ size error, write = some (size + 1, error) ∧
          journal.append sealing event nonce write = (.error error,
            ⟨journal.file ++ (encoded ++ [newline]).take (size + 1), journal.lastEvents⟩)) := by
  unfold append
  by_cases haccepts :
      chainAccepts sealing.codec (journal.lastEvents event.executionId) event = true
  · rw [if_pos haccepts]
    cases hencoded : encodeRecord sealing event nonce with
    | error error =>
      refine .inl ⟨error, rfl, ?_⟩
      rcases write with - | ⟨- | size, failure⟩
      · exact id
      · exact id
      · rintro ⟨-, h⟩
        rw [hencoded] at h
        cases h
    | ok encoded =>
      rcases write with - | ⟨- | size, failure⟩
      · exact .inr ⟨encoded, haccepts, rfl, .inl ⟨rfl, rfl⟩⟩
      · refine .inl ⟨failure, ?_, id⟩
        simp only [Writer.writeAll, List.take_zero, List.append_nil]
      · exact .inr ⟨encoded, haccepts, rfl, .inr ⟨size, failure, rfl, rfl⟩⟩
  · rw [if_neg haccepts]
    refine .inl ⟨_, rfl, ?_⟩
    rcases write with - | ⟨- | size, failure⟩
    · exact id
    · exact id
    · exact fun h => haccepts h.1

/-- A call whose write is not torn keeps what was acknowledged. -/
theorem JournalState.Settled.step (hlawful : sealing.Lawful) (h : state.Settled sealing)
    {call : JournalCall} (huntorn : ¬ call.Torn sealing state) :
    (state.step sealing call).Settled sealing := by
  cases call with
  | reopen =>
    rw [JournalState.step, h.reads.nothingLost.heads]
    exact h
  | append event nonce write =>
    rcases state.journal.append_cases event nonce write with ⟨error, heq, -⟩ |
      ⟨encoded, haccepts, hencoded, ⟨-, heq⟩ | ⟨size, error, rfl, -⟩⟩
    · rw [JournalState.step, heq]
      exact h
    · obtain ⟨hnewline, _, hreturn⟩ := encodeRecord_line hlawful hencoded
      rw [JournalState.step, heq]
      refine ⟨h.reads.append h.ended ?_ (decodeLine_encodeRecord hlawful hencoded) haccepts,
        Ended.append_line _ _ _⟩
      rw [lines_line hnewline, hreturn]
    · refine absurd ⟨haccepts, ?_⟩ huntorn
      rw [hencoded]
      rfl

/-- A torn write is seen at once: the file cannot be read any more, or it holds an event that was
not acknowledged. -/
theorem JournalState.Settled.lost_of_torn (hlawful : sealing.Lawful) (h : state.Settled sealing)
    {call : JournalCall} (htorn : call.Torn sealing state) :
    ¬ (state.step sealing call).NothingLost sealing := by
  cases call with
  | reopen => exact absurd htorn id
  | append event nonce write =>
    rcases state.journal.append_cases event nonce write with ⟨error, -, huntorn⟩ |
      ⟨encoded, haccepts, hencoded, ⟨rfl, -⟩ | ⟨size, error, rfl, heq⟩⟩
    · rcases write with - | ⟨- | size, failure⟩
      · exact absurd htorn id
      · exact absurd htorn id
      · exact absurd htorn huntorn
    · exact absurd htorn id
    · obtain ⟨hnewline, hne, hreturn⟩ := encodeRecord_line hlawful hencoded
      rw [JournalState.step, heq]
      rintro ⟨hreadable, -⟩
      have hread := hreadable event.executionId
      rw [FileJournal.events] at hread
      obtain ⟨all, hall, hfilter⟩ := bind_eq_ok.1 hread
      simp only at hall
      by_cases hsize : size + 1 < encoded.length
      · -- a part of the record is on the line
        refine @readEncryptedEvents_refused _ _ _ h.ended (encoded.take (size + 1))
          (lines_unended ?_ ?_) (decodeLine_cut hlawful hencoded (Nat.succ_pos size) hsize)
          ⟨all, ?_⟩
        · exact fun hmem => hnewline (List.mem_of_mem_take hmem)
        · intro hnil
          have := congrArg List.length hnil
          rw [List.length_take, List.length_nil] at this
          omega
        · rw [← hall, List.take_append_of_le_length (Nat.le_of_lt hsize)]
      · -- the whole record is there, with or without the end of the line
        have hline : lines newline withoutReturn ((encoded ++ [newline]).take (size + 1)) =
            [encoded] := by
          by_cases hend : size + 1 = encoded.length
          · rw [hend, List.take_left, lines_unended hnewline hne]
          · rw [List.take_of_length_le (by simp; omega), lines_line hnewline, hreturn]
        have hmore := (h.reads.append h.ended hline (decodeLine_encodeRecord hlawful hencoded)
          haccepts).read
        rw [hmore] at hall
        obtain rfl := Except.ok.inj hall
        have hlength := congrArg List.length (Except.ok.inj hfilter)
        simp at hlength

/-- **A failed append loses nothing exactly when it has written nothing.** From a journal whose file
ends its last line, all along a run of appends and reopenings every acknowledged event is read and
the heads are those of the file, exactly when no write fails behind the first bytes of its line. -/
theorem nothingLost_iff (sealing : JournalSealing) (hlawful : sealing.Lawful) (path : JournalPath)
    (journal : FileJournal) (existing : List StoredJournalEvent)
    (hopen : FileJournal.openPath sealing path = .ok journal)
    (hexisting : readEncryptedEvents sealing journal.file = .ok existing)
    (hended : Ended newline journal.file) (calls : List JournalCall) :
    History.Each (fun before call =>
        (Run.after (JournalState.step sealing) ⟨journal, existing⟩ (before ++ [call])).NothingLost
          sealing) calls ↔
      History.Each (fun before call =>
        ¬ call.Torn sealing (Run.after (JournalState.step sealing) ⟨journal, existing⟩ before))
        calls := by
  obtain ⟨events, hreads⟩ := readsAs_of_openPath hopen
  obtain rfl : events = existing := Except.ok.inj (hreads.read.symm.trans hexisting)
  have hsettled : JournalState.Settled sealing ⟨journal, events⟩ := ⟨hreads, hended⟩
  refine @Run.invariant_iff_with _ _ (JournalState.step sealing) (JournalState.NothingLost sealing)
    ⟨journal, events⟩ (JournalState.Settled sealing) (fun call state => ¬ call.Torn sealing state)
    (fun call state _ hstate huntorn => ?_)
    (fun call state _ hstate hkept htorn => ?_) calls hsettled.reads.nothingLost hsettled
  · have hnext := hstate.step hlawful huntorn
    exact ⟨hnext.reads.nothingLost, hnext⟩
  · exact hstate.lost_of_torn hlawful htorn hkept

end Steps

/-! ## A small sealing -/

def base64Alphabet : List Char :=
  "ABCDEFGHIJKLMNOPQRSTUVWXYZabcdefghijklmnopqrstuvwxyz0123456789+/".toList

def base64Digit (n : Nat) : Char := base64Alphabet.getD n '='

/-- The value of a digit; padding counts as zero. -/
def base64Value (c : Char) : Nat := base64Alphabet.idxOf c % 64

def encodeBase64 : List UInt8 → List Char
  | [] => []
  | [a] => [base64Digit (a.toNat / 4), base64Digit (a.toNat % 4 * 16), '=', '=']
  | [a, b] =>
    [base64Digit (a.toNat / 4), base64Digit (a.toNat % 4 * 16 + b.toNat / 16),
      base64Digit (b.toNat % 16 * 4), '=']
  | a :: b :: c :: rest =>
    base64Digit (a.toNat / 4) :: base64Digit (a.toNat % 4 * 16 + b.toNat / 16) ::
      base64Digit (b.toNat % 16 * 4 + c.toNat / 64) :: base64Digit (c.toNat % 64) ::
      encodeBase64 rest

/-- Groups of four digits; what is left is no group. -/
def base64Groups : List Char → List UInt8
  | w :: x :: y :: z :: rest =>
    [UInt8.ofNat (base64Value w * 4 + base64Value x / 16),
      UInt8.ofNat (base64Value x % 16 * 16 + base64Value y / 4),
      UInt8.ofNat (base64Value y % 4 * 64 + base64Value z)].take
        (if y = '=' then 1 else if z = '=' then 2 else 3) ++ base64Groups rest
  | _ => []

def decodeBase64 (text : List Char) : Except String (List UInt8) :=
  if encodeBase64 (base64Groups text) = text then .ok (base64Groups text)
  else .error "Invalid symbol"

theorem base64Value_digit {n : Nat} (h : n < 64) :
    base64Value (base64Digit n) = n ∧ base64Digit n ≠ '=' := by
  have hall : ∀ k < 64, base64Value (base64Digit k) = k ∧ base64Digit k ≠ '=' := by decide +kernel
  exact hall n h

theorem base64Groups_encode (bytes : List UInt8) : base64Groups (encodeBase64 bytes) = bytes := by
  have hpad : base64Value '=' = 0 := by decide
  induction bytes using encodeBase64.induct with
  | case1 => rfl
  | case2 a =>
    have ha := a.toNat_lt
    obtain ⟨h1, -⟩ := base64Value_digit (show a.toNat / 4 < 64 by omega)
    obtain ⟨h2, -⟩ := base64Value_digit (show a.toNat % 4 * 16 < 64 by omega)
    simp only [encodeBase64, base64Groups, h1, h2, if_true, List.take_succ_cons, List.take_zero,
      List.append_nil]
    rw [show a.toNat / 4 * 4 + a.toNat % 4 * 16 / 16 = a.toNat by omega, UInt8.ofNat_toNat]
  | case3 a b =>
    have ha := a.toNat_lt
    have hb := b.toNat_lt
    obtain ⟨h1, -⟩ := base64Value_digit (show a.toNat / 4 < 64 by omega)
    obtain ⟨h2, -⟩ := base64Value_digit (show a.toNat % 4 * 16 + b.toNat / 16 < 64 by omega)
    obtain ⟨h3, hy⟩ := base64Value_digit (show b.toNat % 16 * 4 < 64 by omega)
    simp only [encodeBase64, base64Groups, h1, h2, h3, if_neg hy, if_true, List.take_succ_cons,
      List.take_zero, List.append_nil]
    rw [show a.toNat / 4 * 4 + (a.toNat % 4 * 16 + b.toNat / 16) / 16 = a.toNat by omega,
      show (a.toNat % 4 * 16 + b.toNat / 16) % 16 * 16 + b.toNat % 16 * 4 / 4 = b.toNat by omega,
      UInt8.ofNat_toNat, UInt8.ofNat_toNat]
  | case4 a b c rest ih =>
    have ha := a.toNat_lt
    have hb := b.toNat_lt
    have hc := c.toNat_lt
    obtain ⟨h1, -⟩ := base64Value_digit (show a.toNat / 4 < 64 by omega)
    obtain ⟨h2, -⟩ := base64Value_digit (show a.toNat % 4 * 16 + b.toNat / 16 < 64 by omega)
    obtain ⟨h3, hy⟩ := base64Value_digit (show b.toNat % 16 * 4 + c.toNat / 64 < 64 by omega)
    obtain ⟨h4, hz⟩ := base64Value_digit (show c.toNat % 64 < 64 by omega)
    simp only [encodeBase64, base64Groups, h1, h2, h3, h4, if_neg hy, if_neg hz, ih]
    rw [show a.toNat / 4 * 4 + (a.toNat % 4 * 16 + b.toNat / 16) / 16 = a.toNat by omega,
      show (a.toNat % 4 * 16 + b.toNat / 16) % 16 * 16
        + (b.toNat % 16 * 4 + c.toNat / 64) / 4 = b.toNat by omega,
      show (b.toNat % 16 * 4 + c.toNat / 64) % 4 * 64 + c.toNat % 64 = c.toNat by omega,
      UInt8.ofNat_toNat, UInt8.ofNat_toNat, UInt8.ofNat_toNat]
    rfl

theorem decodeBase64_encode (bytes : List UInt8) :
    decodeBase64 (encodeBase64 bytes) = .ok bytes := by
  rw [decodeBase64, base64Groups_encode, if_pos rfl]

/-- The JSON text of a record with these members. -/
def recordJson (nonce ciphertext : List Char) : List Char :=
  '\x7b' :: "\"version\":1,\"nonce\":\"".toList ++ (nonce ++ ('"' :: (",\"ciphertext\":\"".toList ++
    (ciphertext ++ ['"', '\x7d']))))

/-- The members as they stand in a JSON text of that form. -/
def recordMembers (text : List Char) : EncryptedJournalRecord :=
  let nonce := (text.drop 22).takeWhile (· ≠ '"')
  { version := 1
    nonce
    ciphertext := (text.drop (22 + nonce.length + 16)).takeWhile (· ≠ '"') }

/-- The members are digits of base64. -/
def isRecordText (record : EncryptedJournalRecord) : Bool :=
  record.version = 1 && (record.nonce ++ record.ciphertext).all (· ∈ '=' :: base64Alphabet)

theorem isRecordText_quote {record : EncryptedJournalRecord} (h : isRecordText record = true) :
    record.version = 1 ∧ '"' ∉ record.nonce ∧ '"' ∉ record.ciphertext := by
  simp only [isRecordText, Bool.and_eq_true, decide_eq_true_eq, List.all_eq_true] at h
  refine ⟨h.1, fun hmem => ?_, fun hmem => ?_⟩
  · exact absurd (h.2 _ (List.mem_append_left _ hmem)) (by decide)
  · exact absurd (h.2 _ (List.mem_append_right _ hmem)) (by decide)

/-- No character of a record is written with the byte that ends a line. -/
theorem record_printable {record : EncryptedJournalRecord} (h : isRecordText record = true) :
    ∀ c ∈ recordJson record.nonce record.ciphertext, newline ∉ String.utf8EncodeChar c := by
  have hdigits : ∀ c ∈ '=' :: base64Alphabet, newline ∉ String.utf8EncodeChar c :=
    List.all_iff_forall_prop.1 (by decide +kernel)
  have hmembers : ∀ c ∈ record.nonce ++ record.ciphertext, newline ∉ String.utf8EncodeChar c := by
    simp only [isRecordText, Bool.and_eq_true, List.all_eq_true, decide_eq_true_eq] at h
    exact fun c hc => hdigits c (h.2 c hc)
  have hopening : ∀ c ∈ '\x7b' :: "\"version\":1,\"nonce\":\"".toList,
      newline ∉ String.utf8EncodeChar c := List.all_iff_forall_prop.1 (by decide +kernel)
  have hmiddle : ∀ c ∈ '"' :: ",\"ciphertext\":\"".toList, newline ∉ String.utf8EncodeChar c :=
    List.all_iff_forall_prop.1 (by decide +kernel)
  have hclosing : ∀ c ∈ ['"', '\x7d'], newline ∉ String.utf8EncodeChar c :=
    List.all_iff_forall_prop.1 (by decide +kernel)
  intro c hc
  rw [recordJson, List.mem_append, List.mem_append, ← List.cons_append, List.mem_append,
    List.mem_append] at hc
  rcases hc with hc | hc | hc | hc | hc
  · exact hopening c hc
  · exact hmembers c (List.mem_append_left _ hc)
  · exact hmiddle c hc
  · exact hmembers c (List.mem_append_right _ hc)
  · exact hclosing c hc

theorem takeWhile_quote {inner rest : List Char} (h : '"' ∉ inner) :
    (inner ++ '"' :: rest).takeWhile (· ≠ '"') = inner := by
  rw [List.takeWhile_append_of_pos]
  · simp
  · intro c hc
    simp only [ne_eq, decide_eq_true_eq]
    rintro rfl
    exact h hc

/-- The members of a JSON text are those it was made of. -/
theorem recordMembers_json {nonce ciphertext : List Char} (hnonce : '"' ∉ nonce)
    (hciphertext : '"' ∉ ciphertext) :
    recordMembers (recordJson nonce ciphertext) = ⟨1, nonce, ciphertext⟩ := by
  have hfirst : (recordJson nonce ciphertext).drop 22 =
      nonce ++ '"' :: (",\"ciphertext\":\"".toList ++ (ciphertext ++ ['"', '\x7d'])) := rfl
  have hsecond : (recordJson nonce ciphertext).drop (22 + nonce.length + 16) =
      ciphertext ++ '"' :: ['\x7d'] := by
    rw [Nat.add_assoc, ← List.drop_drop, hfirst, ← List.drop_drop, List.drop_left]
    rfl
  rw [recordMembers, hfirst]
  simp only [takeWhile_quote hnonce, hsecond, takeWhile_quote hciphertext]

/-- Of two texts in quotes one begins the other only if they are the same. -/
theorem quoted_prefix {a b x y : List Char} (ha : '"' ∉ a) (hb : '"' ∉ b)
    (h : a ++ '"' :: x <+: b ++ '"' :: y) : a = b ∧ x <+: y := by
  have heq : a = b := by
    obtain ⟨rest, hrest⟩ := h
    have hwhile := congrArg (List.takeWhile (· ≠ '"')) hrest
    rwa [List.append_assoc, List.cons_append, takeWhile_quote ha, takeWhile_quote hb] at hwhile
  subst heq
  exact ⟨rfl, (List.cons_prefix_cons.1 ((List.prefix_append_right_inj _).1 h)).2⟩

/-- A sealing for the small journal: its two events, a cipher that only adds its tag, and records
in JSON with the members in base64. -/
def sampleSealing : JournalSealing where
  codec := uuidCodec
  eventToVec event :=
    if sampleStoredEvents[0]? = some event then .ok [0x30]
    else if sampleStoredEvents[1]? = some event then .ok [0x31]
    else .error "not an event of the journal"
  eventFromSlice bytes :=
    if bytes = [0x30] then orError sampleStoredEvents[0]? "expected value"
    else if bytes = [0x31] then orError sampleStoredEvents[1]? "expected value"
    else .error "expected value"
  encrypt _ plaintext := some (plaintext ++ List.replicate 16 0)
  decrypt _ ciphertext :=
    if ciphertext.drop (ciphertext.length - 16) = List.replicate 16 0 then
      some (ciphertext.take (ciphertext.length - 16))
    else none
  encodeBase64
  decodeBase64
  recordToText record :=
    if isRecordText record = true then .ok (recordJson record.nonce record.ciphertext)
    else .error "not a record of the journal"
  recordFromStr text :=
    if recordJson (recordMembers text).nonce (recordMembers text).ciphertext = text then
      .ok (recordMembers text)
    else .error "expected value"

theorem recordMembers_quote (text : List Char) :
    '"' ∉ (recordMembers text).nonce ∧ '"' ∉ (recordMembers text).ciphertext := by
  constructor <;> intro hmem <;> simpa using List.mem_takeWhile_imp hmem

theorem sampleSealing_lawful : sampleSealing.Lawful where
  event event bytes h := by
    simp only [sampleSealing] at h ⊢
    split at h
    · next hfirst =>
      obtain rfl := Except.ok.inj h
      rw [if_pos rfl, hfirst]
      rfl
    · split at h
      · next hsecond =>
        obtain rfl := Except.ok.inj h
        rw [if_neg (by decide), if_pos rfl, hsecond]
        rfl
      · cases h
  cipher nonce plaintext ciphertext h := by
    obtain rfl := Option.some.inj h
    simp only [sampleSealing]
    simp
  base64 := decodeBase64_encode
  record record text h := by
    simp only [sampleSealing] at h ⊢
    split at h
    · next hrecord =>
      obtain ⟨hversion, hnonce, hciphertext⟩ := isRecordText_quote hrecord
      obtain rfl := Except.ok.inj h
      rw [recordMembers_json hnonce hciphertext, if_pos rfl, ← hversion]
    · cases h
  braces record text h := by
    simp only [sampleSealing] at h
    split at h
    · next hrecord =>
      obtain rfl := Except.ok.inj h
      refine ⟨fun hmem => ?_, "\"version\":1,\"nonce\":\"".toList ++ (record.nonce ++ ('"' ::
        (",\"ciphertext\":\"".toList ++ (record.ciphertext ++ ['"'])))), by simp [recordJson]⟩
      obtain ⟨c, hc, hbyte⟩ := List.mem_flatMap.1 hmem
      exact record_printable hrecord c hc hbyte
    · cases h
  cut record text start h hprefixed hne := by
    simp only [sampleSealing] at h ⊢
    split at h
    · next hrecord =>
      obtain ⟨hversion, hnonce, hciphertext⟩ := isRecordText_quote hrecord
      obtain rfl := Except.ok.inj h
      split
      · next hstart =>
        obtain ⟨hnonce', hciphertext'⟩ := recordMembers_quote start
        rw [← hstart] at hprefixed
        have hrest := (List.prefix_append_right_inj _).1 (List.cons_prefix_cons.1 hprefixed).2
        obtain ⟨hfirst, hrest⟩ := quoted_prefix hnonce' hnonce hrest
        obtain ⟨hsecond, -⟩ := quoted_prefix hciphertext' hciphertext
          ((List.prefix_append_right_inj _).1 hrest)
        exact absurd (by rw [← hstart, hfirst, hsecond]) hne
      · rfl
    · cases h

def sampleNonce : JournalNonce := ⟨List.replicate 24 7, by simp⟩

/-- A run in which a write fails before its first byte, and the journal is opened again. -/
def untornCalls : List JournalCall :=
  sampleStoredEvents.flatMap fun event =>
    [.append event (.ok sampleNonce) (some (0, "disk full")),
      .append event (.ok sampleNonce) none, .reopen]

theorem nothingLost_iff_untorn :
    History.Each (fun before call =>
        (Run.after (JournalState.step sampleSealing) ⟨⟨[], fun _ => none⟩, []⟩
          (before ++ [call])).NothingLost sampleSealing) untornCalls := by
  refine (nothingLost_iff sampleSealing sampleSealing_lawful { content := none }
    ⟨[], fun _ => none⟩ [] rfl rfl (.inl rfl) untornCalls).2 fun before call rest heq => ?_
  have hmem : call ∈ untornCalls := by
    rw [heq]
    exact List.mem_append_right _ List.mem_cons_self
  obtain ⟨event, -, hcall⟩ := List.mem_flatMap.1 hmem
  simp only [List.mem_cons, List.not_mem_nil, or_false] at hcall
  rcases hcall with rfl | rfl | rfl <;> exact id

/-- Two appends, the second of which fails behind five bytes of its line. -/
def tornCalls : List JournalCall :=
  sampleStoredEvents.zipIdx.map fun (event, i) =>
    .append event (.ok sampleNonce) (if i = 0 then none else some (5, "disk full"))

/-- The first event was acknowledged; neither `events` nor `open` gets behind the torn line. -/
theorem tornWrite_loses :
    (Run.after (JournalState.step sampleSealing) ⟨⟨[], fun _ => none⟩, []⟩ tornCalls).acknowledged
        = sampleStoredEvents.take 1 ∧
      ((Run.after (JournalState.step sampleSealing) ⟨⟨[], fun _ => none⟩, []⟩
        tornCalls).journal.events sampleSealing 1).isOk = false ∧
      (FileJournal.openPath sampleSealing { content := some (Run.after
        (JournalState.step sampleSealing) ⟨⟨[], fun _ => none⟩, []⟩ tornCalls).journal.file }).isOk
        = false := by
  decide +kernel

end Zemo
