import Mathlib.Tactic.IntervalCases
import Zemo.Domain.Journal

set_option autoImplicit false

/-! # Tamper evidence

The journals as they are stored: an event carries the bytes of its payload, and both readers, the
loop over the rows of the database and the reader of the external journal, accept a list only when
every event is numbered and linked to the one before it. Two accepted lists of one execution that
end in the same digest are equal.

The bytes an event digest is taken of have no tags and no lengths: a step id and the digest before
are simply left out when they are absent. With identifiers of 36 characters the four cases have
four different lengths, so the bytes still determine every field. -/

namespace Zemo

/-! ## Stored events -/

/-- `OperationJournalEvent` with the payload as it is stored. -/
structure StoredJournalEvent where
  executionId : ExecutionId
  sequence : UInt64
  stepId : Option OperationStepId
  kind : JournalEventKind
  payload : List UInt8
  payloadDigest : Bytes32
  previousEventDigest : Option Bytes32
  eventDigest : Bytes32
  occurredAtUnixMs : Int64
deriving DecidableEq

namespace StoredJournalEvent

/-- The bytes the event digest is taken of. -/
def material (codec : Codec) (event : StoredJournalEvent) : List UInt8 :=
  eventMaterial codec event.executionId event.sequence.toNat event.stepId event.kind
    event.payloadDigest event.previousEventDigest event.occurredAtUnixMs.toInt

def new (codec : Codec) (executionId : ExecutionId) (sequence : UInt64)
    (stepId : Option OperationStepId) (kind : JournalEventKind) (payload : List UInt8)
    (previousEventDigest : Option Bytes32) (occurredAtUnixMs : Int64) : StoredJournalEvent :=
  let payloadDigest := codec.blake3 payload
  { executionId, sequence, stepId, kind, payload, payloadDigest, previousEventDigest,
    eventDigest := codec.blake3 (eventMaterial codec executionId sequence.toNat stepId kind
      payloadDigest previousEventDigest occurredAtUnixMs.toInt),
    occurredAtUnixMs }

def verify (codec : Codec) (event : StoredJournalEvent) (expectedPrevious : Option Bytes32) :
    Bool :=
  if event.previousEventDigest ≠ expectedPrevious then false
  else
    let rebuilt := new codec event.executionId event.sequence event.stepId event.kind event.payload
      event.previousEventDigest event.occurredAtUnixMs
    rebuilt.payloadDigest = event.payloadDigest && rebuilt.eventDigest = event.eventDigest

variable {codec : Codec}

/-- An event verifies when it names the digest before it and holds the digests of its contents. -/
theorem verify_eq_true {event : StoredJournalEvent} {previous : Option Bytes32} :
    event.verify codec previous = true ↔ event.previousEventDigest = previous ∧
      codec.blake3 event.payload = event.payloadDigest ∧
      codec.blake3 (event.material codec) = event.eventDigest := by
  unfold verify
  split
  · rename_i hne
    exact ⟨nofun, fun h => absurd h.1 hne⟩
  · rename_i heq
    rw [not_not] at heq
    simp only [new, material, Bool.and_eq_true, decide_eq_true_eq, heq, true_and]
    refine ⟨fun h => ⟨h.1, h.1 ▸ h.2⟩, fun h => ⟨h.1, ?_⟩⟩
    rw [h.1]
    exact h.2

end StoredJournalEvent

/-! ## The readers -/

/-- `u64::try_from(index).unwrap_or(u64::MAX)`. -/
def sequenceAt (index : Nat) : UInt64 :=
  if index < 2 ^ 64 then UInt64.ofNat index else UInt64.ofNat (2 ^ 64 - 1)

/-- `u64::saturating_add(1)`. -/
def saturatingSucc (n : UInt64) : UInt64 :=
  if n = UInt64.ofNat (2 ^ 64 - 1) then n else n + 1

/-- The test of the loop of `validate_execution_journal`. -/
def storedLinked (codec : Codec) (index : Nat) (previous : Option Bytes32)
    (event : StoredJournalEvent) : Bool :=
  event.sequence = sequenceAt index && event.verify codec previous

/-- The loop of `validate_execution_journal`. -/
def validateExecutionJournalLoop (codec : Codec) (events : List StoredJournalEvent) : Bool :=
  ChainedLog.valid (storedLinked codec) (·.eventDigest) events

/-- The last sequence number and digest of every execution seen so far. -/
abbrev JournalChainHeads := ExecutionId → Option (UInt64 × Bytes32)

/-- The test of `validate_event_chains`. -/
def chainAccepts (codec : Codec) (previous : Option (UInt64 × Bytes32))
    (event : StoredJournalEvent) : Bool :=
  match previous with
  | some (sequence, digest) =>
      event.sequence = saturatingSucc sequence && event.verify codec (some digest)
  | none => event.sequence = 0 && event.verify codec none

/-- `validate_event_chains`, with the heads it leaves. -/
def validateEventChains (codec : Codec) :
    List StoredJournalEvent → JournalChainHeads → Except String JournalChainHeads
  | [], last => .ok last
  | event :: rest, last =>
      if chainAccepts codec (last event.executionId) event then
        validateEventChains codec rest
          (Function.update last event.executionId (some (event.sequence, event.eventDigest)))
      else .error "journal chain verification failed"

/-! ## Injectivity -/

/-- Numbers whose lowest `width` digits to the base `b` agree are equal up to there. -/
theorem mod_pow_eq_of_digits {b n m : Nat} :
    ∀ {width : Nat}, (∀ i < width, n / b ^ i % b = m / b ^ i % b) → n % b ^ width = m % b ^ width := by
  intro width
  induction width with
  | zero => intro _; simp [Nat.mod_one]
  | succ width ih =>
      intro h
      rw [Nat.mod_pow_succ, Nat.mod_pow_succ, ih fun i hi => h i (Nat.lt_succ_of_lt hi),
        h width (Nat.lt_succ_self width)]

@[simp] theorem length_leBytes (width n : Nat) : (leBytes width n).length = width := by
  simp [leBytes]

theorem leBytes_inj {n m : Nat} (hn : n < 2 ^ 64) (hm : m < 2 ^ 64)
    (h : leBytes 8 n = leBytes 8 m) : n = m := by
  have hdigits : ∀ i < 8, n / 256 ^ i % 256 = m / 256 ^ i % 256 := by
    intro i hi
    have hbyte := List.map_inj_left.1 h i (List.mem_range.2 hi)
    simpa using congrArg UInt8.toNat hbyte
  have hmod := mod_pow_eq_of_digits hdigits
  rwa [Nat.mod_eq_of_lt (by omega), Nat.mod_eq_of_lt (by omega)] at hmod

theorem leBytesInt_inj {x y : Int64} (h : leBytesInt x.toInt = leBytesInt y.toInt) : x = y := by
  have hx := x.toInt_lt
  have hx' := x.le_toInt
  have hy := y.toInt_lt
  have hy' := y.le_toInt
  have hmod := leBytes_inj (by omega) (by omega) h
  exact Int64.toInt_inj.1 (by omega)

@[simp] theorem length_leBytesInt (n : Int) : (leBytesInt n).length = 8 := length_leBytes 8 _

theorem JournalEventKind.toByte_injective : Function.Injective JournalEventKind.toByte := by
  intro a b h
  cases a <;> cases b <;> first | rfl | cases h

/-- The identifiers of the event are written with 36 characters. -/
structure StoredJournalEvent.RendersUuids (codec : Codec) (event : StoredJournalEvent) : Prop where
  execution : (codec.executionIdBytes event.executionId).length = 36
  step : ∀ stepId, event.stepId = some stepId → (codec.stepIdBytes stepId).length = 36

/-- No two step ids have the same text of 36 characters. -/
def Codec.StepIdsDistinct (codec : Codec) : Prop :=
  Set.InjOn codec.stepIdBytes {stepId | (codec.stepIdBytes stepId).length = 36}

/-- The optional step id of an event, as it is written. -/
def StoredJournalEvent.stepBytes (codec : Codec) (event : StoredJournalEvent) : List UInt8 :=
  event.stepId.elim [] codec.stepIdBytes

/-- The optional digest before an event, as it is written. -/
def StoredJournalEvent.previousBytes (event : StoredJournalEvent) : List UInt8 :=
  event.previousEventDigest.elim [] (·.val)

section Injective

variable {codec : Codec} {e f : StoredJournalEvent}

theorem StoredJournalEvent.length_stepBytes (h : e.RendersUuids codec) :
    (e.stepBytes codec).length = if e.stepId.isSome then 36 else 0 := by
  unfold stepBytes
  cases hstep : e.stepId with
  | none => rfl
  | some stepId => exact h.step stepId hstep

theorem StoredJournalEvent.length_previousBytes :
    e.previousBytes.length = if e.previousEventDigest.isSome then 32 else 0 := by
  unfold previousBytes
  cases e.previousEventDigest with
  | none => rfl
  | some digest => exact digest.2

theorem StoredJournalEvent.stepId_eq (hstep : codec.StepIdsDistinct) (he : e.RendersUuids codec)
    (hf : f.RendersUuids codec) (h : e.stepBytes codec = f.stepBytes codec) :
    e.stepId = f.stepId := by
  have hlen := congrArg List.length h
  rw [length_stepBytes he, length_stepBytes hf] at hlen
  unfold stepBytes at h
  cases hes : e.stepId with
  | none =>
      cases hfs : f.stepId with
      | none => rfl
      | some b => simp [hes, hfs] at hlen
  | some a =>
      cases hfs : f.stepId with
      | none => simp [hes, hfs] at hlen
      | some b =>
          rw [hes, hfs] at h
          exact congrArg some (hstep (he.step a hes) (hf.step b hfs) h)

theorem StoredJournalEvent.previous_eq (h : e.previousBytes = f.previousBytes) :
    e.previousEventDigest = f.previousEventDigest := by
  have hlen := congrArg List.length h
  rw [length_previousBytes, length_previousBytes] at hlen
  unfold previousBytes at h
  cases hep : e.previousEventDigest with
  | none =>
      cases hfp : f.previousEventDigest with
      | none => rfl
      | some b => simp [hep, hfp] at hlen
  | some a =>
      cases hfp : f.previousEventDigest with
      | none => simp [hep, hfp] at hlen
      | some b =>
          rw [hep, hfp] at h
          exact congrArg some (Subtype.ext h)

/-- The hashed bytes, field by field. -/
theorem StoredJournalEvent.material_eq (codec : Codec) (e : StoredJournalEvent) :
    e.material codec = codec.executionIdBytes e.executionId ++ (leBytes 8 e.sequence.toNat
      ++ (e.stepBytes codec ++ ([e.kind.toByte] ++ (e.payloadDigest.val
        ++ (e.previousBytes ++ leBytesInt e.occurredAtUnixMs.toInt))))) := by
  simp only [material, eventMaterial, stepBytes, previousBytes, List.append_assoc]

/-- The length of the hashed bytes says which optional fields are there. -/
theorem StoredJournalEvent.length_material (h : e.RendersUuids codec) :
    (e.material codec).length = 85 + (if e.stepId.isSome then 36 else 0)
      + (if e.previousEventDigest.isSome then 32 else 0) := by
  have hpayload := e.payloadDigest.2
  rw [material_eq]
  simp only [List.length_append, length_stepBytes h, length_previousBytes, h.execution, hpayload,
    length_leBytes, length_leBytesInt, List.length_singleton]
  omega

/-- The hashed bytes determine every field they are made of. -/
theorem StoredJournalEvent.material_inj (hstep : codec.StepIdsDistinct)
    (he : e.RendersUuids codec) (hf : f.RendersUuids codec)
    (hid : e.executionId = f.executionId) (h : e.material codec = f.material codec) :
    e.sequence = f.sequence ∧ e.stepId = f.stepId ∧ e.kind = f.kind ∧
      e.payloadDigest = f.payloadDigest ∧ e.previousEventDigest = f.previousEventDigest ∧
      e.occurredAtUnixMs = f.occurredAtUnixMs := by
  -- 85, 117, 121 and 153 bytes: the lengths tell the four cases apart
  have hlen := congrArg List.length h
  rw [length_material he, length_material hf] at hlen
  have hlenStep : (e.stepBytes codec).length = (f.stepBytes codec).length := by
    rw [length_stepBytes he, length_stepBytes hf]
    split_ifs at hlen ⊢ <;> omega
  have hlenPrevious : e.previousBytes.length = f.previousBytes.length := by
    rw [length_previousBytes, length_previousBytes]
    split_ifs at hlen ⊢ <;> omega
  rw [material_eq, material_eq, hid] at h
  obtain ⟨-, h⟩ := List.append_inj h rfl
  obtain ⟨hsequence, h⟩ := List.append_inj h (by simp)
  obtain ⟨hstepBytes, h⟩ := List.append_inj h hlenStep
  obtain ⟨hkind, h⟩ := List.append_inj h rfl
  obtain ⟨hpayload, h⟩ := List.append_inj h (e.payloadDigest.2.trans f.payloadDigest.2.symm)
  obtain ⟨hprevious, htime⟩ := List.append_inj h hlenPrevious
  refine ⟨?_, stepId_eq hstep he hf hstepBytes, ?_, Subtype.ext hpayload, previous_eq hprevious,
    leBytesInt_inj htime⟩
  · exact UInt64.toNat_inj.1 (leBytes_inj e.sequence.toNat_lt f.sequence.toNat_lt hsequence)
  · exact JournalEventKind.toByte_injective (List.singleton_inj.1 hkind)

end Injective

/-! ## The readers agree -/

theorem saturatingSucc_sequenceAt (index : Nat) :
    saturatingSucc (sequenceAt index) = sequenceAt (index + 1) := by
  unfold saturatingSucc sequenceAt
  by_cases h : index + 1 < 2 ^ 64
  · rw [if_pos (by omega : index < 2 ^ 64), if_pos h]
    have hne : UInt64.ofNat index ≠ UInt64.ofNat (2 ^ 64 - 1) := by
      intro heq
      have := congrArg UInt64.toNat heq
      rw [UInt64.toNat_ofNat', UInt64.toNat_ofNat'] at this
      omega
    rw [if_neg hne, UInt64.ofNat_add]
    rfl
  · rw [if_neg h]
    by_cases hlast : index < 2 ^ 64
    · obtain rfl : index = 2 ^ 64 - 1 := by omega
      simp
    · rw [if_neg hlast, if_pos rfl]

/-- What the reader of the external journal knows of an execution, and where the loop stands. -/
def HeadAt (index : Nat) (previous : Option Bytes32) (last : Option (UInt64 × Bytes32)) : Prop :=
  match last with
  | none => index = 0 ∧ previous = none
  | some (sequence, digest) =>
      ∃ before, index = before + 1 ∧ sequence = sequenceAt before ∧ previous = some digest

theorem chainAccepts_eq {codec : Codec} {index : Nat} {previous : Option Bytes32}
    {last : Option (UInt64 × Bytes32)} (h : HeadAt index previous last)
    (event : StoredJournalEvent) :
    chainAccepts codec last event = storedLinked codec index previous event := by
  rcases last with - | ⟨sequence, digest⟩
  · obtain ⟨rfl, rfl⟩ := h
    rfl
  · obtain ⟨before, rfl, rfl, rfl⟩ := h
    simp only [chainAccepts, storedLinked, saturatingSucc_sequenceAt]

theorem validateEventChains_from {codec : Codec} {executionId : ExecutionId} :
    ∀ {events : List StoredJournalEvent} {index : Nat} {previous : Option Bytes32}
      {last : JournalChainHeads}, (∀ event ∈ events, event.executionId = executionId) →
      HeadAt index previous (last executionId) →
      ((validateEventChains codec events last).isOk ↔
        ChainedLog.validFrom (storedLinked codec) (·.eventDigest) index previous events = true) := by
  intro events
  induction events with
  | nil => exact fun _ _ => ⟨fun _ => rfl, fun _ => rfl⟩
  | cons event rest ih =>
      intro index previous last hids hhead
      obtain rfl : event.executionId = executionId := hids event (List.mem_cons_self ..)
      rw [validateEventChains, chainAccepts_eq hhead, ChainedLog.validFrom, Bool.and_eq_true]
      by_cases hlinked : storedLinked codec index previous event = true
      · rw [if_pos hlinked, ih (fun e he => hids e (List.mem_cons_of_mem _ he)) ?_]
        · exact ⟨fun h => ⟨hlinked, h⟩, fun h => h.2⟩
        · -- the event is at the place the loop stands at
          rw [Function.update_self]
          rw [storedLinked, Bool.and_eq_true, decide_eq_true_eq] at hlinked
          exact ⟨index, rfl, hlinked.1, rfl⟩
      · rw [if_neg hlinked]
        exact ⟨(fun h => by cases h), fun h => absurd h.1 hlinked⟩

/-- For the events of one execution, both readers accept the same lists. -/
theorem validateEventChains_isOk {codec : Codec} {executionId : ExecutionId}
    {events : List StoredJournalEvent} (hids : ∀ event ∈ events, event.executionId = executionId) :
    (validateEventChains codec events fun _ => none).isOk ↔
      validateExecutionJournalLoop codec events = true :=
  validateEventChains_from hids ⟨rfl, rfl⟩

/-! ## Accepted lists with the same end -/

/-- What is hashed for an event. -/
def StoredJournalEvent.hashed (codec : Codec) (event : StoredJournalEvent) : List (List UInt8) :=
  [event.payload, event.material codec]

/-- No two different inputs among those hashed for the events have the same digest. -/
def CollisionFree (codec : Codec) (events : List StoredJournalEvent) : Prop :=
  Set.InjOn codec.blake3 {input | ∃ event ∈ events, input ∈ event.hashed codec}

/-- Two verified events with the same digest are equal, and so are the digests before them. -/
theorem StoredJournalEvent.eq_of_eventDigest_eq {codec : Codec} {e f : StoredJournalEvent}
    {events : List StoredJournalEvent} {p q : Option Bytes32} (hfree : CollisionFree codec events)
    (hstep : codec.StepIdsDistinct) (hme : e ∈ events) (hmf : f ∈ events)
    (he : e.RendersUuids codec) (hf : f.RendersUuids codec)
    (hid : e.executionId = f.executionId) (hve : e.verify codec p = true)
    (hvf : f.verify codec q = true) (h : e.eventDigest = f.eventDigest) : e = f ∧ p = q := by
  obtain ⟨rfl, hpe, hde⟩ := verify_eq_true.1 hve
  obtain ⟨rfl, hpf, hdf⟩ := verify_eq_true.1 hvf
  have hmaterial : e.material codec = f.material codec :=
    hfree ⟨e, hme, by simp [hashed]⟩ ⟨f, hmf, by simp [hashed]⟩ (by rw [hde, hdf, h])
  obtain ⟨hsequence, hstepId, hkind, hdigest, hprevious, htime⟩ :=
    material_inj hstep he hf hid hmaterial
  have hpayload : e.payload = f.payload :=
    hfree ⟨e, hme, by simp [hashed]⟩ ⟨f, hmf, by simp [hashed]⟩ (by rw [hpe, hpf, hdigest])
  refine ⟨?_, hprevious⟩
  cases e
  cases f
  simp_all only

/-- **Hash-chained journals are tamper-evident.** Of the events of one execution, two lists a reader
    accepts that end in the same digest are equal; and both readers accept the same lists. -/
theorem journal_tamper_evident (codec : Codec) (executionId : ExecutionId)
    (events events' : List StoredJournalEvent) (hstep : codec.StepIdsDistinct)
    (hids : ∀ event ∈ events ++ events',
      event.executionId = executionId ∧ event.RendersUuids codec)
    (hfree : CollisionFree codec (events ++ events')) :
    (∀ list ∈ [events, events'], (validateEventChains codec list fun _ => none).isOk ↔
      validateExecutionJournalLoop codec list = true) ∧
    ((validateEventChains codec events fun _ => none).isOk →
      (validateEventChains codec events' fun _ => none).isOk →
      events.getLast?.map (·.eventDigest) = events'.getLast?.map (·.eventDigest) →
      events = events') := by
  have hleft : ∀ event ∈ events, event.executionId = executionId := fun event h =>
    (hids event (List.mem_append_left _ h)).1
  have hright : ∀ event ∈ events', event.executionId = executionId := fun event h =>
    (hids event (List.mem_append_right _ h)).1
  refine ⟨?_, fun ha hb hlast => ?_⟩
  · simp only [List.mem_cons, List.not_mem_nil, or_false, forall_eq_or_imp, forall_eq]
    exact ⟨validateEventChains_isOk hleft, validateEventChains_isOk hright⟩
  · refine ChainedLog.eq_of_head_eq (fun n m p q e he f hf hle hlf hdigest => ?_)
      ((validateEventChains_isOk hleft).1 ha) ((validateEventChains_isOk hright).1 hb) hlast
    have hme := List.mem_append_left events' he
    have hmf := List.mem_append_right events hf
    rw [storedLinked, Bool.and_eq_true] at hle hlf
    exact StoredJournalEvent.eq_of_eventDigest_eq hfree hstep hme hmf (hids e hme).2 (hids f hmf).2
      ((hids e hme).1.trans (hids f hmf).1.symm) hle.2 hlf.2 hdigest

/-! ## A small journal -/

def hexDigit (d : Nat) : UInt8 := UInt8.ofNat (if d < 10 then 48 + d else 87 + d)

/-- The `width` lowest hexadecimal digits of `n`, the highest first. -/
def hexText (width n : Nat) : List UInt8 :=
  ((List.range width).map fun i => hexDigit (n / 16 ^ i % 16)).reverse

/-- The hyphenated text of a UUID. -/
def uuidText (n : Nat) : List UInt8 :=
  if n < 2 ^ 128 then
    hexText 8 (n / 16 ^ 24) ++ [45] ++ hexText 4 (n / 16 ^ 20) ++ [45] ++ hexText 4 (n / 16 ^ 16)
      ++ [45] ++ hexText 4 (n / 16 ^ 12) ++ [45] ++ hexText 12 n
  else []

theorem hexText_inj {width n m : Nat} (h : hexText width n = hexText width m) :
    n % 16 ^ width = m % 16 ^ width := by
  refine mod_pow_eq_of_digits fun i hi => ?_
  have hdigit := List.map_inj_left.1 (List.reverse_injective h) i (List.mem_range.2 hi)
  have hn : n / 16 ^ i % 16 < 16 := Nat.mod_lt _ (by decide)
  have hm : m / 16 ^ i % 16 < 16 := Nat.mod_lt _ (by decide)
  have hnat := congrArg UInt8.toNat hdigit
  simp only [hexDigit, UInt8.toNat_ofNat'] at hnat
  split_ifs at hnat <;> omega

@[simp] theorem length_hexText (width n : Nat) : (hexText width n).length = width := by
  simp [hexText]

theorem uuidText_injOn : Set.InjOn uuidText {n | (uuidText n).length = 36} := by
  intro n hn m hm h
  have hlt : ∀ k, (uuidText k).length = 36 → k < 2 ^ 128 := by
    intro k hk
    by_contra hge
    rw [uuidText, if_neg hge] at hk
    cases hk
  have hn' := hlt n hn
  have hm' := hlt m hm
  rw [uuidText, uuidText, if_pos hn', if_pos hm'] at h
  simp only [List.append_assoc] at h
  obtain ⟨h1, h⟩ := List.append_inj h (by simp)
  obtain ⟨-, h⟩ := List.append_inj h rfl
  obtain ⟨h2, h⟩ := List.append_inj h (by simp)
  obtain ⟨-, h⟩ := List.append_inj h rfl
  obtain ⟨h3, h⟩ := List.append_inj h (by simp)
  obtain ⟨-, h⟩ := List.append_inj h rfl
  obtain ⟨h4, h⟩ := List.append_inj h (by simp)
  obtain ⟨-, h5⟩ := List.append_inj h rfl
  have h1 := hexText_inj h1
  have h2 := hexText_inj h2
  have h3 := hexText_inj h3
  have h4 := hexText_inj h4
  have h5 := hexText_inj h5
  omega

/-- The hyphenated text of a UUID as a string. -/
def uuidString (n : Nat) : String :=
  String.ofList ((uuidText n).map Char.ofUInt8)

theorem uuidString_injOn : Set.InjOn uuidString {n | n < 2 ^ 128} := by
  have hchar : Function.Injective Char.ofUInt8 := by
    intro a b h
    exact UInt8.toUInt32_inj.1 (congrArg Char.val h)
  have hlength : ∀ k < 2 ^ 128, (uuidText k).length = 36 := by
    intro k hk
    rw [uuidText, if_pos hk]
    simp
  intro n hn m hm h
  refine uuidText_injOn (hlength n hn) (hlength m hm) ?_
  exact List.map_injective_iff.2 hchar (String.ofList_injective h)

/-- Identifiers as texts, and a digest that tells inputs of different lengths apart. -/
def uuidCodec : Codec where
  blake3 := fun input => Bytes32.filled (UInt8.ofNat input.length)
  payloadBytes := fun _ => []
  executionIdBytes := uuidText
  stepIdBytes := uuidText

/-- An approval and an intent. -/
def sampleStoredEvents : List StoredJournalEvent :=
  let approval := StoredJournalEvent.new uuidCodec 1 0 none .approvedDurable [1] none 5
  [approval, .new uuidCodec 1 1 (some 7) .intentDurable [1, 2] (some approval.eventDigest) 6]

theorem collisionFree_of_all {codec : Codec} {events : List StoredJournalEvent}
    (h : ∀ x ∈ events.flatMap (·.hashed codec), ∀ y ∈ events.flatMap (·.hashed codec),
      codec.blake3 x = codec.blake3 y → x = y) : CollisionFree codec events := by
  rintro x ⟨e, he, hx⟩ y ⟨f, hf, hy⟩ heq
  exact h x (List.mem_flatMap.2 ⟨e, he, hx⟩) y (List.mem_flatMap.2 ⟨f, hf, hy⟩) heq

theorem sampleStoredEvents_rendersUuids :
    ∀ event ∈ sampleStoredEvents, event.executionId = 1 ∧ event.RendersUuids uuidCodec := by
  intro event hmem
  have hall : ∀ e ∈ sampleStoredEvents, e.executionId = 1 ∧ (e.stepId = none ∨ e.stepId = some 7) :=
    by decide +kernel
  obtain ⟨hid, hstep⟩ := hall event hmem
  refine ⟨hid, ?_, fun stepId hs => ?_⟩
  · rw [hid]
    decide +kernel
  · rcases hstep with hstep | hstep <;> rw [hstep] at hs
    · cases hs
    · obtain rfl := Option.some.inj hs
      decide +kernel

theorem journal_tamper_evident_sample :
    (validateEventChains uuidCodec sampleStoredEvents fun _ => none).isOk ∧
    ((∀ list ∈ [sampleStoredEvents, sampleStoredEvents],
        (validateEventChains uuidCodec list fun _ => none).isOk ↔
          validateExecutionJournalLoop uuidCodec list = true) ∧
      ((validateEventChains uuidCodec sampleStoredEvents fun _ => none).isOk →
        (validateEventChains uuidCodec sampleStoredEvents fun _ => none).isOk →
        sampleStoredEvents.getLast?.map (·.eventDigest)
          = sampleStoredEvents.getLast?.map (·.eventDigest) →
        sampleStoredEvents = sampleStoredEvents)) :=
  ⟨by decide +kernel, journal_tamper_evident uuidCodec 1 sampleStoredEvents sampleStoredEvents
    uuidText_injOn
    (fun event h => sampleStoredEvents_rendersUuids event
      ((List.mem_append.1 h).elim id id))
    (collisionFree_of_all (by decide +kernel))⟩

end Zemo
