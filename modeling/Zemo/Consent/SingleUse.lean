import Zemo.Consent.Lifecycle

set_option autoImplicit false

/-! # Single use of a consent

Over every list of consent calls: the stored rows stay readable and agree, the session starts to
run at most once, and it does so from an attested consent that carries the nonce, the times and the
authenticator of the challenge issued last, before that challenge expires. -/

namespace Zemo

variable {authority : ConsentAuthority} {ctx : StoreContext} {db db' : Database}

/-! ## What is remembered of a run -/

/-- The nonce and times of a challenge. -/
abbrev IssuedChallenge := Bytes32 × Int × Int

/-- The challenge issued last, after one more call. -/
def ConsentCall.noteIssued (authority : ConsentAuthority) (ctx : StoreContext) (call : ConsentCall)
    (db : Database) (last : Option IssuedChallenge) : Option IssuedChallenge :=
  match call, (call.run authority ctx db).1 with
  | .issue nonce issued expires, .ok _ => some (nonce, issued, expires)
  | _, _ => last

/-- The challenge issued last in a run. -/
def lastIssued (authority : ConsentAuthority) (ctx : StoreContext) (db : Database)
    (calls : List ConsentCall) : Option IssuedChallenge :=
  (Run.afterWith (ConsentCall.step authority ctx) (ConsentCall.noteIssued authority ctx) db none
    calls).2

/-- The call takes the session to `running`. -/
def ConsentCall.starts (authority : ConsentAuthority) (ctx : StoreContext) (call : ConsentCall)
    (db : Database) : Prop :=
  db.session.status ≠ .running ∧ (call.step authority ctx db).session.status = .running

instance (call : ConsentCall) (db : Database) : Decidable (call.starts authority ctx db) := by
  unfold ConsentCall.starts; exact inferInstance

/-- How often the session went to `running`, after one more call. -/
def ConsentCall.noteStart (authority : ConsentAuthority) (ctx : StoreContext) (call : ConsentCall)
    (db : Database) (count : Nat) : Nat :=
  if call.starts authority ctx db then count + 1 else count

/-- How often the session goes to `running` in a run. -/
def startCount (authority : ConsentAuthority) (ctx : StoreContext) (db : Database)
    (calls : List ConsentCall) : Nat :=
  (Run.afterWith (ConsentCall.step authority ctx) (ConsentCall.noteStart authority ctx) db 0 calls).2

/-! ## The material of the stored challenge -/

/-- What a challenge of this plan with this nonce and these times is bound to. -/
def Database.challengeMaterial (authority : ConsentAuthority) (db : Database) (nonce : Bytes32)
    (issued expires : Int) : Option ConsentAttestationBinding :=
  consentAttestationMaterial authority db.rows nonce issued expires

/-- No call changes what challenges are bound to. -/
theorem ConsentEffect.challengeMaterial {call : ConsentCall}
    (h : ConsentEffect authority db call db') (nonce : Bytes32) (issued expires : Int) :
    db'.challengeMaterial authority nonce issued expires
      = db.challengeMaterial authority nonce issued expires := by
  have key : ∀ {a b : Database}, a.consent.materialVersion = b.consent.materialVersion →
      a.consent.destinationRoot = b.consent.destinationRoot →
      a.consent.safetyPolicy = b.consent.safetyPolicy →
      a.session.id = b.session.id → a.session.rootId = b.session.rootId →
      { a.snapshot with userConfirmed := false, approvedAt := none }
        = { b.snapshot with userConfirmed := false, approvedAt := none } →
      a.challengeMaterial authority nonce issued expires
        = b.challengeMaterial authority nonce issued expires := by
    intro a b h1 h2 h3 h4 h5 h6
    simp only [ApprovalSnapshotRow.mk.injEq] at h6
    obtain ⟨e1, e2, e3, e4, e5, e6, e7, -, -, e8⟩ := h6
    simp only [Database.challengeMaterial, consentAttestationMaterial, Database.rows, h1, h2, h3,
      h4, h5, e1, e2, e3, e4, e5, e6, e7, e8]
    rfl
  obtain ⟨b1, b2, b3⟩ := h.binding
  cases h with
  | issued _ _ _ _ session snapshot | withdrawn _ _ _ _ _ _ session snapshot =>
      exact key b1 b2 b3 (by rw [session, SessionRow.unapproved])
        (by rw [session, SessionRow.unapproved]) (by rw [snapshot])
  | attested _ _ _ _ _ _ session snapshot =>
      exact key b1 b2 b3 (by rw [session]) (by rw [session]) (by rw [snapshot])
  | consumed _ _ _ _ _ _ _ _ _ session snapshot =>
      obtain ⟨_, session⟩ := session
      exact key b1 b2 b3 (by rw [session]) (by rw [session]) (by rw [snapshot])
  | controlled _ _ _ _ snapshot ids => exact key b1 b2 b3 ids.1 ids.2 (by rw [snapshot])

/-! ## The stored challenge is the last one issued -/

/-- A challenge that can still be attested or consumed is the one issued last, and an attested one
    carries its authenticator. -/
structure CarriesLastIssued (authority : ConsentAuthority) (db : Database)
    (last : Option IssuedChallenge) : Prop where
  current : db.consent.consent.state = .pending ∨ db.consent.consent.state = .attested →
    ∀ nonce, db.consent.consent.nonce = some nonce → ∃ issued expires,
      last = some (nonce, issued, expires) ∧ db.consent.consent.issuedAtUnixMs = some issued
        ∧ db.consent.consent.expiresAtUnixMs = some expires
  authenticated : db.consent.consent.state = .attested → ∃ nonce issued expires material,
    db.consent.consent.nonce = some nonce ∧ db.consent.consent.issuedAtUnixMs = some issued ∧
      db.consent.consent.expiresAtUnixMs = some expires ∧
      db.challengeMaterial authority nonce issued expires = some material ∧
      db.consent.consent.attestationMac = some (authority.sign material)

theorem CarriesLastIssued.effect {call : ConsentCall} {last : Option IssuedChallenge}
    (hc : CarriesLastIssued authority db last) (h : ConsentEffect authority db call db')
    (hcall : ∀ nonce issued expires, call ≠ .issue nonce issued expires) :
    CarriesLastIssued authority db' last := by
  have hmat := h.challengeMaterial
  cases h with
  | issued => exact absurd rfl (hcall _ _ _)
  | @attested challenge now _ authentic material pending _ _ consent =>
      obtain ⟨_, consent⟩ := consent
      obtain ⟨detail, hdetail, hmaterial⟩ := material
      obtain ⟨hstate, hnonce, hissued, hexpires, -⟩ := pending
      refine ⟨fun _ nonce hn => ?_, fun _ => ?_⟩
      · rw [consent] at hn ⊢
        exact hc.current (.inl hstate) nonce hn
      · refine ⟨_, _, _, challenge.material, by rw [consent]; exact hnonce,
          by rw [consent]; exact hissued, by rw [consent]; exact hexpires, ?_, ?_⟩
        · rw [hmat, Database.challengeMaterial, ← (Database.executionDetail_eq_ok hdetail).2]
          exact hmaterial
        · rw [consent]
          exact congrArg some authentic.symm
  | withdrawn state isCall _ _ _ consent =>
      obtain ⟨_, _, _, consent⟩ := consent
      have hstate : db'.consent.consent.state = .expired ∨ db'.consent.consent.state = .invalidated := by
        rw [consent]
        rcases isCall with ⟨_, -, rfl⟩ | ⟨_, _, -, rfl⟩
        · exact .inl rfl
        · exact .inr rfl
      refine ⟨fun hs => ?_, fun hs => ?_⟩
      · rcases hs with hs | hs <;> rcases hstate with h' | h' <;> rw [hs] at h' <;> cases h'
      · rcases hstate with h' | h' <;> rw [hs] at h' <;> cases h'
  | consumed _ _ _ _ _ _ _ _ consent =>
      obtain ⟨_, consent⟩ := consent
      refine ⟨fun hs => ?_, fun hs => ?_⟩ <;> rw [consent] at hs <;> simp at hs
  | controlled _ _ _ consent =>
      refine ⟨?_, ?_⟩
      · rw [consent]
        exact hc.current
      · rw [consent]
        simpa only [hmat] using hc.authenticated

/-- An issue that succeeds had its effect. -/
theorem issue_run_ok {nonce : Bytes32} {issued expires : Int} {b : Bool}
    (h : ((ConsentCall.issue nonce issued expires).run authority ctx db).1 = .ok b) :
    ∃ changed, ((ConsentCall.issue nonce issued expires).step authority ctx db).consent =
      { db.consent with
        consent :=
          { state := .pending, issuedAtUnixMs := some issued, expiresAtUnixMs := some expires,
            attestedAtUnixMs := none, consumedAtUnixMs := none, invalidatedAtUnixMs := none,
            invalidationReason := none, nonce := some nonce, attestationMac := none }
        stateChangedAtUnixMs := changed } := by
  unfold ConsentCall.step
  simp only [ConsentCall.run, answered, Database.issueExecutionConsentChallenge] at h ⊢
  split at h
  · simp [Except.map] at h
  · rw [if_neg ‹_›, Database.thenDetail_snd]
    unfold Database.transact at h ⊢
    split at h
    · rename_i db₁ u heq
      obtain ⟨-, -, -, -, rfl⟩ := issueConsentTx_eq_commit heq
      exact ⟨issued, rfl⟩
    · rename_i heq
      simp only [issueConsentTx, Checked.bind_eq_ok] at heq
      obtain ⟨_, -, _, -, _, -, _, -, _, -, _, -, heq⟩ := heq
      cases heq
    · simp [Database.thenDetail, Except.map] at h

theorem noteIssued_issue_ok {nonce : Bytes32} {issued expires : Int} {last : Option IssuedChallenge}
    {b : Bool} (h : ((ConsentCall.issue nonce issued expires).run authority ctx db).1 = .ok b) :
    (ConsentCall.issue nonce issued expires).noteIssued authority ctx db last
      = some (nonce, issued, expires) := by
  simp only [ConsentCall.noteIssued, h]

theorem noteIssued_issue_error {nonce : Bytes32} {issued expires : Int}
    {last : Option IssuedChallenge} {e : PersistenceError}
    (h : ((ConsentCall.issue nonce issued expires).run authority ctx db).1 = .error e) :
    (ConsentCall.issue nonce issued expires).noteIssued authority ctx db last = last := by
  simp only [ConsentCall.noteIssued, h]

theorem CarriesLastIssued.step (call : ConsentCall) {last : Option IssuedChallenge}
    (hi : ConsentInvariant db) (hc : CarriesLastIssued authority db last) :
    CarriesLastIssued authority (call.step authority ctx db)
      (call.noteIssued authority ctx db last) := by
  by_cases hissue : ∃ nonce issued expires, call = .issue nonce issued expires
  · obtain ⟨nonce, issued, expires, rfl⟩ := hissue
    cases hrun : ((ConsentCall.issue nonce issued expires).run authority ctx db).1 with
    | error e =>
        rw [ConsentCall.run_error hi hrun, noteIssued_issue_error hrun]
        exact hc
    | ok b =>
        obtain ⟨_, consent⟩ := issue_run_ok hrun
        rw [noteIssued_issue_ok hrun]
        refine ⟨fun _ n hn => ?_, fun hs => ?_⟩
        · rw [consent] at hn ⊢
          obtain rfl : nonce = n := by simpa using hn
          exact ⟨issued, expires, rfl, rfl, rfl⟩
        · rw [consent] at hs
          simp at hs
  · have hcall : ∀ nonce issued expires, call ≠ .issue nonce issued expires :=
      fun n i e h => hissue ⟨n, i, e, h⟩
    have hnote : call.noteIssued authority ctx db last = last := by
      unfold ConsentCall.noteIssued
      split
      · exact absurd rfl (hcall _ _ _)
      · rfl
    rw [hnote]
    rcases call.step_cases authority ctx db with h | h
    · rw [h]
      exact hc
    · exact hc.effect h hcall

/-! ## Starting to run -/

/-- Only a consumption takes the session to `running`, from an attested consent in time. -/
theorem ConsentCall.starts_cases {call : ConsentCall} (h : call.starts authority ctx db) :
    ∃ nonce issued expires mac now, call = .consume nonce issued expires mac now ∧
      db.consent.consent.state = .attested ∧ db.consent.consent.nonce = some nonce ∧
      db.consent.consent.issuedAtUnixMs = some issued ∧
      db.consent.consent.expiresAtUnixMs = some expires ∧
      db.consent.consent.attestationMac = some mac ∧ now ≤ expires ∧
      (call.step authority ctx db).consent.consent.state = .consumed := by
  obtain ⟨hbefore, hafter⟩ := h
  rcases call.step_cases authority ctx db with h | h
  · exact absurd (h ▸ hafter) hbefore
  · generalize hdb : call.step authority ctx db = db' at h hafter
    cases h with
    | issued _ _ _ _ session | withdrawn _ _ _ _ _ _ session =>
        rw [session] at hafter
        simp [SessionRow.unapproved] at hafter
    | attested _ _ _ _ _ _ session =>
        rw [session] at hafter
        simp at hafter
    | consumed state nonceEq issuedEq expiresEq macEq inTime _ _ consent =>
        obtain ⟨_, consent⟩ := consent
        exact ⟨_, _, _, _, _, rfl, state, nonceEq, issuedEq, expiresEq, macEq, inTime,
          by rw [consent]⟩
    | controlled _ status =>
        rcases status with h | h
        · rw [h] at hafter
          simp at hafter
        · exact absurd (h ▸ hafter) hbefore

/-- A consumed consent stays consumed. -/
theorem ConsentCall.step_consumed (call : ConsentCall)
    (h : db.consent.consent.state = .consumed) :
    (call.step authority ctx db).consent.consent.state = .consumed := by
  rcases call.step_cases authority ctx db with heq | heff
  · rw [heq]
    exact h
  · generalize call.step authority ctx db = db' at heff
    cases heff with
    | issued state => rw [h] at state; simp at state
    | attested _ _ pending => have := pending.1; rw [h] at this; simp at this
    | withdrawn _ _ _ old => exact absurd h old
    | consumed state => rw [h] at state; simp at state
    | controlled _ _ _ consent => rw [consent]; exact h

/-- The run invariant of the number of starts. -/
def StartedOnce (db : Database) (count : Nat) : Prop :=
  count = 0 ∨ count = 1 ∧ db.consent.consent.state = .consumed

theorem StartedOnce.step (call : ConsentCall) {count : Nat} (h : StartedOnce db count) :
    StartedOnce (call.step authority ctx db) (call.noteStart authority ctx db count) := by
  unfold ConsentCall.noteStart
  split
  · rename_i hstarts
    obtain ⟨_, _, _, _, _, -, hstate, -, -, -, -, -, hconsumed⟩ := ConsentCall.starts_cases hstarts
    rcases h with rfl | ⟨-, h⟩
    · exact .inr ⟨rfl, hconsumed⟩
    · rw [hstate] at h
      cases h
  · exact h.imp_right fun ⟨h1, h2⟩ => ⟨h1, call.step_consumed h2⟩

/-! ## The result -/

/-- What holds of the rows a run of consent calls leads to, and of every next call. -/
structure ConsentSafe (authority : ConsentAuthority) (ctx : StoreContext) (start : Database)
    (calls : List ConsentCall) (db : Database) : Prop where
  /-- The stored consent is one the reader accepts. -/
  valid : validateStoredConsent db.consent = true
  approved : db.session.status = .approved →
    db.consent.consent.state = .attested ∧ db.session.userConfirmed = true
  awaiting : db.session.status = .awaitingConfirmation → db.session.userConfirmed = false
  /-- The session went to `running` at most once. -/
  once : startCount authority ctx start calls ≤ 1
  /-- It does so from an attested consent that carries the last issued challenge, in time. -/
  current : ∀ call : ConsentCall, call.starts authority ctx db →
    ∃ nonce issued expires mac now material, call = .consume nonce issued expires mac now ∧
      db.consent.consent.state = .attested ∧
      db.consent.consent.nonce = some nonce ∧
      db.consent.consent.issuedAtUnixMs = some issued ∧
      db.consent.consent.expiresAtUnixMs = some expires ∧
      db.consent.consent.attestationMac = some mac ∧
      lastIssued authority ctx start calls = some (nonce, issued, expires) ∧
      db.challengeMaterial authority nonce issued expires = some material ∧
      mac = authority.sign material ∧ now ≤ expires
  /-- A call that fails changes none of the three rows. -/
  failure : ∀ (call : ConsentCall) (e : PersistenceError),
    (call.run authority ctx db).1 = .error e →
      (call.step authority ctx db).consent = db.consent ∧
      (call.step authority ctx db).session = db.session ∧
      (call.step authority ctx db).snapshot = db.snapshot

/-- **A consent is single-use, current and unexpired.** After any consent calls in any order and at
    any times, from the rows of a prepared execution. -/
theorem consent_single_use (authority : ConsentAuthority) (ctx : StoreContext) {start : Database}
    (h : Prepared start) (calls : List ConsentCall) :
    ConsentSafe authority ctx start calls
      (Run.after (ConsentCall.step authority ctx) start calls) := by
  have hinv : ConsentInvariant (Run.after (ConsentCall.step authority ctx) start calls) :=
    Run.invariant (fun call _ hi => hi.step call) calls h.rows.consentInvariant
  have hcarries : ConsentInvariant (Run.after (ConsentCall.step authority ctx) start calls) ∧
      CarriesLastIssued authority (Run.after (ConsentCall.step authority ctx) start calls)
        (lastIssued authority ctx start calls) := by
    have hstart : CarriesLastIssued authority start none :=
      ⟨fun _ n hn => by simp [h.rows.consent, ExecutionConsent.pending] at hn,
        fun hs => by simp [h.rows.consent, ExecutionConsent.pending] at hs⟩
    have hstep : ∀ call db last, ConsentInvariant db ∧ CarriesLastIssued authority db last →
        ConsentInvariant (ConsentCall.step authority ctx call db) ∧
          CarriesLastIssued authority (call.step authority ctx db)
            (call.noteIssued authority ctx db last) :=
      fun call _ _ hj => ⟨hj.1.step call, hj.2.step call hj.1⟩
    have hrun := Run.invariantWith hstep calls ⟨h.rows.consentInvariant, hstart⟩
    rwa [Run.afterWith_fst] at hrun
  have hstep : ∀ call db count, StartedOnce db count →
      StartedOnce (ConsentCall.step authority ctx call db) (call.noteStart authority ctx db count) :=
    fun call _ _ hj => hj.step call
  have honce : StartedOnce _ (startCount authority ctx start calls) :=
    Run.invariantWith hstep calls (.inl rfl)
  refine ⟨hinv.valid, hinv.approved, hinv.awaiting, ?_, fun call hstarts => ?_, fun call e he => ?_⟩
  · rcases honce with h0 | ⟨h1, -⟩ <;> omega
  · obtain ⟨nonce, issued, expires, mac, now, rfl, hstate, hn, hi, he, hm, htime, -⟩ :=
      ConsentCall.starts_cases hstarts
    obtain ⟨i', e', hlast, hi', he'⟩ := hcarries.2.current (.inr hstate) nonce hn
    obtain ⟨n₂, i₂, e₂, material, hn₂, hi₂, he₂, hmaterial, hmac⟩ := hcarries.2.authenticated hstate
    rw [hi] at hi' hi₂
    rw [he] at he' he₂
    rw [hn] at hn₂
    rw [hm] at hmac
    obtain rfl := Option.some.inj hi'
    obtain rfl := Option.some.inj he'
    obtain rfl := Option.some.inj hn₂
    obtain rfl := Option.some.inj hi₂
    obtain rfl := Option.some.inj he₂
    exact ⟨nonce, issued, expires, mac, now, material, rfl, hstate, hn, hi, he, hm, hlast,
      hmaterial, Option.some.inj hmac, htime⟩
  · rw [ConsentCall.run_error hinv he]
    exact ⟨rfl, rfl, rfl⟩

/-- A run in which the session starts. -/
theorem consent_single_use_sample :
    ConsentSafe sampleAuthority sampleContext sampleRows
      [.issue (Bytes32.filled 4) 1 9, .attest sampleChallenge 2,
        .consume (Bytes32.filled 4) 1 9 (Bytes32.filled 3) 3]
      (Run.after (ConsentCall.step sampleAuthority sampleContext) sampleRows
        [.issue (Bytes32.filled 4) 1 9, .attest sampleChallenge 2,
          .consume (Bytes32.filled 4) 1 9 (Bytes32.filled 3) 3]) :=
  consent_single_use sampleAuthority sampleContext sampleRows_prepared _

/-- The run does start the session. -/
example : startCount sampleAuthority sampleContext sampleRows
    [.issue (Bytes32.filled 4) 1 9, .attest sampleChallenge 2,
      .consume (Bytes32.filled 4) 1 9 (Bytes32.filled 3) 3] = 1 := by
  decide

end Zemo
