import Zemo.Lib.Texts

set_option autoImplicit false

/-! # The installation of the local model

The assets of the model are fetched into a staging folder, each is verified there, the staging
folder is made the model folder, and the model folder is verified again. The status is kept in a
file of the model folder. What the fetcher leaves behind and which file operations fail is given
(`Answers`), but the operations on the status file and the removal of the temporary folders succeed.
A file operation that fails changes nothing. -/

namespace Zemo.Search.Models

open Texts

/-! ## Data -/

/-- `EmbeddingModelStatus`. -/
inductive EmbeddingModelStatus where
  | notInstalled | downloading | installing | ready | loading | unavailable | corrupt
  | incompatibleVersion | failed
  deriving DecidableEq, Repr

/-- `EmbeddingError`. -/
inductive EmbeddingError where
  | unavailable | inputLimit | invalidVector | corrupt
  | failed (message : String)
  deriving DecidableEq, Repr

/-- `EmbeddingModelAssetSpec`. -/
structure EmbeddingModelAssetSpec where
  path : String
  bytes : Nat
  sha256 : String
  deriving DecidableEq

/-- `EmbeddingModelManifest`. -/
structure EmbeddingModelManifest where
  version : String
  dimensions : Nat
  assets : List EmbeddingModelAssetSpec

/-- `GRANITE_EMBEDDING_REVISION`. -/
def graniteEmbeddingRevision : String := "835ad14087e140460703cf0fae09f97d469d65c2"

/-- `GRANITE_EMBEDDING_DIMENSIONS`. -/
def graniteEmbeddingDimensions : Nat := 384

/-- `EmbeddingModelState`, and its default. -/
structure EmbeddingModelState where
  status : EmbeddingModelStatus := .notInstalled
  installedAtUnix : Option Nat := none
  lastError : Option String := none
  assetChecksums : List (String × String) := []
  deriving DecidableEq

/-- A file, read through the link where it is one. -/
structure StoredFile where
  bytes : List UInt8
  isLink : Bool

/-- The files of a folder by their paths. -/
abbrev Folder := String → Option StoredFile

/-- The folder of an installed model, with the status file. -/
structure ModelFolder where
  files : Folder
  state : Option EmbeddingModelState

/-- The folders of the manager. -/
structure Disk where
  staging : Option Folder
  model : Option ModelFolder
  backup : Option ModelFolder

/-- What the calls of one installation answer; those about an asset by its place. A file operation
that fails answers `false`. -/
structure Answers where
  /-- `available_bytes`. -/
  available : Option Nat
  stagingCreated : Bool
  /-- The flag, as it is read before the asset at a place, and after the last one. -/
  cancelled : Nat → Bool
  /-- The error of `validate_pinned_download_url`. -/
  urlError : Nat → Option EmbeddingError
  parentCreated : Nat → Bool
  /-- What the fetcher makes of the staging folder, and its error. -/
  fetch : Nat → Folder → Folder × Option EmbeddingError
  stagedMetadata : Nat → Bool
  stagedReadable : Nat → Bool
  modelSeen : Bool
  renamedToBackup : Bool
  renamedToModel : Bool
  renamedBack : Bool
  modelIsDir : Bool
  isFile : Nat → Bool
  linkSeen : Nat → Bool
  metadata : Nat → Bool
  readable : Nat → Bool
  modelRemoved : Bool
  now : Option Nat
  /-- `format!("{:x}", Sha256)`. -/
  digest : List UInt8 → String
  /-- The text of a failed file operation. -/
  ioError : String

/-! ## The status file -/

/-- `load_state`, and the default where there is no status file. -/
def Disk.state (disk : Disk) : EmbeddingModelState := (disk.model.bind ModelFolder.state).getD {}

/-- `save_state`. -/
def Disk.saveState (disk : Disk) (state : EmbeddingModelState) : Disk :=
  { disk with model := some ⟨(disk.model.map ModelFolder.files).getD fun _ => none, some state⟩ }

/-- The staging folder is removed. -/
def Disk.removeStaging (disk : Disk) : Disk := { disk with staging := none }

/-- `abort_install`. -/
def Disk.abortInstall (disk : Disk) (reason : String) : Disk :=
  disk.removeStaging.saveState { lastError := some reason }

/-! ## Verification -/

/-- `eq_ignore_ascii_case`. -/
def sameDigest (left right : String) : Bool :=
  left.toList.map Char.toLower = right.toList.map Char.toLower

section

variable (answers : Answers)

/-- `verify_asset_file`. -/
def verifyAssetFile (place : Nat) (staging : Folder) (asset : EmbeddingModelAssetSpec) :
    Except EmbeddingError Unit :=
  match staging asset.path with
  | none => .error (.failed answers.ioError)
  | some file =>
      if !answers.stagedMetadata place then .error (.failed answers.ioError)
      else if file.bytes.length ≠ asset.bytes then .error .corrupt
      else if !answers.stagedReadable place then .error (.failed answers.ioError)
      else if !sameDigest (answers.digest file.bytes) asset.sha256 then .error .corrupt
      else .ok ()

/-- What `verify` finds of an asset. -/
inductive Finding where
  | missing
  /-- The error, and the state that is stored for it. -/
  | rejected (error : EmbeddingError) (state : Option EmbeddingModelState)
  | passed (digest : String)

/-- One turn of the loop of `verify`. -/
def verifyAsset (place : Nat) (files : Folder) (asset : EmbeddingModelAssetSpec) : Finding :=
  match files asset.path with
  | none => .missing
  | some file =>
      if !answers.isFile place then .missing
      else if file.isLink && answers.linkSeen place then
        .rejected .corrupt
          (some { status := .corrupt, lastError := some s!"symlink rejected: {asset.path}" })
      else if !answers.metadata place then .rejected (.failed answers.ioError) none
      else if file.bytes.length ≠ asset.bytes then
        .rejected .corrupt
          (some
            { status := .corrupt
              lastError := some (s!"size mismatch for {asset.path}: expected {asset.bytes} "
                ++ s!"got {file.bytes.length}") })
      else if !answers.readable place then .rejected (.failed answers.ioError) none
      else if !sameDigest (answers.digest file.bytes) asset.sha256 then
        .rejected .corrupt
          (some { status := .corrupt, lastError := some s!"checksum mismatch for {asset.path}" })
      else .passed (answers.digest file.bytes)

/-- What an installation or a part of it ends with: the answer, the disk, and the assets that failed
a verification. -/
structure Outcome where
  result : Except EmbeddingError EmbeddingModelState
  disk : Disk
  rejected : List EmbeddingModelAssetSpec := []

/-- The loop of `verify` over the assets, from a place on. -/
def verifyLoop (manifest : EmbeddingModelManifest) (files : Folder) :
    Nat → List EmbeddingModelAssetSpec → List (String × String) → Disk → Outcome
  | _, [], checksums, disk =>
      if manifest.dimensions ≠ graniteEmbeddingDimensions
          ∨ manifest.version ≠ graniteEmbeddingRevision then
        { result := .error (.failed "incompatible embedding model version")
          disk := disk.saveState
            { status := .incompatibleVersion
              lastError := some "manifest version/dimensions incompatible" } }
      else
        let state : EmbeddingModelState :=
          { status := .ready, installedAtUnix := answers.now, assetChecksums := checksums }
        { result := .ok state, disk := disk.saveState state }
  | place, asset :: rest, checksums, disk =>
      match verifyAsset answers place files asset with
      | .missing =>
          let state : EmbeddingModelState :=
            { lastError := some s!"missing asset: {asset.path}" }
          { result := .ok state, disk := disk.saveState state }
      | .rejected error state =>
          { result := .error error
            disk := (state.map disk.saveState).getD disk
            rejected := [asset] }
      | .passed digest =>
          verifyLoop manifest files (place + 1) rest (checksums ++ [(asset.path, digest)]) disk

/-- `verify`. -/
def verify (manifest : EmbeddingModelManifest) (disk : Disk) : Outcome :=
  match disk.model with
  | some model =>
      if answers.modelIsDir then verifyLoop answers manifest model.files 0 manifest.assets [] disk
      else { result := .ok {}, disk := disk.saveState {} }
  | none => { result := .ok {}, disk := disk.saveState {} }

/-! ## The installation -/

/-- What the loop over the assets ends with: an outcome, or the disk to go on with. -/
inductive Downloaded where
  | stopped (outcome : Outcome)
  | complete (disk : Disk)

/-- The error for a cancelled installation. -/
def installCancelled : EmbeddingError := .failed "installation cancelled"

/-- The loop of `install_from_pinned_network` over the assets, from a place on. -/
def downloadLoop : Nat → List EmbeddingModelAssetSpec → Folder → Disk → Downloaded
  | _, [], staging, disk => .complete { disk with staging := some staging }
  | place, asset :: rest, staging, disk =>
      let disk := { disk with staging := some staging }
      if answers.cancelled place then
        .stopped
          { result := .error installCancelled
            disk := disk.abortInstall "installation cancelled" }
      else
        match answers.urlError place with
        | some error => .stopped { result := .error error, disk }
        | none =>
            if !answers.parentCreated place then
              .stopped { result := .error (.failed answers.ioError), disk }
            else
              let fetched := answers.fetch place staging
              let disk := { disk with staging := some fetched.1 }
              match fetched.2 with
              | some error => .stopped { result := .error error, disk }
              | none =>
                  match verifyAssetFile answers place fetched.1 asset with
                  | .error error =>
                      .stopped { result := .error error, disk, rejected := [asset] }
                  | .ok () => downloadLoop (place + 1) rest fetched.1 disk

/-- The staging folder is made the model folder. -/
def promote (disk : Disk) : Except EmbeddingError Unit × Disk :=
  let disk := { disk with backup := none }
  let failed : Except EmbeddingError Unit := .error (.failed answers.ioError)
  if answers.modelSeen && disk.model.isSome then
    if !answers.renamedToBackup then (failed, disk)
    else if !answers.renamedToModel then
      (failed,
        if answers.renamedBack then disk
        else { disk with model := none, backup := disk.model })
    else
      (.ok (),
        { staging := none
          model := disk.staging.map fun files => ⟨files, none⟩
          backup := none })
  -- the model folder is in the way where it is there and not seen
  else if disk.model.isSome || !answers.renamedToModel then (failed, disk)
  else
    (.ok (),
      { staging := none, model := disk.staging.map fun files => ⟨files, none⟩, backup := none })

/-- What follows the download: the promotion, and the verification of the model folder. -/
def installStaged (manifest : EmbeddingModelManifest) (disk : Disk) : Outcome :=
  let disk := disk.saveState { status := .installing }
  match promote answers disk with
  | (.error error, disk) => { result := .error error, disk }
  | (.ok (), disk) =>
      let verified := verify answers manifest disk
      match verified.result with
      | .ok _ => verified
      | .error error =>
          let disk :=
            if answers.modelRemoved then { verified.disk with model := none } else verified.disk
          { verified with
            disk := disk.saveState
              { status := .corrupt
                lastError := some (match error with
                  | .failed message =>
                      "local embedding model failed to load or run: " ++ message
                  | .corrupt => "local embedding model is corrupt or failed integrity checks"
                  | .unavailable => "local embedding provider is unavailable"
                  | .inputLimit => "local embedding input exceeds bounded limits"
                  | .invalidVector => "local embedding provider returned an invalid vector") } }

/-- `GRANITE_EMBEDDING_APPROX_BYTES`. -/
def graniteEmbeddingApproxBytes : Nat := 123549550

/-- What `ensure_disk_budget` asks for. -/
def neededBytes : Nat := graniteEmbeddingApproxBytes * 2 + 64 * 1024 * 1024

/-- `available_bytes`, and `u64::MAX` where it is not known. -/
def Answers.availableBytes : Nat := answers.available.getD (2 ^ 64 - 1)

/-- What follows the loop over so many assets. -/
def afterDownload (manifest : EmbeddingModelManifest) (assets : Nat) : Downloaded → Outcome
  | .stopped outcome => outcome
  | .complete disk =>
      if answers.cancelled assets then
        { result := .error installCancelled
          disk := disk.abortInstall "installation cancelled" }
      else installStaged answers manifest disk

/-- `install_from_pinned_network`. -/
def installFromPinnedNetwork (manifest : EmbeddingModelManifest) (disk : Disk) : Outcome :=
  if answers.availableBytes < neededBytes then
    { result := .error (.failed (s!"insufficient disk space: need ~{neededBytes} bytes, "
        ++ s!"available {answers.availableBytes}"))
      disk }
  else if !answers.stagingCreated then
    { result := .error (.failed answers.ioError), disk := disk.removeStaging }
  else
    afterDownload answers manifest manifest.assets.length
      (downloadLoop answers 0 manifest.assets (fun _ => none)
        (disk.removeStaging.saveState { status := .downloading }))

/-- The download begins. -/
def Answers.Begins : Prop := neededBytes ≤ answers.availableBytes ∧ answers.stagingCreated = true

/-! ## What is asked of an installation -/

/-- The model folder holds an asset, with its size and its digest. -/
def Disk.Holds (disk : Disk) (asset : EmbeddingModelAssetSpec) : Prop :=
  ∃ model file, disk.model = some model ∧ model.files asset.path = some file ∧
    file.bytes.length = asset.bytes ∧ sameDigest (answers.digest file.bytes) asset.sha256 = true

/-- An installation that succeeds leaves all assets and is ready; one that fails, after the download
began, is neither ready nor under way, leaves no staging folder, and has no asset in the model
folder that failed a verification. -/
def Outcome.Settled (outcome : Outcome) (manifest : EmbeddingModelManifest) (begun : Prop) : Prop :=
  (∀ state, outcome.result = .ok state →
      (∀ asset ∈ manifest.assets, outcome.disk.Holds answers asset) ∧
        outcome.disk.state.status = .ready) ∧
    ∀ error, outcome.result = .error error → begun →
      outcome.disk.state.status ∉
          [EmbeddingModelStatus.ready, .downloading, .installing] ∧
        outcome.disk.staging = none ∧
        ∀ asset ∈ outcome.rejected, ∀ model, outcome.disk.model = some model →
          model.files asset.path = none

/-- The first asset that the final verification does not pass is seen, and then the model folder can
be removed. -/
def VerifiedCleanly (files : Folder) : Nat → List EmbeddingModelAssetSpec → Prop
  | _, [] => True
  | place, asset :: rest =>
      match verifyAsset answers place files asset with
      | .missing => False
      | .rejected _ _ => answers.modelRemoved = true
      | .passed _ => VerifiedCleanly files (place + 1) rest

/-- The folders are renamed, and the final verification goes well, or fails and can be undone. -/
def PromotedCleanly (manifest : EmbeddingModelManifest) (staging : Folder) : Prop :=
  answers.modelSeen = true ∧ answers.renamedToBackup = true ∧ answers.renamedToModel = true ∧
    answers.modelIsDir = true ∧ VerifiedCleanly answers staging 0 manifest.assets

/-- Up to the first check that sees the cancellation, every asset can be fetched and passes its
verification; without one, the promotion is clean. -/
def DownloadedCleanly (manifest : EmbeddingModelManifest) :
    Nat → List EmbeddingModelAssetSpec → Folder → Prop
  | place, [], staging =>
      answers.cancelled place = true ∨ PromotedCleanly answers manifest staging
  | place, asset :: rest, staging =>
      answers.cancelled place = true ∨
        answers.urlError place = none ∧ answers.parentCreated place = true ∧
          (answers.fetch place staging).2 = none ∧
          verifyAssetFile answers place (answers.fetch place staging).1 asset = .ok () ∧
          DownloadedCleanly manifest (place + 1) rest (answers.fetch place staging).1

end

/-! ## The stored status -/

@[simp] theorem Disk.saveState_state (disk : Disk) (state : EmbeddingModelState) :
    (disk.saveState state).state = state := rfl

@[simp] theorem Disk.saveState_staging (disk : Disk) (state : EmbeddingModelState) :
    (disk.saveState state).staging = disk.staging := rfl

@[simp] theorem Disk.abortInstall_state (disk : Disk) (reason : String) :
    (disk.abortInstall reason).state = { lastError := some reason } := rfl

section

variable {answers : Answers} {manifest : EmbeddingModelManifest} {begun : Prop}

/-- A failure that leaves the status of an installation under way is not settled. -/
theorem not_settled_of_underWay {outcome : Outcome} {error : EmbeddingError}
    (hresult : outcome.result = .error error) (hbegun : begun)
    (hstatus : outcome.disk.state.status ∈
      [EmbeddingModelStatus.ready, .downloading, .installing]) :
    ¬outcome.Settled answers manifest begun :=
  fun h => (h.2 error hresult hbegun).1 hstatus

/-- A failure that leaves the staging folder is not settled. -/
theorem not_settled_of_staging {outcome : Outcome} {error : EmbeddingError}
    (hresult : outcome.result = .error error) (hbegun : begun)
    (hstaging : outcome.disk.staging ≠ none) : ¬outcome.Settled answers manifest begun :=
  fun h => hstaging (h.2 error hresult hbegun).2.1

/-- A cancellation that is seen by a check is settled. -/
theorem settled_of_abort (disk : Disk) (reason : String) :
    Outcome.Settled answers
      { result := .error installCancelled, disk := disk.abortInstall reason } manifest begun := by
  exact ⟨fun state h => (nomatch h), fun error _ _ => ⟨by simp, rfl, fun asset h => (nomatch h)⟩⟩

/-! ## The final verification -/

/-- An asset that passes is held. -/
theorem verifyAsset_passed {place : Nat} {files : Folder} {asset : EmbeddingModelAssetSpec}
    {digest : String} (h : verifyAsset answers place files asset = .passed digest) :
    ∃ file, files asset.path = some file ∧ file.bytes.length = asset.bytes ∧
      sameDigest (answers.digest file.bytes) asset.sha256 = true := by
  unfold verifyAsset at h
  cases hfile : files asset.path with
  | none => rw [hfile] at h; exact nomatch h
  | some file =>
    rw [hfile] at h
    dsimp only at h
    split_ifs at h with _ _ _ hbytes _ hdigest
    exact ⟨file, rfl, by simpa using hbytes, by simpa using hdigest⟩

/-- An asset that is rejected is in the folder. -/
theorem verifyAsset_rejected {place : Nat} {files : Folder} {asset : EmbeddingModelAssetSpec}
    {error : EmbeddingError} {state : Option EmbeddingModelState}
    (h : verifyAsset answers place files asset = .rejected error state) :
    files asset.path ≠ none := by
  intro hnone
  unfold verifyAsset at h
  rw [hnone] at h
  exact nomatch h

/-- What the final verification ends with: it succeeds with a state that is not ready, fails at an
asset, fails behind all of them, or succeeds with all of them. -/
theorem verifyLoop_cases {files : Folder} (assets : List EmbeddingModelAssetSpec) (place : Nat)
    (checksums : List (String × String)) {disk : Disk} {model : ModelFolder}
    (hmodel : disk.model = some model) (hfiles : model.files = files) :
    let outcome := verifyLoop answers manifest files place assets checksums disk
    outcome.disk.staging = disk.staging ∧
      (∃ model', outcome.disk.model = some model' ∧ model'.files = files) ∧
      ((∃ state, outcome.result = .ok state ∧ outcome.disk.state.status = .notInstalled ∧
          ¬VerifiedCleanly answers files place assets) ∨
        (∃ error asset, outcome.result = .error error ∧ outcome.rejected = [asset] ∧
          files asset.path ≠ none ∧
          (VerifiedCleanly answers files place assets ↔ answers.modelRemoved = true)) ∨
        (∃ error, outcome.result = .error error ∧ outcome.rejected = [] ∧
          VerifiedCleanly answers files place assets) ∨
        ∃ state, outcome.result = .ok state ∧ outcome.disk.state.status = .ready ∧
          (∀ asset ∈ assets, ∃ file, files asset.path = some file ∧
            file.bytes.length = asset.bytes ∧
            sameDigest (answers.digest file.bytes) asset.sha256 = true) ∧
          VerifiedCleanly answers files place assets) := by
  induction assets generalizing place checksums with
  | nil =>
    unfold verifyLoop
    split_ifs
    · refine ⟨rfl, ⟨_, rfl, ?_⟩, .inr (.inr (.inl ⟨_, rfl, rfl, trivial⟩))⟩
      simp [hmodel, hfiles]
    · refine ⟨rfl, ⟨_, rfl, ?_⟩, .inr (.inr (.inr ⟨_, rfl, rfl, fun asset h => (nomatch h),
        trivial⟩))⟩
      simp [hmodel, hfiles]
  | cons asset rest ih =>
    unfold verifyLoop VerifiedCleanly
    cases hfinding : verifyAsset answers place files asset with
    | missing =>
      refine ⟨rfl, ⟨_, rfl, ?_⟩, .inl ⟨_, rfl, rfl, not_false⟩⟩
      simp [hmodel, hfiles]
    | rejected error state =>
      refine ⟨?_, ?_, .inr (.inl ⟨_, asset, rfl, rfl, verifyAsset_rejected hfinding, Iff.rfl⟩)⟩
      · cases state <;> rfl
      · cases state with
        | none => exact ⟨model, hmodel, hfiles⟩
        | some state => exact ⟨_, rfl, by simp [hmodel, hfiles]⟩
    | passed digest =>
      obtain ⟨hstaging, hkept, hcases⟩ := ih (place + 1) (checksums ++ [(asset.path, digest)])
      refine ⟨hstaging, hkept, ?_⟩
      rcases hcases with hmissing | hrejected | hincompatible | ⟨state, hok, hready, hall, hclean⟩
      · exact .inl hmissing
      · exact .inr (.inl hrejected)
      · exact .inr (.inr (.inl hincompatible))
      · refine .inr (.inr (.inr ⟨state, hok, hready, fun other hother => ?_, hclean⟩))
        rcases List.mem_cons.1 hother with rfl | hother
        · exact verifyAsset_passed hfinding
        · exact hall other hother

/-! ## The promotion -/

/-- What the promotion ends with: it fails and leaves the staging folder, or it makes the staging
folder the model folder. -/
theorem promote_cases {disk : Disk} {model : ModelFolder} (hmodel : disk.model = some model) :
    (∃ error after, promote answers disk = (.error error, after) ∧ after.staging = disk.staging ∧
      ¬(answers.modelSeen = true ∧ answers.renamedToBackup = true ∧
        answers.renamedToModel = true)) ∨
    promote answers disk =
        (.ok (),
          { staging := none
            model := disk.staging.map fun files => ⟨files, none⟩
            backup := none }) ∧
      answers.modelSeen = true ∧ answers.renamedToBackup = true ∧
      answers.renamedToModel = true := by
  unfold promote
  rw [hmodel]
  cases hseen : answers.modelSeen with
  | false => exact .inl ⟨_, _, rfl, rfl, by simp⟩
  | true =>
    cases hbackup : answers.renamedToBackup with
    | false => exact .inl ⟨_, _, rfl, rfl, by simp⟩
    | true =>
      cases hrenamed : answers.renamedToModel with
      | false =>
        refine .inl ⟨_, _, rfl, ?_, by simp⟩
        cases answers.renamedBack <;> rfl
      | true => exact .inr ⟨rfl, rfl, rfl, rfl⟩

/-- Behind the download an installation is settled if the promotion is clean. -/
theorem installStaged_settled_iff {disk : Disk} {staging : Folder}
    (hstaging : disk.staging = some staging) (hbegun : begun) :
    (installStaged answers manifest disk).Settled answers manifest begun ↔
      PromotedCleanly answers manifest staging := by
  unfold installStaged
  dsimp only
  rcases @promote_cases answers _ _
      (show (disk.saveState { status := .installing }).model = some _ from rfl)
    with ⟨error, after, hpromote, hleft, hnot⟩ | ⟨hpromote, hseen, hbackup, hrenamed⟩
  · rw [hpromote]
    refine iff_of_false (not_settled_of_staging rfl hbegun ?_)
      fun h => hnot ⟨h.1, h.2.1, h.2.2.1⟩
    simp [hleft, hstaging]
  · rw [hpromote]
    simp only [Disk.saveState_staging, hstaging, Option.map_some, PromotedCleanly, hseen, hbackup,
      hrenamed, true_and]
    unfold verify
    dsimp only
    cases hdir : answers.modelIsDir with
    | false =>
      refine iff_of_false (fun h => ?_) (by simp)
      exact nomatch (h.1 _ rfl).2
    | true =>
      simp only [if_true, true_and]
      have hcases := @verifyLoop_cases answers manifest staging
        manifest.assets 0 [] ⟨none, some ⟨staging, none⟩, none⟩ _ rfl rfl
      dsimp only at hcases
      generalize verifyLoop answers manifest staging 0 manifest.assets [] _ = verified at hcases ⊢
      obtain ⟨hnone, ⟨model, hmodel, hfiles⟩, hcases⟩ := hcases
      rcases hcases with ⟨state, hok, hstatus, hnot⟩
        | ⟨error, asset, herror, hrejected, hthere, hiff⟩
        | ⟨error, herror, hrejected, hclean⟩ | ⟨state, hok, hready, hall, hclean⟩
      -- an asset is missing
      · rw [hok]
        refine iff_of_false (fun h => ?_) hnot
        have := (h.1 state hok).2
        rw [hstatus] at this
        exact nomatch this
      -- an asset is rejected: it goes with the model folder
      · rw [herror, hiff]
        dsimp only
        cases hremoved : answers.modelRemoved with
        | false =>
          refine iff_of_false (fun h => hthere ?_) (by simp)
          rw [← hfiles]
          have := (h.2 error rfl hbegun).2.2 asset (by simp [hrejected])
          simpa [Disk.saveState, hmodel] using this
        | true =>
          refine iff_of_true ⟨fun state h => (nomatch h), fun other hother _ => ⟨by simp, ?_, ?_⟩⟩
            rfl
          · simpa using hnone
          · simp [Disk.saveState]
      -- no asset is rejected, but the manifest is of another version
      · rw [herror]
        dsimp only
        refine iff_of_true ⟨fun state h => (nomatch h), fun other hother _ => ⟨by simp, ?_, ?_⟩⟩
          hclean
        · cases answers.modelRemoved <;> simpa using hnone
        · simp [hrejected]
      · rw [hok]
        refine iff_of_true ⟨fun other _ => ⟨fun asset hasset => ?_, hready⟩, fun error h => ?_⟩
          hclean
        · obtain ⟨file, hfile, hlength, hdigest⟩ := hall asset hasset
          exact ⟨model, file, hmodel, hfiles ▸ hfile, hlength, hdigest⟩
        · rw [hok] at h
          exact nomatch h

/-! ## The download -/

/-- From any place on, an installation is settled if the download is clean. -/
theorem downloadLoop_settled_iff (hbegun : begun) (assets : List EmbeddingModelAssetSpec)
    (place : Nat) (staging : Folder) (disk : Disk) :
    (afterDownload answers manifest (place + assets.length)
        (downloadLoop answers place assets staging disk)).Settled answers manifest begun ↔
      DownloadedCleanly answers manifest place assets staging := by
  induction assets generalizing place staging disk with
  | nil =>
    simp only [downloadLoop, afterDownload, DownloadedCleanly, List.length_nil, Nat.add_zero]
    cases hcancelled : answers.cancelled place with
    | true => exact iff_of_true (settled_of_abort _ _) (.inl rfl)
    | false =>
      simp only [Bool.false_eq_true, if_false, false_or]
      exact installStaged_settled_iff rfl hbegun
  | cons asset rest ih =>
    unfold downloadLoop DownloadedCleanly
    dsimp only
    cases hcancelled : answers.cancelled place with
    | true => exact iff_of_true (settled_of_abort _ _) (.inl rfl)
    | false =>
      simp only [Bool.false_eq_true, if_false, false_or]
      -- every early return leaves the staging folder
      cases hurl : answers.urlError place with
      | some error =>
        exact iff_of_false (not_settled_of_staging rfl hbegun (by simp [afterDownload])) (by simp)
      | none =>
        cases hparent : answers.parentCreated place with
        | false =>
          exact iff_of_false (not_settled_of_staging rfl hbegun (by simp [afterDownload])) (by simp)
        | true =>
          cases hfetch : (answers.fetch place staging).2 with
          | some error =>
            exact iff_of_false (not_settled_of_staging rfl hbegun (by simp [afterDownload]))
              (by simp)
          | none =>
            cases hverify : verifyAssetFile answers place (answers.fetch place staging).1 asset with
            | error error =>
              exact iff_of_false (not_settled_of_staging rfl hbegun (by simp [afterDownload]))
                (by simp)
            | ok value =>
              simp only [Bool.not_true, Bool.false_eq_true, if_false, true_and]
              have hplace : place + (rest.length + 1) = place + 1 + rest.length := by omega
              rw [List.length_cons, hplace]
              exact ih (place + 1) _ _

/-- **An installation that began is settled exactly where nothing fails before the final
verification**: an error of the fetcher, of the verification of a download or of a file operation
returns without `abort_install`, and leaves the staging folder and the status of a download under
way. Without a failure there the check for a cancellation settles it, and so does the final
verification, where it sees all assets, or can remove the model folder. -/
theorem installation_settled_iff (answers : Answers) (manifest : EmbeddingModelManifest)
    (disk : Disk) :
    (installFromPinnedNetwork answers manifest disk).Settled answers manifest answers.Begins ↔
      (answers.Begins → DownloadedCleanly answers manifest 0 manifest.assets fun _ => none) := by
  unfold installFromPinnedNetwork
  by_cases hspace : answers.availableBytes < neededBytes
  · rw [if_pos hspace]
    have hnot : ¬answers.Begins := fun h => Nat.not_lt.2 h.1 hspace
    exact iff_of_true ⟨fun state h => (nomatch h), fun error _ h => absurd h hnot⟩
      fun h => absurd h hnot
  · rw [if_neg hspace]
    cases hcreated : answers.stagingCreated with
    | false =>
      have hnot : ¬answers.Begins := fun h => absurd h.2 (by simp [hcreated])
      exact iff_of_true ⟨fun state h => (nomatch h), fun error _ h => absurd h hnot⟩
        fun h => absurd h hnot
    | true =>
      have hbegun : answers.Begins := ⟨Nat.not_lt.1 hspace, hcreated⟩
      simp only [Bool.not_true, Bool.false_eq_true, if_false]
      rw [forall_prop_of_true hbegun]
      have := @downloadLoop_settled_iff answers manifest _ hbegun manifest.assets 0
        (fun _ => none) (disk.removeStaging.saveState { status := .downloading })
      rwa [Nat.zero_add] at this

/-- The answers of an installation with enough space, whose fetcher fails at once. -/
private def lostConnection : Answers where
  available := none
  stagingCreated := true
  cancelled _ := false
  urlError _ := none
  parentCreated _ := true
  fetch _ staging := (staging, some (.failed "connection lost"))
  stagedMetadata _ := true
  stagedReadable _ := true
  modelSeen := true
  renamedToBackup := true
  renamedToModel := true
  renamedBack := true
  modelIsDir := true
  isFile _ := true
  linkSeen _ := true
  metadata _ := true
  readable _ := true
  modelRemoved := true
  now := some 1700000000
  digest _ := "00"
  ioError := "permission denied"

/-- A manifest of one asset. -/
private def oneAsset : EmbeddingModelManifest where
  version := graniteEmbeddingRevision
  dimensions := graniteEmbeddingDimensions
  assets := [{ path := "tokenizer.json", bytes := 2, sha256 := "00" }]

/-- After a lost connection the status is that of a download under way, and the staging folder
stays. -/
theorem lostConnection_underWay :
    let outcome :=
      installFromPinnedNetwork lostConnection oneAsset ⟨none, none, none⟩
    lostConnection.Begins ∧ outcome.result = .error (.failed "connection lost") ∧
      outcome.disk.state.status = .downloading ∧ outcome.disk.staging ≠ none ∧
      ¬outcome.Settled lostConnection oneAsset lostConnection.Begins := by
  have hbegins : lostConnection.Begins := ⟨by decide, rfl⟩
  have hresult : (installFromPinnedNetwork lostConnection oneAsset ⟨none, none, none⟩).result =
      .error (.failed "connection lost") := rfl
  refine ⟨hbegins, hresult, rfl, fun h => (nomatch h), ?_⟩
  exact not_settled_of_underWay hresult hbegins (by decide)

end

end Zemo.Search.Models
