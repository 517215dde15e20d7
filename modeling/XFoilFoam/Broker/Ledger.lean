import XFoilFoam.Foundations.RelyGuarantee
import Mathlib.Data.Int.Notation

/-! The session ledger of one owner in `evidence_upload_broker.py`, and the three calls that replace it. -/
namespace XFoilFoam.Broker
set_option autoImplicit false

/-! ## Ledger and provider -/

inductive State where
  | creating
  | providerRequesting
  | creationUncertain
  | retryable
  | issued
  | registered
  | settled
  | cancelled
  deriving DecidableEq

abbrev Url := ℕ

/-- The payload of the ledger; `stamp` is the one time field of each state. -/
structure Entry (Identity : Type) where
  state : State
  identity : Identity
  sessionEpoch : ℕ
  uploadUrl : Option Url := none
  expiresAt : Option ℕ := none
  verifiedGeneration : Option ℤ := none
  statusCode : Option ℕ := none
  failedPhase : Option String := none
  stamp : ℕ
  deriving DecidableEq

/-- The ledger, and what the provider has handed out and cancelled.  `settled` are the capabilities that a settled entry
took from the ledger, and `unseen` the entries that a call replaced although it had decided on another one. -/
structure World (Identity : Type) where
  ledger : Option (Entry Identity) := none
  sessions : Url := 0
  cancelled : List Url := []
  settled : List Url := []
  unseen : List (Option (Entry Identity)) := []

inductive Raised where
  | upload (reason : String)
  | integrity (reason : String)
  | valueError (reason : String)

inductive Outcome where
  | session (uploadUrl : Url) (expiresAt : ℕ)
  | verified (generation : ℤ)
  | settled
  | cancellation (statusCode : ℕ)

variable {Identity : Type} [DecidableEq Identity]

abbrev Act (Identity α : Type) := Task (World Identity) Raised α

def readLedger : Act Identity (Option (Entry Identity)) := .read fun w => w.ledger

/-- `_write_ledger`, by a call that has decided on `seen`. -/
def writeLedger (seen payload : Entry Identity) : Act Identity Unit := .modify fun w =>
  { w with
    ledger := some payload
    unseen := if w.ledger = some seen then w.unseen else w.unseen ++ [w.ledger] }

/-- The write of a settled entry; the capability of the entry it takes the place of is settled with it. -/
def writeSettled (seen payload : Entry Identity) : Act Identity Unit := .modify fun w =>
  { w with
    ledger := some payload
    settled := w.settled ++ seen.uploadUrl.toList
    unseen := if w.ledger = some seen then w.unseen else w.unseen ++ [w.ledger] }

/-- `os.link`, which refuses where there is a ledger. -/
def linkLedger (payload : Entry Identity) : Act Identity Bool := .update fun w =>
  match w.ledger with
  | none => (true, { w with ledger := some payload })
  | some _ => (false, w)

/-- `_write_ledger` with `create_only`. -/
def createLedger (payload : Entry Identity) : Act Identity Unit := do
  let linked ← linkLedger payload
  if linked then .done ()
  else do
    let found ← readLedger
    if found ≠ some payload then .raised (.upload "broker session ledger identity already has different content")
    else .done ()

/-! ## `create_brokered_upload_session` -/

/-- What `blob.reload` and the verification of what it finds come to. -/
inductive Inspection where
  | missing
  | failed (reason : String)
  | found (verified : Except Raised ℤ)

inductive Creation where
  | answers
  | fails (reason : String)

/-- The surroundings of one call: the clock at the write of each state, and the answers it gets. -/
structure Surroundings where
  now : State → ℕ
  expires : ℕ := 0
  bucketConfigured : Bool := true
  inspection : Inspection := .missing
  creation : Creation := .answers

/-- The capability of an entry, where it is one for this evidence; `valid` is `_valid_gcs_resumable_url`. -/
def Entry.capability (valid : Identity → Url → Bool) (identity : Identity) (entry : Entry Identity) : Option (Url × ℕ) :=
  match entry.uploadUrl, entry.expiresAt with
  | some url, some expiry => if valid identity url then some (url, expiry) else none
  | _, _ => none

def requestSession (valid : Identity → Url → Bool) (identity : Identity) (s : Surroundings) (epoch : ℕ)
    (seen : Entry Identity) : Act Identity Outcome := do
  let requesting : Entry Identity :=
    { state := .providerRequesting, identity := identity, sessionEpoch := epoch, stamp := s.now .providerRequesting }
  let uncertain (phase : String) : Entry Identity :=
    { state := .creationUncertain, identity := identity, sessionEpoch := epoch, failedPhase := some phase
      stamp := s.now .creationUncertain }
  writeLedger seen requesting
  match s.creation with
  | .fails reason => do
    writeLedger requesting (uncertain "provider-session-creation")
    .raised (.upload reason)
  | .answers => do
    let url ← .update fun w => (w.sessions, { w with sessions := w.sessions + 1 })
    if !valid identity url then do
      writeLedger requesting (uncertain "provider-invalid-capability")
      .raised (.upload "GCS returned an invalid resumable upload capability")
    else do
      writeLedger requesting
        { state := .issued, identity := identity, sessionEpoch := epoch, uploadUrl := some url, expiresAt := some s.expires
          stamp := s.now .issued }
      .done (.session url s.expires)

/-- From the inspection of the object on; `seen` is the entry that this call goes on from. -/
def inspectObject (valid : Identity → Url → Bool) (identity : Identity) (s : Surroundings) (replay : Option (Url × ℕ))
    (seen : Entry Identity) : Act Identity Outcome := do
  if !s.bucketConfigured then
    .raised (.upload "broker request bucket does not match configured evidence bucket")
  else do
    let creating ← readLedger
    let epoch := (creating.map fun entry => entry.sessionEpoch).getD 1
    match s.inspection, replay with
    | .missing, some (url, expiry) => .done (.session url expiry)
    | .failed reason, some _ => .raised (.upload reason)
    | .failed reason, none => do
      writeLedger seen
        { state := .retryable, identity := identity, sessionEpoch := epoch, failedPhase := some "object-inspection"
          stamp := s.now .retryable }
      .raised (.upload reason)
    | .found (.error e), _ => .raised e
    | .found (.ok generation), _ => do
      writeSettled seen
        { state := .settled, identity := identity, sessionEpoch := epoch, verifiedGeneration := some generation
          stamp := s.now .settled }
      .done (.verified generation)
    | .missing, none => requestSession valid identity s epoch seen

def createBrokeredUploadSession (valid : Identity → Url → Bool) (identity : Identity) (s : Surroundings) :
    Act Identity Outcome := do
  let creating (epoch : ℕ) : Entry Identity :=
    { state := .creating, identity := identity, sessionEpoch := epoch, stamp := s.now .creating }
  let existing ← readLedger
  match existing with
  | none => do
    createLedger (creating 1)
    inspectObject valid identity s none (creating 1)
  | some intent =>
    if intent.identity ≠ identity then .raised (.upload "broker session owner already names different evidence")
    else match intent.state with
    | .issued | .registered =>
      match intent.capability valid identity with
      | some capability => inspectObject valid identity s (some capability) intent
      | none => .raised (.upload "broker session intent is already issued or registered")
    | .settled =>
      match intent.verifiedGeneration with
      | none => .raised (.upload "settled broker session lacks its verified generation")
      | some generation =>
        match s.inspection with
        | .found (.error e) => .raised e
        | _ => .done (.verified generation)
    | .cancelled | .retryable => do
      let creating := creating (intent.sessionEpoch + 1)
      writeLedger intent creating
      inspectObject valid identity s none creating
    | .creating | .providerRequesting | .creationUncertain =>
      .raised (.upload "broker session intent is already under way")

/-! ## `settle_brokered_upload_session_intent` -/

def settleIntent (identity : Identity) (final : Bool) (verifiedGeneration : Option ℤ) (now : ℕ) : Act Identity Outcome := do
  let payload ← readLedger
  match payload with
  | none => .raised (.upload "broker session intent is missing or mismatched")
  | some payload =>
    if payload.identity ≠ identity then .raised (.upload "broker session intent is missing or mismatched")
    else if payload.state ≠ .issued ∧ payload.state ≠ .registered ∧ payload.state ≠ .settled then
      .raised (.upload "broker session intent cannot be settled")
    else if !final then
      match payload.uploadUrl, payload.expiresAt with
      | some url, some expiry => do
        writeLedger payload
          { state := .registered, identity := identity, sessionEpoch := payload.sessionEpoch, uploadUrl := some url
            expiresAt := some expiry, stamp := now }
        .done .settled
      | _, _ => .raised (.upload "broker session registration lacks its capability")
    else
      -- zero is no generation
      let generation := verifiedGeneration.filter (· ≠ 0) <|> payload.verifiedGeneration
      if generation.any (· ≤ 0) then .raised (.valueError "verified_generation must be positive")
      else do
        writeSettled payload
          { state := .settled, identity := identity, sessionEpoch := payload.sessionEpoch, verifiedGeneration := generation
            stamp := now }
        .done .settled

/-! ## `cancel_brokered_upload_session_by_identity` -/

inductive Deletion where
  | status (code : ℕ)
  | unreachable

/-- `cancel_brokered_upload_session`. -/
def cancelSession (valid : Identity → Url → Bool) (identity : Identity) (deletion : Deletion) (url : Url) : Act Identity ℕ :=
  if !valid identity url then .raised (.valueError "invalid GCS resumable upload capability")
  else match deletion with
  | .unreachable => .raised (.upload "GCS resumable session cancellation could not reach storage")
  | .status code =>
    if code ∈ [200, 204, 404, 410, 499] then do
      .modify fun w => { w with cancelled := w.cancelled ++ [url] }
      .done code
    else .raised (.upload "GCS resumable session cancellation failed")

def cancelByIdentity (valid : Identity → Url → Bool) (identity : Identity) (supplied : Option Url) (deletion : Deletion)
    (now : ℕ) : Act Identity Outcome := do
  let payload ← readLedger
  match payload with
  | none => .done (.cancellation 404)
  | some payload =>
    if payload.identity ≠ identity then .raised (.upload "broker session cancellation identity mismatch")
    else match payload.state with
    | .cancelled | .settled => .done (.cancellation 404)
    | .providerRequesting | .creationUncertain =>
      .raised (.upload "provider session creation outcome is uncertain; operator incident retained")
    | state => do
      let uploadUrl := payload.uploadUrl <|> if state = .registered then supplied else none
      let code ← (match uploadUrl with
        | none => .done 410
        | some url =>
          if supplied.any (· ≠ url) then .raised (.upload "broker session URL does not match its durable intent")
          else cancelSession valid identity deletion url : Act Identity ℕ)
      writeLedger payload
        { state := .cancelled, identity := identity, sessionEpoch := payload.sessionEpoch, statusCode := some code, stamp := now }
      .done (.cancellation code)

/-! ## The calls -/

inductive Call (Identity : Type) where
  | create (identity : Identity) (s : Surroundings)
  | settle (identity : Identity) (final : Bool) (verifiedGeneration : Option ℤ) (now : ℕ)
  | cancel (identity : Identity) (supplied : Option Url) (deletion : Deletion) (now : ℕ)

/-- Any number of calls for one owner; who dies leaves everything as it is. -/
def broker (valid : Identity → Url → Bool) : Company ℕ (Call Identity) (World Identity) Raised Outcome where
  program
    | _, .create identity s => createBrokeredUploadSession valid identity s
    | _, .settle identity final verifiedGeneration now => settleIntent identity final verifiedGeneration now
    | _, .cancel identity supplied deletion now => cancelByIdentity valid identity supplied deletion now
  starts _ _ := True
  dies _ w := w
  around _ _ := False

end XFoilFoam.Broker
