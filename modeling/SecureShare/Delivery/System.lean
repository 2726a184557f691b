import SecureShare.Delivery.Repository
import SecureShare.Library.Transition

/-!
# The running service

Any number of calls share one table. A call is a sequence of steps between which
every other call may run: one statement of the repository, or one answer of
Vault. A database call may fail without effect, or take effect although its
answer is lost; a call may be abandoned after any step; the clock advances by
any amount. Lease IDs are drawn at random and taken to be fresh.
-/
namespace SecureShare.Delivery
open Go Library.Transition

/-- What becomes of a database call. -/
inductive Outcome where
  | answered | failed | lost
  deriving DecidableEq, Repr

namespace Outcome

def answer {α : Type} (o : Outcome) (a : α) : Option α :=
  match o with
  | .answered => some a
  | .failed | .lost => none

def table (o : Outcome) (before after : Table) : Table :=
  match o with
  | .answered | .lost => after
  | .failed => before

end Outcome

/-- What one step obtains from outside. -/
structure Inputs extends CreateInputs where
  database : Outcome
  vaultUp : Bool
  leaseID : Option UUID
  deriving DecidableEq, Repr

/-- The settings of the service and the functions it calls. -/
structure Service where
  cfg : Config
  deps : Dependencies

inductive CreatePhase where
  | inserting
  | created (response : CreateResponse)
  | refused (e : ServiceError)
  | abandoned
  deriving DecidableEq, Repr

/-- The statement or answer that a `Consume` call waits for. -/
inductive ConsumePhase where
  | finding
  | failing (tokenHash : Bytes) (passwordHash : Text)
  | leasing (tokenHash : Bytes) (passwordHash : Option Text)
  | decrypting (item : ConsumeCandidate) (leaseID : UUID)
  | restoring (item : ConsumeCandidate) (leaseID : UUID)
  | completing (item : ConsumeCandidate) (leaseID : UUID) (plaintext : Text)
  | delivered (item : ConsumeCandidate) (response : ConsumeResponse)
  | refused (e : ServiceError)
  | abandoned
  deriving DecidableEq, Repr

inductive RevokePhase where
  | updating
  | reading
  | answered (result : RevokeResult)
  | failed
  | abandoned
  deriving DecidableEq, Repr

inductive ProtectPhase where
  | updating
  | answered (result : ProtectionUpdateResult)
  | refused (e : ServiceError)
  | abandoned
  deriving DecidableEq, Repr

/-- `now` is the start of the transaction. -/
inductive CleanupPhase where
  | starting
  | restoring (now : ℤ) (expired : ℕ)
  | blanking (now : ℤ) (expired restored : ℕ)
  | finished (result : CleanupResult)
  | failed
  | abandoned
  deriving DecidableEq, Repr

/-- A call with its arguments. Protecting without a password removes it. -/
inductive Call where
  | create (actorID : Text) (req : CreateRequest) (phase : CreatePhase)
  | consume (token password : Text) (phase : ConsumePhase)
  | revoke (id : UUID) (phase : RevokePhase)
  | protect (id : UUID) (password : Option Text) (phase : ProtectPhase)
  | cleanup (phase : CleanupPhase)
  deriving DecidableEq, Repr

inductive Request where
  | create (actorID : Text) (req : CreateRequest)
  | consume (token password : Text)
  | revoke (id : UUID)
  | protect (id : UUID) (password : Option Text)
  | cleanup
  deriving DecidableEq, Repr

def Request.call : Request → Call
  | .create actorID req => .create actorID req .inserting
  | .consume token password => .consume token password .finding
  | .revoke id => .revoke id .updating
  | .protect id password => .protect id password .updating
  | .cleanup => .cleanup .starting

def unavailable : ServiceError := { kind := .secretUnavailable }

def internal (detail : String) : ServiceError := { kind := .internal, detail := detail }

namespace Service
variable (svc : Service) (inputs : Inputs) (now : ℤ) (t : Table)

/-- `Service.Create` -/
def create (actorID : Text) (req : CreateRequest) : Table × CreatePhase :=
  match insertParams svc.deps svc.cfg inputs.toCreateInputs actorID req with
  | .error e => (t, .refused e)
  | .ok (params, token) =>
    match t.insert (params.row now) with
    | none => (t, .refused (internal "insert delivery failed"))
    | some t' =>
      (inputs.database.table t t',
        match inputs.database.answer () with
        | none => .refused (internal "insert delivery failed")
        | some () => .created ⟨params.id, svc.cfg.appBaseURL ++ "/s#".toList ++ token,
            params.expiresAt⟩)

/-- The password is checked against the hash that was read. -/
def consumeFind (token password : Text) : ConsumePhase :=
  match svc.deps.tokenHMAC svc.cfg.tokenHMACPepper token with
  | none => .refused unavailable
  | some tokenHash =>
    match inputs.database.answer
        (Repository.findConsumeCandidate t now tokenHash svc.cfg.consumingLeaseTTL) with
    | none => .refused (internal "find consume candidate failed")
    | some none => .refused unavailable
    | some (some item) =>
      match item.passwordHash with
      | none => .leasing tokenHash none
      | some hash =>
        if svc.deps.verifyPassword password hash then .leasing tokenHash (some hash)
        else .failing tokenHash hash

def consumeFail (tokenHash : Bytes) (passwordHash : Text) : Table × ConsumePhase :=
  let r := Repository.recordPasswordFailure t now tokenHash passwordHash svc.cfg.consumingLeaseTTL
  (inputs.database.table t r.1,
    match inputs.database.answer r.2 with
    | none => .refused (internal "password failure state update failed")
    | some failure =>
      if !failure.updated || failure.locked then .refused unavailable
      else .refused { kind := .linkPasswordInvalid })

def consumeBegin (tokenHash : Bytes) (passwordHash : Option Text) : Table × ConsumePhase :=
  match inputs.leaseID with
  | none => (t, .refused (internal "lease id failed"))
  | some leaseID =>
    let r := Repository.beginConsume t now tokenHash passwordHash leaseID svc.cfg.consumingLeaseTTL
    (inputs.database.table t r.1,
      match inputs.database.answer r.2 with
      | none => .refused (internal "begin consume failed")
      | some none => .refused unavailable
      | some (some item) => .decrypting item leaseID)

def consumeDecrypt (item : ConsumeCandidate) (leaseID : UUID) : ConsumePhase :=
  if inputs.vaultUp then
    match svc.deps.decrypt item.encryptedPayload with
    | some plaintext => .completing item leaseID plaintext
    | none => .restoring item leaseID
  else .restoring item leaseID

/-- A failed restore is only logged. -/
def consumeRestore (item : ConsumeCandidate) (leaseID : UUID) : Table × ConsumePhase :=
  (inputs.database.table t (Repository.restoreConsume t now item.id leaseID),
    .refused { kind := .dependencyUnavailable, detail := "vault decrypt failed" })

def consumeComplete (item : ConsumeCandidate) (leaseID : UUID) (plaintext : Text) :
    Table × ConsumePhase :=
  let r := Repository.completeConsume t now item.id leaseID
  (inputs.database.table t r.1,
    match inputs.database.answer r.2 with
    | none => .refused (internal "complete consume failed")
    | some false => .refused unavailable
    | some true =>
      match normalizeConsumedPayload plaintext with
      | none => .refused (internal "decrypted payload was invalid")
      | some (canonical, legacySecret) => .delivered item ⟨legacySecret, canonical⟩)

/-- One step of `Service.Consume`; a call that has returned takes none. -/
def consume (token password : Text) : ConsumePhase → Option (Table × ConsumePhase)
  | .finding => some (t, svc.consumeFind inputs now t token password)
  | .failing tokenHash hash => some (svc.consumeFail inputs now t tokenHash hash)
  | .leasing tokenHash hash => some (svc.consumeBegin inputs now t tokenHash hash)
  | .decrypting item leaseID => some (t, svc.consumeDecrypt inputs item leaseID)
  | .restoring item leaseID => some (consumeRestore inputs now t item leaseID)
  | .completing item leaseID plaintext =>
    some (consumeComplete inputs now t item leaseID plaintext)
  | .delivered _ _ | .refused _ | .abandoned => none

/-- `Repository.Revoke`: the UPDATE, then a SELECT unless a row was updated. -/
def revoke (id : UUID) : RevokePhase → Option (Table × RevokePhase)
  | .updating =>
    let r := Repository.revokeUpdate t now id
    some (inputs.database.table t r.1,
      match inputs.database.answer r.2 with
      | none => .failed
      | some true => .answered ⟨id, some .revoked, true, true⟩
      | some false => .reading)
  | .reading =>
    some (t,
      match inputs.database.answer (Repository.revokeStatus t id) with
      | none => .failed
      | some result => .answered result)
  | .answered _ | .failed | .abandoned => none

/-- The new hash of `SetPasswordProtection`, or none for `RemovePasswordProtection`. -/
def protectionHash (password : Option Text) : Except ServiceError (Option Text) :=
  match password with
  | none => .ok none
  | some password =>
    if trimSpace password = [] ∨ 1024 < byteLength password then .error { kind := .invalidRequest }
    else (require (svc.deps.hashPassword inputs.salt password) .internal
      "password hash failed").map some

def protect (id : UUID) (password : Option Text) : ProtectPhase → Option (Table × ProtectPhase)
  | .updating =>
    match svc.protectionHash inputs password with
    | .error e => some (t, .refused e)
    | .ok hash =>
      let r := Repository.updatePasswordProtection t now id hash
      some (inputs.database.table t r.1,
        match inputs.database.answer r.2 with
        | none => .refused (internal (if password.isSome then "password protection update failed"
            else "password protection removal failed"))
        | some result => if result.updated then .answered result else .refused unavailable)
  | .answered _ | .refused _ | .abandoned => none

/-- `Repository.Cleanup` inside its transaction. A transaction that fails is
rolled back, so the failure is its first step. -/
def cleanup : CleanupPhase → Option (Table × CleanupPhase)
  | .starting =>
    match inputs.database with
    | .failed => some (t, .failed)
    | _ =>
      let r := Repository.cleanupStatement t now .expireActive
      some (r.1, .restoring now r.2)
  | .restoring start expired =>
    let r := Repository.cleanupStatement t start
      (.restoreStale svc.cfg.consumingLeaseTTL.int64Seconds)
    some (r.1, .blanking start expired r.2)
  | .blanking start expired restored =>
    let r := Repository.cleanupStatement t start (.blankRetained
      svc.cfg.consumedRetention.int64Seconds svc.cfg.expiredRetention.int64Seconds
      svc.cfg.revokedRetention.int64Seconds)
    some (r.1, match inputs.database.answer () with
      | none => .failed
      | some () => .finished ⟨expired, r.2, restored⟩)
  | .finished _ | .failed | .abandoned => none

end Service

namespace Call
variable (svc : Service) (inputs : Inputs) (now : ℤ) (t : Table)

/-- One step of a call: the table and the call after it. -/
def advance : Call → Option (Table × Call)
  | .create actorID req .inserting =>
    let r := svc.create inputs now t actorID req
    some (r.1, .create actorID req r.2)
  | .create _ _ _ => none
  | .consume token password phase =>
    (svc.consume inputs now t token password phase).map fun r =>
      (r.1, .consume token password r.2)
  | .revoke id phase => (Service.revoke inputs now t id phase).map fun r => (r.1, .revoke id r.2)
  | .protect id password phase =>
    (svc.protect inputs now t id password phase).map fun r => (r.1, .protect id password r.2)
  | .cleanup phase => (svc.cleanup inputs now t phase).map fun r => (r.1, .cleanup r.2)

/-- A call that has not returned may be given up. -/
def abandon : Call → Option Call
  | .create actorID req .inserting => some (.create actorID req .abandoned)
  | .create _ _ _ => none
  | .consume _ _ (.delivered _ _) | .consume _ _ (.refused _) | .consume _ _ .abandoned => none
  | .consume token password _ => some (.consume token password .abandoned)
  | .revoke _ (.answered _) | .revoke _ .failed | .revoke _ .abandoned => none
  | .revoke id _ => some (.revoke id .abandoned)
  | .protect id password .updating => some (.protect id password .abandoned)
  | .protect _ _ _ => none
  | .cleanup (.finished _) | .cleanup .failed | .cleanup .abandoned => none
  | .cleanup _ => some (.cleanup .abandoned)

/-- The lease ID that the next step of the call draws. -/
def drawnLease : Call → Option UUID
  | .consume _ _ (.leasing _ _) => inputs.leaseID
  | _ => none

end Call

/-- `leases` holds the lease IDs drawn so far. -/
structure State where
  clock : ℤ
  table : Table
  calls : List Call
  leases : List UUID

inductive Action where
  | tick (elapsed : ℕ)
  | spawn (request : Request)
  | advance (i : ℕ) (inputs : Inputs)
  | abandon (i : ℕ)
  deriving DecidableEq, Repr

/-- One step of the system, refused when the call cannot take it or draws a
lease ID that is not fresh. -/
def step (svc : Service) (s : State) : Action → Option State
  | .tick elapsed => some { s with clock := s.clock + elapsed }
  | .spawn request => some { s with calls := s.calls ++ [request.call] }
  | .advance i inputs =>
    s.calls[i]?.bind fun call =>
      if (call.drawnLease inputs).any fun leaseID => leaseID ∈ s.leases then none
      else (call.advance svc inputs s.clock s.table).map fun r =>
        { s with
          table := r.1
          calls := s.calls.set i r.2
          leases := (call.drawnLease inputs).toList ++ s.leases }
  | .abandon i =>
    s.calls[i]?.bind fun call => call.abandon.map fun call' =>
      { s with calls := s.calls.set i call' }

/-- Nothing is stored and nobody has called. -/
def State.init (clock : ℤ) : State := ⟨clock, .empty, [], []⟩

/-- The sample settings, and answers of a healthy database and Vault. -/
def sampleService : Service := ⟨sampleConfig, sampleDependencies⟩

def sampleAnswers (leaseID : Option UUID) : Inputs :=
  { sampleInputs with database := .answered, vaultUp := true, leaseID := leaseID }

def sampleCreation : List Action :=
  [.spawn (.create "admin".toList sampleRequest), .advance 0 (sampleAnswers none)]

/-- The sample delivery is created, and call 1 leases it. -/
def sampleLeasing : List Action :=
  sampleCreation ++
    [.spawn (.consume ['t'] []), .advance 1 (sampleAnswers none),
      .advance 1 (sampleAnswers (some 1))]

/-- Call 1 decrypts the delivery and completes it. -/
def sampleReveal : List Action :=
  sampleLeasing ++ [.advance 1 (sampleAnswers none), .advance 1 (sampleAnswers none)]

def sampleItem : ConsumeCandidate := (sampleParams.row 0).candidate

def sampleResponse : ConsumeResponse where
  secret := "\"s\"".toList
  payload := "\x7b\"type\":\"text\",\"text\":\"s\"\x7d".toList

end SecureShare.Delivery
