import SecureShare.Handlers.AuditRows

/-!
# Audit trail

A change of accounts, clients, links or settings asks for a record. Each record of a change
follows the change, in every run, and each change has its record at the end of every run
that does not answer with an internal error.
-/
namespace SecureShare.Handlers
open Go Library Http
open Auth (User Actor)
open Delivery (UUID ServiceError)

/-- What the record of a change has: one of these types, and the link. -/
structure Demand where
  types : List Text
  link : Option UUID

def Demand.Met (d : Demand) (record : AuditEventRecord) : Prop :=
  record.type ∈ d.types ∧ record.deliveryID = d.link

/-- The record that a change asks for. The use of a client, a theme and a lease ask for none. -/
def Op.demand : (op : Op) → op.Answer → Option Demand
  | .createSession _, _ =>
    some ⟨["auth.login_succeeded".toList, "auth.password_changed".toList], none⟩
  | .touchLastLogin _, _ => some ⟨["auth.login_succeeded".toList], none⟩
  | .revokeSession _, _ =>
    some ⟨["auth.logout".toList, "auth.login_succeeded".toList, "auth.password_changed".toList], none⟩
  | .revokeOtherSessions _ _, _ =>
    some ⟨["session.revoked".toList, "auth.password_changed".toList], none⟩
  | .createUser _, _ => some ⟨["user.created".toList], none⟩
  | .updateUser _ _, _ =>
    some ⟨["user.updated".toList, "user.disabled".toList, "user.enabled".toList], none⟩
  | .setPassword _ _ _, _ =>
    some ⟨["auth.password_changed".toList, "user.password_reset".toList], none⟩
  | .createAPIClient _, _ => some ⟨["api_client.created".toList], none⟩
  | .setAPIClientStatus _ status, _ =>
    some ⟨[match status with
      | .active => "api_client.enabled".toList
      | .disabled => "api_client.disabled".toList
      | .revoked => "api_client.revoked".toList], none⟩
  | .rotateAPIClientSecret _ _, _ => some ⟨["api_client.secret_rotated".toList], none⟩
  | .insert params, _ => some ⟨["secret.created".toList], some params.id⟩
  | .revoke id, revoked => if revoked then some ⟨["secret.revoked".toList], some id⟩ else none
  | .updatePasswordProtection id passwordHash, result =>
    if result.updated ∧ (passwordHash.isSome ∨ result.wasProtected) then
      some ⟨[if passwordHash.isNone then "secret.password_removed".toList
        else if result.wasProtected then "secret.password_replaced".toList
        else "secret.password_set".toList], some id⟩
    else none
  | .recordPasswordFailure _ _, failure =>
    if failure.updated then some ⟨["secret.password_failed".toList], some failure.id⟩ else none
  | .completeConsume id _, completed =>
    if completed then some ⟨["secret.consumed".toList], some id⟩ else none
  | .cleanup, _ => some ⟨["secret.expired".toList], none⟩
  | .saveEmailSettings _, _ =>
    some ⟨["email.settings_updated".toList, "email.enabled".toList, "email.disabled".toList], none⟩
  | .savePublicSettings _, _ => some ⟨["application.public_locale_updated".toList], none⟩
  | _, _ => none

/-- The types of the records that follow a change. A record of a logout comes before it, and one
of a revocation also stands where the link was not there to be revoked. -/
def changeTypes : List Text :=
  ["auth.login_succeeded".toList, "auth.password_changed".toList, "session.revoked".toList,
    "user.created".toList, "user.updated".toList, "user.disabled".toList, "user.enabled".toList,
    "user.password_reset".toList, "api_client.created".toList, "api_client.enabled".toList,
    "api_client.disabled".toList, "api_client.revoked".toList, "api_client.secret_rotated".toList,
    "secret.created".toList, "secret.password_set".toList, "secret.password_replaced".toList,
    "secret.password_removed".toList, "secret.password_failed".toList, "secret.consumed".toList,
    "secret.expired".toList, "email.settings_updated".toList, "email.enabled".toList,
    "email.disabled".toList, "application.public_locale_updated".toList]

/-- One of the calls is a change that asked for this record. -/
def Made (record : AuditEventRecord) (calls : Calls) : Prop :=
  ∃ call ∈ calls, ∃ a d, call.answer = some a ∧ call.op.demand a = some d ∧ d.Met record

def Recorded (d : Demand) (calls : Calls) : Prop :=
  ∃ record answer, ⟨.recordAuditEvent record, answer⟩ ∈ calls ∧ d.Met record

/-- What the changes have asked for is recorded, but for what is owed. -/
def Ledger (owed : Demand → Prop) (calls : Calls) : Prop :=
  ∀ call ∈ calls, ∀ a d, call.answer = some a → call.op.demand a = some d →
    owed d ∨ Recorded d calls

def Settled (calls : Calls) : Prop := Ledger (fun _ => False) calls

/-- This record settles the ledger. -/
def Due (record : AuditEventRecord) (calls : Calls) : Prop := Ledger (fun d => d.Met record) calls

/-- A record of a change follows the change. -/
def Truthful (calls : Calls) : Op → Prop
  | .recordAuditEvent record => record.type ∈ changeTypes → Made record calls
  | _ => True

def trailContract : Contract Op Op.Answer Calls := .ofCalls Truthful Possible

/-- An operation that asks for no record, and records no change. -/
def Op.Plain : Op → Prop
  | .recordAuditEvent record => record.type ∉ changeTypes
  | op => ∀ a, op.demand a = none

/-- An operation that asks for this record at most, and is no record itself. -/
def Op.DueIn (record : AuditEventRecord) : Op → Prop
  | .recordAuditEvent _ => False
  | op => ∀ a d, op.demand a = some d → d.Met record

/-- The change that a record is due for has been made. -/
def Awaits : Option AuditEventRecord → Calls → Prop
  | none, calls => Settled calls
  | some record, calls => Due record calls ∧ Made record calls

/-- From a settled ledger to one that, given the result, is settled or waits for one record. -/
def Changes {α : Type} (due : α → Option AuditEventRecord) (p : Prog α) : Prop :=
  ∀ calls, Settled calls → p.Meets trailContract (fun calls a => Awaits (due a) calls) calls

def Settles {α : Type} (p : Prog α) : Prop := Changes (fun _ => none) p

/-- The same for a handler, unless it answers with an internal error. -/
def Audited (p : Prog Response) : Prop :=
  ∀ calls, Settled calls →
    p.Meets trailContract (fun calls response => response.status = 500 ∨ Settled calls) calls

section
variable {calls : Calls} {owed owed' : Demand → Prop} {record : AuditEventRecord} {op : Op}
  {α β ε : Type}

/-! ### The ledger -/

theorem Recorded.mono {d : Demand} {calls' : Calls} (h : Recorded d calls) (hsub : calls ⊆ calls') :
    Recorded d calls' := by
  obtain ⟨record, answer, hmem, hmet⟩ := h
  exact ⟨record, answer, hsub hmem, hmet⟩

theorem Ledger.call {answer : Option op.Answer} (h : Ledger owed calls)
    (howed : ∀ d, owed d → owed' d ∨ Recorded d (calls ++ [⟨op, answer⟩]))
    (hop : ∀ a d, answer = some a → op.demand a = some d →
      owed' d ∨ Recorded d (calls ++ [⟨op, answer⟩])) :
    Ledger owed' (calls ++ [⟨op, answer⟩]) := by
  intro call hcall a d ha hd
  rcases List.mem_append.mp hcall with hcall | hcall
  · rcases h call hcall a d ha hd with howes | hrecorded
    · exact howed d howes
    · exact .inr (hrecorded.mono (List.subset_append_left _ _))
  · obtain rfl := List.mem_singleton.mp hcall
    exact hop a d ha hd

theorem Settled.due (h : Settled calls) : Due record calls :=
  fun call hcall a d ha hd => (h call hcall a d ha hd).imp False.elim id

theorem Op.Plain.demand_eq (h : op.Plain) (a : op.Answer) : op.demand a = none := by
  cases op with
  | recordAuditEvent => rfl
  | _ => exact h a

theorem Op.Plain.truthful (h : op.Plain) : Truthful calls op := by
  cases op with
  | recordAuditEvent => exact fun hchange => absurd hchange h
  | _ => trivial

theorem Op.DueIn.met (h : op.DueIn record) {a : op.Answer} {d : Demand} (hd : op.demand a = some d) :
    d.Met record := by
  cases op with
  | recordAuditEvent => exact h.elim
  | _ => exact h a d hd

theorem Op.DueIn.truthful (h : op.DueIn record) : Truthful calls op := by
  cases op with
  | recordAuditEvent => exact h.elim
  | _ => trivial

theorem Settled.plain {answer : Option op.Answer} (h : Settled calls) (hop : op.Plain) :
    Settled (calls ++ [⟨op, answer⟩]) :=
  h.call (fun _ => .inl) fun a _ _ hd => nomatch (hop.demand_eq a).symm.trans hd

theorem Due.call {answer : Option op.Answer} (h : Due record calls) (hop : op.DueIn record) :
    Due record (calls ++ [⟨op, answer⟩]) :=
  Ledger.call h (fun _ => .inl) fun _ _ _ hd => .inl (hop.met hd)

/-! ### Programs -/

theorem Settles.of_uses {p : Prog α} (h : p.Uses Op.Plain) : Settles p := by
  intro calls hcalls
  exact h.meets hcalls (fun _ _ _ hop => hop.truthful) fun _ _ _ hcalls hop => hcalls.plain hop

/-- The same of a program that is known to call such operations only while the answers are
possible. -/
theorem Settles.of_meets {p : Prog α} {allowed : Calls → Op → Prop} {Q : Calls → α → Prop}
    (h : ∀ calls, p.Meets (.ofCalls allowed Possible) Q calls)
    (hplain : ∀ calls op, allowed calls op → op.Plain) : Settles p := by
  intro calls hcalls
  have hsettled := (h calls).invariant hcalls fun _ _ _ hcalls hop => hcalls.plain (hplain _ _ hop)
  exact (hsettled.mono fun _ _ h => h.1).weaken fun calls op hop => (hplain calls op hop).truthful

theorem Settles.audited {p : Prog Response} (h : Settles p) : Audited p :=
  fun calls hcalls => (h calls hcalls).mono fun _ _ => .inr

theorem Audited.of_uses {p : Prog Response} (h : p.Uses Op.Plain) : Audited p :=
  (Settles.of_uses h).audited

theorem audited_bind {p : Prog β} {next : β → Prog Response} (h : Settles p)
    (hnext : ∀ b, Audited (next b)) : Audited (p >>= next) :=
  fun calls hcalls => (h calls hcalls).bind fun calls b hcalls => hnext b calls hcalls

theorem audited_withSome {p : Prog (Option β)} {failed : Response} {next : β → Prog Response}
    (h : Settles p) (hnext : ∀ b, Audited (next b)) : Audited (withSome p failed next) := by
  refine audited_bind h fun found => ?_
  cases found with
  | none => exact .of_uses Program.uses_pure
  | some b => exact hnext b

theorem audited_withOk {p : Prog (Except ε β)} {failed : ε → Response} {next : β → Prog Response}
    (h : Settles p) (hnext : ∀ b, Audited (next b)) : Audited (withOk p failed next) := by
  refine audited_bind h fun found => ?_
  cases found with
  | error e => exact .of_uses Program.uses_pure
  | ok b => exact hnext b

theorem audited_decodeJSON {r : Request} {kind : BodyKind} {next : kind.Body → Prog Response}
    (h : ∀ body, Audited (next body)) : Audited (decodeJSON r kind next) := by
  unfold decodeJSON
  split
  · exact .of_uses Program.uses_pure
  · exact .of_uses Program.uses_pure
  · exact .of_uses Program.uses_pure
  · exact h _

theorem settles_perform (h : op.Plain) : Settles (perform op) :=
  .of_uses (Program.uses_perform.mpr h)

theorem audited_withLimit {limiter : Limiter} {key : Text} {limited : Response}
    {next : Prog Response} (h : Audited next) : Audited (withLimit limiter key limited next) := by
  refine audited_bind (settles_perform fun _ => rfl) fun allowed => ?_
  split_ifs
  · exact h
  · exact .of_uses Program.uses_pure

theorem audited_ite {c : Prop} [Decidable c] {p q : Prog Response} (hp : Audited p)
    (hq : Audited q) : Audited (if c then p else q) := by
  split_ifs
  · exact hp
  · exact hq

/-- The record that is due settles the ledger. -/
theorem meets_record (hdue : Due record calls) (hmade : record.type ∈ changeTypes → Made record calls) :
    (recordAudit record).Meets trailContract (fun calls _ => Settled calls) calls := by
  refine meets_call (hmade : Truthful calls (.recordAuditEvent _)) fun answer _ => ?_
  refine Ledger.call hdue (fun d hd => .inr ⟨_, answer, ?_, hd⟩) fun _ _ _ hd => nomatch hd
  exact List.mem_append_right _ (List.mem_singleton.mpr rfl)

theorem meets_recordAudit (h : Awaits (some record) calls) :
    (recordAudit record).Meets trailContract (fun calls _ => Settled calls) calls :=
  meets_record h.1 fun _ => h.2

theorem made_of_call {answer : op.Answer} {d : Demand} (hd : op.demand answer = some d)
    (hmet : d.Met record) : Made record (calls ++ [⟨op, some answer⟩]) :=
  ⟨⟨op, some answer⟩, List.mem_append_right _ (List.mem_singleton.mpr rfl), answer, d, rfl, hd, hmet⟩

theorem Made.mono {calls' : Calls} (h : Made record calls) (hsub : calls ⊆ calls') :
    Made record calls' := by
  obtain ⟨call, hcall, hmade⟩ := h
  exact ⟨call, hsub hcall, hmade⟩

/-- A call that is answered with no change. -/
theorem Settled.unchanged {answer : Option op.Answer} (h : Settled calls)
    (hop : ∀ a, answer = some a → op.demand a = none) : Settled (calls ++ [⟨op, answer⟩]) :=
  h.call (fun _ => .inl) fun a _ ha hd => nomatch (hop a ha).symm.trans hd

theorem Settled.changed {a : op.Answer} {d : Demand} (h : Settled calls)
    (hd : op.demand a = some d) (hmet : d.Met record) :
    Awaits (some record) (calls ++ [⟨op, some a⟩]) := by
  refine ⟨Ledger.call h.due (fun _ => .inl) ?_, made_of_call hd hmet⟩
  rintro _ _ ⟨⟩ hd'
  obtain rfl := Option.some.inj (hd.symm.trans hd')
  exact .inl hmet

/-- One operation that asks for this record whenever it has an answer. -/
theorem changes_perform {record : op.Answer → AuditEventRecord} (hop : ∀ calls, Truthful calls op)
    (hd : ∀ a, ∃ d, op.demand a = some d ∧ d.Met (record a)) :
    Changes (fun found => found.map record) (perform op) := by
  intro calls hcalls
  refine ⟨hop calls, fun answer _ => ?_⟩
  cases answer with
  | none =>
      refine hcalls.unchanged ?_
      rintro _ ⟨⟩
  | some a =>
      obtain ⟨d, hd, hmet⟩ := hd a
      exact hcalls.changed hd hmet

theorem audited_changed {p : Prog (Option β)} {failed : Response} {record : β → AuditEventRecord}
    {response : β → Response} (h : Changes (fun found => found.map record) p) :
    Audited (withSome p failed fun b => recordAudit (record b) >>= fun _ => pure (response b)) := by
  intro calls hcalls
  refine (h calls hcalls).bind fun calls found hawaits => ?_
  cases found with
  | none => exact .inr hawaits
  | some b => exact (meets_recordAudit hawaits).bind fun _ _ => .inr

end

/-! ### Accounts -/

section
variable {srv : Server} {r : Request} {calls : Calls} {record : AuditEventRecord} {permission : Text}
  {actor : Actor} {α β : Type}

theorem audited_method {method : Method} {next : Prog Response} (h : Audited next) :
    Audited (if r.method ≠ method then pure methodNotAllowed else next) :=
  audited_ite (.of_uses Program.uses_pure) h

theorem audited_atPath {path : String} {next : Prog Response} (h : Audited next) :
    Audited (atPath r path next) :=
  audited_ite h (.of_uses Program.uses_pure)

theorem plain_fromRequest : (fromRequest srv r).Uses Op.Plain :=
  uses_fromRequest fun _ _ => fun _ => rfl

theorem settles_requireAPI : Settles (requireAPI srv r permission) := by
  have hadmits : Admits srv r (fun _ op => op.Plain) Possible :=
    { now := fun _ _ => rfl
      session := fun _ _ _ _ => rfl
      client := fun _ _ _ _ _ => rfl
      touch := fun _ _ _ _ _ => rfl
      sessionNamed := fun _ _ h => h
      clientNamed := fun _ _ h => h }
  exact .of_meets (fun _ => requireAPI_meets hadmits) fun _ _ hop => hop

theorem audited_withSession {next : Auth.Session → Prog Response} (h : ∀ session, Audited (next session)) :
    Audited (withSession srv r next) :=
  audited_withSome (.of_uses plain_fromRequest) h

theorem audited_withActor {next : Actor → Prog Response} (h : ∀ actor, Audited (next actor)) :
    Audited (withActor srv r permission next) :=
  audited_withOk settles_requireAPI h

theorem plain_authenticate {login password : Text} : (authenticate srv login password).Uses Op.Plain := by
  refine uses_call (fun _ => rfl) fun found => ?_
  match found with
  | none => exact Program.uses_pure
  | some none => exact Program.uses_pure
  | some (some record) =>
    dsimp only
    split_ifs <;> exact Program.uses_pure

/-- Operations that ask for the record that is due. -/
theorem meets_dueIn {p : Prog α} (h : p.Uses (Op.DueIn record)) (hcalls : Due record calls) :
    p.Meets trailContract (fun calls _ => Due record calls) calls :=
  h.meets hcalls (fun _ _ _ hop => hop.truthful) fun _ _ _ hcalls hop => hcalls.call hop

/-- The types of the records that are due for a new session. -/
def SessionRecord (record : AuditEventRecord) : Prop :=
  record.type ∈ ["auth.login_succeeded".toList, "auth.password_changed".toList] ∧
    record.deliveryID = none

theorem SessionRecord.revokeSession (h : SessionRecord record) {tokenHash : Delivery.Bytes} :
    Op.DueIn record (.revokeSession tokenHash) := by
  rintro _ _ ⟨⟩
  exact ⟨List.mem_cons_of_mem _ h.1, h.2⟩

theorem SessionRecord.createSession (h : SessionRecord record) {user : User} :
    Op.DueIn record (.createSession user) := by
  rintro _ _ ⟨⟩
  exact h

theorem dueIn_destroy (h : ∀ tokenHash, Op.DueIn record (.revokeSession tokenHash)) :
    (destroy srv r).Uses (Op.DueIn record) := by
  unfold destroy
  split
  · exact Program.uses_pure
  · exact uses_call (h _) fun _ => Program.uses_pure

/-- A session in place of the one of the cookie. -/
theorem meets_newSession {user : User} {next : Auth.Session → Prog Response} (h : SessionRecord record)
    (hdue : Due record calls)
    (hnext : ∀ session calls, Awaits (some record) calls → (next session).Meets trailContract
      (fun calls response => response.status = 500 ∨ Settled calls) calls) :
    (destroy srv r >>= fun _ => withSome (perform (.createSession user)) internalError next).Meets
      trailContract (fun calls response => response.status = 500 ∨ Settled calls) calls := by
  refine (meets_dueIn (dueIn_destroy fun _ => h.revokeSession) hdue).bind fun calls _ hdue => ?_
  refine meets_call trivial fun session _ => ?_
  cases session with
  | none => exact .inl rfl
  | some session => exact hnext session _ ⟨hdue.call h.createSession, made_of_call rfl h⟩

theorem audited_startSession {user : User} {isJSON : Bool} : Audited (startSession srv r user isJSON) := by
  intro calls hcalls
  have hrecord : SessionRecord
      (requestRecord srv r user.username "auth.login_succeeded".toList "success".toList) :=
    ⟨List.mem_cons_self, rfl⟩
  refine meets_newSession hrecord hcalls.due fun session calls hawaits => ?_
  refine meets_call trivial fun touched _ => ?_
  refine (meets_recordAudit ⟨hawaits.1.call ?_, ?_⟩).bind fun _ _ => .inr
  · rintro _ _ ⟨⟩
    exact ⟨List.mem_singleton_self _, rfl⟩
  · exact hawaits.2.mono (List.subset_append_left _ _)

theorem plain_auditRequest {actorID : Text} {type result : String} (h : type.toList ∉ changeTypes) :
    (auditRequest srv r actorID type result).Uses Op.Plain :=
  uses_call h fun _ => Program.uses_pure

theorem audited_withLogin {next : Bool → Text → Text → Prog Response}
    (h : ∀ isJSON login password, Audited (next isJSON login password)) :
    Audited (withLogin r next) := by
  unfold withLogin
  split_ifs
  · exact audited_decodeJSON fun body => h _ _ _
  · exact h _ _ _
  · exact .of_uses Program.uses_pure

theorem audited_handleLogin : Audited (handleLogin srv r) := by
  refine audited_method (audited_withLogin fun isJSON login password => audited_withLimit ?_)
  refine audited_bind (.of_uses plain_authenticate) fun result => ?_
  cases result with
  | unavailable => exact .of_uses Program.uses_pure
  | rejected => exact .of_uses ((plain_auditRequest (by decide)).bind fun _ => Program.uses_pure)
  | accepted user => exact audited_startSession

/-- The record of a logout comes before its change. -/
theorem audited_endSession {session : Auth.Session} {response : Response} :
    Audited (endSession srv r session response) := by
  intro calls hcalls
  have hrecord : (auditRequest srv r session.username "auth.logout" "success").Meets trailContract
      (fun calls _ => Settled calls ∧ ∀ tokenHash d, Op.demand (.revokeSession tokenHash) () = some d →
        Recorded d calls) calls := by
    have hother : "auth.logout".toList ∉ changeTypes := by decide
    refine meets_call (fun hchange => absurd hchange hother) fun answer _ => ⟨hcalls.plain hother, ?_⟩
    rintro tokenHash _ ⟨⟩
    exact ⟨_, answer, List.mem_append_right _ (List.mem_singleton.mpr rfl), List.mem_cons_self, rfl⟩
  refine hrecord.bind fun calls _ h => ?_
  unfold destroy
  split
  · exact .inr h.1
  · refine meets_call trivial fun answer _ => .inr (Ledger.call h.1 (fun _ => .inl) fun _ d _ hd => ?_)
    exact .inr ((h.2 _ d hd).mono (List.subset_append_left _ _))

theorem audited_handleLogout : Audited (handleLogout srv r) :=
  audited_method (audited_ite (.of_uses Program.uses_pure) (audited_withSession fun _ =>
    audited_ite audited_endSession (.of_uses Program.uses_pure)))

theorem audited_handleBrowserLogout : Audited (handleBrowserLogout srv r) :=
  audited_method (audited_withSome (.of_uses plain_fromRequest) fun _ =>
    audited_ite audited_endSession (.of_uses Program.uses_pure))

theorem audited_handleThemePreference : Audited (handleThemePreference srv r) := by
  refine audited_withSession fun session => ?_
  split_ifs
  · exact .of_uses Program.uses_pure
  · exact .of_uses Program.uses_pure
  · refine audited_decodeJSON fun theme => ?_
    split
    · exact .of_uses Program.uses_pure
    · exact audited_withSome (settles_perform fun _ => rfl) fun _ => .of_uses Program.uses_pure
  · exact .of_uses Program.uses_pure
  · exact .of_uses Program.uses_pure

theorem audited_changePassword {user : User} {password : Text} :
    Audited (changePassword srv r actor user password) := by
  intro calls hcalls
  have hrecord : SessionRecord
      (requestRecord srv r actor.username "auth.password_changed".toList "success".toList) :=
    ⟨List.mem_cons_of_mem _ List.mem_cons_self, rfl⟩
  refine meets_call trivial fun changed _ => ?_
  cases changed with
  | none => exact .inl rfl
  | some changed =>
      have hchanged : Op.DueIn (requestRecord srv r actor.username "auth.password_changed".toList
          "success".toList) (.setPassword actor.userID password false) := by
        rintro _ _ ⟨⟩
        exact ⟨List.mem_cons_self, rfl⟩
      refine meets_call trivial fun revoked _ => ?_
      refine meets_newSession hrecord ((hcalls.due.call hchanged).call ?_) fun _ _ hawaits =>
        (meets_recordAudit hawaits).bind fun _ _ => .inr
      rintro _ _ ⟨⟩
      exact ⟨List.mem_cons_of_mem _ List.mem_cons_self, rfl⟩

theorem audited_handleChangePassword : Audited (handleChangePassword srv r) := by
  refine audited_method (audited_withActor fun actor => audited_decodeJSON fun body => ?_)
  refine audited_bind (.of_uses plain_authenticate) fun result => ?_
  cases result with
  | unavailable => exact .of_uses Program.uses_pure
  | rejected => exact .of_uses Program.uses_pure
  | accepted user =>
      dsimp only
      split_ifs
      · exact .of_uses Program.uses_pure
      · exact audited_changePassword
      · exact .of_uses Program.uses_pure

theorem audited_handleMySessions : Audited (handleMySessions srv r) :=
  audited_method (audited_withSession fun _ =>
    audited_withSome (settles_perform fun _ => rfl) fun _ => .of_uses Program.uses_pure)

theorem audited_handleRevokeOtherSessions : Audited (handleRevokeOtherSessions srv r) :=
  audited_method (audited_withActor fun _ => audited_changed (changes_perform (fun _ => trivial)
    fun _ => ⟨_, rfl, List.mem_cons_self, rfl⟩))

/-! ### Users and API clients -/

theorem audited_answerQuery {q : Query} : Audited (answerQuery q) :=
  audited_withSome (settles_perform fun _ => rfl) fun _ => .of_uses Program.uses_pure

theorem audited_handleUsersAPI : Audited (handleUsersAPI srv r) := by
  refine audited_atPath (audited_withActor fun actor => ?_)
  split
  · exact audited_answerQuery
  · exact audited_decodeJSON fun _ => audited_ite (audited_changed (changes_perform (fun _ => trivial)
      fun _ => ⟨_, rfl, List.mem_cons_self, rfl⟩)) (.of_uses Program.uses_pure)
  · exact .of_uses Program.uses_pure

/-- The record of a change of a user. -/
theorem changes_updateUser {id : UUID} {patch : Auth.UserPatch}
    (h : record.type ∈ ["user.updated".toList, "user.disabled".toList, "user.enabled".toList])
    (hlink : record.deliveryID = none) :
    Changes (fun found => found.map fun _ => record) (updateUser srv id patch) := by
  intro calls hcalls
  refine meets_call trivial fun found _ => ?_
  have hcalls : Settled (calls ++ [⟨.userByID id, found⟩]) := hcalls.plain fun _ => rfl
  cases found with
  | none => exact hcalls
  | some current =>
      dsimp only
      split
      · exact hcalls
      · next columns _ =>
        have hchange : Changes (fun found => found.map fun _ => record)
            (perform (.updateUser id columns)) :=
          changes_perform (fun _ => trivial) fun _ => ⟨_, rfl, h, hlink⟩
        exact hchange _ hcalls

theorem audited_changeUser {id : UUID} {patch : Auth.UserPatch} {type : String}
    (h : type.toList ∈ ["user.updated".toList, "user.disabled".toList, "user.enabled".toList]) :
    Audited (changeUser srv r actor (updateUser srv id patch) type) :=
  audited_changed (changes_updateUser h rfl)

theorem audited_withIDPath {start : String} {next : UUID → Text → Prog Response}
    (h : ∀ id action, Audited (next id action)) : Audited (withIDPath srv r start next) := by
  unfold withIDPath
  dsimp only
  split
  · exact .of_uses Program.uses_pure
  · exact h _ _

theorem audited_handleUserAPI : Audited (handleUserAPI srv r) := by
  refine audited_withActor fun actor => audited_withIDPath fun id action => ?_
  split_ifs
  · exact audited_withSome (settles_perform fun _ => rfl) fun _ => .of_uses Program.uses_pure
  · exact audited_decodeJSON fun _ => audited_changeUser List.mem_cons_self
  · refine audited_decodeJSON fun _ => audited_ite (audited_changed (changes_perform (fun _ => trivial)
      fun _ => ⟨_, rfl, ?_, rfl⟩)) (.of_uses Program.uses_pure)
    exact List.mem_cons_of_mem _ List.mem_cons_self
  · exact audited_changeUser (List.mem_cons_of_mem _ List.mem_cons_self)
  · exact audited_changeUser (List.mem_cons_of_mem _ (List.mem_cons_of_mem _ List.mem_cons_self))
  · exact .of_uses Program.uses_pure

theorem audited_handleAPIClientsAPI : Audited (handleAPIClientsAPI srv r) := by
  refine audited_atPath (audited_withActor fun actor => ?_)
  split
  · exact audited_answerQuery
  · refine audited_decodeJSON fun body => ?_
    split
    · exact .of_uses Program.uses_pure
    · exact audited_changed (changes_perform (fun _ => trivial) fun _ => ⟨_, rfl, List.mem_cons_self, rfl⟩)
  · exact .of_uses Program.uses_pure

theorem audited_withClient {id : UUID} {next : Auth.APIClient → Prog Response}
    (h : ∀ client, Audited (next client)) : Audited (withClient id next) :=
  audited_withSome (settles_perform fun _ => rfl) fun client =>
    audited_ite (.of_uses Program.uses_pure) (h client)

theorem audited_handleAPIClientAPI : Audited (handleAPIClientAPI srv r) := by
  refine audited_withActor fun actor => audited_withIDPath fun id action => ?_
  split_ifs
  · exact audited_withSome (settles_perform fun _ => rfl) fun _ => .of_uses Program.uses_pure
  · exact audited_changed (changes_perform (fun _ => trivial)
      fun _ => ⟨_, rfl, List.mem_cons_self, rfl⟩)
  · exact audited_withClient fun _ => audited_changed (changes_perform (fun _ => trivial)
      fun _ => ⟨_, rfl, List.mem_cons_self, rfl⟩)
  · exact audited_changed (changes_perform (fun _ => trivial)
      fun _ => ⟨_, rfl, List.mem_cons_self, rfl⟩)
  · exact audited_withClient fun _ => audited_changed (changes_perform (fun _ => trivial)
      fun _ => ⟨_, rfl, List.mem_cons_self, rfl⟩)
  · exact .of_uses Program.uses_pure

/-! ### Administration -/

theorem audited_handleDashboardAPI : Audited (handleDashboardAPI srv r) :=
  audited_method (audited_withActor fun _ => audited_withSome (settles_perform fun _ => rfl) fun _ =>
    .of_uses ((uses_dependencyState (fun _ => rfl) fun _ => rfl).bind fun _ => Program.uses_pure))

theorem audited_handleManualCleanup : Audited (handleManualCleanup srv r) :=
  audited_method (audited_withActor fun _ => audited_changed (changes_perform (fun _ => trivial)
    fun _ => ⟨_, rfl, List.mem_cons_self, rfl⟩))

theorem plain_safeEmailSettings : safeEmailSettings.Uses Op.Plain :=
  uses_safeEmailSettings fun _ => rfl

/-- The record of a change of the email settings. -/
def EmailRecord (record : AuditEventRecord) : Prop :=
  record.type ∈ ["email.settings_updated".toList, "email.enabled".toList, "email.disabled".toList] ∧
    record.deliveryID = none

/-- What a record is due for, of a result that may be an error. -/
def dueOk {ε α : Type} (record : AuditEventRecord) : Except ε α → Option AuditEventRecord
  | .error _ => none
  | .ok _ => some record

theorem meets_saveEmailSettings {settings : Email.StoredSettings} {ε : Type} {e : ε}
    {result : Email.StoredSettings → α} (h : EmailRecord record) (hcalls : Settled calls) :
    (perform (.saveEmailSettings settings) >>= fun saved =>
      (match saved with
        | none => pure (.error e)
        | some saved => pure (.ok (result saved)) : Prog (Except ε α))).Meets trailContract
      (fun calls result => Awaits (dueOk record result) calls) calls := by
  refine meets_call trivial fun saved _ => ?_
  cases saved with
  | none =>
      refine hcalls.unchanged ?_
      rintro _ ⟨⟩
  | some saved => exact hcalls.changed rfl h

theorem changes_updateEmail {id : UUID} {req : Email.UpdateRequest} (h : EmailRecord record) :
    Changes (dueOk record) (updateEmail srv id req) := by
  intro calls hcalls
  refine meets_call trivial fun stored _ => ?_
  have hcalls : Settled (calls ++ [⟨.getEmailSettings, stored⟩]) := hcalls.plain fun _ => rfl
  cases stored with
  | none => exact hcalls
  | some stored =>
      have hnext : ∀ current, Settles (nextCiphertext req current) := by
        intro current
        refine .of_uses ?_
        unfold nextCiphertext
        split_ifs
        · exact Program.uses_pure
        · exact Program.uses_pure
        · exact Program.uses_perform.mpr fun _ => rfl
      refine (hnext _ _ hcalls).bind fun calls ciphertext hcalls => ?_
      cases ciphertext with
      | none => exact hcalls
      | some ciphertext =>
          dsimp only
          split
          · exact hcalls
          · exact meets_saveEmailSettings h hcalls

theorem changes_setEmailEnabled {id : UUID} {enabled : Bool} (h : EmailRecord record) :
    Changes (dueOk record) (setEmailEnabled srv id enabled) := by
  intro calls hcalls
  refine meets_call trivial fun stored _ => ?_
  have hcalls : Settled (calls ++ [⟨.getEmailSettings, stored⟩]) := hcalls.plain fun _ => rfl
  match stored with
  | none => exact hcalls
  | some none => exact hcalls
  | some (some current) =>
    dsimp only
    split
    · exact hcalls
    · exact meets_saveEmailSettings h hcalls

/-- The record that is due for the result, and a program that goes on from a settled ledger. -/
theorem audited_withOk_changed {ε : Type} {p : Prog (Except ε β)} {failed : ε → Response}
    {next : β → Prog Response} (h : Changes (dueOk record) p) (hnext : ∀ b, Audited (next b)) :
    Audited (withOk p failed fun b => recordAudit record >>= fun _ => next b) := by
  intro calls hcalls
  refine (h calls hcalls).bind fun calls result hawaits => ?_
  cases result with
  | error e => exact .inr hawaits
  | ok b => exact (meets_recordAudit hawaits).bind fun calls _ hcalls => hnext b calls hcalls

theorem plain_recordEmailAudit {type : String} {result : Text} (h : type.toList ∉ changeTypes) :
    (recordEmailAudit srv r actor type result).Uses Op.Plain :=
  uses_call h fun _ => Program.uses_pure

theorem audited_handleEmailSettingsAPI : Audited (handleEmailSettingsAPI srv r) := by
  refine audited_atPath (audited_withActor fun actor => ?_)
  split
  · exact audited_withSome (.of_uses plain_safeEmailSettings) fun _ => .of_uses Program.uses_pure
  · refine audited_decodeJSON fun req =>
      audited_withOk_changed (changes_updateEmail ⟨List.mem_cons_self, rfl⟩) fun result => ?_
    have hupdated : (recordEmailAudit srv r actor "email.password_updated"
        "success".toList).Uses Op.Plain := plain_recordEmailAudit (by decide)
    have hcleared : (recordEmailAudit srv r actor "email.password_cleared"
        "success".toList).Uses Op.Plain := plain_recordEmailAudit (by decide)
    refine .of_uses ?_
    split_ifs with hcleared' hupdated' hupdated'
    · exact hupdated.bind fun _ => hcleared.bind fun _ => Program.uses_pure
    · exact hcleared.bind fun _ => Program.uses_pure
    · exact hupdated.bind fun _ => Program.uses_pure
    · exact Program.uses_pure
  · exact .of_uses Program.uses_pure

theorem audited_answerTest {usable : Email.StoredSettings → Bool} {recipient : Option Text}
    {type : String} (hsucceeded : (type ++ "_succeeded").toList ∉ changeTypes)
    (hfailed : (type ++ "_failed").toList ∉ changeTypes) :
    Audited (answerTest srv r actor (sendWith srv usable recipient) type) := by
  refine .of_uses ((uses_sendWith (fun _ => rfl) fun _ => rfl).bind fun failure => ?_)
  cases failure with
  | none => exact (plain_recordEmailAudit hsucceeded).bind fun _ => Program.uses_pure
  | some category => exact (plain_recordEmailAudit hfailed).bind fun _ => Program.uses_pure

theorem audited_previewTemplate : Audited (previewTemplate srv r) := by
  refine audited_decodeJSON fun override => .of_uses (plain_safeEmailSettings.bind fun settings => ?_)
  dsimp only
  split <;> exact Program.uses_pure

theorem audited_switchEmail {enabled : Bool} {type : String}
    (h : type.toList ∈
      ["email.settings_updated".toList, "email.enabled".toList, "email.disabled".toList]) :
    Audited (switchEmail srv r actor enabled type) :=
  audited_withOk_changed (changes_setEmailEnabled ⟨h, rfl⟩) fun _ => .of_uses Program.uses_pure

theorem audited_handleEmailSettingsActionAPI : Audited (handleEmailSettingsActionAPI srv r) := by
  refine audited_withActor fun actor => ?_
  dsimp only
  split_ifs
  · exact audited_answerTest (by decide) (by decide)
  · exact audited_withLimit (audited_decodeJSON fun _ => audited_answerTest (by decide) (by decide))
  · exact audited_previewTemplate
  · exact audited_switchEmail (by decide)
  · exact audited_switchEmail (by decide)
  · exact .of_uses Program.uses_pure

theorem plain_currentPublicSettings : currentPublicSettings.Uses Op.Plain :=
  uses_currentPublicSettings fun _ => rfl

/-- The record has the locale that was saved. -/
theorem audited_updateLocale {session : Auth.Session} : Audited (updateLocale srv r session) := by
  refine audited_decodeJSON fun locale calls hcalls => ?_
  have hsaved : (updatePublicSettings srv session.userID locale).Meets trailContract (fun calls result =>
      ∀ record : AuditEventRecord, record.type = "application.public_locale_updated".toList →
        record.deliveryID = none → Awaits (dueOk record result) calls) calls := by
    unfold updatePublicSettings
    split
    · exact fun _ _ _ => hcalls
    · refine ((Settles.of_uses plain_currentPublicSettings) _ hcalls).bind fun calls current hcalls => ?_
      cases current with
      | none => exact fun _ _ _ => hcalls
      | some current =>
          refine meets_call trivial fun saved _ => ?_
          cases saved with
          | none =>
              intro _ _ _
              refine hcalls.unchanged ?_
              rintro _ ⟨⟩
          | some saved =>
              exact fun _ htype hlink => hcalls.changed rfl ⟨List.mem_singleton.mpr htype, hlink⟩
  refine hsaved.bind fun calls result hawaits => ?_
  cases result with
  | error invalid => exact .inr (hawaits (requestRecord srv r [] _ []) rfl rfl)
  | ok settings => exact (meets_recordAudit (hawaits _ rfl rfl)).bind fun _ _ => .inr

theorem audited_handlePublicExperienceAPI : Audited (handlePublicExperienceAPI srv r) := by
  refine audited_atPath (audited_withSession fun session => ?_)
  have hread : Audited (withSome currentPublicSettings internalError fun settings =>
      pure (Response.json 200 (.publicSettings settings))) :=
    audited_withSome (.of_uses plain_currentPublicSettings) fun _ => .of_uses Program.uses_pure
  split_ifs
  · split
    · exact hread
    · exact audited_updateLocale
    · exact .of_uses Program.uses_pure
  · split
    · exact hread
    · exact .of_uses Program.uses_pure
    · exact .of_uses Program.uses_pure
  · exact .of_uses Program.uses_pure

theorem audited_handleReady : Audited handleReady :=
  audited_withSome (settles_perform fun _ => rfl) fun _ =>
    audited_withSome (settles_perform fun _ => rfl) fun _ => .of_uses Program.uses_pure

/-! ### Links -/

theorem settles_create {actorID : Text} {req : Delivery.CreateRequest} :
    Settles (create srv actorID req) := by
  intro calls hcalls
  refine meets_call trivial fun answer _ => ?_
  have hcalls : Settled (calls ++ [⟨.insertParams actorID req, answer⟩]) := hcalls.plain fun _ => rfl
  match answer with
  | none => exact hcalls
  | some (.error e) => exact hcalls
  | some (.ok (params, token)) =>
    refine meets_call trivial fun inserted _ => ?_
    cases inserted with
    | none =>
        refine hcalls.unchanged ?_
        rintro _ ⟨⟩
    | some inserted =>
        refine (meets_recordAudit (hcalls.changed rfl ⟨?_, rfl⟩)).bind fun _ _ h => h
        exact List.mem_cons_self

theorem plain_sendCreatedEmail {title : Text} {link : Delivery.CreateResponse}
    {plan : EmailDeliveryPlan} {retry : Bool} :
    (sendCreatedEmail srv r actor title link plan retry).Uses Op.Plain := by
  have htypes : ∀ type ∈ emailEvents retry, type.toList ∉ changeTypes := by
    cases retry <;> decide
  exact uses_sendCreatedEmail (fun _ => rfl) (fun _ => rfl) (fun _ => rfl) fun type htype _ _ =>
    plain_recordEmailAudit (htypes type htype)

theorem plain_preflightEmailDelivery {plan : EmailDeliveryPlan} {title : Text} {expiresAt : ℤ} :
    (preflightEmailDelivery srv plan title expiresAt).Uses Op.Plain :=
  uses_preflightEmailDelivery (fun _ => rfl) fun _ => rfl

theorem audited_createLink {body : CreateLinkBody} : Audited (createLink srv r actor body) := by
  refine audited_withOk settles_create fun link => ?_
  dsimp only
  split_ifs
  · exact .of_uses (plain_sendCreatedEmail.bind fun _ => Program.uses_pure)
  · exact .of_uses Program.uses_pure

theorem audited_handleSecretLinks : Audited (handleSecretLinks srv r) := by
  refine audited_atPath ?_
  split_ifs
  · exact audited_withActor fun _ =>
      audited_withSome (settles_perform fun _ => rfl) fun _ => .of_uses Program.uses_pure
  · exact .of_uses Program.uses_pure
  · refine audited_withActor fun actor => audited_withLimit (audited_decodeJSON fun body => ?_)
    dsimp only
    split_ifs
    · unfold checkEmail
      split_ifs
      · exact audited_withLimit (audited_bind (settles_perform fun _ => rfl) fun _ =>
          audited_withOk (.of_uses plain_preflightEmailDelivery) fun _ => audited_createLink)
      · exact .of_uses Program.uses_pure
    · exact audited_createLink

theorem plain_prepare {token : Text} : (prepare srv token).Uses Op.Plain :=
  uses_prepare fun _ _ => rfl

theorem audited_handleSecretLinkSendEmail : Audited (handleSecretLinkSendEmail srv r) := by
  refine audited_method (audited_withActor fun actor => audited_ite ?_ (.of_uses Program.uses_pure))
  refine audited_decodeJSON fun body => audited_withLimit ?_
  refine audited_withSome (.of_uses plain_prepare) fun prepared =>
    audited_ite ?_ (.of_uses Program.uses_pure)
  refine audited_bind (settles_perform fun _ => rfl) fun now =>
    audited_withOk (.of_uses plain_preflightEmailDelivery) fun _ => ?_
  exact .of_uses (plain_sendCreatedEmail.bind fun _ => Program.uses_pure)

/-- A revocation is recorded whether the link was there or not. -/
theorem settles_revoke {id : UUID} {actorID ipHash : Text} {requestID : ByteString} :
    Settles (revoke id actorID ipHash requestID) := by
  intro calls hcalls
  have hrevoke : (revokeLink id).Meets trailContract (fun calls _ =>
      ∀ record : AuditEventRecord, record.type = "secret.revoked".toList →
        record.deliveryID = some id → Due record calls) calls := by
    refine meets_call trivial fun revoked _ => ?_
    match revoked with
    | none =>
      intro _ _ _
      refine (hcalls.unchanged ?_).due
      rintro _ ⟨⟩
    | some true => exact fun _ htype hlink => (hcalls.changed rfl ⟨List.mem_singleton.mpr htype, hlink⟩).1
    | some false =>
      have hcalls : Settled (calls ++ [⟨.revoke id, some false⟩]) := by
        refine hcalls.unchanged ?_
        rintro _ ⟨⟩
        rfl
      have hstatus : Settles (perform (.revokeStatus id)) := settles_perform fun _ => rfl
      exact (hstatus _ hcalls).mono fun _ _ h _ _ _ => h.due
  have hother : "secret.revoked".toList ∉ changeTypes := by decide
  refine hrevoke.bind fun calls result hdue => ?_
  exact (meets_record (hdue _ rfl rfl) fun hchange => absurd hchange hother).bind fun _ _ h => h

/-- What a change of the protection of a link asks for. -/
theorem demand_protect {id : UUID} {hash : Text} {result : Delivery.ProtectionUpdateResult}
    (hupdated : result.updated = true) :
    Op.demand (.updatePasswordProtection id (some hash)) result =
      some ⟨[if result.wasProtected then "secret.password_replaced".toList
        else "secret.password_set".toList], some id⟩ :=
  if_pos ⟨hupdated, .inl rfl⟩

theorem demand_unprotect {id : UUID} {result : Delivery.ProtectionUpdateResult}
    (hupdated : result.updated = true) (hprotected : result.wasProtected = true) :
    Op.demand (.updatePasswordProtection id none) result =
      some ⟨["secret.password_removed".toList], some id⟩ :=
  if_pos ⟨hupdated, .inr hprotected⟩

theorem demand_unprotected {id : UUID} {hash : Option Text} {result : Delivery.ProtectionUpdateResult}
    (h : ¬(result.updated = true ∧ (hash.isSome = true ∨ result.wasProtected = true))) :
    Op.demand (.updatePasswordProtection id hash) result = none :=
  if_neg h

theorem settles_setPasswordProtection {id : UUID} {password actorID ipHash : Text}
    {requestID : ByteString} : Settles (setPasswordProtection id password actorID ipHash requestID) := by
  unfold setPasswordProtection
  split_ifs
  · exact .of_uses Program.uses_pure
  · intro calls hcalls
    refine meets_call trivial fun hash _ => ?_
    have hcalls : Settled (calls ++ [⟨.hashPassword password, hash⟩]) := hcalls.plain fun _ => rfl
    cases hash with
    | none => exact hcalls
    | some hash =>
        refine meets_call trivial fun result _ => ?_
        cases result with
        | none =>
            refine hcalls.unchanged ?_
            rintro _ ⟨⟩
        | some result =>
            dsimp only
            by_cases hupdated : result.updated = true
            · rw [if_pos hupdated]
              exact (meets_recordAudit (hcalls.changed (demand_protect hupdated)
                ⟨List.mem_cons_self, rfl⟩)).bind fun _ _ h => h
            · rw [if_neg hupdated]
              refine hcalls.unchanged ?_
              rintro _ ⟨⟩
              exact demand_unprotected fun h => hupdated h.1

theorem settles_removePasswordProtection {id : UUID} {actorID ipHash : Text} {requestID : ByteString} :
    Settles (removePasswordProtection id actorID ipHash requestID) := by
  intro calls hcalls
  refine meets_call trivial fun result _ => ?_
  cases result with
  | none =>
      refine hcalls.unchanged ?_
      rintro _ ⟨⟩
  | some result =>
      dsimp only
      split_ifs with hupdated hprotected
      · exact (meets_recordAudit (hcalls.changed (demand_unprotect hupdated hprotected)
          ⟨List.mem_cons_self, rfl⟩)).bind fun _ _ h => h
      · refine hcalls.unchanged ?_
        rintro _ ⟨⟩
        exact demand_unprotected fun h => h.2.elim (fun hsome => by cases hsome) hprotected
      · refine hcalls.unchanged ?_
        rintro _ ⟨⟩
        exact demand_unprotected fun h => hupdated h.1

theorem audited_handleSecretLinkByID : Audited (handleSecretLinkByID srv r) := by
  have hmetadata : ∀ id, ∀ next : Delivery.Row → Prog Response, (∀ row, Audited (next row)) →
      Audited (withMetadata id next) := by
    intro id next h
    refine audited_withSome (settles_perform fun _ => rfl) fun row => ?_
    cases row with
    | none => exact .of_uses Program.uses_pure
    | some row => exact h row
  unfold handleSecretLinkByID
  split_ifs
  · exact .of_uses Program.uses_pure
  · refine audited_withIDPath fun id action => ?_
    split_ifs
    · exact audited_withActor fun _ => hmetadata id _ fun _ => .of_uses Program.uses_pure
    · exact audited_withActor fun _ =>
        audited_withSome settles_revoke fun _ => .of_uses Program.uses_pure
    · refine audited_withActor fun actor => hmetadata id _ fun row =>
        audited_ite ?_ (.of_uses Program.uses_pure)
      unfold changeProtection
      dsimp only
      split_ifs
      · exact audited_decodeJSON fun _ =>
          audited_withOk settles_setPasswordProtection fun _ => .of_uses Program.uses_pure
      · exact audited_withOk settles_removePasswordProtection fun _ => .of_uses Program.uses_pure
    · exact .of_uses Program.uses_pure

/-! ### Recipients -/

theorem audited_handleRecipientPage : Audited (handleRecipientPage r) :=
  audited_method (.of_uses (plain_currentPublicSettings.bind fun _ => Program.uses_pure))

theorem audited_handlePrepare : Audited (handlePrepare srv r) :=
  audited_method (audited_withLimit (audited_decodeJSON fun _ =>
    audited_withSome (.of_uses plain_prepare) fun _ => .of_uses Program.uses_pure))

theorem settles_failPassword {tokenHash : Delivery.Bytes} {hash : Text} :
    Settles (failPassword tokenHash hash) := by
  intro calls hcalls
  refine meets_call trivial fun failure _ => ?_
  cases failure with
  | none =>
      refine hcalls.unchanged ?_
      rintro _ ⟨⟩
  | some failure =>
      dsimp only
      by_cases hupdated : failure.updated = true
      · have hdemand : Op.demand (.recordPasswordFailure tokenHash hash) failure =
            some ⟨["secret.password_failed".toList], some failure.id⟩ := if_pos hupdated
        rw [if_pos hupdated]
        refine (meets_recordAudit (hcalls.changed hdemand ⟨List.mem_cons_self, rfl⟩)).bind
          fun _ _ hcalls => ?_
        split_ifs <;> exact hcalls
      · have hdemand : Op.demand (.recordPasswordFailure tokenHash hash) failure = none :=
          if_neg hupdated
        rw [if_neg hupdated]
        refine hcalls.unchanged ?_
        rintro _ ⟨⟩
        exact hdemand

/-- A reveal is recorded, unless its payload turns out to be invalid. -/
theorem consumeLease_meets {tokenHash : Delivery.Bytes} {passwordHash : Option Text}
    (hcalls : Settled calls) : (consumeLease tokenHash passwordHash).Meets trailContract
      (fun calls result => (∃ e, result = .error e ∧ e.kind = .internal) ∨ Settled calls) calls := by
  refine meets_call trivial fun leaseID _ => ?_
  have hcalls : Settled (calls ++ [⟨.newLeaseID, leaseID⟩]) := hcalls.plain fun _ => rfl
  cases leaseID with
  | none => exact .inr hcalls
  | some leaseID =>
      refine meets_call trivial fun begun _ => ?_
      have hcalls : Settled (calls ++ [⟨.newLeaseID, some leaseID⟩] ++
          [⟨.beginConsume tokenHash passwordHash leaseID, begun⟩]) := hcalls.plain fun _ => rfl
      match begun with
      | none => exact .inr hcalls
      | some none => exact .inr hcalls
      | some (some item) =>
        refine meets_call trivial fun plaintext _ => ?_
        have hcalls : Settled (calls ++ [⟨.newLeaseID, some leaseID⟩] ++
            [⟨.beginConsume tokenHash passwordHash leaseID, some (some item)⟩] ++
            [⟨.vaultDecrypt item.encryptedPayload, plaintext⟩]) := hcalls.plain fun _ => rfl
        cases plaintext with
        | none =>
            refine meets_call trivial fun restored _ => .inr ?_
            exact hcalls.plain fun _ => rfl
        | some plaintext =>
            refine meets_call trivial fun completed _ => ?_
            match completed with
            | none =>
              refine .inr (hcalls.unchanged ?_)
              rintro _ ⟨⟩
            | some false =>
              refine .inr (hcalls.unchanged ?_)
              rintro _ ⟨⟩
              rfl
            | some true =>
              dsimp only
              split
              · exact .inl ⟨_, rfl, rfl⟩
              · exact (meets_recordAudit (hcalls.changed rfl ⟨List.mem_cons_self, rfl⟩)).bind
                  fun _ _ => .inr

theorem audited_handleConsume : Audited (handleConsume srv r) := by
  refine audited_method (audited_decodeJSON fun body => audited_withLimit fun calls hcalls => ?_)
  have hconsume : (consume srv body.1 body.2).Meets trailContract
      (fun calls result => (∃ e, result = .error e ∧ e.kind = .internal) ∨ Settled calls) calls := by
    unfold consume
    split
    · exact .inr hcalls
    · next tokenHash _ =>
      refine meets_call trivial fun found _ => ?_
      have hcalls : Settled (calls ++ [⟨.findConsumeCandidate tokenHash, found⟩]) :=
        hcalls.plain fun _ => rfl
      match found with
      | none => exact .inr hcalls
      | some none => exact .inr hcalls
      | some (some item) =>
        dsimp only
        split
        · exact consumeLease_meets hcalls
        · split_ifs
          · exact consumeLease_meets hcalls
          · exact (settles_failPassword _ hcalls).mono fun _ _ => .inr
  refine meets_withOk hconsume ?_ ?_
  · rintro calls e (⟨_, ⟨⟩, hkind⟩ | hcalls)
    · refine .inl ?_
      unfold writeDeliveryError
      rw [hkind]
      rfl
    · exact .inr hcalls
  · rintro calls response (⟨_, ⟨⟩, _⟩ | hcalls)
    exact .inr hcalls

/-! ### All routes -/

theorem Mediated.audited {p : Prog Response} (h : Mediated srv r Showing p) : Audited p := by
  have hplain : ∀ op : Op, op.Shows → op.Plain := by
    intro op hop
    cases op <;> first | exact fun _ => rfl | exact hop.elim
  exact (Settles.of_meets h fun _ op hop => hplain op hop.2).audited

theorem serve_audited : Audited (serve srv r) := by
  apply serve_of_routes
  · exact .of_uses Program.uses_pure
  have hmetrics : ∀ route ∈ if srv.settings.metricsEnabled then
      [⟨"/metrics".toList, pure .file⟩] else ([] : List Route), Audited route.handler := by
    split_ifs <;> simp [Audited.of_uses]
  rw [routes, List.forall_mem_append]
  refine ⟨?_, fun route hroute _ => hmetrics route hroute⟩
  simp only [List.forall_mem_cons]
  refine ⟨fun _ => .of_uses Program.uses_pure, fun _ => .of_uses Program.uses_pure,
    fun _ => mediated_handleRoot.audited, fun _ => mediated_handleDocsPage.audited,
    fun _ => mediated_handleOpenAPISpec.audited, fun _ => mediated_handleLoginPage.audited,
    fun _ => audited_handleBrowserLogout, fun _ => mediated_handleAdmin.audited,
    fun _ => mediated_handleSecretListPage.audited, fun _ => mediated_formPage.audited,
    fun _ => mediated_handleSecretPage.audited, fun _ => mediated_handleStatusPage.audited,
    fun _ => mediated_handleStatusPage.audited, fun _ => mediated_formPage.audited,
    fun _ => mediated_handleUsersPage.audited, fun _ => mediated_formPage.audited,
    fun _ => mediated_handleUserDetailPage.audited, fun _ => mediated_handleAccountPage.audited,
    fun _ => mediated_handleEmailSettingsPage.audited,
    fun _ => mediated_handlePublicExperiencePage.audited,
    fun _ => mediated_handlePublicExperiencePreview.audited,
    fun _ => mediated_handleAPIClientsPage.audited, fun _ => mediated_formPage.audited,
    fun _ => mediated_handleAPIClientDetailPage.audited,
    fun _ => audited_handleRecipientPage, fun _ => mediated_handleErrorPage.audited,
    fun _ => audited_handleLogin, fun _ => audited_handleLogout,
    fun _ => audited_method (audited_withSession fun _ => .of_uses Program.uses_pure),
    fun _ => audited_handleThemePreference, fun _ => audited_handleChangePassword,
    fun _ => audited_handleMySessions, fun _ => audited_handleRevokeOtherSessions,
    fun _ => audited_handleDashboardAPI, fun _ => audited_handleManualCleanup,
    fun _ => audited_handleEmailSettingsAPI, fun _ => audited_handleEmailSettingsActionAPI,
    fun _ => audited_handlePublicExperienceAPI, fun _ => audited_handleUsersAPI,
    fun _ => audited_handleUserAPI, fun _ => audited_handleAPIClientsAPI,
    fun _ => audited_handleAPIClientAPI, fun _ => audited_handleSecretLinks,
    fun _ => audited_handleSecretLinkSendEmail, fun _ => audited_handleSecretLinkByID,
    fun _ => audited_handlePrepare, fun _ => audited_handleConsume,
    fun _ => .of_uses Program.uses_pure, fun _ => audited_handleReady,
    fun _ => audited_method (.of_uses Program.uses_pure), fun _ h => absurd h List.not_mem_nil⟩

end

section
variable {srv : Server} {r : Request} {rely : Store → Store → Prop} {s : Store}

theorem truthful_of_run {pre post : List (Event Store Op Op.Answer)} {e : Event Store Op Op.Answer}
    (hrun : Program.Run (act srv) rely s (serve srv r) (pre ++ e :: post)) :
    Truthful (pre.map Event.call) e.op := by
  have hsettled : Settled ([] : Calls) := fun _ h => absurd h List.not_mem_nil
  have hallowed := (serve_audited [] hsettled).allowed possible_of_act hrun
  rwa [trailContract, Contract.learnt_ofCalls, List.nil_append] at hallowed

theorem settled_of_ends {events : List (Event Store Op Op.Answer)} {response : Response}
    (hends : Program.Ends (act srv) rely s (serve srv r) events response)
    (hresponse : response.status ≠ 500) : Settled (events.map Event.call) := by
  have hsettled : Settled ([] : Calls) := fun _ h => absurd h List.not_mem_nil
  have hfinal := (serve_audited [] hsettled).ends possible_of_act hends
  rw [trailContract, Contract.learnt_ofCalls, List.nil_append] at hfinal
  exact hfinal.resolve_left hresponse

end

/-- Ends the other sessions of the sample user. -/
def sampleRevokeRequest : Request :=
  { signedIn Auth.sampleID .post with path := "/api/v1/me/sessions/revoke-other".toList }

def sampleRevokeRun : List (Event Store Op Op.Answer) :=
  Program.execute (act sampleServer) sampleSession
    (handleRevokeOtherSessions sampleServer sampleRevokeRequest)
    [sampleHandlerInputs, sampleHandlerInputs, sampleHandlerInputs]

def sampleRevokeRecord : AuditEventRecord :=
  requestRecord sampleServer sampleRevokeRequest Auth.sampleUser.username "session.revoked".toList
    "other_sessions".toList

theorem length_sampleRevokeRun : 2 < sampleRevokeRun.length := by decide +kernel

theorem serve_sampleRevoke : serve sampleServer sampleRevokeRequest =
    handleRevokeOtherSessions sampleServer sampleRevokeRequest := by rfl

end SecureShare.Handlers
