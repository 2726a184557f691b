import SecureShare.Delivery.StateMachine
import SecureShare.Handlers.Answers
import SecureShare.Handlers.AuditTrail
import SecureShare.Library.Pool

/-!
# The running server

All requests of a server share its store, and between two operations of one the others go on.
Whatever has happened in this system, a secret was shown once, and only for a lease that its request
completed.
-/
namespace SecureShare.Handlers
open Go Library Library.Transition Library.Interleaving Http
open Delivery (UUID ConsumeCandidate ConsumeResponse)

/-- The server with its requests. -/
def running (srv : Server) :
    System Store (Task Request Store Op Op.Answer Response) Request Inputs :=
  pool (serve srv) (act srv)

/-- The requests of a server, and the store. -/
abbrev Requests := State Store (Task Request Store Op Op.Answer Response)

/-- The secret of this link has been consumed. -/
def Consumed (id : UUID) (links : Delivery.Table) : Prop := HasRow (fun row => row.status = .consumed) id links

section
variable {srv : Server} {x : Inputs} {s₀ s : Store} {t : Requests} {id : UUID} {op : Op} {α : Type}

/-! ### Links that are consumed -/

theorem consumed_iff {links : Delivery.Table} :
    Consumed id links ↔ (links.find id).map Delivery.Row.status = some .consumed :=
  Option.map_eq_some_iff.symm

theorem kept_consumed : Kept fun row => row.status = .consumed := by
  intro now statement row h
  obtain ⟨payload, updated, _, heq⟩ :=
    Delivery.exec_absorbed (by rw [h]; rfl : row.status.terminal = true) now statement
  rw [heq]
  exact h

theorem act_consumed (h : Consumed id s.links) : Consumed id (act srv x s op).1.links :=
  HasRow.act h kept_consumed

/-- The lease that was completed has consumed the link. -/
theorem consumed_of_complete {leaseID : UUID} (h : (act srv x s (.completeConsume id leaseID)).2 = some true) :
    ¬Consumed id s.links ∧ Consumed id (act srv x s (.completeConsume id leaseID)).1.links := by
  obtain ⟨hlinks, hresult⟩ := answer_of_onLinks h
  have hguard : ∀ row : Delivery.Row, (Delivery.Statement.completeConsume id leaseID).Guard
      x.databaseNow row → row.id = id := fun _ h => h.1
  have hone : s.links.rowsAffected x.databaseNow (.completeConsume id leaseID) = 1 :=
    of_decide_eq_true hresult.symm
  obtain ⟨row, hfind, hrow⟩ := (Delivery.Table.rowsAffected_eq_one hguard).mp hone
  constructor
  · rintro ⟨row', hfind', hconsumed⟩
    obtain rfl := Option.some.inj (hfind.symm.trans hfind')
    exact nomatch hrow.2.1.symm.trans hconsumed
  · refine hlinks.symm ▸ ?_
    refine ⟨_, (Delivery.Table.find_exec _ _ _ id).trans (congrArg (Option.map _) hfind), ?_⟩
    rw [Delivery.Statement.exec_of_guard hrow]
    rfl

/-- Only the completion of a lease consumes a row. -/
theorem statement_of_consumed {now : ℤ} {statement : Delivery.Statement} {row : Delivery.Row}
    (h : (statement.exec now row).status = .consumed) :
    row.status = .consumed ∨ ∃ leaseID, statement = .completeConsume row.id leaseID := by
  unfold Delivery.Statement.exec at h
  split_ifs at h with hguard
  · cases statement with
    | completeConsume id leaseID => exact .inr ⟨leaseID, by rw [hguard.1]⟩
    | recordPasswordFailure tokenHash hash leaseSeconds =>
        have hset : (if row.LastAttempt then Delivery.Status.revoked else .active) = .consumed := h
        split_ifs at hset
    | blankRetained | updatePasswordProtection => exact .inl h
    | _ => cases h
  · exact .inl h

theorem consumed_of_exec {now : ℤ} {statement : Delivery.Statement} {links : Delivery.Table}
    (h : Consumed id (links.exec now statement)) :
    Consumed id links ∨ ∃ leaseID, statement = .completeConsume id leaseID := by
  obtain ⟨row, hfind, hrow⟩ := h
  rw [Delivery.Table.find_exec] at hfind
  obtain ⟨old, hold, rfl⟩ := Option.map_eq_some_iff.mp hfind
  refine (statement_of_consumed hrow).imp (fun hold' => ⟨old, hold, hold'⟩) ?_
  rintro ⟨leaseID, rfl⟩
  exact ⟨leaseID, by rw [Delivery.Table.find_id hold]⟩

theorem consumed_of_onLinks {now : ℤ} {statement : Delivery.Statement} {a : α}
    (h : Consumed id (onLinks x s (s.links.exec now statement, a)).1.links) :
    Consumed id s.links ∨ ∃ leaseID, statement = .completeConsume id leaseID := by
  refine apply_cases (P := fun t => Consumed id t.links → Consumed id s.links ∨
    ∃ leaseID, statement = .completeConsume id leaseID) .inl ?_ h
  rintro _ ⟨⟩
  exact consumed_of_exec

/-- What consumes a link is the completion of a lease of it. -/
theorem op_of_consumed (hbefore : ¬Consumed id s.links) (hafter : Consumed id (act srv x s op).1.links) :
    ∃ leaseID, op = .completeConsume id leaseID := by
  by_cases hop : op.part = some .links
  · cases op with
    | insert params =>
        refine absurd ?_ hbefore
        refine apply_cases (P := fun t => Consumed id t.links → Consumed id s.links) (fun h => h) ?_ hafter
        rintro y hy ⟨row, hfind, hrow⟩
        obtain ⟨links, hinsert, rfl⟩ := Option.map_eq_some_iff.mp hy
        rw [Delivery.Table.find_insert hinsert] at hfind
        split_ifs at hfind
        · obtain rfl := Option.some.inj hfind
          cases hrow
        · exact ⟨row, hfind, hrow⟩
    | cleanup =>
        refine absurd ?_ hbefore
        refine apply_cases (P := fun t => Consumed id t.links → Consumed id s.links) (fun h => h) ?_ hafter
        rintro _ ⟨⟩ h
        have hother : ∀ {now links} {statement : Delivery.Statement},
            (∀ leaseID, statement ≠ .completeConsume id leaseID) →
            Consumed id (Delivery.Table.exec now statement links) → Consumed id links :=
          fun hne h => (consumed_of_exec h).resolve_right fun ⟨leaseID, heq⟩ => hne leaseID heq
        exact hother (fun _ => Delivery.Statement.noConfusion) (hother (fun _ => Delivery.Statement.noConfusion)
          (hother (fun _ => Delivery.Statement.noConfusion) h))
    | completeConsume other leaseID =>
        obtain ⟨leaseID', heq⟩ := (consumed_of_onLinks hafter).resolve_left hbefore
        obtain ⟨rfl, rfl⟩ := Delivery.Statement.completeConsume.inj heq
        exact ⟨leaseID, rfl⟩
    | revoke | updatePasswordProtection | recordPasswordFailure | beginConsume | restoreConsume =>
        obtain ⟨leaseID, heq⟩ := (consumed_of_onLinks hafter).resolve_left hbefore
        cases heq
    | _ => cases hop
  · have hsame : (act srv x s op).1.links = s.links := (act_part hop : Part.Same .links s _)
    rw [hsame] at hafter
    exact absurd hafter hbefore

/-! ### Rows of the audit table -/

/-- Other statements leave the audit rows alone. -/
theorem apply_audit {result : Option (Store × α)} (h : ∀ y ∈ result, y.1.audit = s.audit) :
    (x.reply.apply s result).1.audit = s.audit :=
  apply_cases (P := fun t => t.audit = s.audit) rfl h

theorem onAuth_audit (result : Option (Auth.AuthStore × α)) :
    (onAuth x s result).1.audit = s.audit := by
  refine apply_audit fun y hy => ?_
  obtain ⟨_, _, rfl⟩ := Option.map_eq_some_iff.mp hy
  rfl

theorem onClients_audit (result : Option (Auth.ClientTable × α)) :
    (onClients x s result).1.audit = s.audit := by
  refine apply_audit fun y hy => ?_
  obtain ⟨_, _, rfl⟩ := Option.map_eq_some_iff.mp hy
  rfl

theorem onLinks_audit (result : Delivery.Table × α) : (onLinks x s result).1.audit = s.audit := by
  refine apply_audit ?_
  rintro _ ⟨⟩
  rfl

theorem act_audit (hrecord : ∀ record, op ≠ .recordAuditEvent record) (hcleanup : op ≠ .cleanup) :
    (act srv x s op).1.audit = s.audit := by
  cases op with
  | sessionByHash | createSession | revokeSession | revokeOtherSessions | createUser | updateUser
  | setPassword | setThemePreference | touchLastLogin => exact onAuth_audit _
  | touchAPIClient | setAPIClientStatus => exact onClients_audit _
  | createAPIClient | rotateAPIClientSecret =>
      unfold act
      dsimp only
      split
      · exact onClients_audit _
      · rfl
  | revoke | updatePasswordProtection | recordPasswordFailure | beginConsume | restoreConsume
  | completeConsume => exact onLinks_audit _
  | query | userForLogin | userByID | apiClientByClientID | apiClientByID | metadata | revokeStatus
  | prepare | findConsumeCandidate | getEmailSettings | getPublicSettings =>
      exact congrArg Store.audit (reads_store _)
  | insert params =>
      refine apply_audit fun y hy => ?_
      obtain ⟨_, _, rfl⟩ := Option.map_eq_some_iff.mp hy
      rfl
  | saveEmailSettings | savePublicSettings =>
      refine apply_audit ?_
      rintro _ ⟨⟩
      rfl
  | now | allow | insertParams | hashPassword | newLeaseID | vaultDecrypt | vaultEncrypt | smtp => rfl
  | cleanup => exact absurd rfl hcleanup
  | recordAuditEvent record => exact absurd rfl (hrecord record)

/-- A new row is that of the record that was to be stored. -/
theorem record_of_act {row : AuditEvent} (hrow : row ∈ (act srv x s op).1.audit)
    (hnew : row ∉ s.audit) :
    ∃ record, op = .recordAuditEvent record ∧ record.row x.databaseNow = some row := by
  by_contra hother
  by_cases hcleanup : op = .cleanup
  · subst hcleanup
    refine hnew (apply_cases (P := fun t => row ∈ t.audit → row ∈ s.audit) (fun h => h) ?_ hrow)
    rintro _ ⟨⟩ h
    exact (List.mem_filter.mp h).1
  · by_cases hrecord : ∃ record, op = .recordAuditEvent record
    · obtain ⟨record, rfl⟩ := hrecord
      refine hother ⟨record, rfl, apply_cases (P := fun t => row ∈ t.audit →
        record.row x.databaseNow = some row) (fun h => absurd h hnew) (fun y hy h => ?_) hrow⟩
      obtain ⟨stored, hstored, rfl⟩ := Option.map_eq_some_iff.mp hy
      obtain ⟨new, hnewRow, heq⟩ := recordAuditEvent_eq (Option.isSome_iff_exists.mpr ⟨_, hstored⟩)
      obtain rfl := Option.some.inj (hstored.symm.trans heq)
      rcases List.mem_cons.mp h with rfl | h
      · exact hnewRow
      · exact absurd h hnew
    · exact hnew (act_audit (fun record h => hrecord ⟨record, h⟩) hcleanup ▸ hrow)

theorem row_of_record {record : AuditEventRecord} {row : AuditEvent} {now : ℤ}
    (h : record.row now = some row) :
    row.eventType = record.type ∧ row.deliveryID = record.deliveryID := by
  have htype : record.type ∈ auditEventTypes := by
    by_contra hother
    rw [AuditEventRecord.row, if_neg hother] at h
    cases h
  rw [AuditEventRecord.row, if_pos htype, varchar_type htype] at h
  simp only [Option.bind_eq_bind, Option.bind_some, Option.bind_eq_some_iff] at h
  obtain ⟨_, _, _, _, _, _, _, _, heq⟩ := h
  obtain rfl := Option.some.inj heq
  exact ⟨rfl, rfl⟩

/-- The change that a record of a reveal answers for. -/
theorem demand_consumed {a : op.Answer} {d : Demand} (hd : op.demand a = some d)
    (htype : "secret.consumed".toList ∈ d.types) : ∃ id leaseID,
      (⟨op, some a⟩ : Call Op Op.Answer) = ⟨.completeConsume id leaseID, some true⟩ ∧ d.link = some id := by
  cases op with
  | completeConsume id leaseID =>
      cases a with
      | false => cases hd
      | true =>
          cases hd
          exact ⟨id, leaseID, rfl, rfl⟩
  | setAPIClientStatus id status =>
      cases hd
      cases status <;> simp at htype
  | revoke id =>
      obtain ⟨_, ⟨⟩⟩ := Option.ite_none_right_eq_some.mp hd
      simp at htype
  | updatePasswordProtection id hash =>
      obtain ⟨_, ⟨⟩⟩ := Option.ite_none_right_eq_some.mp hd
      split_ifs at htype <;> simp at htype
  | recordPasswordFailure tokenHash hash =>
      obtain ⟨_, ⟨⟩⟩ := Option.ite_none_right_eq_some.mp hd
      simp at htype
  | _ => cases hd <;> simp at htype

/-! ### All requests -/

section
variable {i j m n : ℕ} {task : Task Request Store Op Op.Answer Response}
  {e e' : Event Store Op Op.Answer} {response : Response}

theorem develops_any : Develops (act srv) fun _ _ => True where
  refl _ := trivial
  trans _ _ _ _ _ := trivial
  act _ _ _ := trivial

theorem run_of_running (h : Reachable (running srv).step ⟨s₀, []⟩ t)
    (htask : t.calls[i]? = some task) : ∃ s,
    Program.Run (act srv) (fun _ _ => True) s (serve srv task.request) task.events := by
  obtain ⟨s, _, hreaches⟩ := reaches_of_reachable develops_any h htask
  exact ⟨s, hreaches.run⟩

theorem ends_of_running (h : Reachable (running srv).step ⟨s₀, []⟩ t)
    (htask : t.calls[i]? = some task) (hanswer : task.rest = .pure response) : ∃ s,
    Program.Ends (act srv) (fun _ _ => True) s (serve srv task.request) task.events response := by
  obtain ⟨s, _, hreaches⟩ := reaches_of_reachable develops_any h htask
  exact ⟨s, hreaches.ends hanswer⟩

theorem happened_of_call {call : Call Op Op.Answer} (htask : t.calls[i]? = some task)
    (h : call ∈ task.events.map Event.call) : ∃ n e, Happened t i n e ∧ e.call = call := by
  obtain ⟨e, he, rfl⟩ := List.mem_map.mp h
  obtain ⟨n, hn⟩ := List.getElem?_of_mem he
  exact ⟨n, e, ⟨task, htask, hn⟩, rfl⟩

/-- A lease that was completed has consumed its link. -/
theorem consumed_of_happened (h : Reachable (running srv).step ⟨s₀, []⟩ t) (he : Happened t i n e)
    {leaseID : UUID} (hcall : e.call = ⟨.completeConsume id leaseID, some true⟩) :
    ¬Consumed id e.before.links ∧ Consumed id e.after.links := by
  obtain ⟨x, hact⟩ := act_of_happened h he
  obtain ⟨before, op, answer, after⟩ := e
  obtain ⟨rfl, hanswer⟩ := Call.mk.inj hcall
  obtain rfl := eq_of_heq hanswer
  have hact : act srv x before (.completeConsume id leaseID) = (after, some true) := hact
  have hcomplete := consumed_of_complete (congrArg Prod.snd hact)
  rwa [hact] at hcomplete

/-- A link whose lease was completed stays consumed. -/
theorem consumed_since (h : Reachable (running srv).step ⟨s₀, []⟩ t) (he : Happened t i n e)
    {leaseID : UUID} (hcall : e.call = ⟨.completeConsume id leaseID, some true⟩) :
    Consumed id t.store.links :=
  since_of_happened (.of_stable (D := fun s => Consumed id s.links) fun _ _ _ => act_consumed) h he
    (consumed_of_happened h he hcall).2

/-- Links are consumed once. -/
theorem consumed_once (h : Reachable (running srv).step ⟨s₀, []⟩ t) (he : Happened t i n e)
    (hconsumed : ¬Consumed id e.before.links ∧ Consumed id e.after.links)
    (he' : Happened t j m e') {leaseID : UUID}
    (hcall : e'.call = ⟨.completeConsume id leaseID, some true⟩) : j = i ∧ m = n := by
  obtain ⟨hbefore, hafter⟩ := consumed_of_happened h he' hcall
  exact once_of_happened (D := fun s => Consumed id s.links) (fun _ _ _ => act_consumed) h he' he
    hbefore hafter hconsumed.1 hconsumed.2

/-- The request that stores the record of a change has made the change before. -/
theorem truthful_of_happened (h : Reachable (running srv).step ⟨s₀, []⟩ t) (he : Happened t i n e)
    {record : AuditEventRecord} (hop : e.op = .recordAuditEvent record)
    (htype : record.type ∈ changeTypes) : ∃ m < n, ∃ change a d, Happened t i m change ∧
      change.answer = some a ∧ change.op.demand a = some d ∧ d.Met record := by
  obtain ⟨task, htask, pre, post, hsplit, hpre⟩ := split_of_happened he
  obtain ⟨s, hrun⟩ := run_of_running h htask
  rw [hsplit] at hrun
  have htruthful := truthful_of_run hrun
  rw [hop] at htruthful
  obtain ⟨call, hcall, a, d, hanswer, hd, hmet⟩ := htruthful htype
  obtain ⟨change, hchange, rfl⟩ := List.mem_map.mp hcall
  obtain ⟨m, hmn, hhappened⟩ := hpre change hchange
  exact ⟨m, hmn, change, a, d, hhappened, hanswer, hd, hmet⟩

/-- Whatever is answered to a request, in any state of the server: the data that the answer shows
were answered to calls of that request. -/
theorem answers_earned (h : Reachable (running srv).step ⟨s₀, []⟩ t)
    (htask : t.calls[i]? = some task) (hanswer : task.rest = .pure response) :
    response.Earned srv task.request (task.events.map Event.call) := by
  obtain ⟨s, hends⟩ := ends_of_running h htask hanswer
  exact earned_of_ends hends

/-- The store with the sample link. -/
def sampleLinked : Store :=
  (act sampleServer sampleHandlerInputs sampleStore (.insert Delivery.sampleParams)).1

/-- Opens the sample link. -/
def sampleConsumeRequest : Request :=
  { signedIn [] .post with
    path := "/api/v1/secret-links/consume".toList
    decode := fun kind => match kind with
      | .consume => .ok (['t'], [])
      | _ => .error .mediaType }

/-- Two requests take turns to open the link, each with a lease of its own. -/
def sampleRace : List (Action Request Inputs) :=
  [.spawn sampleConsumeRequest, .spawn sampleConsumeRequest] ++
    [0, 0, 1, 1, 1, 0, 0, 1, 0, 0, 0].map fun i =>
      .advance i { sampleHandlerInputs with id := some (BitVec.ofNat 128 i) }

/-- What the request number `i` shows of a secret. -/
def shownBy (t : Requests) (i : ℕ) : Option ConsumeResponse :=
  t.calls[i]?.bind fun task => match task.rest with
    | .pure (.json _ (.consumed shown)) => some shown
    | _ => none

theorem rest_of_shownBy (h : (shownBy t i).isSome) :
    ∃ task status shown, t.calls[i]? = some task ∧ task.rest = .pure (.json status (.consumed shown)) := by
  obtain ⟨shown, hshown⟩ := Option.isSome_iff_exists.mp h
  obtain ⟨task, htask, hshown⟩ := Option.bind_eq_some_iff.mp hshown
  split at hshown
  · rename_i status shown' hrest
    exact ⟨task, _, _, htask, hrest⟩
  · cases hshown

theorem sampleRace_shown : (run (running sampleServer).step ⟨sampleLinked, []⟩ sampleRace).map
    (fun t => ((shownBy t 0).isSome, (shownBy t 1).isSome)) = some (true, false) := by
  decide +kernel

theorem answers_earned_sample : ∃ t task status shown,
    Reachable (running sampleServer).step ⟨sampleLinked, []⟩ t ∧ t.calls[0]? = some task ∧
    task.rest = .pure (.json status (.consumed shown)) ∧
    Response.Earned sampleServer task.request (task.events.map Event.call)
      (.json status (.consumed shown)) := by
  obtain ⟨t, ht, hshown⟩ := Reachable.of_map sampleRace_shown
  obtain ⟨task, status, shown, htask, hrest⟩ := rest_of_shownBy (congrArg Prod.fst hshown)
  exact ⟨t, task, status, shown, ht, htask, hrest, answers_earned ht htask hrest⟩

/-- Over all requests a secret is shown once: the request has leased the link with its token and
password, and completed the lease, as no other has done. -/
theorem revealed_once (h : Reachable (running srv).step ⟨s₀, []⟩ t)
    (htask : t.calls[i]? = some task) {status : ℕ} {shown : ConsumeResponse}
    (hanswer : task.rest = .pure (.json status (.consumed shown))) :
    ∃ item, Revealed srv task.request (task.events.map Event.call) item shown ∧
      Consumed item.id t.store.links ∧
      ∀ j other item' shown', t.calls[j]? = some other →
        Revealed srv other.request (other.events.map Event.call) item' shown' →
        item'.id = item.id → j = i := by
  obtain ⟨s, hends⟩ := ends_of_running h htask hanswer
  obtain ⟨item, hrevealed⟩ := earned_of_ends hends
  obtain ⟨_, _, _, leaseID, _, _, _, _, hcompleted⟩ := hrevealed.leased
  obtain ⟨n, e, he, hcall⟩ := happened_of_call htask hcompleted
  refine ⟨item, hrevealed, consumed_since h he hcall, ?_⟩
  intro j other item' shown' hother hrevealed' hid
  obtain ⟨_, _, _, leaseID', _, _, _, _, hcompleted'⟩ := hrevealed'.leased
  rw [hid] at hcompleted'
  obtain ⟨m, e', he', hcall'⟩ := happened_of_call hother hcompleted'
  exact (consumed_once h he (consumed_of_happened h he hcall) he' hcall').1

theorem revealed_once_sample : ∃ t task status shown,
    Reachable (running sampleServer).step ⟨sampleLinked, []⟩ t ∧ t.calls[0]? = some task ∧
    task.rest = .pure (.json status (.consumed shown)) ∧ shownBy t 1 = none ∧
    ∃ item, Revealed sampleServer task.request (task.events.map Event.call) item shown ∧
      Consumed item.id t.store.links := by
  obtain ⟨t, ht, hshown⟩ := Reachable.of_map sampleRace_shown
  obtain ⟨task, status, shown, htask, hrest⟩ := rest_of_shownBy (congrArg Prod.fst hshown)
  have hother : shownBy t 1 = none :=
    Option.isNone_iff_eq_none.mp (Option.isSome_eq_false_iff.mp (congrArg Prod.snd hshown))
  obtain ⟨item, hrevealed, hconsumed, _⟩ := revealed_once ht htask hrest
  exact ⟨t, task, status, shown, ht, htask, hrest, hother, item, hrevealed, hconsumed⟩

/-- A row of the audit table tells of a change that the request number `i` had made before. -/
def Tells (t : Requests) (row : AuditEvent) (i : ℕ) : Prop :=
  ∃ m n change e a d, Happened t i m change ∧ Happened t i n e ∧ m < n ∧ row ∉ e.before.audit ∧
    row ∈ e.after.audit ∧ change.answer = some a ∧ change.op.demand a = some d ∧
    row.eventType ∈ d.types ∧ row.deliveryID = d.link

/-- The operation that the request number `i` calls next. -/
def nextOp (t : Requests) (i : ℕ) : Option Op :=
  t.calls[i]?.bind fun task => match task.rest with
    | .call op _ => some op
    | .pure _ => none

theorem sampleRevoke_next : (run (running sampleServer).step ⟨sampleSession, []⟩
    [.spawn sampleRevokeRequest, .advance 0 sampleHandlerInputs, .advance 0 sampleHandlerInputs]).map
      (fun t => nextOp t 0) = some (some (.recordAuditEvent sampleRevokeRecord)) := by
  decide +kernel

/-- The next step of a request makes its next call. -/
theorem step_of_nextOp (srv : Server) (x : Inputs) (h : nextOp t i = some op) :
    ∃ t', (running srv).step t (.advance i x) = some t' ∧ t'.store = (act srv x t.store op).1 := by
  obtain ⟨task, htask, hop⟩ := Option.bind_eq_some_iff.mp h
  split at hop
  · rename_i op next hrest
    obtain rfl := Option.some.inj hop
    have hadvance : (running srv).advance x t.store task = some ((act srv x t.store op).1,
        ⟨task.request, next (act srv x t.store op).2, task.events ++
          [⟨t.store, op, (act srv x t.store op).2, (act srv x t.store op).1⟩]⟩) := by
      simp only [running, pool, hrest]
    exact ⟨_, System.step_advance htask hadvance, rfl⟩
  · cases hop

/-- Every link that was consumed is accounted for: one request has completed a lease of it, no other
lease of it was completed, and that request, if it was told so and has not answered with an internal
error, has recorded it. -/
theorem consumption_accounted (h : Reachable (running srv).step ⟨s₀, []⟩ t)
    (hnow : Consumed id t.store.links) (hstart : ¬Consumed id s₀.links) :
    ∃ i n e leaseID answer, Happened t i n e ∧ e.call = ⟨.completeConsume id leaseID, answer⟩ ∧
      (∀ j m e' leaseID', Happened t j m e' → e'.call = ⟨.completeConsume id leaseID', some true⟩ →
        j = i ∧ m = n) ∧
      ∀ task response, t.calls[i]? = some task → task.rest = .pure response → response.status ≠ 500 →
        answer = some true → ∃ m e' record, Happened t i m e' ∧ e'.op = .recordAuditEvent record ∧
          record.type = "secret.consumed".toList ∧ record.deliveryID = some id := by
  obtain ⟨i, n, e, he, hbefore, hafter⟩ :=
    origin_of_reachable (D := fun s => Consumed id s.links) h hstart hnow
  obtain ⟨x, hact⟩ := act_of_happened h he
  have hconsumed : Consumed id (act srv x e.before e.op).1.links := by rwa [hact]
  obtain ⟨leaseID, hop⟩ := op_of_consumed hbefore hconsumed
  obtain ⟨before, op, answer, after⟩ := e
  obtain rfl : op = .completeConsume id leaseID := hop
  refine ⟨i, n, _, leaseID, answer, he, rfl, fun j m e' leaseID' he' hcall =>
    consumed_once h he ⟨hbefore, hafter⟩ he' hcall, ?_⟩
  rintro task response htask hrest hresponse rfl
  obtain ⟨s, hends⟩ := ends_of_running h htask hrest
  have hcall : ⟨.completeConsume id leaseID, some true⟩ ∈ task.events.map Event.call := by
    obtain ⟨other, hother, hn⟩ := he
    obtain rfl := Option.some.inj (htask.symm.trans hother)
    exact List.mem_map_of_mem (List.mem_of_getElem? hn)
  have hsettled := settled_of_ends hends hresponse _ hcall true _ rfl rfl
  obtain ⟨record, recorded, hrecorded, hmet⟩ := hsettled.resolve_left fun hfalse => hfalse
  obtain ⟨m, e', he', hcall'⟩ := happened_of_call htask hrecorded
  exact ⟨m, e', record, he', congrArg Call.op hcall', List.mem_singleton.mp hmet.1, hmet.2⟩

theorem sampleRace_consumed :
    (run (running sampleServer).step ⟨sampleLinked, []⟩ (sampleRace.take 12)).map
      (fun t => (t.store.links.find Delivery.sampleParams.id).map Delivery.Row.status) =
      some (some .consumed) := by
  decide +kernel

theorem consumption_accounted_sample : ∃ t i n e leaseID answer,
    Reachable (running sampleServer).step ⟨sampleLinked, []⟩ t ∧
    Consumed Delivery.sampleParams.id t.store.links ∧ Happened t i n e ∧
    e.call = ⟨.completeConsume Delivery.sampleParams.id leaseID, answer⟩ := by
  obtain ⟨t, ht, hstatus⟩ := Reachable.of_map sampleRace_consumed
  have hconsumed : Consumed Delivery.sampleParams.id t.store.links := consumed_iff.mpr hstatus
  have hstart : ¬Consumed Delivery.sampleParams.id sampleLinked.links := by
    rw [consumed_iff]
    decide +kernel
  obtain ⟨i, n, e, leaseID, answer, he, hcall, _⟩ := consumption_accounted ht hconsumed hstart
  exact ⟨t, i, n, e, leaseID, answer, ht, hconsumed, he, hcall⟩

end

end

end SecureShare.Handlers
