import SecureShare.Handlers.Mediation

/-!
# Audit rows

Which records of a run the database stores. Their columns hold whatever the server writes of
itself, and links are never deleted, so that a record is lost only to the ID that the client
chose for its request, or to the name of a link that never was one.
-/
namespace SecureShare.Handlers
open Go Library Http
open Delivery (UUID)

/-- Links that exist go on to exist. -/
def LinksLast (s t : Store) : Prop := ∀ id, s.links.find id ≠ none → t.links.find id ≠ none

/-- The links that the calls show exist. -/
def LinksSeen (calls : Calls) (s : Store) : Prop := ∀ id, LinkSeen calls id → s.links.find id ≠ none

section
variable {srv : Server} {r : Request} {calls : Calls} {x : Inputs} {s t : Store} {id : UUID} {α : Type}

theorem find_exec_ne_none {now : ℤ} {statement : Delivery.Statement} {links : Delivery.Table}
    (h : links.find id ≠ none) : (links.exec now statement).find id ≠ none := by
  rw [Delivery.Table.find_exec]
  exact fun hnone => h (Option.map_eq_none_iff.mp hnone)

/-- There is a link with this ID and this property. -/
def HasRow (P : Delivery.Row → Prop) (id : UUID) (links : Delivery.Table) : Prop :=
  ∃ row, links.find id = some row ∧ P row

/-- What all statements keep of a row. -/
def Kept (P : Delivery.Row → Prop) : Prop :=
  ∀ now (statement : Delivery.Statement) row, P row → P (statement.exec now row)

theorem HasRow.exec {P : Delivery.Row → Prop} {now : ℤ} {statement : Delivery.Statement}
    {links : Delivery.Table} (h : HasRow P id links) (hP : Kept P) :
    HasRow P id (links.exec now statement) := by
  obtain ⟨row, hfind, hrow⟩ := h
  exact ⟨statement.exec now row, by rw [Delivery.Table.find_exec, hfind, Option.map_some],
    hP now statement row hrow⟩

/-- Where one statement writes the links, rows keep what it keeps. -/
theorem HasRow.onLinks {P : Delivery.Row → Prop} {now : ℤ} {statement : Delivery.Statement} {a : α}
    (h : HasRow P id s.links) (hP : Kept P) :
    HasRow P id (onLinks x s (s.links.exec now statement, a)).1.links := by
  refine apply_cases (P := fun t => HasRow P id t.links) h ?_
  rintro _ ⟨⟩
  exact h.exec hP

theorem find_of_insert {links links' : Delivery.Table} {row : Delivery.Row}
    (h : links.insert row = some links') : links'.find row.id ≠ none := by
  rw [Delivery.Table.find_insert h, if_pos rfl]
  exact Option.some_ne_none row

/-- Rows keep in every operation what all statements keep. -/
theorem HasRow.act {P : Delivery.Row → Prop} {op : Op} (h : HasRow P id s.links) (hP : Kept P) :
    HasRow P id (act srv x s op).1.links := by
  by_cases hop : op.part = some .links
  · cases op with
    | insert params =>
        refine apply_cases (P := fun t => HasRow P id t.links) h fun y hy => ?_
        obtain ⟨links, hinsert, rfl⟩ := Option.map_eq_some_iff.mp hy
        obtain ⟨row, hfind, hrow⟩ := h
        refine ⟨row, ?_, hrow⟩
        rw [Delivery.Table.find_insert hinsert, if_neg, hfind]
        rintro rfl
        exact nomatch hfind.symm.trans (Delivery.Table.insert_new hinsert)
    | cleanup =>
        refine apply_cases (P := fun t => HasRow P id t.links) h ?_
        rintro _ ⟨⟩
        exact ((h.exec hP).exec hP).exec hP
    | revoke | updatePasswordProtection | recordPasswordFailure | beginConsume | restoreConsume
    | completeConsume => exact h.onLinks hP
    | _ => cases hop
  · have hsame : (Handlers.act srv x s op).1.links = s.links := (act_part hop : Part.Same .links s _)
    rwa [hsame]

theorem act_linksLast {op : Op} : LinksLast s (act srv x s op).1 := by
  intro id h
  obtain ⟨row, hfind⟩ := Option.ne_none_iff_exists'.mp h
  have hkept : HasRow (fun _ => True) id (act srv x s op).1.links :=
    HasRow.act ⟨row, hfind, trivial⟩ fun _ _ _ h => h
  obtain ⟨row', hfind', _⟩ := hkept
  rw [hfind']
  exact Option.some_ne_none row'

/-- What a statement returns is in the table that it leaves. -/
theorem find_of_returning {now : ℤ} {statement : Delivery.Statement} {links : Delivery.Table}
    {row : Delivery.Row} (h : links.returning now statement = some row) :
    (links.exec now statement).find row.id ≠ none := by
  obtain ⟨old, hfind, _, rfl⟩ := Delivery.Table.returning_eq_some h
  have hid : (statement.set now old).id = old.id := (Delivery.Statement.set_unassigned now statement old).id
  rw [hid]
  apply find_exec_ne_none
  rw [hfind]
  exact Option.some_ne_none old

/-- An answer about the links is that of the statement, which has left its table. -/
theorem answer_of_onLinks {result : Delivery.Table × α} {a : α}
    (h : (onLinks x s result).2 = some a) :
    (onLinks x s result).1.links = result.1 ∧ a = result.2 := by
  have heq := Option.some.inj (Interleaving.Reply.apply_answer h)
  exact ⟨(congrArg (fun y => y.1.links) heq).symm, (congrArg Prod.snd heq).symm⟩

theorem insert_of_act {params : Delivery.InsertParams} (h : (act srv x s (.insert params)).2 = some ()) :
    s.links.insert (params.row x.databaseNow) = some (act srv x s (.insert params)).1.links := by
  obtain ⟨links, hinsert, heq⟩ := Option.map_eq_some_iff.mp (Interleaving.Reply.apply_answer h)
  have hlinks : (act srv x s (.insert params)).1.links = links :=
    congrArg (fun y => y.1.links) heq.symm
  rwa [hlinks]

theorem find_of_act_insert {params : Delivery.InsertParams}
    (h : (act srv x s (.insert params)).2 = some ()) :
    (act srv x s (.insert params)).1.links.find params.id ≠ none :=
  find_of_insert (insert_of_act h)

theorem find_of_act_updatePasswordProtection {hash : Option Text}
    {result : Delivery.ProtectionUpdateResult} (hupdated : result.updated = true)
    (h : (act srv x s (.updatePasswordProtection id hash)).2 = some result) :
    (act srv x s (.updatePasswordProtection id hash)).1.links.find id ≠ none := by
  obtain ⟨hlinks, hresult⟩ := answer_of_onLinks h
  refine hlinks.symm ▸ find_exec_ne_none ?_
  unfold Delivery.Repository.updatePasswordProtection at hresult
  dsimp only at hresult
  split at hresult
  · rw [hresult] at hupdated
    cases hupdated
  · next row hrow =>
    have hguard : Delivery.Statement.Guard x.databaseNow row (.updatePasswordProtection id hash) := by
      simpa using List.find?_some hrow
    rw [Delivery.Table.find_eq_some.mpr ⟨List.mem_of_find?_eq_some hrow, hguard.1⟩]
    exact Option.some_ne_none row

theorem find_of_act_recordPasswordFailure {tokenHash : Delivery.Bytes} {hash : Text}
    {failure : Delivery.PasswordFailureResult} (hupdated : failure.updated = true)
    (h : (act srv x s (.recordPasswordFailure tokenHash hash)).2 = some failure) :
    (act srv x s (.recordPasswordFailure tokenHash hash)).1.links.find failure.id ≠ none := by
  obtain ⟨hlinks, hresult⟩ := answer_of_onLinks h
  refine hlinks.symm ▸ ?_
  unfold Delivery.Repository.recordPasswordFailure at hresult ⊢
  dsimp only at hresult ⊢
  split at hresult
  · rw [hresult] at hupdated
    cases hupdated
  · next row hrow =>
    rw [hresult]
    exact find_of_returning hrow

theorem find_of_act_beginConsume {tokenHash : Delivery.Bytes} {hash : Option Text} {leaseID : UUID}
    {item : Delivery.ConsumeCandidate}
    (h : (act srv x s (.beginConsume tokenHash hash leaseID)).2 = some (some item)) :
    (act srv x s (.beginConsume tokenHash hash leaseID)).1.links.find item.id ≠ none := by
  obtain ⟨hlinks, hresult⟩ := answer_of_onLinks h
  obtain ⟨row, hrow, rfl⟩ := Option.map_eq_some_iff.mp hresult.symm
  exact hlinks.symm ▸ find_of_returning hrow

/-- An answer that shows a link is given of a store that has it. -/
theorem linkSeen_act {op : Op} (h : LinkSeen [⟨op, (act srv x s op).2⟩] id) :
    (act srv x s op).1.links.find id ≠ none := by
  rcases h with ⟨params, hmem, rfl⟩ | ⟨hash, result, hmem, hupdated⟩ |
    ⟨tokenHash, hash, failure, hmem, hupdated, rfl⟩ | ⟨tokenHash, hash, leaseID, item, hmem, rfl⟩
  all_goals obtain ⟨rfl, hanswer⟩ := Call.mk.inj (List.mem_singleton.mp hmem)
  · exact find_of_act_insert (eq_of_heq hanswer).symm
  · exact find_of_act_updatePasswordProtection hupdated (eq_of_heq hanswer).symm
  · exact find_of_act_recordPasswordFailure hupdated (eq_of_heq hanswer).symm
  · exact find_of_act_beginConsume (eq_of_heq hanswer).symm

theorem linkSeen_append {call : Call Op Op.Answer} (h : LinkSeen (calls ++ [call]) id) :
    LinkSeen calls id ∨ LinkSeen [call] id := by
  unfold LinkSeen at h ⊢
  simp only [List.mem_append] at h
  grind

/-- In every run the links that the calls have shown exist. -/
theorem linksSeen_of_run {rely : Store → Store → Prop} (hrely : ∀ s t, rely s t → LinksLast s t)
    {pre post : List (Event Store Op Op.Answer)} {e : Event Store Op Op.Answer}
    (hrun : Program.Run (act srv) rely s (serve srv r) (pre ++ e :: post)) :
    LinksSeen (pre.map Event.call) e.before := by
  have hnone : LinksSeen [] s := by
    intro id h
    simp [LinkSeen] at h
  have hlearnt := Program.Run.learnt (C := .ofCalls (fun _ _ => True) Possible) hnone ?_ ?_ hrun
  · rwa [Contract.learnt_ofCalls, List.nil_append] at hlearnt
  · exact fun calls s t h hst id hseen => hrely s t hst id (h id hseen)
  · intro x calls s op t answer h hact id hseen
    obtain ⟨rfl, rfl⟩ := Prod.mk.inj hact
    rcases linkSeen_append hseen with hseen | hseen
    · exact act_linksLast id (h id hseen)
    · exact linkSeen_act hseen

end

/-- The ID that the client has sent for its request, if the record has it, fits its column, and a
link that it says was revoked exists. -/
def Storable (header : ByteString) (record : AuditEventRecord) (links : Delivery.Table) : Prop :=
  (record.requestID = [] ∨ (requestIDColumn header).isSome) ∧
    (record.type = "secret.revoked".toList → ∀ id ∈ record.deliveryID, links.find id ≠ none)

theorem requestIDColumn_requestID (header : ByteString) (seed : RequestSeed) :
    (requestIDColumn (requestID header seed)).isSome ↔ (requestIDColumn header).isSome := by
  have hempty : (requestIDColumn []).isSome := by decide +kernel
  unfold requestID
  split_ifs with hheader
  · rw [hheader]
    exact iff_of_true (requestIDColumn_newRequestID seed) hempty
  · rfl

/-- Where the database answers, the record is stored as one row if it can be, and otherwise not
at all. -/
theorem audit_of_act {srv : Server} {x : Inputs} {s : Store} {record : AuditEventRecord}
    (hreply : x.reply = .answered) :
    (act srv x s (.recordAuditEvent record)).1.audit =
      ((recordAuditEvent x.databaseNow s.links s.audit record).map Prod.fst).getD s.audit := by
  unfold act
  dsimp only
  rw [hreply]
  cases recordAuditEvent x.databaseNow s.links s.audit record <;> rfl

theorem recordAuditEvent_eq {now : ℤ} {links : Delivery.Table} {audit : List AuditEvent}
    {record : AuditEventRecord} (h : (recordAuditEvent now links audit record).isSome) :
    ∃ row, record.row now = some row ∧
      recordAuditEvent now links audit record = some (row :: audit, ()) := by
  unfold recordAuditEvent at h ⊢
  split_ifs at h ⊢ with hlinks
  · obtain ⟨row, hrow⟩ := Option.isSome_iff_exists.mp (Option.isSome_map.symm.trans h)
    exact ⟨row, hrow, by rw [hrow, Option.map_some]⟩
  · cases h

/-- In every run of the server, whatever it has recorded is stored as one row wherever the database
answers, unless the client has chosen an ID for its request that the column cannot hold, or the
record says that a link was revoked that does not exist. -/
theorem audit_stored_exact {srv : Server} {r : Request} {header : ByteString} {seed : RequestSeed}
    (hid : r.requestID = requestID header seed) {rely : Store → Store → Prop}
    (hrely : ∀ s t, rely s t → LinksLast s t) {s : Store}
    {pre post : List (Event Store Op Op.Answer)} {e : Event Store Op Op.Answer}
    (hrun : Program.Run (act srv) rely s (serve srv r) (pre ++ e :: post)) {record : AuditEventRecord}
    (hop : e.op = .recordAuditEvent record) {x : Inputs} (hreply : x.reply = .answered) :
    let stored := (act srv x e.before e.op).1.audit
    (Storable header record e.before.links →
      ∃ row, record.row x.databaseNow = some row ∧ stored = row :: e.before.audit) ∧
    (¬Storable header record e.before.links → stored = e.before.audit) := by
  obtain ⟨before, op, answer, after⟩ := e
  obtain rfl : op = .recordAuditEvent record := hop
  obtain ⟨hwellFormed, hrequest, hnamed⟩ := (serve_keeps hrun).2
  have hseen : LinksSeen (pre.map Event.call) before := linksSeen_of_run hrely hrun
  have hcolumn : (requestIDColumn record.requestID).isSome ↔
      record.requestID = [] ∨ (requestIDColumn header).isSome := by
    rw [← requestIDColumn_requestID header seed, ← hid]
    rcases hrequest with hrequest | hrequest
    · rw [hrequest]
      refine ⟨.inr, fun h => h.elim (fun hempty => ?_) id⟩
      rw [hempty]
      decide +kernel
    · rw [hrequest]
      exact iff_of_true (by decide +kernel) (.inl rfl)
  have hlinks : (∀ id ∈ record.deliveryID, before.links.find id ≠ none) ↔
      (record.type = "secret.revoked".toList → ∀ id ∈ record.deliveryID, before.links.find id ≠ none) := by
    refine ⟨fun h _ => h, fun h id hid => ?_⟩
    rcases hnamed id hid with hlink | hrevoked
    · exact hseen id hlink
    · exact h hrevoked id hid
  have hstored : (recordAuditEvent x.databaseNow before.links before.audit record).isSome ↔
      Storable header record before.links := by
    rw [hwellFormed.recordAuditEvent_isSome, hcolumn, hlinks, Storable]
  rw [audit_of_act hreply]
  constructor
  · intro h
    obtain ⟨row, hrow, heq⟩ := recordAuditEvent_eq (hstored.mpr h)
    exact ⟨row, hrow, by rw [heq]; rfl⟩
  · intro h
    have hnone := Option.not_isSome_iff_eq_none.mp (mt hstored.mp h)
    rw [hnone]
    rfl

/-- Someone who is no user tries to log in. -/
def sampleLoginRequest : Request :=
  { signedIn [] .post with
    path := "/api/v1/auth/login".toList
    contentType := "application/json".toList
    requestID := ascii "request-7"
    decode := fun kind => match kind with
      | .login => .ok ⟨"nobody".toList, [], [], "guess".toList⟩
      | _ => .error .mediaType }

def sampleLoginRun : List (Event Store Op Op.Answer) :=
  Program.execute (act sampleServer) sampleStore (handleLogin sampleServer sampleLoginRequest)
    [sampleHandlerInputs, sampleHandlerInputs, sampleHandlerInputs]

theorem length_sampleLoginRun : 2 < sampleLoginRun.length := by decide +kernel

/-- The row of the failed login. -/
theorem audit_stored_exact_sample : ∃ pre e post record row,
    Program.Run (act sampleServer) (· = ·) sampleStore (serve sampleServer sampleLoginRequest)
      (pre ++ e :: post) ∧ e.op = .recordAuditEvent record ∧
    record.row 0 = some row ∧
    (act sampleServer sampleHandlerInputs e.before e.op).1.audit = row :: e.before.audit := by
  have hserve : serve sampleServer sampleLoginRequest =
      handleLogin sampleServer sampleLoginRequest := by rfl
  have hrun : Program.Run (act sampleServer) (· = ·) sampleStore
      (serve sampleServer sampleLoginRequest) (sampleLoginRun.take 2 ++
        sampleLoginRun.get ⟨2, length_sampleLoginRun⟩ :: sampleLoginRun.drop 3) := by
    rw [hserve]
    exact Program.run_execute_at (fun _ => rfl) length_sampleLoginRun
  have hop : (sampleLoginRun.get ⟨2, length_sampleLoginRun⟩).op = .recordAuditEvent
      (requestRecord sampleServer sampleLoginRequest [] "auth.login_failed".toList
        "unauthorized".toList) := by
    decide +kernel
  have hid : sampleLoginRequest.requestID = requestID (ascii "request-7") ⟨[], by decide⟩ := by
    decide +kernel
  have hfits : (requestIDColumn (ascii "request-7")).isSome := by decide +kernel
  have hrely : ∀ s t : Store, s = t → LinksLast s t := by
    rintro s _ rfl
    exact fun _ h => h
  have hother : (requestRecord sampleServer sampleLoginRequest [] "auth.login_failed".toList
      "unauthorized".toList).type ≠ "secret.revoked".toList := by
    decide
  obtain ⟨row, hrow, hstored⟩ := (audit_stored_exact hid hrely hrun hop
    (x := sampleHandlerInputs) rfl).1 ⟨.inr hfits, fun h => absurd h hother⟩
  exact ⟨_, _, _, _, row, hrun, hop, hrow, hstored⟩

end SecureShare.Handlers
