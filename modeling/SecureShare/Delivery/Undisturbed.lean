import SecureShare.Delivery.Steps

/-!
# A reader that nobody disturbs

A `Consume` call with the right token and password, an available delivery, a
fresh lease ID and a healthy database and Vault, between whose steps only the
clock moves: it takes the lease, and it returns what Vault decrypts.
-/
namespace SecureShare.Delivery
open Go Library.Transition

section statements
variable {t : Table} {r : Row}

/-- A search whose condition fixes the token hash finds the row. -/
theorem Table.find?_of_tokenHash (hr : t.find r.id = some r) {P : Row → Prop} [DecidablePred P]
    (hP : P r) (hkey : ∀ r', P r' → r'.tokenHash = r.tokenHash) :
    t.rows.find? (fun r => P r) = some r := by
  have hmem := (find_eq_some.mp hr).1
  obtain ⟨r', hr'⟩ := Option.isSome_iff_exists.mp (List.find?_isSome.mpr ⟨r, hmem, by simpa⟩ :
    (t.rows.find? fun u => P u).isSome)
  have hP' : P r' := by simpa using List.find?_some hr'
  rw [hr', List.inj_on_of_nodup_map t.tokenHashes (List.mem_of_find?_eq_some hr') hmem
    (hkey r' hP')]

theorem findConsumeCandidate_of_available (hr : t.find r.id = some r) {now : ℤ}
    {leaseTTL : Duration} (h : r.Available leaseTTL.int64Seconds now) :
    Repository.findConsumeCandidate t now r.tokenHash leaseTTL = some r.candidate := by
  rw [Repository.findConsumeCandidate, Table.find?_of_tokenHash hr ⟨rfl, h⟩ fun r' h' => h'.1]
  rfl

theorem beginConsume_of_available (hr : t.find r.id = some r) {now : ℤ} {leaseTTL : Duration}
    (h : r.Available leaseTTL.int64Seconds now) (leaseID : UUID) :
    Repository.beginConsume t now r.tokenHash r.passwordHash leaseID leaseTTL =
      (t.exec now (.beginConsume r.tokenHash r.passwordHash leaseID leaseTTL.int64Seconds),
        some r.candidate) := by
  have hguard : (Statement.beginConsume r.tokenHash r.passwordHash leaseID
      leaseTTL.int64Seconds).Guard now r := ⟨rfl, rfl, h⟩
  rw [Repository.beginConsume, Table.returning,
    Table.find?_of_tokenHash hr hguard fun r' h' => h'.1]
  rfl

theorem completeConsume_of_leased {id leaseID : UUID} {now : ℤ} (hr : t.find id = some r)
    (hguard : (Statement.completeConsume id leaseID).Guard now r) :
    Repository.completeConsume t now id leaseID =
      (t.exec now (.completeConsume id leaseID), true) := by
  rw [Repository.completeConsume, Prod.mk.injEq, decide_eq_true_eq]
  exact ⟨rfl, (Table.rowsAffected_eq_one (s := .completeConsume id leaseID)
    fun r h => h.1).mpr ⟨r, hr, hguard⟩⟩

end statements

section calls
variable {svc : Service} {inputs : Inputs} {now : ℤ} {t : Table} {r : Row}
  {token password : Text}

theorem consumeFind_of_available (hr : t.find r.id = some r)
    (havailable : r.Available svc.cfg.consumingLeaseTTL.int64Seconds now)
    (htoken : svc.deps.tokenHMAC svc.cfg.tokenHMACPepper token = some r.tokenHash)
    (hpassword : Verifies svc.deps password r.passwordHash) (hdb : inputs.database = .answered) :
    svc.consumeFind inputs now t token password = .leasing r.tokenHash r.passwordHash := by
  have hcandidate : r.candidate.passwordHash = r.passwordHash := rfl
  rw [Service.consumeFind, htoken]
  simp only [findConsumeCandidate_of_available hr havailable, hdb, Outcome.answer, hcandidate]
  cases hhash : r.passwordHash with
  | none => rfl
  | some hash => exact if_pos (hpassword hash hhash)

theorem consumeBegin_of_available (hr : t.find r.id = some r)
    (havailable : r.Available svc.cfg.consumingLeaseTTL.int64Seconds now) {leaseID : UUID}
    (hlease : inputs.leaseID = some leaseID) (hdb : inputs.database = .answered) :
    svc.consumeBegin inputs now t r.tokenHash r.passwordHash =
      (t.exec now (.beginConsume r.tokenHash r.passwordHash leaseID
        svc.cfg.consumingLeaseTTL.int64Seconds), .decrypting r.candidate leaseID) := by
  rw [Service.consumeBegin, hlease]
  simp only [beginConsume_of_available hr havailable, hdb, Outcome.answer, Outcome.table]

theorem consumeDecrypt_of_healthy {item : ConsumeCandidate} {leaseID : UUID} {plaintext : Text}
    (hvault : inputs.vaultUp = true)
    (hdecrypt : svc.deps.decrypt item.encryptedPayload = some plaintext) :
    svc.consumeDecrypt inputs item leaseID = .completing item leaseID plaintext := by
  rw [Service.consumeDecrypt, if_pos hvault, hdecrypt]

theorem consumeComplete_of_leased {item : ConsumeCandidate} {leaseID : UUID}
    {plaintext canonical legacy : Text} (hr : t.find item.id = some r)
    (hguard : (Statement.completeConsume item.id leaseID).Guard now r)
    (hdb : inputs.database = .answered)
    (hpayload : normalizeConsumedPayload plaintext = some (canonical, legacy)) :
    Service.consumeComplete inputs now t item leaseID plaintext =
      (t.exec now (.completeConsume item.id leaseID), .delivered item ⟨legacy, canonical⟩) := by
  rw [Service.consumeComplete]
  simp only [completeConsume_of_leased hr hguard, hdb, Outcome.answer, Outcome.table, hpayload]

end calls

/-- The steps of a reader before it takes the lease, with the time that passes before
each. -/
def findRun (n : ℕ) (token password : Text) (e₁ e₂ : ℕ) (in₁ : Inputs) : List Action :=
  [.spawn (.consume token password), .tick e₁, .advance n in₁, .tick e₂]

/-- The steps of a reader to its end. -/
def deliveryRun (n : ℕ) (token password : Text) (e₁ e₂ e₃ e₄ : ℕ) (in₁ in₂ in₃ in₄ : Inputs) :
    List Action :=
  findRun n token password e₁ e₂ in₁ ++
    [.advance n in₂, .tick e₃, .advance n in₃, .tick e₄, .advance n in₄]

section run
variable {svc : Service} {s : State} {r : Row} {token password : Text}

/-- A step of the call that came last. -/
theorem step_advance_last {clock : ℤ} {t t' : Table} {calls : List Call} {call call' : Call}
    {leases : List UUID} {inputs : Inputs}
    (hfresh : ∀ leaseID ∈ call.drawnLease inputs, leaseID ∉ leases)
    (h : call.advance svc inputs clock t = some (t', call')) :
    step svc ⟨clock, t, calls ++ [call], leases⟩ (.advance calls.length inputs) =
      some ⟨clock, t', calls ++ [call'], (call.drawnLease inputs).toList ++ leases⟩ := by
  have hcall : (calls ++ [call])[calls.length]? = some call := by simp
  have hnone : ((call.drawnLease inputs).any fun leaseID => leaseID ∈ leases) = false := by
    cases hdrawn : call.drawnLease inputs with
    | none => rfl
    | some leaseID => simpa using hfresh leaseID hdrawn
  rw [step]
  simp only [hcall, Option.bind_some, hnone, h, Option.map_some]
  simp

theorem createRun_inserts {inputs : Inputs} {actorID : Text} {req : CreateRequest}
    {params : InsertParams} {t : Table}
    (hparams : insertParams svc.deps svc.cfg inputs.toCreateInputs actorID req =
      .ok (params, token)) (hinsert : s.table.insert (params.row s.clock) = some t)
    (hdb : inputs.database = .answered) :
    run (step svc) s [.spawn (.create actorID req), .advance s.calls.length inputs] =
      some ⟨s.clock, t, s.calls ++ [.create actorID req (.created ⟨params.id,
        svc.cfg.appBaseURL ++ "/s#".toList ++ token, params.expiresAt⟩)], s.leases⟩ := by
  have hcreate : (Call.create actorID req .inserting).advance svc inputs s.clock s.table =
      some (t, .create actorID req (.created ⟨params.id,
        svc.cfg.appBaseURL ++ "/s#".toList ++ token, params.expiresAt⟩)) := by
    simp only [Call.advance, Service.create, hparams, hinsert, hdb, Outcome.table,
      Outcome.answer]
  have hnone : ∀ l ∈ (Call.create actorID req .inserting).drawnLease inputs, l ∉ s.leases := by
    intro l hl
    cases hl
  exact (run_cons_of rfl).trans <| run_cons_of (step_advance_last hnone hcreate)

theorem findRun_finds (hr : s.table.find r.id = some r)
    (htoken : svc.deps.tokenHMAC svc.cfg.tokenHMACPepper token = some r.tokenHash)
    (hpassword : Verifies svc.deps password r.passwordHash) {e₁ : ℕ} (e₂ : ℕ)
    (havailable : r.Available svc.cfg.consumingLeaseTTL.int64Seconds (s.clock + e₁))
    {in₁ : Inputs} (hdb : in₁.database = .answered) :
    run (step svc) s (findRun s.calls.length token password e₁ e₂ in₁) =
      some ⟨s.clock + e₁ + e₂, s.table,
        s.calls ++ [.consume token password (.leasing r.tokenHash r.passwordHash)],
        s.leases⟩ := by
  have hfind : (Call.consume token password .finding).advance svc in₁ (s.clock + e₁) s.table =
      some (s.table, .consume token password (.leasing r.tokenHash r.passwordHash)) := by
    rw [Call.advance, Service.consume, consumeFind_of_available hr havailable htoken hpassword hdb]
    rfl
  have hnone : ∀ l ∈ (Call.consume token password .finding).drawnLease in₁, l ∉ s.leases := by
    intro l hl
    cases hl
  exact (run_cons_of rfl).trans <| (run_cons_of rfl).trans <|
    (run_cons_of (step_advance_last hnone hfind)).trans <| run_cons_of rfl

theorem step_begins {now : ℤ} {t : Table} {calls : List Call} {leases : List UUID}
    (hr : t.find r.id = some r)
    (havailable : r.Available svc.cfg.consumingLeaseTTL.int64Seconds now)
    {leaseID : UUID} (hfresh : leaseID ∉ leases) {inputs : Inputs}
    (hdb : inputs.database = .answered) (hlease : inputs.leaseID = some leaseID) :
    step svc
        ⟨now, t, calls ++ [.consume token password (.leasing r.tokenHash r.passwordHash)], leases⟩
        (.advance calls.length inputs) =
      some ⟨now, t.exec now (.beginConsume r.tokenHash r.passwordHash leaseID
          svc.cfg.consumingLeaseTTL.int64Seconds),
        calls ++ [.consume token password (.decrypting r.candidate leaseID)],
        leaseID :: leases⟩ := by
  have hbegin : (Call.consume token password (.leasing r.tokenHash r.passwordHash)).advance svc
      inputs now t = some (t.exec now (.beginConsume r.tokenHash r.passwordHash leaseID
        svc.cfg.consumingLeaseTTL.int64Seconds),
          .consume token password (.decrypting r.candidate leaseID)) := by
    rw [Call.advance, Service.consume, consumeBegin_of_available hr havailable hlease hdb]
    rfl
  have hdrawn : (Call.consume token password (.leasing r.tokenHash r.passwordHash)).drawnLease
      inputs = some leaseID := hlease
  have hsome : ∀ l ∈ (Call.consume token password
      (.leasing r.tokenHash r.passwordHash)).drawnLease inputs, l ∉ leases := by
    intro l hl
    rw [hdrawn] at hl
    cases hl
    exact hfresh
  rw [step_advance_last hsome hbegin, hdrawn]
  rfl

/-- An available delivery can be leased after any delay. -/
theorem exists_begin (hr : s.table.find r.id = some r)
    (htoken : svc.deps.tokenHMAC svc.cfg.tokenHMACPepper token = some r.tokenHash)
    (hpassword : Verifies svc.deps password r.passwordHash) {e : ℕ}
    (havailable : r.Available svc.cfg.consumingLeaseTTL.int64Seconds (s.clock + e))
    {leaseID : UUID} (hfresh : leaseID ∉ s.leases) :
    ∃ u v i inputs, Reachable (step svc) s u ∧ step svc u (.advance i inputs) = some v ∧
      u.clock = s.clock + e ∧ u.table = s.table ∧
      u.calls[i]? = some (.consume token password (.leasing r.tokenHash r.passwordHash)) ∧
      v.clock = s.clock + e ∧ v.leases = leaseID :: s.leases ∧
      v.table = s.table.exec (s.clock + e) (.beginConsume r.tokenHash r.passwordHash leaseID
        svc.cfg.consumingLeaseTTL.int64Seconds) := by
  let inputs : Inputs :=
    { token := none, nonce := none, salt := none, now := 0, id := none
      database := .answered, vaultUp := true, leaseID := some leaseID }
  have hdb : inputs.database = .answered := rfl
  have hfind := findRun_finds hr htoken hpassword 0 havailable hdb
  rw [Nat.cast_zero, add_zero] at hfind
  exact ⟨_, _, s.calls.length, inputs, .of_run hfind, step_begins hr havailable hfresh rfl rfl,
    rfl, rfl, by simp, rfl, rfl, rfl⟩

theorem deliveryRun_delivers (hr : s.table.find r.id = some r)
    (htoken : svc.deps.tokenHMAC svc.cfg.tokenHMACPepper token = some r.tokenHash)
    (hpassword : Verifies svc.deps password r.passwordHash) {e₁ e₂ : ℕ}
    (havailable₁ : r.Available svc.cfg.consumingLeaseTTL.int64Seconds (s.clock + e₁))
    (havailable₂ : r.Available svc.cfg.consumingLeaseTTL.int64Seconds (s.clock + e₁ + e₂))
    {leaseID : UUID} (hfresh : leaseID ∉ s.leases) (e₃ e₄ : ℕ) {in₁ in₂ in₃ in₄ : Inputs}
    (hdb₁ : in₁.database = .answered) (hdb₂ : in₂.database = .answered)
    (hlease : in₂.leaseID = some leaseID) (hvault : in₃.vaultUp = true)
    (hdb₄ : in₄.database = .answered) {plaintext canonical legacy : Text}
    (hdecrypt : svc.deps.decrypt r.encryptedPayload = some plaintext)
    (hpayload : normalizeConsumedPayload plaintext = some (canonical, legacy)) :
    ∃ t, run (step svc) s
        (deliveryRun s.calls.length token password e₁ e₂ e₃ e₄ in₁ in₂ in₃ in₄) = some t ∧
      t.calls[s.calls.length]? =
        some (.consume token password (.delivered r.candidate ⟨legacy, canonical⟩)) := by
  let stmt : Statement := .beginConsume r.tokenHash r.passwordHash leaseID
    svc.cfg.consumingLeaseTTL.int64Seconds
  let now := s.clock + e₁ + e₂
  have hguard : stmt.Guard now r := ⟨rfl, rfl, havailable₂⟩
  have hleased : (s.table.exec now stmt).find r.candidate.id = some (stmt.set now r) := by
    change (s.table.exec now stmt).find r.id = _
    rw [Table.find_exec, hr, Option.map_some, Statement.exec_of_guard hguard]
  have hdecrypted : (Call.consume token password (.decrypting r.candidate leaseID)).advance svc
      in₃ (now + e₃) (s.table.exec now stmt) =
        some (s.table.exec now stmt,
          .consume token password (.completing r.candidate leaseID plaintext)) := by
    rw [Call.advance, Service.consume, consumeDecrypt_of_healthy hvault hdecrypt]
    rfl
  have hcompleted : (Call.consume token password
      (.completing r.candidate leaseID plaintext)).advance svc in₄ (now + e₃ + e₄)
        (s.table.exec now stmt) =
          some ((s.table.exec now stmt).exec (now + e₃ + e₄)
              (.completeConsume r.candidate.id leaseID),
            .consume token password (.delivered r.candidate ⟨legacy, canonical⟩)) := by
    rw [Call.advance, Service.consume,
      consumeComplete_of_leased hleased ⟨rfl, rfl, rfl⟩ hdb₄ hpayload]
    rfl
  refine ⟨_, run_trans (findRun_finds hr htoken hpassword e₂ havailable₁ hdb₁)
    ((run_cons_of (step_begins hr havailable₂ hfresh hdb₂ hlease)).trans <|
      (run_cons_of rfl).trans <| (run_cons_of (step_advance_last ?_ hdecrypted)).trans <|
        (run_cons_of rfl).trans <| run_cons_of (step_advance_last ?_ hcompleted)), ?_⟩
  · intro l hl
    cases hl
  · intro l hl
    cases hl
  · simp

end run
end SecureShare.Delivery
