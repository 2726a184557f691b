import SecureShare.Delivery.RowInvariant
import SecureShare.Delivery.System

/-!
# What one step can do

The cases of a step, stated once: how a call moves on, which statement it issues,
and what becomes of one row of the table.
-/
namespace SecureShare.Delivery
open Go Library.Transition

theorem Outcome.table_eq (o : Outcome) (before after : Table) :
    o.table before after = before ∨ o.table before after = after := by
  cases o with
  | failed => exact .inl rfl
  | answered | lost => exact .inr rfl

theorem Outcome.answer_eq_some {α : Type} {o : Outcome} {a b : α} (h : o.answer a = some b) :
    o = .answered ∧ a = b := by
  cases o with
  | answered => exact ⟨rfl, Option.some.inj h⟩
  | failed | lost => cases h

/-- The password passes a stored hash, if there is one. -/
def Verifies (deps : Dependencies) (password : Text) (hash : Option Text) : Prop :=
  ∀ h ∈ hash, deps.verifyPassword password h = true

theorem verifies_none (deps : Dependencies) (password : Text) : Verifies deps password none := by
  intro h hmem
  cases hmem

/-- The table after a statement that may have failed. -/
def Attempted (now : ℤ) (s : Statement) (t t' : Table) : Prop := t' = t ∨ t' = t.exec now s

/-- The steps of `Service.Consume`. -/
inductive ConsumeStep (svc : Service) (inputs : Inputs) (now : ℤ) (token password : Text)
    (t : Table) : ConsumePhase → Table → ConsumePhase → Prop
  | found (tokenHash : Bytes) (hash : Option Text) :
      svc.deps.tokenHMAC svc.cfg.tokenHMACPepper token = some tokenHash →
      Verifies svc.deps password hash →
      ConsumeStep svc inputs now token password t .finding t (.leasing tokenHash hash)
  | mismatched (tokenHash : Bytes) (hash : Text) :
      ConsumeStep svc inputs now token password t .finding t (.failing tokenHash hash)
  | unfound (e : ServiceError) :
      ConsumeStep svc inputs now token password t .finding t (.refused e)
  | counted (tokenHash : Bytes) (hash : Text) (t' : Table) (e : ServiceError) :
      Attempted now (.recordPasswordFailure tokenHash hash svc.cfg.consumingLeaseTTL.int64Seconds)
        t t' →
      ConsumeStep svc inputs now token password t (.failing tokenHash hash) t' (.refused e)
  | unleased (tokenHash : Bytes) (hash : Option Text) (e : ServiceError) :
      inputs.leaseID = none →
      ConsumeStep svc inputs now token password t (.leasing tokenHash hash) t (.refused e)
  | leaseLost (tokenHash : Bytes) (hash : Option Text) (leaseID : UUID) (t' : Table)
      (e : ServiceError) : inputs.leaseID = some leaseID →
      Attempted now (.beginConsume tokenHash hash leaseID svc.cfg.consumingLeaseTTL.int64Seconds)
        t t' →
      ConsumeStep svc inputs now token password t (.leasing tokenHash hash) t' (.refused e)
  | leased (tokenHash : Bytes) (hash : Option Text) (leaseID : UUID) (r : Row) :
      inputs.leaseID = some leaseID → t.find r.id = some r →
      (Statement.beginConsume tokenHash hash leaseID
        svc.cfg.consumingLeaseTTL.int64Seconds).Guard now r →
      ConsumeStep svc inputs now token password t (.leasing tokenHash hash)
        (t.exec now
          (.beginConsume tokenHash hash leaseID svc.cfg.consumingLeaseTTL.int64Seconds))
        (.decrypting r.candidate leaseID)
  | decrypted (item : ConsumeCandidate) (leaseID : UUID) (plaintext : Text) :
      svc.deps.decrypt item.encryptedPayload = some plaintext →
      ConsumeStep svc inputs now token password t (.decrypting item leaseID) t
        (.completing item leaseID plaintext)
  | undecrypted (item : ConsumeCandidate) (leaseID : UUID) :
      ConsumeStep svc inputs now token password t (.decrypting item leaseID) t
        (.restoring item leaseID)
  | restored (item : ConsumeCandidate) (leaseID : UUID) (t' : Table) (e : ServiceError) :
      Attempted now (.restoreConsume item.id leaseID) t t' →
      ConsumeStep svc inputs now token password t (.restoring item leaseID) t' (.refused e)
  | uncompleted (item : ConsumeCandidate) (leaseID : UUID) (plaintext : Text) (t' : Table)
      (e : ServiceError) : Attempted now (.completeConsume item.id leaseID) t t' →
      ConsumeStep svc inputs now token password t (.completing item leaseID plaintext) t'
        (.refused e)
  | completed (item : ConsumeCandidate) (leaseID : UUID) (plaintext canonical legacy : Text)
      (r : Row) : t.find item.id = some r →
      (Statement.completeConsume item.id leaseID).Guard now r →
      normalizeConsumedPayload plaintext = some (canonical, legacy) →
      ConsumeStep svc inputs now token password t (.completing item leaseID plaintext)
        (t.exec now (.completeConsume item.id leaseID)) (.delivered item ⟨legacy, canonical⟩)

section consume
variable {svc : Service} {inputs : Inputs} {now : ℤ} {t t' : Table} {token password : Text}
  {phase phase' : ConsumePhase}

private theorem consumeFind_step : ConsumeStep svc inputs now token password t .finding t
    (svc.consumeFind inputs now t token password) := by
  unfold Service.consumeFind
  cases htoken : svc.deps.tokenHMAC svc.cfg.tokenHMACPepper token with
  | none => exact .unfound _
  | some tokenHash =>
      simp only
      cases inputs.database.answer
          (Repository.findConsumeCandidate t now tokenHash svc.cfg.consumingLeaseTTL) with
      | none => exact .unfound _
      | some item =>
          cases item with
          | none => exact .unfound _
          | some item =>
              simp only
              cases hhash : item.passwordHash with
              | none => exact .found _ _ htoken (verifies_none _ _)
              | some hash =>
                  simp only
                  split_ifs with hverify
                  · refine .found _ _ htoken ?_
                    rintro h ⟨⟩
                    exact hverify
                  · exact .mismatched _ _

private theorem consumeBegin_step {tokenHash : Bytes} {hash : Option Text}
    (h : svc.consumeBegin inputs now t tokenHash hash = (t', phase')) :
    ConsumeStep svc inputs now token password t (.leasing tokenHash hash) t' phase' := by
  obtain ⟨rfl, rfl⟩ := Prod.ext_iff.mp h
  unfold Service.consumeBegin
  cases hlease : inputs.leaseID with
  | none => exact .unleased _ _ _ hlease
  | some leaseID =>
      simp only
      cases hanswer : inputs.database.answer
          (Repository.beginConsume t now tokenHash hash leaseID svc.cfg.consumingLeaseTTL).2 with
      | none => exact .leaseLost _ _ _ _ _ hlease (inputs.database.table_eq _ _)
      | some item =>
          obtain ⟨hok, hitem⟩ := Outcome.answer_eq_some hanswer
          cases item with
          | none => exact .leaseLost _ _ _ _ _ hlease (inputs.database.table_eq _ _)
          | some item =>
              obtain ⟨r', hr', rfl⟩ := Option.map_eq_some_iff.mp hitem
              obtain ⟨r, hr, hguard, rfl⟩ := Table.returning_eq_some hr'
              rw [hok]
              exact .leased tokenHash hash leaseID r hlease hr hguard

private theorem consumeComplete_step {item : ConsumeCandidate} {leaseID : UUID}
    {plaintext : Text}
    (h : Service.consumeComplete inputs now t item leaseID plaintext = (t', phase')) :
    ConsumeStep svc inputs now token password t (.completing item leaseID plaintext) t' phase' := by
  obtain ⟨rfl, rfl⟩ := Prod.ext_iff.mp h
  have htable := inputs.database.table_eq t (Repository.completeConsume t now item.id leaseID).1
  unfold Service.consumeComplete
  simp only
  cases hanswer : inputs.database.answer (Repository.completeConsume t now item.id leaseID).2 with
  | none => exact .uncompleted _ _ _ _ _ htable
  | some updated =>
      obtain ⟨hok, hupdated⟩ := Outcome.answer_eq_some hanswer
      cases updated with
      | false => exact .uncompleted _ _ _ _ _ htable
      | true =>
          simp only
          cases hpayload : normalizeConsumedPayload plaintext with
          | none => exact .uncompleted _ _ _ _ _ htable
          | some payload =>
              obtain ⟨r, hr, hguard⟩ := (Table.rowsAffected_eq_one
                (s := .completeConsume item.id leaseID) fun r h => h.1).mp
                (of_decide_eq_true hupdated)
              rw [hok]
              exact .completed item leaseID plaintext payload.1 payload.2 r hr hguard hpayload

theorem consume_step (h : svc.consume inputs now t token password phase = some (t', phase')) :
    ConsumeStep svc inputs now token password t phase t' phase' := by
  cases phase with
  | finding =>
      cases h
      exact consumeFind_step
  | failing tokenHash hash =>
      obtain ⟨rfl, rfl⟩ := Prod.mk.inj (Option.some.inj h)
      have htable := inputs.database.table_eq t (Repository.recordPasswordFailure t now tokenHash
        hash svc.cfg.consumingLeaseTTL).1
      split
      · exact .counted _ _ _ _ htable
      · split_ifs <;> exact .counted _ _ _ _ htable
  | leasing tokenHash hash => exact consumeBegin_step (Option.some.inj h)
  | decrypting item leaseID =>
      obtain ⟨rfl, rfl⟩ := Prod.mk.inj (Option.some.inj h)
      unfold Service.consumeDecrypt
      split_ifs
      · split
        · exact .decrypted _ _ _ ‹_›
        · exact .undecrypted _ _
      · exact .undecrypted _ _
  | restoring item leaseID =>
      cases h
      exact .restored _ _ _ _ (inputs.database.table_eq _ _)
  | completing item leaseID plaintext => exact consumeComplete_step (Option.some.inj h)
  | delivered | refused | abandoned => cases h

end consume

/-- The steps of `Repository.Revoke`. -/
inductive RevokeStep (now : ℤ) (id : UUID) (t : Table) : RevokePhase → Table → RevokePhase → Prop
  | revoked (r : Row) : t.find id = some r → (Statement.revoke id).Guard now r →
      RevokeStep now id t .updating (t.exec now (.revoke id))
        (.answered ⟨id, some .revoked, true, true⟩)
  | unanswered (t' : Table) : Attempted now (.revoke id) t t' →
      RevokeStep now id t .updating t' .failed
  | unmatched (t' : Table) : Attempted now (.revoke id) t t' →
      (∀ r, t.find id = some r → ¬(Statement.revoke id).Guard now r) →
      RevokeStep now id t .updating t' .reading
  | read (r : Row) : t.find id = some r →
      RevokeStep now id t .reading t (.answered ⟨id, some r.status, false, true⟩)
  | absent : t.find id = none →
      RevokeStep now id t .reading t (.answered ⟨id, none, false, false⟩)
  | unread : RevokeStep now id t .reading t .failed

theorem revoke_step {inputs : Inputs} {now : ℤ} {id : UUID} {t t' : Table}
    {phase phase' : RevokePhase}
    (h : Service.revoke inputs now t id phase = some (t', phase')) :
    RevokeStep now id t phase t' phase' := by
  have hguard : ∀ r, (Statement.revoke id).Guard now r → r.id = id := fun r hr => hr.1
  cases phase with
  | updating =>
      obtain ⟨rfl, rfl⟩ := Prod.mk.inj (Option.some.inj h)
      have htable := inputs.database.table_eq t (t.exec now (.revoke id))
      cases hanswer : inputs.database.answer (Repository.revokeUpdate t now id).2 with
      | none => exact .unanswered _ htable
      | some updated =>
          obtain ⟨hok, hupdated⟩ := Outcome.answer_eq_some hanswer
          cases updated with
          | false =>
              refine .unmatched _ htable fun r hr hmatch => ?_
              exact of_decide_eq_false hupdated
                ((Table.rowsAffected_eq_one hguard).mpr ⟨r, hr, hmatch⟩)
          | true =>
              obtain ⟨r, hr, hmatch⟩ :=
                (Table.rowsAffected_eq_one hguard).mp (of_decide_eq_true hupdated)
              rw [hok]
              exact .revoked r hr hmatch
  | reading =>
      obtain ⟨rfl, rfl⟩ := Prod.mk.inj (Option.some.inj h)
      cases hanswer : inputs.database.answer (Repository.revokeStatus t id) with
      | none => exact .unread
      | some result =>
          have hresult := (Outcome.answer_eq_some hanswer).2
          unfold Repository.revokeStatus at hresult
          rw [← hresult]
          cases hr : t.find id with
          | none => exact .absent hr
          | some r => exact .read r hr
  | answered | failed | abandoned => cases h

/-- The UPDATE that the next step of a call issues, and the time it runs at. -/
inductive Issues (svc : Service) (inputs : Inputs) (now : ℤ) : Call → ℤ → Statement → Prop
  | counting (token password : Text) (tokenHash : Bytes) (hash : Text) :
      Issues svc inputs now (.consume token password (.failing tokenHash hash)) now
        (.recordPasswordFailure tokenHash hash svc.cfg.consumingLeaseTTL.int64Seconds)
  | leasing (token password : Text) (tokenHash : Bytes) (hash : Option Text) (leaseID : UUID) :
      inputs.leaseID = some leaseID →
      Issues svc inputs now (.consume token password (.leasing tokenHash hash)) now
        (.beginConsume tokenHash hash leaseID svc.cfg.consumingLeaseTTL.int64Seconds)
  | restoring (token password : Text) (item : ConsumeCandidate) (leaseID : UUID) :
      Issues svc inputs now (.consume token password (.restoring item leaseID)) now
        (.restoreConsume item.id leaseID)
  | completing (token password : Text) (item : ConsumeCandidate) (leaseID : UUID)
      (plaintext : Text) :
      Issues svc inputs now (.consume token password (.completing item leaseID plaintext)) now
        (.completeConsume item.id leaseID)
  | revoking (id : UUID) : Issues svc inputs now (.revoke id .updating) now (.revoke id)
  | protecting (id : UUID) (password hash : Option Text) :
      svc.protectionHash inputs password = .ok hash →
      Issues svc inputs now (.protect id password .updating) now
        (.updatePasswordProtection id hash)
  | expiring : Issues svc inputs now (.cleanup .starting) now .expireActive
  | givingBack (start : ℤ) (expired : ℕ) :
      Issues svc inputs now (.cleanup (.restoring start expired)) start
        (.restoreStale svc.cfg.consumingLeaseTTL.int64Seconds)
  | blanking (start : ℤ) (expired restored : ℕ) :
      Issues svc inputs now (.cleanup (.blanking start expired restored)) start
        (.blankRetained svc.cfg.consumedRetention.int64Seconds
          svc.cfg.expiredRetention.int64Seconds svc.cfg.revokedRetention.int64Seconds)

/-- A create call inserts the row of its request. -/
def Inserts (svc : Service) (inputs : Inputs) (now : ℤ) (call : Call) (t t' : Table)
    (r : Row) : Prop :=
  ∃ actorID req params token, call = .create actorID req .inserting ∧
    insertParams svc.deps svc.cfg inputs.toCreateInputs actorID req = .ok (params, token) ∧
    r = params.row now ∧ t.insert r = some t'

/-- What a step of a call does to the table. -/
inductive Writes (svc : Service) (inputs : Inputs) (now : ℤ) (call : Call) (t : Table) :
    Table → Prop
  | nothing : Writes svc inputs now call t t
  | statement (time : ℤ) (s : Statement) : Issues svc inputs now call time s →
      Writes svc inputs now call t (t.exec time s)
  | insert (t' : Table) (r : Row) : Inserts svc inputs now call t t' r →
      Writes svc inputs now call t t'

section advance
variable {svc : Service} {inputs : Inputs} {now : ℤ} {call call' : Call} {t t' : Table}

private theorem Attempted.writes {s : Statement} (h : Attempted now s t t')
    (hs : Issues svc inputs now call now s) : Writes svc inputs now call t t' := by
  rcases h with rfl | rfl
  · exact .nothing
  · exact .statement now s hs

private theorem create_writes {actorID : Text} {req : CreateRequest} :
    Writes svc inputs now (.create actorID req .inserting) t
      (svc.create inputs now t actorID req).1 := by
  unfold Service.create
  cases hparams : insertParams svc.deps svc.cfg inputs.toCreateInputs actorID req with
  | error => exact .nothing
  | ok p =>
      obtain ⟨params, token⟩ := p
      simp only
      cases hinsert : t.insert (params.row now) with
      | none => exact .nothing
      | some t' =>
          simp only
          rcases inputs.database.table_eq t t' with h | h <;> rw [h]
          · exact .nothing
          · exact .insert t' _ ⟨actorID, req, params, token, rfl, hparams, rfl, hinsert⟩

private theorem consume_writes {token password : Text} {phase phase' : ConsumePhase}
    (h : ConsumeStep svc inputs now token password t phase t' phase') :
    Writes svc inputs now (.consume token password phase) t t' := by
  cases h with
  | found | mismatched | unfound | unleased | decrypted | undecrypted => exact .nothing
  | counted tokenHash hash _ _ h => exact h.writes (.counting token password tokenHash hash)
  | leaseLost tokenHash hash leaseID _ _ hlease h =>
      exact h.writes (.leasing token password tokenHash hash leaseID hlease)
  | leased tokenHash hash leaseID _ hlease =>
      exact .statement now _ (.leasing token password tokenHash hash leaseID hlease)
  | restored item leaseID _ _ h => exact h.writes (.restoring token password item leaseID)
  | uncompleted item leaseID plaintext _ _ h =>
      exact h.writes (.completing token password item leaseID plaintext)
  | completed item leaseID plaintext =>
      exact .statement now _ (.completing token password item leaseID plaintext)

/-- The table changes by the statement of the step, or by an INSERT. -/
theorem advance_writes (h : call.advance svc inputs now t = some (t', call')) :
    Writes svc inputs now call t t' := by
  cases call with
  | create actorID req phase =>
      cases phase with
      | inserting =>
          rw [← (Prod.mk.inj (Option.some.inj h)).1]
          exact create_writes
      | created | refused | abandoned => cases h
  | consume token password phase =>
      obtain ⟨⟨_, phase'⟩, hr, heq⟩ := Option.map_eq_some_iff.mp h
      cases heq
      exact consume_writes (consume_step hr)
  | revoke id phase =>
      obtain ⟨⟨_, phase'⟩, hr, heq⟩ := Option.map_eq_some_iff.mp h
      cases heq
      cases revoke_step hr with
      | revoked => exact .statement now _ (.revoking id)
      | unanswered _ htable => exact htable.writes (.revoking id)
      | unmatched _ htable => exact htable.writes (.revoking id)
      | read | absent | unread => exact .nothing
  | protect id password phase =>
      cases phase with
      | updating =>
          simp only [Call.advance, Service.protect] at h
          cases hhash : svc.protectionHash inputs password with
          | error e =>
              rw [hhash] at h
              cases h
              exact .nothing
          | ok hash =>
              rw [hhash] at h
              rw [← (Prod.mk.inj (Option.some.inj h)).1]
              exact Attempted.writes (inputs.database.table_eq _ _)
                (.protecting id password hash hhash)
      | answered | refused | abandoned => cases h
  | cleanup phase =>
      cases phase with
      | starting =>
          simp only [Call.advance, Service.cleanup] at h
          split at h
          · cases h
            exact .nothing
          · cases h
            exact .statement now _ .expiring
      | restoring start expired =>
          cases h
          exact .statement start _ (.givingBack start expired)
      | blanking start expired restored =>
          cases h
          exact .statement start _ (.blanking start expired restored)
      | finished | failed | abandoned => cases h

/-- A call that is a read after its step was one before. -/
theorem advance_eq_consume {token password : Text} {phase' : ConsumePhase}
    (h : call.advance svc inputs now t = some (t', .consume token password phase')) :
    ∃ phase, call = .consume token password phase ∧
      svc.consume inputs now t token password phase = some (t', phase') := by
  cases call with
  | consume _ _ phase =>
      obtain ⟨⟨_, _⟩, hr, heq⟩ := Option.map_eq_some_iff.mp h
      cases heq
      exact ⟨phase, rfl, hr⟩
  | create _ _ phase => cases phase <;> cases h
  | revoke | protect | cleanup =>
      obtain ⟨_, _, heq⟩ := Option.map_eq_some_iff.mp h
      cases heq

theorem advance_consume {token password : Text} {phase' : ConsumePhase}
    (h : call.advance svc inputs now t = some (t', .consume token password phase')) :
    ∃ phase, call = .consume token password phase ∧
      ConsumeStep svc inputs now token password t phase t' phase' := by
  obtain ⟨phase, hcall, hconsume⟩ := advance_eq_consume h
  exact ⟨phase, hcall, consume_step hconsume⟩

theorem advance_revoke {id : UUID} {phase' : RevokePhase}
    (h : call.advance svc inputs now t = some (t', .revoke id phase')) :
    ∃ phase, call = .revoke id phase ∧ RevokeStep now id t phase t' phase' := by
  cases call with
  | revoke _ phase =>
      obtain ⟨⟨_, _⟩, hr, heq⟩ := Option.map_eq_some_iff.mp h
      cases heq
      exact ⟨phase, rfl, revoke_step hr⟩
  | create _ _ phase => cases phase <;> cases h
  | consume | protect | cleanup =>
      obtain ⟨_, _, heq⟩ := Option.map_eq_some_iff.mp h
      cases heq

theorem abandon_consume {token password : Text} {phase' : ConsumePhase}
    (h : call.abandon = some (.consume token password phase')) : phase' = .abandoned := by
  cases call with
  | consume _ _ phase => cases phase <;> cases h <;> rfl
  | create _ _ phase => cases phase <;> cases h
  | revoke _ phase => cases phase <;> cases h
  | protect _ _ phase => cases phase <;> cases h
  | cleanup phase => cases phase <;> cases h

theorem abandon_revoke {id : UUID} {phase' : RevokePhase}
    (h : call.abandon = some (.revoke id phase')) : phase' = .abandoned := by
  cases call with
  | revoke _ phase => cases phase <;> cases h <;> rfl
  | create _ _ phase => cases phase <;> cases h
  | consume _ _ phase => cases phase <;> cases h
  | protect _ _ phase => cases phase <;> cases h
  | cleanup phase => cases phase <;> cases h

end advance

/-- The steps of the system. -/
inductive Taken (svc : Service) (s : State) : Action → State → Prop
  | tick (elapsed : ℕ) : Taken svc s (.tick elapsed) { s with clock := s.clock + elapsed }
  | spawn (request : Request) :
      Taken svc s (.spawn request) { s with calls := s.calls ++ [request.call] }
  | advance (i : ℕ) (inputs : Inputs) (call call' : Call) (t : Table) :
      s.calls[i]? = some call → (∀ leaseID ∈ call.drawnLease inputs, leaseID ∉ s.leases) →
      call.advance svc inputs s.clock s.table = some (t, call') →
      Taken svc s (.advance i inputs)
        { s with
          table := t
          calls := s.calls.set i call'
          leases := (call.drawnLease inputs).toList ++ s.leases }
  | abandon (i : ℕ) (call call' : Call) : s.calls[i]? = some call → call.abandon = some call' →
      Taken svc s (.abandon i) { s with calls := s.calls.set i call' }

theorem step_taken {svc : Service} {s s' : State} {a : Action} (h : step svc s a = some s') :
    Taken svc s a s' := by
  cases a with
  | tick elapsed =>
      cases h
      exact .tick elapsed
  | spawn request =>
      cases h
      exact .spawn request
  | advance i inputs =>
      obtain ⟨call, hcall, h⟩ := Option.bind_eq_some_iff.mp h
      split_ifs at h with hfresh
      obtain ⟨⟨t, call'⟩, hadvance, rfl⟩ := Option.map_eq_some_iff.mp h
      exact .advance i inputs call call' t hcall
        (fun leaseID hdrawn hmem => hfresh (by
          rw [Option.mem_def.mp hdrawn, Option.any_some]
          exact decide_eq_true hmem)) hadvance
  | abandon i =>
      obtain ⟨call, hcall, h⟩ := Option.bind_eq_some_iff.mp h
      obtain ⟨call', habandon, rfl⟩ := Option.map_eq_some_iff.mp h
      exact .abandon i call call' hcall habandon

section step
variable {svc : Service} {s s' : State} {a : Action}

/-- Where the next state of a call comes from. -/
inductive CallStep (svc : Service) (s s' : State) (i : ℕ) (call' : Call) : Action → Prop
  | same (a : Action) : s.calls[i]? = some call' → CallStep svc s s' i call' a
  | spawned (request : Request) : s.calls[i]? = none → call' = request.call →
      CallStep svc s s' i call' (.spawn request)
  | advanced (inputs : Inputs) (call : Call) : s.calls[i]? = some call →
      (∀ leaseID ∈ call.drawnLease inputs, leaseID ∉ s.leases) →
      s'.leases = (call.drawnLease inputs).toList ++ s.leases →
      call.advance svc inputs s.clock s.table = some (s'.table, call') →
      CallStep svc s s' i call' (.advance i inputs)
  | abandoned (call : Call) : s.calls[i]? = some call → call.abandon = some call' →
      CallStep svc s s' i call' (.abandon i)

private theorem getElem?_set_cases {calls : List Call} {i j : ℕ} {call call' : Call}
    (h : (calls.set j call)[i]? = some call') : i = j ∧ call' = call ∨ calls[i]? = some call' := by
  rw [List.getElem?_set] at h
  split_ifs at h with hij hlt
  · exact .inl ⟨hij.symm, (Option.some.inj h).symm⟩
  · exact .inr h

theorem step_call (h : step svc s a = some s') {i : ℕ} {call' : Call}
    (hcall' : s'.calls[i]? = some call') : CallStep svc s s' i call' a := by
  cases step_taken h with
  | tick elapsed => exact .same _ hcall'
  | spawn request =>
      by_cases hlt : i < s.calls.length
      · exact .same _ (by rwa [List.getElem?_append_left hlt] at hcall')
      · refine .spawned request (List.getElem?_eq_none (by omega)) ?_
        rw [List.getElem?_append_right (by omega), List.getElem?_singleton] at hcall'
        split_ifs at hcall'
        exact (Option.some.inj hcall').symm
  | advance j inputs call call'' t hcall hfresh hadvance =>
      rcases getElem?_set_cases hcall' with ⟨rfl, rfl⟩ | hsame
      · exact .advanced inputs call hcall hfresh rfl hadvance
      · exact .same _ hsame
  | abandon j call call'' hcall habandon =>
      rcases getElem?_set_cases hcall' with ⟨rfl, rfl⟩ | hsame
      · exact .abandoned call hcall habandon
      · exact .same _ hsame

theorem step_call_exists (h : step svc s a = some s') {i : ℕ} {call : Call}
    (hcall : s.calls[i]? = some call) : ∃ call', s'.calls[i]? = some call' := by
  have hlt : i < s.calls.length := (List.getElem?_eq_some_iff.mp hcall).1
  have hlt' : i < s'.calls.length := by
    cases step_taken h with
    | tick => exact hlt
    | spawn =>
        rw [List.length_append]
        omega
    | advance | abandon => rwa [List.length_set]
  exact ⟨s'.calls[i], List.getElem?_eq_getElem hlt'⟩

/-- A call that can take no step stays as it is. -/
theorem settled_stays {i : ℕ} {call : Call} (h : Reachable (step svc) s s')
    (hcall : s.calls[i]? = some call)
    (hadvance : ∀ inputs now t, call.advance svc inputs now t = none)
    (habandon : call.abandon = none) : s'.calls[i]? = some call := by
  refine h.preserves (P := fun u => u.calls[i]? = some call) hcall ?_
  intro u a v hu hstep
  obtain ⟨call', hcall'⟩ := step_call_exists hstep hu
  rw [hcall']
  cases step_call hstep hcall' with
  | same _ hsame => exact hsame.symm.trans hu
  | spawned _ hnone =>
      rw [hu] at hnone
      cases hnone
  | advanced inputs call₀ hcall₀ _ _ hadvanced =>
      rw [hu] at hcall₀
      cases hcall₀
      rw [hadvance] at hadvanced
      cases hadvanced
  | abandoned call₀ hcall₀ habandoned =>
      rw [hu] at hcall₀
      cases hcall₀
      rw [habandon] at habandoned
      cases habandoned

/-- Where the next state of a row comes from. -/
inductive RowStep (svc : Service) (s s' : State) (id : UUID) : Action → Prop
  | same (a : Action) : s'.table.find id = s.table.find id → RowStep svc s s' id a
  | written (i : ℕ) (inputs : Inputs) (call : Call) (time : ℤ) (stmt : Statement) :
      s.calls[i]? = some call → Issues svc inputs s.clock call time stmt →
      s'.table.find id = (s.table.find id).map (stmt.exec time) →
      RowStep svc s s' id (.advance i inputs)
  | inserted (i : ℕ) (inputs : Inputs) (call : Call) (r : Row) : s.calls[i]? = some call →
      Inserts svc inputs s.clock call s.table s'.table r → r.id = id → s.table.find id = none →
      s'.table.find id = some r → RowStep svc s s' id (.advance i inputs)

theorem step_row (h : step svc s a = some s') (id : UUID) : RowStep svc s s' id a := by
  cases step_taken h with
  | tick | spawn | abandon => exact .same _ rfl
  | advance i inputs call call' t hcall _ hadvance =>
      cases advance_writes hadvance with
      | nothing => exact .same _ rfl
      | statement time stmt hstmt =>
          exact .written i inputs call time stmt hcall hstmt (Table.find_exec time stmt s.table id)
      | insert _ r hinserts =>
          obtain ⟨actorID, req, params, token, hcreate, hparams, hr, hinsert⟩ := hinserts
          have hfind := Table.find_insert hinsert id
          by_cases hid : id = r.id
          · rw [if_pos hid] at hfind
            refine .inserted i inputs call r hcall
              ⟨actorID, req, params, token, hcreate, hparams, hr, hinsert⟩ hid.symm ?_ hfind
            rw [hid]
            exact Table.insert_new hinsert
          · rw [if_neg hid] at hfind
            exact .same _ hfind

/-- A row that exists stays, and a statement is all that can happen to it. -/
theorem step_find {id : UUID} {r : Row} (h : step svc s a = some s')
    (hr : s.table.find id = some r) : s'.table.find id = some r ∨
      ∃ i inputs call time stmt, a = .advance i inputs ∧ s.calls[i]? = some call ∧
        Issues svc inputs s.clock call time stmt ∧ stmt.Guard time r ∧
        s'.table.find id = some (stmt.set time r) := by
  cases step_row h id with
  | same _ hsame => exact .inl (hsame.trans hr)
  | written i inputs call time stmt hcall hstmt hfind =>
      rw [hr, Option.map_some] at hfind
      by_cases hguard : stmt.Guard time r
      · rw [Statement.exec_of_guard hguard] at hfind
        exact .inr ⟨i, inputs, call, time, stmt, rfl, hcall, hstmt, hguard, hfind⟩
      · rw [Statement.exec_of_not_guard hguard] at hfind
        exact .inl hfind
  | inserted i inputs call r' _ _ _ hnone _ =>
      rw [hnone] at hr
      cases hr

theorem find_init (clock : ℤ) (id : UUID) : (State.init clock).table.find id = none := rfl

theorem call_init (clock : ℤ) (i : ℕ) : (State.init clock).calls[i]? = none := rfl

theorem step_clock (h : step svc s a = some s') : s.clock ≤ s'.clock := by
  cases step_taken h with
  | tick elapsed => exact Int.le_add_of_nonneg_right (Int.natCast_nonneg elapsed)
  | spawn | advance | abandon => exact le_rfl

/-- What every request inserts with, and every statement keeps, holds of every row. -/
theorem reachable_row {P : Row → Prop} {clock : ℤ}
    (h : Reachable (step svc) (State.init clock) s)
    (inserted : ∀ inputs actorID req params token now, insertParams svc.deps svc.cfg inputs
      actorID req = .ok (params, token) → P (params.row now))
    (kept : ∀ now stmt r, P r → P (Statement.exec now stmt r)) {id : UUID} {r : Row}
    (hr : s.table.find id = some r) : P r := by
  refine h.preserves (P := fun u => ∀ r, u.table.find id = some r → P r) ?_ ?_ r hr
  · intro r hr
    rw [find_init] at hr
    cases hr
  intro u a v hu hstep r hr
  cases step_row hstep id with
  | same _ hsame => exact hu r (hsame.symm.trans hr)
  | written i inputs call time stmt _ _ hfind =>
      rw [hfind, Option.map_eq_some_iff] at hr
      obtain ⟨r', hr', rfl⟩ := hr
      exact kept time stmt r' (hu r' hr')
  | inserted i inputs call r' _ hinserts _ _ hfind =>
      obtain ⟨actorID, req, params, token, _, hparams, rfl, _⟩ := hinserts
      rw [hfind] at hr
      rw [← Option.some.inj hr]
      exact inserted _ actorID req params token u.clock hparams

/-- The row comes from an accepted request. -/
def Stored (svc : Service) (r : Row) : Prop :=
  ∃ inputs actorID req params token created, insertParams svc.deps svc.cfg inputs actorID req =
    .ok (params, token) ∧ Represents (params.row created) r

theorem stored_of_reachable {clock : ℤ} (h : Reachable (step svc) (State.init clock) s)
    {id : UUID} {r : Row} (hr : s.table.find id = some r) : Stored svc r := by
  refine reachable_row h ?_ ?_ hr
  · intro inputs actorID req params token now hparams
    obtain ⟨p, haccepts⟩ := insertParams_spec hparams
    exact ⟨inputs, actorID, req, params, token, now, hparams,
      represents_row now haccepts.maxFailedAttempts_pos.1⟩
  · rintro now stmt r ⟨inputs, actorID, req, params, token, created, hparams, hr⟩
    exact ⟨inputs, actorID, req, params, token, created, hparams, hr.exec now stmt⟩

end step
end SecureShare.Delivery
