import SecureShare.Delivery.LeaseToken

/-!
# The service simulates the fencing protocol

Every step of the system is, for each delivery, a path of the fencing protocol.
The steps of readers, of revokers and of all other calls are treated in turn.
-/
namespace SecureShare.Delivery
open Go Library Library.Transition

theorem not_won_consume {d : UUID} {token password : Text} {phase : ConsumePhase}
    (h : phase.hasDelivered = false) : ¬(Call.consume token password phase).Won d := by
  rintro (⟨_, _, item, response, heq, _⟩ | ⟨_, heq, _⟩)
  · cases heq
    cases h
  · cases heq

theorem not_won_revoke {d id : UUID} {phase : RevokePhase} (h : phase.hasRevoked = false) :
    ¬(Call.revoke id phase).Won d := by
  rintro (⟨_, _, _, _, heq, _⟩ | ⟨result, heq, hrevoked⟩)
  · cases heq
  · cases heq
    rw [RevokePhase.hasRevoked, hrevoked] at h
    cases h

theorem not_won_revoke_of_ne {d id : UUID} {phase : RevokePhase} (h : id ≠ d) :
    ¬(Call.revoke id phase).Won d := by
  rintro (⟨_, _, _, _, heq, _⟩ | ⟨_, heq, _⟩) <;> cases heq
  exact h rfl

theorem not_won_create {d : UUID} {actorID : Text} {req : CreateRequest} {phase : CreatePhase} :
    ¬(Call.create actorID req phase).Won d := by
  rintro (⟨_, _, _, _, heq, _⟩ | ⟨_, heq, _⟩) <;> cases heq

theorem not_won_protect {d id : UUID} {password : Option Text} {phase : ProtectPhase} :
    ¬(Call.protect id password phase).Won d := by
  rintro (⟨_, _, _, _, heq, _⟩ | ⟨_, heq, _⟩) <;> cases heq

theorem not_won_cleanup {d : UUID} {phase : CleanupPhase} : ¬(Call.cleanup phase).Won d := by
  rintro (⟨_, _, _, _, heq, _⟩ | ⟨_, heq, _⟩) <;> cases heq

theorem Table.eq_of_tokenHash {t : Table} {id id' : UUID} {r r' : Row} (hr : t.find id = some r)
    (hr' : t.find id' = some r') (h : r.tokenHash = r'.tokenHash) : r = r' :=
  List.inj_on_of_nodup_map t.tokenHashes (find_eq_some.mp hr).1 (find_eq_some.mp hr').1 h

/-- Taking a lease matches the delivery, which is open before and after, or
leaves it alone. -/
theorem begin_cases (d : UUID) (t : Table) (now : ℤ) (tokenHash : Bytes) (hash : Option Text)
    (leaseID : UUID) (n : ℤ) :
    let stmt : Statement := .beginConsume tokenHash hash leaseID n
    (∃ r, t.find d = some r ∧ stmt.Guard now r ∧ t.closed d = false ∧
      (t.exec now stmt).closed d = false ∧ (t.exec now stmt).holder d = some leaseID) ∨
    ((∀ r, t.find d = some r → ¬stmt.Guard now r) ∧ (t.exec now stmt).find d = t.find d) := by
  intro stmt
  have hfind := Table.find_exec now stmt t d
  cases hr : t.find d with
  | none =>
      refine .inr ⟨?_, by rw [hfind, hr, Option.map_none]⟩
      intro r h
      cases h
  | some r =>
      rw [hr, Option.map_some] at hfind
      by_cases hguard : stmt.Guard now r
      · rw [Statement.exec_of_guard hguard] at hfind
        have hclosed : r.status.terminal = false := by
          rcases hguard.2.2.2.2 with hs | ⟨hs, _⟩ <;> rw [hs] <;> rfl
        refine .inl ⟨r, rfl, hguard, ?_, ?_, ?_⟩
        · rw [Table.closed, hr, Option.any_some, hclosed]
        · rw [Table.closed, hfind]
          rfl
        · rw [Table.holder, hfind]
          rfl
      · rw [Statement.exec_of_not_guard hguard] at hfind
        refine .inr ⟨?_, hfind⟩
        rintro r' ⟨⟩
        exact hguard

section simulation
variable {svc : Service} {d : UUID} {s : State} {i : ℕ}

private theorem consume_path {inputs : Inputs} {token password : Text}
    {phase phase' : ConsumePhase} {t : Table}
    (hc : s.calls[i]? = some (.consume token password phase))
    (hfresh : ∀ leaseID ∈ (Call.consume token password phase).drawnLease inputs,
      leaseID ∉ s.leases)
    (hstep : ConsumeStep svc inputs s.clock token password s.table phase t phase') :
    Relation.ReflTransGen Fencing.Step (fencing d s)
      (fencing d { s with
        table := t
        calls := s.calls.set i (.consume token password phase')
        leases := ((Call.consume token password phase).drawnLease inputs).toList ++ s.leases }) := by
  have hgiveUp : ∀ c : Call, ∀ e, Quiet d c (.consume token password (.refused e)) :=
    fun c e => .inr ⟨rfl, rfl⟩
  have hsame : Effect d s.table s.table := .of_find rfl
  cases hstep with
  | found | mismatched =>
      refine path_quiet hc ?_ (not_won_consume rfl) (not_won_consume rfl) hsame none
      exact .inl ⟨rfl, rfl⟩
  | unfound e =>
      exact path_quiet hc (hgiveUp _ e) (not_won_consume rfl) (not_won_consume rfl) hsame none
  | counted tokenHash hash t' e htable =>
      exact path_quiet hc (hgiveUp _ e) (not_won_consume rfl) (not_won_consume rfl)
        (htable.effect rfl) none
  | unleased tokenHash hash e hlease =>
      exact path_quiet hc (hgiveUp _ e) (not_won_consume rfl) (not_won_consume rfl) hsame _
  | leaseLost tokenHash hash leaseID t' e hlease htable =>
      have hquiet : Effect d s.table t → _ := fun heffect =>
        path_quiet hc (hgiveUp _ e) (not_won_consume rfl) (not_won_consume rfl) heffect
          ((Call.consume token password (.leasing tokenHash hash)).drawnLease inputs)
      rcases htable with rfl | rfl
      · exact hquiet hsame
      · rcases begin_cases d s.table s.clock tokenHash hash leaseID
          svc.cfg.consumingLeaseTTL.int64Seconds with ⟨r, _, _, hopen, hopen', hholder⟩ | ⟨_, hfind⟩
        · have hdrawn : (Call.consume token password (.leasing tokenHash hash)).drawnLease inputs =
              some leaseID := hlease
          rw [hdrawn]
          exact path_acquire hc rfl rfl (not_won_consume rfl) (not_won_consume rfl)
            (hfresh leaseID hdrawn) (.inr rfl) hopen hopen' hholder
        · exact hquiet (.of_find hfind)
  | leased tokenHash hash leaseID r hlease hr hguard =>
      have hdrawn : (Call.consume token password (.leasing tokenHash hash)).drawnLease inputs =
          some leaseID := hlease
      rw [hdrawn]
      rcases begin_cases d s.table s.clock tokenHash hash leaseID
          svc.cfg.consumingLeaseTTL.int64Seconds with
        ⟨r', hr', hguard', hopen, hopen', hholder⟩ | ⟨hunmatched, hfind⟩
      · have heq : r = r' := Table.eq_of_tokenHash hr hr' (hguard.1.trans hguard'.1.symm)
        have hid : r.id = d := heq ▸ Table.find_id hr'
        refine path_acquire hc rfl rfl (not_won_consume rfl) (not_won_consume rfl)
          (hfresh leaseID hdrawn) (.inl ?_) hopen hopen' hholder
        simp [Call.held, ConsumePhase.leased, Row.candidate, hid]
      · have hid : r.id ≠ d := fun hid => hunmatched r (hid ▸ hr) hguard
        refine path_quiet hc (.inr ⟨?_, rfl⟩) (not_won_consume rfl) (not_won_consume rfl)
          (.of_find hfind) (some leaseID)
        simp [Call.held, ConsumePhase.leased, Row.candidate, hid]
  | decrypted | undecrypted =>
      refine path_quiet hc ?_ (not_won_consume rfl) (not_won_consume rfl) hsame none
      exact .inl ⟨rfl, rfl⟩
  | restored item leaseID t' e htable =>
      exact path_quiet hc (hgiveUp _ e) (not_won_consume rfl) (not_won_consume rfl)
        (htable.effect rfl) none
  | uncompleted item leaseID plaintext t' e htable =>
      exact path_quiet hc (hgiveUp _ e) (not_won_consume rfl) (not_won_consume rfl)
        (htable.effect rfl) none
  | completed item leaseID plaintext canonical legacy r hr hguard _ =>
      have hfind := Table.find_exec s.clock (.completeConsume item.id leaseID) s.table d
      by_cases hid : item.id = d
      · subst hid
        rw [hr, Option.map_some, Statement.exec_of_guard hguard] at hfind
        have hheld : (Call.consume token password (.completing item leaseID plaintext)).held
            item.id = some leaseID := by
          simp [Call.held, ConsumePhase.leased]
        refine .single (step_finish hc rfl rfl (not_won_consume rfl) ?_ hheld rfl ?_ ?_ ?_)
        · exact .inl ⟨token, password, item, _, rfl, rfl⟩
        · rw [Table.holder, hr, Option.bind_some, Row.holder, if_pos hguard.2.1, hguard.2.2]
        · rw [Table.holder, hfind]
          rfl
        · rw [Table.closed, hfind]
          rfl
      · refine path_quiet hc (.inr ⟨?_, rfl⟩) (not_won_consume rfl) ?_ ?_ none
        · simp [Call.held, ConsumePhase.leased]
        · rintro (⟨_, _, item', _, heq, hitem⟩ | ⟨_, heq, _⟩)
          · cases heq
            exact hid hitem
          · cases heq
        · exact effect_exec d s.clock s.table rfl

private theorem revoke_path {id : UUID} {phase phase' : RevokePhase} {t : Table}
    (hc : s.calls[i]? = some (.revoke id phase))
    (hstep : RevokeStep s.clock id s.table phase t phase') :
    Relation.ReflTransGen Fencing.Step (fencing d s)
      (fencing d { s with
        table := t, calls := s.calls.set i (.revoke id phase'), leases := [] ++ s.leases }) := by
  have hquiet : ∀ p p', Quiet d (.revoke id p) (.revoke id p') := fun p p' => .inl ⟨rfl, rfl⟩
  have hsame : Effect d s.table s.table := .of_find rfl
  cases hstep with
  | revoked r hr hguard =>
      have hfind := Table.find_exec s.clock (.revoke id) s.table d
      by_cases hid : id = d
      · subst hid
        rw [hr, Option.map_some, Statement.exec_of_guard hguard] at hfind
        refine .single (step_seize hc rfl ?_ (not_won_revoke rfl) ?_ ?_ ?_ ?_ ?_)
        · rfl
        · exact .inr ⟨_, rfl, rfl⟩
        · rfl
        · rw [Table.closed, hr, Option.any_some]
          rcases hguard.2 with hs | hs <;> rw [hs] <;> rfl
        · rw [Table.holder, hfind]
          rfl
        · rw [Table.closed, hfind]
          rfl
      · exact path_quiet hc (hquiet _ _) (not_won_revoke rfl)
          (not_won_revoke_of_ne hid) (effect_exec d s.clock s.table rfl) none
  | unanswered _ htable =>
      exact path_quiet hc (hquiet _ _) (not_won_revoke rfl) (not_won_revoke rfl)
        (htable.effect rfl) none
  | unmatched _ htable =>
      exact path_quiet hc (hquiet _ _) (not_won_revoke rfl) (not_won_revoke rfl)
        (htable.effect rfl) none
  | read | absent =>
      exact path_quiet hc (hquiet _ _) (not_won_revoke rfl) (not_won_revoke rfl) hsame none
  | unread =>
      exact path_quiet hc (hquiet _ _) (not_won_revoke rfl) (not_won_revoke rfl) hsame none

/-- A call that neither reads nor revokes only writes by statements that take no
lease. -/
private theorem other_effect {inputs : Inputs} {c : Call} {t : Table}
    (hc : (∃ actorID req phase, c = .create actorID req phase) ∨
      (∃ id password phase, c = .protect id password phase) ∨ ∃ phase, c = .cleanup phase)
    (hwrites : Writes svc inputs s.clock c s.table t) : Effect d s.table t := by
  cases hwrites with
  | nothing => exact .of_find rfl
  | insert _ r h => exact effect_insert h
  | statement time stmt hstmt =>
      apply effect_exec
      rcases hc with ⟨_, _, _, rfl⟩ | ⟨_, _, _, rfl⟩ | ⟨_, rfl⟩ <;> cases hstmt <;> rfl

private theorem advance_path {inputs : Inputs} {c c' : Call} {t : Table}
    (hc : s.calls[i]? = some c) (hfresh : ∀ leaseID ∈ c.drawnLease inputs, leaseID ∉ s.leases)
    (h : c.advance svc inputs s.clock s.table = some (t, c')) :
    Relation.ReflTransGen Fencing.Step (fencing d s)
      (fencing d { s with
        table := t
        calls := s.calls.set i c'
        leases := (c.drawnLease inputs).toList ++ s.leases }) := by
  have hwrites := advance_writes h
  cases c with
  | create actorID req phase =>
      cases phase with
      | inserting =>
          cases h
          refine path_quiet hc ?_ not_won_create not_won_create
            (other_effect (.inl ⟨_, _, _, rfl⟩) hwrites) none
          exact .inl ⟨rfl, rfl⟩
      | created | refused | abandoned => cases h
  | consume token password phase =>
      obtain ⟨⟨_, phase'⟩, hr, heq⟩ := Option.map_eq_some_iff.mp h
      cases heq
      exact consume_path hc hfresh (consume_step hr)
  | revoke id phase =>
      obtain ⟨⟨_, phase'⟩, hr, heq⟩ := Option.map_eq_some_iff.mp h
      cases heq
      exact revoke_path hc (revoke_step hr)
  | protect id password phase =>
      obtain ⟨⟨_, phase'⟩, hr, heq⟩ := Option.map_eq_some_iff.mp h
      cases heq
      refine path_quiet hc ?_ not_won_protect not_won_protect
        (other_effect (.inr (.inl ⟨_, _, _, rfl⟩)) hwrites) none
      exact .inl ⟨rfl, rfl⟩
  | cleanup phase =>
      obtain ⟨⟨_, phase'⟩, hr, heq⟩ := Option.map_eq_some_iff.mp h
      cases heq
      refine path_quiet hc ?_ not_won_cleanup not_won_cleanup
        (other_effect (.inr (.inr ⟨_, rfl⟩)) hwrites) none
      exact .inl ⟨rfl, rfl⟩

private theorem abandon_path {c c' : Call} (hc : s.calls[i]? = some c) (h : c.abandon = some c') :
    Relation.ReflTransGen Fencing.Step (fencing d s)
      (fencing d { s with calls := s.calls.set i c' }) := by
  have hsame : Effect d s.table s.table := .of_find rfl
  cases c with
  | create actorID req phase =>
      cases phase <;> cases h
      refine path_quiet hc ?_ not_won_create not_won_create hsame none
      exact .inl ⟨rfl, rfl⟩
  | consume token password phase =>
      cases phase <;> cases h <;>
        exact path_quiet hc (.inr ⟨rfl, rfl⟩) (not_won_consume rfl) (not_won_consume rfl) hsame none
  | revoke id phase =>
      have hquiet : Quiet d (.revoke id phase) (.revoke id .abandoned) := .inl ⟨rfl, rfl⟩
      cases phase <;> cases h <;>
        exact path_quiet hc hquiet (not_won_revoke rfl) (not_won_revoke rfl) hsame none
  | protect id password phase =>
      cases phase <;> cases h
      refine path_quiet hc ?_ not_won_protect not_won_protect hsame none
      exact .inl ⟨rfl, rfl⟩
  | cleanup phase =>
      have hquiet : Quiet d (.cleanup phase) (.cleanup .abandoned) := .inl ⟨rfl, rfl⟩
      cases phase <;> cases h <;>
        exact path_quiet hc hquiet not_won_cleanup not_won_cleanup hsame none

end simulation

theorem fencing_spawn (d : UUID) (s : State) (request : Request) :
    fencing d { s with calls := s.calls ++ [request.call] } = fencing d s := by
  have hlookup : ∀ i c, (s.calls ++ [request.call])[i]? = some c ↔
      s.calls[i]? = some c ∨ i = s.calls.length ∧ c = request.call := by
    intro i c
    rcases lt_trichotomy i s.calls.length with hlt | rfl | hlt
    · rw [List.getElem?_append_left hlt]
      simp [hlt.ne]
    · simp [eq_comm]
    · rw [List.getElem?_eq_none (by simp; omega), List.getElem?_eq_none (by omega)]
      simp [hlt.ne']
  have hidle : request.call.past = false ∧ request.call.held d = none ∧ ¬request.call.Won d := by
    cases request with
    | create => exact ⟨rfl, rfl, not_won_create⟩
    | consume => exact ⟨rfl, rfl, not_won_consume rfl⟩
    | revoke => exact ⟨rfl, rfl, not_won_revoke rfl⟩
    | protect => exact ⟨rfl, rfl, not_won_protect⟩
    | cleanup => exact ⟨rfl, rfl, not_won_cleanup⟩
  rw [fencing, fencing, Fencing.State.mk.injEq]
  refine ⟨rfl, rfl, rfl, ?_, ?_, ?_⟩
  · ext i
    simp only [hlookup, Set.mem_ofPred_eq]
    constructor
    · rintro ⟨c, hc | ⟨_, rfl⟩, hpast⟩
      · exact ⟨c, hc, hpast⟩
      · rw [hidle.1] at hpast
        cases hpast
    · rintro ⟨c, hc, hpast⟩
      exact ⟨c, .inl hc, hpast⟩
  · funext i
    by_cases hlt : i < s.calls.length
    · rw [List.getElem?_append_left hlt]
    · rw [List.getElem?_append_right (by omega), List.getElem?_eq_none (by omega : _ ≤ i),
        List.getElem?_singleton]
      split_ifs
      · exact hidle.2.1
      · rfl
  · ext i
    simp only [hlookup, Set.mem_ofPred_eq]
    constructor
    · rintro ⟨c, hc | ⟨_, rfl⟩, hwon⟩
      · exact ⟨c, hc, hwon⟩
      · exact absurd hwon hidle.2.2
    · rintro ⟨c, hc, hwon⟩
      exact ⟨c, .inl hc, hwon⟩

/-- Each step of the system is a path of the fencing protocol of each delivery. -/
theorem step_fencing {svc : Service} {s s' : State} {a : Action} (d : UUID)
    (h : step svc s a = some s') :
    Relation.ReflTransGen Fencing.Step (fencing d s) (fencing d s') := by
  cases step_taken h with
  | tick => exact .refl
  | spawn request =>
      rw [fencing_spawn]
  | advance i inputs c c' t hc hfresh hadvance => exact advance_path hc hfresh hadvance
  | abandon i c c' hc habandon => exact abandon_path hc habandon

section runs
variable {svc : Service} {s t : State} {clock : ℤ} {d : UUID}

theorem fencing_path (h : Reachable (step svc) s t) (d : UUID) :
    Relation.ReflTransGen Fencing.Step (fencing d s) (fencing d t) :=
  h.simulate (I := fun _ => True) (fencing d) trivial (fun _ _ _ _ _ => trivial)
    fun _ _ _ _ hstep => step_fencing d hstep

theorem fencing_inv (h : Reachable (step svc) (State.init clock) s) (d : UUID) :
    Fencing.Inv (fencing d s) :=
  Fencing.path_inv (fencing_init d clock) (fencing_path h d)

end runs
end SecureShare.Delivery
