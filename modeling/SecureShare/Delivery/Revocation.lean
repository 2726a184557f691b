import SecureShare.Delivery.Simulation
import SecureShare.Delivery.StateMachine

/-!
# Revoking and revealing

A revoke call is an UPDATE and, unless that matched, a SELECT; everything else may
run in between. It excludes a reveal, and what it reports is final.
-/
namespace SecureShare.Delivery
open Go Library Library.Transition

section revoke
variable {svc : Service} {s t : State} {clock : ℤ} {d : UUID}

theorem won_settled {c : Call} (h : c.Won d) :
    (∀ svc inputs now t, c.advance svc inputs now t = none) ∧ c.abandon = none := by
  rcases h with ⟨_, _, _, _, rfl, _⟩ | ⟨_, rfl, _⟩ <;> exact ⟨fun _ _ _ _ => rfl, rfl⟩

/-- A terminal status stays. -/
theorem terminal_stays (h : Reachable (step svc) s t) {r : Row} (hr : s.table.find d = some r)
    (hterminal : r.status.terminal = true) :
    ∃ r', t.table.find d = some r' ∧ r'.status = r.status := by
  refine h.preserves (P := fun u => ∃ r', u.table.find d = some r' ∧ r'.status = r.status)
    ⟨r, hr, rfl⟩ ?_
  rintro u a v ⟨r', hr', hstatus⟩ hstep
  rcases step_find hstep hr' with hsame | ⟨_, _, _, time, stmt, _, _, _, hguard, hset⟩
  · exact ⟨r', hsame, hstatus⟩
  · have habsorbed := exec_absorbed (hstatus ▸ hterminal) time stmt
    rw [Statement.exec_of_guard hguard] at habsorbed
    obtain ⟨_, _, _, heq⟩ := habsorbed
    exact ⟨_, hset, by rw [heq]; exact hstatus⟩

/-- What a revoke call may report about the row as it is. -/
def Honest (r : Row) : RevokePhase → Prop
  | .reading => r.status.terminal = true
  | .answered result => result.found = true →
    result.status = some r.status ∧ r.status.terminal = true
  | .updating | .failed | .abandoned => True

theorem not_revocable {now : ℤ} {r : Row} (hid : r.id = d)
    (h : ¬(Statement.revoke d).Guard now r) : r.status.terminal = true := by
  cases hs : r.status with
  | active => exact absurd ⟨hid, .inl hs⟩ h
  | consuming => exact absurd ⟨hid, .inr hs⟩ h
  | consumed | expired | revoked => rfl

theorem Honest.status {r r' : Row} {phase : RevokePhase} (h : Honest r phase)
    (hstatus : r.status.terminal = true → r'.status = r.status) : Honest r' phase := by
  cases phase with
  | reading => exact (congrArg Status.terminal (hstatus h)).trans h
  | answered result =>
      intro hfound
      obtain ⟨hresult, hterminal⟩ := h hfound
      rw [hstatus hterminal]
      exact ⟨hresult, hterminal⟩
  | updating | failed | abandoned => trivial

theorem RevokeStep.honest {now : ℤ} {u v : Table} {phase phase' : RevokePhase} {r r' : Row}
    (h : RevokeStep now d u phase v phase') (hr : u.find d = some r) (hr' : v.find d = some r')
    (hhonest : Honest r phase) (hstatus : r.status.terminal = true → r'.status = r.status) :
    Honest r' phase' := by
  cases h with
  | revoked r₀ hr₀ hguard =>
      rw [hr] at hr₀
      cases hr₀
      rw [Table.find_exec, hr, Option.map_some, Statement.exec_of_guard hguard] at hr'
      cases hr'
      exact fun _ => ⟨rfl, rfl⟩
  | unanswered | unread => trivial
  | unmatched _ _ hnone =>
      have hterminal := not_revocable (Table.find_id hr) (hnone r hr)
      exact (congrArg Status.terminal (hstatus hterminal)).trans hterminal
  | read r₀ hr₀ =>
      rw [hr] at hr₀
      cases hr₀
      intro _
      rw [hstatus hhonest]
      exact ⟨rfl, hhonest⟩
  | absent => exact nofun

/-- A revoke call whose UPDATE runs when the row exists reports honestly. -/
theorem honest_of_reachable (h : Reachable (step svc) s t) {r : Row}
    (hr : s.table.find d = some r) {i : ℕ}
    (hbefore : ∀ phase, s.calls[i]? = some (.revoke d phase) → phase = .updating) :
    ∃ r', t.table.find d = some r' ∧
      ∀ phase, t.calls[i]? = some (.revoke d phase) → Honest r' phase := by
  refine h.preserves (P := fun u => ∃ r', u.table.find d = some r' ∧
    ∀ phase, u.calls[i]? = some (.revoke d phase) → Honest r' phase) ⟨r, hr, ?_⟩ ?_
  · intro phase hphase
    rw [hbefore phase hphase]
    trivial
  rintro u a v ⟨r', hr', hhonest⟩ hstep
  obtain ⟨r'', hr'', hstatus⟩ : ∃ r'', v.table.find d = some r'' ∧
      (r'.status.terminal = true → r''.status = r'.status) := by
    rcases step_find hstep hr' with hsame | ⟨_, _, _, _, _, _, _, _, _, hset⟩
    · exact ⟨r', hsame, fun _ => rfl⟩
    · refine ⟨_, hset, fun hterminal => ?_⟩
      obtain ⟨r'', hr'', hstatus⟩ := terminal_stays (.of_step hstep) hr' hterminal
      rw [hset] at hr''
      cases hr''
      exact hstatus
  refine ⟨r'', hr'', fun phase hphase => ?_⟩
  cases step_call hstep hphase with
  | same _ hsame => exact (hhonest phase hsame).status hstatus
  | spawned request _ heq =>
      cases request <;> cases heq
      trivial
  | advanced inputs call hcall _ _ hadvance =>
      obtain ⟨phase₀, rfl, hrevoke⟩ := advance_revoke hadvance
      exact hrevoke.honest hr' hr'' (hhonest phase₀ hcall) hstatus
  | abandoned call _ habandon =>
      rw [abandon_revoke habandon]
      trivial

/-- Revoke and reveal exclude each other, only one revoke call reports that it
revoked, and the status that is reported is terminal and stays. -/
theorem revoke_excludes_reveal (h : Reachable (step svc) (State.init clock) s) {r : Row}
    (hr : s.table.find d = some r) (k : Reachable (step svc) s t) :
    (∀ (i : ℕ) (c : Call) (u : State), t.calls[i]? = some c → c.Won d →
      Reachable (step svc) t u → u.calls[i]? = some c) ∧
    (∀ (i j : ℕ) (c c' : Call), t.calls[i]? = some c → c.Revoked d → t.calls[j]? = some c' →
      ¬c'.Delivered d) ∧
    (∀ (i j : ℕ) (c c' : Call), t.calls[i]? = some c → c.Revoked d → t.calls[j]? = some c' →
      c'.Revoked d → i = j) ∧
    ∀ (i : ℕ) (result : RevokeResult), (∀ phase, s.calls[i]? = some (.revoke d phase) → phase = .updating) →
      t.calls[i]? = some (.revoke d (.answered result)) → result.found = true →
      ∃ status, result.status = some status ∧ status.terminal = true ∧
        ∀ u, Reachable (step svc) t u → ∃ r', u.table.find d = some r' ∧ r'.status = status := by
  have hunique := (fencing_inv (h.trans k) d).finished_unique
  refine ⟨?_, ?_, ?_, ?_⟩
  · intro i c u hc hwon hu
    obtain ⟨hadvance, habandon⟩ := won_settled hwon
    exact settled_stays hu hc (hadvance svc) habandon
  · intro i j c c' hc hrevoked hc' hdelivered
    have hij : i = j := hunique i j ⟨c, hc, .inr hrevoked⟩ ⟨c', hc', .inl hdelivered⟩
    subst hij
    rw [hc] at hc'
    cases hc'
    obtain ⟨_, rfl, _⟩ := hrevoked
    obtain ⟨_, _, _, _, heq, _⟩ := hdelivered
    cases heq
  · intro i j c c' hc hrevoked hc' hrevoked'
    exact hunique i j ⟨c, hc, .inr hrevoked⟩ ⟨c', hc', .inr hrevoked'⟩
  · intro i result hbefore hresult hfound
    obtain ⟨r', hr', hhonest⟩ := honest_of_reachable k hr hbefore
    obtain ⟨hstatus, hterminal⟩ := hhonest _ hresult hfound
    exact ⟨r'.status, hstatus, hterminal, fun u hu => terminal_stays hu hr' hterminal⟩

/-- A reader holds the lease when the sample delivery is revoked. -/
theorem revoke_excludes_reveal_sample :
    ∃ t, Reachable (step sampleService) (State.init 0) t ∧
      t.calls[2]? = some (.revoke 7 (.answered ⟨7, some .revoked, true, true⟩)) ∧
      (∀ (j : ℕ) (c : Call), t.calls[j]? = some c → ¬c.Delivered 7) ∧
      ∃ status : Status, status.terminal = true ∧ ∀ u, Reachable (step sampleService) t u →
        ∃ r', u.table.find 7 = some r' ∧ r'.status = status := by
  have hrun : (run (step sampleService) (State.init 0) sampleLeasing).map
      (fun s => ((s.table.find 7).isSome, s.calls[2]?)) = some (true, none) := by
    decide +kernel
  have hrun' : (run (step sampleService) (State.init 0)
      (sampleLeasing ++ [.spawn (.revoke 7), .advance 2 (sampleAnswers none)])).map
      (fun s => s.calls[2]?) =
      some (some (.revoke 7 (.answered ⟨7, some .revoked, true, true⟩))) := by
    decide +kernel
  obtain ⟨s, hs, hread⟩ := Option.map_eq_some_iff.mp hrun
  obtain ⟨t, ht, hcall⟩ := Option.map_eq_some_iff.mp hrun'
  rw [run_append, hs, Option.bind_some] at ht
  obtain ⟨hsome, hnone⟩ := Prod.mk.inj hread
  obtain ⟨r, hr⟩ := Option.isSome_iff_exists.mp hsome
  obtain ⟨_, hexcludes, _, hreported⟩ := revoke_excludes_reveal (.of_run hs) hr (.of_run ht)
  obtain ⟨status, _, hterminal, hstays⟩ :=
    hreported 2 _ (fun phase hphase => by rw [hnone] at hphase; cases hphase) hcall rfl
  exact ⟨t, (Reachable.of_run hs).trans (.of_run ht), hcall,
    fun j c hc => hexcludes 2 j _ c hcall ⟨_, rfl, rfl⟩ hc, status, hterminal, hstays⟩

end revoke
end SecureShare.Delivery
