import SecureShare.Delivery.Steps
import SecureShare.Library.Fencing

/-!
# A delivery as a resource behind fencing tokens

The lease IDs are the tokens, the readers and the revokers the participants, and
to finish is to return the plaintext or to report that the delivery was revoked.
The lemmas here say what a step of one call is in that protocol, for each kind
of step: without effect on who may win, taking a lease, and winning.
-/
namespace SecureShare.Delivery
open Go Library Library.Transition Function

/-- The lease that the row carries. -/
def Row.holder (r : Row) : Option UUID :=
  if r.status = .consuming then r.consumingLeaseID else none

namespace ConsumePhase

/-- The delivery that the call has leased and may still complete or restore. -/
def leased : ConsumePhase → Option (ConsumeCandidate × UUID)
  | .decrypting item leaseID | .restoring item leaseID | .completing item leaseID _ =>
    some (item, leaseID)
  | .finding | .failing _ _ | .leasing _ _ | .delivered _ _ | .refused _ | .abandoned => none

/-- The call has had its one chance to take a lease. -/
def past : ConsumePhase → Bool
  | .finding | .failing _ _ | .leasing _ _ => false
  | .decrypting _ _ | .restoring _ _ | .completing _ _ _ | .delivered _ _ | .refused _
  | .abandoned => true

/-- The call has returned the plaintext. -/
def hasDelivered : ConsumePhase → Bool
  | .delivered _ _ => true
  | .finding | .failing _ _ | .leasing _ _ | .decrypting _ _ | .restoring _ _
  | .completing _ _ _ | .refused _ | .abandoned => false

end ConsumePhase

/-- The call has reported that it revoked the delivery. -/
def RevokePhase.hasRevoked : RevokePhase → Bool
  | .answered result => result.revoked
  | .updating | .reading | .failed | .abandoned => false

namespace Call

/-- The lease of the delivery that the call may still use. -/
def held (d : UUID) : Call → Option UUID
  | .consume _ _ phase => (phase.leased.filter fun l => l.1.id = d).map Prod.snd
  | .create _ _ _ | .revoke _ _ | .protect _ _ _ | .cleanup _ => none

def past : Call → Bool
  | .consume _ _ phase => phase.past
  | .create _ _ _ | .revoke _ _ | .protect _ _ _ | .cleanup _ => false

/-- The call returned the plaintext of the delivery. -/
def Delivered (d : UUID) (c : Call) : Prop :=
  ∃ token password item response,
    c = .consume token password (.delivered item response) ∧ item.id = d

/-- The call reported that it revoked the delivery. -/
def Revoked (d : UUID) (c : Call) : Prop :=
  ∃ result, c = .revoke d (.answered result) ∧ result.revoked = true

/-- The call decided the fate of the delivery. -/
def Won (d : UUID) (c : Call) : Prop := c.Delivered d ∨ c.Revoked d

end Call

/-- The lease of a delivery. -/
def Table.holder (t : Table) (d : UUID) : Option UUID := (t.find d).bind Row.holder

/-- No reader can get the delivery any more. -/
def Table.closed (t : Table) (d : UUID) : Bool := (t.find d).any fun r => r.status.terminal

/-- The state of one delivery as a resource behind fencing tokens. -/
def fencing (d : UUID) (s : State) : Fencing.State ℕ UUID where
  holder := s.table.holder d
  closed := s.table.closed d
  issued := {leaseID | leaseID ∈ s.leases}
  started := {i | ∃ c, s.calls[i]? = some c ∧ c.past = true}
  held := fun i => s.calls[i]?.bind (Call.held d)
  finished := {i | ∃ c, s.calls[i]? = some c ∧ c.Won d}

section abstraction
variable {d : UUID} {s : State} {i : ℕ} {c c' : Call}

theorem fencing_init (d : UUID) (clock : ℤ) : Fencing.Inv (fencing d (State.init clock)) := by
  apply Fencing.Inv.init
  · rfl
  · exact fun i => rfl
  · exact Set.eq_empty_of_forall_notMem fun i ⟨c, hc, _⟩ => by cases hc

private theorem mem_set {P : Call → Prop} (hc : s.calls[i]? = some c) (hmono : P c → P c')
    (j : ℕ) : (∃ e, (s.calls.set i c')[j]? = some e ∧ P e) ↔
      j = i ∧ P c' ∨ ∃ e, s.calls[j]? = some e ∧ P e := by
  have hlt : i < s.calls.length := (List.getElem?_eq_some_iff.mp hc).1
  rw [List.getElem?_set]
  rcases eq_or_ne i j with rfl | hij
  · rw [if_pos rfl, if_pos hlt]
    constructor
    · rintro ⟨e, he, hP⟩
      cases he
      exact .inl ⟨rfl, hP⟩
    · rintro (⟨_, hP⟩ | ⟨e, he, hP⟩)
      · exact ⟨c', rfl, hP⟩
      · rw [hc] at he
        cases he
        exact ⟨c', rfl, hmono hP⟩
  · rw [if_neg hij]
    constructor
    · exact .inr
    · rintro (⟨rfl, _⟩ | h)
      · exact absurd rfl hij
      · exact h

/-- What a step of one call changes in the abstract state. -/
theorem fencing_set (hc : s.calls[i]? = some c) (hpast : c.past = true → c'.past = true)
    (hwon : c.Won d → c'.Won d) (t : Table) (drawn : List UUID) :
    fencing d { s with table := t, calls := s.calls.set i c', leases := drawn ++ s.leases } =
      { holder := t.holder d
        closed := t.closed d
        issued := {leaseID | leaseID ∈ drawn} ∪ (fencing d s).issued
        started := {j | j = i ∧ c'.past = true} ∪ (fencing d s).started
        held := update (fencing d s).held i (c'.held d)
        finished := {j | j = i ∧ c'.Won d} ∪ (fencing d s).finished } := by
  have hlt : i < s.calls.length := (List.getElem?_eq_some_iff.mp hc).1
  rw [fencing, Fencing.State.mk.injEq]
  refine ⟨rfl, rfl, ?_, ?_, ?_, ?_⟩
  · ext leaseID
    simp [fencing]
  · ext j
    exact mem_set (P := fun e => e.past = true) hc hpast j
  · funext j
    rw [List.getElem?_set]
    rcases eq_or_ne i j with rfl | hij
    · simp [hlt]
    · simp [hij, Ne.symm hij, fencing]
  · ext j
    exact mem_set (P := Call.Won d) hc hwon j

private theorem join_eq_insert {S : Set ℕ} {p : Prop} (h : p) :
    {j | j = i ∧ p} ∪ S = insert i S := by
  ext j
  simp [h]

private theorem join_eq_self {S : Set ℕ} {p : Prop} (h : p → i ∈ S) : {j | j = i ∧ p} ∪ S = S := by
  refine Set.union_eq_right.mpr ?_
  rintro j ⟨rfl, hp⟩
  exact h hp

private theorem held_eq (hc : s.calls[i]? = some c) : (fencing d s).held i = c.held d := by
  simp [fencing, hc]

private theorem not_started (hc : s.calls[i]? = some c) (hpast : c.past = false) :
    i ∉ (fencing d s).started := by
  rintro ⟨e, he, hp⟩
  rw [hc] at he
  cases he
  rw [hpast] at hp
  cases hp

/-- The statement writes a lease ID. -/
def Statement.takesLease : Statement → Bool
  | .beginConsume _ _ _ _ => true
  | .recordPasswordFailure _ _ _ | .updatePasswordProtection _ _ | .restoreConsume _ _
  | .completeConsume _ _ | .revoke _ | .expireActive | .restoreStale _ | .blankRetained _ _ _ =>
    false

/-- A table that changes without a new lease: the old one may go, and the delivery
may be closed. -/
def Effect (d : UUID) (t t' : Table) : Prop :=
  (t'.holder d = t.holder d ∧ t'.closed d = t.closed d) ∨
    (t'.holder d = none ∧ (t'.closed d = t.closed d ∨ t'.closed d = true))

theorem Effect.of_find {t t' : Table} (h : t'.find d = t.find d) : Effect d t t' :=
  .inl ⟨by rw [Table.holder, Table.holder, h], by rw [Table.closed, Table.closed, h]⟩

theorem effect_set {stmt : Statement} {now : ℤ} {r : Row} (hguard : stmt.Guard now r)
    (hlease : stmt.takesLease = false) :
    ((stmt.set now r).holder = r.holder ∧ (stmt.set now r).status.terminal = r.status.terminal) ∨
      ((stmt.set now r).holder = none ∧
        ((stmt.set now r).status.terminal = r.status.terminal ∨
          (stmt.set now r).status.terminal = true)) := by
  cases stmt with
  | beginConsume => cases hlease
  | recordPasswordFailure =>
      by_cases hlast : r.LastAttempt
      · exact .inr ⟨by simp [Statement.set, hlast, Row.holder],
          .inr (by simp [Statement.set, hlast, Status.terminal])⟩
      · refine .inr ⟨by simp [Statement.set, hlast, Row.holder], ?_⟩
        rcases hguard.2.2.2.2 with hs | ⟨hs, _⟩ <;>
          exact .inl (by simp [Statement.set, hlast, hs, Status.terminal])
  | updatePasswordProtection | blankRetained => exact .inl ⟨rfl, rfl⟩
  | restoreConsume =>
      exact .inr ⟨by simp [Statement.set, Row.holder], .inl (by rw [hguard.2.1]; rfl)⟩
  | restoreStale => exact .inr ⟨by simp [Statement.set, Row.holder], .inl (by rw [hguard.1]; rfl)⟩
  | completeConsume | revoke | expireActive =>
      exact .inr ⟨by simp [Statement.set, Row.holder], .inr rfl⟩

theorem effect_exec (d : UUID) {stmt : Statement} (now : ℤ) (t : Table)
    (hlease : stmt.takesLease = false) : Effect d t (t.exec now stmt) := by
  have hfind := Table.find_exec now stmt t d
  cases hr : t.find d with
  | none => exact .of_find (by rw [hfind, hr, Option.map_none])
  | some r =>
      rw [hr, Option.map_some] at hfind
      by_cases hguard : stmt.Guard now r
      · rw [Statement.exec_of_guard hguard] at hfind
        simpa [Effect, Table.holder, Table.closed, hr, hfind] using effect_set hguard hlease
      · rw [Statement.exec_of_not_guard hguard] at hfind
        exact .of_find (hfind.trans hr.symm)

theorem effect_insert {svc : Service} {inputs : Inputs} {now : ℤ} {t t' : Table} {r : Row}
    (h : Inserts svc inputs now c t t' r) : Effect d t t' := by
  obtain ⟨_, _, params, _, _, _, rfl, hinsert⟩ := h
  have hfind := Table.find_insert hinsert d
  split_ifs at hfind with hid
  · have hnone : t.find d = none := by
      rw [hid]
      exact Table.insert_new hinsert
    left
    rw [Table.holder, Table.holder, Table.closed, Table.closed, hfind, hnone]
    exact ⟨rfl, rfl⟩
  · exact .of_find hfind

theorem Attempted.effect {stmt : Statement} {now : ℤ} {t t' : Table} (h : Attempted now stmt t t')
    (hlease : stmt.takesLease = false) : Effect d t t' := by
  rcases h with rfl | rfl
  · exact .of_find rfl
  · exact effect_exec d now t hlease

private theorem Effect.path {A : Fencing.State ℕ UUID} {t t' : Table} (h : Effect d t t')
    (hholder : A.holder = t.holder d) (hclosed : A.closed = t.closed d) :
    Relation.ReflTransGen Fencing.Step A
      { A with holder := t'.holder d, closed := t'.closed d } := by
  rcases h with ⟨h, k⟩ | ⟨h, k | k⟩
  · rw [h, k, ← hholder, ← hclosed]
  · rw [h, k, ← hclosed]
    exact .single (.release A)
  · rw [h, k]
    exact .single (.close A)

/-- The call keeps what it holds of the delivery, or gives up. -/
def Quiet (d : UUID) (c c' : Call) : Prop :=
  (c'.held d = c.held d ∧ c'.past = c.past) ∨ (c'.held d = none ∧ c'.past = true)

/-- A step without a new lease and without a winner. -/
theorem path_quiet (hc : s.calls[i]? = some c) (hquiet : Quiet d c c') (hwon : ¬c.Won d)
    (hwon' : ¬c'.Won d) {t : Table} (heffect : Effect d s.table t) (drawn : Option UUID) :
    Relation.ReflTransGen Fencing.Step (fencing d s)
      (fencing d { s with
        table := t, calls := s.calls.set i c', leases := drawn.toList ++ s.leases }) := by
  have hpast : c.past = true → c'.past = true := by
    rcases hquiet with ⟨_, h⟩ | ⟨_, h⟩
    · exact fun hp => h.trans hp
    · exact fun _ => h
  rw [fencing_set hc hpast (fun h => absurd h hwon)]
  have hissue : Relation.ReflTransGen Fencing.Step (fencing d s)
      { fencing d s with
        issued := {leaseID | leaseID ∈ drawn.toList} ∪ (fencing d s).issued } := by
    cases drawn with
    | none => simpa using .refl
    | some leaseID => simpa using .single (.issue (fencing d s) leaseID)
  refine hissue.trans ((heffect.path rfl rfl).trans ?_)
  rw [join_eq_self fun h => absurd h hwon']
  rcases hquiet with ⟨hheld, hp⟩ | ⟨hheld, hp⟩
  · rw [join_eq_self (S := (fencing d s).started) fun h => ⟨c, hc, hp ▸ h⟩, hheld, ← held_eq hc, update_eq_self]
  · rw [join_eq_insert hp, hheld]
    exact .single (.forget _ i)

/-- A lease that took effect; its answer may have been lost. -/
theorem path_acquire (hc : s.calls[i]? = some c) (hpast : c.past = false) (hpast' : c'.past = true)
    (hwon : ¬c.Won d) (hwon' : ¬c'.Won d) {leaseID : UUID} (hfresh : leaseID ∉ s.leases)
    (hheld : c'.held d = some leaseID ∨ c'.held d = none) {t : Table}
    (hopen : s.table.closed d = false) (hopen' : t.closed d = false)
    (hholder : t.holder d = some leaseID) :
    Relation.ReflTransGen Fencing.Step (fencing d s)
      (fencing d { s with
        table := t, calls := s.calls.set i c', leases := [leaseID] ++ s.leases }) := by
  rw [fencing_set hc (fun _ => hpast') (fun h => absurd h hwon)]
  have hacquire := Fencing.Step.acquire (fencing d s) i leaseID hopen hfresh
    (not_started hc hpast)
  have hissued : {l | l ∈ [leaseID]} ∪ (fencing d s).issued =
      insert leaseID (fencing d s).issued := by
    ext l
    simp
  have hclosed : t.closed d = (fencing d s).closed := hopen'.trans hopen.symm
  rw [hissued, join_eq_insert hpast', join_eq_self fun h => absurd h hwon', hholder, hclosed]
  rcases hheld with hheld | hheld
  · rw [hheld]
    exact .single hacquire
  · rw [hheld]
    refine (Relation.ReflTransGen.single hacquire).tail ?_
    have hforget := Fencing.Step.forget { fencing d s with
      holder := some leaseID
      issued := insert leaseID (fencing d s).issued
      started := insert i (fencing d s).started
      held := update (fencing d s).held i (some leaseID) } i
    simpa only [update_idem, Set.insert_idem] using hforget

/-- The reader that still carries the lease returns the plaintext. -/
theorem step_finish (hc : s.calls[i]? = some c) (hpast : c'.past = true) (hcpast : c.past = true)
    (hwon : ¬c.Won d) (hwon' : c'.Won d) {leaseID : UUID} (hheld : c.held d = some leaseID)
    (hheld' : c'.held d = none) {t : Table} (hholder : s.table.holder d = some leaseID)
    (hholder' : t.holder d = none) (hclosed' : t.closed d = true) :
    Fencing.Step (fencing d s)
      (fencing d { s with table := t, calls := s.calls.set i c', leases := [] ++ s.leases }) := by
  rw [fencing_set hc (fun _ => hpast) (fun h => absurd h hwon)]
  have hissued : {l | l ∈ ([] : List UUID)} ∪ (fencing d s).issued = (fencing d s).issued := by
    simp
  rw [hissued, join_eq_self (S := (fencing d s).started) fun _ => ⟨c, hc, hcpast⟩,
    join_eq_insert hwon', hheld', hholder', hclosed']
  exact .finish (fencing d s) i leaseID ((held_eq hc).trans hheld) hholder

/-- A revoker that finds the delivery open reports that it revoked it. -/
theorem step_seize (hc : s.calls[i]? = some c) (hpast : c.past = false) (hpast' : c'.past = false)
    (hwon : ¬c.Won d) (hwon' : c'.Won d) (hheld : c'.held d = c.held d) {t : Table}
    (hopen : s.table.closed d = false) (hholder : t.holder d = none)
    (hclosed : t.closed d = true) :
    Fencing.Step (fencing d s)
      (fencing d { s with table := t, calls := s.calls.set i c', leases := [] ++ s.leases }) := by
  rw [fencing_set hc (fun h => by rw [hpast] at h; cases h) (fun h => absurd h hwon)]
  have hissued : {l | l ∈ ([] : List UUID)} ∪ (fencing d s).issued = (fencing d s).issued := by
    simp
  have hstarted : {j | j = i ∧ c'.past = true} ∪ (fencing d s).started =
      (fencing d s).started := by
    simp [hpast']
  rw [hissued, hstarted, join_eq_insert hwon', hheld, ← held_eq hc, update_eq_self, hholder,
    hclosed]
  exact .seize (fencing d s) i hopen (not_started hc hpast)

end abstraction
end SecureShare.Delivery
