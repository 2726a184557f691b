import SecureShare.Delivery.Undisturbed

/-!
# Preparing and revealing

Before the page of a recipient offers to reveal a link it asks whether that may be
attempted, and forgets the token if not. The question and the look-up of `Consume` are
different queries: only the look-up counts a stale lease as none. A token for which the
look-up finds nothing tells nobody why, and does nothing.
-/
namespace SecureShare.Delivery
open Go Library.Transition

namespace Service
variable (svc : Service) (inputs : Inputs) (now : ℤ) (t : Table)

/-- `Service.Prepare` -/
def prepare (token : Text) : Option PrepareResponse :=
  match svc.deps.tokenHMAC svc.cfg.tokenHMACPepper token with
  | none => some ⟨false, false, none⟩
  | some tokenHash => inputs.database.answer (Repository.prepare t now tokenHash)

/-- What `FindConsumeCandidate` finds for a token. -/
def candidate (token : Text) : Option ConsumeCandidate :=
  (svc.deps.tokenHMAC svc.cfg.tokenHMACPepper token).bind fun tokenHash =>
    Repository.findConsumeCandidate t now tokenHash svc.cfg.consumingLeaseTTL

end Service

/-- The states of the page that `prepare` of `reveal.js` leaves it in. -/
inductive PageState where
  | ready (passwordShown : Bool)
  | unavailable
  | networkError
  deriving DecidableEq, Repr

/-- `prepare` of `reveal.js`, with the token that the page keeps; an answer that is no
success has no body. -/
def pagePrepare (token : Text) (answer : Option PrepareResponse) : Text × PageState :=
  if token = [] then ([], .unavailable)
  else match answer with
    | none => (token, .networkError)
    | some body =>
      if body.mayAttempt then (token, .ready body.passwordRequired) else ([], .unavailable)

section queries
variable {t : Table} {r : Row} {now : ℤ}

/-- At most one row has the token. -/
theorem Table.find?_token (hr : r ∈ t.rows) (P : Row → Prop) [DecidablePred P] :
    (t.rows.find? fun r' => r'.tokenHash = r.tokenHash ∧ P r') = if P r then some r else none := by
  split_ifs with hP
  · exact find?_of_tokenHash (find_eq_some.mpr ⟨hr, rfl⟩) ⟨rfl, hP⟩ fun r' h => h.1
  · rw [List.find?_eq_none]
    intro r' hr' h
    obtain ⟨htoken, hP'⟩ : r'.tokenHash = r.tokenHash ∧ P r' := by simpa using h
    rw [List.inj_on_of_nodup_map t.tokenHashes hr' hr htoken] at hP'
    exact hP hP'

theorem findConsumeCandidate_eq (hr : r ∈ t.rows) (leaseTTL : Duration) :
    Repository.findConsumeCandidate t now r.tokenHash leaseTTL =
      if r.Available leaseTTL.int64Seconds now then some r.candidate else none := by
  rw [Repository.findConsumeCandidate, Table.find?_token hr]
  split_ifs <;> rfl

/-- The condition of the query of `Prepare`. -/
def Row.Attemptable (now : ℤ) (r : Row) : Prop :=
  r.status = .active ∧ now < r.expiresAt ∧ r.failedAttempts < r.maxFailedAttempts

instance (now : ℤ) (r : Row) : Decidable (r.Attemptable now) := by
  unfold Row.Attemptable
  infer_instance

theorem prepare_eq (hr : r ∈ t.rows) : Repository.prepare t now r.tokenHash =
    if r.Attemptable now then ⟨true, r.passwordHash.isSome, some r.expiresAt⟩
    else ⟨false, false, none⟩ := by
  rw [Repository.prepare, Table.find?_token hr fun r => r.status = .active ∧ now < r.expiresAt ∧
    r.failedAttempts < r.maxFailedAttempts]
  by_cases h : r.Attemptable now
  · rw [if_pos h, if_pos (show _ ∧ _ from h)]
  · rw [if_neg h, if_neg (show ¬(_ ∧ _) from h)]

theorem find?_unknown {tokenHash : Bytes} (h : ∀ r ∈ t.rows, r.tokenHash ≠ tokenHash)
    (P : Row → Prop) [DecidablePred P] :
    (t.rows.find? fun r => r.tokenHash = tokenHash ∧ P r) = none := by
  rw [List.find?_eq_none]
  intro r hr hP
  obtain ⟨htoken, _⟩ : r.tokenHash = tokenHash ∧ P r := by simpa using hP
  exact h r hr htoken

/-- Whatever may be attempted can be leased. -/
theorem Row.Attemptable.available (h : r.Attemptable now) (leaseSeconds : ℤ) :
    r.Available leaseSeconds now := ⟨h.2.1, h.2.2, .inl h.1⟩

end queries

section agreement
variable {svc : Service} {s : State} {clock now : ℤ}

/-- `Prepare` says of the token at this instant what `Consume` would find. -/
structure PrepareAgrees (svc : Service) (t : Table) (now : ℤ) (token : Text) : Prop where
  attempt : ∀ inputs body, inputs.database = .answered →
    svc.prepare inputs now t token = some body →
    (body.mayAttempt = true ↔ ∃ item, svc.candidate now t token = some item)
  password : ∀ inputs body item, inputs.database = .answered →
    svc.prepare inputs now t token = some body → svc.candidate now t token = some item →
    (body.passwordRequired = true ↔ ∃ hash, item.passwordHash = some hash)
  page : ∀ inputs item, inputs.database = .answered → svc.candidate now t token = some item →
    (pagePrepare token (svc.prepare inputs now t token)).1 = token

/-- A reader took the lease so long ago that it counts as gone, and never came back. -/
def LeftBehind (svc : Service) (t : Table) (now : ℤ) (token : Text) : Prop :=
  ∃ r ∈ t.rows, svc.deps.tokenHMAC svc.cfg.tokenHMACPepper token = some r.tokenHash ∧
    r.status = .consuming ∧ r.LeaseStale svc.cfg.consumingLeaseTTL.int64Seconds now ∧
    now < r.expiresAt

/-- What the two queries make of a token. -/
inductive TokenFate (svc : Service) (inputs : Inputs) (now : ℤ) (t : Table) (token : Text) : Prop
  | unknown : (∀ r ∈ t.rows, svc.deps.tokenHMAC svc.cfg.tokenHMACPepper token ≠ some r.tokenHash) →
      svc.prepare inputs now t token = some ⟨false, false, none⟩ →
      svc.candidate now t token = none → TokenFate svc inputs now t token
  | known (r : Row) : r ∈ t.rows →
      svc.deps.tokenHMAC svc.cfg.tokenHMACPepper token = some r.tokenHash →
      svc.prepare inputs now t token = some (if r.Attemptable now then
        ⟨true, r.passwordHash.isSome, some r.expiresAt⟩ else ⟨false, false, none⟩) →
      (svc.candidate now t token = if r.Available svc.cfg.consumingLeaseTTL.int64Seconds now then
        some r.candidate else none) → TokenFate svc inputs now t token

theorem tokenFate {inputs : Inputs} (hdatabase : inputs.database = .answered) (now : ℤ) (t : Table)
    (token : Text) : TokenFate svc inputs now t token := by
  cases htoken : svc.deps.tokenHMAC svc.cfg.tokenHMACPepper token with
  | none =>
      refine .unknown (fun r _ => by rw [htoken]; exact fun h => by cases h) ?_ ?_
      · rw [Service.prepare, htoken]
      · rw [Service.candidate, htoken, Option.bind_none]
  | some tokenHash =>
      have hprepare : svc.prepare inputs now t token =
          some (Repository.prepare t now tokenHash) := by
        rw [Service.prepare, htoken]
        simp only [hdatabase, Outcome.answer]
      have hcandidate : svc.candidate now t token =
          Repository.findConsumeCandidate t now tokenHash svc.cfg.consumingLeaseTTL := by
        rw [Service.candidate, htoken, Option.bind_some]
      by_cases hknown : ∃ r ∈ t.rows, r.tokenHash = tokenHash
      · obtain ⟨r, hr, rfl⟩ := hknown
        rw [prepare_eq hr] at hprepare
        rw [findConsumeCandidate_eq hr] at hcandidate
        exact .known r hr htoken hprepare hcandidate
      · have hunknown : ∀ r ∈ t.rows, r.tokenHash ≠ tokenHash :=
          fun r hr heq => hknown ⟨r, hr, heq⟩
        refine .unknown (fun r hr => ?_) ?_ ?_
        · rw [htoken, Ne, Option.some.injEq]
          exact (hunknown r hr).symm
        · rw [hprepare, Repository.prepare, find?_unknown hunknown fun r => r.status = .active ∧
            now < r.expiresAt ∧ r.failedAttempts < r.maxFailedAttempts]
        · rw [hcandidate, Repository.findConsumeCandidate, find?_unknown hunknown, Option.map_none]

/-- A delivery that can be leased although it may not be attempted. -/
theorem leftBehind_of_available {r : Row}
    (havailable : r.Available svc.cfg.consumingLeaseTTL.int64Seconds now)
    (hattempt : ¬r.Attemptable now) :
    r.status = .consuming ∧ r.LeaseStale svc.cfg.consumingLeaseTTL.int64Seconds now ∧
      now < r.expiresAt := by
  obtain ⟨hexpires, hfailed, hactive | ⟨hconsuming, hstale⟩⟩ := havailable
  · exact absurd ⟨hactive, hexpires, hfailed⟩ hattempt
  · exact ⟨hconsuming, hstale, hexpires⟩

/-- The two queries agree on a token, at any instant, exactly if no reader left its delivery
behind. -/
theorem prepare_agrees_iff (h : Reachable (step svc) (State.init clock) s) (now : ℤ)
    (token : Text) : PrepareAgrees svc s.table now token ↔ ¬LeftBehind svc s.table now token := by
  constructor
  · rintro hagrees ⟨r, hr, htoken, hconsuming, hstale, hexpires⟩
    obtain ⟨_, _, _, _, _, _, _, hrep⟩ :=
      stored_of_reachable h (Table.find_eq_some.mpr ⟨hr, rfl⟩)
    have havailable : r.Available svc.cfg.consumingLeaseTTL.int64Seconds now :=
      ⟨hexpires, (hrep.live (.inr hconsuming)).2, .inr ⟨hconsuming, hstale⟩⟩
    have hattempt : ¬r.Attemptable now := by
      rintro ⟨hactive, _⟩
      rw [hconsuming] at hactive
      cases hactive
    have hprepare : svc.prepare (sampleAnswers none) now s.table token =
        some ⟨false, false, none⟩ := by
      rw [Service.prepare, htoken]
      simp only [prepare_eq hr, if_neg hattempt]
      rfl
    have hcandidate : svc.candidate now s.table token = some r.candidate := by
      rw [Service.candidate, htoken, Option.bind_some, findConsumeCandidate_eq hr,
        if_pos havailable]
    cases (hagrees.attempt _ _ rfl hprepare).mpr ⟨_, hcandidate⟩
  · intro hnone
    constructor
    case attempt =>
      intro inputs body hdatabase hbody
      obtain ⟨_, hprepare, hcandidate⟩ | ⟨r, hr, htoken, hprepare, hcandidate⟩ :
          TokenFate svc inputs now s.table token := tokenFate hdatabase now s.table token
      · cases hbody.symm.trans hprepare
        simp [hcandidate]
      · cases hbody.symm.trans hprepare
        by_cases hattempt : r.Attemptable now
        · simp [hcandidate, hattempt, hattempt.available]
        · have hunavailable : ¬r.Available svc.cfg.consumingLeaseTTL.int64Seconds now :=
            fun havailable => hnone ⟨r, hr, htoken, leftBehind_of_available havailable hattempt⟩
          simp [hcandidate, hattempt, hunavailable]
    case password =>
      intro inputs body item hdatabase hbody hitem
      obtain ⟨_, _, hcandidate⟩ | ⟨r, hr, htoken, hprepare, hcandidate⟩ :
          TokenFate svc inputs now s.table token := tokenFate hdatabase now s.table token
      · rw [hcandidate] at hitem
        cases hitem
      · rw [hcandidate] at hitem
        split_ifs at hitem with havailable
        cases hitem
        by_cases hattempt : r.Attemptable now
        · cases hbody.symm.trans hprepare
          simp [hattempt, Row.candidate, Option.isSome_iff_exists]
        · exact absurd ⟨r, hr, htoken, leftBehind_of_available havailable hattempt⟩ hnone
    case page =>
      intro inputs item hdatabase hitem
      obtain ⟨_, _, hcandidate⟩ | ⟨r, hr, htoken, hprepare, hcandidate⟩ :
          TokenFate svc inputs now s.table token := tokenFate hdatabase now s.table token
      · rw [hcandidate] at hitem
        cases hitem
      · rw [hcandidate] at hitem
        split_ifs at hitem with havailable
        by_cases hattempt : r.Attemptable now
        · rw [hprepare, if_pos hattempt]
          by_cases hempty : token = []
          · simp [pagePrepare, hempty]
          · simp [pagePrepare, hempty]
        · exact absurd ⟨r, hr, htoken, leftBehind_of_available havailable hattempt⟩ hnone

theorem prepare_agrees_iff_sample :
    ∃ s, Reachable (step sampleService) (State.init 0) s ∧
      PrepareAgrees sampleService s.table 0 ['t'] := by
  have hrun : (run (step sampleService) (State.init 0) sampleCreation).map (fun s =>
      s.table.rows.map Row.status) = some [.active] := by
    decide +kernel
  obtain ⟨s, hs, hrows⟩ := Reachable.of_map hrun
  refine ⟨s, hs, (prepare_agrees_iff hs 0 ['t']).mpr ?_⟩
  rintro ⟨r, hr, _, hconsuming, _⟩
  have hstatus : r.status ∈ s.table.rows.map Row.status := List.mem_map_of_mem hr
  rw [hrows, hconsuming] at hstatus
  cases List.mem_singleton.mp hstatus

/-- A reader leased the sample and never came back. Thirty-one seconds later the page drops
the token of a delivery that the next `Consume` would return. -/
theorem token_dropped :
    ∃ s, Reachable (step sampleService) (State.init 0) s ∧
      sampleService.prepare (sampleAnswers none) s.clock s.table ['t'] =
        some ⟨false, false, none⟩ ∧
      sampleService.candidate s.clock s.table ['t'] = some sampleItem ∧
      (pagePrepare ['t'] (sampleService.prepare (sampleAnswers none) s.clock s.table ['t'])).1 = [] ∧
      ¬PrepareAgrees sampleService s.table s.clock ['t'] := by
  have hrun : (run (step sampleService) (State.init 0) (sampleLeasing ++ [.tick 31000000])).map
      (fun s => (sampleService.prepare (sampleAnswers none) s.clock s.table ['t'],
        sampleService.candidate s.clock s.table ['t'])) =
      some (some ⟨false, false, none⟩, some sampleItem) := by
    decide +kernel
  obtain ⟨s, hs, hread⟩ := Reachable.of_map hrun
  obtain ⟨hprepare, hcandidate⟩ := Prod.mk.inj hread
  refine ⟨s, hs, hprepare, hcandidate, ?_, fun hagrees => ?_⟩
  · rw [hprepare]
    rfl
  · cases (hagrees.attempt _ _ rfl hprepare).mpr ⟨_, hcandidate⟩

end agreement
end SecureShare.Delivery
