import SecureShare.Delivery.StoredPayload

/-!
# The legacy secret of a response

Beside the payload every response carries the secret in the older form: the bare
value for a request that came with one, and for structured fields an object from
names to values. Normalisation refuses two names that agree up to case, so the
object has one entry for each field.
-/
namespace SecureShare.Delivery
open Go Go.Json Library.Transition
open Library.Json (Lexeme Token textOf compacted IsValue decode_encode)

/-- An object with one string entry for each field, under its trimmed name. -/
def Projects (fields : List StructuredSecretField) (secret : Text) : Prop :=
  ∃ ls ms entries, scan secret = some ls ∧ view ls = .object ms ∧
    List.Forall₂ (fun m e => m.1 = e.1 ∧ view m.2 = .string e.2) ms entries ∧
    (entries.map Prod.fst).Nodup ∧
    entries.Perm (fields.map fun f => (trimSpace f.name, f.value))

/-- How the secret of a response answers a request. -/
structure LegacySecret (req : CreateRequest) (secret : Text) : Prop where
  value : req.payload = none → SameValue req.secret secret
  fields : ∀ payload ∈ req.payload, trimSpace (toLower payload.type) = "structured".toList →
    Projects payload.fields secret

theorem assign_perm {key : Text} (value : Text) {m : List (Text × Text)}
    (h : key ∉ m.map Prod.fst) : (assign key value m).Perm ((key, value) :: m) := by
  induction m with
  | nil => exact .refl _
  | cons e m ih =>
      obtain ⟨k, v⟩ := e
      rw [List.map_cons, List.mem_cons, not_or] at h
      rw [assign, if_neg h.1]
      split_ifs
      · exact .refl _
      · exact ((ih h.2).cons (k, v)).trans (.swap (key, value) (k, v) m)

/-- Names that differ are assigned without a loss. -/
theorem foldl_assign_perm {fields : List StructuredSecretField} {m : List (Text × Text)}
    (h : (m.map Prod.fst ++ fields.map (·.name)).Nodup) :
    (fields.foldl (fun m f => assign f.name f.value m) m).Perm
      (m ++ fields.map fun f => (f.name, f.value)) := by
  induction fields generalizing m with
  | nil => simp
  | cons f fields ih =>
      have hname : f.name ∉ m.map Prod.fst := fun hmem =>
        List.disjoint_of_nodup_append h hmem List.mem_cons_self
      have hassign := assign_perm f.value hname
      have hnodup : ((assign f.name f.value m).map Prod.fst ++ fields.map (·.name)).Nodup := by
        have hperm : (m.map Prod.fst ++ (f :: fields).map (·.name)).Perm
            ((assign f.name f.value m).map Prod.fst ++ fields.map (·.name)) :=
          List.perm_middle.trans ((hassign.map Prod.fst).symm.append_right _)
        exact hperm.nodup_iff.mp h
      rw [List.foldl_cons]
      exact (ih hnodup).trans ((hassign.append_right _).trans List.perm_middle.symm)

/-- The loop keeps the lower-case names apart. -/
theorem normalizeFields_nodup {seen : List Text} {fields out : List StructuredSecretField}
    (h : normalizeFields seen fields = some out) :
    (∀ f ∈ out, toLower f.name ∉ seen) ∧ (out.map fun f => toLower f.name).Nodup := by
  induction fields generalizing seen out with
  | nil =>
      cases h
      simp
  | cons f fields ih =>
      simp only [normalizeFields] at h
      split_ifs at h with _ hbad hbad
      all_goals
        rw [Option.map_eq_some_iff] at h
        obtain ⟨rest, hrest, rfl⟩ := h
        obtain ⟨hfresh, hnodup⟩ := ih hrest
        have hkey : toLower (trimSpace f.name) ∉ seen := fun hmem =>
          hbad (.inr (.inr (.inr (.inl hmem))))
        constructor
        · intro g hg
          rcases List.mem_cons.mp hg with rfl | hg
          · exact hkey
          · exact fun hmem => hfresh g hg (List.mem_cons_of_mem _ hmem)
        · rw [List.map_cons, List.nodup_cons]
          refine ⟨fun hmem => ?_, hnodup⟩
          obtain ⟨g, hg, heq⟩ := List.mem_map.mp hmem
          exact hfresh g hg (heq ▸ List.mem_cons_self)

theorem projects_structured {fields out : List StructuredSecretField}
    (h : normalizeFields [] fields = some out) {secret : Text}
    (hsecret : legacyProjection ⟨"structured".toList, out, [], []⟩ = some secret) :
    Projects fields secret := by
  let entries := out.foldl (fun m f => assign f.name f.value m) []
  obtain rfl : textOf (structTokens (entries.map fun m => (m.1, [stringToken m.2]))) = secret :=
    Option.some.inj hsecret
  have hnames : (out.map (·.name)).Nodup := by
    have hlower := (normalizeFields_nodup h).2
    rw [show (fun f : StructuredSecretField => toLower f.name) = toLower ∘ (·.name) from rfl,
      ← List.map_map] at hlower
    exact hlower.of_map
  have hperm : entries.Perm (out.map fun f => (f.name, f.value)) := foldl_assign_perm hnames
  have hpreserved : (out.map fun f => (f.name, f.value)) =
      fields.map fun f => (trimSpace f.name, f.value) := by
    symm
    rw [← List.forall₂_eq_eq_eq, List.forall₂_map_left_iff, List.forall₂_map_right_iff]
    exact (normalizeFields_preserves h).imp fun f g hfg => by rw [hfg.name, hfg.value]
  have hvalues : ∀ m ∈ entries.map fun m => (m.1, [stringToken m.2]),
      IsValue 0 m.2 := by
    intro m hm
    obtain ⟨e, _, rfl⟩ := List.mem_map.mp hm
    rfl
  refine ⟨_, _, entries, scan_textOf ((isValue_struct hvalues).mono (by decide)),
    view_struct hvalues, ?_, ?_, hpreserved ▸ hperm⟩
  · rw [List.map_map, List.forall₂_map_left_iff, List.forall₂_same]
    exact fun e _ => ⟨rfl, view_string e.2⟩
  · refine (hperm.map Prod.fst).nodup_iff.mpr ?_
    rw [List.map_map]
    exact hnames

/-- A bare value comes back as itself, whether it was stored as text or as JSON. -/
theorem sameValue_legacy {secret p : Text} {q n : SecretPayload} {s : PayloadSummary}
    (hraw : IsRawMessage secret) (hnull : secret ≠ "null".toList)
    (hq : legacyPayload secret = .ok q) (hn : normalizePayload q = .ok (n, s))
    (hp : n.marshal = some p) {legacy : Text}
    (hlegacy : legacyProjection n.compactValue = some legacy) : SameValue secret legacy := by
  unfold legacyPayload at hq
  split_ifs at hq with hvalid
  rw [Bool.not_eq_false] at hvalid
  obtain ⟨ls, hls⟩ := valid_iff.mp hvalid
  cases htext : unmarshalString secret with
  | some text =>
      rw [htext] at hq
      cases hq
      cases hn
      cases hlegacy
      rw [unmarshalString, hls, Option.bind_some, setString] at htext
      split at htext
      · next str hview =>
        cases htext
        obtain ⟨sp, ps, rest, rfl, hps⟩ := view_eq_string hview
        have hrest : rest.map Lexeme.token = [] := (isValue_of_scan hls).eq_singleton rfl
        refine ⟨_, _, hls, scan_textOf (isValue_string _ _), ?_⟩
        rw [List.map_cons, hrest]
        refine .cons (.inr ⟨ps, _, rfl, rfl, ?_⟩) .nil
        rw [hps, decode_encode]
        rfl
      · next hview =>
        obtain ⟨sp, rfl⟩ := view_eq_null hview (isValue_of_scan hls)
        exact absurd (eq_null_of_scan hraw hls) hnull
      · cases htext
  | none =>
      rw [htext] at hq
      cases hq
      have hpreserves := normalizePayload_preserves hn hp
      have hjson : trimSpace (toLower "json".toList) = "json".toList := by decide
      generalize n.compactValue = m at hpreserves hlegacy
      cases hpreserves with
      | structured _ htype | text htype => exact absurd (hjson.symm.trans htype) (by decide)
      | json value ls ls' _ hls hls' hsame =>
          cases hlegacy
          exact ⟨ls, ls', hls, hls', hsame⟩

/-- The canonical payload of a request answers it. -/
theorem legacySecret_of_canonical {req : CreateRequest} {p : Text} {s : PayloadSummary}
    (hraw : IsRawMessage req.secret) (h : canonicalPayload req = .ok (p, s))
    (hvalid : valid p = true) :
    ∃ secret, normalizeConsumedPayload p = some (p, secret) ∧ LegacySecret req secret := by
  obtain ⟨q, n, hq, hn, hp⟩ := canonicalPayload_spec h
  obtain ⟨secret, hsecret, hread⟩ :=
    normalizeConsumedPayload_marshal (normalized_of_normalizePayload hn) hp hvalid
  refine ⟨secret, hread, ?_, ?_⟩
  · intro hnone
    rw [requestedPayload, hnone] at hq
    dsimp only at hq
    split_ifs at hq with hempty
    rw [not_or] at hempty
    exact sameValue_legacy hraw hempty.2 hq hn hp hsecret
  · intro payload hpayload htype
    rw [requestedPayload, Option.mem_def.mp hpayload] at hq
    cases hq
    unfold normalizePayload at hn
    dsimp only at hn
    split_ifs at hn with hcount
    split at hn
    · cases hn
    · next fields hfields =>
      cases hn
      rw [compactValue_of_nil rfl] at hsecret
      exact projects_structured hfields hsecret

section main
variable {svc : Service} {u v : State} {a : Action}

/-- The step at which a create call is answered has stored its delivery. -/
theorem created_of_step {j : ℕ} {actorID : Text} {req : CreateRequest} {answer : CreateResponse}
    (h : step svc u a = some v)
    (hbefore : u.calls[j]? ≠ some (.create actorID req (.created answer)))
    (hafter : v.calls[j]? = some (.create actorID req (.created answer))) :
    ∃ inputs params token, insertParams svc.deps svc.cfg inputs actorID req =
        .ok (params, token) ∧ u.table.find answer.id = none ∧
      v.table.find answer.id = some (params.row u.clock) := by
  cases step_call h hafter with
  | same _ hsame => exact absurd hsame hbefore
  | spawned request _ heq => cases request <;> cases heq
  | abandoned call _ habandon =>
      cases call with
      | create _ _ phase | revoke _ phase | protect _ _ phase | cleanup phase
      | consume _ _ phase => cases phase <;> cases habandon
  | advanced inputs call _ _ _ hadvance =>
      cases call with
      | revoke | protect | cleanup | consume =>
          obtain ⟨_, _, heq⟩ := Option.map_eq_some_iff.mp hadvance
          cases (Prod.mk.inj heq).2
      | create actorID' req' phase =>
          cases phase with
          | created | refused | abandoned => cases hadvance
          | inserting =>
              obtain ⟨htable, hcall⟩ := Prod.mk.inj (Option.some.inj hadvance)
              obtain ⟨rfl, rfl, hphase⟩ := Call.create.inj hcall
              unfold Service.create at htable hphase
              cases hparams : insertParams svc.deps svc.cfg inputs.toCreateInputs actorID' req' with
              | error => simp [hparams] at hphase
              | ok r =>
                  obtain ⟨params, token⟩ := r
                  cases hinsert : u.table.insert (params.row u.clock) with
                  | none => simp [hparams, hinsert] at hphase
                  | some t =>
                      simp only [hparams, hinsert] at htable hphase
                      cases hdb : inputs.database with
                      | failed | lost => simp [hdb, Outcome.answer] at hphase
                      | answered =>
                          simp only [hdb, Outcome.answer, CreatePhase.created.injEq] at hphase
                          simp only [hdb, Outcome.table] at htable
                          have hid : answer.id = (params.row u.clock).id := by
                            rw [← hphase]
                            rfl
                          refine ⟨inputs.toCreateInputs, params, token, hparams, ?_, ?_⟩
                          · rw [hid]
                            exact Table.insert_new hinsert
                          · rw [← htable, Table.find_insert hinsert, if_pos hid]

variable {s : State} {clock : ℤ} {as : List Action}

/-- While the row of an answered create call is live it holds the payload of its
request. -/
theorem payload_of_created (hinverse : ∀ n p, svc.deps.decrypt (svc.deps.encrypt n p) = some p)
    (h : Reachable (step svc) (State.init clock) s) {j : ℕ} {actorID : Text}
    {req : CreateRequest} {answer : CreateResponse}
    (hcreate : s.calls[j]? = some (.create actorID req (.created answer))) {r : Row}
    (hr : s.table.find answer.id = some r) (hlive : r.status = .active ∨ r.status = .consuming) :
    ∃ p summary, canonicalPayload req = .ok (p, summary) ∧ valid p = true ∧
      svc.deps.decrypt r.encryptedPayload = some p := by
  let Q : State → Prop := fun u => u.calls[j]? = some (.create actorID req (.created answer))
  have hinit : ¬Q (State.init clock) := by
    intro hnone
    cases hnone.symm.trans (call_init clock j)
  obtain ⟨as, has⟩ := h
  obtain ⟨pre, a, post, u, v, rfl, _, hstep, hpost, hbefore, hafter⟩ :=
    exists_step_of_becomes has hinit hcreate
  obtain ⟨inputs, params, token, hparams, _, hfind⟩ := created_of_step hstep hbefore hafter
  obtain ⟨p, haccepts⟩ := insertParams_spec hparams
  obtain ⟨summary, hcanonical⟩ := haccepts.canonical
  obtain ⟨r', hr', hrep⟩ := represents_of_reachable (.of_run hpost) hfind
    (represents_row u.clock haccepts.maxFailedAttempts_pos.1)
  obtain rfl := Option.some.inj (hr.symm.trans hr')
  obtain ⟨n, _, hencrypted⟩ := haccepts.encrypted
  have hpayload : r.encryptedPayload = svc.deps.encrypt n p := by
    rw [← hencrypted]
    exact (hrep.live hlive).1
  exact ⟨p, summary, hcanonical, (validateCreate_ok haccepts.validated).1,
    by rw [hpayload, hinverse]⟩

/-- Whatever runs beside them: when a create request was answered and its delivery is
revealed, the secret of the response is the bare value of the request, or the
projection of its fields. -/
theorem legacy_secret_compatible
    (hinverse : ∀ n p, svc.deps.decrypt (svc.deps.encrypt n p) = some p)
    (h : run (step svc) (State.init clock) as = some s) {i j : ℕ} {token password actorID : Text}
    {item : ConsumeCandidate} {response : ConsumeResponse} {req : CreateRequest}
    {answer : CreateResponse} (hraw : IsRawMessage req.secret)
    (hcreate : s.calls[j]? = some (.create actorID req (.created answer)))
    (hconsume : s.calls[i]? = some (.consume token password (.delivered item response)))
    (hid : item.id = answer.id) : LegacySecret req response.secret := by
  obtain ⟨leaseID, pre, a, post, u, v, rfl, hpre, hstep, ⟨inputs, plaintext, r, _, _, hr, hguard,
    _, _, hdecrypt, hpayload⟩, _⟩ := authorised_at_reveal h hconsume
  have hpost : run (step svc) u (a :: post) = some s := by
    rwa [run_append, hpre, Option.bind_some] at h
  have hcreated : u.calls[j]? = some (.create actorID req (.created answer)) := by
    by_contra hbefore
    -- otherwise the delivery would have been inserted after it was read
    obtain ⟨mid, b, _, w, x, _, hmid, hinsert, _, hw, hx⟩ := exists_step_of_becomes
      (Q := fun w => w.calls[j]? = some (.create actorID req (.created answer)))
      hpost hbefore hcreate
    obtain ⟨_, _, _, _, hnone, _⟩ := created_of_step hinsert hw hx
    obtain ⟨_, _, _, _, _, _, _, hrep⟩ := stored_of_reachable (.of_run hpre) hr
    obtain ⟨_, hw', _⟩ := represents_of_reachable (.of_run hmid) hr hrep
    rw [hid, hnone] at hw'
    cases hw'
  rw [hid] at hr
  obtain ⟨p, summary, hcanonical, hvalid, hp⟩ := payload_of_created hinverse (.of_run hpre)
    hcreated hr (.inr hguard.2.1)
  obtain rfl := Option.some.inj (hdecrypt.symm.trans hp)
  obtain ⟨secret, hread, hlegacy⟩ := legacySecret_of_canonical hraw hcanonical hvalid
  rw [hpayload] at hread
  cases hread
  exact hlegacy

end main

theorem legacy_secret_compatible_sample : LegacySecret sampleRequest sampleResponse.secret := by
  have hrun : (run (step sampleService) (State.init 0) sampleReveal).map
      (fun s => (s.calls[0]?, s.calls[1]?)) =
      some (some (.create "admin".toList sampleRequest (.created ⟨7,
          "http://localhost:8080/s#t".toList, 3600 * 1000000000⟩)),
        some (.consume ['t'] [] (.delivered sampleItem sampleResponse))) := by
    decide +kernel
  obtain ⟨s, hs, hcalls⟩ := Option.map_eq_some_iff.mp hrun
  obtain ⟨hcreate, hconsume⟩ := Prod.mk.inj hcalls
  exact legacy_secret_compatible (fun _ _ => rfl) hs (by decide +kernel) hcreate hconsume rfl

end SecureShare.Delivery
