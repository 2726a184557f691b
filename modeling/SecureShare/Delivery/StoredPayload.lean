import SecureShare.Delivery.Recovery

/-!
# The payload of a create request comes back

What a request asks to store is what its canonical payload decodes to, up to the
trimming of names and labels. Since only payloads that were checked to be valid
are stored, a reader never finds the plaintext invalid after the ciphertext is
gone.
-/
namespace SecureShare.Delivery
open Go Go.Json Library.Transition
open Library.Json (Lexeme Token textOf compacted IsValue)

/-- A field as it is stored: a blank label is replaced by the name. -/
structure PreservesField (f g : StructuredSecretField) : Prop where
  name : g.name = trimSpace f.name
  label : g.label = if trimSpace f.label = [] then trimSpace f.name else trimSpace f.label
  value : g.value = f.value
  sensitive : g.sensitive = f.sensitive
  multiline : g.multiline = f.multiline

/-- What a requested payload has in common with the one that is read back. A raw value
keeps its tokens; characters in its strings may be escaped. -/
inductive Preserves (q : SecretPayload) : SecretPayload → Prop
  | structured (fields : List StructuredSecretField) :
      trimSpace (toLower q.type) = "structured".toList →
      List.Forall₂ PreservesField q.fields fields →
      Preserves q ⟨"structured".toList, fields, [], []⟩
  | text : trimSpace (toLower q.type) = "text".toList →
      Preserves q ⟨"text".toList, [], q.text, []⟩
  | json (value : Text) (ls ls' : List Lexeme) : trimSpace (toLower q.type) = "json".toList →
      scan q.value = some ls → scan value = some ls' →
      List.Forall₂ Token.Same (ls.map Lexeme.token) (ls'.map Lexeme.token) →
      Preserves q ⟨"json".toList, [], [], value⟩

theorem normalizeFields_preserves {seen : List Text} {fields out : List StructuredSecretField}
    (h : normalizeFields seen fields = some out) : List.Forall₂ PreservesField fields out := by
  induction fields generalizing seen out with
  | nil =>
      cases h
      exact .nil
  | cons f fields ih =>
      simp only [normalizeFields] at h
      split_ifs at h with hlabel
      all_goals
        rw [Option.map_eq_some_iff] at h
        obtain ⟨rest, hrest, rfl⟩ := h
        exact .cons ⟨rfl, by simp [hlabel], rfl, rfl, rfl⟩ (ih hrest)

/-- Compacting changes a token only in how its characters are written. -/
theorem compact_same {s : Text} {v : List Token} (h : compact s = some v) :
    ∃ ls ls', scan s = some ls ∧ scan (textOf v) = some ls' ∧
      List.Forall₂ Token.Same (ls.map Lexeme.token) (ls'.map Lexeme.token) := by
  have hvalue := (compact_spec h).1
  rw [compact, Option.map_eq_some_iff] at h
  obtain ⟨ls, hls, rfl⟩ := h
  refine ⟨ls, _, hls, scan_textOf hvalue, ?_⟩
  rw [Library.Json.map_token_compacted, List.forall₂_map_right_iff, List.forall₂_same]
  exact fun t _ => Library.Json.Token.same_escapeHTML t

theorem normalizePayload_preserves {q n : SecretPayload} {s : PayloadSummary} {p : Text}
    (h : normalizePayload q = .ok (n, s)) (hp : n.marshal = some p) :
    Preserves q n.compactValue := by
  unfold normalizePayload at h
  dsimp only at h
  split_ifs at h with hstructured hcount htext hjson hvalue
  · split at h
    · cases h
    · next fields hfields =>
      cases h
      rw [compactValue_of_nil rfl]
      exact .structured fields hstructured (normalizeFields_preserves hfields)
  · cases h
    rw [compactValue_of_nil rfl]
    exact .text htext
  · cases h
    obtain ⟨v, _, hv⟩ := marshal_spec hp
    rw [not_or] at hvalue
    have hcompact := hv hvalue.1
    obtain ⟨ls, ls', hls, hls', hsame⟩ := compact_same hcompact
    simp only [SecretPayload.compactValue, hcompact, Option.map_some, Option.getD_some]
    exact .json _ ls ls' hjson hls hls' hsame

/-- Without a raw value nothing is nested deep. -/
theorem valid_marshal {n : SecretPayload} {p : Text} (hp : n.marshal = some p)
    (hvalue : n.value = []) : valid p = true := by
  obtain ⟨v, rfl, _⟩ := marshal_spec hp
  have hmembers := isValue_memberTokens (p := n) (v := v) le_rfl fun hne => absurd hvalue hne
  have hstruct := isValue_struct hmembers
  rw [valid_textOf hstruct, decide_eq_true_eq]
  exact hstruct.mono (by decide)

/-- The error of a reader whose plaintext cannot be read. -/
def plaintextInvalid : ServiceError := internal "decrypted payload was invalid"

theorem consume_plaintextInvalid {svc : Service} {inputs : Inputs} {now : ℤ} {t t' : Table}
    {token password : Text} {phase : ConsumePhase}
    (h : svc.consume inputs now t token password phase = some (t', .refused plaintextInvalid)) :
    ∃ item leaseID plaintext, phase = .completing item leaseID plaintext ∧
      normalizeConsumedPayload plaintext = none := by
  cases phase with
  | finding =>
      have h := (Prod.mk.inj (Option.some.inj h)).2
      unfold Service.consumeFind at h
      repeat' split at h
      all_goals simp [plaintextInvalid, internal, unavailable] at h
  | failing =>
      have h := (Prod.mk.inj (Option.some.inj h)).2
      repeat' split at h
      all_goals simp [plaintextInvalid, internal, unavailable] at h
  | leasing =>
      have h := congrArg Prod.snd (Option.some.inj h)
      unfold Service.consumeBegin at h
      dsimp only at h
      repeat' split at h
      all_goals simp [plaintextInvalid, internal, unavailable] at h
  | decrypting =>
      have h := (Prod.mk.inj (Option.some.inj h)).2
      unfold Service.consumeDecrypt at h
      repeat' split at h
      all_goals cases h
  | restoring =>
      have h := (Prod.mk.inj (Option.some.inj h)).2
      simp [plaintextInvalid, internal] at h
  | completing item leaseID plaintext =>
      have h := (Prod.mk.inj (Option.some.inj h)).2
      repeat' split at h
      · simp [plaintextInvalid, internal] at h
      · simp [plaintextInvalid, internal, unavailable] at h
      · exact ⟨item, leaseID, plaintext, rfl, ‹_›⟩
      · cases h
  | delivered | refused | abandoned => cases h

section main
variable {svc : Service} {s : State} {clock : ℤ}

/-- What a reader decrypts is the canonical payload of some request. -/
theorem decrypted_readable (hinverse : ∀ n p, svc.deps.decrypt (svc.deps.encrypt n p) = some p)
    (h : Reachable (step svc) (State.init clock) s) {i : ℕ} {token password : Text}
    {item : ConsumeCandidate} {leaseID : UUID} {plaintext : Text}
    (hcall : s.calls[i]? = some (.consume token password (.completing item leaseID plaintext))) :
    ∃ legacy, normalizeConsumedPayload plaintext = some (plaintext, legacy) := by
  obtain ⟨as, has⟩ := h
  obtain ⟨_, hdecrypt⟩ := sound_of_reachable (.of_run has) hcall
  obtain ⟨pre, _, _, u, _, _, hpre, _, _, _, _, r, _, _, _, hr, hitem, hguard, _⟩ :=
    leases_of_leased has hcall rfl
  obtain ⟨inputs, actorID, req, params, token', created, hparams, hrep⟩ :=
    stored_of_reachable (.of_run hpre) hr
  obtain ⟨p, haccepts⟩ := insertParams_spec hparams
  obtain ⟨n, _, hencrypted⟩ := haccepts.encrypted
  have hlive := (hrep.live (hguard.2.2.2.2.imp_right And.left)).1
  have hpayload : item.encryptedPayload = svc.deps.encrypt n p := by
    rw [← hitem, ← hencrypted]
    exact hlive
  rw [hpayload, hinverse] at hdecrypt
  cases hdecrypt
  exact haccepts.normalizeConsumedPayload

theorem never_plaintextInvalid
    (hinverse : ∀ n p, svc.deps.decrypt (svc.deps.encrypt n p) = some p)
    (h : Reachable (step svc) (State.init clock) s) (i : ℕ) (token password : Text) :
    s.calls[i]? ≠ some (.consume token password (.refused plaintextInvalid)) := by
  refine h.induction (P := fun u =>
    u.calls[i]? ≠ some (.consume token password (.refused plaintextInvalid))) ?_ ?_
  · rw [call_init]
    nofun
  intro u a v hu hbefore hstep hcall
  cases step_call hstep hcall with
  | same _ hsame => exact hbefore hsame
  | spawned request _ heq => cases request <;> cases heq
  | advanced inputs call hcall₀ _ _ hadvance =>
      obtain ⟨phase, rfl, hconsume⟩ := advance_eq_consume hadvance
      obtain ⟨item, leaseID, plaintext, rfl, hnone⟩ := consume_plaintextInvalid hconsume
      obtain ⟨legacy, hsome⟩ := decrypted_readable hinverse hu hcall₀
      rw [hnone] at hsome
      cases hsome
  | abandoned call _ habandon => cases abandon_consume habandon

end main

/-- Whatever a request asks to store comes back byte for byte from its canonical
payload, and no reader is refused because what was stored cannot be read. -/
theorem payload_round_trip {req : CreateRequest} {p : Text} {summary : PayloadSummary}
    (h : canonicalPayload req = .ok (p, summary))
    (hdecodes : summary.type = "json".toList → valid p = true) :
    (∃ q m legacy, requestedPayload req = .ok q ∧
      normalizeConsumedPayload p = some (p, legacy) ∧ unmarshalPayload p = some m ∧
      Preserves q m) ∧
    ∀ (svc : Service) (clock : ℤ) (s : State) (i : ℕ) (token password : Text),
      (∀ n p, svc.deps.decrypt (svc.deps.encrypt n p) = some p) →
      Reachable (step svc) (State.init clock) s →
      s.calls[i]? ≠ some (.consume token password (.refused plaintextInvalid)) := by
  constructor
  · obtain ⟨q, n, hq, hn, hp⟩ := canonicalPayload_spec h
    have hnormalized := normalized_of_normalizePayload hn
    have hvalid : valid p = true := by
      cases hnormalized with
      | structured | text => exact valid_marshal hp rfl
      | json => exact hdecodes rfl
    obtain ⟨legacy, _, hread⟩ := normalizeConsumedPayload_marshal hnormalized hp hvalid
    exact ⟨q, n.compactValue, legacy, hq, hread, unmarshalPayload_marshal hp hvalid,
      normalizePayload_preserves hn hp⟩
  · intro svc clock s i token password hinverse hreach
    exact never_plaintextInvalid hinverse hreach i token password

/-- A request in the older form, whose secret is a JSON value with spaces and a
character that is escaped. -/
def sampleValueRequest : CreateRequest :=
  { sampleRequest with secret := "[ 1, \"<\" ]".toList }

theorem payload_round_trip_sample :
    ∃ p summary legacy, canonicalPayload sampleValueRequest = .ok (p, summary) ∧
      p = "\x7b\"type\":\"json\",\"value\":[1,\"\\u003c\"]\x7d".toList ∧
      normalizeConsumedPayload p = some (p, legacy) := by
  have hcanonical : canonicalPayload sampleValueRequest =
      .ok ("\x7b\"type\":\"json\",\"value\":[1,\"\\u003c\"]\x7d".toList,
        ⟨"json".toList, 0, false⟩) := by
    decide +kernel
  have hvalid : valid "\x7b\"type\":\"json\",\"value\":[1,\"\\u003c\"]\x7d".toList = true := by
    decide +kernel
  obtain ⟨⟨_, _, legacy, _, hread, _⟩, _⟩ := payload_round_trip hcanonical fun _ => hvalid
  exact ⟨_, _, legacy, hcanonical, rfl, hread⟩

end SecureShare.Delivery
