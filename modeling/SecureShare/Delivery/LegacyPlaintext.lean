import SecureShare.Delivery.LegacySecret

/-!
# Plaintexts from before the payload model

Older rows hold the bare value. A reader tells the two formats apart by trying to
read the plaintext as a payload, so an older value that happens to be one is
answered with its projection. The value comes back unchanged exactly when it is
not accepted as a payload.
-/
namespace SecureShare.Delivery
open Go Go.Json Library.Transition
open Library.Json (Lexeme Token textOf compacted rawText IsValue)

/-- The plaintext is accepted as a stored payload. -/
def ReadsAsPayload (plaintext : Text) : Prop :=
  ∃ p n s, unmarshalPayload plaintext = some p ∧ normalizePayload p = .ok (n, s)

theorem Normalized.marshal_isSome {n : SecretPayload} {s : PayloadSummary}
    (h : Normalized n s) : ∃ canonical, n.marshal = some canonical := by
  cases h with
  | structured | text => exact ⟨_, rfl⟩
  | json value hne hvalid =>
      obtain ⟨ls, hls⟩ := valid_iff.mp hvalid
      have hcompact : compact value = some ((ls.map Lexeme.token).map Token.escapeHTML) := by
        rw [compact, hls, Option.map_some]
      simp [SecretPayload.marshal, SecretPayload.tokens, hne, hcompact]

/-- The fallback keeps a plaintext that is no payload. -/
theorem normalizeConsumedPayload_fallback {j : Text} (hvalid : valid j = true)
    (h : ¬ReadsAsPayload j) : ∃ canonical, normalizeConsumedPayload j = some (canonical, j) := by
  have hnone : ((unmarshalPayload j).bind fun p => (normalizePayload p).toOption) = none := by
    rw [Option.bind_eq_none_iff]
    intro p hp
    cases hn : normalizePayload p with
    | error => rfl
    | ok r => exact absurd ⟨p, r.1, r.2, hp, hn⟩ h
  have hne : j ≠ [] := by
    rintro rfl
    exact absurd hvalid (by decide)
  have hmarshal : ∃ payload raw s, legacyPayload j = .ok payload ∧
      marshalPayload payload = .ok (raw, s) := by
    rw [legacyPayload, if_neg (by simp [hvalid])]
    split
    · exact ⟨_, _, _, rfl, rfl⟩
    · have hnormalize : Normalized ⟨"json".toList, [], [], j⟩ ⟨"json".toList, 0, false⟩ :=
        .json j hne hvalid
      obtain ⟨raw, hraw⟩ := hnormalize.marshal_isSome
      refine ⟨_, raw, ⟨"json".toList, 0, false⟩, rfl, ?_⟩
      rw [marshalPayload, hnormalize.normalizePayload_eq]
      simp only [hraw]
  obtain ⟨payload, raw, s, hpayload, hraw⟩ := hmarshal
  refine ⟨raw, ?_⟩
  unfold normalizeConsumedPayload
  rw [if_neg (by simp [hvalid]), hnone]
  simp only [hpayload, hraw]
  rfl

/-- What one member can bring into a payload. -/
theorem setPayloadMember_spec {d d' : Decoding} {m : Text × List Lexeme}
    (h : setPayloadMember d m = some d') :
    (d'.fields.visible = d.fields.visible ∨ d'.fields.visible = [] ∨
      ∃ es, view m.2 = .array es) ∧
    (d'.value = d.value ∨ d'.value = rawText m.2) := by
  unfold setPayloadMember at h
  dsimp only at h
  split_ifs at h
  · obtain ⟨_, _, rfl⟩ := Option.map_eq_some_iff.mp h
    exact ⟨.inl rfl, .inl rfl⟩
  · obtain ⟨v, hv, rfl⟩ := Option.map_eq_some_iff.mp h
    refine ⟨.inr ?_, .inl rfl⟩
    unfold setFields at hv
    split at hv
    · cases hv
      exact .inl rfl
    · next es _ hview => exact .inr ⟨es, hview⟩
    · cases hv
      exact .inl rfl
    · cases hv
  · obtain ⟨_, _, rfl⟩ := Option.map_eq_some_iff.mp h
    exact ⟨.inl rfl, .inl rfl⟩
  · cases h
    exact ⟨.inl rfl, .inr rfl⟩
  · cases h
    exact ⟨.inl rfl, .inl rfl⟩

/-- Fields come from an array among the members, a raw value from one of them. -/
theorem decode_spec {d d' : Decoding} {ms : List (Text × List Lexeme)}
    (h : ms.foldlM setPayloadMember d = some d') :
    (d'.fields.visible = d.fields.visible ∨ d'.fields.visible = [] ∨
      ∃ m ∈ ms, ∃ es, view m.2 = .array es) ∧
    (d'.value = d.value ∨ ∃ m ∈ ms, d'.value = rawText m.2) := by
  induction ms generalizing d with
  | nil =>
      cases h
      exact ⟨.inl rfl, .inl rfl⟩
  | cons m ms ih =>
      rw [List.foldlM_cons, Option.bind_eq_bind, Option.bind_eq_some_iff] at h
      obtain ⟨d₁, hd₁, h⟩ := h
      obtain ⟨hfields, hvalue⟩ := ih h
      obtain ⟨hfields₁, hvalue₁⟩ := setPayloadMember_spec hd₁
      constructor
      · rcases hfields with hfields | hfields | ⟨m', hm', hview⟩
        · rw [hfields]
          exact hfields₁.imp_right fun h => h.imp_right fun hview =>
            ⟨m, List.mem_cons_self, hview⟩
        · exact .inr (.inl hfields)
        · exact .inr (.inr ⟨m', List.mem_cons_of_mem m hm', hview⟩)
      · rcases hvalue with hvalue | ⟨m', hm', hvalue⟩
        · rw [hvalue]
          exact hvalue₁.imp_right fun h => ⟨m, List.mem_cons_self, h⟩
        · exact .inr ⟨m', List.mem_cons_of_mem m hm', hvalue⟩

/-- A plaintext that is read as a payload is an object whose members say so. -/
theorem unmarshalPayload_spec {j : Text} {p : SecretPayload} (h : unmarshalPayload j = some p)
    (hp : p.type ≠ []) : ∃ ls sp rest, scan j = some ls ∧ ls = ⟨sp, .beginObject⟩ :: rest ∧
      (p.fields ≠ [] → Token.beginArray ∈ ls.map Lexeme.token) ∧
      (p.value ≠ [] → ∃ v, p.value = rawText v ∧ v <:+: ls ∧ v.length < ls.length) := by
  obtain ⟨ls, hls, h⟩ := Option.bind_eq_some_iff.mp h
  split at h
  · next ms hview =>
    obtain ⟨d, hd, rfl⟩ := Option.map_eq_some_iff.mp h
    obtain ⟨⟨sp, rest, rfl⟩, rfl⟩ := view_eq_object hview
    obtain ⟨hfields, hvalue⟩ := decode_spec hd
    have hmember : ∀ m ∈ (Library.Json.members (⟨sp, .beginObject⟩ :: rest)).map
        (fun m => (Library.Json.decode m.1, m.2)), m.2 <:+: ⟨sp, .beginObject⟩ :: rest ∧
          m.2.length < (⟨sp, .beginObject⟩ :: rest : List Lexeme).length := by
      intro m hm
      obtain ⟨m', hm', rfl⟩ := List.mem_map.mp hm
      obtain ⟨hwithin, hlen⟩ := Library.Json.members_infix hm'
      exact ⟨hwithin.trans ((List.dropLast_prefix _).isInfix.trans (List.suffix_cons _ _).isInfix),
        hlen⟩
    refine ⟨_, sp, rest, hls, rfl, fun hne => ?_, fun hne => ?_⟩
    · rcases hfields with hnil | hnil | ⟨m, hm, es, hview⟩
      · exact absurd hnil hne
      · exact absurd hnil hne
      · obtain ⟨sp', rest', heq⟩ := view_eq_array hview
        refine List.mem_map.mpr ⟨⟨sp', .beginArray⟩, (hmember m hm).1.subset ?_, rfl⟩
        rw [heq]
        exact List.mem_cons_self
    · rcases hvalue with hnil | ⟨m, hm, hvalue⟩
      · exact absurd hnil hne
      · exact ⟨m.2, hvalue, hmember m hm⟩
  · cases h
    exact absurd rfl hp
  · cases h

/-- A projection holds strings only, so it has no array. -/
theorem beginArray_not_mem (entries : List (Text × Text)) :
    Token.beginArray ∉ structTokens (entries.map fun m => (m.1, [stringToken m.2])) := by
  intro h
  rw [structTokens, Library.Json.objectTokens, List.mem_cons, List.mem_append,
    List.mem_singleton] at h
  rcases h with h | h | h
  · cases h
  · rcases Library.Json.mem_joinCommas h with h | ⟨v, hv, hmem⟩
    · cases h
    · rw [List.map_map, List.map_map] at hv
      obtain ⟨e, _, rfl⟩ := List.mem_map.mp hv
      simp [Library.Json.memberTokens, stringToken] at hmem
  · cases h

/-- A value that is read as a payload is never its own projection: it is an object, of
which the projection is a string, an object without arrays, or a proper part. -/
theorem not_sameValue_projection {j secret : Text} {p n : SecretPayload} {s : PayloadSummary}
    (hp : unmarshalPayload j = some p) (hn : normalizePayload p = .ok (n, s))
    (hsecret : legacyProjection n = some secret) : ¬SameValue j secret := by
  have htype : p.type ≠ [] := by
    intro hnil
    rw [normalizePayload, hnil] at hn
    cases hn
  obtain ⟨ls, sp, rest, hls, hobject, hfields, hvalue⟩ := unmarshalPayload_spec hp htype
  rintro ⟨ls₁, ls', hls₁, hls', hsame⟩
  obtain rfl := Option.some.inj (hls.symm.trans hls₁)
  unfold normalizePayload at hn
  dsimp only at hn
  split_ifs at hn with hstructured hcount htext hjson hempty
  · split at hn
    · cases hn
    · next fields _ =>
      cases hn
      obtain rfl := Option.some.inj hsecret
      rw [not_or] at hcount
      have harray := hfields hcount.1
      let entries := fields.foldl (fun m f => assign f.name f.value m) []
      have hscan : scan (textOf (structTokens (entries.map fun m => (m.1, [stringToken m.2])))) =
          some (compacted (structTokens (entries.map fun m => (m.1, [stringToken m.2])))) := by
        refine scan_textOf ((isValue_struct fun m hm => ?_).mono (by decide : 1 ≤ _))
        obtain ⟨e, _, rfl⟩ := List.mem_map.mp hm
        rfl
      obtain rfl := Option.some.inj (hscan.symm.trans hls')
      rw [Library.Json.map_token_compacted] at hsame
      exact beginArray_not_mem entries (Token.mem_of_same hsame harray rfl)
  · cases hn
    obtain rfl := Option.some.inj hsecret
    obtain rfl := Option.some.inj ((scan_textOf (isValue_string _ _)).symm.trans hls')
    rw [hobject] at hsame
    cases hsame with
    | cons hhead => cases Token.eq_of_same hhead rfl
  · cases hn
    obtain rfl := Option.some.inj hsecret
    rw [not_or] at hempty
    obtain ⟨v, hv, hwithin, hlen⟩ := hvalue hempty.1
    obtain ⟨v', hv', htokens⟩ := Library.Json.lex_rawText (lex_of_scan hls)
      (isValue_of_scan hls).separated hwithin
    rw [← hv] at hv'
    obtain rfl := Option.some.inj (hv'.symm.trans (lex_of_scan hls'))
    have hlength := hsame.length_eq
    rw [htokens, List.length_map, List.length_map] at hlength
    omega

/-- What a reader is answered with, and when its secret is the stored value. -/
theorem normalizeConsumedPayload_legacy {j : Text} (hvalid : valid j = true) :
    ∃ canonical secret, normalizeConsumedPayload j = some (canonical, secret) ∧
      (SameValue j secret ↔ ¬ReadsAsPayload j) := by
  by_cases hreads : ReadsAsPayload j
  · obtain ⟨p, n, s, hp, hn⟩ := hreads
    have hnormalized := normalized_of_normalizePayload hn
    obtain ⟨canonical, hcanonical⟩ := hnormalized.marshal_isSome
    obtain ⟨secret, hsecret⟩ := legacyProjection_isSome hnormalized
    refine ⟨canonical, secret, ?_, ?_⟩
    · have hread : ((unmarshalPayload j).bind fun p => (normalizePayload p).toOption) =
          some (n, s) := by
        rw [hp, Option.bind_some, hn]
        rfl
      unfold normalizeConsumedPayload
      rw [if_neg (by simp [hvalid]), hread]
      simp only [hcanonical, hsecret, Option.bind_some, Option.map_some]
    · constructor
      · exact fun hsame => absurd hsame (not_sameValue_projection hp hn hsecret)
      · exact fun hnot => absurd ⟨p, n, s, hp, hn⟩ hnot
  · obtain ⟨canonical, hread⟩ := normalizeConsumedPayload_fallback hvalid hreads
    exact ⟨canonical, j, hread, fun _ => hreads, fun _ => .refl hvalid⟩

/-- While a row is live, no statement changes its ciphertext. -/
theorem Statement.exec_live {now : ℤ} {stmt : Statement} {r : Row}
    (h : (stmt.exec now r).status = .active ∨ (stmt.exec now r).status = .consuming) :
    (r.status = .active ∨ r.status = .consuming) ∧
      (stmt.exec now r).encryptedPayload = r.encryptedPayload := by
  by_cases hguard : stmt.Guard now r
  · rw [Statement.exec_of_guard hguard] at h ⊢
    rcases Statement.guard_status hguard with hlive | ⟨a, b, c, rfl, hterminal⟩
    · refine ⟨hlive, ?_⟩
      cases stmt with
      | beginConsume | restoreConsume | restoreStale | expireActive | updatePasswordProtection =>
          rfl
      | completeConsume | revoke => rcases h with h | h <;> cases h
      | recordPasswordFailure =>
          by_cases hlast : r.LastAttempt
          · simp [Statement.set, hlast] at h
          · simp [Statement.set, hlast]
      | blankRetained =>
          rcases hguard.2 with ⟨hs, _⟩ | ⟨hs, _⟩ | ⟨hs, _⟩ <;> simp [hs] at hlive
    · have hstatus : ((Statement.blankRetained a b c).set now r).status = r.status := rfl
      rw [hstatus] at h
      rcases h with h | h <;> rw [h] at hterminal <;> cases hterminal
  · rw [Statement.exec_of_not_guard hguard] at h ⊢
    exact ⟨h, rfl⟩

/-- What a reader of delivery `d` holds, whose live ciphertext is `c`. -/
def Holds (svc : Service) (d : UUID) (c : Text) : ConsumePhase → Prop
  | .decrypting item _ | .restoring item _ => item.id = d → item.encryptedPayload = c
  | .completing item _ plaintext => item.id = d → svc.deps.decrypt c = some plaintext
  | .delivered item response => item.id = d → ∃ plaintext, svc.deps.decrypt c = some plaintext ∧
      normalizeConsumedPayload plaintext = some (response.payload, response.secret)
  | .finding | .failing _ _ | .leasing _ _ | .refused _ | .abandoned => True

section main
variable {svc : Service} {s : State}

theorem ConsumeStep.holds {inputs : Inputs} {now : ℤ} {token password : Text} {t t' : Table}
    {phase phase' : ConsumePhase} {d : UUID} {c : Text}
    (hrow : ∀ r, t.find d = some r → r.status = .active ∨ r.status = .consuming →
      r.encryptedPayload = c)
    (h : Holds svc d c phase)
    (hstep : ConsumeStep svc inputs now token password t phase t' phase') :
    Holds svc d c phase' := by
  cases hstep with
  | found | mismatched | unfound | counted | unleased | leaseLost | restored | uncompleted =>
      trivial
  | leased _ _ _ r _ hr hguard =>
      intro hid
      have hid : r.id = d := hid
      exact hrow r (hid ▸ hr) (hguard.2.2.2.2.imp_right And.left)
  | decrypted item _ plaintext hdecrypt =>
      intro hid
      rw [← h hid]
      exact hdecrypt
  | undecrypted => exact h
  | completed item _ plaintext canonical legacy _ _ _ hpayload =>
      exact fun hid => ⟨plaintext, h hid, hpayload⟩

/-- From a table with a live row on, every reader of the row holds its ciphertext. -/
theorem holds_of_reachable {clock : ℤ} {t : Table} {r : Row} {leases : List UUID}
    (hr : t.find r.id = some r) (h : Reachable (step svc) ⟨clock, t, [], leases⟩ s) {i : ℕ} {token password : Text}
    {phase : ConsumePhase} (hcall : s.calls[i]? = some (.consume token password phase)) :
    Holds svc r.id r.encryptedPayload phase := by
  let Kept (u : State) : Prop := (∃ r', u.table.find r.id = some r' ∧
      (r'.status = .active ∨ r'.status = .consuming → r'.encryptedPayload = r.encryptedPayload)) ∧
    ∀ (i : ℕ) phase, u.calls[i]? = some (.consume token password phase) →
      Holds svc r.id r.encryptedPayload phase
  suffices hkept : Kept s from hkept.2 i phase hcall
  refine h.preserves (P := Kept) ⟨⟨r, hr, fun _ => rfl⟩, fun i phase hi => ?_⟩ ?_
  · rw [List.getElem?_nil] at hi
    cases hi
  rintro u a v ⟨⟨r', hr', hpayload⟩, hcalls⟩ hstep
  constructor
  · rcases step_find hstep hr' with hsame | ⟨_, _, _, time, stmt, _, _, _, hguard, hset⟩
    · exact ⟨r', hsame, hpayload⟩
    · refine ⟨_, hset, fun hlive' => ?_⟩
      rw [← Statement.exec_of_guard hguard] at hlive' ⊢
      obtain ⟨hlive₀, heq⟩ := Statement.exec_live hlive'
      rw [heq, hpayload hlive₀]
  · intro i phase' hphase'
    cases step_call hstep hphase' with
    | same _ hsame => exact hcalls i phase' hsame
    | spawned request _ heq =>
        cases request <;> cases heq
        trivial
    | advanced inputs call hcall₀ _ _ hadvance =>
        obtain ⟨phase, rfl, hconsume⟩ := advance_consume hadvance
        refine hconsume.holds (fun r'' hr'' hlive'' => ?_) (hcalls i phase hcall₀)
        obtain rfl := Option.some.inj (hr'.symm.trans hr'')
        exact hpayload hlive''
    | abandoned call _ habandon =>
        rw [abandon_consume habandon]
        trivial

/-- The response that every reader of the row is given, and that a reader with the right
token and password whom nobody disturbs is given indeed. -/
def Answers (svc : Service) (s : State) (r : Row) (response : ConsumeResponse) : Prop :=
  (∀ u, Reachable (step svc) s u → ∀ (i : ℕ) token password item response',
    u.calls[i]? = some (.consume token password (.delivered item response')) → item.id = r.id →
    response' = response) ∧
  ∀ (token password : Text) (leaseID : UUID) (e₁ e₂ e₃ e₄ : ℕ) (in₁ in₂ in₃ in₄ : Inputs),
    svc.deps.tokenHMAC svc.cfg.tokenHMACPepper token = some r.tokenHash →
    Verifies svc.deps password r.passwordHash → leaseID ∉ s.leases →
    r.failedAttempts < r.maxFailedAttempts → s.clock + e₁ + e₂ < r.expiresAt →
    in₁.Healthy → in₂.Healthy → in₃.Healthy → in₄.Healthy → in₂.leaseID = some leaseID →
    ∃ u, run (step svc) s
        (deliveryRun s.calls.length token password e₁ e₂ e₃ e₄ in₁ in₂ in₃ in₄) = some u ∧
      u.calls[s.calls.length]? = some (.consume token password (.delivered r.candidate response))

/-- A service that starts over a table whose row holds a bare value answers with a secret
that is this value exactly when the value is not accepted as a payload. -/
theorem legacy_plaintext_unchanged_iff {clock : ℤ} {t : Table} {r : Row} {leases : List UUID}
    {j : Text} (hr : t.find r.id = some r) (hactive : r.status = .active)
    (hdecrypt : svc.deps.decrypt r.encryptedPayload = some j) (hvalid : valid j = true) :
    ∃ response, Answers svc ⟨clock, t, [], leases⟩ r response ∧
      (SameValue j response.secret ↔ ¬ReadsAsPayload j) := by
  obtain ⟨canonical, secret, hpayload, hiff⟩ := normalizeConsumedPayload_legacy hvalid
  refine ⟨⟨secret, canonical⟩, ⟨?_, ?_⟩, hiff⟩
  · intro u hu i token password item response hcall hid
    obtain ⟨plaintext, hplaintext, hresponse⟩ := holds_of_reachable hr hu hcall hid
    obtain rfl := Option.some.inj (hdecrypt.symm.trans hplaintext)
    rw [hpayload] at hresponse
    cases hresponse
    rfl
  · intro token password leaseID e₁ e₂ e₃ e₄ in₁ in₂ in₃ in₄ htoken hpassword hfresh hfailed
      hexpires h₁ h₂ h₃ h₄ hlease
    have havailable : ∀ e : ℤ, e < r.expiresAt →
        r.Available svc.cfg.consumingLeaseTTL.int64Seconds e := fun e he =>
      ⟨he, hfailed, .inl hactive⟩
    exact deliveryRun_delivers hr htoken hpassword (havailable _ (by dsimp only at hexpires ⊢; omega))
      (havailable _ hexpires) hfresh e₃ e₄ h₁.1 h₂.1 hlease h₃.2 h₄.1 hdecrypt hpayload

end main

/-- The sample delivery as an older version stored it, with a bare value. -/
def sampleLegacyRow (j : Text) : Row :=
  { sampleParams.row 0 with
    encryptedPayload := 'v' :: j, payloadType := "json".toList, payloadFieldCount := 0 }

theorem sampleLegacyRow_checks (j : Text) : (sampleLegacyRow j).Checks :=
  (by decide : (sampleLegacyRow []).Checks)

def sampleLegacyTable (j : Text) : Table where
  rows := [sampleLegacyRow j]
  ids := List.nodup_singleton _
  tokenHashes := List.nodup_singleton _
  checks := List.forall_mem_singleton.mpr (sampleLegacyRow_checks j)

theorem find_sampleLegacyTable (j : Text) :
    (sampleLegacyTable j).find (sampleLegacyRow j).id = some (sampleLegacyRow j) :=
  Table.find_eq_some.mpr ⟨List.mem_singleton_self _, rfl⟩

theorem legacy_plaintext_unchanged_iff_sample : ∃ response,
    Answers sampleService ⟨0, sampleLegacyTable "[1]".toList, [], []⟩
      (sampleLegacyRow "[1]".toList) response ∧
    (SameValue "[1]".toList response.secret ↔ ¬ReadsAsPayload "[1]".toList) :=
  legacy_plaintext_unchanged_iff (find_sampleLegacyTable _) rfl rfl (by decide +kernel)

/-- An older value that is an object with a type and a text. -/
def sampleAmbiguous : Text := "\x7b\"type\":\"text\",\"text\":\"x\"\x7d".toList

theorem sampleAmbiguous_read : normalizeConsumedPayload sampleAmbiguous =
    some (sampleAmbiguous, "\"x\"".toList) := by
  decide +kernel

/-- The reader of the object `sampleAmbiguous` is answered with the string in it. -/
theorem legacy_plaintext_changed :
    valid sampleAmbiguous = true ∧
      sampleService.deps.decrypt (sampleLegacyRow sampleAmbiguous).encryptedPayload =
        some sampleAmbiguous ∧
      (∃ u, run (step sampleService) ⟨0, sampleLegacyTable sampleAmbiguous, [], []⟩
          (deliveryRun 0 ['t'] [] 0 0 0 0 (sampleAnswers none) (sampleAnswers (some 1))
            (sampleAnswers none) (sampleAnswers none)) = some u ∧
        u.calls[0]? = some (.consume ['t'] [] (.delivered (sampleLegacyRow sampleAmbiguous).candidate
          ⟨"\"x\"".toList, sampleAmbiguous⟩))) ∧
      ¬SameValue sampleAmbiguous "\"x\"".toList := by
  have havailable : (sampleLegacyRow sampleAmbiguous).Available
      sampleService.cfg.consumingLeaseTTL.int64Seconds 0 :=
    ⟨by decide, by decide, .inl rfl⟩
  refine ⟨by decide +kernel, rfl, ?_, ?_⟩
  · exact deliveryRun_delivers (find_sampleLegacyTable _) rfl (verifies_none _ _) havailable
      havailable List.not_mem_nil 0 0 rfl rfl rfl rfl rfl rfl sampleAmbiguous_read
  · have hread : unmarshalPayload sampleAmbiguous = some ⟨"text".toList, [], "x".toList, []⟩ := by
      decide +kernel
    exact not_sameValue_projection hread (n := ⟨"text".toList, [], "x".toList, []⟩) rfl
      (by decide +kernel)

end SecureShare.Delivery
