import SecureShare.Delivery.RoundTrip
import SecureShare.Handlers.Access

/-!
# Rows of accepted requests

What the schema demands of a row that `Insert` writes, and what `validateCreate` checks
before the secret is encrypted. The lengths are checked in bytes before they are limited in
characters; that PostgreSQL cannot store U+0000 is not checked.
-/
namespace SecureShare.Delivery
open Go

/-- The range of TIMESTAMPTZ, from 4713 BC to 294276 AD, in microseconds. -/
def timestamptz (t : ℤ) : Prop := -210866803200000000 ≤ t ∧ t < 9224318016000000000

/-- The row satisfies the types and the CHECK constraints of all columns. -/
structure Row.Fits (r : Row) : Prop where
  checks : r.Checks
  encryptedPayload : '\u0000' ∉ r.encryptedPayload
  passwordHash : ∀ hash ∈ r.passwordHash, '\u0000' ∉ hash
  expiresAt : timestamptz r.expiresAt
  payloadFieldCount : r.payloadFieldCount ≤ 2147483647

/-- No text of the request that is stored as it is has a U+0000. -/
def CreateRequest.NulFree (req : CreateRequest) : Prop :=
  '\u0000' ∉ req.title ∧ '\u0000' ∉ req.description ∧ '\u0000' ∉ req.recipientReference

instance (req : CreateRequest) : Decidable req.NulFree := by
  unfold CreateRequest.NulFree
  infer_instance

variable {deps : Dependencies} {cfg : Config} {inputs : CreateInputs} {actorID : Text}
  {req : CreateRequest} {params : InsertParams} {token : Text}

/-- A text that is short enough in bytes is stored exactly if it has no U+0000. -/
theorem storable_emptyToNil_iff {limit : ℕ} {s : Text} (h : byteLength s ≤ limit) :
    (∀ value ∈ emptyToNil (trimSpace s), storable limit value) ↔ '\u0000' ∉ s := by
  have hlength : (trimSpace s).length ≤ limit :=
    (length_trimSpace_le s).trans ((length_le_byteLength s).trans h)
  have hmem : '\u0000' ∈ trimSpace s ↔ '\u0000' ∈ s := mem_trimSpace (by decide)
  rw [← hmem]
  unfold emptyToNil
  split_ifs with hnil
  · simp [hnil]
  · simp [storable, hlength]

theorem validateCreate_lengths {p : Text} (h : validateCreate cfg req p = .ok ()) :
    byteLength req.title ≤ 255 ∧ byteLength req.description ≤ 2000 ∧
      byteLength req.recipientReference ≤ 255 := by
  unfold validateCreate at h
  split_ifs at h with _ _ _ hlengths
  simp only [not_or, not_lt] at hlengths
  exact hlengths

theorem summary_of_normalizePayload {q n : SecretPayload} {summary : PayloadSummary}
    (h : normalizePayload q = .ok (n, summary)) :
    summary.type ∈ ["structured".toList, "text".toList, "json".toList] ∧ summary.fieldCount ≤ 50 := by
  cases normalized_of_normalizePayload h with
  | structured fields hne hlen hfields => exact ⟨by simp, hlen⟩
  | text t => exact ⟨by simp, by simp⟩
  | json value hne hvalid => exact ⟨by simp, by simp⟩

theorem requestedHash_notMem (hhash : ∀ n p, '\u0000' ∉ deps.hash n p) {salt : Option ℕ}
    {stored : Option Text} (h : requestedHash deps salt req = .ok stored) :
    ∀ hash ∈ stored, '\u0000' ∉ hash := by
  unfold requestedHash at h
  split at h
  · cases h
    rintro _ ⟨⟩
  · next password _ =>
    rintro hash ⟨⟩
    cases hstored : deps.hashPassword salt password with
    | none =>
        rw [hstored] at h
        cases h
    | some hashed =>
        rw [hstored] at h
        cases h
        unfold Dependencies.hashPassword at hstored
        split_ifs at hstored
        obtain ⟨n, _, rfl⟩ := Option.map_eq_some_iff.mp hstored
        exact hhash n password

/-- A time of the server and a lifetime are far from the bounds. -/
theorem expiresAt_timestamptz {now : ℤ} (d : Duration) (hnow : 0 ≤ now ∧ now < 2 ^ 63) :
    timestamptz ((now + d.toInt) / 1000) := by
  have hmin := d.le_toInt
  have hmax := d.toInt_lt
  unfold timestamptz
  omega

/-- The constraints hold exactly if the request is free of U+0000. -/
theorem checks_iff (hhmac : ∀ key message, (deps.hmac key message).length = 32)
    (hactor : storable 255 actorID)
    (h : insertParams deps cfg inputs actorID req = .ok (params, token)) (now : ℤ) :
    (params.row now).Checks ↔ req.NulFree := by
  obtain ⟨p, haccepts, hcolumns⟩ := insertParams_columns h
  obtain ⟨hlenTitle, hlenDescription, hlenReference⟩ := validateCreate_lengths haccepts.validated
  have htitle := storable_emptyToNil_iff hlenTitle
  have hdescription := storable_emptyToNil_iff hlenDescription
  have hreference := storable_emptyToNil_iff hlenReference
  rw [← hcolumns.title] at htitle
  rw [← hcolumns.description] at hdescription
  rw [← hcolumns.recipientReference] at hreference
  constructor
  · rintro ⟨_, ht, hd, hr, _⟩
    exact ⟨htitle.mp ht, hdescription.mp hd, hreference.mp hr⟩
  · rintro ⟨ht, hd, hr⟩
    obtain ⟨_, _, _, hnormalize, _⟩ := canonicalPayload_spec hcolumns.canonical
    obtain ⟨hmin, hmax⟩ := haccepts.maxFailedAttempts_pos
    have hcreator : storable 255 params.createdBy := insertParams_createdBy h ▸ hactor
    have htoken : params.tokenHash.length = 32 := by
      have htokenHash := haccepts.tokenHash
      unfold Dependencies.tokenHMAC at htokenHash
      split_ifs at htokenHash
      rw [← Option.some.inj htokenHash]
      exact hhmac _ _
    refine ⟨htoken, htitle.mpr ht, hdescription.mpr hd, hreference.mpr hr, hcreator, le_rfl, hmin,
      hmax, (summary_of_normalizePayload hnormalize).1, ?_, ?_, ?_⟩
    · rintro ⟨⟩
    · rintro ⟨⟩
    · rintro ⟨⟩

/-- The other columns fit in any case. -/
theorem fits_iff_checks (hciphertext : ∀ n p, '\u0000' ∉ deps.encrypt n p)
    (hhash : ∀ n p, '\u0000' ∉ deps.hash n p) (hnow : 0 ≤ inputs.now ∧ inputs.now < 2 ^ 63)
    (h : insertParams deps cfg inputs actorID req = .ok (params, token)) (now : ℤ) :
    (params.row now).Fits ↔ (params.row now).Checks := by
  obtain ⟨p, haccepts, hcolumns⟩ := insertParams_columns h
  constructor
  · exact Row.Fits.checks
  · intro hchecks
    obtain ⟨_, _, _, hnormalize, _⟩ := canonicalPayload_spec hcolumns.canonical
    have hcount : params.payloadFieldCount ≤ 50 := (summary_of_normalizePayload hnormalize).2
    obtain ⟨n, _, hencrypted⟩ := haccepts.encrypted
    constructor
    case checks => exact hchecks
    case encryptedPayload =>
      rw [InsertParams.row, hencrypted]
      exact hciphertext n p
    case passwordHash => exact requestedHash_notMem hhash hcolumns.passwordHash
    case expiresAt =>
      rw [InsertParams.row, haccepts.expiresAt]
      exact expiresAt_timestamptz _ hnow
    case payloadFieldCount => exact hcount.trans (by decide)

end SecureShare.Delivery

namespace SecureShare.Handlers
open Go Library Library.Transition Http
open Auth (Actor)
open Delivery (CreateInputs CreateRequest InsertParams storable)

section
variable {srv : Server} {s : Store} {r : Request} {permission : Text} {inputs : ℕ → Inputs}

theorem fromRequest_actorID {session : Auth.Session}
    (h : result srv s (fromRequest srv r) inputs = some session) : storable 255 session.actorID := by
  obtain ⟨id, auth, hlookup⟩ := lookup_of_fromRequest h
  obtain ⟨⟨_, accepted⟩, hstatement, heq⟩ := Option.map_eq_some_iff.mp hlookup
  obtain ⟨_, _, _, _, user, hfind, rfl⟩ := Auth.Repository.sessionByHash_eq_some hstatement
  obtain ⟨⟨hlength, hnul⟩, _⟩ := s.auth.users.checks user (Table.mem_of_find hfind)
  rw [← (Prod.mk.inj heq).2]
  exact ⟨hlength.trans (by decide), hnul⟩

/-- The names of clients and users fit, with the prefix of a client. -/
theorem requireAPI_actorID {actor : Actor}
    (h : result srv s (requireAPI srv r permission) inputs = .ok actor) :
    storable 255 actor.actorID := by
  have houtcome : ClientOutcome srv s r permission inputs _ _ := apiClientActor_outcome
  unfold result at houtcome
  rw [requireAPI_eq] at h
  generalize Program.eval (act srv) s (apiClientActor srv r permission) inputs = found
    at houtcome h
  obtain ⟨t, answer, rest⟩ := found
  cases houtcome with
  | accepted client _ hgrants =>
      cases h
      obtain ⟨_, ⟨hlength, hnul⟩, _⟩ := s.clients.checks client hgrants.stored
      have hprefix : storable 11 "api-client:".toList := by decide
      refine ⟨?_, ?_⟩
      · exact (List.length_append.trans_le (Nat.add_le_add hprefix.1 hlength)).trans (by decide)
      · exact fun h => (List.mem_append.mp h).elim hprefix.2 hnul
  | refused =>
      unfold afterClient at h
      dsimp only at h
      split_ifs at h
      · cases h
        decide
      · obtain ⟨session, hsession, _, rfl⟩ := requireSession_ok.mp h
        exact fromRequest_actorID hsession

/-- An INSERT with a new ID and a new token succeeds exactly if the constraints hold. -/
theorem insert_answered_iff {x : Inputs} {params : InsertParams} (hreply : x.reply = .answered)
    (hid : params.id ∉ s.links.rows.map Delivery.Row.id)
    (htoken : params.tokenHash ∉ s.links.rows.map Delivery.Row.tokenHash) :
    (act srv x s (.insert params)).2 = some () ↔ (params.row x.databaseNow).Checks := by
  have hact : act srv x s (.insert params) = Interleaving.Reply.apply .answered s
      ((s.links.insert (params.row x.databaseNow)).map fun links => ({ s with links }, ())) := by
    rw [← hreply]
    rfl
  rw [hact, Delivery.Table.insert]
  constructor
  · intro h
    split_ifs at h with hnew
    · exact hnew.1
    · cases h
  · intro hchecks
    rw [dif_pos ⟨hchecks, hid, htoken⟩]
    rfl

/-- The row of an accepted request fits, and is stored, exactly if the request is free of
U+0000. -/
theorem accepted_row_fits_iff (hhmac : ∀ key message, (srv.deps.hmac key message).length = 32)
    (hciphertext : ∀ n p, '\u0000' ∉ srv.deps.encrypt n p)
    (hhash : ∀ n p, '\u0000' ∉ srv.deps.hash n p) {actor : Actor}
    (hactor : result srv s (requireAPI srv r permission) inputs = .ok actor)
    {create : CreateInputs} (hnow : 0 ≤ create.now ∧ create.now < 2 ^ 63) {req : CreateRequest}
    {params : InsertParams} {token : Text}
    (h : Delivery.insertParams srv.deps srv.cfg create actor.actorID req = .ok (params, token)) :
    (∀ now, (params.row now).Fits ↔ req.NulFree) ∧
    ∀ (x : Inputs) (t : Store), x.reply = .answered →
      params.id ∉ t.links.rows.map Delivery.Row.id →
      params.tokenHash ∉ t.links.rows.map Delivery.Row.tokenHash →
      ((act srv x t (.insert params)).2 = some () ↔ req.NulFree) := by
  have hchecks := Delivery.checks_iff hhmac (requireAPI_actorID hactor) h
  constructor
  · intro now
    exact (Delivery.fits_iff_checks hciphertext hhash hnow h now).trans (hchecks now)
  · intro x t hreply hid htoken
    exact (insert_answered_iff hreply hid htoken).trans (hchecks x.databaseNow)

end

/-- Functions whose results are ASCII, as those of the service are. -/
def encodedDependencies : Delivery.Dependencies where
  hmac _ message := (utf8 message ++ List.replicate 32 0).take 32
  encrypt _ plaintext := "vault:v1:".toList ++ rawURLEncode (utf8 plaintext)
  decrypt _ := none
  hash _ password := "$argon2id$".toList ++ rawURLEncode (utf8 password)
  verifyPassword password hash := hash == "$argon2id$".toList ++ rawURLEncode (utf8 password)

def sampleStoring : Server :=
  { sampleServer with
    settings := { sampleServer.settings with legacyAdminAPIKeyEnabled := true }
    deps := encodedDependencies }

/-- A request with the legacy key. -/
def sampleKeyRequest : Request :=
  { signedIn Auth.sampleID .post with
    cookie := none
    authorization := "Bearer change-me".toList }

/-- A request to create a link with this title. -/
def titledRequest (title : Text) : CreateRequest := { Delivery.sampleRequest with title }

def titledParams (title : Text) : InsertParams :=
  { Delivery.sampleParams with
    tokenHash := encodedDependencies.hmac [] ['t']
    encryptedPayload := encodedDependencies.encrypt 0
      "\x7b\"type\":\"text\",\"text\":\"s\"\x7d".toList
    title }

theorem requireAPI_sampleKey : result sampleStoring sampleStore
    (requireAPI sampleStoring sampleKeyRequest "secret:create".toList)
    (fun _ => sampleHandlerInputs) = .ok legacyActor := by
  decide +kernel

theorem nul_notMem_rawURLEncode {pre : Text} {bytes : Delivery.Bytes} (h : '\u0000' ∉ pre) :
    '\u0000' ∉ pre ++ rawURLEncode bytes := by
  rw [List.mem_append, not_or]
  refine ⟨h, fun hmem => ?_⟩
  have halphabet := rawURLEncode_subset bytes _ hmem
  revert halphabet
  decide

theorem accepted_row_fits_iff_sample :
    Delivery.insertParams encodedDependencies Delivery.sampleConfig Delivery.sampleInputs
      "admin".toList (titledRequest ['a']) = .ok (titledParams ['a'], ['t']) ∧
    ((titledParams ['a']).row 0).Fits := by
  have h : Delivery.insertParams sampleStoring.deps sampleStoring.cfg Delivery.sampleInputs
      legacyActor.actorID (titledRequest ['a']) = .ok (titledParams ['a'], ['t']) := by
    decide +kernel
  have hhmac : ∀ key message, (sampleStoring.deps.hmac key message).length = 32 := by
    intro key message
    simp [sampleStoring, encodedDependencies]
  have hfits := (accepted_row_fits_iff hhmac (fun _ _ => nul_notMem_rawURLEncode (by decide))
    (fun _ _ => nul_notMem_rawURLEncode (by decide)) requireAPI_sampleKey (by decide) h).1 0
  exact ⟨h, hfits.mpr (by decide)⟩

/-- A request is accepted and its secret is encrypted, and the INSERT fails. -/
theorem nul_title_not_stored :
    result sampleStoring sampleStore
      (requireAPI sampleStoring sampleKeyRequest "secret:create".toList)
      (fun _ => sampleHandlerInputs) = .ok legacyActor ∧
    Delivery.insertParams encodedDependencies Delivery.sampleConfig Delivery.sampleInputs
      legacyActor.actorID (titledRequest ['\u0000']) = .ok (titledParams ['\u0000'], ['t']) ∧
    ¬((titledParams ['\u0000']).row 0).Checks ∧
    result sampleStoring sampleStore
      (create sampleStoring legacyActor.actorID (titledRequest ['\u0000']))
      (fun _ => sampleHandlerInputs) = .error (Delivery.internal "insert delivery failed") :=
  ⟨requireAPI_sampleKey, by decide +kernel, by decide +kernel, by decide +kernel⟩

end SecureShare.Handlers
