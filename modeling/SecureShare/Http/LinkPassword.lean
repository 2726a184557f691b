import SecureShare.Delivery.System
import SecureShare.Go.Base64
import SecureShare.Http.ConsumeBody

/-!
# The password of a new link

A password that is asked for should be stored, should fit into a consume request, and should
be the only one that opens the link. `Service.Create` leaves a blank one out and has no limit
for a long one, as `SetPasswordProtection` does.
-/
namespace SecureShare.Http
open Go
open Library.Json (shortestSize minSize)
open Delivery (Service InsertParams CreateInputs CreateRequest insertParams requestedPassword
  requestedHash)

/-- The password of a link with this token takes effect and can be entered. -/
structure Protected (svc : Service) (params : InsertParams) (token password : Text) : Prop where
  stored : ∃ hash, (∀ now, (params.row now).passwordHash = some hash) ∧
    ∀ p, svc.deps.verifyPassword p hash = true ↔ p = password
  entered : ∃ body, ConsumeRequest.read body = some ⟨token, password⟩
  opens : ∀ inputs now t item,
    inputs.database.answer (Delivery.Repository.findConsumeCandidate t now params.tokenHash
      svc.cfg.consumingLeaseTTL) = some (some item) →
    item.passwordHash = params.passwordHash →
    ∀ p, (∃ hash, svc.consumeFind inputs now t token p = .leasing params.tokenHash hash) ↔
      p = password

/-- A token has 43 characters, and each stands for itself. -/
theorem shortestSize_rawURLEncode {bytes : List UInt8} (h : bytes.length = 32) :
    shortestSize (rawURLEncode bytes) = 43 := by
  have halphabet : (base64Alphabet.all fun c => minSize c == 1) = true := by decide +kernel
  have hsize : ∀ c ∈ rawURLEncode bytes, minSize c = 1 := by
    intro c hc
    simpa using List.all_eq_true.mp halphabet c (rawURLEncode_subset bytes c hc)
  rw [Library.Json.shortestSize_eq_length hsize, length_rawURLEncode, h]

theorem entered_iff {token password : Text} (htoken : shortestSize token = 43)
    (hpassword : password ≠ []) :
    (∃ body, ConsumeRequest.read body = some ⟨token, password⟩) ↔ shortestSize password ≤ 4027 := by
  have hne : token ≠ [] := by
    rintro rfl
    cases htoken
  rw [ConsumeRequest.exists_read_iff hne hpassword, ConsumeRequest.byteLength_shortestBody,
    ConsumeRequest.limit]
  dsimp only
  omega

variable {svc : Service} {inputs : CreateInputs} {actorID : Text} {req : CreateRequest}
  {params : InsertParams} {token password : Text}

theorem requestedPassword_eq (hpassword : req.password = some password) :
    requestedPassword req = if trimSpace password = [] then none else some password := by
  rw [requestedPassword, hpassword, Option.filter_some]
  split_ifs <;> simp_all

/-- The hash that a blank password leaves out, or one of the password. -/
theorem passwordHash_eq (hpassword : req.password = some password)
    (h : insertParams svc.deps svc.cfg inputs actorID req = .ok (params, token)) :
    (trimSpace password = [] ∧ params.passwordHash = none) ∨
      trimSpace password ≠ [] ∧ ∃ n, params.passwordHash = some (svc.deps.hash n password) := by
  obtain ⟨_, _, hcolumns⟩ := Delivery.insertParams_columns h
  have hhash := hcolumns.passwordHash
  have hrequested := requestedPassword_eq hpassword
  by_cases hblank : trimSpace password = []
  · rw [if_pos hblank] at hrequested
    rw [requestedHash, hrequested] at hhash
    exact .inl ⟨hblank, (Except.ok.inj hhash).symm⟩
  · rw [if_neg hblank] at hrequested
    exact .inr ⟨hblank, Delivery.requestedHash_eq_ok hrequested hhash⟩

/-- With a stored hash of this password `Consume` goes on for no other. -/
theorem opens_of_hash {n : ℕ}
    (hinjective : ∀ n p p', svc.deps.verifyPassword p' (svc.deps.hash n p) = true ↔ p' = p)
    (hhash : params.passwordHash = some (svc.deps.hash n password))
    (h : insertParams svc.deps svc.cfg inputs actorID req = .ok (params, token))
    (x : Delivery.Inputs) (now : ℤ) (t : Delivery.Table) {item : Delivery.ConsumeCandidate}
    (hitem : x.database.answer (Delivery.Repository.findConsumeCandidate t now params.tokenHash
      svc.cfg.consumingLeaseTTL) = some (some item))
    (hcandidate : item.passwordHash = params.passwordHash) (p : Text) :
    (∃ hash, svc.consumeFind x now t token p = .leasing params.tokenHash hash) ↔ p = password := by
  obtain ⟨_, haccepts⟩ := Delivery.insertParams_spec h
  have hfind : svc.consumeFind x now t token p =
      if svc.deps.verifyPassword p (svc.deps.hash n password) then
        .leasing params.tokenHash (some (svc.deps.hash n password))
      else .failing params.tokenHash (svc.deps.hash n password) := by
    simp only [Service.consumeFind, haccepts.tokenHash, hitem, hcandidate, hhash]
  rw [hfind, ← hinjective n password p]
  split_ifs with hp
  · exact iff_of_true ⟨_, rfl⟩ hp
  · exact iff_of_false (by simp) hp

def sampleTokenInputs : CreateInputs :=
  { Delivery.sampleInputs with token := some (rawURLEncode (List.replicate 32 0)) }

/-- A request to create a link with this password. -/
def passwordRequest (password : Text) : CreateRequest :=
  { Delivery.sampleRequest with password := some password }

def passwordParams (password : Text) : InsertParams :=
  { Delivery.sampleParams with
    tokenHash := Delivery.sampleDependencies.hmac [] (rawURLEncode (List.replicate 32 0))
    passwordHash := if trimSpace password = [] then none else some ('h' :: password) }

end SecureShare.Http
