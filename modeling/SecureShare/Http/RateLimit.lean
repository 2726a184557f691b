import SecureShare.Http.ClientAddress
import SecureShare.Library.FixedWindow
import SecureShare.Delivery.Create

/-!
# Limits on opening links

Whoever opens a link is limited by the hash of an address, and the address is the one
that the request claims. A peer that always claims the same address is held to the
limit; one that claims others is not.
-/
namespace SecureShare.Http
open Go Library Library.Transition Library.FixedWindow
open Delivery (Dependencies)

def minute : ℤ := 60 * 1000000000

/-- `Registry.Prepare` -/
def prepareLimit : Limit := ⟨20, minute⟩

/-- `Registry.Consume` -/
def consumeLimit : Limit := ⟨10, minute⟩

/-- `Allow` gives an empty key a name. -/
def limiterKey (key : Text) : Text := if key = [] then "unknown".toList else key

inductive LinkCall where
  | prepare (req : ClientRequest)
  | consume (req : ClientRequest) (token : Text)
  | cleanup
  deriving DecidableEq, Repr

structure LinkGate where
  hasher : IPHasher
  deps : Dependencies
  tokenHMACPepper : Text

namespace LinkGate
variable (gate : LinkGate)

def prepareKey (ipHash : Text) : Text := limiterKey ipHash

/-- `consumeKey` -/
def consumeKey (ipHash token : Text) : Text :=
  limiterKey (match gate.deps.tokenHMAC gate.tokenHMACPepper token with
    | none => ipHash ++ ":missing".toList
    | some hash => ipHash ++ ":".toList ++ rawURLEncode (hash.take 12))

/-- What a call means to `Registry.Prepare`. -/
def prepareOp : LinkCall → Op Text
  | .prepare req => .allow (prepareKey (gate.hasher.ipHash req.proxied))
  | .consume _ _ => .other
  | .cleanup => .cleanup

/-- What a call means to `Registry.Consume`. -/
def consumeOp : LinkCall → Op Text
  | .prepare _ => .other
  | .consume req token => .allow (gate.consumeKey (gate.hasher.ipHash req.proxied) token)
  | .cleanup => .cleanup

end LinkGate

namespace LinkCall

def preparesFrom (peer : Peer) : LinkCall → Bool
  | .prepare req => req.peer = peer
  | _ => false

def consumesFrom (peer : Peer) (token : Text) : LinkCall → Bool
  | .consume req token' => req.peer = peer ∧ token' = token
  | _ => false

end LinkCall

variable {gate : LinkGate}

theorem IPHasher.ipHash_proxied (h : IPHasher) (req : ClientRequest) :
    h.ipHash req.proxied = rawURLEncode (h.digest req.claimedAddress) := by
  rw [ipHash, clientIP_proxied]

/-- Calls that all have the key are limited by it. -/
theorem countP_le_turns {κ ρ : Type*} [DecidableEq κ] {op : ρ → Op κ} {calls : List ρ}
    {p : ρ → Bool} {key : κ} {bound : ℤ}
    (h : (calls.countP fun call => op call = .allow key : ℤ) ≤ bound)
    (hp : ∀ call ∈ calls, p call = true → op call = .allow key) : (calls.countP p : ℤ) ≤ bound := by
  have hle : calls.countP p ≤ calls.countP fun call => op call = .allow key := by
    apply List.countP_mono_left
    intro call hcall hpcall
    exact decide_eq_true (hp call hcall hpcall)
  exact (Int.ofNat_le.mpr hle).trans h

/-- Two requests of one peer have the same hash exactly when they claim the same address,
and as long as those that are granted claim the same one, a peer is granted no more calls
than the limit allows in the time. -/
theorem rate_limit_identity {I : Set ByteString} (hinj : Set.InjOn gate.hasher.digest I) :
    (∀ req req' : ClientRequest, req.peer = req'.peer → req.claimedAddress ∈ I →
      req'.claimedAddress ∈ I →
      (gate.hasher.ipHash req.proxied = gate.hasher.ipHash req'.proxied ↔
        req.claimedAddress = req'.claimedAddress)) ∧
    (∀ clock s t, Reachable (Account.step prepareLimit gate.prepareOp) (.init clock) s →
      Reachable (Account.step prepareLimit gate.prepareOp) s t →
      ∃ calls, t.granted = calls ++ s.granted ∧ ∀ peer address,
        (∀ req, .prepare req ∈ calls → req.peer = peer → req.claimedAddress = address) →
        (calls.countP (·.preparesFrom peer) : ℤ) ≤ turns prepareLimit
          (s.windowOpen (LinkGate.prepareKey (rawURLEncode (gate.hasher.digest address))))
          (t.clock - s.clock)) ∧
    ∀ clock s t, Reachable (Account.step consumeLimit gate.consumeOp) (.init clock) s →
      Reachable (Account.step consumeLimit gate.consumeOp) s t →
      ∃ calls, t.granted = calls ++ s.granted ∧ ∀ peer token address,
        (∀ req, .consume req token ∈ calls → req.peer = peer → req.claimedAddress = address) →
        (calls.countP (·.consumesFrom peer token) : ℤ) ≤ turns consumeLimit
          (s.windowOpen (gate.consumeKey (rawURLEncode (gate.hasher.digest address)) token))
          (t.clock - s.clock) := by
  refine ⟨?_, ?_, ?_⟩
  · intro req req' _ hreq hreq'
    rw [IPHasher.ipHash_proxied, IPHasher.ipHash_proxied]
    constructor
    · intro h
      exact hinj hreq hreq' (rawURLEncode_injective h)
    · intro h
      rw [h]
  · intro clock s t hs ht
    obtain ⟨calls, hgranted, hturns⟩ := Account.granted_le_turns (by decide) (by decide) hs ht
    refine ⟨calls, hgranted, fun peer address haddress => countP_le_turns (hturns _) ?_⟩
    intro call hcall hfrom
    cases call with
    | prepare req =>
        rw [LinkGate.prepareOp, IPHasher.ipHash_proxied,
          haddress req hcall (of_decide_eq_true hfrom)]
    | consume | cleanup => cases hfrom
  · intro clock s t hs ht
    obtain ⟨calls, hgranted, hturns⟩ := Account.granted_le_turns (by decide) (by decide) hs ht
    refine ⟨calls, hgranted, fun peer token address haddress => countP_le_turns (hturns _) ?_⟩
    intro call hcall hfrom
    cases call with
    | consume req token' =>
        obtain ⟨hpeer, rfl⟩ := of_decide_eq_true hfrom
        rw [LinkGate.consumeOp, IPHasher.ipHash_proxied, haddress req hcall hpeer]
    | prepare | cleanup => cases hfrom

def sampleGate : LinkGate where
  hasher := ⟨fun _ ip => (ip ++ List.replicate 32 0).take 32, ascii "pepper"⟩
  deps := Delivery.sampleDependencies
  tokenHMACPepper := "pepper".toList

def samplePeer : Peer := ⟨ascii "192.0.2.7", by decide, by decide +kernel⟩

/-- A request with this header. -/
def sampleClaim (header : ByteString) : ClientRequest := ⟨samplePeer, [header], 40000⟩

/-- Requests at one moment. -/
def samplePrepares (headers : List ByteString) : List (ℤ × LinkCall) :=
  headers.map fun header => (0, .prepare (sampleClaim header))

theorem rate_limit_identity_sample :
    sampleGate.hasher.ipHash (sampleClaim (ascii "10.0.0.1")).proxied =
      sampleGate.hasher.ipHash (sampleClaim (ascii "\t10.0.0.1 , 10.0.0.2")).proxied ∧
    ∃ t, Reachable (Account.step prepareLimit sampleGate.prepareOp) (.init 0) t ∧
      (t.granted.countP (·.preparesFrom samplePeer) : ℤ) ≤ 20 := by
  have hinj : Set.InjOn sampleGate.hasher.digest {ip | ip = ascii "10.0.0.1"} :=
    fun _ h _ h' _ => h.trans h'.symm
  have hclaim : (sampleClaim (ascii "10.0.0.1")).claimedAddress = ascii "10.0.0.1" := by
    decide +kernel
  have hclaim' : (sampleClaim (ascii "\t10.0.0.1 , 10.0.0.2")).claimedAddress =
      ascii "10.0.0.1" := by
    decide +kernel
  obtain ⟨hhash, hprepare, _⟩ := rate_limit_identity hinj
  refine ⟨(hhash _ _ rfl hclaim hclaim').mpr (hclaim.trans hclaim'.symm), ?_⟩
  have hrun : (run (Account.step prepareLimit sampleGate.prepareOp) (.init 0)
      (samplePrepares (List.replicate 25 (ascii "10.0.0.1")))).map
        (fun t => (t.granted, t.clock)) =
      some (List.replicate 20 (.prepare (sampleClaim (ascii "10.0.0.1"))), 0) := by
    decide +kernel
  obtain ⟨t, ht, houtcome⟩ := Reachable.of_map hrun
  obtain ⟨hgranted, hclock⟩ := Prod.mk.inj houtcome
  obtain ⟨calls, hcalls, hturns⟩ := hprepare 0 _ t (.refl _) ht
  have hcalls : t.granted = calls := hcalls.trans (List.append_nil _)
  refine ⟨t, ht, ?_⟩
  have hle := hturns samplePeer (ascii "10.0.0.1") fun req hreq _ => by
    rw [← hcalls, hgranted] at hreq
    rw [LinkCall.prepare.inj (List.eq_of_mem_replicate hreq), hclaim]
  rw [← hcalls, hclock] at hle
  exact hle.trans (by decide +kernel)

/-- A peer that claims another address in each request is never held up. -/
theorem claimed_addresses_evade_limit :
    (∃ req req' : ClientRequest, req.peer = req'.peer ∧ req.port = req'.port ∧
      sampleGate.hasher.ipHash req.proxied ≠ sampleGate.hasher.ipHash req'.proxied) ∧
    ∃ t, Reachable (Account.step prepareLimit sampleGate.prepareOp) (.init 0) t ∧ t.clock = 0 ∧
      20 < t.granted.countP (·.preparesFrom samplePeer) := by
  have hhash : sampleGate.hasher.ipHash (sampleClaim (ascii "10.0.0.1")).proxied ≠
      sampleGate.hasher.ipHash (sampleClaim (ascii "10.0.0.2")).proxied := by
    decide +kernel
  have hrun : (run (Account.step prepareLimit sampleGate.prepareOp) (.init 0)
      (samplePrepares ((List.range 25).map fun i => ascii "10.0.0." ++ [UInt8.ofNat (0x61 + i)]))).map
        (fun t => (t.granted.countP (·.preparesFrom samplePeer), t.clock)) = some (25, 0) := by
    decide +kernel
  obtain ⟨t, ht, houtcome⟩ := Reachable.of_map hrun
  obtain ⟨hgranted, hclock⟩ := Prod.mk.inj houtcome
  have hpeer : ∀ header, (sampleClaim header).peer = samplePeer := fun _ => rfl
  have hport : ∀ header, (sampleClaim header).port = 40000 := fun _ => rfl
  refine ⟨⟨sampleClaim (ascii "10.0.0.1"), sampleClaim (ascii "10.0.0.2"), ?_, ?_, hhash⟩,
    t, ht, hclock, ?_⟩
  · rw [hpeer, hpeer]
  · rw [hport, hport]
  · rw [hgranted]
    decide

end SecureShare.Http
