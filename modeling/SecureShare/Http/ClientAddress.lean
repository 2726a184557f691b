import SecureShare.Go.Bytes
import SecureShare.Go.Base64

/-!
# The address of a client

What the server takes for the address of a client, the hash by which limits and audit
rows know it, and what the shipped proxy makes of the header that the client sends.
-/
namespace SecureShare.Http
open Go

/-- The address of the connection, and the header `X-Forwarded-For`, empty without one. -/
structure Connection where
  remoteAddr : ByteString
  forwardedFor : ByteString
  deriving DecidableEq, Repr

def colon : UInt8 := 0x3A
def comma : UInt8 := 0x2C
def openBracket : UInt8 := 0x5B
def closeBracket : UInt8 := 0x5D

/-- The host of `net.SplitHostPort`, unless that fails. -/
def splitHostPort (hostport : ByteString) : Option ByteString :=
  if colon ∈ hostport then
    let port := hostport.rtakeWhile (· ≠ colon)
    let before := hostport.take (hostport.length - port.length - 1)
    if hostport.head? = some openBracket then
      let host := hostport.tail.takeWhile (· ≠ closeBracket)
      if before = openBracket :: host ++ [closeBracket] ∧ openBracket ∉ hostport.tail ∧
          closeBracket ∉ port then some host
      else none
    else if colon ∈ before ∨ openBracket ∈ hostport ∨ closeBracket ∈ hostport then none
    else some before
  else none

example : splitHostPort (ascii "[fe80::1]:443") = some (ascii "fe80::1") := by decide

def clientIP (r : Connection) : ByteString :=
  let host := (splitHostPort r.remoteAddr).getD r.remoteAddr
  if r.forwardedFor = [] then host
  else
    let first := ByteString.trimSpace (r.forwardedFor.takeWhile (· ≠ comma))
    if first = [] then host else first

/-- HMAC-SHA-256 and `RequestIPHashPepper`. -/
structure IPHasher where
  hmac : ByteString → ByteString → ByteString
  pepper : ByteString

namespace IPHasher
variable (h : IPHasher)

def digest (ip : ByteString) : ByteString := (h.hmac h.pepper ip).take 12

/-- `IPHash` -/
def ipHash (r : Connection) : Text := rawURLEncode (h.digest (clientIP r))

end IPHasher

/-- The address of a peer, as the proxy writes it. -/
structure Peer where
  text : ByteString
  nonempty : text ≠ []
  plain : ∀ b ∈ text, ByteString.Visible b ∧ b ≠ comma
  deriving DecidableEq, Repr

/-- A request that reaches the proxy: the values of `X-Forwarded-For` that the client
sends, and the port from which the proxy passes it on. -/
structure ClientRequest where
  peer : Peer
  forwardedFor : List ByteString
  port : ℕ
  deriving DecidableEq, Repr

/-- `$proxy_add_x_forwarded_for` -/
def proxyAddXForwardedFor (peer : Peer) (values : List ByteString) : ByteString :=
  (values.flatMap fun value => value ++ ascii ", ") ++ peer.text

namespace ClientRequest

/-- The request as the server gets it. -/
def proxied (req : ClientRequest) : Connection where
  remoteAddr := ascii "127.0.0.1:" ++ (Nat.toDigits 10 req.port).map fun c => UInt8.ofNat c.toNat
  forwardedFor := proxyAddXForwardedFor req.peer req.forwardedFor

/-- The address that a request claims: what stands before the first comma of its header.
Where nothing stands there it is the address of the proxy, and without a header that of
the peer. -/
def claimedAddress (req : ClientRequest) : ByteString :=
  match req.forwardedFor with
  | [] => req.peer.text
  | value :: _ =>
    let first := ByteString.trimSpace (value.takeWhile (· ≠ comma))
    if first = [] then ascii "127.0.0.1" else first

end ClientRequest

variable {req req' : ClientRequest}

/-- The digits of a port have no meaning in an address. -/
theorem digit_ne {port : ℕ} {b : UInt8}
    (hb : b ∈ (Nat.toDigits 10 port).map fun c => UInt8.ofNat c.toNat) :
    b ≠ colon ∧ b ≠ openBracket ∧ b ≠ closeBracket := by
  obtain ⟨c, hc, rfl⟩ := List.mem_map.mp hb
  have hdigit : c.isDigit = true := Nat.isDigit_of_mem_toDigits (by decide) (by decide) hc
  have hrange : c.toNat ≤ 57 := by
    simp only [Char.isDigit, Bool.and_eq_true, decide_eq_true_eq, UInt32.le_iff_toNat_le] at hdigit
    exact hdigit.2
  have hne : ∀ separator : UInt8, 57 < separator.toNat → UInt8.ofNat c.toNat ≠ separator := by
    intro separator hseparator heq
    rw [← heq, UInt8.toNat_ofNat', Nat.mod_eq_of_lt (by omega)] at hseparator
    omega
  exact ⟨hne _ (by decide), hne _ (by decide), hne _ (by decide)⟩

/-- What follows the last separator. -/
theorem rtakeWhile_append_separator {xs ys : ByteString} {separator : UInt8}
    (h : separator ∉ ys) :
    (xs ++ separator :: ys).rtakeWhile (· ≠ separator) = ys := by
  rw [List.rtakeWhile, List.reverse_append, List.reverse_cons, List.append_assoc,
    List.takeWhile_append_of_pos]
  · simp
  · intro b hb
    have hb : b ∈ ys := List.mem_reverse.mp hb
    simpa using fun heq : b = separator => h (heq ▸ hb)

theorem splitHostPort_proxied :
    splitHostPort req.proxied.remoteAddr = some (ascii "127.0.0.1") := by
  have hdigit : ∀ b ∈ (Nat.toDigits 10 req.port).map fun c => UInt8.ofNat c.toNat,
      b ≠ colon ∧ b ≠ openBracket ∧ b ≠ closeBracket := fun b hb => digit_ne hb
  rw [ClientRequest.proxied]
  generalize (Nat.toDigits 10 req.port).map (fun c => UInt8.ofNat c.toNat) = digits at hdigit ⊢
  have haddr : ascii "127.0.0.1:" ++ digits = ascii "127.0.0.1" ++ colon :: digits := rfl
  have hcolon : colon ∉ digits := fun h => (hdigit _ h).1 rfl
  have hopen : openBracket ∉ ascii "127.0.0.1" ++ colon :: digits := by
    have hdigits : openBracket ∉ digits := fun h => (hdigit _ h).2.1 rfl
    simpa [hdigits] using And.intro (by decide) (by decide)
  have hclose : closeBracket ∉ ascii "127.0.0.1" ++ colon :: digits := by
    have hdigits : closeBracket ∉ digits := fun h => (hdigit _ h).2.2 rfl
    simpa [hdigits] using And.intro (by decide) (by decide)
  have hbefore : (ascii "127.0.0.1" ++ colon :: digits).take
      ((ascii "127.0.0.1" ++ colon :: digits).length - digits.length - 1) = ascii "127.0.0.1" := by
    apply List.take_left'
    rw [List.length_append, List.length_cons]
    omega
  have hnocolon : colon ∉ ascii "127.0.0.1" := by decide
  have hhead : (ascii "127.0.0.1" ++ colon :: digits).head? ≠ some openBracket := by
    intro h
    exact hopen (List.mem_of_mem_head? h)
  dsimp only
  rw [haddr, splitHostPort, if_pos (by simp)]
  dsimp only
  rw [rtakeWhile_append_separator hcolon, if_neg hhead, hbefore, if_neg]
  simp [hnocolon, hopen, hclose]

/-- The server believes the header. -/
theorem clientIP_proxied : clientIP req.proxied = req.claimedAddress := by
  have hvisible : ∀ b ∈ req.peer.text, ByteString.Visible b := fun b hb => (req.peer.plain b hb).1
  have hcomma : req.peer.text.takeWhile (· ≠ comma) = req.peer.text := by
    rw [List.takeWhile_eq_self_iff]
    intro b hb
    simpa using (req.peer.plain b hb).2
  rw [clientIP, splitHostPort_proxied, Option.getD_some]
  unfold ClientRequest.proxied ClientRequest.claimedAddress proxyAddXForwardedFor
  cases req.forwardedFor with
  | nil =>
      simp only [List.flatMap_nil, List.nil_append, req.peer.nonempty, if_false]
      rw [hcomma, ByteString.trimSpace_of_visible hvisible, if_neg req.peer.nonempty]
  | cons value values =>
      have hheader : ((value :: values).flatMap fun value => value ++ ascii ", ") ++ req.peer.text =
          value ++ comma :: (0x20 :: ((values.flatMap fun value => value ++ ascii ", ") ++
            req.peer.text)) := by
        rw [List.flatMap_cons, List.append_assoc, List.append_assoc]
        rfl
      rw [hheader, if_neg (by simp), takeWhile_append_separator]

end SecureShare.Http
