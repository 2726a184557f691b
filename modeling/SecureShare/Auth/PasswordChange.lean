import SecureShare.Auth.PasswordSystem

/-!
# Sessions after a password change

A change of the password revokes the sessions of the user and issues a new one. A
login that read the old hash before may still create its session afterwards, and the
statements that revoke may fail without the handler noticing. Where neither happens,
each session that is left was created after a check against the new hash or a later
one.
-/
namespace SecureShare.Auth
open Go Library Library.Transition
open Library.Interleaving (System State Reply Action)
open Delivery (UUID Bytes)

/-- The password hashes that were written for the user. -/
def hashesOf (userID : UUID) (log : List PasswordEvent) : List Text :=
  log.filterMap fun event =>
    match event with
    | .passwordSet userID' hash => if userID' = userID then some hash else none
    | .issued _ _ _ => none

section log
variable {userID : UUID} {log : List PasswordEvent} {hash : Text}

theorem hashesOf_append (log' : List PasswordEvent) :
    hashesOf userID (log ++ log') = hashesOf userID log ++ hashesOf userID log' :=
  List.filterMap_append ..

theorem mem_hashesOf : hash ∈ hashesOf userID log ↔ .passwordSet userID hash ∈ log := by
  rw [hashesOf, List.mem_filterMap]
  constructor
  · intro h
    obtain ⟨event, hevent, h⟩ := h
    cases event with
    | passwordSet userID' hash' =>
        dsimp only at h
        split_ifs at h with huser
        cases h
        exact huser ▸ hevent
    | issued => cases h
  · intro h
    exact ⟨_, h, if_pos rfl⟩

/-- The last hash before `n` was written at `p` or later, if one was written at `p < n`. -/
theorem getLast_hashesOf_since {p n : ℕ} {hash₀ : Text}
    (hp : log[p]? = some (.passwordSet userID hash₀)) (hlt : p < n) :
    ∃ hash, (hashesOf userID (log.take n)).getLast? = some hash ∧
      .passwordSet userID hash ∈ log.drop p := by
  obtain ⟨k, rfl⟩ := Nat.exists_eq_add_of_lt hlt
  rw [Nat.add_assoc, List.take_add, hashesOf_append, List.getLast?_append]
  have hmem : hash₀ ∈ hashesOf userID ((log.drop p).take (k + 1)) := by
    rw [mem_hashesOf, List.mem_take_iff_getElem]
    obtain ⟨hlen, hget⟩ := List.getElem?_eq_some_iff.mp hp
    refine ⟨0, ?_, ?_⟩
    · rw [List.length_drop]
      omega
    · simpa using hget
  cases hlast : (hashesOf userID ((log.drop p).take (k + 1))).getLast? with
  | none =>
      rw [List.getLast?_eq_none_iff] at hlast
      rw [hlast] at hmem
      cases hmem
  | some hash =>
      refine ⟨hash, rfl, List.mem_of_mem_take (mem_hashesOf.mp (List.mem_of_getLast? hlast))⟩

end log

/-- The check of `v` has compared with the last hash that was written before it. -/
def ReadFrom (log : List PasswordEvent) (v : Verified) : Prop :=
  v.readAt ≤ log.length ∧
    ∀ hash, (hashesOf v.user.id (log.take v.readAt)).getLast? = some hash → v.hash = hash

theorem ReadFrom.append {log log' : List PasswordEvent} {v : Verified} (h : ReadFrom log v) :
    ReadFrom (log ++ log') v := by
  refine ⟨by rw [List.length_append]; exact Nat.le_add_right_of_le h.1, fun hash hlast => ?_⟩
  rw [List.take_append_of_le_length h.1] at hlast
  exact h.2 hash hlast

/-- Sessions come and go by themselves only in so far as they are revoked. -/
def Shrinks (t t' : SessionTable) : Prop :=
  ∀ r' ∈ t'.rows, ∃ r ∈ t.rows, r'.id = r.id ∧ r'.userID = r.userID ∧
    r'.tokenHash = r.tokenHash ∧ (r'.revokedAt = none → r.revokedAt = none)

def SameHashes (t t' : UserTable) : Prop :=
  ∀ r' ∈ t'.rows, ∃ r ∈ t.rows, r'.id = r.id ∧ r'.passwordHash = r.passwordHash

theorem Shrinks.refl (t : SessionTable) : Shrinks t t := fun r hr => ⟨r, hr, rfl, rfl, rfl, id⟩

theorem SameHashes.refl (t : UserTable) : SameHashes t t := fun r hr => ⟨r, hr, rfl, rfl⟩

theorem Shrinks.of_update {t t' : SessionTable} {p : SessionRow → Bool}
    {f : SessionRow → SessionRow} (h : t.update p f = some t')
    (hf : ∀ r, (f r).id = r.id ∧ (f r).userID = r.userID ∧ (f r).tokenHash = r.tokenHash ∧
      ((f r).revokedAt = none → r.revokedAt = none)) : Shrinks t t' := by
  intro r' hr'
  rw [Table.rows_of_ofRows h] at hr'
  obtain ⟨r, hr, rfl⟩ := List.mem_map.mp hr'
  refine ⟨r, hr, ?_⟩
  split_ifs
  · exact hf r
  · exact ⟨rfl, rfl, rfl, id⟩

namespace PasswordCall

/-- The check after which the next step of the call creates a session. -/
def issues : PasswordCall → Option (Verified × Bool)
  | .login _ (.issuing v) => some (v, true)
  | .changePassword _ (.issuing _ v _) => some (v, false)
  | _ => none

/-- The user whose hash the next step of the call writes. -/
def writes : PasswordCall → Option UUID
  | .changePassword _ (.setting session _) => some session.userID
  | _ => none

end PasswordCall

/-- What a step does to the store. -/
inductive PasswordEffect (call : PasswordCall) (s : PasswordStore) : PasswordStore → Prop
  | kept (s' : PasswordStore) : s'.log = s.log → Shrinks s.auth.sessions s'.auth.sessions →
      SameHashes s.auth.users s'.auth.users → PasswordEffect call s s'
  | written (s' : PasswordStore) (userID : UUID) (hash : Text) (now : ℤ) :
      call.writes = some userID →
      Repository.setPassword now s.auth.users userID hash false = some (s'.auth.users, ()) →
      s'.auth.sessions = s.auth.sessions → s'.log = s.log ++ [.passwordSet userID hash] →
      PasswordEffect call s s'
  | issued (s' : PasswordStore) (v : Verified) (login : Bool) (r : SessionRow) :
      call.issues = some (v, login) → s.auth.sessions.insert r = some s'.auth.sessions →
      r.userID = v.user.id → s'.auth.users = s.auth.users →
      s'.log = s.log ++ [.issued r.id v login] → PasswordEffect call s s'

variable {svc : PasswordService} {inputs : PasswordInputs} {s s' : PasswordStore}
  {call call' : PasswordCall}

theorem PasswordEffect.refl (call : PasswordCall) (s : PasswordStore) : PasswordEffect call s s :=
  .kept s rfl (.refl _) (.refl _)

/-- A statement that may have failed. -/
theorem PasswordEffect.apply {α : Type} (reply : Reply) {result : Option (PasswordStore × α)}
    (h : ∀ s' a, result = some (s', a) → PasswordEffect call s s') :
    PasswordEffect call s (reply.apply s result).1 := by
  rcases reply.apply_store s result with hsame | ⟨a, hresult⟩
  · rw [hsame]
    exact .refl _ _
  · exact h _ a hresult

/-- A statement on the sessions. -/
theorem PasswordEffect.onSessions {α : Type} (reply : Reply) {result : Option (AuthStore × α)}
    (h : ∀ t a, result = some (t, a) → Shrinks s.auth.sessions t.sessions ∧ t.users = s.auth.users) :
    PasswordEffect call s (reply.apply s (PasswordService.onTables s result)).1 := by
  refine .apply reply fun s' a hresult => ?_
  obtain ⟨⟨t, a⟩, ht, heq⟩ := Option.map_eq_some_iff.mp hresult
  cases heq
  obtain ⟨hshrinks, husers⟩ := h t a ht
  exact .kept _ rfl hshrinks (by rw [husers]; exact .refl _)

theorem SessionManager.fromRequest_shrinks {m : SessionManager} {now : ℤ} {t t' : AuthStore}
    {cookie : Option Text} {session : Session}
    (h : m.fromRequest now t cookie = some (t', session)) :
    Shrinks t.sessions t'.sessions ∧ t'.users = t.users := by
  obtain ⟨id, accepted, _, hstatement, _⟩ := SessionManager.fromRequest_eq_some h
  obtain ⟨hupdate, _⟩ := Repository.sessionByHash_eq_some hstatement
  refine ⟨.of_update hupdate fun _ => ⟨rfl, rfl, rfl, fun h => h⟩, ?_⟩
  obtain ⟨_, _, h⟩ := Option.bind_eq_some_iff.mp hstatement
  obtain ⟨_, _, h⟩ := Option.bind_eq_some_iff.mp h
  obtain ⟨_, _, heq⟩ := Option.map_eq_some_iff.mp h
  cases heq
  rfl

theorem Repository.revokeSessions_shrinks {databaseNow : ℤ} {t t' : AuthStore}
    {p : SessionRow → Bool} {u : Unit}
    (h : Repository.revokeSessions databaseNow t p = some (t', u)) :
    Shrinks t.sessions t'.sessions ∧ t'.users = t.users := by
  refine ⟨.of_update (Repository.revokeSessions_eq_some h) fun _ => ⟨rfl, rfl, rfl, ?_⟩, ?_⟩
  · exact fun h => by cases h
  · obtain ⟨_, _, heq⟩ := Option.map_eq_some_iff.mp h
    cases heq
    rfl

theorem SessionManager.destroy_shrinks {m : SessionManager} {databaseNow : ℤ} {t t' : AuthStore}
    {cookie : Option Text} {id : Text} (h : m.destroy databaseNow t cookie = some (t', id)) :
    Shrinks t.sessions t'.sessions ∧ t'.users = t.users := by
  obtain ⟨_, _, h⟩ := Option.bind_eq_some_iff.mp h
  obtain ⟨⟨_, _⟩, hrevoke, heq⟩ := Option.map_eq_some_iff.mp h
  cases heq
  exact Repository.revokeSessions_shrinks hrevoke

/-- `CreateForUser` inserts a row that it tells the ID of. -/
theorem SessionManager.issue_eq_some {m : SessionManager} {databaseNow now : ℤ} {t t' : AuthStore}
    {idBytes : Option Bytes} {sessionID : Option UUID} {user : User} {session : Session}
    (h : m.issue databaseNow now t idBytes sessionID user = some (t', session)) :
    t'.users = t.users ∧ session.userID = user.id ∧ ∃ r : SessionRow,
      t.sessions.insert r = some t'.sessions ∧ r.id = session.sessionID ∧ r.userID = user.id := by
  unfold issue at h
  split at h
  · obtain ⟨⟨_, _⟩, hcreate, heq⟩ := Option.map_eq_some_iff.mp h
    cases heq
    unfold Repository.createSession at hcreate
    split_ifs at hcreate
    obtain ⟨_, hinsert, heq⟩ := Option.map_eq_some_iff.mp hcreate
    cases heq
    exact ⟨rfl, rfl, _, hinsert, rfl, rfl⟩
  · cases h

theorem issue_effect {v : Verified} {login : Bool} (h : call.issues = some (v, login)) :
    PasswordEffect call s (svc.issue inputs s v login).1 := by
  refine .apply inputs.reply fun s' session hresult => ?_
  obtain ⟨⟨t, session⟩, hissue, heq⟩ := Option.map_eq_some_iff.mp hresult
  cases heq
  obtain ⟨husers, _, r, hinsert, hid, hr⟩ := SessionManager.issue_eq_some hissue
  exact .issued _ v login r h hinsert hr husers (by rw [hid])

theorem setPassword_effect {userID : UUID} {password : Text} (h : call.writes = some userID) :
    PasswordEffect call s (svc.setPassword inputs s userID password).1 := by
  refine .apply inputs.reply fun s' u hresult => ?_
  obtain ⟨hash, _, hresult⟩ := Option.bind_eq_some_iff.mp hresult
  obtain ⟨⟨t, _⟩, ht, heq⟩ := Option.map_eq_some_iff.mp hresult
  cases heq
  exact .written _ userID hash inputs.databaseNow h ht rfl rfl

theorem touchLastLogin_effect {now : ℤ} {userID : UUID} :
    PasswordEffect call s (inputs.reply.apply s
      ((Repository.touchLastLogin now s.auth.users userID).map fun r =>
        (({ s with auth := { s.auth with users := r.1 } } : PasswordStore), r.2))).1 := by
  refine .apply inputs.reply fun s' u hresult => ?_
  obtain ⟨⟨t, _⟩, ht, heq⟩ := Option.map_eq_some_iff.mp hresult
  cases heq
  obtain ⟨t', ht', heq⟩ := Option.map_eq_some_iff.mp ht
  cases heq
  refine .kept _ rfl (.refl _) fun r' hr' => ?_
  rw [Table.rows_of_ofRows ht'] at hr'
  obtain ⟨r, hr, rfl⟩ := List.mem_map.mp hr'
  exact ⟨r, hr, by split_ifs <;> rfl, by split_ifs <;> rfl⟩

/-- The effect of every step. -/
theorem PasswordService.advance_effect (h : svc.advance inputs s call = some (s', call')) :
    PasswordEffect call s s' := by
  cases call with
  | login req phase =>
      obtain ⟨r, hr, heq⟩ := Option.map_eq_some_iff.mp h
      cases heq
      cases phase with
      | finding =>
          cases hr
          exact .refl _ _
      | destroying v =>
          cases hr
          exact .onSessions _ fun _ _ => SessionManager.destroy_shrinks
      | issuing v =>
          cases hr
          exact issue_effect rfl
      | touching session =>
          cases hr
          exact touchLastLogin_effect
      | answered | refused => cases hr
  | logout req phase =>
      obtain ⟨r, hr, heq⟩ := Option.map_eq_some_iff.mp h
      cases heq
      cases phase with
      | authorizing =>
          cases hr
          exact .onSessions _ fun _ _ => SessionManager.fromRequest_shrinks
      | destroying =>
          cases hr
          exact .onSessions _ fun _ _ => SessionManager.destroy_shrinks
      | answered | refused => cases hr
  | changePassword req phase =>
      obtain ⟨r, hr, heq⟩ := Option.map_eq_some_iff.mp h
      cases heq
      cases phase with
      | authorizing =>
          cases hr
          exact .onSessions _ fun _ _ => SessionManager.fromRequest_shrinks
      | verifying session =>
          cases hr
          exact .refl _ _
      | setting session v =>
          cases hr
          exact setPassword_effect rfl
      | revoking session v setAt =>
          cases hr
          exact .onSessions _ fun _ _ => Repository.revokeSessions_shrinks
      | destroying session v setAt =>
          cases hr
          exact .onSessions _ fun _ _ => SessionManager.destroy_shrinks
      | issuing session v setAt =>
          cases hr
          exact issue_effect rfl
      | answered | refused => cases hr

/-- The hash of a row is the last that was written for its user, and every session was
created after such a check. -/
structure PasswordStore.Linked (s : PasswordStore) : Prop where
  users : ∀ r ∈ s.auth.users.rows, ∀ hash, (hashesOf r.id s.log).getLast? = some hash →
    r.passwordHash = hash
  issued : ∀ id v login, .issued id v login ∈ s.log → ReadFrom s.log v

/-- The new password of the user is at this place in the log. -/
def SetAt (log : List PasswordEvent) (userID : UUID) (setAt : ℕ) : Prop :=
  ∃ hash, log[setAt]? = some (.passwordSet userID hash)

/-- What a request knows. -/
def PasswordCall.Sound (svc : PasswordService) (log : List PasswordEvent) : PasswordCall → Prop
  | .login _ (.destroying v) | .login _ (.issuing v) => ReadFrom log v
  | .changePassword req phase =>
    match phase with
    | .verifying session => req.cookie.bind svc.manager.unsign = some session.id
    | .setting session v =>
      req.cookie.bind svc.manager.unsign = some session.id ∧ v.user.id = session.userID ∧
        ReadFrom log v
    | .revoking session v setAt | .destroying session v setAt | .issuing session v setAt =>
      req.cookie.bind svc.manager.unsign = some session.id ∧ v.user.id = session.userID ∧
        ReadFrom log v ∧ SetAt log session.userID setAt
    | .answered session setAt => SetAt log session.userID setAt
    | .authorizing | .refused => True
  | .login _ _ | .logout _ _ => True

theorem SetAt.append {log log' : List PasswordEvent} {userID : UUID} {setAt : ℕ}
    (h : SetAt log userID setAt) : SetAt (log ++ log') userID setAt := by
  obtain ⟨hash, hget⟩ := h
  refine ⟨hash, ?_⟩
  rw [List.getElem?_append_left (List.getElem?_eq_some_iff.mp hget).1, hget]

theorem PasswordCall.Sound.append {log log' : List PasswordEvent} (h : call.Sound svc log) :
    call.Sound svc (log ++ log') := by
  cases call with
  | login req phase =>
      cases phase with
      | destroying v | issuing v => exact ReadFrom.append h
      | finding | touching | answered | refused => trivial
  | logout => trivial
  | changePassword req phase =>
      cases phase with
      | verifying => exact h
      | setting => exact ⟨h.1, h.2.1, h.2.2.append⟩
      | revoking | destroying | issuing => exact ⟨h.1, h.2.1, h.2.2.1.append, h.2.2.2.append⟩
      | answered => exact SetAt.append h
      | authorizing | refused => trivial

theorem PasswordCall.Sound.issues {log : List PasswordEvent} {v : Verified} {login : Bool}
    (h : call.Sound svc log) (hissues : call.issues = some (v, login)) : ReadFrom log v := by
  cases call with
  | login req phase => cases phase <;> cases hissues; exact h
  | logout => cases hissues
  | changePassword req phase => cases phase <;> cases hissues; exact h.2.2.1

theorem PasswordEffect.log (h : PasswordEffect call s s') : ∃ log', s'.log = s.log ++ log' := by
  cases h with
  | kept hlog => exact ⟨[], by rw [hlog, List.append_nil]⟩
  | written _ _ _ _ _ _ hlog => exact ⟨_, hlog⟩
  | issued _ _ _ _ _ _ _ hlog => exact ⟨_, hlog⟩

/-- The row of the user holds the hash that `SetPassword` writes, the others keep theirs. -/
theorem Repository.setPassword_rows {now : ℤ} {t t' : UserTable} {userID : UUID} {hash : Text}
    {force : Bool} (h : Repository.setPassword now t userID hash force = some (t', ())) :
    ∀ r' ∈ t'.rows, ∃ r ∈ t.rows, r'.id = r.id ∧
      r'.passwordHash = if r.id = userID then hash else r.passwordHash := by
  obtain ⟨u, hu, heq⟩ := Option.map_eq_some_iff.mp h
  cases heq
  intro r' hr'
  rw [Table.rows_of_ofRows hu] at hr'
  obtain ⟨r, hr, rfl⟩ := List.mem_map.mp hr'
  refine ⟨r, hr, ?_⟩
  by_cases huser : r.id = userID <;> simp [huser]

theorem PasswordStore.Linked.effect (h : s.Linked) (hcall : call.Sound svc s.log)
    (heffect : PasswordEffect call s s') : s'.Linked := by
  have hissued : ∀ log' id v login, .issued id v login ∈ s.log → ReadFrom (s.log ++ log') v :=
    fun _ id v login hmem => (h.issued id v login hmem).append
  cases heffect with
  | kept hlog _ husers =>
      constructor
      · intro r' hr' hash hlast
        obtain ⟨r, hr, hid, hhash⟩ := husers r' hr'
        rw [hlog, hid] at hlast
        exact hhash.trans (h.users r hr hash hlast)
      · rw [hlog]
        exact h.issued
  | written userID hash now _ hset _ hlog =>
      constructor
      · intro r' hr' hash' hlast
        obtain ⟨r, hr, hid, hhash⟩ := Repository.setPassword_rows hset r' hr'
        rw [hlog, hid, hashesOf_append, List.getLast?_append] at hlast
        by_cases huser : r.id = userID
        · simp only [hashesOf, List.filterMap_cons, huser, if_true, List.filterMap_nil,
            List.getLast?_singleton, Option.some_or, Option.some.injEq] at hlast
          rw [hhash, if_pos huser, hlast]
        · simp only [hashesOf, List.filterMap_cons, if_neg (Ne.symm huser), List.filterMap_nil,
            List.getLast?_nil, Option.none_or] at hlast
          rw [hhash, if_neg huser]
          exact h.users r hr hash' hlast
      · intro id v login hmem
        rw [hlog] at hmem ⊢
        rcases List.mem_append.mp hmem with hmem | hmem
        · exact hissued _ id v login hmem
        · cases List.mem_singleton.mp hmem
  | issued v login r hissues _ _ husers hlog =>
      constructor
      · intro r' hr' hash hlast
        rw [husers] at hr'
        rw [hlog, hashesOf_append] at hlast
        simp only [hashesOf, List.filterMap_cons, List.filterMap_nil, List.append_nil] at hlast
        exact h.users r' hr' hash hlast
      · intro id v' login' hmem
        rw [hlog] at hmem ⊢
        rcases List.mem_append.mp hmem with hmem | hmem
        · exact hissued _ id v' login' hmem
        · cases List.mem_singleton.mp hmem
          exact (hcall.issues hissues).append

theorem authenticate_readFrom {login password : Text} {v : Verified} (h : s.Linked)
    (hv : svc.authenticate inputs s login password = some v) : ReadFrom s.log v := by
  obtain ⟨r, hr, hv⟩ := Option.bind_eq_some_iff.mp hv
  split_ifs at hv
  cases hv
  obtain ⟨r', hr', heq⟩ := Option.map_eq_some_iff.mp (Reply.apply_answer hr)
  obtain rfl := (Prod.mk.inj heq).2
  refine ⟨le_rfl, fun hash hlast => ?_⟩
  rw [List.take_length] at hlast
  exact h.users r' (List.mem_of_mem_filter (List.mem_of_getElem? hr')) hash hlast

theorem fromRequest_cookie {cookie : Option Text} {session : Session}
    (h : (svc.fromRequest inputs s cookie).2 = some session) :
    cookie.bind svc.manager.unsign = some session.id := by
  obtain ⟨⟨t, session⟩, hrequest, heq⟩ := Option.map_eq_some_iff.mp (Reply.apply_answer h)
  obtain rfl := (Prod.mk.inj heq).2
  obtain ⟨id, accepted, hid, _, rfl⟩ := SessionManager.fromRequest_eq_some hrequest
  exact hid

/-- An answered `SetPassword` is the next event of the log. -/
theorem setPassword_log {userID : UUID} {password : Text}
    (h : (svc.setPassword inputs s userID password).2 = some ()) :
    SetAt (svc.setPassword inputs s userID password).1.log userID s.log.length := by
  obtain ⟨hash, _, hresult⟩ := Option.bind_eq_some_iff.mp (Reply.apply_answer h)
  obtain ⟨⟨t, _⟩, _, heq⟩ := Option.map_eq_some_iff.mp hresult
  refine ⟨hash, ?_⟩
  rw [PasswordService.setPassword, ← (Prod.mk.inj heq).1]
  simp

theorem issue_userID {v : Verified} {login : Bool} {session : Session}
    (h : (svc.issue inputs s v login).2 = some session) : session.userID = v.user.id := by
  obtain ⟨⟨t, session⟩, hissue, heq⟩ := Option.map_eq_some_iff.mp (Reply.apply_answer h)
  obtain rfl := (Prod.mk.inj heq).2
  exact (SessionManager.issue_eq_some hissue).2.1

theorem PasswordCall.Sound.changePassword {req : ChangePasswordRequest}
    {phase phase' : ChangePhase} (h : s.Linked)
    (hcall : (PasswordCall.changePassword req phase).Sound svc s.log)
    (hlog : ∃ log', s'.log = s.log ++ log')
    (hadvance : svc.changePassword inputs s req phase = some (s', phase')) :
    (PasswordCall.changePassword req phase').Sound svc s'.log := by
  obtain ⟨log', hlog⟩ := hlog
  have happend : (PasswordCall.changePassword req phase).Sound svc s'.log := by
    rw [hlog]
    exact hcall.append
  cases phase with
  | authorizing =>
      cases hadvance
      split
      · trivial
      · next session hsession =>
        split_ifs
        · exact fromRequest_cookie hsession
        · trivial
  | verifying session =>
      cases hadvance
      split
      · trivial
      · next v hv =>
        split_ifs with hvalid
        · exact ⟨hcall, hvalid.1, authenticate_readFrom h hv⟩
        · trivial
  | setting session v =>
      cases hadvance
      split
      · trivial
      · next hset => exact ⟨happend.1, happend.2.1, happend.2.2, setPassword_log hset⟩
  | revoking session v setAt =>
      cases hadvance
      exact happend
  | destroying session v setAt =>
      cases hadvance
      exact happend
  | issuing session v setAt =>
      cases hadvance
      split
      · trivial
      · next session' hissue =>
        have huser : session'.userID = session.userID := (issue_userID hissue).trans hcall.2.1
        have hset : SetAt _ session.userID setAt := happend.2.2.2
        rw [← huser] at hset
        exact hset
  | answered | refused => cases hadvance

theorem PasswordCall.Sound.advance (h : s.Linked) (hcall : call.Sound svc s.log)
    (hadvance : svc.advance inputs s call = some (s', call')) : call'.Sound svc s'.log := by
  have hlog := (PasswordService.advance_effect hadvance).log
  cases call with
  | login req phase =>
      obtain ⟨⟨_, phase'⟩, hr, heq⟩ := Option.map_eq_some_iff.mp hadvance
      cases heq
      obtain ⟨log', hlog⟩ := hlog
      cases phase with
      | finding =>
          cases hr
          split
          · trivial
          · next v hv =>
            split_ifs <;> exact authenticate_readFrom h hv
      | destroying v =>
          cases hr
          rw [hlog]
          exact ReadFrom.append hcall
      | issuing v =>
          cases hr
          split <;> trivial
      | touching session =>
          cases hr
          trivial
      | answered | refused => cases hr
  | logout req phase =>
      obtain ⟨⟨_, phase'⟩, _, heq⟩ := Option.map_eq_some_iff.mp hadvance
      cases heq
      trivial
  | changePassword req phase =>
      obtain ⟨⟨_, phase'⟩, hr, heq⟩ := Option.map_eq_some_iff.mp hadvance
      cases heq
      exact hcall.changePassword h hlog hr

/-- No request has come yet. -/
def PasswordStore.init (auth : AuthStore) : State PasswordStore PasswordCall := ⟨⟨auth, []⟩, []⟩

theorem sound_of_reachable {auth : AuthStore} {state : State PasswordStore PasswordCall}
    (h : Reachable svc.system.step (PasswordStore.init auth) state) : state.store.Linked ∧
      ∀ (i : ℕ) call, state.calls[i]? = some call → call.Sound svc state.store.log := by
  refine System.assertions_of_reachable (J := PasswordStore.Linked)
    (K := fun _ s call => call.Sound svc s.log) h ?_ (fun i k hk => ?_) ?_ ?_
  · constructor
    · intro r _ hash hlast
      cases hlast
    · intro _ _ _ hmem
      cases hmem
  · cases hk
  · intro _ s request _ _
    cases request <;> trivial
  · intro inputs i s call s' call' hlinked hcall hadvance
    have heffect := PasswordService.advance_effect hadvance
    obtain ⟨log', hlog⟩ := heffect.log
    refine ⟨hlinked.effect hcall heffect, hcall.advance hlinked hadvance, fun _ other _ hother => ?_⟩
    rw [hlog]
    exact hother.append

namespace PasswordCall

/-- The user and the place of the new password, once the other sessions are revoked. -/
def revokedOthers : PasswordCall → Option (UUID × ℕ)
  | .changePassword _ (.destroying session _ setAt) | .changePassword _ (.issuing session _ setAt)
  | .changePassword _ (.answered session setAt) => some (session.userID, setAt)
  | _ => none

/-- The next step of the call revokes sessions. -/
def revokes : PasswordCall → Bool
  | .changePassword _ (.revoking _ _ _) | .changePassword _ (.destroying _ _ _) => true
  | _ => false

end PasswordCall

/-- The statements with which call `i` revokes sessions take effect. Once it has revoked
the other sessions, a session that another call inserts for the user comes from a check
that read the row after the change, in a request of one of these kinds (`true` for a
login). -/
def Orderly (i : ℕ) (kinds : Set Bool) (s : State PasswordStore PasswordCall) :
    Action PasswordRequest PasswordInputs → Prop
  | .spawn _ => True
  | .advance j inputs =>
    (j = i → ∀ call ∈ s.calls[i]?, call.revokes = true → inputs.reply ≠ .failed) ∧
    (j ≠ i → inputs.reply ≠ .failed → ∀ change ∈ s.calls[i]?.bind PasswordCall.revokedOthers,
      ∀ insert ∈ s.calls[j]?.bind PasswordCall.issues, insert.1.user.id = change.1 →
        change.2 < insert.1.readAt ∧ insert.2 ∈ kinds)

instance (i : ℕ) (kinds : Set Bool) [DecidablePred (· ∈ kinds)]
    (s : State PasswordStore PasswordCall) (a : Action PasswordRequest PasswordInputs) :
    Decidable (Orderly i kinds s a) :=
  match a with
  | .spawn _ => inferInstanceAs (Decidable True)
  | .advance _ _ => inferInstanceAs (Decidable (_ ∧ _))

/-- The session comes from a check that read the row of the user after the change. -/
def Fresh (log : List PasswordEvent) (kinds : Set Bool) (userID : UUID) (setAt : ℕ)
    (r : SessionRow) : Prop :=
  ∃ v login, .issued r.id v login ∈ log ∧ v.user.id = userID ∧ setAt < v.readAt ∧ login ∈ kinds

/-- The open sessions of the user are fresh, but for those that meet `P`. -/
def FreshBut (s : PasswordStore) (kinds : Set Bool) (userID : UUID) (setAt : ℕ)
    (P : SessionRow → Prop) : Prop :=
  ∀ r ∈ s.auth.sessions.rows, r.userID = userID → r.revokedAt = none →
    P r ∨ Fresh s.log kinds userID setAt r

/-- What is left of the sessions of the user in each phase of a change. -/
def PasswordCall.Cleared (svc : PasswordService) (kinds : Set Bool) (s : PasswordStore) :
    PasswordCall → Prop
  | .changePassword _ (.destroying session _ setAt) => FreshBut s kinds session.userID setAt
      fun r => r.tokenHash = svc.manager.tokenHash session.id
  | .changePassword _ (.issuing session _ setAt) =>
    FreshBut s kinds session.userID setAt fun _ => False
  | .changePassword _ (.answered session setAt) => FreshBut s kinds session.userID setAt
      fun r => r.id = session.sessionID
  | _ => True

section cleared
variable {kinds : Set Bool} {userID : UUID} {setAt : ℕ} {P P' : SessionRow → Prop}

theorem Fresh.append {log log' : List PasswordEvent} {r : SessionRow}
    (h : Fresh log kinds userID setAt r) : Fresh (log ++ log') kinds userID setAt r := by
  obtain ⟨v, login, hmem, hv⟩ := h
  exact ⟨v, login, List.mem_append_left _ hmem, hv⟩

/-- Revoking sessions does not hurt, nor does it to log more. -/
theorem FreshBut.shrink {log' : List PasswordEvent} (h : FreshBut s kinds userID setAt P)
    (hshrinks : Shrinks s.auth.sessions s'.auth.sessions) (hlog : s'.log = s.log ++ log')
    (hP : ∀ r ∈ s.auth.sessions.rows, ∀ r' ∈ s'.auth.sessions.rows, r'.revokedAt = none →
      r'.id = r.id → r'.tokenHash = r.tokenHash → P r → P' r') :
    FreshBut s' kinds userID setAt P' := by
  intro r' hr' huser hopen
  obtain ⟨r, hr, hid, huser', hhash, hopen'⟩ := hshrinks r' hr'
  apply (h r hr (huser' ▸ huser) (hopen' hopen)).imp
  · exact hP r hr r' hr' hopen hid hhash
  · intro hfresh
    rw [hlog, Fresh, hid]
    exact hfresh.append

/-- A step of another request, which inserts fresh sessions only. -/
theorem FreshBut.effect (h : FreshBut s kinds userID setAt P) (heffect : PasswordEffect call s s')
    (hP : ∀ r r' : SessionRow, r'.id = r.id → r'.tokenHash = r.tokenHash → P r → P r')
    (hinsert : ∀ v login, call.issues = some (v, login) → v.user.id = userID →
      setAt < v.readAt ∧ login ∈ kinds) : FreshBut s' kinds userID setAt P := by
  cases heffect with
  | kept hlog hshrinks =>
      have hlog' : s'.log = s.log ++ [] := by rw [hlog, List.append_nil]
      exact h.shrink hshrinks hlog' fun r _ r' _ _ => hP r r'
  | written _ _ _ _ _ hsessions hlog =>
      refine h.shrink ?_ hlog fun r _ r' _ _ => hP r r'
      rw [hsessions]
      exact .refl _
  | issued v login r hissues hrow huser _ hlog =>
      intro r' hr' huser' hopen
      rw [Table.rows_of_ofRows hrow] at hr'
      rw [hlog]
      rcases List.mem_cons.mp hr' with heq | hr'
      · have hv : v.user.id = userID := by rw [← huser, ← heq, huser']
        refine .inr ⟨v, login, ?_, hv, hinsert v login hissues hv⟩
        rw [heq]
        exact List.mem_append_right _ (List.mem_singleton_self _)
      · exact (h r' hr' huser' hopen).imp_right Fresh.append

theorem Repository.revokeSessions_isSome (databaseNow : ℤ) (t : AuthStore)
    (p : SessionRow → Bool) : ∃ t', Repository.revokeSessions databaseNow t p = some (t', ()) := by
  obtain ⟨sessions, hsessions⟩ := Table.update_isSome (p := fun r => p r && r.revokedAt.isNone)
    (f := fun r : SessionRow => { r with revokedAt := some databaseNow }) (fun _ h => h)
    (fun r r' h => by split_ifs at h <;> exact h) t.sessions
  exact ⟨{ t with sessions }, by rw [Repository.revokeSessions, hsessions, Option.map_some]⟩

/-- A session that is still open afterwards was not to be revoked. -/
theorem Repository.open_of_revokeSessions {databaseNow : ℤ} {t t' : AuthStore}
    {p : SessionRow → Bool} {u : Unit} {r : SessionRow}
    (h : Repository.revokeSessions databaseNow t p = some (t', u)) (hr : r ∈ t'.sessions.rows)
    (hopen : r.revokedAt = none) : p r = false := by
  rw [Table.rows_of_ofRows (Repository.revokeSessions_eq_some h)] at hr
  obtain ⟨r₀, _, rfl⟩ := List.mem_map.mp hr
  split_ifs at hopen ⊢ with hmatches
  simp only [hopen, Option.isNone_none, Bool.and_true, Bool.not_eq_true] at hmatches
  exact hmatches

theorem FreshBut.revokeOtherSessions (session : Session) (hreply : inputs.reply ≠ .failed) :
    FreshBut (svc.revokeOtherSessions inputs s session) kinds session.userID setAt
      fun r => r.tokenHash = svc.manager.tokenHash session.id := by
  obtain ⟨t, ht⟩ := Repository.revokeSessions_isSome inputs.databaseNow s.auth fun r =>
    r.userID = session.userID && r.tokenHash ≠ svc.manager.tokenHash session.id
  have hstore : svc.revokeOtherSessions inputs s session = { s with auth := t } := by
    apply Reply.apply_of_ne_failed (a := ()) _ hreply
    rw [Repository.revokeOtherSessions, ht]
    rfl
  intro r hr huser hopen
  rw [hstore] at hr
  have hnot := Repository.open_of_revokeSessions ht hr hopen
  simp only [huser, decide_true, Bool.true_and, decide_eq_false_iff_not, not_not] at hnot
  exact .inl hnot

theorem FreshBut.destroy {cookie : Option Text} {id : Text} (hreply : inputs.reply ≠ .failed)
    (hcookie : cookie.bind svc.manager.unsign = some id)
    (h : FreshBut s kinds userID setAt fun r => r.tokenHash = svc.manager.tokenHash id) :
    FreshBut (svc.destroy inputs s cookie) kinds userID setAt fun _ => False := by
  obtain ⟨t, ht⟩ := Repository.revokeSessions_isSome inputs.databaseNow s.auth fun r =>
    r.tokenHash = svc.manager.tokenHash id
  have hstore : svc.destroy inputs s cookie = { s with auth := t } := by
    apply Reply.apply_of_ne_failed (a := id) _ hreply
    rw [SessionManager.destroy, hcookie, Option.bind_some, Repository.revokeSession, ht]
    rfl
  rw [hstore]
  have hlog : ({ s with auth := t } : PasswordStore).log = s.log ++ [] := by
    rw [List.append_nil]
  apply h.shrink (Repository.revokeSessions_shrinks ht).1 hlog
  intro r _ r' hr' hopen _ hhash' hhash
  have hnot := Repository.open_of_revokeSessions ht hr' hopen
  exact of_decide_eq_false hnot (hhash'.trans hhash)

theorem FreshBut.issue {v : Verified} {login : Bool} {session : Session}
    (hanswer : (svc.issue inputs s v login).2 = some session)
    (h : FreshBut s kinds userID setAt fun _ => False) :
    FreshBut (svc.issue inputs s v login).1 kinds userID setAt
      fun r => r.id = session.sessionID := by
  obtain ⟨⟨t, session⟩, hissue, heq⟩ := Option.map_eq_some_iff.mp (Reply.apply_answer hanswer)
  obtain ⟨hstore, rfl⟩ := Prod.mk.inj heq
  obtain ⟨_, _, r, hinsert, hid, _⟩ := SessionManager.issue_eq_some hissue
  intro r' hr' huser hopen
  rw [PasswordService.issue, ← hstore] at hr' ⊢
  rw [Table.rows_of_ofRows hinsert] at hr'
  rcases List.mem_cons.mp hr' with heq | hr'
  · exact .inl (heq ▸ hid)
  · rcases h r' hr' huser hopen with hfalse | hfresh
    · cases hfalse
    · exact .inr hfresh.append

end cleared

theorem PasswordService.advance_failed {insert : Verified × Bool}
    (hissues : call.issues = some insert) (hreply : inputs.reply = .failed)
    (h : svc.advance inputs s call = some (s', call')) : s' = s := by
  have hfailed : ∀ {α : Type} (result : Option (PasswordStore × α)),
      (inputs.reply.apply s result).1 = s := by
    intro α result
    rw [hreply]
    cases result <;> rfl
  cases call with
  | login req phase =>
      cases phase with
      | issuing v => exact (Prod.mk.inj (Option.some.inj h)).1.symm.trans (hfailed _)
      | finding | destroying | touching | answered | refused => cases hissues
  | logout => cases hissues
  | changePassword req phase =>
      cases phase with
      | issuing session v setAt =>
          exact (Prod.mk.inj (Option.some.inj h)).1.symm.trans (hfailed _)
      | authorizing | verifying | setting | revoking | destroying | answered | refused =>
          cases hissues

/-- The change itself clears the sessions. -/
theorem PasswordCall.Cleared.advance {kinds : Set Bool} (h : call.Cleared svc kinds s)
    (hsound : call.Sound svc s.log) (hreply : call.revokes = true → inputs.reply ≠ .failed)
    (hadvance : svc.advance inputs s call = some (s', call')) : call'.Cleared svc kinds s' := by
  cases call with
  | login req phase =>
      obtain ⟨_, _, heq⟩ := Option.map_eq_some_iff.mp hadvance
      cases heq
      trivial
  | logout req phase =>
      obtain ⟨_, _, heq⟩ := Option.map_eq_some_iff.mp hadvance
      cases heq
      trivial
  | changePassword req phase =>
      obtain ⟨_, hr, heq⟩ := Option.map_eq_some_iff.mp hadvance
      cases heq
      cases phase with
      | authorizing =>
          cases hr
          split
          · trivial
          · split_ifs <;> trivial
      | verifying session =>
          cases hr
          split
          · trivial
          · split_ifs <;> trivial
      | setting session v =>
          cases hr
          split <;> trivial
      | revoking session v setAt =>
          cases hr
          exact .revokeOtherSessions session (hreply rfl)
      | destroying session v setAt =>
          cases hr
          exact FreshBut.destroy (hreply rfl) hsound.1 h
      | issuing session v setAt =>
          cases hr
          split
          · trivial
          · next session' hissue =>
            have huser : session'.userID = session.userID := (issue_userID hissue).trans hsound.2.1
            have hfresh : FreshBut s kinds session'.userID setAt fun _ => False := huser ▸ h
            exact hfresh.issue hissue
      | answered | refused => cases hr

/-- Other requests do not bring an older session back. -/
theorem PasswordCall.Cleared.other {kinds : Set Bool} {change : PasswordCall}
    (h : change.Cleared svc kinds s) (hadvance : svc.advance inputs s call = some (s', call'))
    (hinsert : inputs.reply ≠ .failed → ∀ c ∈ change.revokedOthers, ∀ insert ∈ call.issues,
      insert.1.user.id = c.1 → c.2 < insert.1.readAt ∧ insert.2 ∈ kinds) :
    change.Cleared svc kinds s' := by
  by_cases hfailed : inputs.reply = .failed ∧ ∃ insert, call.issues = some insert
  · obtain ⟨hreply, insert, hissues⟩ := hfailed
    rwa [PasswordService.advance_failed hissues hreply hadvance]
  · have heffect := PasswordService.advance_effect hadvance
    have hfresh : ∀ userID setAt, change.revokedOthers = some (userID, setAt) →
        ∀ v login, call.issues = some (v, login) → v.user.id = userID →
          setAt < v.readAt ∧ login ∈ kinds := by
      intro userID setAt hchange v login hissues hv
      have hreply : inputs.reply ≠ .failed := fun hreply => hfailed ⟨hreply, _, hissues⟩
      exact hinsert hreply _ hchange _ hissues hv
    cases change with
    | login | logout => trivial
    | changePassword req phase =>
        cases phase with
        | destroying session v setAt =>
            apply FreshBut.effect h heffect _ (hfresh _ _ rfl)
            exact fun r r' _ hhash hP => hhash.trans hP
        | issuing session v setAt =>
            apply FreshBut.effect h heffect _ (hfresh _ _ rfl)
            exact fun r r' _ _ hP => hP
        | answered session setAt =>
            apply FreshBut.effect h heffect _ (hfresh _ _ rfl)
            exact fun r r' hid _ hP => hid.trans hP
        | authorizing | verifying | setting | revoking | refused => trivial

section main
variable {kinds : Set Bool} [DecidablePred (· ∈ kinds)] {auth t : AuthStore}
  {state : State PasswordStore PasswordCall} {i : ℕ}

theorem cleared_of_reachable
    (h : Reachable (restrict (Orderly i kinds) svc.system.step) (PasswordStore.init auth) state) :
    ∀ call, state.calls[i]? = some call → call.Cleared svc kinds state.store := by
  apply h.induction
  · intro call hcall
    cases hcall
  · intro u a w hu hcleared hstep
    obtain ⟨horderly, hstep⟩ := restrict_eq_some.mp hstep
    have hsound := (sound_of_reachable hu.of_restrict).2
    rcases System.step_cases hstep with ⟨request, _, rfl⟩ | ⟨j, x, k, s', k', rfl, hk, hadvance, rfl⟩
    · intro call hcall
      rw [List.getElem?_append] at hcall
      split_ifs at hcall
      · exact hcleared call hcall
      · obtain rfl := List.mem_singleton.mp (List.mem_of_getElem? hcall)
        cases request <;> trivial
    · intro call hcall
      obtain ⟨hrevokes, hinsert⟩ := horderly
      rw [List.getElem?_set] at hcall
      split_ifs at hcall with hij hi
      · cases hcall
        subst hij
        exact (hcleared k hk).advance (hsound j k hk) (hrevokes rfl k hk) hadvance
      · apply (hcleared call hcall).other hadvance
        intro hreply c hc insert hissues
        apply hinsert hij hreply c _ insert
        · rw [hk]
          exact hissues
        · rw [hcall]
          exact hc

/-- Every session of the user that is accepted once a change of the password is answered
is the one that the change has issued, or was created in a request of one of the `kinds`
whose check compared with the hash that the change wrote or a later one; in every run
that is orderly for the change. -/
theorem sessions_after_change {req : ChangePasswordRequest} {session accepted : Session}
    {setAt : ℕ} {now : ℤ} {cookie : Option Text}
    (h : Reachable (restrict (Orderly i kinds) svc.system.step) (PasswordStore.init auth) state)
    (hanswered : state.calls[i]? = some (.changePassword req (.answered session setAt)))
    (haccepted : svc.manager.fromRequest now state.store.auth cookie = some (t, accepted))
    (huser : accepted.userID = session.userID) :
    SetAt state.store.log session.userID setAt ∧
    (accepted.sessionID = session.sessionID ∨
      ∃ v login, .issued accepted.sessionID v login ∈ state.store.log ∧ login ∈ kinds ∧
        v.user.id = session.userID ∧
        .passwordSet session.userID v.hash ∈ state.store.log.drop setAt) := by
  obtain ⟨hlinked, hsound⟩ := sound_of_reachable h.of_restrict
  have hset : SetAt state.store.log session.userID setAt := hsound i _ hanswered
  refine ⟨hset, ?_⟩
  obtain ⟨hash₀, hset⟩ := hset
  obtain ⟨id, _, _, hstatement, rfl⟩ := SessionManager.fromRequest_eq_some haccepted
  obtain ⟨_, r, hr, hmatches, user, hfind, rfl⟩ := Repository.sessionByHash_eq_some hstatement
  have hopen : r.revokedAt = none := by
    by_contra hrevoked
    exact (sessionMatches_iff.mp hmatches).2.1 (.inl hrevoked)
  have hr_user : r.userID = session.userID := (Table.key_of_find hfind).symm.trans huser
  rcases cleared_of_reachable h _ hanswered r hr hr_user hopen with hid | hfresh
  · exact .inl hid
  · obtain ⟨v, login, hmem, hv, hread, hkind⟩ := hfresh
    obtain ⟨hash, hlast, hhash⟩ := getLast_hashesOf_since hset hread
    refine .inr ⟨v, login, hmem, hkind, hv, ?_⟩
    rwa [(hlinked.issued _ v login hmem).2 hash (by rw [hv]; exact hlast)]

end main

def sampleService : PasswordService :=
  ⟨sampleManager, Delivery.sampleDependencies, sampleCase, "development".toList⟩

/-- The database answers every statement, and the random source gives these bytes. -/
def sampleAnswer (idBytes : Bytes) (sessionID : UUID) : PasswordInputs :=
  ⟨.answered, 0, 0, 0, some 0, some idBytes, some sessionID⟩

def sampleLogin (password : Text) : LoginRequest := ⟨"ann".toList, password, none⟩

def sampleIssued (idBytes : Bytes) (sessionID : UUID) : Session :=
  SessionManager.sessionOf (rawURLEncode idBytes)
    ⟨sampleUser.toUser, sessionID, sampleManager.ttl.toInt, 0⟩

def sampleCookie (idBytes : Bytes) : Option Text :=
  some (sampleManager.sign (rawURLEncode idBytes))

/-- The password is `0` before the change and `1` after it. -/
def sampleChange : ChangePasswordRequest where
  cookie := sampleCookie [1, 2, 3]
  csrfToken := sampleManager.csrfToken (sampleIssued [1, 2, 3] 9)
  currentPassword := "0".toList
  newPassword := "1".toList

/-- A login and, in its session, a change of the password as call `i`. Another login has
started when the change starts or only when it is over, and creates its session last. -/
def sampleRun (i : ℕ) (start other : List (Action PasswordRequest PasswordInputs)) :
    List (Action PasswordRequest PasswordInputs) :=
  [.spawn (.login (sampleLogin "0".toList)), .advance 0 (sampleAnswer [1, 2, 3] 9),
    .advance 0 (sampleAnswer [1, 2, 3] 9)] ++ start ++ [.spawn (.changePassword sampleChange)] ++
    List.replicate 6 (.advance i (sampleAnswer [4, 5, 6] 10)) ++ other

def sampleStart (i : ℕ) (password : String) : List (Action PasswordRequest PasswordInputs) :=
  [.spawn (.login (sampleLogin password.toList)), .advance i (sampleAnswer [7, 8, 9] 11)]

/-- What call `i` has come to, which session the cookie of the last login has, and the log. -/
def outcome (i : ℕ) (state : State PasswordStore PasswordCall) :
    Option PasswordCall × Option (UUID × UUID) × List PasswordEvent :=
  (state.calls[i]?, (sampleManager.fromRequest 0 state.store.auth (sampleCookie [7, 8, 9])).map
    fun r => (r.2.sessionID, r.2.userID), state.store.log)

def sampleEvent (sessionID : UUID) (hash : String) (readAt : ℕ) (login : Bool) : PasswordEvent :=
  .issued sessionID ⟨sampleUser.toUser, hash.toList, readAt⟩ login

/-- A login after the change. -/
theorem sessions_after_change_sample : ∃ state t accepted,
    Reachable (restrict (Orderly 1 {k | k = true}) sampleService.system.step)
      (PasswordStore.init ⟨sampleUsers, .empty⟩) state ∧
    sampleManager.fromRequest 0 state.store.auth (sampleCookie [7, 8, 9]) = some (t, accepted) ∧
    (accepted.sessionID = 10 ∨ ∃ v login, .issued accepted.sessionID v login ∈ state.store.log ∧
      login ∈ {k | k = true} ∧ v.user.id = 1 ∧
      .passwordSet 1 v.hash ∈ state.store.log.drop 1) := by
  have hrun : (run (restrict (Orderly 1 {k | k = true}) sampleService.system.step)
      (PasswordStore.init ⟨sampleUsers, .empty⟩) (sampleRun 1 []
        (sampleStart 2 "1" ++ [.advance 2 (sampleAnswer [7, 8, 9] 11)]))).map (outcome 1) =
      some (some (.changePassword sampleChange (.answered (sampleIssued [4, 5, 6] 10) 1)),
        some (11, 1), [sampleEvent 9 "h0" 0 true, .passwordSet 1 "h1".toList,
          sampleEvent 10 "h0" 1 false, sampleEvent 11 "h1" 3 true]) := by
    decide +kernel
  obtain ⟨state, hstate, houtcome⟩ := Reachable.of_map hrun
  obtain ⟨hanswered, hcookie, _⟩ := Prod.mk.inj houtcome |>.imp id Prod.mk.inj
  obtain ⟨⟨t, accepted⟩, haccepted, hids⟩ := Option.map_eq_some_iff.mp hcookie
  exact ⟨state, t, accepted, hstate, haccepted,
    (sessions_after_change hstate hanswered haccepted (Prod.mk.inj hids).2).2⟩

/-- A login that has checked the old password creates its session after the change. -/
theorem old_password_session_accepted : ∃ state t accepted,
    Reachable sampleService.system.step (PasswordStore.init ⟨sampleUsers, .empty⟩) state ∧
    state.calls[2]? = some (.changePassword sampleChange (.answered (sampleIssued [4, 5, 6] 10) 1)) ∧
    sampleManager.fromRequest 0 state.store.auth (sampleCookie [7, 8, 9]) = some (t, accepted) ∧
    accepted.userID = (sampleIssued [4, 5, 6] 10).userID ∧ accepted.sessionID ≠ 10 ∧
    ∀ v login, .issued accepted.sessionID v login ∈ state.store.log →
      .passwordSet accepted.userID v.hash ∉ state.store.log := by
  have hrun : (run sampleService.system.step (PasswordStore.init ⟨sampleUsers, .empty⟩)
      (sampleRun 2 (sampleStart 1 "0") [.advance 1 (sampleAnswer [7, 8, 9] 11)])).map (outcome 2) =
      some (some (.changePassword sampleChange (.answered (sampleIssued [4, 5, 6] 10) 1)),
        some (11, 1), [sampleEvent 9 "h0" 0 true, .passwordSet 1 "h1".toList,
          sampleEvent 10 "h0" 1 false, sampleEvent 11 "h0" 1 true]) := by
    decide +kernel
  obtain ⟨state, hstate, houtcome⟩ := Reachable.of_map hrun
  obtain ⟨hanswered, hcookie, hlog⟩ := Prod.mk.inj houtcome |>.imp id Prod.mk.inj
  obtain ⟨⟨t, accepted⟩, haccepted, hids⟩ := Option.map_eq_some_iff.mp hcookie
  obtain ⟨hid, huser⟩ := Prod.mk.inj hids
  dsimp only at hid huser
  refine ⟨state, t, accepted, hstate, hanswered, haccepted, huser, ?_, ?_⟩
  · rw [hid]
    decide
  · intro v login hissued
    rw [hlog, hid] at hissued
    rw [hlog, huser]
    have hv : v.hash = "h0".toList := by
      simp [sampleEvent] at hissued
      rw [hissued.1]
      rfl
    rw [hv]
    decide

end SecureShare.Auth
