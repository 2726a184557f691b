import SecureShare.Handlers.Access

/-!
# What operations change

The part of the store that each operation may write, and the operations that keep all rows,
the audit rows and the times when sessions were last seen aside.
-/
namespace SecureShare.Handlers
open Go Library Http
open Auth (Session SessionRow)

/-- The parts of the store, the audit rows aside. -/
inductive Part where
  | auth | clients | links | email | publicExperience
  deriving DecidableEq, Repr

def Part.Same : Part → Store → Store → Prop
  | .auth, s, t => t.auth = s.auth
  | .clients, s, t => t.clients = s.clients
  | .links, s, t => t.links = s.links
  | .email, s, t => t.email = s.email
  | .publicExperience, s, t => t.publicExperience = s.publicExperience

/-- The part that an operation may write. -/
def Op.part : Op → Option Part
  | .sessionByHash _ | .createSession _ | .revokeSession _ | .revokeOtherSessions _ _
  | .createUser _ | .updateUser _ _ | .setPassword _ _ _ | .setThemePreference _ _
  | .touchLastLogin _ => some .auth
  | .touchAPIClient _ | .createAPIClient _ | .setAPIClientStatus _ _
  | .rotateAPIClientSecret _ _ => some .clients
  | .insert _ | .revoke _ | .updatePasswordProtection _ _ | .cleanup
  | .recordPasswordFailure _ _ | .beginConsume _ _ _ | .restoreConsume _ _
  | .completeConsume _ _ => some .links
  | .saveEmailSettings _ => some .email
  | .savePublicSettings _ => some .publicExperience
  | .now | .allow _ _ | .query _ | .userForLogin _ | .userByID _ | .apiClientByClientID _
  | .apiClientByID _ | .insertParams _ _ | .metadata _ | .revokeStatus _ | .hashPassword _
  | .prepare _ | .findConsumeCandidate _ | .newLeaseID | .vaultDecrypt _ | .vaultEncrypt _
  | .getEmailSettings | .smtp | .getPublicSettings | .recordAuditEvent _ => none

/-- A session, but for the time when it was last seen. -/
def unseen (row : SessionRow) : SessionRow := { row with lastSeenAt := 0 }

/-- The same rows, but for the times when sessions were last seen and the audit rows. -/
structure SameButSeen (s t : Store) : Prop where
  users : t.auth.users = s.auth.users
  sessions : t.auth.sessions.rows.map unseen = s.auth.sessions.rows.map unseen
  clients : t.clients = s.clients
  links : t.links = s.links
  email : t.email = s.email
  publicExperience : t.publicExperience = s.publicExperience

/-- Operations that keep all rows but those. -/
def Op.Keeps : Op → Prop
  | .sessionByHash _ => True
  | op =>
    match op.part with
    | none => True
    | some _ => False

/-- Those of them that record nothing. -/
def Op.Reads : Op → Prop
  | .recordAuditEvent _ => False
  | op => op.Keeps

section effects
variable {srv : Server} {s t : Store} {x : Inputs} {part : Part} {α : Type}

theorem Part.Same.refl (part : Part) (s : Store) : part.Same s s := by
  cases part <;> rfl

theorem reads_store (r : Option α) : (reads x s r).1 = s :=
  congrArg Prod.fst (reads_eq x s r)

/-- What a statement leaves is what it found, or what it makes of it. -/
theorem apply_cases {P : Store → Prop} {r : Option (Store × α)} (hs : P s) (h : ∀ y ∈ r, P y.1) :
    P (x.reply.apply s r).1 := by
  rcases Interleaving.Reply.apply_store x.reply s r with heq | ⟨a, heq⟩
  · rw [heq]
    exact hs
  · exact h _ heq

theorem answer_of_reads {r : Option α} {a : α} (h : (reads x s r).2 = some a) : r = some a := by
  obtain ⟨b, hb, heq⟩ := Option.map_eq_some_iff.mp (Interleaving.Reply.apply_answer h)
  obtain rfl := (Prod.mk.inj heq).2
  exact hb

theorem answer_of_onAuth {r : Option (Auth.AuthStore × α)} {a : α}
    (h : (onAuth x s r).2 = some a) : ∃ auth, r = some (auth, a) := by
  obtain ⟨found, hfound, heq⟩ := Option.map_eq_some_iff.mp (Interleaving.Reply.apply_answer h)
  obtain rfl := (Prod.mk.inj heq).2
  exact ⟨found.1, hfound⟩

theorem onAuth_part {r : Option (Auth.AuthStore × α)} (h : part ≠ .auth) :
    part.Same s (onAuth x s r).1 := by
  refine apply_cases (.refl part s) fun y hy => ?_
  obtain ⟨found, _, rfl⟩ := Option.map_eq_some_iff.mp hy
  cases part with
  | auth => exact absurd rfl h
  | _ => rfl

theorem onClients_part {r : Option (Auth.ClientTable × α)} (h : part ≠ .clients) :
    part.Same s (onClients x s r).1 := by
  refine apply_cases (.refl part s) fun y hy => ?_
  obtain ⟨found, _, rfl⟩ := Option.map_eq_some_iff.mp hy
  cases part with
  | clients => exact absurd rfl h
  | _ => rfl

theorem onLinks_part {r : Delivery.Table × α} (h : part ≠ .links) :
    part.Same s (onLinks x s r).1 := by
  refine apply_cases (.refl part s) ?_
  rintro _ ⟨⟩
  cases part with
  | links => exact absurd rfl h
  | _ => rfl

/-- An operation writes its own part only. -/
theorem act_part {op : Op} (h : op.part ≠ some part) : part.Same s (act srv x s op).1 := by
  cases op with
  | now | allow | insertParams | hashPassword | newLeaseID | vaultDecrypt | vaultEncrypt | smtp =>
      exact .refl part s
  | query | userForLogin | userByID | apiClientByClientID | apiClientByID | metadata | revokeStatus
  | prepare | findConsumeCandidate | getEmailSettings | getPublicSettings =>
      exact (reads_store (x := x) (s := s) _).symm ▸ Part.Same.refl part s
  | sessionByHash | createSession | revokeSession | revokeOtherSessions | createUser | updateUser
  | setPassword | setThemePreference | touchLastLogin =>
      exact onAuth_part fun hpart => h (congrArg some hpart.symm)
  | touchAPIClient | setAPIClientStatus =>
      exact onClients_part fun hpart => h (congrArg some hpart.symm)
  | createAPIClient | rotateAPIClientSecret =>
      unfold act
      dsimp only
      split
      · exact onClients_part fun hpart => h (congrArg some hpart.symm)
      · exact .refl part s
  | revoke | updatePasswordProtection | recordPasswordFailure | beginConsume | restoreConsume
  | completeConsume =>
      exact onLinks_part fun hpart => h (congrArg some hpart.symm)
  | insert | recordAuditEvent =>
      refine apply_cases (.refl part s) fun y hy => ?_
      obtain ⟨found, _, rfl⟩ := Option.map_eq_some_iff.mp hy
      cases part with
      | _ => first | rfl | exact absurd rfl h
  | cleanup | saveEmailSettings | savePublicSettings =>
      refine apply_cases (.refl part s) ?_
      rintro _ ⟨⟩
      cases part with
      | _ => first | rfl | exact absurd rfl h

theorem lookup_same {now : ℤ} {id : Text} {found : Auth.AuthStore × Session}
    (h : srv.manager.lookup now s.auth id = some found) :
    found.1.users = s.auth.users ∧
      found.1.sessions.rows.map unseen = s.auth.sessions.rows.map unseen := by
  obtain ⟨accepted, haccepted, rfl⟩ := Option.map_eq_some_iff.mp h
  unfold Auth.Repository.sessionByHash at haccepted
  obtain ⟨sessions, hsessions, hfound⟩ := Option.bind_eq_some_iff.mp haccepted
  obtain ⟨row, _, huser⟩ := Option.bind_eq_some_iff.mp hfound
  obtain ⟨user, _, rfl⟩ := Option.map_eq_some_iff.mp huser
  refine ⟨rfl, ?_⟩
  change sessions.rows.map unseen = _
  rw [Table.rows_of_ofRows hsessions, List.map_map]
  apply List.map_congr_left
  intro row _
  rw [Function.comp_apply]
  split_ifs <;> rfl

theorem SameButSeen.of_same (h : ∀ part : Part, part ≠ .auth → part.Same s t)
    (husers : t.auth.users = s.auth.users)
    (hsessions : t.auth.sessions.rows.map unseen = s.auth.sessions.rows.map unseen) :
    SameButSeen s t where
  users := husers
  sessions := hsessions
  clients := h .clients (by decide)
  links := h .links (by decide)
  email := h .email (by decide)
  publicExperience := h .publicExperience (by decide)

theorem act_keeps {op : Op} (h : op.Keeps) : SameButSeen s (act srv x s op).1 := by
  cases hop : op.part with
  | none =>
      have hsame : ∀ part : Part, part.Same s (act srv x s op).1 := fun part =>
        act_part (by simp [hop])
      have hauth : (act srv x s op).1.auth = s.auth := hsame .auth
      exact .of_same (fun part _ => hsame part) (by rw [hauth]) (by rw [hauth])
  | some part =>
      cases op with
      | sessionByHash id =>
          refine apply_cases (.of_same (fun part _ => .refl part s) rfl rfl) fun y hy => ?_
          obtain ⟨found, hfound, rfl⟩ := Option.map_eq_some_iff.mp hy
          obtain ⟨husers, hsessions⟩ := lookup_same hfound
          refine .of_same (fun part hpart => ?_) husers hsessions
          cases part with
          | auth => exact absurd rfl hpart
          | _ => rfl
      | _ => first | exact h.elim | cases hop

end effects

end SecureShare.Handlers
