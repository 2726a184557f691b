import SecureShare.Auth.StoreOperations
import SecureShare.Auth.UserUpdates

/-!
# MemoryStore simulates Repository

Each operation on which the two stores agree has the same answer from both and takes
what the tables hold to what they hold afterwards; so has a run of such operations.
-/
namespace SecureShare.Auth
open Go Library Library.Transition
open Delivery (UUID Bytes storable)

section tables
variable {ρ β κ : Type} [DecidableEq κ] {S : Schema ρ} (key : ρ → κ) (key' : β → κ) (obs : ρ → β)
  {t t' : Table S} {r : ρ} {k : κ} {f : ρ → ρ}

theorem scanned_find (hobs : ∀ r, key' (obs r) = key r) (k : κ) :
    (t.rows.map obs).find? (fun x => key' x = k) = (t.find key k).map obs := by
  rw [List.find?_map]
  simp only [Function.comp_def, hobs]
  rfl

/-- An INSERT as an assignment to a map. -/
theorem scanned_insert (hobs : ∀ r, key' (obs r) = key r)
    (hkey : S.IsKey key) (h : t.insert r = some t') :
    t'.rows.map obs = assign key' (obs r) (t.rows.map obs) := by
  have hdistinct := t'.distinct
  rw [Table.rows_of_ofRows h] at hdistinct ⊢
  rw [List.map_cons, assign_of_absent]
  intro x hx heq
  obtain ⟨y, hy, rfl⟩ := List.mem_map.mp hx
  rw [hobs, hobs] at heq
  exact List.rel_of_pairwise_cons hdistinct hy (hkey heq.symm)

/-- An UPDATE of the row with a key as an assignment to a map. -/
theorem scanned_update (hobs : ∀ r, key' (obs r) = key r)
    (hkey : S.IsKey key) (h : t.update (fun r => key r = k) f = some t') (hr : t.find key k = some r)
    (hf : key (f r) = k) : t'.rows.map obs = assign key' (obs (f r)) (t.rows.map obs) := by
  have hmem : r ∈ t.rows := Table.mem_of_find hr
  have hrk : key r = k := Table.key_of_find hr
  rw [assign_of_mem (x := obs r) (List.mem_map_of_mem hmem) (by rw [hobs, hobs, hrk, hf]),
    Table.rows_of_ofRows h, List.map_map, List.map_map]
  apply List.map_congr_left
  intro x hx
  simp only [Function.comp_apply, hobs, hf, decide_eq_true_eq]
  by_cases hxk : key x = k
  · rw [if_pos hxk, if_pos hxk, Table.eq_of_clash hx hmem (hkey (hxk.trans hrk.symm))]
  · rw [if_neg hxk, if_neg hxk]

end tables

section users
variable {fns : StoreFunctions} {inputs : StoreInputs} {d : Database} {t' : UserTable}
  {r : UserWithPassword} {id : UUID} {f g : UserWithPassword → UserWithPassword}

theorem find_scanned_users (id : UUID) : d.scanned.users.find? (fun r => r.id = id) =
    (d.auth.users.find (fun r : UserWithPassword => r.id) id).map UserWithPassword.scanned :=
  scanned_find (·.id) (·.id) UserWithPassword.scanned (fun _ => rfl) id

theorem userByID_scanned (id : UUID) : d.scanned.userByID id =
    (Repository.userByID d.auth.users id).map User.scanned := by
  unfold MemoryStore.userByID Repository.userByID
  rw [find_scanned_users, Option.map_map, Option.map_map]
  rfl

theorem updateRecord_of_find_eq_none (h : d.auth.users.find (·.id) id = none) :
    d.scanned.updateRecord inputs id g = none := by
  unfold MemoryStore.updateRecord
  rw [find_scanned_users, h]
  rfl

/-- The same change of a user, put back into the map and written by an UPDATE. -/
theorem updateRecord_scanned (hr : d.auth.users.find (·.id) id = some r)
    (h : Repository.updateRow inputs.now d.auth.users id f = some t') (hf : (f r).id = r.id)
    (hg : { g r.scanned with updatedAt := instant inputs.now } =
      UserWithPassword.scanned { f r with updatedAt := inputs.now }) :
    d.scanned.updateRecord inputs id g =
      some (({ d with auth := { d.auth with users := t' } } : Database).scanned,
        UserWithPassword.scanned { f r with updatedAt := inputs.now }) := by
  unfold MemoryStore.updateRecord
  rw [find_scanned_users, hr, Option.map_some, Option.map_some]
  dsimp only
  rw [hg]
  have hid : r.id = id := by simpa using Table.key_of_find hr
  have hrows := scanned_update (fun r : UserWithPassword => r.id) (·.id) UserWithPassword.scanned
    (fun _ => rfl) isKey_userID h hr (hf.trans hid)
  simp only [Database.scanned, hrows]

theorem find_of_updateRow (hr : d.auth.users.find (·.id) id = some r)
    (h : Repository.updateRow inputs.now d.auth.users id f = some t') (hf : ∀ r, (f r).id = r.id) :
    t'.find (·.id) id = some { f r with updatedAt := inputs.now } := by
  rw [Repository.find_updateRow h hf, hr, Option.map_some, if_pos rfl]

theorem userByID_of_updateRow (hr : d.auth.users.find (·.id) id = none)
    (h : Repository.updateRow inputs.now d.auth.users id f = some t') (hf : ∀ r, (f r).id = r.id) :
    Repository.userByID t' id = none := by
  rw [Repository.userByID, Repository.find_updateRow h hf, hr]
  rfl

/-- An UPDATE that keeps the unique columns does not fail. -/
theorem updateRow_isSome {t : UserTable} {now : ℤ} (hcheck : ∀ r, users.Check r → users.Check (f r))
    (hid : ∀ r, (f r).id = r.id) (hname : ∀ r, (f r).username = r.username)
    (hemail : ∀ r, (f r).email = r.email) : ∃ t', Repository.updateRow now t id f = some t' := by
  apply Table.update_isSome
  · exact hcheck
  · intro r r' hclash
    split_ifs at hclash <;> simpa [users, hid, hname, hemail] using hclash

/-- A user that is put into the map unless the table refuses it. -/
theorem insertUser_same {row : UserWithPassword} {refused : Bool}
    (h : refused = true ↔ ¬(d.auth.users.insert row).isSome) :
    ((d.onUsers ((d.auth.users.insert row).map fun t' => (t', row.toUser))).map fun r =>
      (r.1.scanned, r.2.scanned)) =
      if refused then none
      else some ({ d.scanned with users := assign (·.id) row.scanned d.scanned.users },
        row.toUser.scanned) := by
  cases hinsert : d.auth.users.insert row with
  | none =>
      rw [hinsert] at h
      rw [if_pos (h.mpr (by decide))]
      rfl
  | some t' =>
      rw [hinsert] at h
      rw [if_neg (fun hrefused => h.mp hrefused rfl)]
      have hrows := scanned_insert (fun r : UserWithPassword => r.id) (·.id)
        UserWithPassword.scanned (fun _ => rfl) isKey_userID hinsert
      simp only [Database.onUsers, Option.map_some, Database.scanned, hrows]

theorem createUser_same {params : UserCreate}
    (h : StoresAgree fns inputs d (.createUser params)) :
    d.scanned.createUser fns inputs params =
      (d.onUsers (Repository.createUser inputs.now d.auth.users fns.case fns.deps inputs.salt
        inputs.id params)).map fun r => (r.1.scanned, r.2.scanned) := by
  unfold MemoryStore.createUser Repository.createUser
  dsimp only
  cases hvalid : validateUserCreate (normalizeUserCreate fns.case params) false with
  | none => rfl
  | some valid =>
      obtain ⟨role, status⟩ := valid
      cases hhash : fns.deps.hashPassword inputs.salt
          (normalizeUserCreate fns.case params).password with
      | none => rfl
      | some hash =>
          cases hid : inputs.id with
          | none => rfl
          | some id =>
              have hiff := h (by rw [hvalid]; rfl) hash hhash id hid
              symm
              apply insertUser_same
              rw [Table.insert_isSome_iff, not_and_or]
              refine Iff.trans ?_ (hiff.trans (or_congr Iff.rfl ?_))
              · simp [Database.scanned, List.any_map, UserWithPassword.scanned, User.scanned]
              · simp [users, eq_comm, or_iff_not_imp_left]

/-- An UPDATE that writes a username and an address that no other user has. -/
theorem updateRow_columns {now : ℤ} {t : UserTable} {c : UserColumns}
    (husername : storable 100 c.username) (hemail : storable 255 c.email)
    (hfresh : ∀ r' ∈ t.rows, r'.id ≠ id → r'.username ≠ c.username ∧ r'.email ≠ c.email) :
    ∃ t', Repository.updateRow now t id c.write = some t' := by
  refine ⟨_, dif_pos ⟨?_, ?_⟩⟩
  · intro r hr
    obtain ⟨x, hx, rfl⟩ := List.mem_map.mp hr
    split_ifs
    · exact ⟨husername, hemail, (t.checks x hx).2.2⟩
    · exact t.checks x hx
  · rw [List.pairwise_map]
    refine List.Pairwise.imp_of_mem ?_ t.distinct
    intro x y hx hy hne hclash
    by_cases hxid : x.id = id
    · by_cases hyid : y.id = id
      · exact hne (isKey_userID (hxid.trans hyid.symm))
      · rw [if_pos (by simpa using hxid), if_neg (by simpa using hyid)] at hclash
        obtain ⟨hname, haddress⟩ := hfresh y hy hyid
        rcases hclash with heq | heq | heq
        · exact hne (isKey_userID heq)
        · exact hname heq.symm
        · exact haddress heq.symm
    · by_cases hyid : y.id = id
      · rw [if_neg (by simpa using hxid), if_pos (by simpa using hyid)] at hclash
        obtain ⟨hname, haddress⟩ := hfresh x hx hxid
        rcases hclash with heq | heq | heq
        · exact hne (isKey_userID heq)
        · exact hname heq
        · exact haddress heq
      · rw [if_neg (by simpa using hxid), if_neg (by simpa using hyid)] at hclash
        exact hne hclash

/-- An UPDATE of a user, and the row it returns, against a record that is put back. -/
theorem onUsers_same (hr : d.auth.users.find (·.id) id = some r)
    (h : Repository.updateRow inputs.now d.auth.users id f = some t') (hf : ∀ r, (f r).id = r.id)
    (hg : { g r.scanned with updatedAt := instant inputs.now } =
      UserWithPassword.scanned { f r with updatedAt := inputs.now }) :
    (d.scanned.updateRecord inputs id g).map (fun r => (r.1, r.2.toUser)) =
      (d.onUsers ((Repository.updateRow inputs.now d.auth.users id f).bind fun t' =>
        (Repository.userByID t' id).map fun user => (t', user))).map fun r =>
          (r.1.scanned, r.2.scanned) := by
  rw [updateRecord_scanned hr h (hf r) hg, h, Option.bind_some, Repository.userByID,
    find_of_updateRow hr h hf]
  rfl

theorem onUsers_of_find_eq_none (hr : d.auth.users.find (·.id) id = none)
    (hf : ∀ r, (f r).id = r.id) :
    d.onUsers ((Repository.updateRow inputs.now d.auth.users id f).bind fun t' =>
      (Repository.userByID t' id).map fun user => (t', user)) = none := by
  cases h : Repository.updateRow inputs.now d.auth.users id f with
  | none => rfl
  | some t' =>
      rw [Option.bind_some, userByID_of_updateRow hr h hf]
      rfl

theorem updateUser_same {patch : UserPatch}
    (h : ∀ r ∈ d.auth.users.find (·.id) id, ∀ c ∈ patch.columns fns.case r.toUser,
      storable 100 c.username ∧ storable 255 c.email ∧
        ∀ r' ∈ d.auth.users.rows, r'.id ≠ id → r'.username ≠ c.username ∧ r'.email ≠ c.email) :
    d.scanned.updateUser fns inputs id patch =
      (d.updateUser fns inputs id patch).map fun r => (r.1.scanned, r.2.scanned) := by
  unfold MemoryStore.updateUser Database.updateUser
  rw [userByID_scanned, Repository.userByID]
  cases hr : d.auth.users.find (·.id) id with
  | none => rfl
  | some r =>
      simp only [Option.map_some, Option.bind_some]
      have hcolumns : patch.columns fns.case r.toUser.scanned = patch.columns fns.case r.toUser := rfl
      rw [hcolumns]
      cases hc : patch.columns fns.case r.toUser with
      | none => rfl
      | some c =>
          obtain ⟨husername, hemail, hfresh⟩ := h r hr c hc
          obtain ⟨t', ht'⟩ : ∃ t', Repository.updateRow inputs.now d.auth.users id c.write = some t' :=
            updateRow_columns husername hemail hfresh
          exact onUsers_same hr ht' (fun _ => rfl) rfl

/-- A patch of the status writes the names that the row has. -/
theorem setUserStatus_same {status : Text} :
    d.scanned.setUserStatus fns inputs id status =
      (d.updateUser fns inputs id ⟨none, none, none, some status, none⟩).map fun r =>
        (r.1.scanned, r.2.scanned) := by
  apply updateUser_same
  intro r hr c hc
  have husername : c.username = r.username := UserPatch.columns_column hc .username
  have hemail : c.email = r.email := UserPatch.columns_column hc .email
  have hmem : r ∈ d.auth.users.rows := Table.mem_of_find hr
  have hid : r.id = id := by simpa using Table.key_of_find hr
  obtain ⟨hname, haddress, _⟩ := d.auth.users.checks r hmem
  rw [husername, hemail]
  refine ⟨hname, haddress, fun r' hr' hne => ⟨fun heq => ?_, fun heq => ?_⟩⟩
  · rw [Table.eq_of_clash hr' hmem (.inr (.inl heq))] at hne
    exact hne hid
  · rw [Table.eq_of_clash hr' hmem (.inr (.inr heq))] at hne
    exact hne hid

theorem setPassword_same {password : Text} {forceChange : Bool}
    (h : StoresAgree fns inputs d (.setPassword id password forceChange)) :
    d.scanned.setPassword fns inputs id password forceChange =
      (fns.deps.hashPassword inputs.salt password).bind fun hash =>
        (d.onUsers (Repository.setPassword inputs.now d.auth.users id hash forceChange)).map fun r =>
          r.1.scanned := by
  unfold MemoryStore.setPassword
  cases hhash : fns.deps.hashPassword inputs.salt password with
  | none => rfl
  | some hash =>
      obtain ⟨hnul, hfound⟩ := h hash hhash
      obtain ⟨r, hr⟩ := Option.isSome_iff_exists.mp hfound
      obtain ⟨t', ht'⟩ : ∃ t', Repository.updateRow inputs.now d.auth.users id (fun r => { r with
          passwordHash := hash
          passwordChangedAt := some inputs.now
          forcePasswordChange := forceChange }) = some t' :=
        updateRow_isSome (fun r hr => ⟨hr.1, hr.2.1, hnul⟩) (fun _ => rfl) (fun _ => rfl)
          fun _ => rfl
      simp only [Option.bind_some]
      rw [updateRecord_scanned hr ht' rfl rfl, Repository.setPassword, ht']
      rfl

theorem setThemePreference_same {theme : Text} :
    d.scanned.setThemePreference inputs id theme =
      (validThemePreference theme).bind fun theme =>
        (d.onUsers (Repository.setThemePreference inputs.now d.auth.users id theme)).map fun r =>
          (r.1.scanned, r.2.scanned) := by
  unfold MemoryStore.setThemePreference Repository.setThemePreference
  apply Option.bind_congr
  intro theme _
  cases hr : d.auth.users.find (·.id) id with
  | none =>
      rw [updateRecord_of_find_eq_none hr, onUsers_of_find_eq_none hr]
      · rfl
      · exact fun _ => rfl
  | some r =>
      obtain ⟨t', ht'⟩ : ∃ t', Repository.updateRow inputs.now d.auth.users id
          (fun r => { r with themePreference := theme }) = some t' :=
        updateRow_isSome (fun r hr => hr) (fun _ => rfl) (fun _ => rfl) fun _ => rfl
      exact onUsers_same hr ht' (fun _ => rfl) rfl

theorem touchLastLogin_same (h : StoresAgree fns inputs d (.touchLastLogin id)) :
    d.scanned.touchLastLogin inputs id =
      (d.onUsers (Repository.touchLastLogin inputs.now d.auth.users id)).map fun r =>
        r.1.scanned := by
  obtain ⟨r, hr⟩ := Option.isSome_iff_exists.mp h
  obtain ⟨t', ht'⟩ : ∃ t', Repository.updateRow inputs.now d.auth.users id
      (fun r => { r with lastLoginAt := some inputs.now }) = some t' :=
    updateRow_isSome (fun r hr => hr) (fun _ => rfl) (fun _ => rfl) fun _ => rfl
  rw [MemoryStore.touchLastLogin, updateRecord_scanned hr ht' rfl rfl, Repository.touchLastLogin,
    ht']
  rfl

/-- Rows that both stores see alike, in any order if at most one is looked for. -/
theorem userForLogin_same {login : Text} (h : StoresAgree fns inputs d (.userForLogin login)) :
    d.scanned.userForLogin fns inputs login =
      (d.userForLogin fns inputs login).map UserWithPassword.scanned := by
  obtain ⟨halike, horder⟩ := h
  unfold MemoryStore.userForLogin Database.userForLogin
  dsimp only [Database.scanned]
  rw [inputs.iteration.map, List.find?_map, ← List.head?_filter, ← List.head?_filter]
  have hfilter : (inputs.iteration.order d.auth.users.rows).filter
      ((fun user => decide (normalizeLogin fns.case user.username = normalizeLogin fns.case login) ||
        decide (normalizeLogin fns.case user.email = normalizeLogin fns.case login)) ∘
          UserWithPassword.scanned) =
      (inputs.iteration.order d.auth.users.rows).filter fun r =>
        decide (fns.case.sqlLower r.username = normalizeLogin fns.case login) ||
          decide (fns.case.sqlLower r.email = normalizeLogin fns.case login) := by
    apply List.filter_congr
    intro r hr
    rw [Bool.eq_iff_iff]
    simp only [Function.comp_apply, Bool.or_eq_true, decide_eq_true_eq]
    exact halike r ((inputs.iteration.perm _).mem_iff.mp hr)
  rw [hfilter]
  rcases horder with hlength | horder
  · have hmemory := (inputs.iteration.perm d.auth.users.rows).filter fun r =>
      decide (fns.case.sqlLower r.username = normalizeLogin fns.case login) ||
        decide (fns.case.sqlLower r.email = normalizeLogin fns.case login)
    have htable := (inputs.scan.perm d.auth.users.rows).filter fun r =>
      decide (fns.case.sqlLower r.username = normalizeLogin fns.case login) ||
        decide (fns.case.sqlLower r.email = normalizeLogin fns.case login)
    unfold Repository.usersForLogin at hlength
    cases hrows : d.auth.users.rows.filter fun r =>
        decide (fns.case.sqlLower r.username = normalizeLogin fns.case login) ||
          decide (fns.case.sqlLower r.email = normalizeLogin fns.case login) with
    | nil =>
        rw [hrows] at hmemory htable
        rw [hmemory.eq_nil, htable.eq_nil]
    | cons r rest =>
        rw [hrows] at hlength hmemory htable
        obtain rfl : rest = [] := List.length_eq_zero_iff.mp (by simpa using hlength)
        rw [List.perm_singleton.mp hmemory, List.perm_singleton.mp htable]
  · rw [horder]

theorem listUsers_same (h : StoresAgree fns inputs d .listUsers) :
    d.scanned.listUsers inputs = d.listUsers fns inputs := by
  unfold MemoryStore.listUsers Database.listUsers
  have hsame : ((inputs.scan.order d.auth.users.rows).mergeSort (listedBefore fns)).map
      (fun r => r.toUser.scanned) =
      ((inputs.scan.order d.auth.users.rows).map fun r => r.toUser.scanned).mergeSort
        fun user user' => user.username ≤ user'.username := by
    apply List.map_mergeSort
    intro r hr r' hr'
    rw [Bool.eq_iff_iff, decide_eq_true_eq]
    exact h r ((inputs.scan.perm _).mem_iff.mp hr) r' ((inputs.scan.perm _).mem_iff.mp hr')
  have hmap : (inputs.iteration.order d.scanned.users).map UserWithPassword.toUser =
      (inputs.iteration.order d.auth.users.rows).map fun r => r.toUser.scanned := by
    dsimp only [Database.scanned]
    rw [inputs.iteration.map, List.map_map]
    rfl
  rw [hsame, hmap]
  have hsorted (l : List User) : (l.mergeSort fun user user' =>
      decide (user.username ≤ user'.username)).Pairwise fun user user' =>
        user.username ≤ user'.username := by
    have htrans (a b c : User) (hab : decide (a.username ≤ b.username) = true)
        (hbc : decide (b.username ≤ c.username) = true) :
        decide (a.username ≤ c.username) = true := by
      rw [decide_eq_true_eq] at hab hbc ⊢
      exact le_trans hab hbc
    have htotal (a b : User) :
        (decide (a.username ≤ b.username) || decide (b.username ≤ a.username)) = true := by
      rw [Bool.or_eq_true, decide_eq_true_eq, decide_eq_true_eq]
      exact le_total _ _
    simpa using List.pairwise_mergeSort htrans htotal l
  refine List.Perm.eq_of_pairwise ?_ (hsorted _) (hsorted _) ?_
  · intro user user' huser huser' hle hle'
    rw [List.mem_mergeSort] at huser huser'
    obtain ⟨r, hr, rfl⟩ := List.mem_map.mp huser
    obtain ⟨r', hr', rfl⟩ := List.mem_map.mp huser'
    have hname : r.username = r'.username := le_antisymm hle hle'
    rw [Table.eq_of_clash ((inputs.iteration.perm _).mem_iff.mp hr)
      ((inputs.scan.perm _).mem_iff.mp hr') (.inr (.inl hname))]
  · refine (List.mergeSort_perm _ _).trans (List.Perm.trans ?_ (List.mergeSort_perm _ _).symm)
    exact ((inputs.iteration.perm _).trans (inputs.scan.perm _).symm).map _

end users

section sessions
variable {fns : StoreFunctions} {inputs : StoreInputs} {d : Database} {tokenHash : Bytes}
  {userID : UUID} {expiresAt now : ℤ} {idleTimeout : Duration}

theorem instant_timestamp {t : ℤ} (h : 1000 ∣ t) : instant (timestamp t) = t :=
  Int.mul_ediv_cancel' h

theorem find_scanned_sessions (tokenHash : Bytes) :
    d.scanned.sessions.find? (fun r => r.tokenHash = tokenHash) =
      (d.auth.sessions.find (·.tokenHash) tokenHash).map SessionRow.scanned :=
  scanned_find (·.tokenHash) (·.tokenHash) SessionRow.scanned (fun _ => rfl) tokenHash

theorem createSession_same (h : StoresAgree fns inputs d
      (.createSession userID tokenHash expiresAt now)) :
    d.scanned.createSession inputs userID tokenHash expiresAt now =
      inputs.id.bind fun id =>
        (d.onAuth (Repository.createSession inputs.now d.auth id userID tokenHash expiresAt
          now)).map fun r => (r.1.scanned, r.2) := by
  unfold MemoryStore.createSession
  cases hid : inputs.id with
  | none => rfl
  | some id =>
      obtain ⟨huser, hlength, hfresh, hexpires, hnow⟩ := h id hid
      simp only [Option.map_some, Option.bind_some]
      obtain ⟨user, huser⟩ := Option.isSome_iff_exists.mp huser
      have hinsert : (d.auth.sessions.insert
          { id, userID, tokenHash
            expiresAt := timestamp expiresAt
            lastSeenAt := timestamp now
            createdAt := inputs.now
            revokedAt := none }).isSome := by
        rw [Table.insert_isSome_iff]
        refine ⟨hlength, fun r hr hclash => ?_⟩
        rcases hclash with heq | heq
        · exact (hfresh r hr).1 heq.symm
        · exact (hfresh r hr).2 heq.symm
      obtain ⟨sessions, hsessions⟩ := Option.isSome_iff_exists.mp hinsert
      have hrows := scanned_insert (fun r : SessionRow => r.tokenHash) (·.tokenHash)
        SessionRow.scanned (fun _ => rfl) isKey_sessionHash hsessions
      have hseen : instant (timestamp now) = now := by
        apply instant_timestamp
        rw [hnow]
        exact ⟨inputs.now, rfl⟩
      rw [Repository.createSession, huser, hsessions]
      simp only [SessionRow.scanned, Option.map_none, instant_timestamp hexpires, hseen,
        ← hnow] at hrows
      simp [Database.onAuth, Database.scanned, hrows]

/-- The row of a session, touched in the table and put back into the map. -/
theorem sessionByHash_of_matches {r : SessionRow} {user : UserWithPassword}
    (hr : d.auth.sessions.find (·.tokenHash) tokenHash = some r)
    (huser : d.auth.users.find (·.id) r.userID = some user)
    (hmatches : Repository.sessionMatches d.auth tokenHash now idleTimeout r = true) :
    ∃ sessions, d.auth.sessions.update
        (Repository.sessionMatches d.auth tokenHash now idleTimeout)
        (fun r => { r with lastSeenAt := timestamp now }) = some sessions ∧
      Repository.sessionByHash d.auth tokenHash now idleTimeout =
        some ({ d.auth with sessions }, ⟨user.toUser, r.id, r.expiresAt, timestamp now⟩) ∧
      sessions.rows.map SessionRow.scanned = assign (·.tokenHash)
        (SessionRow.scanned { r with lastSeenAt := timestamp now }) d.scanned.sessions := by
  have hmem : r ∈ d.auth.sessions.rows := Table.mem_of_find hr
  have honly (x : SessionRow) (hx : x ∈ d.auth.sessions.rows) :
      Repository.sessionMatches d.auth tokenHash now idleTimeout x =
        decide (x.tokenHash = tokenHash) := by
    by_cases hhash : x.tokenHash = tokenHash
    · have hhash' : r.tokenHash = tokenHash := by simpa using Table.key_of_find hr
      rw [Table.eq_of_clash hx hmem (isKey_sessionHash (hhash.trans hhash'.symm)), hmatches]
      simpa using hhash'
    · simp [Repository.sessionMatches, hhash]
  obtain ⟨sessions, hsessions⟩ := Table.update_isSome
    (p := Repository.sessionMatches d.auth tokenHash now idleTimeout)
    (f := fun r => { r with lastSeenAt := timestamp now }) (fun _ hcheck => hcheck)
    (fun x y hclash => by split_ifs at hclash <;> exact hclash) d.auth.sessions
  have hupdate : d.auth.sessions.update (fun x => x.tokenHash = tokenHash)
      (fun r => { r with lastSeenAt := timestamp now }) = some sessions := by
    rw [← hsessions]
    unfold Table.update
    congr 1
    apply List.map_congr_left
    intro x hx
    rw [honly x hx]
  refine ⟨sessions, hsessions, ?_, ?_⟩
  · have hreturning : (d.auth.sessions.rows.filter
        (Repository.sessionMatches d.auth tokenHash now idleTimeout)).head? = some r := by
      rw [List.filter_congr honly, List.head?_filter]
      exact hr
    rw [Repository.sessionByHash, hsessions, Option.bind_some, Table.returning, List.head?_map,
      hreturning]
    simp [huser]
  · exact scanned_update (fun r : SessionRow => r.tokenHash) (·.tokenHash) SessionRow.scanned
      (fun _ => rfl) isKey_sessionHash hupdate hr (by simpa using Table.key_of_find hr)

/-- No row matches. -/
theorem sessionByHash_eq_none
    (h : ∀ r ∈ d.auth.sessions.rows,
      Repository.sessionMatches d.auth tokenHash now idleTimeout r = false) :
    Repository.sessionByHash d.auth tokenHash now idleTimeout = none := by
  cases hresult : Repository.sessionByHash d.auth tokenHash now idleTimeout with
  | none => rfl
  | some result =>
      obtain ⟨sessions, _, hresult⟩ := Option.bind_eq_some_iff.mp hresult
      obtain ⟨r, hr, _⟩ := Option.bind_eq_some_iff.mp hresult
      have hmem : r ∈ d.auth.sessions.returning _ _ := List.mem_of_mem_head? hr
      obtain ⟨x, hx, hmatches, _⟩ := Table.mem_returning.mp hmem
      rw [h x hx] at hmatches
      cases hmatches

/-- What `sessionByHash` compares of a row that has the hash. -/
theorem sessionMatches_of_hash (d : Database) (now : ℤ) (idleTimeout : Duration) {r : SessionRow}
    (hhash : r.tokenHash = tokenHash) :
    Repository.sessionMatches d.auth tokenHash now idleTimeout r = true ↔
      r.revokedAt = none ∧
        (timestamp now < r.expiresAt ∧
          timestamp now - Delivery.Row.interval (idleSeconds idleTimeout) < r.lastSeenAt) ∧
        (d.auth.users.find (·.id) r.userID).any (fun user => user.status = .active) := by
  simp only [Repository.sessionMatches, hhash, decide_true, Bool.true_and, Bool.and_eq_true,
    decide_eq_true_eq, Option.isNone_iff_eq_none]
  tauto

theorem sessionByHash_same (h : StoresAgree fns inputs d
      (.sessionByHash tokenHash now idleTimeout)) :
    d.scanned.sessionByHash tokenHash now idleTimeout =
      (d.onAuth (Repository.sessionByHash d.auth tokenHash now idleTimeout)).map fun r =>
        (r.1.scanned, r.2.scanned) := by
  unfold MemoryStore.sessionByHash
  rw [find_scanned_sessions]
  cases hr : d.auth.sessions.find (·.tokenHash) tokenHash with
  | none =>
      rw [sessionByHash_eq_none]
      · rfl
      · intro x hx
        have hne := List.find?_eq_none.mp hr x hx
        simp only [decide_eq_true_eq] at hne
        simp [Repository.sessionMatches, hne]
  | some r =>
      have hmem : r ∈ d.auth.sessions.rows := Table.mem_of_find hr
      have hhash : r.tokenHash = tokenHash := by simpa using Table.key_of_find hr
      have hnone (hnot : Repository.sessionMatches d.auth tokenHash now idleTimeout r = false) :
          Repository.sessionByHash d.auth tokenHash now idleTimeout = none := by
        apply sessionByHash_eq_none
        intro x hx
        by_cases hxhash : x.tokenHash = tokenHash
        · rwa [Table.eq_of_clash hx hmem (isKey_sessionHash (hxhash.trans hhash.symm))]
        · simp [Repository.sessionMatches, hxhash]
      have hmatches := sessionMatches_of_hash d now idleTimeout hhash
      have huserID : r.scanned.userID = r.userID := rfl
      have hrevoked : r.scanned.revokedAt.isSome = r.revokedAt.isSome := by
        simp [SessionRow.scanned]
      simp only [Option.map_some, Option.bind_some, huserID, find_scanned_users, hrevoked]
      cases hat : r.revokedAt with
      | some at₀ =>
          rw [hnone (by rw [← Bool.not_eq_true, hmatches, hat]; simp)]
          rfl
      | none =>
          cases huser : d.auth.users.find (·.id) r.userID with
          | none =>
              rw [hnone (by rw [← Bool.not_eq_true, hmatches, huser]; simp)]
              split_ifs <;> rfl
          | some user =>
              by_cases hactive : user.status = .active
              · obtain ⟨hiff, hwhole⟩ := h r hr hat (by simp [huser, hactive])
                by_cases htime : MemoryStore.sessionInTime now idleTimeout r.scanned = true
                · have hin : Repository.sessionMatches d.auth tokenHash now idleTimeout r = true :=
                    hmatches.mpr ⟨hat, hiff.mp htime, by simp [huser, hactive]⟩
                  obtain ⟨sessions, _, hresult, hrows⟩ := sessionByHash_of_matches hr huser hin
                  have hnow := instant_timestamp (hwhole htime)
                  have hstatus : user.scanned.status = .active := hactive
                  simp only [SessionRow.scanned, hnow] at hrows
                  rw [hresult, htime, if_neg (by decide), Option.map_some, Option.bind_some,
                    if_neg (not_not.mpr hstatus)]
                  simp [Database.onAuth, Database.scanned, hrows, SessionRow.scanned,
                    AcceptedSession.scanned, UserWithPassword.scanned, hnow]
                · rw [hnone (by
                    rw [← Bool.not_eq_true, hmatches]
                    exact fun hin => htime (hiff.mpr hin.2.1))]
                  simp [htime, Database.onAuth]
              · rw [hnone (by rw [← Bool.not_eq_true, hmatches, huser]; simp [hactive])]
                have hstatus : user.scanned.status ≠ .active := hactive
                simp only [Option.map_some, Option.bind_some, if_pos hstatus]
                split_ifs <;> rfl

/-- An UPDATE that revokes open sessions, as a loop over the map. -/
theorem revokeSessions_scanned (inputs : StoreInputs) (d : Database) {p : SessionRow → Bool} (hp : ∀ r, p r.scanned = p r) :
    ∃ sessions, Repository.revokeSessions inputs.now d.auth p =
        some ({ d.auth with sessions }, ()) ∧
      sessions.rows.map SessionRow.scanned = d.scanned.sessions.map fun r =>
        if p r && r.revokedAt.isNone then { r with revokedAt := some (instant inputs.now) } else r := by
  obtain ⟨sessions, hsessions⟩ := Table.update_isSome
    (p := fun r : SessionRow => p r && r.revokedAt.isNone)
    (f := fun r => { r with revokedAt := some inputs.now }) (fun _ hcheck => hcheck)
    (fun x y hclash => by split_ifs at hclash <;> exact hclash) d.auth.sessions
  refine ⟨sessions, ?_, ?_⟩
  · rw [Repository.revokeSessions, hsessions]
    rfl
  · rw [Table.rows_of_ofRows hsessions]
    dsimp only [Database.scanned]
    rw [List.map_map, List.map_map]
    apply List.map_congr_left
    intro r _
    have hrevoked : r.scanned.revokedAt.isNone = r.revokedAt.isNone := by
      simp [SessionRow.scanned]
    simp only [Function.comp_apply, hp, hrevoked]
    split_ifs <;> rfl

theorem revokeSession_same (inputs : StoreInputs) (d : Database) (tokenHash : Bytes) :
    some (d.scanned.revokeSession inputs tokenHash) =
      (d.onAuth (Repository.revokeSession inputs.now d.auth tokenHash)).map fun r =>
        r.1.scanned := by
  obtain ⟨sessions, hresult, hrows⟩ := revokeSessions_scanned inputs d
    (p := fun r => r.tokenHash = tokenHash) fun _ => rfl
  have honly (r : SessionRow) (hr : r ∈ d.scanned.sessions) (hhash : r.tokenHash = tokenHash) :
      d.scanned.sessions.find? (fun r => r.tokenHash = tokenHash) = some r := by
    obtain ⟨x, hx, rfl⟩ := List.mem_map.mp hr
    rw [find_scanned_sessions, (Table.find_eq_some isKey_sessionHash).mpr ⟨hx, hhash⟩]
    rfl
  have hmemory : d.scanned.revokeSession inputs tokenHash = { d.scanned with
      sessions := d.scanned.sessions.map fun r =>
        if decide (r.tokenHash = tokenHash) && r.revokedAt.isNone then
          { r with revokedAt := some (instant inputs.now) }
        else r } := by
    have hself (h : ∀ r ∈ d.scanned.sessions, r.tokenHash = tokenHash → r.revokedAt.isNone = false) :
        d.scanned.sessions.map (fun r =>
          if decide (r.tokenHash = tokenHash) && r.revokedAt.isNone then
            { r with revokedAt := some (instant inputs.now) }
          else r) = d.scanned.sessions := by
      refine (List.map_congr_left fun r hr => ?_).trans (List.map_id _)
      by_cases hhash : r.tokenHash = tokenHash
      · simp [h r hr hhash]
      · simp [hhash]
    unfold MemoryStore.revokeSession
    cases hfind : d.scanned.sessions.find? (fun r => r.tokenHash = tokenHash) with
    | none =>
        rw [hself fun r hr hhash => ?_]
        have hsome := honly r hr hhash
        rw [hfind] at hsome
        cases hsome
    | some session =>
        have hmem : session ∈ d.scanned.sessions := List.mem_of_find?_eq_some hfind
        have hsession : session.tokenHash = tokenHash := by simpa using List.find?_some hfind
        have heq (r : SessionRow) (hr : r ∈ d.scanned.sessions) (hhash : r.tokenHash = tokenHash) :
            r = session := by
          have hsome := honly r hr hhash
          rw [hfind] at hsome
          exact (Option.some.inj hsome).symm
        cases hat : session.revokedAt with
        | some at₀ =>
            rw [hself fun r hr hhash => by rw [heq r hr hhash, hat]; rfl]
            simp [hat]
        | none =>
            simp only [hat, Option.isSome_none, Bool.false_eq_true, if_false]
            congr 1
            rw [assign_of_mem hmem]
            · apply List.map_congr_left
              intro r hr
              by_cases hhash : r.tokenHash = tokenHash
              · simp [heq r hr hhash, hsession, hat]
              · simp [hsession, hhash]
            · rfl
  rw [Repository.revokeSession, hresult, hmemory, ← hrows]
  rfl

theorem revokeOtherSessions_same (inputs : StoreInputs) (d : Database) (userID : UUID)
    (currentHash : Bytes) :
    some (d.scanned.revokeOtherSessions inputs userID currentHash) =
      (d.onAuth (Repository.revokeOtherSessions inputs.now d.auth userID currentHash)).map fun r =>
        r.1.scanned := by
  obtain ⟨sessions, hresult, hrows⟩ := revokeSessions_scanned inputs d
    (p := fun r => r.userID = userID && r.tokenHash ≠ currentHash) fun _ => rfl
  have hloop : d.scanned.revokeOtherSessions inputs userID currentHash =
      { d.scanned with sessions := sessions.rows.map SessionRow.scanned } := by
    rw [hrows, MemoryStore.revokeOtherSessions]
    congr 1
    apply List.map_congr_left
    intro r _
    simp [and_assoc]
  rw [Repository.revokeOtherSessions, hresult, hloop]
  rfl

theorem listSessions_same {currentHash : Bytes}
    (h : StoresAgree fns inputs d (.listSessions userID currentHash)) :
    d.scanned.listSessions inputs userID currentHash =
      d.listSessions inputs userID currentHash := by
  unfold MemoryStore.listSessions Database.listSessions
  rw [← h]
  dsimp only [Database.scanned]
  rw [inputs.iteration.map, List.filter_map, List.map_map]
  rfl

end sessions

section clients
variable {fns : StoreFunctions} {inputs : StoreInputs} {d : Database} {id : UUID}
  {f : APIClientWithSecret → APIClientWithSecret}
  {g : ClientRecordWithSecret → ClientRecordWithSecret}

theorem find_scanned_clients (id : UUID) : d.scanned.clients.find? (fun r => r.id = id) =
    (d.clients.find (fun r : APIClientWithSecret => r.id) id).map APIClientWithSecret.scanned :=
  scanned_find (·.id) (·.id) APIClientWithSecret.scanned (fun _ => rfl) id

theorem apiClientByID_scanned (id : UUID) : d.scanned.apiClientByID id =
    (Repository.apiClientByID d.clients id).map APIClient.scanned := by
  unfold MemoryStore.apiClientByID Repository.apiClientByID
  rw [find_scanned_clients, Option.map_map, Option.map_map]
  rfl

/-- Any order finds the one client that has the ID. -/
theorem apiClientByClientID_same (clientID : Text) :
    d.scanned.apiClientByClientID inputs clientID =
      (Repository.apiClientByClientID d.clients clientID).map APIClientWithSecret.scanned := by
  unfold MemoryStore.apiClientByClientID Repository.apiClientByClientID
  dsimp only [Database.scanned]
  rw [inputs.iteration.map, List.find?_map]
  congr 1
  change (inputs.iteration.order d.clients.rows).find? (fun r => r.clientID = clientID) = _
  cases hr : d.clients.find (·.clientID) clientID with
  | none =>
      rw [List.find?_eq_none]
      intro r hr'
      exact List.find?_eq_none.mp hr r ((inputs.iteration.perm _).mem_iff.mp hr')
  | some r =>
      obtain ⟨hmem, hclient⟩ := (Table.find_eq_some isKey_clientID).mp hr
      cases hfind : (inputs.iteration.order d.clients.rows).find? fun r =>
          r.clientID = clientID with
      | none =>
          have hnot := List.find?_eq_none.mp hfind r ((inputs.iteration.perm _).mem_iff.mpr hmem)
          simp [hclient] at hnot
      | some r' =>
          have hmem' : r' ∈ d.clients.rows :=
            (inputs.iteration.perm _).mem_iff.mp (List.mem_of_find?_eq_some hfind)
          have hclient' : r'.clientID = clientID := by simpa using List.find?_some hfind
          rw [Table.eq_of_clash hmem' hmem (isKey_clientID (hclient'.trans hclient.symm))]

theorem listAPIClients_same (h : StoresAgree fns inputs d .listAPIClients) :
    d.scanned.listAPIClients inputs = d.listAPIClients inputs := by
  unfold MemoryStore.listAPIClients Database.listAPIClients
  rw [← h]
  dsimp only [Database.scanned]
  rw [inputs.iteration.map, List.map_map]
  rfl

/-- The same change of a client, put back into the map and written by an UPDATE. -/
theorem updateClient_same
    (hg : ∀ r : APIClientWithSecret, { g r.scanned with updatedAt := instant inputs.now } =
      APIClientWithSecret.scanned { f r with updatedAt := inputs.now })
    (hid : ∀ r, (f r).id = r.id) (hclient : ∀ r, (f r).clientID = r.clientID)
    (hcheck : (d.clients.find (·.id) id).isSome →
      ∀ r, apiClients.Check r → apiClients.Check (f r)) :
    d.scanned.updateClient inputs id g =
      (d.onClients (Repository.updateAPIClient inputs.now d.clients id f)).map fun r =>
        (r.1.scanned, r.2.scanned) := by
  unfold MemoryStore.updateClient Repository.updateAPIClient
  dsimp only
  rw [find_scanned_clients, Table.returning, List.head?_map, List.head?_filter]
  change _ = (d.onClients (Option.bind _ fun t' => ((d.clients.find (·.id) id).map _).map _)).map _
  cases hr : d.clients.find (·.id) id with
  | none =>
      cases d.clients.update (fun r => r.id = id) fun r => { f r with updatedAt := inputs.now } <;> rfl
  | some r =>
      obtain ⟨t', ht'⟩ := Table.update_isSome (p := fun r : APIClientWithSecret => r.id = id)
        (f := fun r => { f r with updatedAt := inputs.now })
        (fun r hr' => hcheck (by rw [hr]; rfl) r hr')
        (fun x y hclash => by
          split_ifs at hclash <;> simpa [apiClients, hid, hclient] using hclash) d.clients
      have hrid : r.id = id := by simpa using Table.key_of_find hr
      have hrows := scanned_update (fun r : APIClientWithSecret => r.id) (·.id)
        APIClientWithSecret.scanned (fun _ => rfl) isKey_clientRowID ht' hr ((hid r).trans hrid)
      have hrecord := congrArg ClientRecordWithSecret.toClientRecord (hg r)
      rw [ht', Option.map_some, Option.map_some, hg]
      simp only [Database.onClients, Option.map_some, Option.bind_some, Database.scanned, hrows]
      exact congrArg (fun record => some (_, record)) hrecord

theorem setAPIClientStatus_same {status : Text}
    (h : StoresAgree fns inputs d (.setAPIClientStatus id status)) :
    d.scanned.setAPIClientStatus inputs id status =
      (validClientStatus status).bind fun status =>
        (d.onClients (Repository.setAPIClientStatus inputs.now d.clients id status)).map fun r =>
          (r.1.scanned, r.2.scanned) := by
  cases hstatus : validClientStatus status with
  | none =>
      cases hr : d.clients.find (·.id) id with
      | none =>
          rw [MemoryStore.setAPIClientStatus, MemoryStore.updateClient, find_scanned_clients, hr]
          rfl
      | some r =>
          have hvalid := h (by rw [hr]; rfl)
          rw [hstatus] at hvalid
          cases hvalid
  | some valid =>
      have htext : valid.text = status := by
        unfold validClientStatus at hstatus
        split_ifs at hstatus with h₁ h₂ h₃ <;> cases hstatus
        · exact h₁.symm
        · exact h₂.symm
        · exact h₃.symm
      subst htext
      exact updateClient_same (fun _ => rfl) (fun _ => rfl) (fun _ => rfl) fun _ _ hcheck => hcheck

theorem rotateAPIClientSecret_same {secretHash : Text}
    (h : StoresAgree fns inputs d (.rotateAPIClientSecret id secretHash)) :
    d.scanned.rotateAPIClientSecret inputs id secretHash =
      (d.onClients (Repository.rotateAPIClientSecret inputs.now d.clients id secretHash)).map fun r =>
        (r.1.scanned, r.2.scanned) := by
  refine updateClient_same (fun _ => rfl) (fun _ => rfl) (fun _ => rfl) ?_
  intro hfound r hcheck
  exact ⟨hcheck.1, hcheck.2.1, h hfound, hcheck.2.2.2⟩

/-- The UPDATE of `TouchAPIClient` returns no row, but there is one. -/
theorem touchAPIClient_same (h : StoresAgree fns inputs d (.touchAPIClient id)) :
    d.scanned.touchAPIClient inputs id =
      (d.onClients (Repository.touchAPIClient inputs.now d.clients id)).map fun r =>
        r.1.scanned := by
  have hsame : d.scanned.updateClient inputs id (fun client => { client with
      lastUsedAt := some (instant inputs.now) }) =
      (d.onClients (Repository.updateAPIClient inputs.now d.clients id fun r => { r with
        lastUsedAt := some inputs.now })).map fun r => (r.1.scanned, r.2.scanned) :=
    updateClient_same (fun _ => rfl) (fun _ => rfl) (fun _ => rfl) fun _ _ hcheck => hcheck
  rw [MemoryStore.touchAPIClient, hsame, Repository.updateAPIClient, Repository.touchAPIClient]
  dsimp only
  rw [Table.returning, List.head?_map, List.head?_filter]
  obtain ⟨r, hr⟩ := Option.isSome_iff_exists.mp h
  have hr' : d.clients.rows.find? (fun r => r.id = id) = some r := hr
  rw [hr']
  cases d.clients.update (fun r => r.id = id) fun r => { r with
      lastUsedAt := some inputs.now, updatedAt := inputs.now } <;> rfl

theorem createAPIClient_same {params : APIClientCreate} {clientID secretHash : Text}
    (h : StoresAgree fns inputs d (.createAPIClient params clientID secretHash)) :
    d.scanned.createAPIClient inputs params clientID secretHash =
      (d.createAPIClient inputs params clientID secretHash).map fun r =>
        (r.1.scanned, r.2.scanned) := by
  unfold MemoryStore.createAPIClient Database.createAPIClient Repository.createAPIClient
  dsimp only
  cases hid : inputs.id with
  | none => simp
  | some id =>
      by_cases hname : trimSpace params.name = []
      · simp [hname, Database.onClients]
      · obtain ⟨hlength, howner, hname', hclientID, hsecret, hscopes, hallowed, hfresh, hexpires⟩ :=
          h hname id hid
        have howner : ¬(params.ownerUserID.any fun owner =>
            (d.auth.users.find (·.id) owner).isNone) = true := by
          cases howned : params.ownerUserID with
          | none => simp
          | some owner => simpa [Option.isSome_iff_ne_none] using howner owner howned
        have hwhole : (params.expiresAt.map (· / 1000)).map instant = params.expiresAt := by
          cases hexpiry : params.expiresAt with
          | none => rfl
          | some expiresAt => exact congrArg some (instant_timestamp (hexpires expiresAt hexpiry))
        have hinsert : (d.clients.insert
            { id, clientID, secretHash
              name := trimSpace params.name
              ownerUserID := params.ownerUserID
              status := .active
              scopes := params.scopes
              lastUsedAt := none
              expiresAt := params.expiresAt.map (· / 1000)
              createdAt := inputs.now
              updatedAt := inputs.now }).isSome := by
          rw [Table.insert_isSome_iff]
          refine ⟨⟨hname', hclientID, hsecret, hscopes, hallowed⟩, fun r hr hclash => ?_⟩
          rcases hclash with heq | heq
          · exact (hfresh r hr).1 heq.symm
          · exact (hfresh r hr).2 heq.symm
        obtain ⟨clients, hclients⟩ := Option.isSome_iff_exists.mp hinsert
        have hrows := scanned_insert (fun r : APIClientWithSecret => r.id) (·.id)
          APIClientWithSecret.scanned (fun _ => rfl) isKey_clientRowID hclients
        rw [if_neg hname, Option.map_some, Option.bind_some, if_neg howner, if_neg, hclients]
        · simp only [APIClientWithSecret.scanned, APIClient.scanned, hwhole, Option.map_none] at hrows
          simp [Database.onClients, Database.scanned, APIClient.scanned, hrows, hwhole]
        · rw [not_or]
          exact ⟨hname, by omega⟩

end clients

section main
variable {fns : StoreFunctions} {inputs : StoreInputs} {d : Database} {op : StoreOp}

/-- An operation on which the stores agree has one answer, and takes what the tables hold
to what they hold afterwards. -/
theorem exec_same (h : StoresAgree fns inputs d op) :
    d.scanned.exec fns inputs op = (d.exec fns inputs op).map fun r => (r.1.scanned, r.2) := by
  cases op with
  | countUsers =>
      simp only [MemoryStore.exec, Database.exec, Database.scanned, List.length_map]
      rfl
  | createUser params =>
      simp only [MemoryStore.exec, Database.exec, createUser_same h, Option.map_map]
      rfl
  | userForLogin login =>
      simp only [MemoryStore.exec, Database.exec, userForLogin_same h, Option.map_map]
      rfl
  | userByID id =>
      simp only [MemoryStore.exec, Database.exec, userByID_scanned, Option.map_map]
      rfl
  | listUsers =>
      simp only [MemoryStore.exec, Database.exec, listUsers_same h]
      rfl
  | updateUser id patch =>
      simp only [MemoryStore.exec, Database.exec, updateUser_same h, Option.map_map]
      rfl
  | setUserStatus id status =>
      simp only [MemoryStore.exec, Database.exec, setUserStatus_same, Option.map_map]
      rfl
  | setPassword id password forceChange =>
      simp only [MemoryStore.exec, Database.exec, setPassword_same h, Option.map_bind,
        Function.comp_def, Option.map_map]
  | setThemePreference id theme =>
      simp only [MemoryStore.exec, Database.exec, setThemePreference_same, Option.map_bind,
        Function.comp_def, Option.map_map]
  | touchLastLogin id =>
      simp only [MemoryStore.exec, Database.exec, touchLastLogin_same h, Option.map_map]
      rfl
  | createSession userID tokenHash expiresAt now =>
      simp only [MemoryStore.exec, Database.exec, createSession_same h, Option.map_bind,
        Function.comp_def, Option.map_map]
  | sessionByHash tokenHash now idleTimeout =>
      simp only [MemoryStore.exec, Database.exec, sessionByHash_same h, Option.map_map]
      rfl
  | revokeSession tokenHash =>
      have hsame := revokeSession_same inputs d tokenHash
      simp only [MemoryStore.exec, Database.exec, Option.map_map]
      rw [← Option.map_some (f := fun m => (m, StoreAnswer.done)), hsame, Option.map_map]
      rfl
  | revokeOtherSessions userID currentHash =>
      have hsame := revokeOtherSessions_same inputs d userID currentHash
      simp only [MemoryStore.exec, Database.exec, Option.map_map]
      rw [← Option.map_some (f := fun m => (m, StoreAnswer.done)), hsame, Option.map_map]
      rfl
  | listSessions userID currentHash =>
      simp only [MemoryStore.exec, Database.exec, listSessions_same h]
      rfl
  | createAPIClient params clientID secretHash =>
      simp only [MemoryStore.exec, Database.exec, createAPIClient_same h, Option.map_map]
      rfl
  | listAPIClients =>
      simp only [MemoryStore.exec, Database.exec, listAPIClients_same h]
      rfl
  | apiClientByID id =>
      simp only [MemoryStore.exec, Database.exec, apiClientByID_scanned, Option.map_map]
      rfl
  | apiClientByClientID clientID =>
      simp only [MemoryStore.exec, Database.exec, apiClientByClientID_same, Option.map_map]
      rfl
  | setAPIClientStatus id status =>
      simp only [MemoryStore.exec, Database.exec, setAPIClientStatus_same h, Option.map_bind,
        Function.comp_def, Option.map_map]
  | rotateAPIClientSecret id secretHash =>
      simp only [MemoryStore.exec, Database.exec, rotateAPIClientSecret_same h, Option.map_map]
      rfl
  | touchAPIClient id =>
      simp only [MemoryStore.exec, Database.exec, touchAPIClient_same h, Option.map_map]
      rfl

/-- Both stores execute the operation; one that fails leaves its store as it is. -/
def storesStep (fns : StoreFunctions) (s : MemoryStore × Database) (a : StoreOp × StoreInputs) :
    Option (MemoryStore × Database) :=
  some (((s.1.exec fns a.2 a.1).map Prod.fst).getD s.1, ((s.2.exec fns a.2 a.1).map Prod.fst).getD s.2)

/-- In every sequence of operations on each of which the stores agree, `MemoryStore` holds
after each step what the tables hold, and every answer, an error included, is the same. -/
theorem memoryStore_simulates {as : List (StoreOp × StoreInputs)}
    (h : EveryStep (storesStep fns) (d.scanned, d) as fun u a => StoresAgree fns a.2 u.2 a.1) :
    Always (storesStep fns) (d.scanned, d) as (fun u => u.1 = u.2.scanned) ∧
      EveryStep (storesStep fns) (d.scanned, d) as fun u a =>
        (u.1.exec fns a.2 a.1).map Prod.snd = (u.2.exec fns a.2 a.1).map Prod.snd := by
  have hall : Always (storesStep fns) (d.scanned, d) as fun u => u.1 = u.2.scanned := by
    refine h.always (P := fun u => u.1 = u.2.scanned) rfl ?_
    intro u a v hu ha hv
    cases hv
    dsimp only
    rw [hu, exec_same ha]
    cases u.2.exec fns a.2 a.1 <;> rfl
  refine ⟨hall, fun pre a u hpre hrun => ?_⟩
  have hu : u.1 = u.2.scanned := hall pre u ((List.prefix_append _ _).trans hpre) hrun
  dsimp only
  rw [hu, exec_same (h pre a u hpre hrun), Option.map_map]
  rfl

end main

/-- Both stores with the functions of ASCII text. -/
def sampleStoreFunctions : StoreFunctions where
  case := ⟨toLower, toLower⟩
  deps := Delivery.sampleDependencies
  equalFold s t := toLower s = toLower t
  collate s t := s.length ≤ t.length

def sampleStoreInputs (now : ℤ) (id : UUID) : StoreInputs :=
  ⟨now, some id, some 0, .forward, .forward⟩

def sampleUserCreate (username email : String) : UserCreate :=
  ⟨username.toList, email.toList, "p".toList, [], [], false⟩

/-- A user is created and looked up. -/
theorem memoryStore_simulates_sample : ∃ s,
    run (storesStep sampleStoreFunctions) (Database.empty.scanned, Database.empty)
      [(.createUser (sampleUserCreate "ann" "a@example.com"), sampleStoreInputs 5 1)] = some s ∧
    s.1 = s.2.scanned ∧ s.1.users.length = 1 := by
  have hlength : (run (storesStep sampleStoreFunctions) (Database.empty.scanned, Database.empty)
      [(.createUser (sampleUserCreate "ann" "a@example.com"), sampleStoreInputs 5 1)]).map
      (fun s => s.1.users.length) = some 1 := by
    decide +kernel
  obtain ⟨s, hs, hone⟩ := Option.map_eq_some_iff.mp hlength
  have hagree : StoresAgree sampleStoreFunctions (sampleStoreInputs 5 1) Database.empty
      (.createUser (sampleUserCreate "ann" "a@example.com")) := by
    intro _ hash hhash id _
    constructor
    · rintro ⟨r, hr, _⟩
      cases hr
    · rintro (hnot | ⟨r, hr, _⟩)
      · exfalso
        apply hnot
        cases hhash
        decide +kernel
      · cases hr
  have hevery : EveryStep (storesStep sampleStoreFunctions) (Database.empty.scanned, Database.empty)
      [(.createUser (sampleUserCreate "ann" "a@example.com"), sampleStoreInputs 5 1)]
      fun u a => StoresAgree sampleStoreFunctions a.2 u.2 a.1 :=
    everyStep_cons.mpr ⟨hagree, fun _ _ => everyStep_nil⟩
  exact ⟨s, hs, (memoryStore_simulates hevery).1 _ s (List.prefix_refl _) hs, hone⟩

/-- Of two names that differ in case only `MemoryStore` refuses the second. -/
theorem stores_differ_on_case :
    (run (storesStep sampleStoreFunctions) (Database.empty.scanned, Database.empty)
      [(.createUser (sampleUserCreate "ann" "a@example.com"), sampleStoreInputs 5 1),
        (.createUser (sampleUserCreate "Ann" "b@example.com"), sampleStoreInputs 6 2)]).map
      (fun s => (s.1.users.length, s.2.auth.users.rows.length)) = some (1, 2) := by
  decide +kernel

end SecureShare.Auth
