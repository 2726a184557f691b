import SecureShare.Auth.UserUpdates

/-!
# Names to log in with

A login is looked up in lower case among the usernames and the addresses, while each of
the two columns is unique as it is written. A login finds at most one user in all
states of a run exactly if no statement that takes effect gives a user a username or an
address that differs from one of another user in case only.
-/
namespace SecureShare.Auth
open Go Library Library.Transition
open Library.Interleaving (System State Reply Action)
open Delivery (UUID Dependencies)

inductive AccountCall where
  | creating (params : UserCreate)
  | created (answer : Option User)
  | update (call : UpdateCall)
  deriving DecidableEq, Repr

inductive AccountRequest where
  | createUser (params : UserCreate)
  | update (request : UpdateRequest)
  deriving DecidableEq, Repr

def AccountRequest.call : AccountRequest → AccountCall
  | .createUser params => .creating params
  | .update request => .update request.call

structure AccountInputs where
  reply : Reply
  databaseNow : ℤ
  salt : Option ℕ
  id : Option UUID
  deriving DecidableEq, Repr

/-- One statement of `CreateUser` or `UpdateUser`. -/
def AccountCall.advance (fns : CaseFunctions) (deps : Dependencies) (inputs : AccountInputs)
    (t : UserTable) : AccountCall → Option (UserTable × AccountCall)
  | .creating params =>
    let r := inputs.reply.apply t
      (Repository.createUser inputs.databaseNow t fns deps inputs.salt inputs.id params)
    some (r.1, .created r.2)
  | .created _ => none
  | .update call =>
    (call.advance fns ⟨inputs.reply, inputs.databaseNow⟩ t).map fun r => (r.1, .update r.2)

/-- Any number of calls of `CreateUser`, `UpdateUser` and `SetUserStatus`. -/
def accountSystem (fns : CaseFunctions) (deps : Dependencies) :
    System UserTable AccountCall AccountRequest AccountInputs where
  start := AccountRequest.call
  advance inputs t call := call.advance fns deps inputs t

/-- The user that the next statement of the call writes, with its username and address. -/
def AccountCall.names (fns : CaseFunctions) (inputs : AccountInputs) :
    AccountCall → Option (UUID × Text × Text)
  | .creating params =>
    let params := normalizeUserCreate fns params
    inputs.id.map fun id => (id, params.username, params.email)
  | .update ⟨id, _, .updating _ c⟩ => some (id, c.username, c.email)
  | .update _ | .created _ => none

/-- What the next statement of the call does if it reaches the database. -/
def AccountCall.result (fns : CaseFunctions) (deps : Dependencies) (inputs : AccountInputs)
    (t : UserTable) : AccountCall → Option (UserTable × User)
  | .creating params =>
    Repository.createUser inputs.databaseNow t fns deps inputs.salt inputs.id params
  | .update ⟨id, _, .updating _ c⟩ => Repository.updateColumns inputs.databaseNow t id c
  | .update _ | .created _ => none

/-- In lower case one of these names is the username or the address of the user, and
what some login is normalised to. -/
def SharesName (fns : CaseFunctions) (username email : Text) (r : UserWithPassword) : Prop :=
  ∃ name, (name = username ∨ name = email) ∧
    (fns.sqlLower r.username = fns.sqlLower name ∨ fns.sqlLower r.email = fns.sqlLower name) ∧
    ∃ login, normalizeLogin fns login = fns.sqlLower name

/-- A statement that takes effect gives no user a name of another. -/
def KeepsNamesApart (fns : CaseFunctions) (deps : Dependencies)
    (s : State UserTable AccountCall) : Action AccountRequest AccountInputs → Prop
  | .spawn _ => True
  | .advance i inputs => ∀ call ∈ s.calls[i]?, inputs.reply ≠ .failed →
      (call.result fns deps inputs s.store).isSome →
      ∀ id username email, call.names fns inputs = some (id, username, email) →
        ∀ r ∈ s.store.rows, r.id ≠ id → ¬SharesName fns username email r

/-- No two users share a name to log in with. -/
def NamesApart (fns : CaseFunctions) (t : UserTable) : Prop :=
  ∀ r ∈ t.rows, ∀ r' ∈ t.rows, r'.id ≠ r.id → ¬SharesName fns r.username r.email r'

variable {fns : CaseFunctions} {deps : Dependencies} {inputs : AccountInputs} {t t' : UserTable}
  {call call' : AccountCall} {r r' w : UserWithPassword} {id : UUID} {username email : Text}

theorem sharesName_iff : SharesName fns r.username r.email r' ↔
    ∃ login, (fns.sqlLower r.username = normalizeLogin fns login ∨
        fns.sqlLower r.email = normalizeLogin fns login) ∧
      (fns.sqlLower r'.username = normalizeLogin fns login ∨
        fns.sqlLower r'.email = normalizeLogin fns login) := by
  constructor
  · rintro ⟨name, hname, hshared, login, hlogin⟩
    refine ⟨login, ?_, by rwa [hlogin]⟩
    rcases hname with rfl | rfl
    · exact .inl hlogin.symm
    · exact .inr hlogin.symm
  · rintro ⟨login, hname | hname, hshared⟩
    · exact ⟨r.username, .inl rfl, by rwa [hname], login, hname.symm⟩
    · exact ⟨r.email, .inr rfl, by rwa [hname], login, hname.symm⟩

theorem SharesName.symm (h : SharesName fns r.username r.email r') :
    SharesName fns r'.username r'.email r := by
  obtain ⟨login, hr, hr'⟩ := sharesName_iff.mp h
  exact sharesName_iff.mpr ⟨login, hr', hr⟩

theorem mem_usersForLogin {login : Text} : r ∈ Repository.usersForLogin t fns login ↔ r ∈ t.rows ∧
    (fns.sqlLower r.username = normalizeLogin fns login ∨
      fns.sqlLower r.email = normalizeLogin fns login) := by
  simp [Repository.usersForLogin]

/-- Two users in a table with the same ID are one. -/
theorem eq_of_userID (hr : r ∈ t.rows) (hr' : r' ∈ t.rows) (h : r.id = r'.id) : r = r' :=
  Table.eq_of_clash hr hr' (isKey_userID h)

/-- Every login finds at most one user exactly if the names are apart. -/
theorem length_usersForLogin_le_one_iff :
    (∀ login, (Repository.usersForLogin t fns login).length ≤ 1) ↔ NamesApart fns t := by
  constructor
  · intro h r hr r' hr' hid hshares
    obtain ⟨login, hname, hname'⟩ := sharesName_iff.mp hshares
    have hmem : r ∈ Repository.usersForLogin t fns login := mem_usersForLogin.mpr ⟨hr, hname⟩
    have hmem' : r' ∈ Repository.usersForLogin t fns login := mem_usersForLogin.mpr ⟨hr', hname'⟩
    obtain ⟨i, hi, hri⟩ := List.getElem_of_mem hmem
    obtain ⟨j, hj, hrj⟩ := List.getElem_of_mem hmem'
    have hij : j = i := by
      have hlen := h login
      omega
    subst hij
    exact hid (congrArg (·.id) (hrj.symm.trans hri))
  · intro h login
    have hdistinct : (Repository.usersForLogin t fns login).Pairwise fun r r' => r.id ≠ r'.id := by
      apply (t.distinct.sublist List.filter_sublist).imp
      intro r r' hclash hid
      exact hclash (isKey_userID hid)
    cases hrows : Repository.usersForLogin t fns login with
    | nil => exact Nat.zero_le 1
    | cons r rest =>
        cases rest with
        | nil => exact Nat.le_refl 1
        | cons r' rest =>
            exfalso
            rw [hrows] at hdistinct
            obtain ⟨hr, hname⟩ : _ ∧ _ := mem_usersForLogin.mp (hrows ▸ List.mem_cons_self)
            obtain ⟨hr', hname'⟩ : _ ∧ _ := mem_usersForLogin.mp
              (hrows ▸ List.mem_cons_of_mem _ List.mem_cons_self)
            have hne : r.id ≠ r'.id := List.rel_of_pairwise_cons hdistinct List.mem_cons_self
            exact h r hr r' hr' hne.symm (sharesName_iff.mpr ⟨login, hname, hname'⟩)

/-- The table after an INSERT: the new row has an ID of its own. -/
theorem rows_of_insert (h : t.insert w = some t') (r : UserWithPassword) :
    r ∈ t'.rows ↔ r = w ∨ r ∈ t.rows ∧ r.id ≠ w.id := by
  have hdistinct := t'.distinct
  rw [Table.rows_of_ofRows h] at hdistinct ⊢
  rw [List.mem_cons]
  apply or_congr_right
  constructor
  · intro hr
    exact ⟨hr, fun hid => List.rel_of_pairwise_cons hdistinct hr (isKey_userID hid.symm)⟩
  · exact And.left

/-- The table after an UPDATE of the row of a user. -/
theorem rows_of_update {f : UserWithPassword → UserWithPassword}
    (h : t.update (·.id = id) f = some t') (hw : w ∈ t.rows)
    (hid : w.id = id) (r : UserWithPassword) : r ∈ t'.rows ↔ r = f w ∨ r ∈ t.rows ∧ r.id ≠ id := by
  rw [Table.rows_of_ofRows h, List.mem_map]
  constructor
  · intro hr
    obtain ⟨x, hx, rfl⟩ := hr
    by_cases hxid : x.id = id
    · rw [if_pos (by simpa using hxid), eq_of_userID hx hw (hxid.trans hid.symm)]
      exact .inl rfl
    · rw [if_neg (by simpa using hxid)]
      exact .inr ⟨hx, hxid⟩
  · intro hr
    rcases hr with rfl | ⟨hr, hrid⟩
    · exact ⟨w, hw, if_pos (by simpa using hid)⟩
    · exact ⟨r, hr, if_neg (by simpa using hrid)⟩

/-- A statement that succeeds leaves one row with the names it writes, and the rows of all
other users. -/
theorem AccountCall.result_rows {user : User}
    (h : call.result fns deps inputs t = some (t', user)) :
    ∃ w : UserWithPassword, call.names fns inputs = some (w.id, w.username, w.email) ∧
      ∀ r, r ∈ t'.rows ↔ r = w ∨ r ∈ t.rows ∧ r.id ≠ w.id := by
  unfold AccountCall.result at h
  split at h
  · next params =>
    unfold Repository.createUser at h
    dsimp only at h
    split at h
    · next role status hash id hvalid hhash hinput =>
      obtain ⟨t'', hinsert, heq⟩ := Option.map_eq_some_iff.mp h
      cases heq
      refine ⟨_, ?_, rows_of_insert hinsert⟩
      rw [AccountCall.names, hinput]
      rfl
    · cases h
  · next id patch current c =>
    obtain ⟨u, hupdate, hreturned⟩ := Option.bind_eq_some_iff.mp h
    obtain ⟨_, hfound, heq⟩ := Option.map_eq_some_iff.mp hreturned
    cases heq
    obtain ⟨r, hr, _⟩ := Option.map_eq_some_iff.mp hfound
    rw [Repository.find_updateRow hupdate (fun _ => rfl)] at hr
    obtain ⟨w, (hw : t.find (fun r : UserWithPassword => r.id) id = some w), _⟩ :=
      Option.map_eq_some_iff.mp hr
    have hid : w.id = id := by simpa using Table.key_of_find hw
    refine ⟨{ c.write w with updatedAt := inputs.databaseNow }, ?_, fun r => ?_⟩
    · rw [← hid]
      rfl
    · rw [rows_of_update hupdate (Table.mem_of_find hw) hid, ← hid]
      rfl
  · cases h
  · cases h

/-- Writing the names of one user keeps all names apart exactly if they are apart from
those of the others. -/
theorem namesApart_write (hapart : NamesApart fns t)
    (hrows : ∀ r, r ∈ t'.rows ↔ r = w ∨ r ∈ t.rows ∧ r.id ≠ w.id) :
    NamesApart fns t' ↔
      ∀ r ∈ t.rows, r.id ≠ w.id → ¬SharesName fns w.username w.email r := by
  constructor
  · intro h r hr hid
    exact h w ((hrows w).mpr (.inl rfl)) r ((hrows r).mpr (.inr ⟨hr, hid⟩)) hid
  · intro h r hr r' hr' hne
    rcases (hrows r).mp hr with rfl | ⟨hr, hid⟩
    · rcases (hrows r').mp hr' with rfl | ⟨hr', hid'⟩
      · exact absurd rfl hne
      · exact h r' hr' hid'
    · rcases (hrows r').mp hr' with rfl | ⟨hr', _⟩
      · exact fun hshares => h r hr hid hshares.symm
      · exact hapart r hr r' hr' hne

/-- A step of a call that reaches the database is its next statement. -/
theorem AccountCall.advance_store (h : call.advance fns deps inputs t = some (t', call')) :
    t' = (inputs.reply.apply t (call.result fns deps inputs t)).1 := by
  cases call with
  | creating params =>
      cases h
      rfl
  | created answer => cases h
  | update call =>
      obtain ⟨id, patch, phase⟩ := call
      obtain ⟨⟨u, call''⟩, hadvance, heq⟩ := Option.map_eq_some_iff.mp h
      cases heq
      cases phase with
      | selecting =>
          cases hadvance
          cases hreply : inputs.reply <;> rfl
      | updating current c =>
          cases hadvance
          rfl
      | answered user => cases hadvance
      | refused => cases hadvance

/-- One step keeps the names apart exactly if what it writes is apart. -/
theorem namesApart_step {s u : State UserTable AccountCall}
    {a : Action AccountRequest AccountInputs} (hapart : NamesApart fns s.store)
    (hstep : (accountSystem fns deps).step s a = some u) :
    NamesApart fns u.store ↔ KeepsNamesApart fns deps s a := by
  rcases System.step_cases hstep with
    ⟨request, rfl, rfl⟩ | ⟨i, inputs, call, t', call', rfl, hcall, hadvance, rfl⟩
  · exact iff_of_true hapart trivial
  · have hstore : t' = (inputs.reply.apply s.store (call.result fns deps inputs s.store)).1 :=
      AccountCall.advance_store hadvance
    have hkeeps : KeepsNamesApart fns deps s (.advance i inputs) ↔
        (inputs.reply ≠ .failed → (call.result fns deps inputs s.store).isSome →
          ∀ id username email, call.names fns inputs = some (id, username, email) →
            ∀ r ∈ s.store.rows, r.id ≠ id → ¬SharesName fns username email r) := by
      rw [KeepsNamesApart, hcall]
      simp only [Option.mem_some_iff, forall_eq']
    rw [hkeeps]
    cases hresult : call.result fns deps inputs s.store with
    | none =>
        have hsame : t' = s.store := by
          rw [hstore, hresult]
          cases inputs.reply <;> rfl
        simp [hsame, hapart]
    | some written =>
        by_cases hreply : inputs.reply = .failed
        · have hsame : t' = s.store := by rw [hstore, hreply, Reply.apply]
          simp [hsame, hapart, hreply]
        · have hwritten : t' = written.1 := by
            rw [hstore]
            exact Reply.apply_of_ne_failed hresult hreply
          obtain ⟨w, hnames, hrows⟩ := AccountCall.result_rows hresult
          rw [hwritten, namesApart_write hapart hrows]
          constructor
          · intro h _ _ id username email hwrites
            rw [hnames] at hwrites
            cases hwrites
            exact h
          · intro h
            exact h hreply rfl w.id w.username w.email hnames

/-- Every login finds at most one user in all states of a run that starts without users
exactly if each statement that takes effect keeps names apart. -/
theorem login_unambiguous_iff {as : List (Action AccountRequest AccountInputs)}
    {s : State UserTable AccountCall}
    (h : run (accountSystem fns deps).step ⟨Table.empty, []⟩ as = some s) :
    Always (accountSystem fns deps).step ⟨Table.empty, []⟩ as
        (fun u => ∀ login, (Repository.usersForLogin u.store fns login).length ≤ 1) ↔
      EveryStep (accountSystem fns deps).step ⟨Table.empty, []⟩ as (KeepsNamesApart fns deps) := by
  have hstart : NamesApart fns (Table.empty : UserTable) := fun r hr => absurd hr List.not_mem_nil
  have hiff := always_iff_everyStep (P := fun u => NamesApart fns u.store) hstart
    (fun u a v hu hv => namesApart_step hu hv) h
  rw [← hiff]
  unfold Always
  simp only [length_usersForLogin_le_one_iff]

/-- Both functions as they are on ASCII text. -/
def asciiCase : CaseFunctions := ⟨toLower, toLower⟩

def sampleAccount (username email : String) : UserCreate where
  username := username.toList
  email := email.toList
  password := "p".toList
  role := []
  status := []
  forcePasswordChange := false

/-- Both users are created, under names that differ in case. -/
def sampleAccounts : List (Action AccountRequest AccountInputs) :=
  [.spawn (.createUser (sampleAccount "ann" "a@example.com")),
    .spawn (.createUser (sampleAccount "Ann" "b@example.com")),
    .advance 0 ⟨.answered, 5, some 0, some 1⟩, .advance 1 ⟨.answered, 5, some 0, some 2⟩]

/-- The login finds them both. -/
theorem login_finds_two_users :
    (run (accountSystem asciiCase Delivery.sampleDependencies).step ⟨Table.empty, []⟩
      sampleAccounts).map (fun s => (Repository.usersForLogin s.store asciiCase "ann".toList).map
        (fun r => (r.id, r.username))) = some [(2, "Ann".toList), (1, "ann".toList)] := by
  decide +kernel

/-- So one of the steps has written a name of another user. -/
theorem login_unambiguous_sample :
    ¬EveryStep (accountSystem asciiCase Delivery.sampleDependencies).step ⟨Table.empty, []⟩
      sampleAccounts (KeepsNamesApart asciiCase Delivery.sampleDependencies) := by
  have hrun : ((run (accountSystem asciiCase Delivery.sampleDependencies).step ⟨Table.empty, []⟩
      sampleAccounts).map fun s =>
        (Repository.usersForLogin s.store asciiCase "ann".toList).length) = some 2 := by
    decide +kernel
  obtain ⟨s, hs, hlength⟩ := Option.map_eq_some_iff.mp hrun
  rw [← login_unambiguous_iff hs]
  intro hall
  have hle := hall sampleAccounts s (List.prefix_refl _) hs "ann".toList
  omega

end SecureShare.Auth
