import SecureShare.Auth.Users

/-!
# The first administrator

`BootstrapAdmin` creates an administrator with the credentials of the configuration when
there are no users. The configuration has been validated by then, by rules of its own.
-/
namespace SecureShare.Auth
open Go Library
open Library.Interleaving (Reply)
open Delivery (UUID storable Dependencies)

/-- What a start obtains from outside. -/
structure BootstrapInputs where
  counted : Reply
  created : Reply
  databaseNow : ℤ
  salt : Option ℕ
  id : Option UUID
  deriving DecidableEq, Repr

/-- The database and the random source work. -/
structure BootstrapInputs.Working (inputs : BootstrapInputs) : Prop where
  counted : inputs.counted = .answered
  created : inputs.created = .answered
  salt : inputs.salt.isSome
  id : inputs.id.isSome

inductive BootstrapError where
  | countUsers | passwordRejected | createUser
  deriving DecidableEq, Repr

/-- `CountUsers` -/
def countUsers (counted : Reply) (t : UserTable) : Option ℕ :=
  (counted.apply t (some (t, t.rows.length))).2

def bootstrapUser (cfg : Config) : UserCreate where
  username := cfg.bootstrapAdminUsername
  email := cfg.bootstrapAdminEmail
  password := cfg.bootstrapAdminPassword
  role := Role.admin.text
  status := UserStatus.active.text
  forcePasswordChange := cfg.appEnv ≠ "development".toList

/-- `BootstrapAdmin` -/
def bootstrapAdmin (fns : CaseFunctions) (deps : Dependencies) (cfg : Config)
    (inputs : BootstrapInputs) (t : UserTable) : UserTable × Except BootstrapError Unit :=
  match countUsers inputs.counted t with
  | none => (t, .error .countUsers)
  | some count =>
    if 0 < count then (t, .ok ())
    else if trimSpace cfg.bootstrapAdminUsername = [] ∧ trimSpace cfg.bootstrapAdminPassword = [] then
      (t, .ok ())
    else if validUserPassword cfg.bootstrapAdminPassword (cfg.appEnv ≠ "development".toList) = false then
      (t, .error .passwordRejected)
    else
      let r := inputs.created.apply t (Repository.createUser inputs.databaseNow t fns deps inputs.salt
        inputs.id (bootstrapUser cfg))
      (r.1, match r.2 with
        | none => .error .createUser
        | some _ => .ok ())

/-- `Authenticate`, if the database answers `UserForLogin` with the first row. -/
def authenticate (fns : CaseFunctions) (deps : Dependencies) (t : UserTable) (login password : Text) :
    Option User :=
  (Repository.usersForLogin t fns login).head?.bind fun r =>
    if r.status = .active ∧ deps.verifyPassword password r.passwordHash = true then some r.toUser
    else none

variable {fns : CaseFunctions} {deps : Dependencies} {cfg : Config} {inputs : BootstrapInputs}
  {t : UserTable} {parseRequestURI : Text → Option String}

@[simp] theorem countUsers_answered (t : UserTable) :
    countUsers .answered t = some t.rows.length := rfl

/-- Nothing is created without credentials. -/
theorem bootstrapAdmin_withoutBootstrap (h : inputs.counted = .answered) (t : UserTable) :
    bootstrapAdmin fns deps cfg.withoutBootstrap inputs t = (t, .ok ()) := by
  rw [bootstrapAdmin, h, countUsers_answered]
  dsimp only
  by_cases hcount : 0 < t.rows.length
  · rw [if_pos hcount]
  · rw [if_neg hcount, if_pos ⟨rfl, rfl⟩]

/-- A configuration that is valid stays so without the credentials of the first
administrator, and starts, exactly in development. -/
theorem withoutBootstrap_starts_iff (hempty : fns.toLower [] = [])
    (h : cfg.Accepted parseRequestURI fns.toLower) :
    (cfg.withoutBootstrap.Accepted parseRequestURI fns.toLower ∧
      ∀ inputs t, inputs.counted = .answered →
        bootstrapAdmin fns deps cfg.withoutBootstrap inputs t = (t, .ok ())) ↔
      cfg.appEnv = "development".toList := by
  rw [h.withoutBootstrap_iff hempty]
  exact and_iff_left fun inputs t hcounted => bootstrapAdmin_withoutBootstrap hcounted t

theorem withoutBootstrap_starts_iff_sample :
    Delivery.sampleConfig.withoutBootstrap.Accepted (fun _ => none) id ∧
      ∀ inputs t, inputs.counted = .answered →
        bootstrapAdmin sampleCase Delivery.sampleDependencies Delivery.sampleConfig.withoutBootstrap
          inputs t = (t, .ok ()) :=
  (withoutBootstrap_starts_iff (rfl : sampleCase.toLower [] = []) Delivery.sampleConfig_accepted).mpr
    rfl

/-- A configuration of a server that is not for development. -/
def sampleProduction (username password : Text) : Config :=
  { Delivery.sampleConfig with
    appEnv := "production".toList
    adminAPIKey := List.replicate 32 'k'
    tokenHMACPepper := List.replicate 32 'p'
    sessionSecret := List.replicate 32 's'
    csrfSecret := List.replicate 32 'c'
    cookieSecure := true
    bootstrapAdminUsername := username
    bootstrapAdminEmail := "root@example.com".toList
    bootstrapAdminPassword := password }

/-- In production the credentials cannot be removed. -/
theorem production_needs_bootstrap :
    (sampleProduction "root".toList "correct horse battery".toList).Accepted (fun _ => none) toLower ∧
      ¬(sampleProduction "root".toList "correct horse battery".toList).withoutBootstrap.Accepted
        (fun _ => none) toLower := by
  decide +kernel

/-! ### The first start -/

/-- What is documented of `strings.ToLower`: it goes by rune, it is `lowerRune` as far as the
result is ASCII, and it makes no blank and leaves none. -/
def LowersRunes (toLower : Text → Text) : Prop :=
  ∃ f : Char → Char, (∀ s, toLower s = s.map f) ∧
    (∀ c, (lowerRune c).toNat < 128 → f c = lowerRune c) ∧ ∀ c, isSpace (f c) = isSpace c

/-- The first start creates an active administrator who can log in with either name. -/
def CanBootstrap (fns : CaseFunctions) (deps : Dependencies) (cfg : Config) : Prop :=
  ∀ (inputs : BootstrapInputs) (t : UserTable), inputs.Working → t.rows = [] →
    ∃ t' r, bootstrapAdmin fns deps cfg inputs t = (t', .ok ()) ∧ t'.rows = [r] ∧
      r.role = .admin ∧ r.status = .active ∧
      ∀ login ∈ [cfg.bootstrapAdminUsername, cfg.bootstrapAdminEmail],
        authenticate fns deps t' login cfg.bootstrapAdminPassword = some r.toUser

/-- The credentials pass the rules that the first start has for them, and the database finds
the user under the names that a login is normalised to. -/
structure Bootstrappable (fns : CaseFunctions) (cfg : Config) : Prop where
  username : byteLength (trimSpace cfg.bootstrapAdminUsername) ≤ 100 ∧
    (trimSpace cfg.bootstrapAdminUsername).any (· ∈ " \t\r\n".toList) = false
  email : byteLength (trimSpace (fns.toLower cfg.bootstrapAdminEmail)) ≤ 255
  password : cfg.appEnv ≠ "development".toList → 12 ≤ (trimSpace cfg.bootstrapAdminPassword).length
  stored : '\u0000' ∉ trimSpace cfg.bootstrapAdminUsername ∧
    '\u0000' ∉ trimSpace (fns.toLower cfg.bootstrapAdminEmail)
  logins : ∀ login ∈ [cfg.bootstrapAdminUsername, cfg.bootstrapAdminEmail],
    fns.sqlLower (trimSpace cfg.bootstrapAdminUsername) = normalizeLogin fns login ∨
      fns.sqlLower (trimSpace (fns.toLower cfg.bootstrapAdminEmail)) = normalizeLogin fns login

theorem isSpace_lowerRune (c : Char) : isSpace (lowerRune c) = isSpace c := by
  rw [lowerRune]
  split_ifs with hdotted hkelvin
  · rw [hdotted]
    rfl
  · rw [hkelvin]
    rfl
  · by_cases hupper : 65 ≤ c.toNat ∧ c.toNat ≤ 90
    · obtain ⟨hlow, hhigh⟩ := hupper
      rw [← Char.ofNat_toNat c]
      generalize c.toNat = n at hlow hhigh
      interval_cases n <;> rfl
    · have hsame : c.toLower = c := dif_neg hupper
      rw [hsame]

theorem lowersRunes_toLower : LowersRunes toLower :=
  ⟨lowerRune, fun _ => rfl, fun _ _ => rfl, isSpace_lowerRune⟩

theorem trimSpace_map {f : Char → Char} (hf : ∀ c, isSpace (f c) = isSpace c) (s : Text) :
    trimSpace (s.map f) = (trimSpace s).map f := by
  have hcomp : isSpace ∘ f = isSpace := funext hf
  rw [trimSpace, trimSpace, List.rdropWhile, List.rdropWhile, List.dropWhile_map, hcomp,
    ← List.map_reverse, List.dropWhile_map, hcomp, List.map_reverse]

/-- A password that is common in lower case is found so by both rules. -/
theorem not_common_of_strong {password common : Text} (hlower : LowersRunes fns.toLower)
    (hascii : common.all (fun c => c.toNat < 128) = true)
    (h : trimSpace (fns.toLower password) ≠ common) : toLower (trimSpace password) ≠ common := by
  obtain ⟨f, hmap, hf, hspace⟩ := hlower
  rintro rfl
  apply h
  rw [hmap, trimSpace_map hspace, toLower]
  apply List.map_congr_left
  intro c hc
  apply hf
  simpa using List.all_eq_true.mp hascii _ (List.mem_map_of_mem hc)

/-- The row that the first start inserts. -/
def bootstrapRow (fns : CaseFunctions) (deps : Dependencies) (cfg : Config) (now : ℤ) (n : ℕ)
    (id : UUID) : UserWithPassword where
  id := id
  username := trimSpace cfg.bootstrapAdminUsername
  email := trimSpace (fns.toLower cfg.bootstrapAdminEmail)
  role := .admin
  status := .active
  forcePasswordChange := cfg.appEnv ≠ "development".toList
  themePreference := .system
  lastLoginAt := none
  passwordChangedAt := some now
  createdAt := now
  updatedAt := now
  passwordHash := deps.hash n cfg.bootstrapAdminPassword

section start
variable {now : ℤ} {n : ℕ} {id : UUID}

theorem validUserPassword_false (password : Text) :
    validUserPassword password false = true ↔ trimSpace password ≠ [] := by
  simp [validUserPassword]

/-- What `CreateUser` checks of the credentials, and what it inserts. -/
theorem createUser_bootstrap (hpassword : trimSpace cfg.bootstrapAdminPassword ≠ []) :
    Repository.createUser now t fns deps (some n) (some id) (bootstrapUser cfg) =
      if trimSpace cfg.bootstrapAdminUsername = [] ∨
          100 < byteLength (trimSpace cfg.bootstrapAdminUsername) ∨
          (trimSpace cfg.bootstrapAdminUsername).any (· ∈ " \t\r\n".toList) then none
      else if trimSpace (fns.toLower cfg.bootstrapAdminEmail) = [] ∨
          255 < byteLength (trimSpace (fns.toLower cfg.bootstrapAdminEmail)) ∨
          '@' ∉ trimSpace (fns.toLower cfg.bootstrapAdminEmail) then none
      else (t.insert (bootstrapRow fns deps cfg now n id)).map fun t' =>
        (t', (bootstrapRow fns deps cfg now n id).toUser) := by
  have hne : cfg.bootstrapAdminPassword ≠ [] := by
    intro hnil
    rw [hnil] at hpassword
    exact hpassword rfl
  have hhash : deps.hashPassword (some n) cfg.bootstrapAdminPassword =
      some (deps.hash n cfg.bootstrapAdminPassword) := by
    rw [Dependencies.hashPassword, if_neg hne, Option.map_some]
  have hrole : validRole (if trimSpace Role.admin.text = [] then Role.developer.text
      else trimSpace Role.admin.text) = some .admin := by decide +kernel
  have hstatus : validStatus (if trimSpace UserStatus.active.text = [] then UserStatus.active.text
      else trimSpace UserStatus.active.text) = some .active := by decide +kernel
  unfold Repository.createUser validateUserCreate normalizeUserCreate bootstrapUser
  dsimp only
  rw [hrole, hstatus, hhash]
  dsimp only
  rw [if_pos ((validUserPassword_false _).mpr hpassword)]
  split_ifs <;> rfl

/-- The row violates no constraint of the empty table. -/
theorem insert_bootstrapRow (ht : t.rows = []) (hhash : ∀ n p, '\u0000' ∉ deps.hash n p)
    (husername : byteLength (trimSpace cfg.bootstrapAdminUsername) ≤ 100)
    (hemail : byteLength (trimSpace (fns.toLower cfg.bootstrapAdminEmail)) ≤ 255) :
    (t.insert (bootstrapRow fns deps cfg now n id)).isSome ↔
      '\u0000' ∉ trimSpace cfg.bootstrapAdminUsername ∧
        '\u0000' ∉ trimSpace (fns.toLower cfg.bootstrapAdminEmail) := by
  rw [Table.insert_isSome_iff, ht]
  constructor
  · rintro ⟨⟨⟨_, husername⟩, ⟨_, hemail⟩, _⟩, _⟩
    exact ⟨husername, hemail⟩
  · rintro ⟨hu, he⟩
    refine ⟨⟨⟨?_, hu⟩, ⟨?_, he⟩, hhash n _⟩, by simp⟩
    · exact (length_le_byteLength _).trans husername
    · exact (length_le_byteLength _).trans hemail

/-- Whether a user logs in who is the only one. -/
theorem authenticate_of_rows {r : UserWithPassword} {login password : Text} (ht : t.rows = [r])
    (hactive : r.status = .active) (hverify : deps.verifyPassword password r.passwordHash = true) :
    authenticate fns deps t login password = some r.toUser ↔
      fns.sqlLower r.username = normalizeLogin fns login ∨
        fns.sqlLower r.email = normalizeLogin fns login := by
  rw [authenticate, Repository.usersForLogin, ht, List.filter_cons, List.filter_nil]
  by_cases hfound : fns.sqlLower r.username = normalizeLogin fns login ∨
      fns.sqlLower r.email = normalizeLogin fns login
  · simp [hfound, hactive, hverify]
  · have hnot := not_or.mp hfound
    simp [hnot.1, hnot.2]

/-- The rule for the password outside development, given that the configuration is valid. -/
theorem validUserPassword_of_accepted (hlower : LowersRunes fns.toLower)
    (h : cfg.Accepted parseRequestURI fns.toLower)
    (hpassword : trimSpace cfg.bootstrapAdminPassword ≠ []) :
    validUserPassword cfg.bootstrapAdminPassword (cfg.appEnv ≠ "development".toList) = true ↔
      (cfg.appEnv ≠ "development".toList → 12 ≤ (trimSpace cfg.bootstrapAdminPassword).length) := by
  by_cases henv : cfg.appEnv = "development".toList
  · rw [decide_eq_false (not_not.mpr henv), validUserPassword_false]
    exact iff_of_true hpassword fun hnot => absurd henv hnot
  · have hstrong := h.strongPassword henv
    rw [Config.isWeakBootstrapPassword, Bool.or_eq_false_iff, Bool.or_eq_false_iff] at hstrong
    have hcommon : toLower (trimSpace cfg.bootstrapAdminPassword) ∉
        ["change-me".toList, "change-me-now".toList, "password".toList, "password123".toList,
          "admin".toList, "admin123".toList, "secureshare".toList] := by
      have hnot := hstrong.1.2
      simp only [List.contains_eq_mem, decide_eq_false_iff_not, List.mem_cons, List.not_mem_nil,
        or_false, not_or] at hnot ⊢
      exact ⟨not_common_of_strong hlower (by decide +kernel) hnot.1,
        not_common_of_strong hlower (by decide +kernel) hnot.2.1,
        not_common_of_strong hlower (by decide +kernel) hnot.2.2.1,
        not_common_of_strong hlower (by decide +kernel) hnot.2.2.2.1,
        not_common_of_strong hlower (by decide +kernel) hnot.2.2.2.2.1,
        not_common_of_strong hlower (by decide +kernel) hnot.2.2.2.2.2.1,
        not_common_of_strong hlower (by decide +kernel) hnot.2.2.2.2.2.2⟩
    have hempty : (trimSpace cfg.bootstrapAdminPassword).isEmpty = false :=
      List.isEmpty_eq_false_iff.mpr hpassword
    rw [decide_eq_true henv, validUserPassword, hempty, decide_eq_true hcommon, Bool.and_true,
      Bool.not_true, Bool.false_or, Bool.not_false, Bool.true_and, decide_eq_true_iff]
    exact ⟨fun hlength _ => hlength, fun hlength => hlength henv⟩

/-- The address is not blank and keeps its at sign. -/
theorem email_of_accepted (hlower : LowersRunes fns.toLower) (hat : '@' ∈ cfg.bootstrapAdminEmail) :
    '@' ∈ trimSpace (fns.toLower cfg.bootstrapAdminEmail) := by
  obtain ⟨f, hmap, hf, _⟩ := hlower
  rw [mem_trimSpace (by decide), hmap]
  exact List.mem_map.mpr ⟨'@', hat, hf '@' (by decide)⟩

/-- When a start with an empty table succeeds, and what it does then. -/
theorem bootstrapAdmin_empty (hinputs : inputs.Working) (ht : t.rows = [])
    (husername : trimSpace cfg.bootstrapAdminUsername ≠ [])
    (hpassword : trimSpace cfg.bootstrapAdminPassword ≠ [])
    (hat : '@' ∈ trimSpace (fns.toLower cfg.bootstrapAdminEmail)) :
    ∃ now n id, ∀ t', bootstrapAdmin fns deps cfg inputs t = (t', .ok ()) ↔
      validUserPassword cfg.bootstrapAdminPassword (cfg.appEnv ≠ "development".toList) = true ∧
      byteLength (trimSpace cfg.bootstrapAdminUsername) ≤ 100 ∧
      (trimSpace cfg.bootstrapAdminUsername).any (· ∈ " \t\r\n".toList) = false ∧
      byteLength (trimSpace (fns.toLower cfg.bootstrapAdminEmail)) ≤ 255 ∧
      t.insert (bootstrapRow fns deps cfg now n id) = some t' := by
  obtain ⟨counted, created, now, salt, id⟩ := inputs
  obtain ⟨rfl, rfl, hsalt, hid⟩ := hinputs
  obtain ⟨n, rfl⟩ := Option.isSome_iff_exists.mp hsalt
  obtain ⟨i, rfl⟩ := Option.isSome_iff_exists.mp hid
  refine ⟨now, n, i, fun t' => ?_⟩
  have hemail : trimSpace (fns.toLower cfg.bootstrapAdminEmail) ≠ [] := List.ne_nil_of_mem hat
  rw [bootstrapAdmin, countUsers_answered, ht, List.length_nil]
  dsimp only
  rw [if_neg (Nat.lt_irrefl 0), if_neg fun h => husername h.1, createUser_bootstrap hpassword]
  generalize validUserPassword _ _ = valid
  generalize List.any _ _ = blank
  generalize byteLength (trimSpace cfg.bootstrapAdminUsername) = length
  generalize byteLength (trimSpace (fns.toLower cfg.bootstrapAdminEmail)) = max
  generalize t.insert _ = inserted
  cases valid with
  | false => simp
  | true =>
    cases blank with
    | true => simp [Reply.answered_none]
    | false =>
      by_cases hlength : 100 < length
      · simp [hlength, Reply.answered_none]
      · by_cases hmax : 255 < max
        · simp [hmax, hlength, husername, Reply.answered_none]
        · have hfits := And.intro (Nat.le_of_not_lt hlength) (Nat.le_of_not_lt hmax)
          cases inserted with
          | none => simp [hmax, hlength, husername, hemail, hat, Reply.answered_none]
          | some t₁ => simp [hmax, hlength, husername, hemail, hat, hfits, Reply.answered_some]

/-- A valid configuration with credentials can bootstrap exactly if the credentials pass the
rules of the first start too. -/
theorem canBootstrap_iff (hlower : LowersRunes fns.toLower)
    (hverify : ∀ n p, deps.verifyPassword p (deps.hash n p) = true)
    (hhash : ∀ n p, '\u0000' ∉ deps.hash n p) (h : cfg.Accepted parseRequestURI fns.toLower)
    (hset : ¬(cfg.bootstrapAdminUsername = [] ∧ cfg.bootstrapAdminEmail = [] ∧
      cfg.bootstrapAdminPassword = [])) :
    CanBootstrap fns deps cfg ↔ Bootstrappable fns cfg := by
  obtain ⟨husername, hat, hpassword⟩ := h.bootstrap hset
  have hemail := email_of_accepted hlower hat
  have hvalid := validUserPassword_of_accepted hlower h hpassword
  constructor
  · intro hcan
    let t : UserTable := ⟨[], by simp, List.Pairwise.nil⟩
    have hworking : BootstrapInputs.Working ⟨.answered, .answered, 0, some 0, some 0⟩ :=
      ⟨rfl, rfl, rfl, rfl⟩
    obtain ⟨t', r, hresult, hrows, _, _, hlogins⟩ := hcan _ t hworking rfl
    obtain ⟨now, n, id, hiff⟩ :=
      bootstrapAdmin_empty hworking (rfl : t.rows = []) husername hpassword hemail
    obtain ⟨hp, hlength, hblank, hmax, hinsert⟩ := (hiff t').mp hresult
    have hstored := (insert_bootstrapRow (rfl : t.rows = []) hhash hlength hmax).mp
      (Option.isSome_of_eq_some hinsert)
    obtain rfl : r = bootstrapRow fns deps cfg now n id := by
      have hsingle := (Table.rows_of_ofRows hinsert).symm.trans hrows
      exact (List.cons.inj hsingle).1.symm
    exact ⟨⟨hlength, hblank⟩, hmax, hvalid.mp hp, hstored, fun login hlogin =>
      (authenticate_of_rows hrows rfl (hverify _ _)).mp (hlogins login hlogin)⟩
  · intro hok inputs t hworking ht
    obtain ⟨now, n, id, hiff⟩ := bootstrapAdmin_empty hworking ht husername hpassword hemail
    obtain ⟨t', hinsert⟩ := Option.isSome_iff_exists.mp
      ((insert_bootstrapRow ht hhash hok.username.1 hok.email).mpr hok.stored)
    have hrows : t'.rows = [bootstrapRow fns deps cfg now n id] := by
      rw [Table.rows_of_ofRows hinsert, ht]
    refine ⟨t', _, (hiff t').mpr ⟨hvalid.mpr hok.password, hok.username.1, hok.username.2,
      hok.email, hinsert⟩, hrows, rfl, rfl, fun login hlogin => ?_⟩
    exact (authenticate_of_rows hrows rfl (hverify _ _)).mpr (hok.logins login hlogin)

end start

/-- A password hash that is free of NUL. -/
def sampleHashing : Dependencies :=
  { Delivery.sampleDependencies with
    hash := fun _ p => 'h' :: p.filter (· ≠ '\u0000')
    verifyPassword := fun p h => h == 'h' :: p.filter (· ≠ '\u0000') }

/-- The credentials of the development setup. -/
def sampleDevelopment : Config :=
  { Delivery.sampleConfig with
    bootstrapAdminUsername := "admin".toList
    bootstrapAdminEmail := "admin@example.local".toList
    bootstrapAdminPassword := "change-me-now".toList }

theorem nul_notMem_sampleHashing (n : ℕ) (p : Text) : '\u0000' ∉ sampleHashing.hash n p := by
  simp [sampleHashing]

theorem canBootstrap_iff_sample : CanBootstrap ⟨toLower, toLower⟩ sampleHashing sampleDevelopment :=
  (@canBootstrap_iff ⟨toLower, toLower⟩ sampleHashing sampleDevelopment (fun _ => none)
    lowersRunes_toLower (fun _ _ => beq_self_eq_true _) nul_notMem_sampleHashing
    (by decide +kernel) (by decide +kernel)).mpr
    ⟨by decide +kernel, by decide +kernel, by decide +kernel, by decide +kernel, by decide +kernel⟩

/-- The configuration is valid with a blank inside the name, and the first start fails. -/
theorem blank_in_username_fails :
    (sampleProduction "site admin".toList "correct horse battery".toList).Accepted (fun _ => none)
      toLower ∧
    ¬CanBootstrap ⟨toLower, toLower⟩ sampleHashing
      (sampleProduction "site admin".toList "correct horse battery".toList) := by
  refine ⟨by decide +kernel, fun hcan => ?_⟩
  obtain ⟨t', r, hresult, _⟩ := hcan ⟨.answered, .answered, 0, some 0, some 0⟩
    ⟨[], by simp, List.Pairwise.nil⟩ ⟨rfl, rfl, rfl, rfl⟩ rfl
  have hrejected : (bootstrapAdmin ⟨toLower, toLower⟩ sampleHashing
      (sampleProduction "site admin".toList "correct horse battery".toList)
      ⟨.answered, .answered, 0, some 0, some 0⟩ ⟨[], by simp, List.Pairwise.nil⟩).2 =
      .error .createUser := by decide +kernel
  rw [hresult] at hrejected
  cases hrejected

end SecureShare.Auth
