import SecureShare.Auth.Permissions
import SecureShare.Delivery.Create
import SecureShare.Library.Interleaving
import SecureShare.Library.Table

/-!
# Users

The table `users` and the statements on it. `UpdateUser` is two of them: a SELECT,
and an UPDATE that writes five columns, those that the patch leaves out as the
SELECT read them.
-/
namespace SecureShare.Auth
open Go Library
open Library.Interleaving (Reply)
open Delivery (UUID storable Dependencies)

inductive ThemePreference where
  | system | light | dark
  deriving DecidableEq, Repr

/-- Times of the database, in microseconds. -/
structure User where
  id : UUID
  username : Text
  email : Text
  role : Role
  status : UserStatus
  forcePasswordChange : Bool
  themePreference : ThemePreference
  lastLoginAt : Option ℤ
  passwordChangedAt : Option ℤ
  createdAt : ℤ
  updatedAt : ℤ
  deriving DecidableEq, Repr

structure UserWithPassword extends User where
  passwordHash : Text
  deriving DecidableEq, Repr

structure UserCreate where
  username : Text
  email : Text
  password : Text
  role : Text
  status : Text
  forcePasswordChange : Bool
  deriving DecidableEq, Repr

structure UserPatch where
  username : Option Text
  email : Option Text
  role : Option Text
  status : Option Text
  forcePasswordChange : Option Bool
  deriving DecidableEq, Repr

/-- The constraints of `users`. -/
def users : Schema UserWithPassword where
  Check r := storable 100 r.username ∧ storable 255 r.email ∧ '\u0000' ∉ r.passwordHash
  Clash r r' := r.id = r'.id ∨ r.username = r'.username ∨ r.email = r'.email
  symm h := h.imp Eq.symm (Or.imp Eq.symm Eq.symm)
  decidableCheck _ := inferInstanceAs (Decidable (_ ∧ _ ∧ _))
  decidableClash _ _ := inferInstanceAs (Decidable (_ ∨ _ ∨ _))

abbrev UserTable := Table users

theorem isKey_userID : users.IsKey (·.id) := .inl

theorem isKey_username : users.IsKey (·.username) := fun h => .inr (.inl h)

/-- `strings.ToLower`, and `lower` of the database. -/
structure CaseFunctions where
  toLower : Text → Text
  sqlLower : Text → Text

/-- `NormalizeLogin` -/
def normalizeLogin (fns : CaseFunctions) (value : Text) : Text := fns.toLower (trimSpace value)

/-- `ValidateUserPassword` accepts the password. -/
def validUserPassword (password : Text) (production : Bool) : Bool :=
  let trimmed := trimSpace password
  !trimmed.isEmpty && (!production || (12 ≤ trimmed.length &&
    toLower trimmed ∉ ["change-me".toList, "change-me-now".toList, "password".toList,
      "password123".toList, "admin".toList, "admin123".toList, "secureshare".toList]))

def normalizeUserCreate (fns : CaseFunctions) (params : UserCreate) : UserCreate :=
  let role := trimSpace params.role
  let status := trimSpace params.status
  { params with
    username := trimSpace params.username
    email := trimSpace (fns.toLower params.email)
    role := if role = [] then Role.developer.text else role
    status := if status = [] then UserStatus.active.text else status }

/-- `validateUserCreate` accepts the parameters, with this role and status. -/
def validateUserCreate (params : UserCreate) (production : Bool) : Option (Role × UserStatus) :=
  if params.username = [] ∨ 100 < byteLength params.username ∨
      params.username.any (· ∈ " \t\r\n".toList) then none
  else if params.email = [] ∨ 255 < byteLength params.email ∨ '@' ∉ params.email then none
  else
    match validRole params.role, validStatus params.status with
    | some role, some status =>
      if validUserPassword params.password production then some (role, status) else none
    | _, _ => none

/-- The columns that `UpdateUser` writes. -/
structure UserColumns where
  username : Text
  email : Text
  role : Role
  status : UserStatus
  forcePasswordChange : Bool
  deriving DecidableEq, Repr

/-- What `UpdateUser` computes from the row it has read, unless that is invalid. -/
def UserPatch.columns (fns : CaseFunctions) (patch : UserPatch) (current : User) :
    Option UserColumns :=
  let username := patch.username.elim current.username trimSpace
  let email := patch.email.elim current.email fun email => trimSpace (fns.toLower email)
  let role := patch.role.elim (some current.role) fun role => validRole (trimSpace role)
  let status := patch.status.elim (some current.status) fun status => validStatus (trimSpace status)
  let force := patch.forcePasswordChange.getD current.forcePasswordChange
  match role, status with
  | some role, some status =>
    if username = [] ∨ email = [] then none
    else some { username, email, role, status, forcePasswordChange := force }
  | _, _ => none

def UserColumns.write (c : UserColumns) (r : UserWithPassword) : UserWithPassword :=
  { r with
    username := c.username
    email := c.email
    role := c.role
    status := c.status
    forcePasswordChange := c.forcePasswordChange }

namespace Repository
variable (now : ℤ) (t : UserTable)

/-- `CreateUser`; no salt or ID means that the random source failed. -/
def createUser (fns : CaseFunctions) (deps : Dependencies) (salt : Option ℕ) (id : Option UUID)
    (params : UserCreate) : Option (UserTable × User) :=
  let params := normalizeUserCreate fns params
  match validateUserCreate params false, deps.hashPassword salt params.password, id with
  | some (role, status), some hash, some id =>
    let r : UserWithPassword :=
      { id, role, status
        username := params.username
        email := params.email
        forcePasswordChange := params.forcePasswordChange
        themePreference := .system
        lastLoginAt := none
        passwordChangedAt := some now
        createdAt := now
        updatedAt := now
        passwordHash := hash }
    (t.insert r).map fun t' => (t', r.toUser)
  | _, _, _ => none

/-- The rows that `UserForLogin` may be answered with: the first of them in an
order that the database chooses. -/
def usersForLogin (fns : CaseFunctions) (login : Text) : List UserWithPassword :=
  t.rows.filter fun r => fns.sqlLower r.username = normalizeLogin fns login ||
    fns.sqlLower r.email = normalizeLogin fns login

def userByID (id : UUID) : Option User := (t.find (·.id) id).map UserWithPassword.toUser

/-- An UPDATE of the row with this ID. The trigger writes `updated_at`. -/
def updateRow (id : UUID) (f : UserWithPassword → UserWithPassword) : Option UserTable :=
  t.update (·.id = id) fun r => { f r with updatedAt := now }

/-- The UPDATE of `UpdateUser`, and the row it returns. -/
def updateColumns (id : UUID) (c : UserColumns) : Option (UserTable × User) :=
  (updateRow now t id c.write).bind fun t' => (userByID t' id).map fun user => (t', user)

/-- The UPDATE of `SetPassword`, which no row is no error of. -/
def setPassword (id : UUID) (hash : Text) (forceChange : Bool) : Option (UserTable × Unit) :=
  (updateRow now t id fun r => { r with
    passwordHash := hash
    passwordChangedAt := some now
    forcePasswordChange := forceChange }).map fun t' => (t', ())

def setThemePreference (id : UUID) (theme : ThemePreference) : Option (UserTable × User) :=
  (updateRow now t id fun r => { r with themePreference := theme }).bind fun t' =>
    (userByID t' id).map fun user => (t', user)

def touchLastLogin (id : UUID) : Option (UserTable × Unit) :=
  (updateRow now t id fun r => { r with lastLoginAt := some now }).map fun t' => (t', ())

variable {now t} {t' : UserTable} {id : UUID} {f : UserWithPassword → UserWithPassword}

/-- What an UPDATE of one row does to each. -/
theorem find_updateRow (h : updateRow now t id f = some t') (hf : ∀ r, (f r).id = r.id)
    (x : UUID) : t'.find (·.id) x = (t.find (·.id) x).map fun r =>
      if x = id then { f r with updatedAt := now } else r := by
  have hfind := Table.find_update (fun r : UserWithPassword => r.id) h hf x
  rw [hfind]
  refine Option.map_congr fun r hr => ?_
  rw [Table.key_of_find hr]
  simp only [decide_eq_true_eq]

end Repository

/-- Case functions for text without upper case. -/
def sampleCase : CaseFunctions := ⟨fun s => s, fun s => s⟩

def sampleUser : UserWithPassword where
  id := 1
  username := "ann".toList
  email := "ann@example.com".toList
  role := .developer
  status := .active
  forcePasswordChange := false
  themePreference := .system
  lastLoginAt := none
  passwordChangedAt := some 0
  createdAt := 0
  updatedAt := 0
  passwordHash := "h0".toList

def sampleUsers : UserTable :=
  ⟨[sampleUser], List.forall_mem_singleton.mpr (by decide), List.pairwise_singleton _ _⟩

end SecureShare.Auth
