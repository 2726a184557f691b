import SecureShare.Delivery.Statement

/-!
# Roles, permissions and scopes

What a user's role permits, what an API client's scopes permit, and the actor that
a request is taken to come from.
-/
namespace SecureShare.Auth
open Go
open Delivery (UUID Bytes)

inductive Role where
  | admin | developer | viewer
  deriving DecidableEq, Repr

def Role.text : Role → Text
  | .admin => "admin".toList
  | .developer => "developer".toList
  | .viewer => "viewer".toList

/-- `ValidRole` -/
def validRole (role : Text) : Option Role :=
  if role = "admin".toList then some .admin
  else if role = "developer".toList then some .developer
  else if role = "viewer".toList then some .viewer
  else none

inductive UserStatus where
  | active | disabled
  deriving DecidableEq, Repr

def UserStatus.text : UserStatus → Text
  | .active => "active".toList
  | .disabled => "disabled".toList

/-- `ValidStatus` -/
def validStatus (status : Text) : Option UserStatus :=
  if status = "active".toList then some .active
  else if status = "disabled".toList then some .disabled
  else none

theorem validRole_text (role : Role) : validRole role.text = some role := by
  cases role <;> decide

theorem validStatus_text (status : UserStatus) : validStatus status.text = some status := by
  cases status <;> decide

/-- `PermissionsForRole` -/
def permissionsForRole : Role → List Text
  | .admin =>
    ["dashboard:read".toList, "system:read".toList, "secret:create".toList,
      "secret:read-metadata".toList, "secret:revoke".toList, "secret:manage-protection".toList,
      "user:manage".toList, "api-client:manage".toList, "email-settings:manage".toList,
      "public-experience:manage".toList, "email:send".toList, "system:cleanup".toList,
      "api-docs:read".toList, "account:manage".toList]
  | .developer =>
    ["dashboard:read".toList, "secret:create".toList, "secret:read-metadata".toList,
      "secret:revoke".toList, "secret:manage-protection".toList, "email:send".toList,
      "api-docs:read".toList, "account:manage".toList]
  | .viewer =>
    ["dashboard:read".toList, "system:read".toList, "secret:read-metadata".toList,
      "api-docs:read".toList, "account:manage".toList]

def allowedAPIScopes : List Text :=
  ["secret:create".toList, "secret:list".toList, "secret:read-metadata".toList,
    "secret:revoke".toList, "secret:manage-protection".toList, "dashboard:read".toList,
    "email:send".toList]

/-- The loop of `NormalizeScopes`; `out` holds the scopes kept so far. -/
def normalizeScopesAux : List Text → List Text → Option (List Text)
  | out, [] => some out
  | out, scope :: scopes =>
    if trimSpace scope = [] then normalizeScopesAux out scopes
    else if trimSpace scope ∉ allowedAPIScopes then none
    else if trimSpace scope ∈ out then normalizeScopesAux out scopes
    else normalizeScopesAux (out ++ [trimSpace scope]) scopes

def normalizeScopes (scopes : List Text) : Option (List Text) :=
  (normalizeScopesAux [] scopes).filter fun out => out ≠ []

/-- `ScopeAllowed` -/
def scopeAllowed (scopes : List Text) (permission : Text) : Bool :=
  scopes.any fun scope => scope = permission ||
    (permission = "secret:read-metadata".toList && scope = "secret:list".toList)

/-- `scopesMap` -/
def scopesMap (scopes : List Text) : List Text :=
  if "secret:list".toList ∈ scopes then "secret:read-metadata".toList :: scopes else scopes

/-- The permissions of an actor are what it is looked up in. -/
structure Actor where
  actorID : Text
  permissions : List Text
  bearer : Bool := false
  apiClient : Bool := false
  clientID : Text := []
  userID : UUID := 0
  username : Text := []
  email : Text := []
  role : Option Role := none
  token : Text := []
  deriving DecidableEq, Repr

/-- Normalised scopes satisfy the constraint of the table. -/
theorem normalizeScopes_spec {scopes out : List Text} (h : normalizeScopes scopes = some out) :
    out ≠ [] ∧ out.Nodup ∧ ∀ s ∈ out, s ∈ allowedAPIScopes := by
  have aux : ∀ (scopes kept out : List Text), normalizeScopesAux kept scopes = some out →
      kept.Nodup ∧ (∀ s ∈ kept, s ∈ allowedAPIScopes) →
      out.Nodup ∧ ∀ s ∈ out, s ∈ allowedAPIScopes := by
    intro scopes
    induction scopes with
    | nil =>
        intro kept out h hkept
        cases h
        exact hkept
    | cons scope scopes ih =>
        intro kept out h hkept
        unfold normalizeScopesAux at h
        split_ifs at h with hempty hallowed hseen
        · exact ih kept out h hkept
        · exact ih kept out h hkept
        · refine ih _ out h ⟨?_, ?_⟩
          · exact hkept.1.append (List.nodup_singleton _) (by simpa using hseen)
          · intro s hs
            rcases List.mem_append.mp hs with hs | hs
            · exact hkept.2 s hs
            · exact List.mem_singleton.mp hs ▸ hallowed
  obtain ⟨haux, hne⟩ := Option.filter_eq_some_iff.mp h
  exact ⟨by simpa using hne, aux scopes [] out haux ⟨List.nodup_nil, by simp⟩⟩

end SecureShare.Auth
