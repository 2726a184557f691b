import SecureShare.Go.Duration
import SecureShare.Go.Text

/-!
# Configuration

The settings that `Validate` looks at and every message it can answer. The two
functions of the standard library that rest on a grammar or a table of their own,
`url.ParseRequestURI` and `strings.ToLower`, are parameters.
-/
namespace SecureShare
open Go

structure Config where
  appEnv : Text
  appBaseURL : Text
  databaseURL : Text
  vaultAddr : Text
  vaultToken : Text
  vaultTransitKey : Text
  adminAPIKey : Text
  tokenHMACPepper : Text
  sessionSecret : Text
  csrfSecret : Text
  bootstrapAdminUsername : Text
  bootstrapAdminEmail : Text
  bootstrapAdminPassword : Text
  sessionTTL : Duration
  sessionIdleTimeout : Duration
  cookieSecure : Bool
  maxSecretTTL : Duration
  defaultSecretTTL : Duration
  consumingLeaseTTL : Duration
  cleanupInterval : Duration
  consumedRetention : Duration
  expiredRetention : Duration
  revokedRetention : Duration
  auditRetention : Duration
  maxSecretBytes : Int64
  requestIPHashPepper : Text

namespace Config

/-- `strings.Contains` -/
def contains (s sub : Text) : Bool := decide (sub <:+: s)

def isWeakBootstrapPassword (toLower : Text → Text) (password : Text) : Bool :=
  let trimmed := trimSpace (toLower password)
  decide (byteLength trimmed < 12) ||
    ["change-me".toList, "change-me-now".toList, "password".toList, "password123".toList,
      "admin".toList, "admin123".toList, "secureshare".toList].contains trimmed ||
    contains trimmed "replace-with".toList

/-- The settings that may not be blank, by the name of their variable. -/
def required (c : Config) : List (String × Text) :=
  [("APP_BASE_URL", c.appBaseURL), ("DATABASE_URL", c.databaseURL), ("VAULT_ADDR", c.vaultAddr),
    ("VAULT_TOKEN", c.vaultToken), ("VAULT_TRANSIT_KEY", c.vaultTransitKey),
    ("SECURESHARE_ADMIN_API_KEY", c.adminAPIKey), ("TOKEN_HMAC_PEPPER", c.tokenHMACPepper),
    ("SESSION_SECRET", c.sessionSecret), ("CSRF_SECRET", c.csrfSecret),
    ("REQUEST_IP_HASH_PEPPER", c.requestIPHashPepper)]

private def report (bad : Bool) (message : String) : List String := if bad then [message] else []

def durationErrors (c : Config) : List String :=
  report (c.maxSecretTTL ≤ 0) "MAX_SECRET_TTL must be positive" ++
  report (c.defaultSecretTTL ≤ 0 || c.defaultSecretTTL > c.maxSecretTTL)
    "DEFAULT_SECRET_TTL must be positive and no greater than MAX_SECRET_TTL" ++
  report (c.consumingLeaseTTL ≤ 0) "CONSUMING_LEASE_TTL must be positive" ++
  report (c.cleanupInterval ≤ 0) "CLEANUP_INTERVAL must be positive" ++
  report (c.sessionTTL ≤ 0 || c.sessionIdleTimeout ≤ 0 || c.sessionIdleTimeout > c.sessionTTL)
    "SESSION_IDLE_TIMEOUT must be positive and no greater than SESSION_TTL" ++
  report (c.maxSecretBytes ≤ 0 || c.maxSecretBytes > 1024 * 1024)
    "MAX_SECRET_BYTES must be between 1 byte and 1 MiB"

def bootstrapErrors (c : Config) : List String :=
  if c.bootstrapAdminUsername = [] ∧ c.bootstrapAdminEmail = [] ∧ c.bootstrapAdminPassword = []
  then []
  else
    report (trimSpace c.bootstrapAdminUsername = [])
      "BOOTSTRAP_ADMIN_USERNAME is required when bootstrap admin is configured" ++
    report (trimSpace c.bootstrapAdminEmail = [] || !c.bootstrapAdminEmail.contains '@')
      "BOOTSTRAP_ADMIN_EMAIL must be a valid email-like value" ++
    report (trimSpace c.bootstrapAdminPassword = [])
      "BOOTSTRAP_ADMIN_PASSWORD is required when bootstrap admin is configured"

/-- A secret outside development. -/
private def weak (secret : Text) : Bool :=
  byteLength secret < 32 || contains secret "replace-with".toList

def strengthErrors (toLower : Text → Text) (c : Config) : List String :=
  if c.appEnv = "development".toList then []
  else
    report (byteLength c.adminAPIKey < 32 || c.adminAPIKey = "change-me".toList)
      "SECURESHARE_ADMIN_API_KEY must be strong outside development" ++
    report (weak c.tokenHMACPepper) "TOKEN_HMAC_PEPPER must be strong outside development" ++
    report (weak c.sessionSecret) "SESSION_SECRET must be strong outside development" ++
    report (weak c.csrfSecret) "CSRF_SECRET must be strong outside development" ++
    report (!c.cookieSecure) "COOKIE_SECURE must be true outside development" ++
    report (isWeakBootstrapPassword toLower c.bootstrapAdminPassword)
      "BOOTSTRAP_ADMIN_PASSWORD must be strong outside development"

/-- `Config.Validate`: the joined errors. Go visits the required settings in
no fixed order. -/
def validate (parseRequestURI : Text → Option String) (toLower : Text → Text) (c : Config) :
    List String :=
  (c.required.filter fun r => trimSpace r.2 = []).map (fun r => r.1 ++ " is required") ++
    (parseRequestURI c.appBaseURL).toList.map ("APP_BASE_URL must be a valid URL: " ++ ·) ++
    c.durationErrors ++ c.bootstrapErrors ++ strengthErrors toLower c

/-- The configuration loads without an error. -/
def Accepted (parseRequestURI : Text → Option String) (toLower : Text → Text) (c : Config) :
    Prop := c.validate parseRequestURI toLower = []

instance (parseRequestURI : Text → Option String) (toLower : Text → Text) (c : Config) :
    Decidable (c.Accepted parseRequestURI toLower) := by
  unfold Accepted
  infer_instance

section
variable {parseRequestURI : Text → Option String} {toLower : Text → Text} {c : Config}

/-- The configuration without the credentials of the first administrator. -/
def withoutBootstrap (c : Config) : Config :=
  { c with bootstrapAdminUsername := [], bootstrapAdminEmail := [], bootstrapAdminPassword := [] }

private theorem report_eq_nil {bad : Bool} {message : String} :
    report bad message = [] ↔ bad = false := by
  cases bad <;> simp [report]

theorem Accepted.durationErrors (h : c.Accepted parseRequestURI toLower) :
    c.durationErrors = [] := by
  simp only [Accepted, validate, List.append_eq_nil_iff] at h
  exact h.1.1.2

theorem Accepted.consumingLeaseTTL_pos (h : c.Accepted parseRequestURI toLower) :
    0 < c.consumingLeaseTTL.toInt := by
  have herrors := h.durationErrors
  simp only [Config.durationErrors, List.append_eq_nil_iff, report_eq_nil,
    decide_eq_false_iff_not, Int64.not_le] at herrors
  exact Int64.lt_iff_toInt_lt.mp herrors.1.1.1.2

theorem Accepted.defaultSecretTTL_mem (h : c.Accepted parseRequestURI toLower) :
    0 < c.defaultSecretTTL.toInt ∧ c.defaultSecretTTL.toInt ≤ c.maxSecretTTL.toInt := by
  have herrors := h.durationErrors
  simp only [Config.durationErrors, List.append_eq_nil_iff, report_eq_nil,
    Bool.or_eq_false_iff, decide_eq_false_iff_not, Int64.not_le, gt_iff_lt, Int64.not_lt] at herrors
  obtain ⟨hpositive, hle⟩ := herrors.1.1.1.1.2
  exact ⟨Int64.lt_iff_toInt_lt.mp hpositive, Int64.le_iff_toInt_le.mp hle⟩

/-- Any other positive lease TTL would have been accepted as well. -/
theorem Accepted.withConsumingLeaseTTL (h : c.Accepted parseRequestURI toLower) {d : Duration}
    (hd : 0 < d.toInt) :
    ({ c with consumingLeaseTTL := d } : Config).Accepted parseRequestURI toLower := by
  have hpositive : ∀ e : Duration, 0 < e.toInt → decide (e ≤ 0) = false := by
    intro e he
    rw [decide_eq_false_iff_not, Int64.not_le]
    exact Int64.lt_iff_toInt_lt.mpr he
  have herrors : ({ c with consumingLeaseTTL := d } : Config).durationErrors =
      c.durationErrors := by
    simp only [Config.durationErrors, hpositive d hd, hpositive _ h.consumingLeaseTTL_pos]
  unfold Accepted validate at h ⊢
  rw [herrors]
  exact h

theorem Accepted.tokenHMACPepper_ne_nil (h : c.Accepted parseRequestURI toLower) :
    c.tokenHMACPepper ≠ [] := by
  simp only [Accepted, validate, List.append_eq_nil_iff, List.map_eq_nil_iff,
    List.filter_eq_nil_iff] at h
  intro hnil
  have hmem : ("TOKEN_HMAC_PEPPER", c.tokenHMACPepper) ∈ c.required := by simp [required]
  have := h.1.1.1.1 _ hmem
  rw [hnil] at this
  exact this (by decide)

/-- Credentials that are set are set completely. -/
theorem Accepted.bootstrap (h : c.Accepted parseRequestURI toLower)
    (hset : ¬(c.bootstrapAdminUsername = [] ∧ c.bootstrapAdminEmail = [] ∧
      c.bootstrapAdminPassword = [])) :
    trimSpace c.bootstrapAdminUsername ≠ [] ∧ '@' ∈ c.bootstrapAdminEmail ∧
      trimSpace c.bootstrapAdminPassword ≠ [] := by
  simp only [Accepted, validate, List.append_eq_nil_iff] at h
  have herrors := h.1.2
  rw [bootstrapErrors, if_neg hset] at herrors
  simp only [List.append_eq_nil_iff, report_eq_nil, Bool.or_eq_false_iff,
    decide_eq_false_iff_not, Bool.not_eq_false', List.contains_iff_mem] at herrors
  exact ⟨herrors.1.1, herrors.1.2.2, herrors.2⟩

theorem Accepted.strongPassword (h : c.Accepted parseRequestURI toLower)
    (henv : c.appEnv ≠ "development".toList) :
    isWeakBootstrapPassword toLower c.bootstrapAdminPassword = false := by
  simp only [Accepted, validate, List.append_eq_nil_iff] at h
  have herrors := h.2
  rw [strengthErrors, if_neg henv] at herrors
  simp only [List.append_eq_nil_iff, report_eq_nil] at herrors
  exact herrors.2

/-- Without credentials a configuration stays valid in development only: elsewhere the empty
password is a weak one. -/
theorem Accepted.withoutBootstrap_iff (h : c.Accepted parseRequestURI toLower)
    (hempty : toLower [] = []) :
    c.withoutBootstrap.Accepted parseRequestURI toLower ↔ c.appEnv = "development".toList := by
  constructor
  · intro h'
    by_contra henv
    have hstrong := h'.strongPassword henv
    rw [isWeakBootstrapPassword, withoutBootstrap, hempty] at hstrong
    cases hstrong
  · intro henv
    have hstrength : strengthErrors toLower c.withoutBootstrap = [] := if_pos henv
    have hbootstrap : c.withoutBootstrap.bootstrapErrors = [] := if_pos ⟨rfl, rfl, rfl⟩
    simp only [Accepted, validate, List.append_eq_nil_iff] at h ⊢
    exact ⟨⟨⟨h.1.1.1, h.1.1.2⟩, hbootstrap⟩, hstrength⟩

end
end Config
end SecureShare
