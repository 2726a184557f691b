import SecureShare.Delivery.Create

/-!
# The lifetime of a delivery

The requested seconds become nanoseconds in an int64, in the check and in the use. What is
stored is what was requested exactly if that product does not wrap around, since the check
sees the wrapped product too.
-/
namespace SecureShare.Delivery
open Go

/-- The nanoseconds that a request asks for. -/
def requestedLifetime (cfg : Config) (req : CreateRequest) : ℤ :=
  if 0 < req.expiresInSeconds.toInt then req.expiresInSeconds.toInt * 1000000000
  else cfg.defaultSecretTTL.toInt

/-- What is stored expires after the requested time, which is positive and at most the
longest one. -/
structure LifetimeKept (cfg : Config) (req : CreateRequest) (now : ℤ) (params : InsertParams) :
    Prop where
  exact : params.expiresAt - now = requestedLifetime cfg req
  positive : 0 < params.expiresAt - now
  bounded : params.expiresAt - now ≤ cfg.maxSecretTTL.toInt
  stored : ∀ created, (params.row created).expiresAt = (now + requestedLifetime cfg req) / 1000

variable {parseRequestURI : Text → Option String} {toLower : Text → Text} {cfg : Config}
  {deps : Dependencies} {inputs : CreateInputs} {actorID : Text} {req : CreateRequest}
  {params : InsertParams} {token : Text}

theorem toInt_mul_second (s : Int64) :
    (s * Duration.second).toInt = (s.toInt * 1000000000).bmod (2 ^ 64) := by
  have hsecond : Duration.second.toInt = 1000000000 := by decide
  rw [Int64.toInt_mul, hsecond]

/-- The product of a positive number of seconds is right exactly up to the last one that
an int64 holds. -/
theorem toInt_mul_second_eq_iff {s : Int64} (hs : 0 < s.toInt) :
    (s * Duration.second).toInt = s.toInt * 1000000000 ↔ s.toInt ≤ 9223372036 := by
  constructor
  · intro h
    have hlt := (s * Duration.second).toInt_lt
    omega
  · intro h
    rw [toInt_mul_second]
    exact Int.bmod_eq_of_le (by omega) (by omega)

theorem ttl_of_pos {s : Int64} (hs : 0 < s.toInt) : ttl cfg s = s * Duration.second := by
  have hpos : ¬s ≤ 0 := by
    rw [Int64.le_iff_toInt_le]
    simpa using hs
  rw [ttl, if_neg hpos]

theorem ttl_of_nonpos {s : Int64} (hs : ¬0 < s.toInt) : ttl cfg s = cfg.defaultSecretTTL := by
  have hnonpos : s ≤ 0 := by
    rw [Int64.le_iff_toInt_le]
    simpa using hs
  rw [ttl, if_pos hnonpos]

/-- The check compares the product with the limit. -/
theorem product_le_of_validateCreate {p : Text} (h : validateCreate cfg req p = .ok ())
    (hs : 0 < req.expiresInSeconds.toInt) :
    (req.expiresInSeconds * Duration.second).toInt ≤ cfg.maxSecretTTL.toInt := by
  have hpos : 0 < req.expiresInSeconds := Int64.lt_iff_toInt_lt.mpr (by simpa using hs)
  unfold validateCreate at h
  split_ifs at h with _ _ _ _ _ hlimit
  rw [not_and, Int64.not_lt] at hlimit
  exact Int64.le_iff_toInt_le.mp (hlimit hpos)

/-- The lifetime of a delivery is the requested one exactly if the request is for at most
9223372036 seconds. -/
theorem lifetime_kept_iff (hcfg : cfg.Accepted parseRequestURI toLower)
    (h : insertParams deps cfg inputs actorID req = .ok (params, token)) :
    LifetimeKept cfg req inputs.now params ↔ req.expiresInSeconds.toInt ≤ 9223372036 := by
  obtain ⟨p, haccepts⟩ := insertParams_spec h
  have hexpires : params.expiresAt - inputs.now = (ttl cfg req.expiresInSeconds).toInt := by
    rw [haccepts.expiresAt]
    omega
  have hrow : ∀ created, (params.row created).expiresAt = params.expiresAt / 1000 := fun _ => rfl
  by_cases hs : 0 < req.expiresInSeconds.toInt
  · have hrequested : requestedLifetime cfg req = req.expiresInSeconds.toInt * 1000000000 :=
      if_pos hs
    rw [ttl_of_pos hs] at hexpires
    rw [← toInt_mul_second_eq_iff hs, ← hrequested, ← hexpires]
    constructor
    · intro hkept
      exact hkept.exact
    · intro hexact
      refine ⟨hexact, ?_, ?_, fun created => ?_⟩
      · omega
      · rw [hexpires]
        exact product_le_of_validateCreate haccepts.validated hs
      · rw [hrow, ← hexact]
        congr 1
        omega
  · have hrequested : requestedLifetime cfg req = cfg.defaultSecretTTL.toInt := if_neg hs
    obtain ⟨hpositive, hle⟩ := hcfg.defaultSecretTTL_mem
    rw [ttl_of_nonpos hs, ← hrequested] at hexpires
    constructor
    · intro _
      omega
    · intro _
      refine ⟨hexpires, by omega, by omega, fun created => ?_⟩
      rw [hrow, ← hexpires]
      congr 1
      omega

def sampleLifetime (seconds : Int64) : Except ServiceError (InsertParams × Text) :=
  insertParams sampleDependencies sampleConfig sampleInputs "admin".toList
    { sampleRequest with expiresInSeconds := seconds }

theorem lifetime_kept_iff_sample : ∃ params token,
    sampleLifetime 3600 = .ok (params, token) ∧
    LifetimeKept sampleConfig { sampleRequest with expiresInSeconds := 3600 } 0 params :=
  ⟨sampleParams, ['t'], insertParams_sample,
    (lifetime_kept_iff sampleConfig_accepted insertParams_sample).mpr (by decide)⟩

/-- Of 584 years 290 milliseconds are left, and of half of them a time in the past. -/
theorem lifetime_wraps_around :
    sampleConfig.Accepted (fun _ => none) id ∧
    sampleLifetime 18446744074 = .ok ({ sampleParams with expiresAt := 290448384 }, ['t']) ∧
    sampleLifetime 9223372037 =
      .ok ({ sampleParams with expiresAt := -9223372036709551616 }, ['t']) ∧
    ¬LifetimeKept sampleConfig { sampleRequest with expiresInSeconds := 18446744074 } 0
      { sampleParams with expiresAt := 290448384 } ∧
    ¬LifetimeKept sampleConfig { sampleRequest with expiresInSeconds := 9223372037 } 0
      { sampleParams with expiresAt := -9223372036709551616 } := by
  refine ⟨sampleConfig_accepted, by decide +kernel, by decide +kernel, fun h => ?_, fun h => ?_⟩
  · exact absurd h.exact (by decide)
  · exact absurd h.positive (by decide)

end SecureShare.Delivery
