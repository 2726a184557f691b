import SecureShare.Delivery.Create
import Mathlib.Data.List.Nodup

/-!
# The table and the repository

`secret_deliveries` is a list of rows with unique keys that satisfy the
constraints of the schema. A statement updates every row that its guard matches;
since each guard of a single call names a key, it matches at most one.
-/
namespace SecureShare.Delivery
open Go

structure Table where
  rows : List Row
  ids : (rows.map Row.id).Nodup
  tokenHashes : (rows.map Row.tokenHash).Nodup
  checks : ∀ r ∈ rows, r.Checks

namespace Table

def empty : Table := ⟨[], List.nodup_nil, List.nodup_nil, fun _ h => absurd h List.not_mem_nil⟩

def exec (now : ℤ) (s : Statement) (t : Table) : Table where
  rows := t.rows.map (s.exec now)
  ids := by
    rw [List.map_map]
    simpa [Function.comp_def] using t.ids
  tokenHashes := by
    rw [List.map_map]
    simpa [Function.comp_def] using t.tokenHashes
  checks := by
    intro r hr
    obtain ⟨r', hr', rfl⟩ := List.mem_map.mp hr
    exact Statement.exec_checks (t.checks r' hr')

def rowsAffected (now : ℤ) (s : Statement) (t : Table) : ℕ :=
  t.rows.countP fun r => s.Guard now r

/-- The first row of a RETURNING clause. -/
def returning (now : ℤ) (s : Statement) (t : Table) : Option Row :=
  (t.rows.find? fun r => s.Guard now r).map (s.set now)

/-- `Repository.Insert` fails on a violated constraint. -/
def insert (t : Table) (r : Row) : Option Table :=
  if h : r.Checks ∧ r.id ∉ t.rows.map Row.id ∧ r.tokenHash ∉ t.rows.map Row.tokenHash then
    some
      { rows := r :: t.rows
        ids := List.nodup_cons.mpr ⟨h.2.1, t.ids⟩
        tokenHashes := List.nodup_cons.mpr ⟨h.2.2, t.tokenHashes⟩
        checks := List.forall_mem_cons.mpr ⟨h.1, t.checks⟩ }
  else none

def find (t : Table) (id : UUID) : Option Row := t.rows.find? fun r => r.id = id

def findToken (t : Table) (tokenHash : Bytes) : Option Row :=
  t.rows.find? fun r => r.tokenHash = tokenHash

variable {t t' : Table} {r : Row} {id : UUID}

theorem find_eq_some : t.find id = some r ↔ r ∈ t.rows ∧ r.id = id := by
  rw [find]
  constructor
  · intro h
    exact ⟨List.mem_of_find?_eq_some h, by simpa using List.find?_some h⟩
  · rintro ⟨hr, rfl⟩
    obtain ⟨r', hr'⟩ := Option.isSome_iff_exists.mp
      (List.find?_isSome.mpr ⟨r, hr, by simp⟩ : (t.rows.find? fun u => u.id = r.id).isSome)
    have hmem := List.mem_of_find?_eq_some hr'
    have hid : r'.id = r.id := by simpa using List.find?_some hr'
    rw [hr', List.inj_on_of_nodup_map t.ids hmem hr hid]

theorem findToken_eq_some {tokenHash : Bytes} :
    t.findToken tokenHash = some r ↔ r ∈ t.rows ∧ r.tokenHash = tokenHash := by
  rw [findToken]
  constructor
  · intro h
    exact ⟨List.mem_of_find?_eq_some h, by simpa using List.find?_some h⟩
  · rintro ⟨hr, rfl⟩
    obtain ⟨r', hr'⟩ := Option.isSome_iff_exists.mp (List.find?_isSome.mpr ⟨r, hr, by simp⟩ :
      (t.rows.find? fun u => u.tokenHash = r.tokenHash).isSome)
    have hmem := List.mem_of_find?_eq_some hr'
    have hhash : r'.tokenHash = r.tokenHash := by simpa using List.find?_some hr'
    rw [hr', List.inj_on_of_nodup_map t.tokenHashes hmem hr hhash]

theorem find_id (h : t.find id = some r) : r.id = id := (find_eq_some.mp h).2

theorem find_exec (now : ℤ) (s : Statement) (t : Table) (id : UUID) :
    (t.exec now s).find id = (t.find id).map (s.exec now) := by
  simp only [find, exec, List.find?_map, Function.comp_def, Statement.exec_id]

theorem find_insert (h : t.insert r = some t') (id : UUID) :
    t'.find id = if id = r.id then some r else t.find id := by
  unfold insert at h
  split_ifs at h
  cases h
  simp only [find, List.find?_cons]
  by_cases hid : id = r.id
  · simp [hid]
  · simp [hid, Ne.symm hid]

theorem insert_new (h : t.insert r = some t') : t.find r.id = none := by
  unfold insert at h
  split_ifs at h with hnew
  rw [find, List.find?_eq_none]
  intro u hu
  simp only [decide_eq_true_eq]
  exact fun heq => hnew.2.1 (heq ▸ List.mem_map_of_mem hu)

/-- The rows after an insert are the new one and those with another ID. -/
theorem mem_insert {u : Row} (h : t.insert r = some t') (hu : u ∈ t'.rows) :
    u = r ∨ u ∈ t.rows ∧ u.id ≠ r.id := by
  unfold insert at h
  split_ifs at h with hnew
  cases h
  rcases List.mem_cons.mp hu with rfl | hu
  · exact .inl rfl
  · exact .inr ⟨hu, fun heq => hnew.2.1 (heq ▸ List.mem_map_of_mem hu)⟩

theorem returning_eq_some {now : ℤ} {s : Statement} {r' : Row} (h : t.returning now s = some r') :
    ∃ r, t.find r.id = some r ∧ s.Guard now r ∧ r' = s.set now r := by
  rw [returning, Option.map_eq_some_iff] at h
  obtain ⟨r, hr, rfl⟩ := h
  exact ⟨r, find_eq_some.mpr ⟨List.mem_of_find?_eq_some hr, rfl⟩, by simpa using List.find?_some hr,
    rfl⟩

theorem returning_eq_none {now : ℤ} {s : Statement} (h : t.returning now s = none) :
    t.exec now s = t := by
  rw [returning, Option.map_eq_none_iff, List.find?_eq_none] at h
  have hrows : t.rows.map (s.exec now) = t.rows := by
    refine (List.map_congr_left fun r hr => ?_).trans (List.map_id t.rows)
    exact Statement.exec_of_not_guard (by simpa using h r hr)
  cases t
  simp only [exec] at hrows ⊢
  congr

/-- A guard that names an ID matches that row or none. -/
theorem rowsAffected_eq_one {now : ℤ} {s : Statement} (hid : ∀ r, s.Guard now r → r.id = id) :
    t.rowsAffected now s = 1 ↔ ∃ r, t.find id = some r ∧ s.Guard now r := by
  have hle : t.rowsAffected now s ≤ 1 := by
    refine le_trans ?_ (List.nodup_iff_count_le_one.mp t.ids id)
    rw [List.count, List.countP_map]
    refine List.countP_mono_left fun r _ hr => ?_
    simpa using hid r (by simpa using hr)
  have hpos : 0 < t.rowsAffected now s ↔ ∃ r, t.find id = some r ∧ s.Guard now r := by
    rw [rowsAffected, List.countP_pos_iff]
    constructor
    · rintro ⟨r, hr, hguard⟩
      have hguard : s.Guard now r := by simpa using hguard
      exact ⟨r, find_eq_some.mpr ⟨hr, hid r hguard⟩, hguard⟩
    · rintro ⟨r, hr, hguard⟩
      exact ⟨r, (find_eq_some.mp hr).1, by simpa using hguard⟩
  rw [← hpos]
  omega

/-- A statement that matches no row leaves the table as it is. -/
theorem exec_eq_self {now : ℤ} {s : Statement} (h : ∀ r ∈ t.rows, ¬s.Guard now r) :
    t.exec now s = t :=
  returning_eq_none (by
    rw [returning, Option.map_eq_none_iff, List.find?_eq_none]
    simpa using h)

end Table

/-- What the callers read of a row. -/
def Row.candidate (r : Row) : ConsumeCandidate where
  id := r.id
  encryptedPayload := r.encryptedPayload
  passwordHash := r.passwordHash
  failedAttempts := r.failedAttempts
  maxFailedAttempts := r.maxFailedAttempts

namespace Repository
variable (t : Table) (now : ℤ)

def prepare (tokenHash : Bytes) : PrepareResponse :=
  match t.rows.find? fun r => r.tokenHash = tokenHash ∧ r.status = .active ∧ now < r.expiresAt ∧
      r.failedAttempts < r.maxFailedAttempts with
  | some r => ⟨true, r.passwordHash.isSome, some r.expiresAt⟩
  | none => ⟨false, false, none⟩

def findConsumeCandidate (tokenHash : Bytes) (leaseTTL : Duration) : Option ConsumeCandidate :=
  (t.rows.find? fun r =>
    r.tokenHash = tokenHash ∧ r.Available leaseTTL.int64Seconds now).map Row.candidate

def beginConsume (tokenHash : Bytes) (expectedPasswordHash : Option Text) (leaseID : UUID)
    (leaseTTL : Duration) : Table × Option ConsumeCandidate :=
  let s : Statement := .beginConsume tokenHash expectedPasswordHash leaseID leaseTTL.int64Seconds
  (t.exec now s, (t.returning now s).map Row.candidate)

def recordPasswordFailure (tokenHash : Bytes) (expectedPasswordHash : Text) (leaseTTL : Duration) :
    Table × PasswordFailureResult :=
  let s : Statement := .recordPasswordFailure tokenHash expectedPasswordHash leaseTTL.int64Seconds
  (t.exec now s,
    match t.returning now s with
    | none => ⟨0, false, false⟩
    | some r => ⟨r.id, true, r.status = .revoked⟩)

def updatePasswordProtection (id : UUID) (passwordHash : Option Text) :
    Table × ProtectionUpdateResult :=
  let s : Statement := .updatePasswordProtection id passwordHash
  (t.exec now s,
    match t.rows.find? fun r => s.Guard now r with
    | none => ⟨0, false, false, false⟩
    | some r => ⟨r.id, passwordHash.isSome, r.passwordHash.isSome, true⟩)

def restoreConsume (id leaseID : UUID) : Table := t.exec now (.restoreConsume id leaseID)

def completeConsume (id leaseID : UUID) : Table × Bool :=
  let s : Statement := .completeConsume id leaseID
  (t.exec now s, t.rowsAffected now s = 1)

/-- The UPDATE of `Revoke`, and whether it matched. -/
def revokeUpdate (id : UUID) : Table × Bool :=
  let s : Statement := .revoke id
  (t.exec now s, t.rowsAffected now s = 1)

/-- The SELECT after an UPDATE that did not match. -/
def revokeStatus (id : UUID) : RevokeResult :=
  match t.find id with
  | none => ⟨id, none, false, false⟩
  | some r => ⟨id, some r.status, false, true⟩

/-- One of the statements of `Cleanup`, with the number of its rows. -/
def cleanupStatement (s : Statement) : Table × ℕ := (t.exec now s, t.rowsAffected now s)

end Repository
end SecureShare.Delivery
