import SecureShare.Library.Transition
import Mathlib.Data.Int.Order.Basic
import Mathlib.Logic.Function.Basic
import Mathlib.Tactic.Linarith
import Mathlib.Tactic.Ring

/-!
# Fixed windows

A key opens a window with its first turn, and is granted a limited number of turns
until the reset; the first turn after the reset opens the next window. Keys do not
touch each other, so all laws are about the bucket of one key.
-/
namespace SecureShare.Library.FixedWindow
open Transition

structure Limit where
  limit : ℕ
  window : ℤ

structure Bucket where
  count : ℕ
  resetAt : ℤ
  deriving DecidableEq, Repr

/-- One turn of a key. At the reset itself the window is still open. -/
def take (l : Limit) (now : ℤ) : Option Bucket → Option Bucket × Bool
  | none => (some ⟨1, now + l.window⟩, true)
  | some b =>
    if b.resetAt < now then (some ⟨1, now + l.window⟩, true)
    else if l.limit ≤ b.count then (some b, false)
    else (some ⟨b.count + 1, b.resetAt⟩, true)

/-- Drops the bucket after its reset. -/
def sweep (now : ℤ) (b : Option Bucket) : Option Bucket := b.filter fun b => ¬b.resetAt < now

theorem sweep_of_lt {now : ℤ} {b : Bucket} (h : b.resetAt < now) : sweep now (some b) = none := by
  rw [sweep, Option.filter_some, if_neg (by simpa using h)]

theorem sweep_of_le {now : ℤ} {b : Bucket} (h : now ≤ b.resetAt) : sweep now (some b) = some b := by
  rw [sweep, Option.filter_some, if_pos (by simpa using h)]

/-- Whether a bucket has been dropped makes no difference to its key. -/
@[simp] theorem take_sweep (l : Limit) (now : ℤ) (b : Option Bucket) :
    take l now (sweep now b) = take l now b := by
  cases b with
  | none => rfl
  | some b =>
      by_cases h : b.resetAt < now
      · rw [sweep_of_lt h, take, take, if_pos h]
      · rw [sweep_of_le (not_lt.mp h)]

theorem sweep_sweep {now now' : ℤ} (h : now ≤ now') (b : Option Bucket) :
    sweep now' (sweep now b) = sweep now' b := by
  cases b with
  | none => rfl
  | some b =>
      by_cases hreset : b.resetAt < now
      · rw [sweep_of_lt hreset, sweep_of_lt (hreset.trans_le h)]
        rfl
      · rw [sweep_of_le (not_lt.mp hreset)]

abbrev Buckets (κ : Type*) := κ → Option Bucket

section buckets
variable {κ : Type*} [DecidableEq κ] (l : Limit) (now : ℤ) (key : κ) (s : Buckets κ)

def allow : Buckets κ × Bool :=
  (Function.update s key (take l now (s key)).1, (take l now (s key)).2)

def cleanup (now : ℤ) (s : Buckets κ) : Buckets κ := fun key => sweep now (s key)

@[simp] theorem allow_same : (allow l now key s).1 key = (take l now (s key)).1 :=
  Function.update_self ..

variable {key} in
@[simp] theorem allow_other {key' : κ} (h : key' ≠ key) : (allow l now key s).1 key' = s key' :=
  Function.update_of_ne h ..

end buckets

/-- Since `start`, a key has been granted `n` turns: as many as fit into the windows that
are over, and those that its bucket counts. -/
def Rationed (l : Limit) (start now : ℤ) (n : ℕ) : Option Bucket → Prop
  | none => ∃ m : ℕ, n ≤ l.limit * m ∧ m * l.window ≤ now - start
  | some b => b.count ≤ l.limit ∧ b.resetAt - l.window ≤ now ∧
    ∃ m : ℕ, n ≤ l.limit * m + b.count ∧ m * l.window ≤ b.resetAt - l.window - start

variable {l : Limit} {start now now' : ℤ} {n : ℕ} {b : Option Bucket}

theorem Rationed.zero (h : start ≤ now) : Rationed l start now 0 none :=
  ⟨0, Nat.zero_le _, by simpa using h⟩

/-- A window that is open goes on with the turns that are left. -/
theorem Rationed.resume {b : Bucket} (h : Rationed l start now n (some b)) :
    Rationed l (b.resetAt - l.window) now 0 (some b) :=
  ⟨h.1, h.2.1, 0, Nat.zero_le _, by simp⟩

theorem Rationed.later (h : Rationed l start now n b) (hle : now ≤ now') :
    Rationed l start now' n b := by
  cases b with
  | none =>
      obtain ⟨m, hn, hm⟩ := h
      exact ⟨m, hn, by omega⟩
  | some b =>
      obtain ⟨hcount, hopen, hrest⟩ := h
      exact ⟨hcount, hopen.trans hle, hrest⟩

/-- A window that is over is one more. -/
theorem Rationed.expired {b : Bucket} (h : Rationed l start now n (some b))
    (hreset : b.resetAt < now') : Rationed l start now' n none := by
  obtain ⟨hcount, _, m, hn, hm⟩ := h
  refine ⟨m + 1, ?_, ?_⟩
  · rw [Nat.mul_succ]
    omega
  · push_cast
    linarith

theorem Rationed.sweep (h : Rationed l start now n b) (hle : now ≤ now') :
    Rationed l start now' n (sweep now' b) := by
  cases b with
  | none => exact h.later hle
  | some b =>
      by_cases hreset : b.resetAt < now'
      · rw [sweep_of_lt hreset]
        exact h.expired hreset
      · rw [sweep_of_le (not_lt.mp hreset)]
        exact h.later hle

/-- A turn that opens a window. -/
theorem Rationed.opens (hl : 1 ≤ l.limit) (h : Rationed l start now n none) :
    Rationed l start now (n + 1) (some ⟨1, now + l.window⟩) := by
  obtain ⟨m, hn, hm⟩ := h
  exact ⟨hl, by simp, m, by simpa using hn, by simpa using hm⟩

theorem Rationed.take (hl : 1 ≤ l.limit) (h : Rationed l start now n b) (hle : now ≤ now') :
    Rationed l start now' (n + (take l now' b).2.toNat) (take l now' b).1 := by
  cases b with
  | none => exact (h.later hle).opens hl
  | some b =>
      dsimp only [FixedWindow.take]
      split_ifs with hreset hfull
      · exact (h.expired hreset).opens hl
      · exact h.later hle
      · obtain ⟨_, hopen, m, hn, hm⟩ := h.later hle
        refine ⟨by dsimp only; omega, hopen, m, ?_, hm⟩
        simp only [Bool.toNat_true]
        omega

/-- No more turns are granted than the windows allow that can have been opened. -/
theorem Rationed.le (hw : 0 < l.window) (h : Rationed l start now n b) :
    (n : ℤ) ≤ l.limit * ((now - start) / l.window + 1) := by
  have hbound : ∃ m : ℕ, n ≤ l.limit * m + l.limit ∧ m * l.window ≤ now - start := by
    cases b with
    | none =>
        obtain ⟨m, hn, hm⟩ := h
        exact ⟨m, Nat.le_add_right_of_le hn, hm⟩
    | some b =>
        obtain ⟨hcount, hopen, m, hn, hm⟩ := h
        exact ⟨m, by omega, by omega⟩
  obtain ⟨m, hn, hm⟩ := hbound
  calc (n : ℤ) ≤ l.limit * m + l.limit := by exact_mod_cast hn
    _ = l.limit * (m + 1) := by ring
    _ ≤ l.limit * ((now - start) / l.window + 1) := by
      apply mul_le_mul_of_nonneg_left _ (Int.natCast_nonneg _)
      linarith [Int.le_ediv_of_mul_le hw hm]

/-- The turns that fit into a time, which may begin within a window. -/
def turns (l : Limit) (midway : Bool) (time : ℤ) : ℤ :=
  l.limit * (time / l.window + 1 + midway.toNat)

/-- What is granted in the time from `now` to `now'`, if the account of the key was opened
at `now` or with the window that was open then. -/
theorem Rationed.le_turns (hw : 0 < l.window) {midway : Bool} {b' : Option Bucket}
    (hstart : midway = false → start = now) (hmidway : now ≤ start + l.window)
    (h : Rationed l start now' n b') : (n : ℤ) ≤ turns l midway (now' - now) := by
  apply h.le hw |>.trans
  apply mul_le_mul_of_nonneg_left _ (Int.natCast_nonneg _)
  cases midway with
  | false =>
      rw [hstart rfl]
      simp
  | true =>
      have hsum : (now' - start) / l.window ≤ (now' - now + l.window) / l.window :=
        Int.ediv_le_ediv hw (by omega)
      rw [Int.add_ediv_of_dvd_right (dvd_refl _), Int.ediv_self hw.ne'] at hsum
      simp only [Bool.toNat_true, Nat.cast_one]
      omega

/-- What a call means to a limiter. -/
inductive Op (κ : Type*) where
  | allow (key : κ)
  | cleanup
  | other
  deriving DecidableEq

/-- A limiter and the calls that it has granted, the last one first. -/
structure Account (κ ρ : Type*) where
  buckets : Buckets κ
  clock : ℤ
  granted : List ρ

namespace Account
variable {κ ρ : Type*} [DecidableEq κ] (l : Limit) (op : ρ → Op κ)

def init (clock : ℤ) : Account κ ρ := ⟨fun _ => none, clock, []⟩

/-- A call, no earlier than the one before it. -/
def step (s : Account κ ρ) (a : ℤ × ρ) : Option (Account κ ρ) :=
  if a.1 < s.clock then none
  else
    some (match op a.2 with
    | .allow key =>
      let r := allow l a.1 key s.buckets
      ⟨r.1, a.1, if r.2 then a.2 :: s.granted else s.granted⟩
    | .cleanup => ⟨cleanup a.1 s.buckets, a.1, s.granted⟩
    | .other => ⟨s.buckets, a.1, s.granted⟩)

/-- The window of the key has been opened and not yet reset. -/
def windowOpen (s : Account κ ρ) (key : κ) : Bool := (sweep s.clock (s.buckets key)).isSome

/-- The calls with this key, by the account that was opened at `start`. -/
def Keeps (start : κ → ℤ) (s : Account κ ρ) (calls : List ρ) : Prop :=
  ∀ key, Rationed l (start key) s.clock (calls.countP fun call => op call = .allow key)
    (sweep s.clock (s.buckets key))

variable {l op} {s t : Account κ ρ} {start : κ → ℤ} {calls : List ρ} {a : ℤ × ρ}

theorem Keeps.step (hl : 1 ≤ l.limit) (h : s.Keeps l op start calls)
    (hstep : step l op s a = some t) : ∃ new, t.granted = new ++ s.granted ∧
      t.Keeps l op start (new ++ calls) := by
  unfold Account.step at hstep
  split_ifs at hstep with hclock
  have hle : s.clock ≤ a.1 := not_lt.mp hclock
  have hlater : ∀ key, Rationed l (start key) a.1
      (calls.countP fun call => op call = .allow key) (sweep a.1 (s.buckets key)) := by
    intro key
    rw [← sweep_sweep hle]
    exact (h key).sweep hle
  cases hop : op a.2 with
  | other =>
      rw [hop] at hstep
      cases hstep
      exact ⟨[], rfl, hlater⟩
  | cleanup =>
      rw [hop] at hstep
      cases hstep
      refine ⟨[], rfl, fun key => ?_⟩
      simpa only [cleanup, sweep_sweep le_rfl, List.nil_append] using hlater key
  | allow key =>
      rw [hop] at hstep
      cases hstep
      have htaken := ((hlater key).take hl le_rfl).sweep le_rfl
      rw [take_sweep] at htaken
      have hother : ∀ key', key' ≠ key → Rationed l (start key') a.1
          (calls.countP fun call => op call = .allow key')
          (sweep a.1 ((allow l a.1 key s.buckets).1 key')) := by
        intro key' hkey
        rw [allow_other _ _ _ hkey]
        exact hlater key'
      cases hgranted : (take l a.1 (s.buckets key)).2 with
      | false =>
          rw [hgranted] at htaken
          refine ⟨[], by simp [allow, hgranted], fun key' => ?_⟩
          by_cases hkey : key' = key
          · subst hkey
            simpa using htaken
          · exact hother key' hkey
      | true =>
          rw [hgranted] at htaken
          refine ⟨[a.2], by simp [allow, hgranted], fun key' => ?_⟩
          by_cases hkey : key' = key
          · subst hkey
            simpa [hop] using htaken
          · have hcount := hother key' hkey
            simpa [hop, Ne.symm hkey] using hcount

theorem keeps_of_reachable (hl : 1 ≤ l.limit) (h : s.Keeps l op start [])
    (hreach : Reachable (step l op) s t) : ∃ calls, t.granted = calls ++ s.granted ∧
      t.Keeps l op start calls := by
  apply hreach.preserves ⟨[], rfl, h⟩
  intro u a v hu hstep
  obtain ⟨calls, hgranted, hkeeps⟩ := hu
  obtain ⟨new, hnew, hkeeps⟩ := hkeeps.step hl hstep
  exact ⟨new ++ calls, by rw [hnew, hgranted, List.append_assoc], hkeeps⟩

/-- Between two moments of a run, no key is granted more calls than fit into the time. -/
theorem granted_le_turns {clock : ℤ} (hl : 1 ≤ l.limit) (hw : 0 < l.window)
    (h : Reachable (step l op) (init clock) s) (hreach : Reachable (step l op) s t) :
    ∃ calls, t.granted = calls ++ s.granted ∧ ∀ key,
      (calls.countP fun call => op call = .allow key : ℤ) ≤
        turns l (s.windowOpen key) (t.clock - s.clock) := by
  have hinit : (init clock).Keeps l op (fun _ => clock) [] := fun _ => .zero le_rfl
  obtain ⟨before, _, hbefore⟩ := keeps_of_reachable hl hinit h
  -- The account of a key starts with the window that is open.
  have hstart : ∀ key, ∃ start, (s.windowOpen key = false → start = s.clock) ∧
      s.clock ≤ start + l.window ∧
      Rationed l start s.clock 0 (sweep s.clock (s.buckets key)) := by
    intro key
    unfold windowOpen
    have hkey := hbefore key
    cases hopen : sweep s.clock (s.buckets key) with
    | none => exact ⟨s.clock, fun _ => rfl, by omega, .zero le_rfl⟩
    | some b =>
        rw [hopen] at hkey
        have hlive : s.clock ≤ b.resetAt := by
          simpa using (Option.filter_eq_some_iff.mp hopen).2
        exact ⟨b.resetAt - l.window, by simp, by omega, hkey.resume⟩
  choose start hclosed hmidway hzero using hstart
  obtain ⟨calls, hgranted, hkeeps⟩ := keeps_of_reachable hl hzero hreach
  exact ⟨calls, hgranted, fun key =>
    (hkeeps key).le_turns hw (hclosed key) (hmidway key)⟩

/-- A call opens the window of its key, if none is open. -/
theorem exists_opened {key : κ} (hop : op a.2 = .allow key)
    (hclosed : sweep a.1 (s.buckets key) = none) (hle : s.clock ≤ a.1) :
    ∃ t, step l op s a = some t ∧ t.granted = a.2 :: s.granted ∧ t.clock = a.1 ∧
      t.buckets key = some ⟨1, a.1 + l.window⟩ ∧
      ∀ key', key' ≠ key → t.buckets key' = s.buckets key' := by
  have htake : take l a.1 (s.buckets key) = (some ⟨1, a.1 + l.window⟩, true) := by
    rw [← take_sweep, hclosed]
    rfl
  have hstep : step l op s a = some ⟨(allow l a.1 key s.buckets).1, a.1, a.2 :: s.granted⟩ := by
    rw [Account.step, if_neg (not_lt.mpr hle)]
    simp [hop, allow, htake]
  refine ⟨_, hstep, rfl, rfl, (allow_same ..).trans (congrArg Prod.fst htake), ?_⟩
  intro key' hkey
  exact allow_other _ _ _ hkey

/-- A step within the window of a key: its bucket counts what is granted to the key. -/
theorem step_within {key : κ} {b : Bucket} (hstep : step l op s a = some t)
    (hb : s.buckets key = some b) (hcount : b.count ≤ l.limit) (hopen : t.clock ≤ b.resetAt) :
    ∃ new, t.granted = new ++ s.granted ∧ (∀ call ∈ new, call = a.2) ∧
      b.count + (new.countP fun call => op call = .allow key) ≤ l.limit ∧
      t.buckets key = some ⟨b.count + new.countP fun call => op call = .allow key, b.resetAt⟩ := by
  unfold Account.step at hstep
  split_ifs at hstep
  cases hop : op a.2 with
  | other =>
      rw [hop] at hstep
      cases hstep
      exact ⟨[], rfl, by simp, hcount, hb⟩
  | cleanup =>
      rw [hop] at hstep
      cases hstep
      refine ⟨[], rfl, by simp, hcount, ?_⟩
      change sweep a.1 (s.buckets key) = some b
      rw [hb, sweep_of_le hopen]
  | allow key' =>
      rw [hop] at hstep
      cases hstep
      by_cases hkey : key = key'
      · subst hkey
        have htake : take l a.1 (s.buckets key) =
            if l.limit ≤ b.count then (some b, false) else (some ⟨b.count + 1, b.resetAt⟩, true) := by
          rw [hb, take, if_neg (not_lt.mpr hopen)]
        split_ifs at htake with hfull
        · exact ⟨[], by simp [allow, htake], by simp, hcount, by simp [htake]⟩
        · exact ⟨[a.2], by simp [allow, htake], by simp, by simp [hop]; omega, by simp [htake, hop]⟩
      · have hother : (allow l a.1 key' s.buckets).1 key = some b := by rw [allow_other _ _ _ hkey, hb]
        have hne : ¬key' = key := fun h => hkey h.symm
        cases hgranted : (take l a.1 (s.buckets key')).2 with
        | false => exact ⟨[], by simp [allow, hgranted], by simp, hcount, hother⟩
        | true =>
            exact ⟨[a.2], by simp [allow, hgranted], by simp, by simp [hop, hne, hcount],
              by simpa [hop, hne] using hother⟩

/-- What has been granted stays so. -/
theorem granted_append (h : Reachable (step l op) s t) : ∃ calls, t.granted = calls ++ s.granted := by
  apply h.preserves ⟨[], rfl⟩
  intro u a v hu hstep
  obtain ⟨calls, hcalls⟩ := hu
  unfold Account.step at hstep
  split_ifs at hstep
  cases hop : op a.2 with
  | other | cleanup =>
      rw [hop] at hstep
      cases hstep
      exact ⟨calls, hcalls⟩
  | allow key =>
      rw [hop] at hstep
      cases hstep
      dsimp only
      split_ifs
      · exact ⟨a.2 :: calls, by rw [hcalls, List.cons_append]⟩
      · exact ⟨calls, hcalls⟩

theorem step_clock (hstep : step l op s a = some t) : s.clock ≤ a.1 ∧ t.clock = a.1 := by
  unfold Account.step at hstep
  split_ifs at hstep with hclock
  refine ⟨not_lt.mp hclock, ?_⟩
  cases hop : op a.2 <;> rw [hop] at hstep <;> cases hstep <;> rfl

/-- The calls granted since `s` meet `P`, and the bucket `b` has gone on to count those of the
key. -/
def Counts (l : Limit) (op : ρ → Op κ) (P : ρ → Prop) (key : κ) (b : Bucket) (s u : Account κ ρ) :
    Prop :=
  ∃ calls, u.granted = calls ++ s.granted ∧ (∀ call ∈ calls, P call) ∧
    b.count + (calls.countP fun call => op call = .allow key) ≤ l.limit ∧
    u.buckets key = some ⟨b.count + calls.countP fun call => op call = .allow key, b.resetAt⟩

/-- The window of a key grants no more than its limit, up to the reset. -/
theorem counts_of_reachable {P : ρ → Prop} [DecidablePred P] {key : κ} {b : Bucket}
    (h : Reachable (restrict (fun _ a => P a.2) (step l op)) s t) (hb : s.buckets key = some b)
    (hcount : b.count ≤ l.limit) (hopen : t.clock ≤ b.resetAt) : Counts l op P key b s t := by
  have hcounts : t.clock ≤ b.resetAt → Counts l op P key b s t := by
    refine h.preserves (P := fun u => u.clock ≤ b.resetAt → Counts l op P key b s u) ?_ ?_
    · intro _
      exact ⟨[], rfl, by simp, hcount, hb⟩
    · intro u a v hu hstep hv
      obtain ⟨hP, hstep⟩ := restrict_eq_some.mp hstep
      obtain ⟨hle, hclock⟩ := step_clock hstep
      obtain ⟨calls, hgranted, hcalls, hlimit, hbucket⟩ := hu (by omega)
      obtain ⟨new, hnew, hsame, hlimit', hbucket'⟩ := step_within hstep hbucket hlimit hv
      refine ⟨new ++ calls, by rw [hnew, hgranted, List.append_assoc], ?_, ?_, ?_⟩
      · intro call hcall
        rcases List.mem_append.mp hcall with hcall | hcall
        · exact hsame call hcall ▸ hP
        · exact hcalls call hcall
      · rw [List.countP_append]
        dsimp only at hlimit'
        omega
      · rw [hbucket', List.countP_append]
        simp only [Option.some.injEq, Bucket.mk.injEq, and_true]
        omega
  exact hcounts hopen

/-- Turns that a window has left are granted. -/
theorem exists_granted {key : κ} {call : ρ} {b : Bucket} (hop : op call = .allow key)
    (hb : s.buckets key = some b) (hopen : s.clock ≤ b.resetAt) {n : ℕ}
    (hn : b.count + n ≤ l.limit) : ∃ t, Reachable (step l op) s t ∧ t.clock = s.clock ∧
      t.granted = List.replicate n call ++ s.granted ∧
      t.buckets key = some ⟨b.count + n, b.resetAt⟩ ∧
      ∀ key', key' ≠ key → t.buckets key' = s.buckets key' := by
  induction n with
  | zero => exact ⟨s, .refl s, rfl, rfl, hb, fun _ _ => rfl⟩
  | succ n ih =>
      obtain ⟨t, ht, hclock, hgranted, hbucket, hothers⟩ := ih (by omega)
      have htake : take l s.clock (t.buckets key) = (some ⟨b.count + n + 1, b.resetAt⟩, true) := by
        rw [hbucket, take, if_neg (not_lt.mpr hopen), if_neg (by dsimp only; omega)]
      have hstep : step l op t (s.clock, call) = some
          ⟨(allow l s.clock key t.buckets).1, s.clock, call :: t.granted⟩ := by
        rw [Account.step, if_neg (by rw [hclock]; exact lt_irrefl _)]
        simp [hop, allow, htake]
      refine ⟨_, ht.tail hstep, rfl, ?_, ?_, ?_⟩
      · rw [hgranted, List.replicate_succ, List.cons_append]
      · exact (allow_same ..).trans (congrArg Prod.fst htake)
      · intro key' hkey
        exact (allow_other _ _ _ hkey).trans (hothers key' hkey)

end Account

end SecureShare.Library.FixedWindow
