import SecureShare.Library.FixedWindow

/-!
# The history of fixed windows

What a limiter answers to a sequence of calls. The answers to one key depend on the times
of its own calls only, and these alone say where its windows begin. In a window the limit is
not exceeded, and a time as long as a window meets two windows at most.
-/
namespace SecureShare.Library.FixedWindow

structure Answer (κ : Type*) where
  time : ℤ
  key : κ
  granted : Bool
  deriving DecidableEq, Repr

section answers
variable {κ : Type*} [DecidableEq κ] (l : Limit) (key : κ)

/-- What the calls are answered. -/
@[grind =] def answersFrom : Buckets κ → List (ℤ × Op κ) → List (Answer κ)
  | _, [] => []
  | s, (now, .allow key) :: calls =>
    ⟨now, key, (allow l now key s).2⟩ :: answersFrom (allow l now key s).1 calls
  | s, (now, .cleanup) :: calls => answersFrom (cleanup now s) calls
  | s, (_, .other) :: calls => answersFrom s calls

/-- The answers to one key. -/
def answersOf (answers : List (Answer κ)) : List (ℤ × Bool) :=
  (answers.filter (·.key = key)).map fun a => (a.time, a.granted)

def callTimes (calls : List (ℤ × Op κ)) : List ℤ :=
  (calls.filter (·.2 = .allow key)).map Prod.fst

end answers

/-- The turns of one key. -/
@[grind =] def turnsFrom (l : Limit) : Option Bucket → List ℤ → List (ℤ × Bool)
  | _, [] => []
  | b, now :: times => (now, (take l now b).2) :: turnsFrom l (take l now b).1 times

/-- The bucket after the turns. -/
@[grind =] def bucketAfter (l : Limit) : Option Bucket → List ℤ → Option Bucket
  | b, [] => b
  | b, now :: times => bucketAfter l (take l now b).1 times

/-- The turns that open a window, if the last window before them has begun at `start`. -/
@[grind =] def windowStarts (window : ℤ) : Option ℤ → List ℤ → List ℤ
  | _, [] => []
  | start, now :: times =>
    if start.any fun s => now ≤ s + window then windowStarts window start times
    else now :: windowStarts window (some now) times

/-- How many turns are granted in a time. -/
def grantedIn (turns : List (ℤ × Bool)) (start stop : ℤ) : ℕ :=
  turns.countP fun t => t.2 && start ≤ t.1 && t.1 ≤ stop

/-- Times that do not decrease. -/
abbrev Ordered (times : List ℤ) : Prop := times.Pairwise (· ≤ ·)

section keys
variable {κ : Type*} [DecidableEq κ] {l : Limit} {key : κ} {s s' : Buckets κ} {now : ℤ}
  {calls : List (ℤ × Op κ)} {b : Option Bucket}

/-- The buckets make no difference from now on. -/
def Alike (now : ℤ) (b b' : Option Bucket) : Prop := ∀ t, now ≤ t → sweep t b = sweep t b'

theorem Alike.take (h : Alike now b b') (hle : now ≤ t) : take l t b = take l t b' := by
  rw [← take_sweep l t b, h t hle, take_sweep]

/-- The answers to a key are the turns at the times of its calls. -/
theorem answersOf_answersFrom (hb : Alike now (s key) b) (hnow : ∀ call ∈ calls, now ≤ call.1)
    (h : Ordered (calls.map Prod.fst)) :
    answersOf key (answersFrom l s calls) = turnsFrom l b (callTimes key calls) := by
  induction calls generalizing s b now with
  | nil => rfl
  | cons call calls ih =>
      obtain ⟨t, op⟩ := call
      obtain ⟨hle, hrest⟩ := List.forall_mem_cons.mp hnow
      obtain ⟨hlater, hordered⟩ := List.pairwise_cons.mp h
      have hfrom : ∀ call ∈ calls, t ≤ call.1 := fun call hcall =>
        hlater _ (List.mem_map_of_mem hcall)
      cases op with
      | other =>
          have hstep := ih hb hrest hordered
          simpa [answersFrom, callTimes] using hstep
      | cleanup =>
          have hswept : Alike t (cleanup t s key) b := by
            intro t' ht'
            rw [cleanup, sweep_sweep ht', hb t' (hle.trans ht')]
          have hstep := ih hswept hfrom hordered
          simpa [answersFrom, callTimes] using hstep
      | allow key' =>
          by_cases hkey : key' = key
          · subst hkey
            have htake := hb.take (l := l) hle
            have halike : Alike t ((allow l t key' s).1 key') (FixedWindow.take l t b).1 := by
              rw [allow_same, htake]
              exact fun _ _ => rfl
            have hstep := ih halike hfrom hordered
            simp only [answersFrom, answersOf, callTimes, List.filter_cons, decide_true, if_true,
              List.map_cons, turnsFrom] at hstep ⊢
            rw [hstep, allow, htake]
          · have hother : Alike t ((allow l t key' s).1 key) b := by
              intro t' ht'
              rw [allow_other _ _ _ (Ne.symm hkey), hb t' (hle.trans ht')]
            have hstep := ih hother hfrom hordered
            simpa [answersFrom, answersOf, callTimes, hkey] using hstep

/-- Cleanups change no answer. -/
theorem answersFrom_filter (hs : ∀ key, Alike now (s key) (s' key))
    (hnow : ∀ call ∈ calls, now ≤ call.1) (h : Ordered (calls.map Prod.fst)) :
    answersFrom l s (calls.filter (·.2 ≠ .cleanup)) = answersFrom l s' calls := by
  induction calls generalizing s s' now with
  | nil => rfl
  | cons call calls ih =>
      obtain ⟨t, op⟩ := call
      obtain ⟨hle, hrest⟩ := List.forall_mem_cons.mp hnow
      obtain ⟨hlater, hordered⟩ := List.pairwise_cons.mp h
      have hfrom : ∀ call ∈ calls, t ≤ call.1 := fun call hcall =>
        hlater _ (List.mem_map_of_mem hcall)
      cases op with
      | other =>
          have hstep := ih hs hrest hordered
          simpa [answersFrom] using hstep
      | cleanup =>
          have hswept : ∀ key, Alike t (s key) (cleanup t s' key) := by
            intro key t' ht'
            rw [cleanup, sweep_sweep ht', hs key t' (hle.trans ht')]
          have hstep := ih hswept hfrom hordered
          simpa [answersFrom] using hstep
      | allow key =>
          have htake := (hs key).take (l := l) hle
          have halike : ∀ key', Alike t ((allow l t key s).1 key') ((allow l t key s').1 key') := by
            intro key' t' ht'
            by_cases hkey : key' = key
            · subst hkey
              rw [allow_same, allow_same, htake]
            · rw [allow_other _ _ _ hkey, allow_other _ _ _ hkey, hs key' t' (hle.trans ht')]
          have hstep := ih halike hfrom hordered
          have hgranted : (allow l t key s).2 = (allow l t key s').2 := by
            rw [allow, allow, htake]
          simpa [answersFrom, hgranted] using hstep

end keys

section turns
variable {l : Limit} {b : Option Bucket} {times : List ℤ} {now start stop : ℤ} {s : ℤ}

@[simp] theorem turnsFrom_nil (l : Limit) (b : Option Bucket) : turnsFrom l b [] = [] := rfl

theorem grantedIn_cons (t : ℤ × Bool) (turns : List (ℤ × Bool)) (start stop : ℤ) :
    grantedIn (t :: turns) start stop =
      grantedIn turns start stop + if t.2 ∧ start ≤ t.1 ∧ t.1 ≤ stop then 1 else 0 := by
  simp [grantedIn, List.countP_cons, and_assoc]

theorem grantedIn_cons_le (t : ℤ × Bool) (turns : List (ℤ × Bool)) (start stop : ℤ) :
    grantedIn (t :: turns) start stop ≤ grantedIn turns start stop + 1 := by
  rw [grantedIn_cons]
  split_ifs <;> omega

@[simp] theorem grantedIn_cons_denied (now : ℤ) (turns : List (ℤ × Bool)) (start stop : ℤ) :
    grantedIn ((now, false) :: turns) start stop = grantedIn turns start stop := by
  simp [grantedIn_cons]

/-- A turn at another time does not count. -/
theorem grantedIn_cons_outside {t : ℤ × Bool} (h : ¬(start ≤ t.1 ∧ t.1 ≤ stop))
    (turns : List (ℤ × Bool)) : grantedIn (t :: turns) start stop = grantedIn turns start stop := by
  rw [grantedIn_cons, if_neg fun hc => h hc.2]
  rfl

theorem map_fst_turnsFrom (l : Limit) (b : Option Bucket) (times : List ℤ) :
    (turnsFrom l b times).map Prod.fst = times := by
  induction times generalizing b with
  | nil => rfl
  | cons now times ih => rw [turnsFrom, List.map_cons, ih]

theorem grantedIn_eq_zero (h : ∀ t ∈ times, stop < t) :
    grantedIn (turnsFrom l b times) start stop = 0 := by
  rw [grantedIn, List.countP_eq_zero]
  intro t ht
  have hmem : t.1 ∈ times := by
    rw [← map_fst_turnsFrom l b times]
    exact List.mem_map_of_mem ht
  have hlt := h t.1 hmem
  simp only [Bool.and_eq_true, decide_eq_true_eq, not_and, not_le]
  exact fun _ => hlt

/-- A bucket counts no more than the limit. -/
def Within (l : Limit) (b : Option Bucket) : Prop := ∀ b' ∈ b, b'.count ≤ l.limit

theorem Within.take (hl : 1 ≤ l.limit) (h : Within l b) (now : ℤ) :
    Within l (take l now b).1 := by
  cases b with
  | none =>
      rintro _ ⟨⟩
      exact hl
  | some b =>
      have hcount := h b rfl
      rw [FixedWindow.take]
      split_ifs with hreset hfull
      · rintro _ ⟨⟩
        exact hl
      · exact h
      · rintro _ ⟨⟩
        dsimp only
        omega

/-- An open window grants what its bucket leaves. -/
theorem grantedIn_open {b : Bucket} (hb : b.count ≤ l.limit) (h : Ordered times)
    (hstop : stop ≤ b.resetAt) :
    grantedIn (turnsFrom l (some b) times) start stop + b.count ≤ l.limit := by
  induction times generalizing b with
  | nil => simpa [grantedIn] using hb
  | cons now times ih =>
      obtain ⟨hlater, hordered⟩ := List.pairwise_cons.mp h
      rw [turnsFrom, FixedWindow.take]
      by_cases hreset : b.resetAt < now
      · rw [if_pos hreset, grantedIn_cons_outside (by dsimp only; omega),
          grantedIn_eq_zero fun t ht => by have := hlater t ht; omega]
        omega
      · rw [if_neg hreset]
        by_cases hfull : l.limit ≤ b.count
        · rw [if_pos hfull, grantedIn_cons_denied]
          exact ih hb hordered hstop
        · rw [if_neg hfull]
          have hrest := ih (b := ⟨b.count + 1, b.resetAt⟩) (by dsimp only; omega) hordered hstop
          have hone := grantedIn_cons_le (now, true)
            (turnsFrom l (some ⟨b.count + 1, b.resetAt⟩) times) start stop
          dsimp only at hrest hone ⊢
          omega

/-- From `start` on, as long as a window lasts, no more is granted than the open window
leaves and one window more. -/
theorem grantedIn_from (hl : 1 ≤ l.limit) (hb : Within l b) (h : Ordered times)
    (hstart : ∀ t ∈ times, start ≤ t) :
    grantedIn (turnsFrom l b times) start (start + l.window) + (b.elim l.limit (·.count)) ≤
      2 * l.limit := by
  induction times generalizing b with
  | nil =>
      cases b with
      | none => simp [grantedIn]; omega
      | some b =>
          have hcount := hb b rfl
          simp [grantedIn]
          omega
  | cons now times ih =>
      obtain ⟨hlater, hordered⟩ := List.pairwise_cons.mp h
      obtain ⟨hnow, hrest⟩ := List.forall_mem_cons.mp hstart
      have hreset : start + l.window ≤ now + l.window := by omega
      have hopens : grantedIn (turnsFrom l (some ⟨1, now + l.window⟩) times) start
          (start + l.window) + 1 ≤ l.limit := grantedIn_open hl hordered hreset
      have hone := fun b => grantedIn_cons_le (now, true) (turnsFrom l b times) start
        (start + l.window)
      rw [turnsFrom]
      cases b with
      | none =>
          have hone := hone (some ⟨1, now + l.window⟩)
          dsimp only [FixedWindow.take, Option.elim] at hopens hone ⊢
          omega
      | some b =>
          have hcount := hb b rfl
          rw [FixedWindow.take]
          by_cases hreset : b.resetAt < now
          · have hone := hone (some ⟨1, now + l.window⟩)
            rw [if_pos hreset]
            dsimp only [Option.elim] at hopens hone ⊢
            omega
          · rw [if_neg hreset]
            by_cases hfull : l.limit ≤ b.count
            · rw [if_pos hfull, grantedIn_cons_denied]
              exact ih hb hordered hrest
            · rw [if_neg hfull]
              have hone := hone (some ⟨b.count + 1, b.resetAt⟩)
              have hstep := ih (b := some ⟨b.count + 1, b.resetAt⟩)
                (by rintro _ ⟨⟩; dsimp only; omega) hordered hrest
              dsimp only [Option.elim] at hstep hone ⊢
              omega

/-- A time as long as a window meets two windows at most. -/
theorem grantedIn_span_le (hl : 1 ≤ l.limit) (hb : Within l b) (h : Ordered times) (start : ℤ) :
    grantedIn (turnsFrom l b times) start (start + l.window) ≤ 2 * l.limit := by
  induction times generalizing b with
  | nil => simp [grantedIn]
  | cons now times ih =>
      by_cases hnow : start ≤ now
      · obtain ⟨hlater, _⟩ := List.pairwise_cons.mp h
        have hfrom : ∀ t ∈ now :: times, start ≤ t :=
          List.forall_mem_cons.mpr ⟨hnow, fun t ht => hnow.trans (hlater t ht)⟩
        have hle := grantedIn_from hl hb h hfrom
        omega
      · rw [turnsFrom, grantedIn_cons_outside (by tauto)]
        exact ih (hb.take hl now) (List.pairwise_cons.mp h).2

/-- When the window of the bucket has begun. -/
def windowStart (l : Limit) (b : Option Bucket) : Option ℤ := b.map fun b => b.resetAt - l.window

theorem windowStarts_subset (window : ℤ) (first : Option ℤ) (times : List ℤ) :
    windowStarts window first times ⊆ times := by
  induction times generalizing first with
  | nil => exact List.Subset.refl _
  | cons now times ih =>
      rw [windowStarts]
      split_ifs
      · exact List.Subset.trans (ih _) (List.subset_cons_self _ _)
      · exact List.cons_subset_cons _ (ih _)

/-- A window begins after the reset of the one before it. -/
theorem lt_of_mem_windowStarts {window first : ℤ} (h : Ordered times)
    (hs : s ∈ windowStarts window (some first) times) : first + window < s := by
  induction times with
  | nil => cases hs
  | cons now times ih =>
      obtain ⟨hlater, hordered⟩ := List.pairwise_cons.mp h
      rw [windowStarts, Option.any_some] at hs
      split_ifs at hs with hopen
      · exact ih hordered hs
      · have hnow : first + window < now := by simpa using hopen
        rcases List.mem_cons.mp hs with rfl | hs
        · exact hnow
        · exact hnow.trans_le (hlater s (windowStarts_subset _ _ _ hs))

/-- A turn either opens a window, or the open one goes on. -/
theorem take_cases (l : Limit) (now : ℤ) (b : Option Bucket) :
    (take l now b = (some ⟨1, now + l.window⟩, true) ∧
      ∀ times, windowStarts l.window (windowStart l b) (now :: times) =
        now :: windowStarts l.window (some now) times) ∨
    ∃ b₀, b = some b₀ ∧ now ≤ b₀.resetAt ∧ take l now b =
        (if l.limit ≤ b₀.count then (some b₀, false)
        else (some ⟨b₀.count + 1, b₀.resetAt⟩, true)) ∧
      ∀ times, windowStarts l.window (windowStart l b) (now :: times) =
        windowStarts l.window (some (b₀.resetAt - l.window)) times := by
  cases b with
  | none => exact .inl ⟨rfl, fun times => rfl⟩
  | some b₀ =>
      rw [take]
      by_cases hreset : b₀.resetAt < now
      · refine .inl ⟨if_pos hreset, fun times => ?_⟩
        rw [windowStart, Option.map_some, windowStarts, Option.any_some, if_neg (by simpa using hreset)]
      · refine .inr ⟨b₀, rfl, not_lt.mp hreset, if_neg hreset, fun times => ?_⟩
        rw [windowStart, Option.map_some, windowStarts, Option.any_some,
          if_pos (by simpa using hreset)]

/-- From its first turn to its reset, a window grants no more than the limit. -/
theorem grantedIn_window_le (hl : 1 ≤ l.limit) (hb : Within l b) (h : Ordered times)
    (hs : s ∈ windowStarts l.window (windowStart l b) times) :
    grantedIn (turnsFrom l b times) s (s + l.window) ≤ l.limit := by
  induction times generalizing b with
  | nil => simp [grantedIn]
  | cons now times ih =>
      obtain ⟨hlater, hordered⟩ := List.pairwise_cons.mp h
      have htaken := hb.take hl now
      rw [turnsFrom]
      rcases take_cases l now b with ⟨htake, hstarts⟩ | ⟨b₀, rfl, hopen, htake, hstarts⟩
      · rw [htake] at htaken ⊢
        rw [hstarts] at hs
        have hstart : windowStart l (some ⟨1, now + l.window⟩) = some now := by simp [windowStart]
        rcases List.mem_cons.mp hs with rfl | hs
        · have hopened : grantedIn (turnsFrom l (some ⟨1, s + l.window⟩) times) s
              (s + l.window) + 1 ≤ l.limit := grantedIn_open hl hordered le_rfl
          have hone := grantedIn_cons_le (s, true) (turnsFrom l (some ⟨1, s + l.window⟩) times) s
            (s + l.window)
          dsimp only
          omega
        · have hlt := lt_of_mem_windowStarts hordered hs
          rw [grantedIn_cons_outside (by dsimp only; omega)]
          exact ih htaken hordered (hstart ▸ hs)
      · rw [hstarts] at hs
        have hlt := lt_of_mem_windowStarts hordered hs
        rw [grantedIn_cons_outside (by dsimp only; omega)]
        apply ih htaken hordered
        rw [htake]
        split_ifs <;> exact hs

/-- A turn is denied when the window that is open has granted its limit: the window of the
first bucket, or one that has begun since. -/
theorem denied_cases (hl : 1 ≤ l.limit) (hb : Within l b) (h : Ordered times)
    (hnow : ∀ t ∈ times, t ≤ now) (hstart : ∀ t ∈ times, start ≤ t)
    (hdenied : (take l now (bucketAfter l b times)).2 = false) :
    (∃ b₀, b = some b₀ ∧ windowStarts l.window (windowStart l b) times = [] ∧ now ≤ b₀.resetAt ∧
      grantedIn (turnsFrom l b times) start b₀.resetAt + b₀.count = l.limit) ∨
    ∃ s, (windowStarts l.window (windowStart l b) times).getLast? = some s ∧ now ≤ s + l.window ∧
      grantedIn (turnsFrom l b times) s (s + l.window) = l.limit := by
  induction times generalizing b start with
  | nil =>
      rw [bucketAfter] at hdenied
      rcases take_cases l now b with ⟨htake, _⟩ | ⟨b₀, rfl, hopen, htake, _⟩
      · rw [htake] at hdenied
        cases hdenied
      · have hcount := hb b₀ rfl
        rw [htake] at hdenied
        split_ifs at hdenied with hfull
        exact .inl ⟨b₀, rfl, rfl, hopen, by simp [grantedIn]; omega⟩
  | cons t times ih =>
      obtain ⟨hlater, hordered⟩ := List.pairwise_cons.mp h
      obtain ⟨htnow, hnow⟩ := List.forall_mem_cons.mp hnow
      obtain ⟨htstart, hstart⟩ := List.forall_mem_cons.mp hstart
      rw [bucketAfter] at hdenied
      have htaken := hb.take hl t
      rw [turnsFrom]
      rcases take_cases l t b with ⟨htake, hstarts⟩ | ⟨b₀, rfl, hopen, htake, hstarts⟩
      · rw [htake] at htaken hdenied ⊢
        rw [hstarts]
        have hfirst : windowStart l (some ⟨1, t + l.window⟩) = some t := by simp [windowStart]
        right
        rcases ih htaken hordered hnow hlater hdenied with
          ⟨_, ⟨⟩, hnone, hreset, hcount⟩ | ⟨s, hlast, hs, hcount⟩
        · rw [hfirst] at hnone
          refine ⟨t, by rw [hnone]; rfl, hreset, ?_⟩
          rw [grantedIn_cons, if_pos ⟨rfl, le_rfl, htnow.trans hreset⟩]
          exact hcount
        · rw [hfirst] at hlast
          have hlt := lt_of_mem_windowStarts hordered (List.mem_of_getLast? hlast)
          refine ⟨s, ?_, hs, ?_⟩
          · rw [List.getLast?_cons, hlast]
            rfl
          · rw [grantedIn_cons_outside (by dsimp only; omega)]
            exact hcount
      · have hsame : windowStart l (take l t (some b₀)).1 = some (b₀.resetAt - l.window) := by
          rw [htake]
          split_ifs <;> rfl
        rw [hstarts]
        rcases ih htaken hordered hnow hstart hdenied with
          ⟨b₁, hb₁, hnone, hreset, hcount⟩ | ⟨s, hlast, hs, hcount⟩
        · left
          rw [hsame] at hnone
          rw [htake] at hb₁ hcount ⊢
          refine ⟨b₀, rfl, hnone, ?_, ?_⟩
          · split_ifs at hb₁ <;> cases hb₁ <;> exact hreset
          · split_ifs at hb₁ hcount ⊢ with hfull
            · cases hb₁
              rw [grantedIn_cons_denied]
              exact hcount
            · cases hb₁
              rw [grantedIn_cons, if_pos ⟨rfl, htstart, hopen⟩]
              dsimp only at hcount ⊢
              omega
        · right
          rw [hsame] at hlast
          have hlt := lt_of_mem_windowStarts hordered (List.mem_of_getLast? hlast)
          refine ⟨s, hlast, hs, ?_⟩
          rw [grantedIn_cons_outside (by dsimp only; omega)]
          exact hcount

/-- A turn is what the turns before it leave for it. -/
theorem turnsFrom_split {before after : List (ℤ × Bool)} {granted : Bool}
    (h : turnsFrom l b times = before ++ (now, granted) :: after) :
    ∃ earlier later, times = earlier ++ now :: later ∧ before = turnsFrom l b earlier ∧
      granted = (take l now (bucketAfter l b earlier)).2 := by
  induction before generalizing b times with
  | nil =>
      cases times with
      | nil => cases h
      | cons t times =>
          obtain ⟨hturn, _⟩ := List.cons.inj h
          cases hturn
          exact ⟨[], times, rfl, rfl, rfl⟩
  | cons turn before ih =>
      cases times with
      | nil => cases h
      | cons t times =>
          obtain ⟨hturn, hrest⟩ := List.cons.inj h
          obtain ⟨earlier, later, htimes, hbefore, hgranted⟩ := ih hrest
          refine ⟨t :: earlier, later, by rw [htimes]; rfl, ?_, hgranted⟩
          rw [turnsFrom, hturn, hbefore]

/-- What is said of a window holds of the current one of a turn that is denied. -/
theorem denied_of_turns {before after : List (ℤ × Bool)} (hl : 1 ≤ l.limit) (h : Ordered times)
    (hturns : turnsFrom l none times = before ++ (now, false) :: after) :
    ∃ s, (windowStarts l.window none (before.map Prod.fst)).getLast? = some s ∧
      now ≤ s + l.window ∧ grantedIn before s (s + l.window) = l.limit := by
  obtain ⟨earlier, later, rfl, rfl, hdenied⟩ := turnsFrom_split hturns
  obtain ⟨hordered, _, hbefore⟩ := List.pairwise_append.mp h
  have hnow : ∀ t ∈ earlier, t ≤ now := fun t ht => hbefore t ht now List.mem_cons_self
  have hfirst : ∃ start, ∀ t ∈ earlier, start ≤ t := by
    cases earlier with
    | nil => exact ⟨0, by simp⟩
    | cons t earlier =>
        exact ⟨t, List.forall_mem_cons.mpr ⟨le_rfl, (List.pairwise_cons.mp hordered).1⟩⟩
  obtain ⟨start, hstart⟩ := hfirst
  rw [map_fst_turnsFrom]
  rcases denied_cases hl (b := none) (by rintro _ ⟨⟩) hordered hnow hstart hdenied.symm with
    ⟨_, ⟨⟩, _⟩ | hcase
  exact hcase

end turns

end SecureShare.Library.FixedWindow
