import SecureShare.Http.RateLimit
import SecureShare.Library.WindowHistory

/-!
# What a limiter answers

`Allow` and `Cleanup` in any order. An answer depends on the times of the calls with the
same key alone, however many other keys are asked for and whenever buckets are dropped.
-/
namespace SecureShare.Http
open Go Library.FixedWindow

inductive LimiterCall where
  | allow (key : Text)
  | cleanup
  deriving DecidableEq, Repr

def LimiterCall.op : LimiterCall → Op Text
  | .allow key => .allow (limiterKey key)
  | .cleanup => .cleanup

def limiterOps (calls : List (ℤ × LimiterCall)) : List (ℤ × Op Text) :=
  calls.map fun call => (call.1, call.2.op)

/-- What `New` makes answers the calls of `Allow`. -/
def limiterAnswers (l : Limit) (calls : List (ℤ × LimiterCall)) : List (Answer Text) :=
  answersFrom l (fun _ => none) (limiterOps calls)

/-- The calls of `Allow` that mean the same key. -/
def keyTimes (key : Text) (calls : List (ℤ × LimiterCall)) : List ℤ :=
  callTimes (limiterKey key) (limiterOps calls)

variable {l : Limit} {calls : List (ℤ × LimiterCall)}

theorem map_fst_limiterOps (calls : List (ℤ × LimiterCall)) :
    (limiterOps calls).map Prod.fst = calls.map Prod.fst := by
  simp [limiterOps]

/-- All calls are made after some time. -/
theorem exists_first (calls : List (ℤ × LimiterCall)) (h : Ordered (calls.map Prod.fst)) :
    ∃ now, ∀ call ∈ limiterOps calls, now ≤ call.1 := by
  cases calls with
  | nil => exact ⟨0, by simp [limiterOps]⟩
  | cons call calls =>
      obtain ⟨hlater, _⟩ := List.pairwise_cons.mp h
      refine ⟨call.1, ?_⟩
      simp only [limiterOps, List.map_cons, List.forall_mem_cons, le_refl, true_and]
      intro op hop
      obtain ⟨call', hcall', rfl⟩ := List.mem_map.mp hop
      exact hlater _ (List.mem_map_of_mem hcall')

theorem answersOf_limiterAnswers (l : Limit) (key : Text) (h : Ordered (calls.map Prod.fst)) :
    answersOf (limiterKey key) (limiterAnswers l calls) = turnsFrom l none (keyTimes key calls) := by
  obtain ⟨now, hnow⟩ := exists_first calls h
  exact answersOf_answersFrom (fun _ _ => rfl) hnow (by rwa [map_fst_limiterOps])

theorem ordered_keyTimes (key : Text) (h : Ordered (calls.map Prod.fst)) :
    Ordered (keyTimes key calls) := by
  rw [← map_fst_limiterOps] at h
  exact h.sublist (List.filter_sublist.map _)

/-- Of every key, a window is granted the limit from its first call to its reset, a time as
long as a window is granted twice the limit, and a call is denied only when its window has
been granted the limit. Calls with other keys and cleanups change no answer. -/
theorem limiter_window_law (hl : 1 ≤ l.limit) (h : Ordered (calls.map Prod.fst)) :
    (∀ key, let turns := answersOf (limiterKey key) (limiterAnswers l calls)
      (∀ s ∈ windowStarts l.window none (turns.map Prod.fst),
        grantedIn turns s (s + l.window) ≤ l.limit) ∧
      (∀ start, grantedIn turns start (start + l.window) ≤ 2 * l.limit) ∧
      (∀ before now after, turns = before ++ (now, false) :: after →
        ∃ s, (windowStarts l.window none (before.map Prod.fst)).getLast? = some s ∧
          now ≤ s + l.window ∧ grantedIn before s (s + l.window) = l.limit) ∧
      ∀ calls', Ordered (calls'.map Prod.fst) → keyTimes key calls' = keyTimes key calls →
        answersOf (limiterKey key) (limiterAnswers l calls') = turns) ∧
    limiterAnswers l (calls.filter (·.2 ≠ .cleanup)) = limiterAnswers l calls := by
  have hnone : Within l none := by rintro _ ⟨⟩
  constructor
  · intro key
    have hordered := ordered_keyTimes key h
    dsimp only
    rw [answersOf_limiterAnswers l key h, map_fst_turnsFrom]
    refine ⟨fun s hs => grantedIn_window_le hl hnone hordered hs, grantedIn_span_le hl hnone hordered,
      fun before now after => denied_of_turns hl hordered, ?_⟩
    intro calls' h' htimes
    rw [answersOf_limiterAnswers l key h', htimes]
  · obtain ⟨now, hnow⟩ := exists_first calls h
    have hfilter : limiterOps (calls.filter (·.2 ≠ .cleanup)) =
        (limiterOps calls).filter (·.2 ≠ .cleanup) := by
      rw [limiterOps, limiterOps, List.filter_map]
      congr 1
      apply List.filter_congr
      intro call _
      obtain ⟨t, call⟩ := call
      cases call <;> rfl
    rw [limiterAnswers, hfilter]
    exact answersFrom_filter (fun _ _ _ => rfl) hnow (by rwa [map_fst_limiterOps])

/-- At the reset itself the window is still open. -/
theorem limiter_window_law_sample :
    answersOf "unknown".toList (limiterAnswers ⟨1, 10⟩
      [(0, .allow []), (3, .allow "a".toList), (10, .allow "unknown".toList), (11, .cleanup),
        (11, .allow [])]) = [(0, true), (10, false), (11, true)] ∧
    limiterAnswers ⟨1, 10⟩ [(0, .allow []), (3, .allow "a".toList), (10, .allow "unknown".toList),
        (11, .allow [])] =
      limiterAnswers ⟨1, 10⟩ [(0, .allow []), (3, .allow "a".toList),
        (10, .allow "unknown".toList), (11, .cleanup), (11, .allow [])] := by
  constructor
  · decide
  · exact (@limiter_window_law ⟨1, 10⟩ [(0, .allow []), (3, .allow "a".toList),
      (10, .allow "unknown".toList), (11, .cleanup), (11, .allow [])] (by decide) (by decide)).2

end SecureShare.Http
