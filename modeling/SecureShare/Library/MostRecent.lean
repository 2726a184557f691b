import Mathlib.Data.List.Sort
import Mathlib.Order.Lattice

/-!
# The most recent rows

ORDER BY a time DESC arranges rows with equal times in any order. Taking the first `n` rows
and then those of a kind is compared with taking the first `n` of that kind.
-/
namespace SecureShare.Library
variable {α : Type*} {n : ℕ} {time : α → ℤ} {p : α → Bool} {rows l shown : List α}

/-- `l` are the rows as ORDER BY `time` DESC may arrange them. -/
structure Arranged (time : α → ℤ) (rows l : List α) : Prop where
  perm : l.Perm rows
  newestFirst : l.Pairwise fun a b => time b ≤ time a

/-- `shown` are `n` rows, or all if there are fewer, newest first, and none that is left out
is newer. -/
structure MostRecent (n : ℕ) (time : α → ℤ) (rows shown : List α) : Prop where
  newestFirst : shown.Pairwise fun a b => time b ≤ time a
  length : shown.length = min n rows.length
  rest : ∃ rest, (shown ++ rest).Perm rows ∧ ∀ a ∈ shown, ∀ b ∈ rest, time b ≤ time a

/-- Each of the `n` newest rows of the kind has so few rows of other kinds that are at least as
recent that all rows of the kind fit. -/
def Unobstructed (n : ℕ) (time : α → ℤ) (p : α → Bool) (rows : List α) : Prop :=
  ∀ e ∈ rows, p e = true →
    rows.countP (fun a => p a && time e < time a) < min n (rows.countP p) →
    rows.countP (fun a => !p a && time e ≤ time a) + min n (rows.countP p) ≤ n

/-- A row of the kind comes after the others with the same time. -/
def arrangedLast (time : α → ℤ) (p : α → Bool) (a b : α) : Bool :=
  time b < time a || (time a = time b && (!p a || p b))

theorem Arranged.take_drop (h : Arranged time rows l) (n : ℕ) {a b : α} (ha : a ∈ l.take n)
    (hb : b ∈ l.drop n) : time b ≤ time a := by
  have hnewest := h.newestFirst
  rw [← List.take_append_drop n l] at hnewest
  exact (List.pairwise_append.mp hnewest).2.2 a ha b hb

/-- What is shown falls short in length only. -/
theorem mostRecent_of_length (h : Arranged time rows l)
    (hlength : ((l.take n).filter p).length = min n (rows.countP p)) :
    MostRecent n time (rows.filter p) ((l.take n).filter p) where
  newestFirst := (h.newestFirst.sublist (List.take_sublist n l)).filter p
  length := by rw [hlength, List.countP_eq_length_filter]
  rest := by
    refine ⟨(l.drop n).filter p, ?_, fun a ha b hb => ?_⟩
    · rw [← List.filter_append, List.take_append_drop]
      exact h.perm.filter p
    · exact h.take_drop n (List.mem_of_mem_filter ha) (List.mem_of_mem_filter hb)

theorem length_filter_take_le (h : Arranged time rows l) :
    ((l.take n).filter p).length ≤ min n (rows.countP p) := by
  have hall : (l.take n).countP p ≤ l.countP p := (List.take_sublist n l).countP_le
  rw [h.perm.countP_eq] at hall
  rw [← List.countP_eq_length_filter]
  exact le_min ((List.countP_le_length).trans (List.length_take_le n l)) hall

/-- If nothing stands in the way, the newest rows of the kind are among the newest rows. -/
theorem length_filter_take_of_unobstructed (h : Arranged time rows l)
    (hfree : Unobstructed n time p rows) :
    ((l.take n).filter p).length = min n (rows.countP p) := by
  by_contra hne
  have hlt := lt_of_le_of_ne (length_filter_take_le h) hne
  have hsplit : (l.take n).countP p + (l.drop n).countP p = rows.countP p := by
    rw [← List.countP_append, List.take_append_drop, h.perm.countP_eq]
  rw [← List.countP_eq_length_filter] at hlt
  -- the newest row of the kind that is left out
  obtain ⟨e, late, hlate⟩ : ∃ e late, (l.drop n).filter p = e :: late := by
    cases hdrop : (l.drop n).filter p with
    | nil =>
      rw [List.countP_eq_length_filter (l := l.drop n), hdrop, List.length_nil] at hsplit
      omega
    | cons e late => exact ⟨e, late, rfl⟩
  have hmem : e ∈ (l.drop n).filter p := hlate ▸ List.mem_cons_self
  obtain ⟨hdrop, hpe⟩ := List.mem_filter.mp hmem
  have hrows : e ∈ rows := h.perm.mem_iff.mp (List.mem_of_mem_drop hdrop)
  have hlast : ∀ a ∈ (l.drop n).filter p, time a ≤ time e := by
    have hnewest := (h.newestFirst.sublist (List.drop_sublist n l)).filter p
    rw [hlate] at hnewest ⊢
    exact List.forall_mem_cons.mpr ⟨le_rfl, (List.pairwise_cons.mp hnewest).1⟩
  have hnewer : rows.countP (fun a => p a && time e < time a) ≤ (l.take n).countP p := by
    have hnone : (l.drop n).countP (fun a => p a && time e < time a) = 0 := by
      rw [List.countP_eq_zero]
      intro a ha hboth
      obtain ⟨hpa, hlt⟩ := Bool.and_eq_true_iff.mp hboth
      exact absurd (hlast a (List.mem_filter.mpr ⟨ha, hpa⟩)) (not_le.mpr (of_decide_eq_true hlt))
    rw [← h.perm.countP_eq, ← List.take_append_drop n l, List.countP_append, hnone,
      List.take_append_drop]
    exact List.countP_mono_left fun a _ hboth => (Bool.and_eq_true_iff.mp hboth).1
  have hfull : (l.take n).length = n := by
    rw [List.length_take, Nat.min_eq_left]
    by_contra hshort
    rw [List.drop_of_length_le (by omega)] at hdrop
    cases hdrop
  have hothers : (l.take n).countP (fun a => !p a) ≤
      rows.countP (fun a => !p a && time e ≤ time a) := by
    rw [← h.perm.countP_eq]
    refine le_trans ?_ (List.take_sublist n l).countP_le
    exact List.countP_mono_left fun a ha hpa => Bool.and_eq_true_iff.mpr
      ⟨hpa, decide_eq_true (h.take_drop n ha hdrop)⟩
  have hsum : (l.take n).countP p + (l.take n).countP (fun a => !p a) = n := by
    have htotal := List.length_eq_countP_add_countP p (l := l.take n)
    simpa [hfull] using htotal.symm
  have hblocked := hfree e hrows hpe (by omega)
  omega

/-- The rows of the kind come last among equals. -/
theorem exists_arranged (time : α → ℤ) (p : α → Bool) (rows : List α) :
    ∃ l, Arranged time rows l ∧ l.Pairwise fun a b => arrangedLast time p a b = true := by
  have htrans : ∀ a b c, arrangedLast time p a b = true → arrangedLast time p b c = true →
      arrangedLast time p a c = true := by
    simp only [arrangedLast, Bool.or_eq_true, Bool.and_eq_true, decide_eq_true_eq, Bool.not_eq_true']
    grind
  have htotal : ∀ a b, (arrangedLast time p a b || arrangedLast time p b a) = true := by
    simp only [arrangedLast, Bool.or_eq_true, Bool.and_eq_true, decide_eq_true_eq, Bool.not_eq_true']
    grind
  have hsorted := List.pairwise_mergeSort htrans htotal rows
  refine ⟨_, ⟨List.mergeSort_perm rows _, hsorted.imp ?_⟩, hsorted⟩
  intro a b hab
  simp only [arrangedLast, Bool.or_eq_true, Bool.and_eq_true, decide_eq_true_eq] at hab
  omega

/-- Wherever the kind is shown in full when it comes last, nothing stands in its way. -/
theorem unobstructed_of_length (h : Arranged time rows l)
    (hlast : l.Pairwise fun a b => arrangedLast time p a b = true)
    (hlength : ((l.take n).filter p).length = min n (rows.countP p)) :
    Unobstructed n time p rows := by
  intro e he hpe hnewer
  rw [← List.countP_eq_length_filter] at hlength
  obtain ⟨x, hx, hpx, hxe⟩ : ∃ x ∈ l.take n, p x = true ∧ time x ≤ time e := by
    by_contra hnone
    have hall : (l.take n).countP p ≤ rows.countP (fun a => p a && time e < time a) := by
      rw [← h.perm.countP_eq]
      refine le_trans ?_ (List.take_sublist n l).countP_le
      exact List.countP_mono_left fun a ha hpa => Bool.and_eq_true_iff.mpr
        ⟨hpa, decide_eq_true (not_le.mp fun hle => hnone ⟨a, ha, hpa, hle⟩)⟩
    omega
  have hdropped : (l.drop n).countP (fun a => !p a && time e ≤ time a) = 0 := by
    rw [List.countP_eq_zero]
    intro y hy hboth
    obtain ⟨hpy, hle⟩ := Bool.and_eq_true_iff.mp hboth
    rw [← List.take_append_drop n l] at hlast
    have hxy := (List.pairwise_append.mp hlast).2.2 x hx y hy
    simp only [arrangedLast, Bool.or_eq_true, Bool.and_eq_true, decide_eq_true_eq, hpx,
      Bool.not_true, Bool.false_or] at hxy hle
    rcases hxy with hlt | ⟨_, hpy'⟩
    · omega
    · rw [hpy'] at hpy
      cases hpy
  have hothers : rows.countP (fun a => !p a && time e ≤ time a) ≤
      (l.take n).countP (fun a => !p a) := by
    rw [← h.perm.countP_eq, ← List.take_append_drop n l, List.countP_append, hdropped,
      List.take_append_drop]
    exact List.countP_mono_left fun a _ hboth => (Bool.and_eq_true_iff.mp hboth).1
  have htotal := List.length_eq_countP_add_countP p (l := l.take n)
  have htake := List.length_take_le n l
  simp only [Bool.not_eq_true] at htotal
  have hsame : (l.take n).countP (fun a => !p a) = (l.take n).countP fun a => decide (p a = false) := by
    simp
  omega

/-- Filtering the newest rows shows the newest rows of the kind, in whatever order equal times
come, exactly if nothing stands in their way. -/
theorem filter_take_mostRecent_iff (n : ℕ) (time : α → ℤ) (p : α → Bool) (rows : List α) :
    (∀ l, Arranged time rows l → MostRecent n time (rows.filter p) ((l.take n).filter p)) ↔
      Unobstructed n time p rows := by
  constructor
  · intro hall
    obtain ⟨l, h, hlast⟩ := exists_arranged time p rows
    apply unobstructed_of_length h hlast
    rw [(hall l h).length, List.countP_eq_length_filter]
  · intro hfree l h
    exact mostRecent_of_length h (length_filter_take_of_unobstructed h hfree)

end SecureShare.Library
