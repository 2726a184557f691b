import Mathlib.Data.Nat.Basic

/-!
# Pages of a list

A list is cut into pages of `n` elements, as LIMIT `n` OFFSET `k * n` does it. The pages
in order make up the list again.
-/
namespace SecureShare.Library
variable {α : Type*} {n k : ℕ} {l : List α}

/-- The page after `k` others. -/
def page (n : ℕ) (l : List α) (k : ℕ) : List α := (l.drop (k * n)).take n

/-- How many pages there are, unless `n` is zero. -/
def pageCount (n : ℕ) (l : List α) : ℕ := (l.length + n - 1) / n

theorem length_page (n : ℕ) (l : List α) (k : ℕ) :
    (page n l k).length = min n (l.length - k * n) := by
  rw [page, List.length_take, List.length_drop]

theorem mem_of_mem_page {a : α} (h : a ∈ page n l k) : a ∈ l :=
  List.mem_of_mem_drop (List.mem_of_mem_take h)

/-- The first `k` pages. -/
theorem flatMap_page (n : ℕ) (l : List α) (k : ℕ) :
    (List.range k).flatMap (page n l) = l.take (k * n) := by
  induction k with
  | zero => simp
  | succ k ih =>
    rw [List.range_succ, List.flatMap_append, ih, List.flatMap_singleton, page, Nat.succ_mul,
      List.take_add]

theorem length_le_pageCount (hn : 0 < n) (l : List α) : l.length ≤ pageCount n l * n := by
  have hdiv := Nat.div_add_mod (l.length + n - 1) n
  have hmod := Nat.mod_lt (l.length + n - 1) hn
  rw [Nat.mul_comm] at hdiv
  rw [pageCount]
  omega

theorem pageCount_mul_lt (hn : 0 < n) (h : k < pageCount n l) : k * n < l.length := by
  have hmul := Nat.mul_le_of_le_div n (k + 1) (l.length + n - 1) h
  rw [Nat.succ_mul] at hmul
  omega

theorem flatMap_page_pageCount (hn : 0 < n) (l : List α) :
    (List.range (pageCount n l)).flatMap (page n l) = l := by
  rw [flatMap_page, List.take_of_length_le (length_le_pageCount hn l)]

/-- Only the last page can be short. -/
theorem length_page_of_lt (hn : 0 < n) (h : k + 1 < pageCount n l) : (page n l k).length = n := by
  have hfull := pageCount_mul_lt hn h
  rw [Nat.succ_mul] at hfull
  rw [length_page]
  omega

theorem page_eq_nil (hn : 0 < n) (h : pageCount n l ≤ k) : page n l k = [] := by
  have hle := Nat.mul_le_mul_right n h
  have hlength := length_le_pageCount hn l
  rw [page, List.drop_of_length_le (by omega), List.take_nil]

/-- Every element stands on its page. -/
theorem mem_page_of_mem (hn : 0 < n) {a : α} (h : a ∈ l) : ∃ k < pageCount n l, a ∈ page n l k := by
  rw [← flatMap_page_pageCount hn l, List.mem_flatMap] at h
  obtain ⟨k, hk, ha⟩ := h
  exact ⟨k, List.mem_range.mp hk, ha⟩

end SecureShare.Library
