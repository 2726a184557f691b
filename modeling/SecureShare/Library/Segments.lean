import Mathlib.Data.List.DropRight
import Mathlib.Data.List.Infix

/-!
# Segments of a list

What becomes of a segment when the list around it is trimmed or split: a segment that
holds nothing of what is removed stays in one piece.
-/
namespace SecureShare.Library.Segments

variable {α : Type*} {w s : List α} {p : α → Bool}

/-- A segment that begins elsewhere than at the head lies in the tail. -/
theorem infix_tail_of_head_notMem {a : α} (hne : w ≠ []) (ha : a ∉ w) (h : w <:+: a :: s) :
    w <:+: s := by
  rcases List.infix_cons_iff.mp h with hprefix | hinfix
  · obtain ⟨b, w, rfl⟩ := List.exists_cons_of_ne_nil hne
    obtain ⟨rfl, _⟩ := List.cons_prefix_cons.mp hprefix
    exact absurd List.mem_cons_self ha
  · exact hinfix

theorem infix_dropWhile (hne : w ≠ []) (hw : ∀ c ∈ w, p c = false) (h : w <:+: s) :
    w <:+: s.dropWhile p := by
  induction s with
  | nil => exact h
  | cons a s ih =>
      rw [List.dropWhile_cons]
      split_ifs with ha
      · refine ih (infix_tail_of_head_notMem hne (fun hmem => ?_) h)
        rw [hw a hmem] at ha
        cases ha
      · exact h

theorem infix_rdropWhile (hne : w ≠ []) (hw : ∀ c ∈ w, p c = false) (h : w <:+: s) :
    w <:+: s.rdropWhile p := by
  have hreverse := infix_dropWhile (p := p) (List.reverse_ne_nil_iff.mpr hne)
    (fun c hc => hw c (List.mem_reverse.mp hc)) h.reverse
  simpa [List.rdropWhile] using hreverse.reverse

theorem infix_flatMap {β : Type*} {x : α} (h : x ∈ s) (f : α → List β) : f x <:+: s.flatMap f := by
  obtain ⟨before, after, rfl⟩ := List.append_of_mem h
  exact ⟨before.flatMap f, after.flatMap f, by simp⟩

theorem infix_intercalate {sep l : List α} {ls : List (List α)} (h : l ∈ ls) :
    l <:+: sep.intercalate ls := by
  induction ls with
  | nil => cases h
  | cons l₀ ls ih =>
      rcases ls with _ | ⟨l₁, ls⟩
      · rw [List.mem_singleton.mp h, List.intercalate_singleton]
      · rw [List.intercalate_cons_cons]
        rcases List.mem_cons.mp h with rfl | h
        · exact ⟨[], sep ++ sep.intercalate (l₁ :: ls), by simp⟩
        · exact (ih h).trans (List.suffix_append _ _).isInfix

theorem rdropWhile_append_of_exists {t : List α} (h : ∃ b ∈ t, p b = false) :
    (s ++ t).rdropWhile p = s ++ t.rdropWhile p := by
  obtain ⟨b, hb, hpb⟩ := h
  have hne : t.reverse.dropWhile p ≠ [] := by
    intro hnil
    have hall := List.dropWhile_eq_nil_iff.mp hnil b (List.mem_reverse.mpr hb)
    rw [hpb] at hall
    cases hall
  rw [List.rdropWhile, List.reverse_append, List.dropWhile_append, if_neg (by simpa using hne),
    List.reverse_append, List.reverse_reverse]
  rfl

/-- A run ends where something else follows it. -/
theorem span_append {t : List α} (hs : ∀ a ∈ s, p a = true) (ht : ∀ a ∈ t.head?, p a = false) :
    (s ++ t).takeWhile p = s ∧ (s ++ t).dropWhile p = t := by
  rw [List.takeWhile_append_of_pos hs, List.dropWhile_append_of_pos hs]
  cases t with
  | nil => simp
  | cons a t =>
      have ha : p a = false := ht a rfl
      simp [ha]

section parts
variable [BEq α] [LawfulBEq α] {a : α} {part : List α}

theorem notMem_of_mem_splitOn (h : part ∈ s.splitOn a) : a ∉ part := by
  induction s generalizing part with
  | nil =>
      obtain rfl : part = [] := by simpa using h
      exact List.not_mem_nil
  | cons b s ih =>
      rw [List.splitOn_cons_eq_if_modifyHead] at h
      split_ifs at h with hb
      · rcases List.mem_cons.mp h with rfl | h
        · exact List.not_mem_nil
        · exact ih h
      · obtain ⟨first, rest, hfirst⟩ := List.exists_cons_of_ne_nil (List.splitOn_ne_nil a s)
        rw [hfirst] at h ih
        rcases List.mem_cons.mp h with rfl | h
        · rw [List.mem_cons, not_or]
          exact ⟨fun hab => hb (by simp [hab]), ih List.mem_cons_self⟩
        · exact ih (List.mem_cons_of_mem _ h)

theorem subset_of_mem_splitOn (h : part ∈ s.splitOn a) : part ⊆ s := by
  have hinfix : part <:+: [a].intercalate (s.splitOn a) := infix_intercalate h
  rw [List.intercalate_splitOn] at hinfix
  exact hinfix.subset

end parts

variable [DecidableEq α] {a : α}

/-- A segment without the separator at the front is in the first part. -/
theorem prefix_head_splitOn (ha : a ∉ w) (h : w <+: s) :
    ∃ part parts, s.splitOn a = part :: parts ∧ w <+: part := by
  induction w generalizing s with
  | nil =>
      obtain ⟨part, parts, hparts⟩ := List.exists_cons_of_ne_nil (List.splitOn_ne_nil a s)
      exact ⟨part, parts, hparts, List.nil_prefix⟩
  | cons b w ih =>
      obtain ⟨hb, hw⟩ : a ≠ b ∧ a ∉ w := by simpa using ha
      obtain ⟨s, rfl⟩ : ∃ s', s = b :: s' := by
        obtain ⟨rest, rfl⟩ := h
        exact ⟨w ++ rest, rfl⟩
      obtain ⟨part, parts, hparts, hprefix⟩ := ih hw (List.cons_prefix_cons.mp h).2
      refine ⟨b :: part, parts, ?_, List.cons_prefix_cons.mpr ⟨rfl, hprefix⟩⟩
      rw [List.splitOn_cons_eq_if_modifyHead, if_neg (by simpa using hb.symm), hparts]
      rfl

/-- A segment without the separator is in one of the parts. -/
theorem exists_infix_splitOn (ha : a ∉ w) (h : w <:+: s) : ∃ part ∈ s.splitOn a, w <:+: part := by
  induction s with
  | nil => exact ⟨[], by simp, h⟩
  | cons b s ih =>
      rcases List.infix_cons_iff.mp h with hprefix | hinfix
      · obtain ⟨part, parts, hparts, hw⟩ := prefix_head_splitOn ha hprefix
        exact ⟨part, hparts ▸ List.mem_cons_self, hw.isInfix⟩
      · obtain ⟨part, hpart, hw⟩ := ih hinfix
        rw [List.splitOn_cons_eq_if_modifyHead]
        split_ifs
        · exact ⟨part, List.mem_cons_of_mem _ hpart, hw⟩
        · obtain ⟨first, rest, hfirst⟩ := List.exists_cons_of_ne_nil (List.splitOn_ne_nil a s)
          rw [hfirst] at hpart ⊢
          rcases List.mem_cons.mp hpart with rfl | hpart
          · exact ⟨b :: part, List.mem_cons_self, hw.trans (List.suffix_cons b part).isInfix⟩
          · exact ⟨part, List.mem_cons_of_mem _ hpart, hw⟩

end SecureShare.Library.Segments
