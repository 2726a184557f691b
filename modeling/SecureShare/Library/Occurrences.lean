import Mathlib.Data.List.Infix

/-!
# Occurrences of a pattern

A search takes the leftmost match and goes on behind it, which cuts a list into its
occurrences and the literal text between them. If no list begins with two different
matches, there is only one such cut. Every pass from left to right then finds the same
occurrences, whether it lists them, removes them or replaces them.
-/
namespace SecureShare.Library.Occurrences

/-- The lists that match, with what is captured in them. -/
structure Pattern (α β : Type*) where
  Matches : List α → β → Prop
  ne_nil : ∀ {m : List α} {b : β}, Matches m b → m ≠ []
  unique : ∀ {m m' s : List α} {b b' : β}, Matches m b → Matches m' b' → m <+: s → m' <+: s →
    m = m' ∧ b = b'

/-- A match, and the literal text in front of it. -/
structure Occurrence (α β : Type*) where
  literal : List α
  matched : List α
  capture : β

/-- A list cut at its occurrences; `rest` is the literal text behind the last one. -/
structure Cut (α β : Type*) where
  occurrences : List (Occurrence α β)
  rest : List α

variable {α β : Type*}

namespace Cut

/-- The literal text with `f` in place of each match. -/
def fill (f : Occurrence α β → List α) (c : Cut α β) : List α :=
  c.occurrences.flatMap (fun o => o.literal ++ f o) ++ c.rest

def source (c : Cut α β) : List α := c.fill Occurrence.matched

def literals (c : Cut α β) : List (List α) := c.occurrences.map Occurrence.literal ++ [c.rest]

def cons (o : Occurrence α β) (c : Cut α β) : Cut α β := ⟨o :: c.occurrences, c.rest⟩

@[simp] theorem fill_nil (f : Occurrence α β → List α) (l : List α) : fill f ⟨[], l⟩ = l := rfl

@[simp] theorem fill_cons (f : Occurrence α β → List α) (o : Occurrence α β) (c : Cut α β) :
    (c.cons o).fill f = o.literal ++ (f o ++ c.fill f) := by
  simp [fill, cons]

@[simp] theorem source_nil (l : List α) : source (⟨[], l⟩ : Cut α β) = l := rfl

@[simp] theorem source_cons (o : Occurrence α β) (c : Cut α β) :
    (c.cons o).source = o.literal ++ (o.matched ++ c.source) := fill_cons _ o c

@[simp] theorem literals_cons (o : Occurrence α β) (c : Cut α β) :
    (c.cons o).literals = o.literal :: c.literals := rfl

end Cut

namespace Cut

theorem literal_infix_fill (f : Occurrence α β → List α) {c : Cut α β} {l : List α}
    (h : l ∈ c.literals) : l <:+: c.fill f := by
  rcases List.mem_append.mp h with h | h
  · obtain ⟨o, ho, rfl⟩ := List.mem_map.mp h
    obtain ⟨before, after, hc⟩ := List.append_of_mem ho
    refine ⟨before.flatMap fun o => o.literal ++ f o,
      f o ++ (after.flatMap (fun o => o.literal ++ f o) ++ c.rest), ?_⟩
    simp [fill, hc]
  · rw [List.mem_singleton.mp h]
    exact (List.suffix_append _ _).isInfix

theorem matched_infix_source {c : Cut α β} {o : Occurrence α β} (h : o ∈ c.occurrences) :
    o.matched <:+: c.source := by
  obtain ⟨before, after, hc⟩ := List.append_of_mem h
  refine ⟨(before.flatMap fun o => o.literal ++ o.matched) ++ o.literal,
    after.flatMap (fun o => o.literal ++ o.matched) ++ c.rest, ?_⟩
  simp [source, fill, hc]

end Cut

variable {P : Pattern α β} {c c' : Cut α β} {l rest s : List α}

/-- No match begins in `l` where `rest` follows it. -/
def Clear (P : Pattern α β) (l rest : List α) : Prop :=
  ∀ u v : List α, l = u ++ v → v ≠ [] → ∀ m b, P.Matches m b → ¬m <+: v ++ rest

/-- Each match is the leftmost one behind the match before it. -/
inductive Leftmost (P : Pattern α β) : Cut α β → Prop
  | nil {l : List α} : Clear P l [] → Leftmost P ⟨[], l⟩
  | cons {o : Occurrence α β} {c : Cut α β} : Clear P o.literal (o.matched ++ c.source) →
      P.Matches o.matched o.capture → Leftmost P c → Leftmost P (c.cons o)

/-- A cut of this list by a search from left to right. -/
def IsCut (P : Pattern α β) (s : List α) (c : Cut α β) : Prop := c.source = s ∧ Leftmost P c

theorem Leftmost.of_cons {o : Occurrence α β} (h : Leftmost P (c.cons o)) :
    Clear P o.literal (o.matched ++ c.source) ∧ P.Matches o.matched o.capture ∧ Leftmost P c := by
  generalize hd : c.cons o = d at h
  cases h with
  | nil _ => cases hd
  | @cons o' c' hclear hm hc =>
      obtain ⟨occurrences, rest⟩ := c
      obtain ⟨occurrences', rest'⟩ := c'
      cases hd
      exact ⟨hclear, hm, hc⟩

/-- Every occurrence of a cut is a match. -/
theorem Leftmost.matches (h : Leftmost P c) :
    ∀ o ∈ c.occurrences, P.Matches o.matched o.capture := by
  induction h with
  | nil _ => exact fun o ho => absurd ho List.not_mem_nil
  | cons _ hm _ ih => exact List.forall_mem_cons.mpr ⟨hm, ih⟩

theorem clear_nil (P : Pattern α β) (rest : List α) : Clear P [] rest := by
  intro u v h hv
  exact absurd (List.append_eq_nil_iff.mp h.symm).2 hv

theorem clear_cons {a : α} (hhead : ∀ m b, P.Matches m b → ¬m <+: a :: (l ++ rest))
    (h : Clear P l rest) : Clear P (a :: l) rest := by
  intro u v huv hv m b hm
  cases u with
  | nil =>
      obtain rfl : v = a :: l := huv.symm
      exact hhead m b hm
  | cons d u => exact h u v (List.cons.inj huv).2 hv m b hm

theorem Clear.tail {a : α} (h : Clear P (a :: l) rest) : Clear P l rest :=
  fun u v huv hv m b hm => h (a :: u) v (by rw [huv, List.cons_append]) hv m b hm

theorem Clear.head {a : α} (h : Clear P (a :: l) rest) (m : List α) (b : β)
    (hm : P.Matches m b) : ¬m <+: a :: (l ++ rest) :=
  h [] (a :: l) rfl (List.cons_ne_nil a l) m b hm

/-- Two leftmost matches of one list begin at the same place. -/
theorem literal_le {l l' m m' t t' : List α} {b : β} (hm : P.Matches m b)
    (h' : Clear P l' (m' ++ t')) (heq : l ++ (m ++ t) = l' ++ (m' ++ t')) : l' <+: l := by
  rcases List.append_eq_append_iff.mp heq with ⟨v, rfl, hv⟩ | ⟨v, rfl, _⟩
  · rcases eq_or_ne v [] with rfl | hne
    · rw [List.append_nil]
    · exact absurd ⟨t, hv⟩ (h' l v rfl hne m b hm)
  · exact List.prefix_append l' v

/-- Where a cut ends there is no further match. -/
theorem not_leftmost_nil {o : Occurrence α β} (hm : P.Matches o.matched o.capture)
    (h : Clear P l []) : l ≠ o.literal ++ (o.matched ++ s) := by
  intro heq
  have hne : o.matched ++ s ≠ [] := List.append_ne_nil_of_left_ne_nil (P.ne_nil hm) s
  refine h o.literal (o.matched ++ s) heq hne _ _ hm ?_
  rw [List.append_nil]
  exact List.prefix_append _ _

/-- The leftmost match is determined by the list, and so is what follows it. -/
theorem leftmost_match_unique {o o' : Occurrence α β} {t t' : List α}
    (hm : P.Matches o.matched o.capture) (hclear : Clear P o.literal (o.matched ++ t))
    (hm' : P.Matches o'.matched o'.capture) (hclear' : Clear P o'.literal (o'.matched ++ t'))
    (heq : o.literal ++ (o.matched ++ t) = o'.literal ++ (o'.matched ++ t')) :
    o = o' ∧ t = t' := by
  obtain ⟨literal, matched, capture⟩ := o
  obtain ⟨literal', matched', capture'⟩ := o'
  have hle := literal_le hm hclear' heq
  have hge := literal_le hm' hclear heq.symm
  obtain rfl : literal = literal' := hge.eq_of_length (le_antisymm hge.length_le hle.length_le)
  have htail : matched ++ t = matched' ++ t' := List.append_cancel_left heq
  obtain ⟨rfl, rfl⟩ := P.unique (s := matched ++ t) hm hm' (List.prefix_append _ _)
    (htail ▸ List.prefix_append _ _)
  exact ⟨rfl, List.append_cancel_left htail⟩

/-- A list has at most one cut. -/
theorem Leftmost.unique (h : Leftmost P c) (h' : Leftmost P c') (hs : c.source = c'.source) :
    c = c' := by
  induction h generalizing c' with
  | nil hclear =>
      cases h' with
      | nil _ =>
          rw [Cut.source_nil, Cut.source_nil] at hs
          rw [hs]
      | cons _ hm _ =>
          rw [Cut.source_nil, Cut.source_cons] at hs
          exact absurd hs (not_leftmost_nil hm hclear)
  | @cons o c hclear hm _ ih =>
      cases h' with
      | nil hclear' =>
          rw [Cut.source_nil, Cut.source_cons] at hs
          exact absurd hs.symm (not_leftmost_nil hm hclear')
      | @cons o' c' hclear' hm' hc' =>
          rw [Cut.source_cons, Cut.source_cons] at hs
          obtain ⟨rfl, hsource⟩ := leftmost_match_unique hm hclear hm' hclear' hs
          rw [ih hc' hsource]

/-- A search for the match at the front of a list. -/
structure Matcher (P : Pattern α β) where
  first : List α → Option (List α × β)
  first_eq_some : ∀ {s m : List α} {b : β}, first s = some (m, b) ↔ P.Matches m b ∧ m <+: s

namespace Matcher
variable {M : Matcher P}

theorem first_eq_none : M.first s = none ↔ ∀ m b, P.Matches m b → ¬m <+: s := by
  rw [Option.eq_none_iff_forall_ne_some]
  constructor
  · exact fun h m b hm hprefix => h (m, b) (M.first_eq_some.mpr ⟨hm, hprefix⟩)
  · rintro h ⟨m, b⟩ heq
    obtain ⟨hm, hprefix⟩ := M.first_eq_some.mp heq
    exact h m b hm hprefix

/-- The leftmost match, and what follows it. -/
def leftmost (M : Matcher P) : List α → Option (Occurrence α β × List α)
  | [] => none
  | a :: s =>
    match M.first (a :: s) with
    | some (m, b) => some (⟨[], m, b⟩, (a :: s).drop m.length)
    | none => (M.leftmost s).map fun r => ({ r.1 with literal := a :: r.1.literal }, r.2)

/-- Each match takes one unit of fuel. -/
def findAllAux (M : Matcher P) : ℕ → List α → List (Occurrence α β)
  | 0, _ => []
  | fuel + 1, s =>
    match M.leftmost s with
    | none => []
    | some (o, rest) => o :: M.findAllAux fuel rest

def findAll (M : Matcher P) (s : List α) : List (Occurrence α β) := M.findAllAux s.length s

def replaceAllAux (M : Matcher P) (f : Occurrence α β → List α) : ℕ → List α → List α
  | 0, s => s
  | fuel + 1, s =>
    match M.leftmost s with
    | none => s
    | some (o, rest) => o.literal ++ (f o ++ M.replaceAllAux f fuel rest)

def replaceAll (M : Matcher P) (f : Occurrence α β → List α) (s : List α) : List α :=
  M.replaceAllAux f s.length s

/-- The search finds no match exactly if there is none. -/
theorem leftmost_eq_none (h : M.leftmost s = none) : Clear P s [] := by
  induction s with
  | nil => exact clear_nil P []
  | cons a s ih =>
      rw [leftmost] at h
      split at h
      · cases h
      · next hfirst =>
        refine clear_cons ?_ (ih (Option.map_eq_none_iff.mp h))
        rw [List.append_nil]
        exact first_eq_none.mp hfirst

theorem leftmost_eq_some {o : Occurrence α β} (h : M.leftmost s = some (o, rest)) :
    s = o.literal ++ (o.matched ++ rest) ∧ P.Matches o.matched o.capture ∧
      Clear P o.literal (o.matched ++ rest) := by
  induction s generalizing o with
  | nil => cases h
  | cons a s ih =>
      rw [leftmost] at h
      split at h
      · next m b hfirst =>
        obtain ⟨hm, hprefix⟩ := M.first_eq_some.mp hfirst
        cases h
        exact ⟨(List.prefix_append_drop hprefix), hm, clear_nil P _⟩
      · next hfirst =>
        obtain ⟨⟨o', rest'⟩, hrest, heq⟩ := Option.map_eq_some_iff.mp h
        cases heq
        obtain ⟨rfl, hm, hclear⟩ := ih hrest
        exact ⟨rfl, hm, clear_cons (first_eq_none.mp hfirst) hclear⟩

/-- The search goes through a cut from left to right. -/
theorem leftmost_source_nil (hclear : Clear P l []) : M.leftmost l = none := by
  cases hfound : M.leftmost l with
  | none => rfl
  | some r =>
      obtain ⟨heq, hm, _⟩ := leftmost_eq_some hfound
      exact absurd heq (not_leftmost_nil hm hclear)

theorem leftmost_source_cons {o : Occurrence α β} (h : Leftmost P (c.cons o)) :
    M.leftmost (c.cons o).source = some (o, c.source) := by
  obtain ⟨hclear, hm, _⟩ := h.of_cons
  cases hfound : M.leftmost (c.cons o).source with
  | none =>
      have hnone := leftmost_eq_none hfound
      rw [Cut.source_cons] at hnone
      exact absurd rfl (not_leftmost_nil hm hnone)
  | some r =>
      obtain ⟨o', rest⟩ := r
      obtain ⟨heq, hm', hclear'⟩ := leftmost_eq_some hfound
      rw [Cut.source_cons] at heq
      obtain ⟨rfl, rfl⟩ := leftmost_match_unique hm hclear hm' hclear' heq
      rfl

/-- Every list can be cut. -/
theorem exists_isCut (M : Matcher P) (s : List α) : ∃ c, IsCut P s c := by
  induction hn : s.length using Nat.strong_induction_on generalizing s with
  | _ n ih =>
      cases hfound : M.leftmost s with
      | none => exact ⟨⟨[], s⟩, rfl, .nil (leftmost_eq_none hfound)⟩
      | some r =>
          obtain ⟨o, rest⟩ := r
          obtain ⟨rfl, hm, hclear⟩ := leftmost_eq_some hfound
          have hlen : rest.length < n := by
            have := List.length_pos_iff.mpr (P.ne_nil hm)
            simp only [List.length_append] at hn
            omega
          obtain ⟨c, rfl, hc⟩ := ih rest.length hlen rest rfl
          exact ⟨c.cons o, Cut.source_cons o c, .cons hclear hm hc⟩

theorem isCut_unique (M : Matcher P) (s : List α) : ∃! c, IsCut P s c := by
  obtain ⟨c, hc⟩ := M.exists_isCut s
  exact ⟨c, hc, fun c' hc' => hc'.2.unique hc.2 (hc'.1.trans hc.1.symm)⟩

theorem findAllAux_source (h : Leftmost P c) {fuel : ℕ} (hfuel : c.occurrences.length ≤ fuel) :
    M.findAllAux fuel c.source = c.occurrences := by
  induction h generalizing fuel with
  | nil hclear =>
      cases fuel with
      | zero => rfl
      | succ fuel => rw [findAllAux, Cut.source_nil, leftmost_source_nil hclear]
  | @cons o c hclear hm hc ih =>
      obtain ⟨fuel, rfl⟩ := Nat.exists_eq_succ_of_ne_zero (Nat.ne_zero_of_lt hfuel)
      rw [findAllAux, leftmost_source_cons (.cons hclear hm hc)]
      exact congrArg (o :: ·) (ih (Nat.le_of_succ_le_succ hfuel))

theorem replaceAllAux_source (f : Occurrence α β → List α) (h : Leftmost P c) {fuel : ℕ}
    (hfuel : c.occurrences.length ≤ fuel) : M.replaceAllAux f fuel c.source = c.fill f := by
  induction h generalizing fuel with
  | nil hclear =>
      cases fuel with
      | zero => rfl
      | succ fuel =>
          rw [replaceAllAux, Cut.source_nil, leftmost_source_nil hclear]
          rfl
  | @cons o c hclear hm hc ih =>
      obtain ⟨fuel, rfl⟩ := Nat.exists_eq_succ_of_ne_zero (Nat.ne_zero_of_lt hfuel)
      rw [replaceAllAux, leftmost_source_cons (.cons hclear hm hc), Cut.fill_cons]
      simp only [ih (Nat.le_of_succ_le_succ hfuel)]

/-- Every match takes at least one element. -/
theorem length_occurrences_le (h : Leftmost P c) : c.occurrences.length ≤ c.source.length := by
  induction h with
  | nil _ => exact Nat.zero_le _
  | @cons o c _ hm _ ih =>
      have := List.length_pos_iff.mpr (P.ne_nil hm)
      rw [Cut.source_cons, List.length_append, List.length_append]
      simp only [Cut.cons, List.length_cons]
      omega

theorem findAll_eq (h : IsCut P s c) : M.findAll s = c.occurrences := by
  obtain ⟨rfl, hc⟩ := h
  exact findAllAux_source hc (length_occurrences_le hc)

theorem replaceAll_eq (f : Occurrence α β → List α) (h : IsCut P s c) :
    M.replaceAll f s = c.fill f := by
  obtain ⟨rfl, hc⟩ := h
  exact replaceAllAux_source f hc (length_occurrences_le hc)

end Matcher
end SecureShare.Library.Occurrences
