import Mathlib.Data.List.Basic

/-!
# Lines of a message

A message begins with header lines, up to the first empty line. A line ends at CR LF, and
also at a CR or LF alone, since there are readers of messages that take either for an end.
-/
namespace SecureShare.Library.Lines

def isBreak (c : Char) : Bool := c = '\r' || c = '\n'

def Unbroken (s : List Char) : Prop := ∀ c ∈ s, isBreak c = false

def crlf : List Char := ['\r', '\n']

/-- The lines of what follows on a CR or on something else. -/
@[grind =] def linesAfter (cr : Bool) : List Char → List (List Char)
  | [] => [[]]
  | c :: s =>
    if cr ∧ c = '\n' then linesAfter false s
    else if isBreak c then [] :: linesAfter (c = '\r') s
    else (linesAfter false s).modifyHead (c :: ·)

def lines (s : List Char) : List (List Char) := linesAfter false s

def headerBlock (s : List Char) : List (List Char) := (lines s).takeWhile (· ≠ [])

variable {s t body line : List Char} {ls : List (List Char)}

theorem unbroken_nil : Unbroken [] := fun _ hc => absurd hc List.not_mem_nil

theorem unbroken_of_all (h : (s.all fun c => !isBreak c) = true) : Unbroken s := by
  simpa [Unbroken] using h

theorem unbroken_append : Unbroken (s ++ t) ↔ Unbroken s ∧ Unbroken t := List.forall_mem_append

theorem unbroken_flatMap {α : Type*} {xs : List α} {f : α → List Char} :
    Unbroken (xs.flatMap f) ↔ ∀ x ∈ xs, Unbroken (f x) := by
  constructor
  · intro h x hx c hc
    exact h c (List.mem_flatMap.mpr ⟨x, hx, hc⟩)
  · intro h c hc
    obtain ⟨x, hx, hc⟩ := List.mem_flatMap.mp hc
    exact h x hx c hc

theorem Unbroken.of_subset (h : Unbroken t) (hst : s ⊆ t) : Unbroken s := fun c hc => h c (hst hc)

theorem linesAfter_ne_nil (cr : Bool) (s : List Char) : linesAfter cr s ≠ [] := by
  induction s generalizing cr with
  | nil => exact List.cons_ne_nil _ _
  | cons c s ih =>
      unfold linesAfter
      split_ifs
      · exact ih false
      · exact List.cons_ne_nil _ _
      · intro h
        exact ih false (List.modifyHead_eq_nil_iff.mp h)

/-- An unbroken text before CR LF is a line. -/
theorem lines_append (h : Unbroken s) : lines (s ++ crlf ++ t) = s :: lines t := by
  induction s with
  | nil => rfl
  | cons c s ih =>
      obtain ⟨hc, hs⟩ := List.forall_mem_cons.mp h
      unfold lines at ih ⊢
      rw [List.cons_append, List.cons_append, linesAfter, ih hs]
      simp [hc]

theorem unbroken_of_mem_lines {cr : Bool} (h : line ∈ linesAfter cr s) : Unbroken line := by
  induction s generalizing cr line with
  | nil =>
      obtain rfl := List.mem_singleton.mp h
      exact unbroken_nil
  | cons c s ih =>
      unfold linesAfter at h
      split_ifs at h with _ hc
      · exact ih h
      · rcases List.mem_cons.mp h with rfl | h
        · exact unbroken_nil
        · exact ih h
      · obtain ⟨first, rest, hfirst⟩ := List.exists_cons_of_ne_nil (linesAfter_ne_nil false s)
        have hall : ∀ line ∈ first :: rest, Unbroken line := fun line hline =>
          ih (hfirst.symm ▸ hline : line ∈ linesAfter false s)
        rw [hfirst] at h
        rcases List.mem_cons.mp h with rfl | h
        · exact List.forall_mem_cons.mpr ⟨by simpa using hc, hall first List.mem_cons_self⟩
        · exact hall line (List.mem_cons_of_mem _ h)

theorem unbroken_of_mem_headerBlock (h : line ∈ headerBlock s) : Unbroken line :=
  unbroken_of_mem_lines ((List.takeWhile_prefix _).subset h)

/-- Unbroken lines before an empty line are the header, whatever follows. -/
theorem headerBlock_append (h : ∀ line ∈ ls, line ≠ [] ∧ Unbroken line) :
    headerBlock (ls.flatMap (· ++ crlf) ++ crlf ++ body) = ls := by
  induction ls with
  | nil => rfl
  | cons line ls ih =>
      obtain ⟨⟨hne, hline⟩, hls⟩ := List.forall_mem_cons.mp h
      have hfirst : lines ((line :: ls).flatMap (· ++ crlf) ++ crlf ++ body) =
          line :: lines (ls.flatMap (· ++ crlf) ++ crlf ++ body) := by
        rw [List.flatMap_cons, ← lines_append hline]
        simp only [List.append_assoc]
      have hrest := ih hls
      unfold headerBlock at hrest ⊢
      rw [hfirst, List.takeWhile_cons_of_pos (by simpa using hne), hrest]

end SecureShare.Library.Lines
