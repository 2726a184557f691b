import Mathlib.Data.List.Pairwise
import Mathlib.Tactic.SplitIfs

/-!
# Tables with unique columns

A table is a list of rows each of which passes the checks of its schema and no two
of which clash on a unique column. A statement that would break this fails. A row
is found by the value of a key, and an update that keeps the key acts on what is
found.
-/
namespace SecureShare.Library

/-- The constraints of a table: what is checked of a row, and when two rows share
the value of a unique column. -/
structure Schema (ρ : Type*) where
  Check : ρ → Prop
  Clash : ρ → ρ → Prop
  symm : ∀ {r r'}, Clash r r' → Clash r' r
  [decidableCheck : DecidablePred Check]
  [decidableClash : DecidableRel Clash]

attribute [instance] Schema.decidableCheck Schema.decidableClash

structure Table {ρ : Type*} (S : Schema ρ) where
  rows : List ρ
  checks : ∀ r ∈ rows, S.Check r
  distinct : rows.Pairwise fun r r' => ¬S.Clash r r'

variable {ρ κ : Type*} {S : Schema ρ}

/-- Rows with the same key clash. -/
def Schema.IsKey (S : Schema ρ) (key : ρ → κ) : Prop := ∀ {r r'}, key r = key r' → S.Clash r r'

namespace Table

def empty : Table S := ⟨[], fun _ h => absurd h List.not_mem_nil, .nil⟩

/-- The table of these rows, unless a constraint is violated. -/
def ofRows (rows : List ρ) : Option (Table S) :=
  if h : (∀ r ∈ rows, S.Check r) ∧ rows.Pairwise fun r r' => ¬S.Clash r r' then
    some ⟨rows, h.1, h.2⟩
  else none

def insert (t : Table S) (r : ρ) : Option (Table S) := ofRows (r :: t.rows)

/-- Rewrites the rows that match `p`. -/
def update (p : ρ → Bool) (f : ρ → ρ) (t : Table S) : Option (Table S) :=
  ofRows (t.rows.map fun r => if p r then f r else r)

/-- What a RETURNING clause yields. -/
def returning (p : ρ → Bool) (f : ρ → ρ) (t : Table S) : List ρ := (t.rows.filter p).map f

def find [DecidableEq κ] (key : ρ → κ) (x : κ) (t : Table S) : Option ρ :=
  t.rows.find? fun r => key r = x

variable [DecidableEq κ] {key : ρ → κ} {t t' : Table S} {r r' : ρ} {x : κ} {p : ρ → Bool}
  {f : ρ → ρ}

theorem rows_of_ofRows {rows : List ρ} (h : ofRows rows = some t) : t.rows = rows := by
  unfold ofRows at h
  split_ifs at h
  cases h
  rfl

/-- Two rows of a table that clash are the same. -/
theorem eq_of_clash (hr : r ∈ t.rows) (hr' : r' ∈ t.rows) (h : S.Clash r r') : r = r' := by
  have : Std.Symm fun r r' => ¬S.Clash r r' := ⟨fun _ _ hnot hclash => hnot (S.symm hclash)⟩
  by_contra hne
  exact t.distinct.forall hr hr' hne h

theorem find_eq_some (hkey : S.IsKey key) :
    t.find key x = some r ↔ r ∈ t.rows ∧ key r = x := by
  constructor
  · intro h
    exact ⟨List.mem_of_find?_eq_some h, by simpa using List.find?_some h⟩
  · rintro ⟨hr, rfl⟩
    cases h : t.find key (key r) with
    | none =>
        have hnone := List.find?_eq_none.mp h r hr
        simp at hnone
    | some r' =>
        have hr' : r' ∈ t.rows := List.mem_of_find?_eq_some h
        have heq : key r' = key r := by simpa using List.find?_some h
        rw [eq_of_clash hr' hr (hkey heq)]

theorem key_of_find (h : t.find key x = some r) : key r = x := by
  simpa using List.find?_some h

theorem mem_of_find (h : t.find key x = some r) : r ∈ t.rows := List.mem_of_find?_eq_some h

/-- An INSERT succeeds exactly if the new row violates no constraint. -/
theorem insert_isSome_iff : (t.insert r).isSome ↔ S.Check r ∧ ∀ x ∈ t.rows, ¬S.Clash r x := by
  unfold insert ofRows
  constructor
  · intro h
    split_ifs at h with hrows
    · obtain ⟨hchecks, hdistinct⟩ := hrows
      exact ⟨hchecks r List.mem_cons_self, fun x hx => List.rel_of_pairwise_cons hdistinct hx⟩
    · cases h
  · intro h
    rw [dif_pos]
    · rfl
    · exact ⟨List.forall_mem_cons.mpr ⟨h.1, t.checks⟩, List.pairwise_cons.mpr ⟨h.2, t.distinct⟩⟩

theorem find_insert (key : ρ → κ) (h : t.insert r = some t') (x : κ) :
    t'.find key x = if key r = x then some r else t.find key x := by
  rw [find, rows_of_ofRows h, List.find?_cons]
  by_cases hx : key r = x
  · simp [hx]
  · simp [hx, find]

/-- An update that keeps the key rewrites what is found. -/
theorem find_update (key : ρ → κ) (h : t.update p f = some t') (hf : ∀ r, key (f r) = key r) (x : κ) :
    t'.find key x = (t.find key x).map fun r => if p r then f r else r := by
  have hkey : ∀ r, key (if p r then f r else r) = key r := by
    intro r
    split_ifs
    · exact hf r
    · rfl
  rw [find, rows_of_ofRows h, List.find?_map]
  simp only [Function.comp_def, hkey]
  rfl

/-- An update that keeps the checks and the unique columns does not fail. -/
theorem update_isSome (hcheck : ∀ r, S.Check r → S.Check (f r))
    (hclash : ∀ r r', S.Clash (if p r then f r else r) (if p r' then f r' else r') → S.Clash r r')
    (t : Table S) : ∃ t', t.update p f = some t' := by
  refine ⟨_, dif_pos ⟨?_, ?_⟩⟩
  · intro r hr
    obtain ⟨u, hu, rfl⟩ := List.mem_map.mp hr
    split_ifs
    · exact hcheck u (t.checks u hu)
    · exact t.checks u hu
  · rw [List.pairwise_map]
    exact t.distinct.imp fun hnot h => hnot (hclash _ _ h)

theorem mem_returning : r ∈ t.returning p f ↔ ∃ u ∈ t.rows, p u = true ∧ f u = r := by
  simp [returning, and_assoc]

end Table

end SecureShare.Library
