import Mathlib.Data.List.Basic

/-!
# Maps

A Go map whose values hold their key is the list of its values. A loop over it sees
them in an order that the language leaves open.
-/
namespace SecureShare.Go

section assign
variable {ρ κ : Type*} [DecidableEq κ] {key : ρ → κ} {values : List ρ} {r x : ρ}

/-- `m[key(r)] = r` -/
def assign (key : ρ → κ) (r : ρ) (values : List ρ) : List ρ :=
  if values.any (fun x => key x = key r) then values.map fun x => if key x = key r then r else x
  else r :: values

theorem assign_of_absent (h : ∀ x ∈ values, key x ≠ key r) : assign key r values = r :: values := by
  apply if_neg
  simpa using h

theorem assign_of_mem (hx : x ∈ values) (h : key x = key r) :
    assign key r values = values.map fun x => if key x = key r then r else x := by
  apply if_pos
  rw [List.any_eq_true]
  exact ⟨x, hx, by simpa using h⟩

end assign

/-- An order in which the values of a map are visited, by the places they have in it. -/
structure Iteration where
  order : {ρ : Type} → List ρ → List ρ
  perm : ∀ {ρ : Type} (values : List ρ), (order values).Perm values
  map : ∀ {ρ τ : Type} (f : ρ → τ) (values : List ρ), order (values.map f) = (order values).map f

def Iteration.forward : Iteration := ⟨fun values => values, fun values => .refl values, fun _ _ => rfl⟩

end SecureShare.Go
