import SecureShare.Library.Binary64
import SecureShare.Library.Decimal
import SecureShare.Library.JsonDocument
import Mathlib.Data.Rat.Defs
import Mathlib.Algebra.Order.Field.Rat

/-!
# What a JSON text denotes

The number that a literal stands for is a rational, however long the literal is. An object is
a map from names to values: the order of its members does not count, and of two members with
the same name the last one does. A literal under a name that is written again later counts for
nothing.
-/
namespace SecureShare.Library.Json

namespace Number

/-- The part in front of the exponent, without the sign. -/
def mantissa (n : Number) : Text :=
  (n.text.dropWhile (· = '-')).takeWhile fun c => c ≠ 'e' && c ≠ 'E'

/-- What follows the letter of the exponent. -/
def exponentText (n : Number) : Text := (n.text.dropWhile fun c => c ≠ 'e' && c ≠ 'E').tail

def integer (n : Number) : Text := n.mantissa.takeWhile (· ≠ '.')

def fraction (n : Number) : Text := (n.mantissa.dropWhile (· ≠ '.')).tail

def exponent (n : Number) : ℤ :=
  match n.exponentText with
  | '-' :: ds => -(Decimal.number ds : ℤ)
  | '+' :: ds => Decimal.number ds
  | ds => Decimal.number ds

/-- The number that a literal stands for. -/
def value (n : Number) : ℚ :=
  (if n.text.head? = some '-' then -1 else 1) * (Decimal.number (n.integer ++ n.fraction) : ℚ) *
    10 ^ (n.exponent - n.fraction.length)

end Number

/-- A literal has finitely many digits. -/
theorem Number.exists_isDecimal (n : Number) : ∃ k, Binary64.IsDecimal k n.value := by
  set m := Decimal.number (n.integer ++ n.fraction) with hm
  have hlt : (m : ℤ) < 10 ^ m := by exact_mod_cast Nat.lt_pow_self (by norm_num : 1 < 10)
  refine ⟨m, (if n.text.head? = some '-' then -1 else 1) * m, n.exponent - n.fraction.length,
    ?_, ?_⟩
  · split_ifs
    · rwa [neg_one_mul, abs_neg, Nat.abs_cast]
    · rwa [one_mul, Nat.abs_cast]
  · rw [Number.value, ← hm]
    split_ifs <;> push_cast <;> rfl

inductive Value where
  | null
  | bool (b : Bool)
  | number (q : ℚ)
  | string (s : Units)
  | array (vs : List Value)
  | object (member : Units → Option Value)

section lookup
variable {β γ : Type}

/-- The value of the last member with this name. -/
def lookupLast (ms : List (Units × β)) (k : Units) : Option β := ms.reverse.lookup k

variable {ms : List (Units × β)} {k : Units} {v : β}

theorem lookup_cons (m : Units × β) (ms : List (Units × β)) (k : Units) :
    (m :: ms).lookup k = if k = m.1 then some m.2 else ms.lookup k := by
  obtain ⟨k', v⟩ := m
  split_ifs with h
  · rw [h, List.lookup_cons_self]
  · rw [List.lookup_cons, beq_eq_false_iff_ne.mpr h]

theorem lookup_map (f : β → γ) (ms : List (Units × β)) (k : Units) :
    (ms.map fun m => (m.1, f m.2)).lookup k = (ms.lookup k).map f := by
  induction ms with
  | nil => rfl
  | cons m ms ih =>
      rw [List.map_cons, lookup_cons, lookup_cons, ih]
      split_ifs <;> rfl

theorem lookupLast_map (f : β → γ) (ms : List (Units × β)) (k : Units) :
    lookupLast (ms.map fun m => (m.1, f m.2)) k = (lookupLast ms k).map f := by
  rw [lookupLast, lookupLast, ← List.map_reverse, lookup_map]

theorem lookupLast_append (ms : List (Units × β)) (m : Units × β) (k : Units) :
    lookupLast (ms ++ [m]) k = if k = m.1 then some m.2 else lookupLast ms k := by
  rw [lookupLast, List.reverse_append, List.reverse_singleton, List.singleton_append, lookup_cons]
  rfl

theorem mem_of_lookup (h : ms.lookup k = some v) : (k, v) ∈ ms := by
  induction ms with
  | nil => cases h
  | cons m ms ih =>
      rw [lookup_cons] at h
      split_ifs at h with hk
      · cases h
        exact hk ▸ List.mem_cons_self
      · exact List.mem_cons_of_mem m (ih h)

theorem mem_of_lookupLast (h : lookupLast ms k = some v) : (k, v) ∈ ms :=
  List.mem_reverse.mp (mem_of_lookup h)

/-- With each name only once, the order does not matter. -/
theorem lookup_eq_some_iff (hms : (ms.map Prod.fst).Nodup) :
    ms.lookup k = some v ↔ (k, v) ∈ ms := by
  refine ⟨mem_of_lookup, fun h => ?_⟩
  induction ms with
  | nil => cases h
  | cons m ms ih =>
      obtain ⟨hm, hms⟩ := List.nodup_cons.mp hms
      rw [lookup_cons]
      split_ifs with hk
      · rcases List.mem_cons.mp h with rfl | h
        · rfl
        · exact absurd (hk ▸ List.mem_map_of_mem (f := Prod.fst) h) hm
      · rcases List.mem_cons.mp h with rfl | h
        · exact absurd rfl hk
        · exact ih hms h

theorem lookup_of_perm {ms' : List (Units × β)} (h : ms'.Perm ms)
    (hms : (ms.map Prod.fst).Nodup) (k : Units) : ms'.lookup k = ms.lookup k := by
  have hnodup : (ms'.map Prod.fst).Nodup := (h.map Prod.fst).nodup_iff.mpr hms
  ext v
  rw [lookup_eq_some_iff hnodup, lookup_eq_some_iff hms, h.mem_iff]

theorem lookupLast_of_perm {ms' : List (Units × β)} (h : ms'.Perm ms)
    (hms : (ms.map Prod.fst).Nodup) (k : Units) : lookupLast ms' k = ms.lookup k :=
  lookup_of_perm ((List.reverse_perm ms').trans h) hms k

end lookup

variable {ν : Type} {f g : ν → Value}

def valueAlgebra (f : ν → Value) : Algebra ν Value where
  null := .null
  bool := .bool
  number := f
  string := .string
  array := .array
  object ms := .object (lookupLast ms)

namespace Document

/-- The value of a tree, where each number stands for what `f` says. -/
def valueWith (f : ν → Value) : Document ν → Value := fold (valueAlgebra f)

def value : Document Number → Value := valueWith fun n => .number n.value

theorem valueWith_array (vs : List (Document ν)) :
    (array vs).valueWith f = .array (vs.map (valueWith f)) := fold_array vs

theorem valueWith_object (ms : List (Units × Document ν)) :
    (object ms).valueWith f = .object fun k => (lookupLast ms k).map (valueWith f) := by
  have h : (object ms).valueWith f =
      .object (lookupLast (ms.map fun m => (m.1, m.2.valueWith f))) := fold_object ms
  rw [h]
  exact congrArg Value.object (funext fun k => lookupLast_map (valueWith f) ms k)

/-- The number is part of what the tree denotes. -/
inductive Counts (n : ν) : Document ν → Prop
  | number : Counts n (.number n)
  | element {vs : List (Document ν)} {v : Document ν} : v ∈ vs → Counts n v → Counts n (.array vs)
  | member {ms : List (Units × Document ν)} {k : Units} {v : Document ν} : lookupLast ms k = some v →
      Counts n v → Counts n (.object ms)

/-- Two readings of the numbers give the same value exactly if they agree on the numbers that
count. -/
theorem valueWith_eq_iff (v : Document ν) :
    v.valueWith f = v.valueWith g ↔ ∀ n, Counts n v → f n = g n := by
  induction v with
  | null | bool | string => exact ⟨fun _ n hn => (by cases hn), fun _ => rfl⟩
  | number m =>
      constructor
      · intro h n hn
        cases hn
        exact h
      · exact fun h => h m .number
  | array vs ih =>
      rw [valueWith_array, valueWith_array, Value.array.injEq, List.map_inj_left]
      constructor
      · intro h n hn
        cases hn with
        | element hv hn => exact (ih _ hv).mp (h _ hv) n hn
      · exact fun h v hv => (ih v hv).mpr fun n hn => h n (.element hv hn)
  | object ms ih =>
      rw [valueWith_object, valueWith_object, Value.object.injEq, funext_iff]
      constructor
      · intro h n hn
        cases hn with
        | @member _ k v hk hn =>
          have hv := h k
          rw [hk, Option.map_some, Option.map_some, Option.some.injEq] at hv
          exact (ih _ (mem_of_lookupLast hk)).mp hv n hn
      · intro h k
        cases hk : lookupLast ms k with
        | none => rfl
        | some v =>
            rw [Option.map_some, Option.map_some,
              (ih _ (mem_of_lookupLast hk)).mpr fun n hn => h n (.member hk hn)]

end Document

/-- What a text denotes, if it is JSON. -/
def denote (s : Text) : Option Value := (parse s).map Document.value

end SecureShare.Library.Json
