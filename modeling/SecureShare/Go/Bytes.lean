import Mathlib.Data.List.TakeWhile
import Mathlib.Logic.Function.Iterate

/-!
# Strings from the network

A string that comes in a header need not be UTF-8; it is the list of its bytes.
-/
namespace SecureShare.Go

abbrev ByteString := List UInt8

/-- A string literal of ASCII characters. -/
def ascii (s : String) : ByteString := s.toList.map fun c => UInt8.ofNat c.toNat

/-- How UTF-8 writes the characters of `unicode.IsSpace`. -/
def spaces : List ByteString :=
  [[0x09], [0x0A], [0x0B], [0x0C], [0x0D], [0x20], [0xC2, 0x85], [0xC2, 0xA0], [0xE1, 0x9A, 0x80],
    [0xE2, 0x80, 0x80], [0xE2, 0x80, 0x81], [0xE2, 0x80, 0x82], [0xE2, 0x80, 0x83],
    [0xE2, 0x80, 0x84], [0xE2, 0x80, 0x85], [0xE2, 0x80, 0x86], [0xE2, 0x80, 0x87],
    [0xE2, 0x80, 0x88], [0xE2, 0x80, 0x89], [0xE2, 0x80, 0x8A], [0xE2, 0x80, 0xA8],
    [0xE2, 0x80, 0xA9], [0xE2, 0x80, 0xAF], [0xE2, 0x81, 0x9F], [0xE3, 0x80, 0x80]]

namespace ByteString

/-- One space less at the start. -/
def trimLeft (s : ByteString) : ByteString :=
  match spaces.find? (·.isPrefixOf s) with
  | some space => s.drop space.length
  | none => s

/-- One space less at the end. -/
def trimRight (s : ByteString) : ByteString :=
  match spaces.find? (·.isSuffixOf s) with
  | some space => s.take (s.length - space.length)
  | none => s

/-- `strings.TrimSpace` -/
def trimSpace (s : ByteString) : ByteString :=
  let left := trimLeft^[s.length] s
  trimRight^[left.length] left

example : trimSpace [0x20, 0xC2, 0x85, 0x41, 0x20, 0xFF, 0xE2, 0x80, 0xAF, 0x09] =
    [0x41, 0x20, 0xFF] := by decide

/-- A visible ASCII character. -/
def Visible (b : UInt8) : Prop := 0x21 ≤ b ∧ b ≤ 0x7E

instance : DecidablePred Visible := fun _ => inferInstanceAs (Decidable (_ ∧ _))

theorem not_visible_of_mem_spaces : ∀ space ∈ spaces, space ≠ [] ∧ ∀ b ∈ space, ¬Visible b := by
  decide +kernel

variable {s : ByteString}

theorem trimLeft_of_visible (h : ∀ b ∈ s, Visible b) : trimLeft s = s := by
  unfold trimLeft
  split
  · next space hspace =>
    obtain ⟨hne, hspace_bytes⟩ := not_visible_of_mem_spaces space (List.mem_of_find?_eq_some hspace)
    have hfound : List.isPrefixOf space s = true :=
      List.find?_some (p := fun space => List.isPrefixOf space s) hspace
    have hstart : space <+: s := List.isPrefixOf_iff_prefix.mp hfound
    have hmem := List.head_mem hne
    exact absurd (h _ (hstart.subset hmem)) (hspace_bytes _ hmem)
  · rfl

theorem trimRight_of_visible (h : ∀ b ∈ s, Visible b) : trimRight s = s := by
  unfold trimRight
  split
  · next space hspace =>
    obtain ⟨hne, hspace_bytes⟩ := not_visible_of_mem_spaces space (List.mem_of_find?_eq_some hspace)
    have hfound : List.isSuffixOf space s = true :=
      List.find?_some (p := fun space => List.isSuffixOf space s) hspace
    have hend : space <:+ s := List.isSuffixOf_iff_suffix.mp hfound
    have hmem := List.head_mem hne
    exact absurd (h _ (hend.subset hmem)) (hspace_bytes _ hmem)
  · rfl

theorem trimSpace_of_visible (h : ∀ b ∈ s, Visible b) : trimSpace s = s := by
  have hleft : trimLeft^[s.length] s = s := Function.iterate_fixed (trimLeft_of_visible h) _
  unfold trimSpace
  rw [hleft]
  exact Function.iterate_fixed (trimRight_of_visible h) _

end ByteString

/-- What follows a separator is not part of the first element. -/
theorem takeWhile_append_separator {α : Type*} [DecidableEq α] {separator : α} (xs ys : List α) :
    (xs ++ separator :: ys).takeWhile (· ≠ separator) = xs.takeWhile (· ≠ separator) := by
  induction xs with
  | nil => simp
  | cons x xs ih =>
      by_cases hx : x = separator
      · simp [hx]
      · simp only [List.cons_append, ne_eq, hx, not_false_eq_true, decide_true,
          List.takeWhile_cons_of_pos, List.cons.injEq, true_and]
        simpa using ih

end SecureShare.Go
