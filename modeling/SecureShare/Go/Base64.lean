import SecureShare.Go.Text
import Mathlib.Data.List.GetD
import Mathlib.Data.List.Nodup

/-!
# URL-safe base64

`base64.RawURLEncoding`: six bits a character, no padding. The encoding of a
random token has no dot, which separates it from what is appended to it.
-/
namespace SecureShare.Go

def base64Alphabet : Text :=
  "ABCDEFGHIJKLMNOPQRSTUVWXYZabcdefghijklmnopqrstuvwxyz0123456789-_".toList

/-- The character of the lowest six bits. -/
def sextet (n : ℕ) : Char := base64Alphabet.getD (n % 64) 'A'

/-- `base64.RawURLEncoding.EncodeToString` -/
@[grind =] def rawURLEncode : List UInt8 → Text
  | [] => []
  | [a] => [sextet (a.toNat / 4), sextet (a.toNat * 16)]
  | [a, b] =>
    [sextet (a.toNat / 4), sextet (a.toNat * 16 + b.toNat / 16), sextet (b.toNat * 4)]
  | a :: b :: c :: rest =>
    sextet (a.toNat / 4) :: sextet (a.toNat * 16 + b.toNat / 16) ::
      sextet (b.toNat * 4 + c.toNat / 64) :: sextet c.toNat :: rawURLEncode rest

example : rawURLEncode [0x14, 0xfb, 0x9c, 0x03, 0xd9] = "FPucA9k".toList := by decide

theorem sextet_mem (n : ℕ) : sextet n ∈ base64Alphabet := by
  have hlt : n % 64 < base64Alphabet.length := Nat.mod_lt n (by decide)
  rw [sextet, List.getD_eq_getElem _ _ hlt]
  exact List.getElem_mem hlt

theorem rawURLEncode_subset (bytes : List UInt8) :
    ∀ c ∈ rawURLEncode bytes, c ∈ base64Alphabet := by
  induction bytes using rawURLEncode.induct with
  | case1 => simp [rawURLEncode]
  | case2 | case3 => simp [rawURLEncode, sextet_mem]
  | case4 a b c rest ih =>
      intro d hd
      simp only [rawURLEncode, List.mem_cons] at hd
      rcases hd with rfl | rfl | rfl | rfl | hd
      · exact sextet_mem _
      · exact sextet_mem _
      · exact sextet_mem _
      · exact sextet_mem _
      · exact ih d hd

theorem rawURLEncode_ne_nil {bytes : List UInt8} (h : bytes ≠ []) : rawURLEncode bytes ≠ [] := by
  cases bytes using rawURLEncode.fun_cases with
  | case1 => exact absurd rfl h
  | case2 | case3 | case4 => simp [rawURLEncode]

theorem length_rawURLEncode (bytes : List UInt8) :
    (rawURLEncode bytes).length = (4 * bytes.length + 2) / 3 := by
  induction bytes using rawURLEncode.induct with
  | case1 | case2 | case3 => simp [rawURLEncode]
  | case4 a b c rest ih =>
      simp only [rawURLEncode, List.length_cons, ih]
      omega

theorem sextet_inj {m n : ℕ} : sextet m = sextet n ↔ m % 64 = n % 64 := by
  have hnodup : base64Alphabet.Nodup := by decide
  have hm : m % 64 < base64Alphabet.length := Nat.mod_lt m (by decide)
  have hn : n % 64 < base64Alphabet.length := Nat.mod_lt n (by decide)
  rw [sextet, sextet, List.getD_eq_getElem _ _ hm, List.getD_eq_getElem _ _ hn]
  exact hnodup.getElem_inj_iff

theorem rawURLEncode_injective : Function.Injective rawURLEncode := by
  intro xs
  induction xs using rawURLEncode.induct with
  | case1 =>
      intro ys h
      cases ys using rawURLEncode.fun_cases <;> simp_all [rawURLEncode]
  | case2 a =>
      intro ys h
      cases ys using rawURLEncode.fun_cases with
      | case2 a' =>
          simp only [rawURLEncode, List.cons.injEq, sextet_inj] at h
          have := a.toNat_lt
          have := a'.toNat_lt
          rw [UInt8.toNat_inj.mp (by omega : a.toNat = a'.toNat)]
      | _ => simp_all [rawURLEncode]
  | case3 a b =>
      intro ys h
      cases ys using rawURLEncode.fun_cases with
      | case3 a' b' =>
          simp only [rawURLEncode, List.cons.injEq, sextet_inj] at h
          have := a.toNat_lt
          have := a'.toNat_lt
          have := b.toNat_lt
          have := b'.toNat_lt
          rw [UInt8.toNat_inj.mp (by omega : a.toNat = a'.toNat),
            UInt8.toNat_inj.mp (by omega : b.toNat = b'.toNat)]
      | _ => simp_all [rawURLEncode]
  | case4 a b c rest ih =>
      intro ys h
      cases ys using rawURLEncode.fun_cases with
      | case4 a' b' c' rest' =>
          simp only [rawURLEncode, List.cons.injEq, sextet_inj] at h
          have := a.toNat_lt
          have := a'.toNat_lt
          have := b.toNat_lt
          have := b'.toNat_lt
          have := c.toNat_lt
          have := c'.toNat_lt
          rw [UInt8.toNat_inj.mp (by omega : a.toNat = a'.toNat),
            UInt8.toNat_inj.mp (by omega : b.toNat = b'.toNat),
            UInt8.toNat_inj.mp (by omega : c.toNat = c'.toNat), ih h.2.2.2.2]
      | _ => simp_all [rawURLEncode]

end SecureShare.Go
