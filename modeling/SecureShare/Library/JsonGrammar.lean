import SecureShare.Library.JsonToken
import SecureShare.Library.Transition
import Mathlib.Data.List.Chain

/-!
# JSON grammar

A scanner decides which token sequences are one JSON value. It keeps the stack
of open brackets, refuses to nest deeper than a limit, and never looks back.
Since a bracket is closed only when everything inside it was a value, the
members of an object and the elements of an array can be read off a sequence
by cutting it at the commas outside all inner brackets.
-/
namespace SecureShare.Library.Json
open Transition

/-- What the innermost open bracket is waiting for the end of. -/
inductive Frame where
  | objectKey | objectValue | arrayValue
  deriving DecidableEq, Repr

/-- Which tokens may come next. -/
inductive Mode where
  | beginValue | beginValueOrEmpty | beginStringOrEmpty | beginString | endValue
  deriving DecidableEq, Repr

structure Scan where
  stack : List Frame
  mode : Mode
  deriving DecidableEq, Repr

namespace Scan

def push (limit : ℕ) (stack : List Frame) (f : Frame) (m : Mode) : Option Scan :=
  if stack.length < limit then some ⟨f :: stack, m⟩ else none

def beginValue (limit : ℕ) (stack : List Frame) : Token → Option Scan
  | .beginObject => push limit stack .objectKey .beginStringOrEmpty
  | .beginArray => push limit stack .arrayValue .beginValueOrEmpty
  | .null | .bool _ | .number _ | .string _ => some ⟨stack, .endValue⟩
  | _ => none

def beginString (stack : List Frame) : Token → Option Scan
  | .string _ => some ⟨stack, .endValue⟩
  | _ => none

def endValue : List Frame → Token → Option Scan
  | .objectKey :: stack, .colon => some ⟨.objectValue :: stack, .beginValue⟩
  | .objectValue :: stack, .comma => some ⟨.objectKey :: stack, .beginString⟩
  | .objectValue :: stack, .endObject => some ⟨stack, .endValue⟩
  | .arrayValue :: stack, .comma => some ⟨.arrayValue :: stack, .beginValue⟩
  | .arrayValue :: stack, .endArray => some ⟨stack, .endValue⟩
  | _, _ => none

def closeEmptyObject : List Frame → Option Scan
  | .objectKey :: stack => some ⟨stack, .endValue⟩
  | _ => none

def step (limit : ℕ) (s : Scan) (t : Token) : Option Scan :=
  match s.mode with
  | .beginValue => beginValue limit s.stack t
  | .beginValueOrEmpty =>
    if t = .endArray then endValue s.stack t else beginValue limit s.stack t
  | .beginStringOrEmpty =>
    if t = .endObject then closeEmptyObject s.stack else beginString s.stack t
  | .beginString => beginString s.stack t
  | .endValue => endValue s.stack t

end Scan

/-- The sequence is exactly one value, nested at most `limit` deep. -/
def IsValue (limit : ℕ) (ts : List Token) : Prop :=
  run (Scan.step limit) ⟨[], .beginValue⟩ ts = some ⟨[], .endValue⟩

instance (limit : ℕ) (ts : List Token) : Decidable (IsValue limit ts) := by
  unfold IsValue
  infer_instance

/-- The nesting depth after a token. -/
def depthAfter (d : ℕ) : Token → ℕ
  | .beginObject | .beginArray => d + 1
  | .endObject | .endArray => d - 1
  | _ => d

/-- Cuts at the commas of depth zero, starting at depth `d`. -/
@[grind =] def splitCommas : ℕ → List Lexeme → List (List Lexeme)
  | _, [] => [[]]
  | d, l :: ls =>
    if l.token = .comma ∧ d = 0 then [] :: splitCommas 0 ls
    else (splitCommas (depthAfter d l.token) ls).modifyHead (l :: ·)

/-- The pieces between the brackets of an array or object. -/
def elements (ls : List Lexeme) : List (List Lexeme) :=
  if ls.tail.dropLast = [] then [] else splitCommas 0 ls.tail.dropLast

def memberOf : List Lexeme → Option (List Part × List Lexeme)
  | ⟨_, .string k⟩ :: ⟨_, .colon⟩ :: v => some (k, v)
  | _ => none

def members (ls : List Lexeme) : List (List Part × List Lexeme) :=
  (elements ls).filterMap memberOf

/-- The text of a value as it was written, without the space in front of it. -/
@[grind =] def rawText : List Lexeme → Text
  | [] => []
  | l :: ls => l.token.text ++ ls.flatMap fun l => l.space ++ l.token.text

@[grind =] def joinCommas : List (List Token) → List Token
  | [] => []
  | [v] => v
  | v :: vs => v ++ .comma :: joinCommas vs

def memberTokens (m : List Part × List Token) : List Token := .string m.1 :: .colon :: m.2

def arrayTokens (vs : List (List Token)) : List Token :=
  .beginArray :: (joinCommas vs ++ [.endArray])

def objectTokens (ms : List (List Part × List Token)) : List Token :=
  .beginObject :: (joinCommas (ms.map memberTokens) ++ [.endObject])

/-- What one accepted token does: it moves the depth as `depthAfter` says, a
comma needs an open bracket, and the brackets further out are not looked at. -/
private def Local (f : ℕ → List Frame → Token → Option Scan) (t : Token) : Prop :=
  ∀ {limit : ℕ} {stack : List Frame} {s : Scan}, f limit stack t = some s →
    s.stack.length = depthAfter stack.length t ∧ (t = .comma → stack ≠ []) ∧
      ∀ (limit' : ℕ) (ext : List Frame), limit + ext.length ≤ limit' →
        f limit' (stack ++ ext) t = some ⟨s.stack ++ ext, s.mode⟩

namespace Scan

private theorem push_local {limit : ℕ} {stack : List Frame} {f : Frame} {m : Mode}
    {s : Scan} (h : push limit stack f m = some s) :
    s.stack.length = stack.length + 1 ∧
      ∀ (limit' : ℕ) (ext : List Frame), limit + ext.length ≤ limit' →
        push limit' (stack ++ ext) f m = some ⟨s.stack ++ ext, s.mode⟩ := by
  unfold push at h
  split_ifs at h with hlt
  cases h
  refine ⟨rfl, fun limit' ext hext => ?_⟩
  rw [push, if_pos (by rw [List.length_append]; omega)]
  rfl

private theorem beginValue_local (t : Token) : Local beginValue t := by
  intro limit stack s h
  cases t with
  | beginObject | beginArray => exact ⟨(push_local h).1, nofun, (push_local h).2⟩
  | null | bool | number | string =>
      cases h
      exact ⟨rfl, nofun, fun _ _ _ => rfl⟩
  | endObject | endArray | colon | comma => cases h

private theorem beginString_local (t : Token) : Local (fun _ => beginString) t := by
  intro limit stack s h
  cases t with
  | string ps =>
      cases h
      exact ⟨rfl, nofun, fun _ _ _ => rfl⟩
  | _ => cases h

private theorem endValue_local (t : Token) : Local (fun _ => endValue) t := by
  intro limit stack s h
  simp only [endValue.eq_def] at h
  split at h <;> cases h <;> simp [depthAfter, endValue]

private theorem closeEmptyObject_local :
    Local (fun _ stack _ => closeEmptyObject stack) .endObject := by
  intro limit stack s h
  simp only [closeEmptyObject.eq_def] at h
  split at h <;> cases h
  simp [depthAfter, closeEmptyObject]

theorem step_spec {limit : ℕ} {s s' : Scan} {t : Token} (h : s.step limit t = some s') :
    s'.stack.length = depthAfter s.stack.length t ∧ (t = .comma → s.stack ≠ []) ∧
      ∀ (limit' : ℕ) (ext : List Frame), limit + ext.length ≤ limit' →
        step limit' ⟨s.stack ++ ext, s.mode⟩ t = some ⟨s'.stack ++ ext, s'.mode⟩ := by
  obtain ⟨stack, mode⟩ := s
  cases mode with
  | beginValue => exact beginValue_local t h
  | beginValueOrEmpty =>
      by_cases ht : t = .endArray
      · simp only [step, if_pos ht] at h ⊢
        exact endValue_local t h
      · simp only [step, if_neg ht] at h ⊢
        exact beginValue_local t h
  | beginStringOrEmpty =>
      by_cases ht : t = .endObject
      · subst ht
        exact closeEmptyObject_local h
      · simp only [step, if_neg ht] at h ⊢
        exact beginString_local t h
  | beginString => exact beginString_local t h
  | endValue => exact endValue_local t h

theorem run_extend {limit limit' : ℕ} {s s' : Scan} {ts : List Token} {ext : List Frame}
    (hext : limit + ext.length ≤ limit') (h : run (step limit) s ts = some s') :
    run (step limit') ⟨s.stack ++ ext, s.mode⟩ ts = some ⟨s'.stack ++ ext, s'.mode⟩ := by
  induction ts generalizing s with
  | nil =>
      cases h
      rfl
  | cons t ts ih =>
      rw [run_cons, Option.bind_eq_some_iff] at h
      obtain ⟨u, hu, h⟩ := h
      rw [run_cons, (step_spec hu).2.2 limit' ext hext, Option.bind_some]
      exact ih h

/-- Only the first token tells apart the two states after an opening bracket
from those after a comma. -/
private theorem run_first {limit : ℕ} {s s' u : Scan} {ts : List Token} (hts : ts ≠ [])
    (imp : ∀ t v, step limit s t = some v → step limit u t = some v)
    (h : run (step limit) s ts = some s') : run (step limit) u ts = some s' := by
  cases ts with
  | nil => exact absurd rfl hts
  | cons t ts =>
      rw [run_cons, Option.bind_eq_some_iff] at h
      obtain ⟨v, hv, h⟩ := h
      rw [run_cons, imp t v hv, Option.bind_some, h]

theorem run_beginValueOrEmpty {limit : ℕ} {stack : List Frame} {s : Scan} {ts : List Token}
    (hts : ts ≠ []) (h : run (step limit) ⟨stack, .beginValue⟩ ts = some s) :
    run (step limit) ⟨stack, .beginValueOrEmpty⟩ ts = some s := by
  refine run_first hts (fun t v ht => ?_) h
  rcases eq_or_ne t .endArray with rfl | hne
  · cases ht
  · simpa only [step, if_neg hne] using ht

theorem run_beginStringOrEmpty {limit : ℕ} {stack : List Frame} {s : Scan} {ts : List Token}
    (hts : ts ≠ []) (h : run (step limit) ⟨stack, .beginString⟩ ts = some s) :
    run (step limit) ⟨stack, .beginStringOrEmpty⟩ ts = some s := by
  refine run_first hts (fun t v ht => ?_) h
  rcases eq_or_ne t .endObject with rfl | hne
  · cases ht
  · simpa only [step, if_neg hne] using ht

/-- A list of items that each lead from `s` to `s'`, when a comma leads back. -/
theorem run_joinCommas {limit : ℕ} {s s' : Scan} {vs : List (List Token)} (hvs : vs ≠ [])
    (hcomma : step limit s' .comma = some s) (h : ∀ v ∈ vs, run (step limit) s v = some s') :
    run (step limit) s (joinCommas vs) = some s' := by
  induction vs with
  | nil => exact absurd rfl hvs
  | cons v vs ih =>
      have hv := h v List.mem_cons_self
      cases vs with
      | nil => exact hv
      | cons w ws =>
          have hrest := ih (List.cons_ne_nil w ws) fun u hu => h u (List.mem_cons_of_mem v hu)
          refine run_trans hv ?_
          rw [run_cons, hcomma, Option.bind_some, hrest]

private theorem mode_of_number {limit : ℕ} {s s' : Scan} {t : Token} (ht : t.isNumeric = true)
    (h : step limit s t = some s') : s'.mode = .endValue := by
  obtain ⟨stack, mode⟩ := s
  cases t with
  | number n =>
      have hend : endValue stack (.number n) = none := by
        cases stack with
        | nil => rfl
        | cons f stack => cases f <;> rfl
      cases mode with
      | beginValue | beginValueOrEmpty =>
          cases h
          rfl
      | beginStringOrEmpty | beginString => cases h
      | endValue => exact absurd (hend.symm.trans h) nofun
  | _ => cases ht

/-- After a number the scanner only accepts punctuation. -/
theorem separated {limit : ℕ} {s s' : Scan} {ts : List Token}
    (h : run (step limit) s ts = some s') : Separated ts := by
  induction ts generalizing s with
  | nil => exact .nil
  | cons t ts ih =>
      rw [run_cons, Option.bind_eq_some_iff] at h
      obtain ⟨u, hu, h⟩ := h
      have hts := ih h
      cases ts with
      | nil => exact .singleton t
      | cons t' ts =>
          refine List.isChain_cons_cons.mpr ⟨fun ht => ?_, hts⟩
          rw [run_cons, Option.bind_eq_some_iff] at h
          obtain ⟨w, hw, _⟩ := h
          rw [step, mode_of_number ht hu] at hw
          simp only [endValue.eq_def] at hw
          split at hw <;> first | rfl | cases hw

/-- Cutting at commas passes over what the scanner accepts without emptying its
stack at a comma. -/
theorem splitCommas_append {limit : ℕ} {s s' : Scan} {ls : List Lexeme}
    (h : run (step limit) s (ls.map Lexeme.token) = some s') (rest : List Lexeme) :
    splitCommas s.stack.length (ls ++ rest) =
      (splitCommas s'.stack.length rest).modifyHead (ls ++ ·) := by
  induction ls generalizing s with
  | nil =>
      cases h
      rw [List.nil_append]
      cases splitCommas s'.stack.length rest <;> rfl
  | cons l ls ih =>
      rw [List.map_cons, run_cons, Option.bind_eq_some_iff] at h
      obtain ⟨u, hu, h⟩ := h
      obtain ⟨hdepth, hcomma, _⟩ := step_spec hu
      rw [List.cons_append, splitCommas, if_neg, ← hdepth, ih h, List.modifyHead_modifyHead]
      · rfl
      · rintro ⟨ht, hlen⟩
        exact hcomma ht (List.length_eq_zero_iff.mp hlen)

end Scan

namespace IsValue

variable {limit limit' : ℕ} {ts : List Token}

theorem ne_nil (h : IsValue limit ts) : ts ≠ [] := by
  rintro rfl
  cases h

theorem run_on (h : IsValue limit ts) {stack : List Frame} (hlimit : limit + stack.length ≤ limit') :
    run (Scan.step limit') ⟨stack, .beginValue⟩ ts = some ⟨stack, .endValue⟩ :=
  Scan.run_extend hlimit h

theorem mono (h : IsValue limit ts) (hlimit : limit ≤ limit') : IsValue limit' ts :=
  h.run_on (by simpa using hlimit)

theorem separated (h : IsValue limit ts) : Separated ts := Scan.separated h

theorem array {vs : List (List Token)} (h : ∀ v ∈ vs, IsValue limit v) :
    IsValue (limit + 1) (arrayTokens vs) := by
  rcases eq_or_ne vs [] with rfl | hvs
  · rfl
  · have hrun : run (Scan.step (limit + 1)) ⟨[.arrayValue], .beginValue⟩ (joinCommas vs) =
        some ⟨[.arrayValue], .endValue⟩ :=
      Scan.run_joinCommas hvs rfl fun v hv => (h v hv).run_on (Nat.le_refl _)
    have hne : joinCommas vs ≠ [] := by
      intro hnil
      rw [hnil] at hrun
      cases hrun
    change run (Scan.step (limit + 1)) ⟨[.arrayValue], .beginValueOrEmpty⟩
      (joinCommas vs ++ [.endArray]) = _
    exact run_trans (Scan.run_beginValueOrEmpty hne hrun) rfl

theorem member {stack : List Frame} {m : List Part × List Token} (h : IsValue limit m.2)
    (hlimit : limit + stack.length + 1 ≤ limit') :
    run (Scan.step limit') ⟨.objectKey :: stack, .beginString⟩ (memberTokens m) =
      some ⟨.objectValue :: stack, .endValue⟩ := by
  have hkey : run (Scan.step limit') ⟨.objectKey :: stack, .beginString⟩
      [.string m.1, .colon] = some ⟨.objectValue :: stack, .beginValue⟩ := rfl
  exact run_trans hkey (h.run_on hlimit)

theorem object {ms : List (List Part × List Token)} (h : ∀ m ∈ ms, IsValue limit m.2) :
    IsValue (limit + 1) (objectTokens ms) := by
  cases ms with
  | nil => rfl
  | cons m ms =>
      have hrun : run (Scan.step (limit + 1)) ⟨[.objectKey], .beginString⟩
          (joinCommas ((m :: ms).map memberTokens)) = some ⟨[.objectValue], .endValue⟩ := by
        refine Scan.run_joinCommas (by simp) rfl fun v hv => ?_
        obtain ⟨m', hm', rfl⟩ := List.mem_map.mp hv
        exact (h m' hm').member (Nat.le_refl _)
      have hne : joinCommas ((m :: ms).map memberTokens) ≠ [] := by
        intro hnil
        rw [hnil] at hrun
        cases hrun
      change run (Scan.step (limit + 1)) ⟨[.objectKey], .beginStringOrEmpty⟩
        (joinCommas ((m :: ms).map memberTokens) ++ [.endObject]) = _
      exact run_trans (Scan.run_beginStringOrEmpty hne hrun) rfl

end IsValue

/-- Cutting at commas cannot cut inside such a sequence. -/
private def Uncut (v : List Token) : Prop :=
  ∀ rest : List Lexeme, splitCommas 0 (compacted v ++ rest) =
    (splitCommas 0 rest).modifyHead (compacted v ++ ·)

@[simp] theorem map_token_compacted (ts : List Token) : (compacted ts).map Lexeme.token = ts := by
  rw [compacted, List.map_map]
  exact List.map_id ts

private theorem IsValue.uncut {limit : ℕ} {v : List Token} (h : IsValue limit v) : Uncut v := by
  intro rest
  have hrun : run (Scan.step limit) ⟨[], .beginValue⟩ ((compacted v).map Lexeme.token) =
      some ⟨[], .endValue⟩ := by
    rw [map_token_compacted]
    exact h
  exact Scan.splitCommas_append hrun rest

private theorem uncut_member {limit : ℕ} {m : List Part × List Token} (h : IsValue limit m.2) :
    Uncut (memberTokens m) := by
  intro rest
  have hv := h.uncut rest
  simp only [memberTokens, compacted_cons, List.cons_append]
  simp [splitCommas, depthAfter, hv, List.modifyHead_modifyHead, Function.comp_def]

private theorem splitCommas_joinCommas {vs : List (List Token)} (hvs : vs ≠ [])
    (h : ∀ v ∈ vs, Uncut v) : splitCommas 0 (compacted (joinCommas vs)) = vs.map compacted := by
  induction vs with
  | nil => exact absurd rfl hvs
  | cons v vs ih =>
      have hv := h v List.mem_cons_self
      cases vs with
      | nil => simpa [joinCommas, splitCommas] using hv []
      | cons w ws =>
          have hrest := ih (List.cons_ne_nil w ws) fun u hu => h u (List.mem_cons_of_mem v hu)
          rw [joinCommas, compacted_append, hv, compacted_cons, splitCommas, if_pos ⟨rfl, rfl⟩,
            hrest]
          · simp
          · exact List.cons_ne_nil w ws

private theorem elements_bracket {a b : Token} {vs : List (List Token)}
    (hne : ∀ v ∈ vs, v ≠ []) (h : ∀ v ∈ vs, Uncut v) :
    elements (compacted (a :: (joinCommas vs ++ [b]))) = vs.map compacted := by
  have hcontent : (compacted (a :: (joinCommas vs ++ [b]))).tail.dropLast =
      compacted (joinCommas vs) := by
    simp [compacted]
  rw [elements, hcontent]
  rcases eq_or_ne vs [] with rfl | hvs
  · rfl
  · rw [if_neg, splitCommas_joinCommas hvs h]
    cases vs with
    | nil => exact absurd rfl hvs
    | cons v vs =>
        obtain ⟨t, v', rfl⟩ := List.exists_cons_of_ne_nil (hne v List.mem_cons_self)
        cases vs <;> simp [joinCommas, compacted]

/-- The elements of a written array are read back. -/
theorem elements_arrayTokens {limit : ℕ} {vs : List (List Token)}
    (h : ∀ v ∈ vs, IsValue limit v) : elements (compacted (arrayTokens vs)) = vs.map compacted :=
  elements_bracket (fun v hv => (h v hv).ne_nil) fun v hv => (h v hv).uncut

/-- The members of a written object are read back, in order. -/
theorem members_objectTokens {limit : ℕ} {ms : List (List Part × List Token)}
    (h : ∀ m ∈ ms, IsValue limit m.2) :
    members (compacted (objectTokens ms)) = ms.map fun m => (m.1, compacted m.2) := by
  have helements : elements (compacted (objectTokens ms)) =
      (ms.map memberTokens).map compacted := by
    refine elements_bracket ?_ ?_
    · intro v hv
      obtain ⟨m, _, rfl⟩ := List.mem_map.mp hv
      exact List.cons_ne_nil _ _
    · intro v hv
      obtain ⟨m, hm, rfl⟩ := List.mem_map.mp hv
      exact uncut_member (h m hm)
  rw [members, helements, List.map_map, List.filterMap_map, ← List.filterMap_eq_map]
  rfl

theorem rawText_compacted (ts : List Token) : rawText (compacted ts) = textOf ts := by
  cases ts with
  | nil => rfl
  | cons t ts => simp [rawText, compacted, textOf, List.flatMap_map]

private theorem splitCommas_pieces (d : ℕ) (ls : List Lexeme) :
    (∀ p ∈ (splitCommas d ls).head?, p <+: ls) ∧ ∀ p ∈ splitCommas d ls, p <:+: ls := by
  induction ls generalizing d with
  | nil => simp [splitCommas]
  | cons l ls ih =>
      rw [splitCommas]
      split_ifs with hcut
      · obtain ⟨_, hpieces⟩ := ih 0
        refine ⟨by simp, fun p hp => ?_⟩
        rcases List.mem_cons.mp hp with rfl | hp
        · exact List.nil_infix
        · exact (hpieces p hp).trans (List.suffix_cons l ls).isInfix
      · obtain ⟨hhead, hpieces⟩ := ih (depthAfter d l.token)
        cases hsplit : splitCommas (depthAfter d l.token) ls with
        | nil => simp
        | cons q qs =>
            rw [hsplit] at hhead hpieces
            have hq : l :: q <+: l :: ls := List.cons_prefix_cons.mpr ⟨rfl, hhead q rfl⟩
            refine ⟨by simpa using hq, fun p hp => ?_⟩
            rcases List.mem_cons.mp hp with rfl | hp
            · exact hq.isInfix
            · exact (hpieces p (List.mem_cons_of_mem q hp)).trans (List.suffix_cons l ls).isInfix

theorem elements_infix {ls p : List Lexeme} (h : p ∈ elements ls) : p <:+: ls.tail.dropLast := by
  rw [elements] at h
  split_ifs at h
  · cases h
  · exact (splitCommas_pieces 0 _).2 p h

/-- The value of a member stands somewhere between the brackets, after its key. -/
theorem members_infix {ls : List Lexeme} {m : List Part × List Lexeme} (h : m ∈ members ls) :
    m.2 <:+: ls.tail.dropLast ∧ m.2.length < ls.length := by
  obtain ⟨p, hp, hm⟩ := List.mem_filterMap.mp h
  have hwithin := elements_infix hp
  have hsuffix : m.2 <:+ p ∧ m.2.length < p.length := by
    unfold memberOf at hm
    split at hm
    · cases hm
      exact ⟨⟨[_, _], rfl⟩, by simp only [List.length_cons]; omega⟩
    · cases hm
  refine ⟨hsuffix.1.isInfix.trans hwithin, ?_⟩
  have hlen := hwithin.length_le
  rw [List.length_dropLast, List.length_tail] at hlen
  omega

theorem mem_joinCommas {t : Token} {vs : List (List Token)} (h : t ∈ joinCommas vs) :
    t = .comma ∨ ∃ v ∈ vs, t ∈ v := by
  induction vs with
  | nil => cases h
  | cons v vs ih =>
      cases vs with
      | nil => exact .inr ⟨v, List.mem_cons_self, h⟩
      | cons w ws =>
          rcases List.mem_append.mp h with h | h
          · exact .inr ⟨v, List.mem_cons_self, h⟩
          · rcases List.mem_cons.mp h with rfl | h
            · exact .inl rfl
            · rcases ih h with rfl | ⟨u, hu, htu⟩
              · exact .inl rfl
              · exact .inr ⟨u, List.mem_cons_of_mem v hu, htu⟩

/-- What was read as the raw text of a value is read again as its tokens. -/
theorem lex_rawText {s : Text} {ls v : List Lexeme} (hlex : lex s = some ls)
    (h : Separated (ls.map Lexeme.token)) (hv : v <:+: ls) :
    ∃ v', lex (rawText v) = some v' ∧ v'.map Lexeme.token = v.map Lexeme.token := by
  have hspace : ∀ l ∈ v, ∀ c ∈ l.space, isSpace c = true := fun l hl =>
    lex_space hlex l (hv.subset hl)
  have hseparated : Separated (v.map Lexeme.token) := List.IsChain.infix h (hv.map Lexeme.token)
  cases v with
  | nil => exact ⟨[], rfl, rfl⟩
  | cons l v =>
      have hraw : rawText (l :: v) = spacedText (⟨[], l.token⟩ :: v) := rfl
      refine ⟨⟨[], l.token⟩ :: v, ?_, rfl⟩
      rw [hraw]
      refine lex_spacedText (fun l' hl' => ?_) hseparated
      rcases List.mem_cons.mp hl' with rfl | hl'
      · simp
      · exact hspace l' (List.mem_cons_of_mem l hl')

/-- After a scalar nothing may follow. -/
theorem IsValue.eq_singleton {limit : ℕ} {t : Token} {ts : List Token}
    (h : IsValue limit (t :: ts)) (ht : t.isPunctuation = false) : ts = [] := by
  cases ts with
  | nil => rfl
  | cons u us =>
      have hstep : Scan.step limit ⟨[], .beginValue⟩ t = some ⟨[], .endValue⟩ := by
        cases t <;> first | rfl | cases ht
      rw [IsValue, run_cons, hstep, Option.bind_some, run_cons] at h
      have hnone : Scan.step limit ⟨[], .endValue⟩ u = none := rfl
      rw [hnone] at h
      cases h

end SecureShare.Library.Json
