import SecureShare.Library.Transition
import Mathlib.Data.List.Basic

/-!
# Calls that take turns on one store

A system starts any number of calls, each of which advances one step at a time
against the shared store; between two steps of a call any other call may run. A
call that is never advanced again has been abandoned. What a store and its calls
satisfy in every run follows from one step of one call: the call that moves
establishes its own assertion, and keeps those of the others.
-/
namespace SecureShare.Library.Interleaving
open Transition

/-- `start` is the call that a request begins. One step of a call takes an input
from outside. -/
structure System (σ κ ρ ι : Type*) where
  start : ρ → κ
  advance : ι → σ → κ → Option (σ × κ)

structure State (σ κ : Type*) where
  store : σ
  calls : List κ

inductive Action (ρ ι : Type*) where
  | spawn (request : ρ)
  | advance (i : ℕ) (input : ι)
  deriving DecidableEq, Repr

/-- No call but one takes a step. -/
def Action.OnlyBy {ρ ι : Type*} (i : ℕ) : Action ρ ι → Prop
  | .spawn _ => True
  | .advance j _ => j = i

/-- What becomes of a statement: its answer arrives, it fails without effect, or it
takes effect although its answer is lost. -/
inductive Reply where
  | answered | failed | lost
  deriving DecidableEq, Repr

/-- The store after a statement, which fails by itself where there is no result,
and what its caller is told. -/
def Reply.apply {σ α : Type*} (reply : Reply) (s : σ) (result : Option (σ × α)) : σ × Option α :=
  match reply, result with
  | .answered, some (s', a) => (s', some a)
  | .lost, some (s', _) => (s', none)
  | .failed, _ | .answered, none | .lost, none => (s, none)

section
variable {σ α : Type*} {reply : Reply} {s : σ} {a : α} {result : Option (σ × α)}

theorem Reply.answered_none (s : σ) : Reply.answered.apply s (none : Option (σ × α)) = (s, none) :=
  rfl

theorem Reply.answered_some (s s' : σ) (a : α) :
    Reply.answered.apply s (some (s', a)) = (s', some a) := rfl

theorem Reply.apply_cases (reply : Reply) (s : σ) (result : Option (σ × α)) :
    reply.apply s result = (s, none) ∨ ∃ s' b, result = some (s', b) ∧
      (reply.apply s result = (s', none) ∨ reply.apply s result = (s', some b)) := by
  cases result with
  | none => cases reply <;> exact .inl rfl
  | some r =>
      cases reply with
      | failed => exact .inl rfl
      | answered => exact .inr ⟨r.1, r.2, rfl, .inr rfl⟩
      | lost => exact .inr ⟨r.1, r.2, rfl, .inl rfl⟩

/-- The store is as it was, or as the statement leaves it. -/
theorem Reply.apply_store (reply : Reply) (s : σ) (result : Option (σ × α)) :
    (reply.apply s result).1 = s ∨
    ∃ b, result = some ((reply.apply s result).1, b) := by
  rcases reply.apply_cases s result with h | ⟨s', b, hresult, h | h⟩
  · exact .inl (congrArg Prod.fst h)
  · exact .inr ⟨b, by rw [h, hresult]⟩
  · exact .inr ⟨b, by rw [h, hresult]⟩

/-- The store changes only if the statement does not fail. -/
theorem Reply.apply_changes (reply : Reply) (s : σ) (result : Option (σ × α)) :
    (reply.apply s result).1 = s ∨
    reply ≠ .failed ∧ ∃ b, result = some ((reply.apply s result).1, b) := by
  cases reply with
  | failed => cases result <;> exact .inl rfl
  | answered | lost =>
      apply (Reply.apply_store _ s result).imp_right
      intro h
      exact ⟨by decide, h⟩

/-- A statement that has a result and does not fail takes effect. -/
theorem Reply.apply_of_ne_failed {s' : σ} (hresult : result = some (s', a))
    (hreply : reply ≠ .failed) : (reply.apply s result).1 = s' := by
  subst hresult
  cases reply with
  | failed => exact absurd rfl hreply
  | answered | lost => rfl

/-- An answer means that the statement took effect. -/
theorem Reply.apply_answer (h : (reply.apply s result).2 = some a) :
    result = some ((reply.apply s result).1, a) := by
  rcases reply.apply_cases s result with hcase | ⟨s', b, hresult, hcase | hcase⟩
  · rw [hcase] at h
    cases h
  · rw [hcase] at h
    cases h
  · rw [hcase] at h ⊢
    cases h
    exact hresult

end

variable {σ κ ρ ι : Type*}

namespace System
variable (sys : System σ κ ρ ι)

def step (s : State σ κ) : Action ρ ι → Option (State σ κ)
  | .spawn request => some ⟨s.store, s.calls ++ [sys.start request]⟩
  | .advance i input =>
    s.calls[i]?.bind fun k => (sys.advance input s.store k).map fun r => ⟨r.1, s.calls.set i r.2⟩

/-- The system that only takes the steps of calls that meet `G`. -/
def guarded (G : ι → σ → κ → Prop) [∀ x s k, Decidable (G x s k)] : System σ κ ρ ι where
  start := sys.start
  advance x s k := if G x s k then sys.advance x s k else none

variable {sys} {s t : State σ κ} {a : Action ρ ι}

/-- The two kinds of steps. -/
theorem step_cases (h : sys.step s a = some t) :
    (∃ request, a = .spawn request ∧ t = ⟨s.store, s.calls ++ [sys.start request]⟩) ∨
    ∃ i x k σ' k', a = .advance i x ∧ s.calls[i]? = some k ∧
      sys.advance x s.store k = some (σ', k') ∧ t = ⟨σ', s.calls.set i k'⟩ := by
  cases a with
  | spawn request => exact .inl ⟨request, rfl, (Option.some.inj h).symm⟩
  | advance i x =>
      obtain ⟨k, hk, h⟩ := Option.bind_eq_some_iff.mp h
      obtain ⟨⟨σ', k'⟩, hadvance, rfl⟩ := Option.map_eq_some_iff.mp h
      exact .inr ⟨i, x, k, σ', k', rfl, hk, hadvance, rfl⟩

theorem step_advance {i : ℕ} {x : ι} {k k' : κ} {σ' : σ} (hk : s.calls[i]? = some k)
    (h : sys.advance x s.store k = some (σ', k')) :
    sys.step s (.advance i x) = some ⟨σ', s.calls.set i k'⟩ := by
  rw [step, hk, Option.bind_some, h, Option.map_some]

/-- The last call takes a step of its own. -/
theorem reachable_last {x : ι} {σ₀ σ' : σ} {k k' : κ} (calls : List κ)
    (h : sys.advance x σ₀ k = some (σ', k')) :
    Reachable sys.step ⟨σ₀, calls ++ [k]⟩ ⟨σ', calls ++ [k']⟩ := by
  have hlast : (calls ++ [k])[calls.length]? = some k := by simp
  have hset : (calls ++ [k]).set calls.length k' = calls ++ [k'] := by simp
  rw [← hset]
  exact .of_step (step_advance (s := ⟨σ₀, calls ++ [k]⟩) hlast h)

theorem guarded_eq_some {G : ι → σ → κ → Prop} [∀ x s k, Decidable (G x s k)] {x : ι} {σ₀ : σ}
    {k : κ} {r : σ × κ} (h : (sys.guarded G).advance x σ₀ k = some r) :
    G x σ₀ k ∧ sys.advance x σ₀ k = some r := by
  unfold guarded at h
  dsimp only at h
  split_ifs at h with hG
  exact ⟨hG, h⟩

/-- Every assertion `K i` about call `i` holds in every run on which `J` holds of the
store at the start, if the call that moves keeps both and keeps the assertions about
the other calls. -/
theorem assertions_of_reachable {J : σ → Prop} {K : ℕ → σ → κ → Prop}
    (h : Reachable sys.step s t) (hJ : J s.store)
    (hK : ∀ (i : ℕ) k, s.calls[i]? = some k → K i s.store k)
    (hstart : ∀ i σ₀ request, s.calls.length ≤ i → J σ₀ → K i σ₀ (sys.start request))
    (hmove : ∀ x i σ₀ k σ' k', J σ₀ → K i σ₀ k → sys.advance x σ₀ k = some (σ', k') →
      J σ' ∧ K i σ' k' ∧ ∀ j l, j ≠ i → K j σ₀ l → K j σ' l) :
    J t.store ∧ ∀ (i : ℕ) k, t.calls[i]? = some k → K i t.store k := by
  suffices hall : s.calls.length ≤ t.calls.length ∧ J t.store ∧
      ∀ (i : ℕ) k, t.calls[i]? = some k → K i t.store k from hall.2
  refine h.preserves (P := fun u => s.calls.length ≤ u.calls.length ∧ J u.store ∧
    ∀ (i : ℕ) k, u.calls[i]? = some k → K i u.store k) ⟨Nat.le_refl _, hJ, hK⟩ ?_
  intro u a v hu hstep
  obtain ⟨hlen, hJ, hK⟩ := hu
  rcases step_cases hstep with ⟨request, _, rfl⟩ | ⟨i, x, k, σ', k', _, hk, hadvance, rfl⟩
  · refine ⟨?_, hJ, ?_⟩
    · rw [List.length_append]
      omega
    · intro j l hl
      rw [List.getElem?_append] at hl
      split_ifs at hl with hj
      · exact hK j l hl
      · obtain rfl := List.mem_singleton.mp (List.mem_of_getElem? hl)
        exact hstart j u.store request (by omega) hJ
  · obtain ⟨hJ', hmoved, hothers⟩ := hmove x i u.store k σ' k' hJ (hK i k hk) hadvance
    refine ⟨by rwa [List.length_set], hJ', ?_⟩
    intro j l hl
    rw [List.getElem?_set] at hl
    split_ifs at hl with hij hi
    · cases hl
      exact hij ▸ hmoved
    · exact hothers j l (Ne.symm hij) (hK j l hl)

/-- A run of the guarded system is a run of the system. -/
theorem reachable_of_guarded {G : ι → σ → κ → Prop} [∀ x s k, Decidable (G x s k)]
    (h : Reachable (sys.guarded G).step s t) : Reachable sys.step s t := by
  apply h.preserves (Reachable.refl s)
  intro u a v hu hstep
  apply hu.tail (a := a)
  rcases step_cases hstep with ⟨request, rfl, rfl⟩ | ⟨i, x, k, σ', k', rfl, hk, hadvance, rfl⟩
  · rfl
  · exact step_advance hk (guarded_eq_some hadvance).2

end System

end SecureShare.Library.Interleaving
