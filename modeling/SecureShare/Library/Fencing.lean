import Mathlib.Data.Set.Insert
import Mathlib.Logic.Function.Basic
import Mathlib.Logic.Relation

/-!
# One-shot delivery behind fencing tokens

A resource can be finished once. A participant first acquires it under a token
that was never issued before; acquiring takes the resource away from whoever
held it. Anybody may clear the current token or close the resource for good.
A participant finishes only while the resource still carries its own token, or
seizes an open resource that it never tried to acquire.

Nothing is said about when a token may be taken over: the results hold for any
timing, because a token that was lost never comes back.
-/
namespace SecureShare.Library.Fencing

/-- Participants of type `ι`, tokens of type `L`. `started` holds the
participants that used up their one acquisition. -/
structure State (ι L : Type*) where
  holder : Option L
  closed : Bool
  issued : Set L
  started : Set ι
  held : ι → Option L
  finished : Set ι

variable {ι L : Type*} [DecidableEq ι]

inductive Step : State ι L → State ι L → Prop
  /-- A token drawn and not used. -/
  | issue (s : State ι L) (ℓ : L) : Step s { s with issued := insert ℓ s.issued }
  | acquire (s : State ι L) (i : ι) (ℓ : L) : s.closed = false → ℓ ∉ s.issued → i ∉ s.started →
      Step s { s with
        holder := some ℓ
        issued := insert ℓ s.issued
        started := insert i s.started
        held := Function.update s.held i (some ℓ) }
  | release (s : State ι L) : Step s { s with holder := none }
  | close (s : State ι L) : Step s { s with holder := none, closed := true }
  | finish (s : State ι L) (i : ι) (ℓ : L) : s.held i = some ℓ → s.holder = some ℓ →
      Step s { s with
        holder := none
        closed := true
        held := Function.update s.held i none
        finished := insert i s.finished }
  | seize (s : State ι L) (i : ι) : s.closed = false → i ∉ s.started →
      Step s { s with holder := none, closed := true, finished := insert i s.finished }
  /-- A participant gives up; it will not acquire any more. -/
  | forget (s : State ι L) (i : ι) :
      Step s { s with
        started := insert i s.started
        held := Function.update s.held i none }

structure Inv (s : State ι L) : Prop where
  holder_open : ∀ ℓ, s.holder = some ℓ → s.closed = false
  holder_issued : ∀ ℓ, s.holder = some ℓ → ℓ ∈ s.issued
  held_issued : ∀ i ℓ, s.held i = some ℓ → ℓ ∈ s.issued
  held_started : ∀ i ℓ, s.held i = some ℓ → i ∈ s.started
  held_unique : ∀ i j ℓ, s.held i = some ℓ → s.held j = some ℓ → i = j
  finished_closed : ∀ i, i ∈ s.finished → s.closed = true
  finished_unique : ∀ i j, i ∈ s.finished → j ∈ s.finished → i = j

omit [DecidableEq ι] in
theorem Inv.init {s : State ι L} (holder : s.holder = none) (held : ∀ i, s.held i = none)
    (finished : s.finished = ∅) : Inv s := by
  constructor <;> simp [holder, held, finished]

private theorem update_eq_some {f : ι → Option L} {i j : ι} {o : Option L} {ℓ : L}
    (h : Function.update f i o j = some ℓ) : (j = i ∧ o = some ℓ) ∨ (j ≠ i ∧ f j = some ℓ) := by
  rcases eq_or_ne j i with rfl | hji
  · exact .inl ⟨rfl, by simpa using h⟩
  · exact .inr ⟨hji, by simpa [hji] using h⟩

private theorem update_none_eq_some {f : ι → Option L} {i j : ι} {ℓ : L}
    (h : Function.update f i none j = some ℓ) : j ≠ i ∧ f j = some ℓ := by
  rcases update_eq_some h with ⟨_, h⟩ | h
  · cases h
  · exact h

omit [DecidableEq ι] in
theorem Inv.not_finished {s : State ι L} (h : Inv s) (hopen : s.closed = false) (i : ι) :
    i ∉ s.finished := by
  intro hi
  rw [h.finished_closed i hi] at hopen
  cases hopen

theorem Step.inv {s t : State ι L} (h : Inv s) (step : Step s t) : Inv t := by
  cases step with
  | issue ℓ =>
      exact { h with
        holder_issued := fun m hm => .inr (h.holder_issued m hm)
        held_issued := fun i m hm => .inr (h.held_issued i m hm) }
  | acquire i ℓ hopen hfresh hi =>
      refine ⟨fun m _ => hopen, ?_, ?_, ?_, ?_, h.finished_closed, h.finished_unique⟩
      · intro m hm
        exact .inl (Option.some.inj hm).symm
      · intro j m hm
        rcases update_eq_some hm with ⟨_, hm⟩ | ⟨_, hm⟩
        · exact .inl (Option.some.inj hm).symm
        · exact .inr (h.held_issued j m hm)
      · intro j m hm
        rcases update_eq_some hm with ⟨rfl, _⟩ | ⟨_, hm⟩
        · exact .inl rfl
        · exact .inr (h.held_started j m hm)
      · intro j k m hj hk
        rcases update_eq_some hj with ⟨rfl, hjm⟩ | ⟨_, hjm⟩ <;>
          rcases update_eq_some hk with ⟨rfl, hkm⟩ | ⟨_, hkm⟩
        · rfl
        · exact absurd (h.held_issued k m hkm) (Option.some.inj hjm ▸ hfresh)
        · exact absurd (h.held_issued j m hjm) (Option.some.inj hkm ▸ hfresh)
        · exact h.held_unique j k m hjm hkm
  | release => exact { h with holder_open := nofun, holder_issued := nofun }
  | close =>
      exact { h with
        holder_open := nofun
        holder_issued := nofun
        finished_closed := fun _ _ => rfl }
  | finish i ℓ hheld hholder =>
      have hnone := h.not_finished (h.holder_open ℓ hholder)
      refine ⟨nofun, nofun, ?_, ?_, ?_, fun _ _ => rfl, ?_⟩
      · intro j m hm
        exact h.held_issued j m (update_none_eq_some hm).2
      · intro j m hm
        exact h.held_started j m (update_none_eq_some hm).2
      · intro j k m hj hk
        exact h.held_unique j k m (update_none_eq_some hj).2 (update_none_eq_some hk).2
      · rintro j k (rfl | hj) (rfl | hk)
        · rfl
        · exact absurd hk (hnone k)
        · exact absurd hj (hnone j)
        · exact absurd hj (hnone j)
  | seize i hopen _ =>
      have hnone := h.not_finished hopen
      refine { h with
        holder_open := nofun
        holder_issued := nofun
        finished_closed := fun _ _ => rfl
        finished_unique := ?_ }
      rintro j k (rfl | hj) (rfl | hk)
      · rfl
      · exact absurd hk (hnone k)
      · exact absurd hj (hnone j)
      · exact absurd hj (hnone j)
  | forget i =>
      refine { h with held_issued := ?_, held_started := ?_, held_unique := ?_ }
      · intro j m hm
        exact h.held_issued j m (update_none_eq_some hm).2
      · intro j m hm
        exact .inr (h.held_started j m (update_none_eq_some hm).2)
      · intro j k m hj hk
        exact h.held_unique j k m (update_none_eq_some hj).2 (update_none_eq_some hk).2

/-- The participant used its acquisition, has not finished, and the resource no
longer carries the token it may still hold. -/
structure Lost (s : State ι L) (i : ι) : Prop where
  started : i ∈ s.started
  unfinished : i ∉ s.finished
  fenced : ∀ ℓ, s.held i = some ℓ → ℓ ∈ s.issued ∧ s.holder ≠ some ℓ

theorem Step.lost {s t : State ι L} {i : ι} (h : Lost s i) (step : Step s t) : Lost t i := by
  cases step with
  | issue ℓ =>
      exact ⟨h.started, h.unfinished, fun m hm => ⟨.inr (h.fenced m hm).1, (h.fenced m hm).2⟩⟩
  | acquire j ℓ _ hfresh hj =>
      have hij : i ≠ j := fun hij => hj (hij ▸ h.started)
      refine ⟨.inr h.started, h.unfinished, ?_⟩
      intro m hm
      have hm' : s.held i = some m := by simpa [hij] using hm
      refine ⟨.inr (h.fenced m hm').1, ?_⟩
      rintro ⟨⟩
      exact hfresh (h.fenced _ hm').1
  | release => exact ⟨h.started, h.unfinished, fun m hm => ⟨(h.fenced m hm).1, nofun⟩⟩
  | close => exact ⟨h.started, h.unfinished, fun m hm => ⟨(h.fenced m hm).1, nofun⟩⟩
  | finish j ℓ hheld hholder =>
      have hij : i ≠ j := by
        rintro rfl
        exact (h.fenced ℓ hheld).2 hholder
      refine ⟨h.started, ?_, fun m hm => ⟨(h.fenced m (update_none_eq_some hm).2).1, nofun⟩⟩
      rintro (hi | hi)
      · exact hij hi
      · exact h.unfinished hi
  | seize j _ hj =>
      refine ⟨h.started, ?_, fun m hm => ⟨(h.fenced m hm).1, nofun⟩⟩
      rintro (rfl | hi)
      · exact hj h.started
      · exact h.unfinished hi
  | forget j =>
      exact ⟨.inr h.started, h.unfinished, fun m hm => h.fenced m (update_none_eq_some hm).2⟩

/-- Nobody is taken back. -/
theorem Step.finished_subset {s t : State ι L} (step : Step s t) : s.finished ⊆ t.finished := by
  cases step with
  | finish i | seize i => exact Set.subset_insert i s.finished
  | issue | acquire | release | close | forget => exact subset_rfl

theorem path_finished {s t : State ι L} (path : Relation.ReflTransGen Step s t) :
    s.finished ⊆ t.finished := by
  induction path with
  | refl => exact subset_rfl
  | tail _ step ih => exact ih.trans step.finished_subset

theorem path_inv {s t : State ι L} (h : Inv s) (path : Relation.ReflTransGen Step s t) :
    Inv t := by
  induction path with
  | refl => exact h
  | tail _ step ih => exact step.inv ih

/-- A lost token never becomes effective again, and its holder never finishes. -/
theorem path_lost {s t : State ι L} {i : ι} (h : Lost s i)
    (path : Relation.ReflTransGen Step s t) : Lost t i := by
  induction path with
  | refl => exact h
  | tail _ step ih => exact step.lost ih

end SecureShare.Library.Fencing
