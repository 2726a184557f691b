import Mathlib.Data.Nat.Notation
import Mathlib.Logic.Relation

/-!
# Runs of a partial step function

An action either takes a state to its successor or is refused. A run is a list
of actions none of which is refused. Invariants are proved about one step and
carried to all runs here, and an event of the past is recovered from the step
at which its consequence first became true.
-/
namespace SecureShare.Library.Transition

variable {σ α : Type*}

/-- Executes the actions in order. -/
def run (step : σ → α → Option σ) : σ → List α → Option σ
  | s, [] => some s
  | s, a :: as => (step s a).bind fun t => run step t as

variable {step : σ → α → Option σ} {s t u : σ} {a : α} {as bs : List α}

@[simp] theorem run_nil : run step s [] = some s := rfl

theorem run_cons : run step s (a :: as) = (step s a).bind fun t => run step t as := rfl

theorem run_cons_of (h : step s a = some t) : run step s (a :: as) = run step t as := by
  rw [run_cons, h, Option.bind_some]

theorem run_append : run step s (as ++ bs) = (run step s as).bind fun t => run step t bs := by
  induction as generalizing s with
  | nil => rfl
  | cons a as ih =>
      rw [List.cons_append, run_cons, run_cons, Option.bind_assoc]
      exact Option.bind_congr fun t _ => ih

theorem run_trans (h : run step s as = some t) (k : run step t bs = some u) :
    run step s (as ++ bs) = some u := by
  rw [run_append, h, Option.bind_some, k]

theorem run_concat (h : run step s as = some t) (k : step t a = some u) :
    run step s (as ++ [a]) = some u :=
  run_trans h (run_cons_of k)

/-- Some list of actions leads from the first state to the second. -/
def Reachable (step : σ → α → Option σ) (s t : σ) : Prop := ∃ as, run step s as = some t

theorem Reachable.refl (s : σ) : Reachable step s s := ⟨[], rfl⟩

theorem Reachable.of_run (h : run step s as = some t) : Reachable step s t := ⟨as, h⟩

/-- A reachable state is given by what is read off the end of a run. -/
theorem Reachable.of_map {β : Type*} {f : σ → β} {x : β} (h : (run step s as).map f = some x) :
    ∃ t, Reachable step s t ∧ f t = x := by
  obtain ⟨t, ht, hx⟩ := Option.map_eq_some_iff.mp h
  exact ⟨t, ⟨as, ht⟩, hx⟩

theorem Reachable.of_step (h : step s a = some t) : Reachable step s t :=
  ⟨[a], run_cons_of h⟩

theorem Reachable.trans (h : Reachable step s t) (k : Reachable step t u) :
    Reachable step s u := by
  obtain ⟨as, has⟩ := h
  obtain ⟨bs, hbs⟩ := k
  exact ⟨as ++ bs, run_trans has hbs⟩

theorem Reachable.tail (h : Reachable step s t) (k : step t a = some u) : Reachable step s u :=
  h.trans (.of_step k)

/-- The induction behind every invariant: the step may use that its source is
reachable. -/
theorem Reachable.induction {P : σ → Prop} (h : Reachable step s t) (start : P s)
    (next : ∀ u a v, Reachable step s u → P u → step u a = some v → P v) : P t := by
  obtain ⟨as, has⟩ := h
  have aux : ∀ (as : List α) (u : σ), Reachable step s u → P u →
      ∀ t, run step u as = some t → P t := by
    intro as
    induction as with
    | nil =>
        intro u _ hu t ht
        exact Option.some.inj ht ▸ hu
    | cons a as ih =>
        intro u hsu hu t ht
        rw [run_cons, Option.bind_eq_some_iff] at ht
        obtain ⟨v, hv, ht⟩ := ht
        exact ih v (hsu.tail hv) (next u a v hsu hu hv) t ht
  exact aux as s (.refl s) start t has

/-- A property closed under every step holds along the whole run. -/
theorem Reachable.preserves {P : σ → Prop} (h : Reachable step s t) (start : P s)
    (next : ∀ u a v, P u → step u a = some v → P v) : P t :=
  h.induction start fun u a v _ => next u a v

/-- The steps that meet a condition on the state before them and the action. -/
def restrict (C : σ → α → Prop) [∀ s a, Decidable (C s a)] (step : σ → α → Option σ) (s : σ)
    (a : α) : Option σ :=
  if C s a then step s a else none

section restrict
variable {C : σ → α → Prop} [∀ s a, Decidable (C s a)]

theorem restrict_eq_some : restrict C step s a = some t ↔ C s a ∧ step s a = some t := by
  by_cases hC : C s a
  · rw [restrict, if_pos hC, and_iff_right hC]
  · simp only [restrict, hC, if_false, reduceCtorEq, false_and]

theorem Reachable.of_restrict (h : Reachable (restrict C step) s t) : Reachable step s t :=
  h.preserves (.refl s) fun _ _ _ hu hstep => hu.tail (restrict_eq_some.mp hstep).2

end restrict

/-- `P` holds of every state of the run. -/
def Always (step : σ → α → Option σ) (s : σ) (as : List α) (P : σ → Prop) : Prop :=
  ∀ pre u, pre <+: as → run step s pre = some u → P u

/-- Every step of the run meets `C`. -/
def EveryStep (step : σ → α → Option σ) (s : σ) (as : List α) (C : σ → α → Prop) : Prop :=
  ∀ pre a u, pre ++ [a] <+: as → run step s pre = some u → C u a

theorem always_nil {P : σ → Prop} : Always step s [] P ↔ P s := by
  constructor
  · intro h
    exact h [] s (List.prefix_refl _) rfl
  · intro h pre u hpre hrun
    rw [List.prefix_nil.mp hpre] at hrun
    exact Option.some.inj hrun ▸ h

theorem always_cons {P : σ → Prop} :
    Always step s (a :: as) P ↔ P s ∧ ∀ t, step s a = some t → Always step t as P := by
  constructor
  · intro h
    refine ⟨h [] s (List.nil_prefix) rfl, fun t ht pre u hpre hrun => ?_⟩
    exact h (a :: pre) u (List.cons_prefix_cons.mpr ⟨rfl, hpre⟩) ((run_cons_of ht).trans hrun)
  · intro h pre u hpre hrun
    cases pre with
    | nil => exact Option.some.inj hrun ▸ h.1
    | cons b pre =>
        obtain ⟨rfl, hrest⟩ := List.cons_prefix_cons.mp hpre
        rw [run_cons, Option.bind_eq_some_iff] at hrun
        obtain ⟨t, ht, hrun⟩ := hrun
        exact h.2 t ht pre u hrest hrun

theorem everyStep_nil {C : σ → α → Prop} : EveryStep step s [] C := by
  intro pre a u hpre
  exact absurd (List.prefix_nil.mp hpre) (by simp)

theorem everyStep_cons {C : σ → α → Prop} :
    EveryStep step s (a :: as) C ↔ C s a ∧ ∀ t, step s a = some t → EveryStep step t as C := by
  constructor
  · intro h
    refine ⟨h [] a s (by simp) rfl, fun t ht pre b u hpre hrun => ?_⟩
    exact h (a :: pre) b u (List.cons_prefix_cons.mpr ⟨rfl, hpre⟩) ((run_cons_of ht).trans hrun)
  · intro h pre b u hpre hrun
    cases pre with
    | nil =>
        obtain rfl : b = a := by simpa using hpre
        exact Option.some.inj hrun ▸ h.1
    | cons c pre =>
        obtain ⟨rfl, hrest⟩ := List.cons_prefix_cons.mp hpre
        rw [run_cons, Option.bind_eq_some_iff] at hrun
        obtain ⟨t, ht, hrun⟩ := hrun
        exact h.2 t ht pre b u hrest hrun

/-- The states of a run of given actions, checked one after another. -/
theorem always_of_take {f : σ → Bool}
    (h : ∀ k < as.length + 1, (run step s (as.take k)).all f = true) :
    Always step s as fun u => f u = true := by
  intro pre u hpre hrun
  have hcheck := h pre.length (Nat.lt_succ_of_le hpre.length_le)
  rwa [← List.prefix_iff_eq_take.mp hpre, hrun, Option.all_some] at hcheck

/-- What the steps of the run keep holds of all its states. -/
theorem EveryStep.always {P : σ → Prop} {C : σ → α → Prop} (h : EveryStep step s as C) (start : P s)
    (next : ∀ u a v, P u → C u a → step u a = some v → P v) : Always step s as P := by
  induction as generalizing s with
  | nil => exact always_nil.mpr start
  | cons a as ih =>
      obtain ⟨ha, has⟩ := everyStep_cons.mp h
      rw [always_cons]
      refine ⟨start, fun t ht => ?_⟩
      exact ih (has t ht) (next s a t start ha ht)

/-- Where a step keeps `P` exactly if it meets `C`, a run keeps `P` throughout exactly
if all of its steps meet `C`. -/
theorem always_iff_everyStep {P : σ → Prop} {C : σ → α → Prop} (start : P s)
    (next : ∀ u a v, P u → step u a = some v → (P v ↔ C u a)) (h : run step s as = some t) :
    Always step s as P ↔ EveryStep step s as C := by
  constructor
  · intro hall
    induction as generalizing s with
    | nil => exact everyStep_nil
    | cons a as ih =>
        rw [run_cons, Option.bind_eq_some_iff] at h
        obtain ⟨v, hv, h⟩ := h
        obtain ⟨_, hall⟩ := always_cons.mp hall
        have hrest := hall v hv
        have hPv : P v := hrest [] v List.nil_prefix rfl
        rw [everyStep_cons]
        refine ⟨(next s a v start hv).mp hPv, fun t ht => ?_⟩
        obtain rfl := Option.some.inj (hv.symm.trans ht)
        exact ih hPv h hrest
  · intro hevery
    exact hevery.always start fun u a v hu ha hv => (next u a v hu hv).mpr ha

/-- The same, where an invariant decides whether a step keeps `P`. -/
theorem always_iff_everyStep_of_invariant {I P : σ → Prop} {C : σ → α → Prop} (hI : I s) (start : P s)
    (keep : ∀ u a v, I u → step u a = some v → I v)
    (next : ∀ u a v, I u → P u → step u a = some v → (P v ↔ C u a)) (h : run step s as = some t) :
    Always step s as P ↔ EveryStep step s as C := by
  have hboth : Always step s as (fun u => I u ∧ P u) ↔ EveryStep step s as C := by
    apply always_iff_everyStep ⟨hI, start⟩ _ h
    intro u a v hu hstep
    rw [← next u a v hu.1 hu.2 hstep]
    exact and_iff_right (keep u a v hu.1 hstep)
  rw [← hboth]
  constructor
  · intro hall pre u hpre hrun
    exact ⟨(Reachable.of_run hrun).preserves hI keep, hall pre u hpre hrun⟩
  · intro hall pre u hpre hrun
    exact (hall pre u hpre hrun).2

theorem EveryStep.of_prefix {C : σ → α → Prop} (h : EveryStep step s bs C) (hpre : as <+: bs) :
    EveryStep step s as C :=
  fun pre a u ha hrun => h pre a u (ha.trans hpre) hrun

/-- How many steps of the run satisfy `p`. -/
def tally (step : σ → α → Option σ) (p : σ → α → Bool) : σ → List α → ℕ
  | _, [] => 0
  | s, a :: as => (p s a).toNat + ((step s a).map fun t => tally step p t as).getD 0

theorem tally_cons_of {p : σ → α → Bool} (h : step s a = some t) :
    tally step p s (a :: as) = (p s a).toNat + tally step p t as := by
  rw [tally, h, Option.map_some, Option.getD_some]

/-- What a step keeps when it is counted holds at the end for the number that is counted. -/
theorem tally_induction {P : ℕ → σ → Prop} {C : σ → α → Prop} {p : σ → α → Bool} {n : ℕ}
    (h : run step s as = some t) (hC : EveryStep step s as C) (start : P n s)
    (next : ∀ n u a v, P n u → C u a → step u a = some v → P (n + (p u a).toNat) v) :
    P (n + tally step p s as) t := by
  induction as generalizing s n with
  | nil => exact Option.some.inj h ▸ start
  | cons a as ih =>
      rw [run_cons, Option.bind_eq_some_iff] at h
      obtain ⟨u, hu, h⟩ := h
      obtain ⟨ha, has⟩ := everyStep_cons.mp hC
      rw [tally_cons_of hu, ← Nat.add_assoc]
      exact ih h (has u hu) (next n s a u start ha hu)

/-- Some step of the run, after the prefix `pre`, satisfies `P`. -/
def Occurs (step : σ → α → Option σ) (s : σ) (as : List α)
    (P : List α → σ → α → σ → Prop) : Prop :=
  ∃ pre a post u v, as = pre ++ a :: post ∧ run step s pre = some u ∧ step u a = some v ∧
    P pre u a v

theorem Occurs.imp {P R : List α → σ → α → σ → Prop} (h : Occurs step s as P)
    (imp : ∀ pre u a v, run step s pre = some u → step u a = some v → P pre u a v → R pre u a v) :
    Occurs step s as R := by
  obtain ⟨pre, a, post, u, v, rfl, hpre, ha, hP⟩ := h
  exact ⟨pre, a, post, u, v, rfl, hpre, ha, imp pre u a v hpre ha hP⟩

/-- What is false at the start and true at the end became true at some step. -/
theorem exists_step_of_becomes {Q : σ → Prop} (h : run step s as = some t) (start : ¬Q s)
    (last : Q t) : ∃ pre a post u v, as = pre ++ a :: post ∧ run step s pre = some u ∧
      step u a = some v ∧ run step v post = some t ∧ ¬Q u ∧ Q v := by
  induction as generalizing s with
  | nil => exact absurd (Option.some.inj h ▸ last) start
  | cons a as ih =>
      rw [run_cons, Option.bind_eq_some_iff] at h
      obtain ⟨v, hv, h⟩ := h
      by_cases hQ : Q v
      · exact ⟨[], a, as, s, v, rfl, rfl, hv, h, start, hQ⟩
      · obtain ⟨pre, b, post, u, w, rfl, hpre, hb, hpost, hw⟩ := ih h hQ
        exact ⟨a :: pre, b, post, u, w, rfl, (run_cons_of hv).trans hpre, hb, hpost, hw⟩

theorem occurs_of_becomes {Q : σ → Prop} (h : run step s as = some t) (start : ¬Q s) (last : Q t) :
    Occurs step s as fun _ u _ v => ¬Q u ∧ Q v := by
  obtain ⟨pre, a, post, u, v, has, hpre, ha, _, hQ⟩ := exists_step_of_becomes h start last
  exact ⟨pre, a, post, u, v, has, hpre, ha, hQ⟩

/-- A step system simulates another one through `abs`, as long as the invariant
`I` of the first holds: every run is then mirrored by a path. -/
theorem Reachable.simulate {τ : Type*} {R : τ → τ → Prop} {I : σ → Prop} (abs : σ → τ)
    (h : Reachable step s t) (start : I s) (keep : ∀ u a v, I u → step u a = some v → I v)
    (sim : ∀ u a v, I u → step u a = some v → Relation.ReflTransGen R (abs u) (abs v)) :
    Relation.ReflTransGen R (abs s) (abs t) := by
  have hboth : I t ∧ Relation.ReflTransGen R (abs s) (abs t) := by
    refine h.preserves (P := fun u => I u ∧ Relation.ReflTransGen R (abs s) (abs u))
      ⟨start, .refl⟩ ?_
    rintro u a v ⟨hu, hpath⟩ hv
    exact ⟨keep u a v hu hv, hpath.trans (sim u a v hu hv)⟩
  exact hboth.2

end SecureShare.Library.Transition
