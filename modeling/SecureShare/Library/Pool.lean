import SecureShare.Library.Interleaving
import SecureShare.Library.Program

/-!
# Pools of programs

Requests that share one store. Each starts a program that calls one operation after the
other, and between two of its calls the programs of other requests call theirs. So the run of
each program is one among others that do what operations do, and of two events of the pool one
comes before the other.
-/
namespace SecureShare.Library.Interleaving
open Transition

/-- What is left of the program of a request, and its events so far. -/
structure Task (ρ σ Op : Type) (Answer : Op → Type) (α : Type) where
  request : ρ
  rest : Program Op Answer α
  events : List (Event σ Op Answer)

variable {ρ σ Op ι α : Type} {Answer : Op → Type}

/-- A program that has ended takes no step. -/
def pool (program : ρ → Program Op Answer α)
    (act : ι → σ → (op : Op) → σ × Option (Answer op)) :
    System σ (Task ρ σ Op Answer α) ρ ι where
  start request := ⟨request, program request, []⟩
  advance x s task :=
    match task.rest with
    | .pure _ => none
    | .call op next =>
      let r := act x s op
      some (r.1, ⟨task.request, next r.2, task.events ++ [⟨s, op, r.2, r.1⟩]⟩)

/-- The event number `n` of the request number `i`. -/
def Happened (t : State σ (Task ρ σ Op Answer α)) (i n : ℕ) (e : Event σ Op Answer) : Prop :=
  ∃ task, t.calls[i]? = some task ∧ task.events[n]? = some e

/-- A relation of a store to those that operations make of it. -/
structure Develops (act : ι → σ → (op : Op) → σ × Option (Answer op)) (R : σ → σ → Prop) :
    Prop where
  refl : ∀ s, R s s
  trans : ∀ s t u, R s t → R t u → R s u
  act : ∀ x s op, R s (act x s op).1

variable {program : ρ → Program Op Answer α} {act : ι → σ → (op : Op) → σ × Option (Answer op)}
  {R : σ → σ → Prop} {D : σ → Prop} {s₀ : σ} {s t : State σ (Task ρ σ Op Answer α)}
  {a : Action ρ ι} {i j m n : ℕ} {e e' : Event σ Op Answer}

/-- What no operation ends goes on to hold. -/
theorem Develops.of_stable (h : ∀ x s op, D s → D (act x s op).1) :
    Develops act fun s t => D s → D t where
  refl _ := id
  trans _ _ _ h h' := h' ∘ h
  act := h

/-! ### Steps -/

theorem advance_eq_some {x : ι} {task task' : Task ρ σ Op Answer α} {σ' : σ}
    (h : (pool program act).advance x s₀ task = some (σ', task')) :
    ∃ op next, task.rest = .call op next ∧ σ' = (act x s₀ op).1 ∧
      task' = ⟨task.request, next (act x s₀ op).2,
        task.events ++ [⟨s₀, op, (act x s₀ op).2, σ'⟩]⟩ := by
  obtain ⟨request, rest, events⟩ := task
  cases rest with
  | pure => cases h
  | call op next =>
      obtain ⟨rfl, rfl⟩ := Prod.mk.inj (Option.some.inj h)
      exact ⟨op, next, rfl, rfl, rfl⟩

/-- What one step adds to the events: nothing, or one that leads to the new store. -/
inductive Adds (act : ι → σ → (op : Op) → σ × Option (Answer op))
    (s t : State σ (Task ρ σ Op Answer α)) : Prop
  | nothing : t.store = s.store → (∀ i n e, Happened t i n e ↔ Happened s i n e) → Adds act s t
  | event (x : ι) (i n : ℕ) (e : Event σ Op Answer) :
      act x e.before e.op = (e.after, e.answer) → e.before = s.store → e.after = t.store →
      (∀ m e', Happened s i m e' → m < n) →
      (∀ j m e', Happened t j m e' ↔ Happened s j m e' ∨ j = i ∧ m = n ∧ e' = e) → Adds act s t

theorem happened_spawn {task : Task ρ σ Op Answer α} (htask : task.events = []) :
    Happened ⟨s.store, s.calls ++ [task]⟩ i n e ↔ Happened s i n e := by
  unfold Happened
  dsimp only
  rw [List.getElem?_append]
  split_ifs with hi
  · rfl
  · constructor
    · rintro ⟨other, hother, he⟩
      obtain rfl := List.mem_singleton.mp (List.mem_of_getElem? hother)
      rw [htask] at he
      cases he
    · rintro ⟨other, hother, _⟩
      exact absurd (List.getElem?_eq_some_iff.mp hother).1 hi

theorem happened_advance {task task' : Task ρ σ Op Answer α} {σ' : σ}
    (htask : s.calls[i]? = some task) (hevents : task'.events = task.events ++ [e]) :
    Happened ⟨σ', s.calls.set i task'⟩ j m e' ↔
      Happened s j m e' ∨ j = i ∧ m = task.events.length ∧ e' = e := by
  unfold Happened
  dsimp only
  by_cases hj : j = i
  · subst hj
    have hi : j < s.calls.length := (List.getElem?_eq_some_iff.mp htask).1
    rw [List.getElem?_set_self hi, htask]
    simp only [Option.some.injEq, exists_eq_left', hevents, List.getElem?_append]
    split_ifs with hm
    · have hne : m ≠ task.events.length := Nat.ne_of_lt hm
      simp [hne]
    · have hnone : task.events[m]? = none := List.getElem?_eq_none (Nat.le_of_not_lt hm)
      rw [hnone, List.getElem?_singleton]
      split_ifs with hzero
      · have heq : m = task.events.length := by omega
        simp [heq, eq_comm]
      · have hne : m ≠ task.events.length := by omega
        simp [hne]
  · rw [List.getElem?_set_ne (Ne.symm hj)]
    simp [hj]

theorem adds_of_step (h : (pool program act).step s a = some t) : Adds act s t := by
  rcases System.step_cases h with ⟨request, _, rfl⟩ | ⟨i, x, task, σ', task', _, htask, hadvance, rfl⟩
  · exact .nothing rfl fun i n e => happened_spawn rfl
  · obtain ⟨op, next, _, rfl, rfl⟩ := advance_eq_some hadvance
    refine .event x i task.events.length ⟨s.store, op, _, _⟩ rfl rfl rfl ?_
      fun j m e' => happened_advance htask rfl
    rintro m e' ⟨other, hother, he⟩
    obtain rfl := Option.some.inj (htask.symm.trans hother)
    exact (List.getElem?_eq_some_iff.mp he).1

/-! ### The events of all programs -/

theorem not_happened_init : ¬Happened (⟨s₀, []⟩ : State σ (Task ρ σ Op Answer α)) i n e := by
  rintro ⟨_, hnone, _⟩
  cases hnone

/-- The events of a program before one of them have happened too. -/
theorem split_of_happened (he : Happened t i n e) : ∃ task, t.calls[i]? = some task ∧
    ∃ pre post, task.events = pre ++ e :: post ∧ ∀ e' ∈ pre, ∃ m < n, Happened t i m e' := by
  obtain ⟨task, htask, hn⟩ := he
  obtain ⟨hlt, heq⟩ := List.getElem?_eq_some_iff.mp hn
  refine ⟨task, htask, task.events.take n, task.events.drop (n + 1), ?_, fun e' he' => ?_⟩
  · rw [← heq, ← List.drop_eq_getElem_cons hlt, List.take_append_drop]
  · obtain ⟨m, hm⟩ := List.getElem?_of_mem he'
    have hmn : m < n := by
      have hlength := (List.getElem?_eq_some_iff.mp hm).1
      rw [List.length_take] at hlength
      omega
    rw [List.getElem?_take_of_lt hmn] at hm
    exact ⟨m, hmn, task, htask, hm⟩

/-- Every event is an operation on the store before it. -/
theorem act_of_happened (h : Reachable (pool program act).step ⟨s₀, []⟩ t) (he : Happened t i n e) :
    ∃ x, act x e.before e.op = (e.after, e.answer) := by
  refine h.preserves (P := fun t => ∀ i n e, Happened t i n e →
    ∃ x, act x e.before e.op = (e.after, e.answer)) (fun _ _ _ he => (not_happened_init he).elim)
    ?_ i n e he
  intro u a v hu hstep j m e' he'
  cases adds_of_step hstep with
  | nothing _ hsame => exact hu j m e' ((hsame j m e').mp he')
  | event x i n e hact _ _ _ hmore =>
      rcases (hmore j m e').mp he' with he' | ⟨_, _, rfl⟩
      · exact hu j m e' he'
      · exact ⟨x, hact⟩

/-- The store has developed since every event. -/
theorem since_of_happened (hR : Develops act R) (h : Reachable (pool program act).step ⟨s₀, []⟩ t)
    (he : Happened t i n e) : R e.after t.store := by
  refine h.preserves (P := fun t => ∀ i n e, Happened t i n e → R e.after t.store)
    (fun _ _ _ he => (not_happened_init he).elim) ?_ i n e he
  intro u a v hu hstep j m e' he'
  cases adds_of_step hstep with
  | nothing hstore hsame => exact hstore ▸ hu j m e' ((hsame j m e').mp he')
  | event x i n e hact hbefore hafter _ hmore =>
      rcases (hmore j m e').mp he' with he' | ⟨_, _, rfl⟩
      · have hold : R e'.after e.before := hbefore ▸ hu j m e' he'
        have hnew : R e.before (act x e.before e.op).1 := hR.act x e.before e.op
        rw [hact] at hnew
        exact hafter ▸ hR.trans _ _ _ hold hnew
      · exact hafter ▸ hR.refl _

/-- Of two events one comes before the other. -/
theorem ordered_of_happened (hR : Develops act R)
    (h : Reachable (pool program act).step ⟨s₀, []⟩ t) (he : Happened t i n e)
    (he' : Happened t j m e') (hne : ¬(i = j ∧ n = m)) :
    R e.after e'.before ∨ R e'.after e.before := by
  refine h.induction (P := fun t => ∀ i n e j m e', Happened t i n e → Happened t j m e' →
    ¬(i = j ∧ n = m) → R e.after e'.before ∨ R e'.after e.before)
    (fun _ _ _ _ _ _ he => (not_happened_init he).elim) ?_ i n e j m e' he he' hne
  intro u a v hreach hu hstep i n e j m e' he he' hne
  cases adds_of_step hstep with
  | nothing _ hsame => exact hu i n e j m e' ((hsame i n e).mp he) ((hsame j m e').mp he') hne
  | event x k l last _ hbefore _ _ hmore =>
      rcases (hmore i n e).mp he with he | ⟨rfl, rfl, rfl⟩ <;>
        rcases (hmore j m e').mp he' with he' | ⟨rfl, rfl, rfl⟩
      · exact hu i n e j m e' he he' hne
      · exact .inl (hbefore ▸ since_of_happened hR hreach he)
      · exact .inr (hbefore ▸ since_of_happened hR hreach he')
      · exact absurd ⟨rfl, rfl⟩ hne

/-- What operations never end, is brought about by one event at most. -/
theorem once_of_happened (hD : ∀ x s op, D s → D (act x s op).1)
    (h : Reachable (pool program act).step ⟨s₀, []⟩ t) (he : Happened t i n e)
    (he' : Happened t j m e') (hbefore : ¬D e.before) (hafter : D e.after) (hbefore' : ¬D e'.before)
    (hafter' : D e'.after) : i = j ∧ n = m := by
  by_contra hne
  rcases ordered_of_happened (.of_stable hD) h he he' hne with hstays | hstays
  · exact hbefore' (hstays hafter)
  · exact hbefore (hstays hafter')

/-- What holds now and did not at the start was brought about by an event. -/
theorem origin_of_reachable (h : Reachable (pool program act).step ⟨s₀, []⟩ t) (hstart : ¬D s₀)
    (hnow : D t.store) : ∃ i n e, Happened t i n e ∧ ¬D e.before ∧ D e.after := by
  refine h.preserves (P := fun t => D t.store → ∃ i n e, Happened t i n e ∧ ¬D e.before ∧ D e.after)
    (fun hnow => absurd hnow hstart) ?_ hnow
  intro u a v hu hstep hnow
  cases adds_of_step hstep with
  | nothing hstore hsame =>
      obtain ⟨i, n, e, he, horigin⟩ := hu (hstore ▸ hnow)
      exact ⟨i, n, e, (hsame i n e).mpr he, horigin⟩
  | event x i n e _ hbefore hafter _ hmore =>
      by_cases hold : D u.store
      · obtain ⟨j, m, e', he', horigin⟩ := hu hold
        exact ⟨j, m, e', (hmore j m e').mpr (.inl he'), horigin⟩
      · exact ⟨i, n, e, (hmore i n e).mpr (.inr ⟨rfl, rfl, rfl⟩), hbefore ▸ hold, hafter ▸ hnow⟩

/-! ### The run of one program -/

/-- The events of a run that has come to `t`, where `q` is left of the program. -/
inductive Reaches (act : ι → σ → (op : Op) → σ × Option (Answer op)) (rely : σ → σ → Prop) :
    σ → Program Op Answer α → List (Event σ Op Answer) → σ → Program Op Answer α → Prop
  | start {s t : σ} (p : Program Op Answer α) : rely s t → Reaches act rely s p [] t p
  | call {s t u v : σ} {x : ι} {op : Op} {answer : Option (Answer op)}
      {next : Option (Answer op) → Program Op Answer α} {events : List (Event σ Op Answer)}
      {q : Program Op Answer α} :
      rely s t → act x t op = (u, answer) → Reaches act rely u (next answer) events v q →
      Reaches act rely s (.call op next) (⟨t, op, answer, u⟩ :: events) v q

section
variable {s t u : σ} {p q : Program Op Answer α} {events : List (Event σ Op Answer)}

/-- Others change the store. -/
theorem Reaches.others (h : Reaches act R s p events t q) (hR : Develops act R) (htu : R t u) :
    Reaches act R s p events u q := by
  induction h with
  | start p hst => exact .start p (hR.trans _ _ _ hst htu)
  | call hst hact _ ih => exact .call hst hact (ih htu)

/-- The program calls its next operation. -/
theorem Reaches.next {x : ι} {op : Op} {next : Option (Answer op) → Program Op Answer α}
    (h : Reaches act R s p events t q) (hR : Develops act R) (hq : q = .call op next) :
    Reaches act R s p (events ++ [⟨t, op, (act x t op).2, (act x t op).1⟩]) (act x t op).1
      (next (act x t op).2) := by
  induction h with
  | start p hst =>
      subst hq
      exact .call hst rfl (.start _ (hR.refl _))
  | call hst hact _ ih => exact .call hst hact (ih hq)

theorem Reaches.run (h : Reaches act R s p events t q) : Program.Run act R s p events := by
  induction h with
  | start p _ => exact .stopped _ p
  | call hst hact _ ih => exact .call hst hact ih

theorem Reaches.ends {b : α} (h : Reaches act R s p events t q) (hq : q = .pure b) :
    Program.Ends act R s p events b := by
  induction h with
  | start p _ =>
      subst hq
      exact .pure _ b
  | call hst hact _ ih => exact .call hst hact (ih hq)

end

/-- Each program of the pool has a run of its own, where others do what operations do. -/
theorem reaches_of_reachable (hR : Develops act R)
    (h : Reachable (pool program act).step ⟨s₀, []⟩ t) {task : Task ρ σ Op Answer α}
    (htask : t.calls[i]? = some task) : ∃ s, R s₀ s ∧
      Reaches act R s (program task.request) task.events t.store task.rest := by
  refine (System.assertions_of_reachable (J := R s₀) (K := fun _ u task => ∃ s, R s₀ s ∧
    Reaches act R s (program task.request) task.events u task.rest) h (hR.refl s₀)
    (fun _ _ hnone => nomatch hnone) ?_ ?_).2 i task htask
  · intro _ u request _ hu
    exact ⟨u, hu, .start _ (hR.refl u)⟩
  · rintro x i u task u' task' hu ⟨s, hs, hreaches⟩ hadvance
    obtain ⟨op, next, hrest, rfl, rfl⟩ := advance_eq_some hadvance
    have hmove : R u (act x u op).1 := hR.act x u op
    refine ⟨hR.trans _ _ _ hu hmove, ⟨s, hs, hreaches.next hR hrest⟩, ?_⟩
    rintro j other _ ⟨s', hs', hother⟩
    exact ⟨s', hs', hother.others hR hmove⟩

end SecureShare.Library.Interleaving
