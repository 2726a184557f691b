import Mathlib.Data.List.Basic
import Mathlib.Data.Nat.Notation

/-!
# Programs that call operations

A program calls one operation after the other and goes on with their answers. Others
change the store between two of its calls, as far as the relation `rely` allows, and the
program may be abandoned after each. A contract says which operation may be called, given
what is known from the answers so far; a program that meets it keeps it in every run.
-/
namespace SecureShare.Library

/-- An operation that fails has no answer. -/
inductive Program (Op : Type) (Answer : Op → Type) (α : Type) : Type where
  | pure (a : α)
  | call (op : Op) (next : Option (Answer op) → Program Op Answer α)

/-- `learn` adds the answer of an operation to what is known. Only `possible` answers
count. -/
structure Contract (Op : Type) (Answer : Op → Type) (κ : Type) where
  allowed : κ → Op → Prop
  learn : κ → (op : Op) → Option (Answer op) → κ
  possible : (op : Op) → Answer op → Prop

/-- One operation of a run: the store in which it is called, its answer, and the store
that it leaves. -/
structure Event (σ : Type) (Op : Type) (Answer : Op → Type) where
  before : σ
  op : Op
  answer : Option (Answer op)
  after : σ

/-- A call of a run, with its answer. -/
structure Call (Op : Type) (Answer : Op → Type) where
  op : Op
  answer : Option (Answer op)

variable {Op : Type} {Answer : Op → Type} {α β κ σ ι : Type}

def Event.call (e : Event σ Op Answer) : Call Op Answer := ⟨e.op, e.answer⟩

/-- What is known after the events of a run. -/
def Contract.learnt (C : Contract Op Answer κ) (k : κ) (events : List (Event σ Op Answer)) : κ :=
  events.foldl (fun k e => C.learn k e.op e.answer) k

/-- A contract that knows all calls so far. -/
def Contract.ofCalls (allowed : List (Call Op Answer) → Op → Prop)
    (possible : (op : Op) → Answer op → Prop) : Contract Op Answer (List (Call Op Answer)) where
  allowed := allowed
  learn calls op answer := calls ++ [⟨op, answer⟩]
  possible := possible

theorem Contract.learnt_ofCalls {allowed : List (Call Op Answer) → Op → Prop}
    {possible : (op : Op) → Answer op → Prop} (calls : List (Call Op Answer))
    (events : List (Event σ Op Answer)) :
    (Contract.ofCalls allowed possible).learnt calls events = calls ++ events.map Event.call := by
  induction events generalizing calls with
  | nil => exact (List.append_nil calls).symm
  | cons e events ih =>
      rw [List.map_cons, List.append_cons]
      exact ih _

namespace Program

def bind : Program Op Answer α → (α → Program Op Answer β) → Program Op Answer β
  | .pure a, f => f a
  | .call op next, f => .call op fun answer => (next answer).bind f

instance : Monad (Program Op Answer) where
  pure := .pure
  bind := .bind

/-- Calls one operation. -/
def perform (op : Op) : Program Op Answer (Option (Answer op)) := .call op .pure

/-! ### Contracts -/

/-- From the knowledge `k` on, only allowed operations are called, and the result
satisfies `Q` with what is then known. -/
def Meets (C : Contract Op Answer κ) (Q : κ → α → Prop) : Program Op Answer α → κ → Prop
  | .pure a, k => Q k a
  | .call op next, k => C.allowed k op ∧ ∀ answer, (∀ a ∈ answer, C.possible op a) →
      (next answer).Meets C Q (C.learn k op answer)

variable {C : Contract Op Answer κ} {Q R : κ → α → Prop} {S : κ → β → Prop} {k : κ}
  {p : Program Op Answer α} {f : α → Program Op Answer β}

@[simp] theorem meets_pure {a : α} : (Pure.pure a : Program Op Answer α).Meets C Q k ↔ Q k a :=
  .rfl

@[simp] theorem meets_bind : (p >>= f).Meets C S k ↔ p.Meets C (fun k a => (f a).Meets C S k) k := by
  change (p.bind f).Meets C S k ↔ _
  induction p generalizing k with
  | pure a => rfl
  | call op next ih =>
      apply and_congr Iff.rfl
      apply forall_congr'
      intro answer
      apply imp_congr Iff.rfl
      exact ih answer

@[simp] theorem meets_perform {op : Op} {T : κ → Option (Answer op) → Prop} :
    (perform op).Meets C T k ↔ C.allowed k op ∧ ∀ answer, (∀ a ∈ answer, C.possible op a) →
      T (C.learn k op answer) answer :=
  .rfl

theorem Meets.mono (h : p.Meets C Q k) (hQ : ∀ k a, Q k a → R k a) : p.Meets C R k := by
  induction p generalizing k with
  | pure a => exact hQ k a h
  | call op next ih =>
      refine ⟨h.1, ?_⟩
      intro answer hanswer
      apply ih answer
      exact h.2 answer hanswer

theorem Meets.bind (h : p.Meets C Q k) (hf : ∀ k a, Q k a → (f a).Meets C S k) :
    (p >>= f).Meets C S k :=
  meets_bind.mpr (h.mono hf)

/-- What keeps a contract keeps one that allows more. -/
theorem Meets.weaken {allowed allowed' : List (Call Op Answer) → Op → Prop}
    {possible : (op : Op) → Answer op → Prop} {calls : List (Call Op Answer)}
    {Q : List (Call Op Answer) → α → Prop} (h : p.Meets (.ofCalls allowed possible) Q calls)
    (hallowed : ∀ calls op, allowed calls op → allowed' calls op) :
    p.Meets (.ofCalls allowed' possible) Q calls := by
  induction p generalizing calls with
  | pure a => exact h
  | call op next ih =>
      refine ⟨hallowed _ _ h.1, ?_⟩
      intro answer hanswer
      exact ih answer (h.2 answer hanswer)

/-- What the allowed operations keep holds at the end. -/
theorem Meets.invariant {I : κ → Prop} (h : p.Meets C Q k) (hk : I k)
    (hstep : ∀ k op answer, I k → C.allowed k op → I (C.learn k op answer)) :
    p.Meets C (fun k a => I k ∧ Q k a) k := by
  induction p generalizing k with
  | pure a => exact ⟨hk, h⟩
  | call op next ih =>
      refine ⟨h.1, ?_⟩
      intro answer hanswer
      exact ih answer (h.2 answer hanswer) (hstep k op answer hk h.1)

/-- With a contract that knows all calls, the calls before are known after. -/
theorem Meets.grows {allowed : List (Call Op Answer) → Op → Prop}
    {possible : (op : Op) → Answer op → Prop} {calls : List (Call Op Answer)}
    {Q : List (Call Op Answer) → α → Prop} (h : p.Meets (.ofCalls allowed possible) Q calls) :
    p.Meets (.ofCalls allowed possible) (fun calls' a => calls ⊆ calls' ∧ Q calls' a) calls :=
  h.invariant (List.Subset.refl calls) fun _ _ _ hsub _ =>
    List.Subset.trans hsub (List.subset_append_left _ _)

/-- A program that calls such operations only, whatever the answers are. -/
def Uses (P : Op → Prop) : Program Op Answer α → Prop
  | .pure _ => True
  | .call op next => P op ∧ ∀ answer, (next answer).Uses P

section
variable {P P' : Op → Prop}

@[simp] theorem uses_pure {a : α} : (Pure.pure a : Program Op Answer α).Uses P := trivial

@[simp] theorem uses_perform {op : Op} : (perform op : Program Op Answer _).Uses P ↔ P op :=
  and_iff_left fun _ => trivial

theorem Uses.bind (h : p.Uses P) (hf : ∀ a, (f a).Uses P) : (p >>= f).Uses P := by
  change (p.bind f).Uses P
  induction p with
  | pure a => exact hf a
  | call op next ih => exact ⟨h.1, fun answer => ih answer (h.2 answer)⟩

theorem Uses.mono (h : p.Uses P) (hP : ∀ op, P op → P' op) : p.Uses P' := by
  induction p with
  | pure a => trivial
  | call op next ih => exact ⟨hP op h.1, fun answer => ih answer (h.2 answer)⟩

theorem uses_any : p.Uses fun _ => True := by
  induction p with
  | pure a => trivial
  | call op next ih => exact ⟨trivial, ih⟩

/-- Such a program meets a contract that allows these operations as long as `I` holds. -/
theorem Uses.meets {I : κ → Prop} (h : p.Uses P) (hk : I k)
    (hallowed : ∀ k op, I k → P op → C.allowed k op)
    (hlearn : ∀ k op answer, I k → P op → I (C.learn k op answer)) :
    p.Meets C (fun k _ => I k) k := by
  induction p generalizing k with
  | pure a => exact hk
  | call op next ih =>
      refine ⟨hallowed k op hk h.1, ?_⟩
      intro answer _
      exact ih answer (h.2 answer) (hlearn k op answer hk h.1)

end

/-! ### Runs -/

/-- The events of a run. -/
inductive Run (act : ι → σ → (op : Op) → σ × Option (Answer op)) (rely : σ → σ → Prop) :
    σ → Program Op Answer α → List (Event σ Op Answer) → Prop
  | stopped (s : σ) (p : Program Op Answer α) : Run act rely s p []
  | call {s t u : σ} {input : ι} {op : Op} {answer : Option (Answer op)}
      {next : Option (Answer op) → Program Op Answer α} {events : List (Event σ Op Answer)} :
      rely s t → act input t op = (u, answer) → Run act rely u (next answer) events →
      Run act rely s (.call op next) (⟨t, op, answer, u⟩ :: events)

/-- The events of a run to its end, and the result. -/
inductive Ends (act : ι → σ → (op : Op) → σ × Option (Answer op)) (rely : σ → σ → Prop) :
    σ → Program Op Answer α → List (Event σ Op Answer) → α → Prop
  | pure (s : σ) (a : α) : Ends act rely s (.pure a) [] a
  | call {s t u : σ} {input : ι} {op : Op} {answer : Option (Answer op)}
      {next : Option (Answer op) → Program Op Answer α} {events : List (Event σ Op Answer)} {a : α} :
      rely s t → act input t op = (u, answer) → Ends act rely u (next answer) events a →
      Ends act rely s (.call op next) (⟨t, op, answer, u⟩ :: events) a

/-- Executes the program with these inputs, nothing else changing the store. -/
def execute (act : ι → σ → (op : Op) → σ × Option (Answer op)) :
    σ → Program Op Answer α → List ι → List (Event σ Op Answer)
  | s, .call op next, input :: inputs =>
    let r := act input s op
    ⟨s, op, r.2, r.1⟩ :: execute act r.1 (next r.2) inputs
  | _, .pure _, _ | _, .call _ _, [] => []

/-- The result of the execution, if the inputs are enough. -/
def outcome (act : ι → σ → (op : Op) → σ × Option (Answer op)) :
    σ → Program Op Answer α → List ι → Option α
  | s, .call op next, input :: inputs =>
    let r := act input s op
    outcome act r.1 (next r.2) inputs
  | _, .pure a, _ => some a
  | _, .call _ _, [] => none

variable {act : ι → σ → (op : Op) → σ × Option (Answer op)} {rely : σ → σ → Prop} {s : σ}
  {pre post : List (Event σ Op Answer)} {e : Event σ Op Answer}

theorem run_execute (hrely : ∀ s, rely s s) (inputs : List ι) :
    Run act rely s p (execute act s p inputs) := by
  induction p generalizing s inputs with
  | pure a => exact .stopped s _
  | call op next ih =>
      cases inputs with
      | nil => exact .stopped s _
      | cons input inputs => exact .call (hrely s) rfl (ih _ inputs)

/-- Such a run, with one of its events taken out. -/
theorem run_execute_at (hrely : ∀ s, rely s s) {inputs : List ι} {n : ℕ}
    (hn : n < (execute act s p inputs).length) :
    Run act rely s p ((execute act s p inputs).take n ++
      (execute act s p inputs).get ⟨n, hn⟩ :: (execute act s p inputs).drop (n + 1)) := by
  rw [List.get_eq_getElem, ← List.drop_eq_getElem_cons hn, List.take_append_drop]
  exact run_execute hrely inputs

theorem ends_execute (hrely : ∀ s, rely s s) {inputs : List ι} {a : α}
    (h : outcome act s p inputs = some a) : Ends act rely s p (execute act s p inputs) a := by
  induction p generalizing s inputs with
  | pure b =>
      obtain rfl := Option.some.inj h
      exact .pure s _
  | call op next ih =>
      cases inputs with
      | nil => cases h
      | cons input inputs => exact .call (hrely s) rfl (ih _ h)

theorem Ends.run {events : List (Event σ Op Answer)} {a : α} (h : Ends act rely s p events a) :
    Run act rely s p events := by
  induction h with
  | pure s a => exact .stopped s _
  | call hrely hact _ ih => exact .call hrely hact ih

/-- What a program promises of its result holds at the end of every run. -/
theorem Meets.ends {events : List (Event σ Op Answer)} {a : α} (h : p.Meets C Q k)
    (hpossible : ∀ input s op u a, act input s op = (u, some a) → C.possible op a)
    (hends : Ends act rely s p events a) : Q (C.learnt k events) a := by
  induction hends generalizing k with
  | pure s a => exact h
  | call hrely hact hrest ih =>
      apply ih
      apply h.2
      intro a ha
      obtain rfl := Option.mem_def.mp ha
      exact hpossible _ _ _ _ a hact

/-- In every run only allowed operations are called. -/
theorem Meets.allowed (h : p.Meets C Q k)
    (hpossible : ∀ input s op u a, act input s op = (u, some a) → C.possible op a)
    (hrun : Run act rely s p (pre ++ e :: post)) : C.allowed (C.learnt k pre) e.op := by
  induction pre generalizing k s p with
  | nil =>
      cases hrun with
      | call => exact h.1
  | cons first pre ih =>
      cases hrun with
      | call _ hact hrest =>
          apply ih _ hrest
          apply h.2
          intro a ha
          obtain rfl := Option.mem_def.mp ha
          exact hpossible _ _ _ _ a hact

/-- What is known holds of the store in every run, if neither the other programs nor the
operations make it false. -/
theorem Run.learnt {K : κ → σ → Prop} (hK : K k s) (hstable : ∀ k s t, K k s → rely s t → K k t)
    (hlearn : ∀ input k s op u answer, K k s → act input s op = (u, answer) →
      K (C.learn k op answer) u)
    (hrun : Run act rely s p (pre ++ e :: post)) : K (C.learnt k pre) e.before := by
  induction pre generalizing k s p with
  | nil =>
      cases hrun with
      | call hrely => exact hstable _ _ _ hK hrely
  | cons first pre ih =>
      cases hrun with
      | call hrely hact hrest =>
          apply ih _ hrest
          exact hlearn _ _ _ _ _ _ (hstable _ _ _ hK hrely) hact

/-- Each event of a run is an operation on the store before it. -/
theorem Run.event (hrun : Run act rely s p (pre ++ e :: post)) :
    ∃ input, act input e.before e.op = (e.after, e.answer) := by
  induction pre generalizing s p with
  | nil =>
      cases hrun with
      | call _ hact => exact ⟨_, hact⟩
  | cons first pre ih =>
      cases hrun with
      | call _ _ hrest => exact ih hrest

/-- The same of an event that is known to be one of the run. -/
theorem Run.mem {events : List (Event σ Op Answer)} (hrun : Run act rely s p events)
    (he : e ∈ events) : ∃ input, act input e.before e.op = (e.after, e.answer) := by
  obtain ⟨pre, post, rfl⟩ := List.append_of_mem he
  exact hrun.event

/-! ### Results -/

/-- Executes the program to its end with these inputs, one for each operation and nothing else
changing the store: the store that it leaves, its result, and the inputs that are left. -/
def eval (act : ι → σ → (op : Op) → σ × Option (Answer op)) :
    σ → Program Op Answer α → (ℕ → ι) → σ × α × (ℕ → ι)
  | s, .pure a, inputs => (s, a, inputs)
  | s, .call op next, inputs =>
    let r := act (inputs 0) s op
    eval act r.1 (next r.2) fun n => inputs (n + 1)

variable {inputs : ℕ → ι}

@[simp] theorem eval_pure {a : α} :
    eval act s (Pure.pure a : Program Op Answer α) inputs = (s, a, inputs) := rfl

@[simp] theorem eval_perform {op : Op} : eval act s (perform op) inputs =
    ((act (inputs 0) s op).1, (act (inputs 0) s op).2, fun n => inputs (n + 1)) := rfl

@[simp] theorem eval_bind : eval act s (p >>= f) inputs =
    eval act (eval act s p inputs).1 (f (eval act s p inputs).2.1) (eval act s p inputs).2.2 := by
  change eval act s (p.bind f) inputs = _
  induction p generalizing s inputs with
  | pure a => rfl
  | call op next ih => exact ih _

end Program

end SecureShare.Library
