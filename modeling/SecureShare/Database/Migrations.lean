import SecureShare.Go.Text
import SecureShare.Library.Interleaving
import Mathlib.Data.List.Nodup

/-!
# Migrations

`RunMigrations` executes the files that are not recorded, each in a transaction that
records it. Replicas may start together, so any number of calls run at a time. The
recorded versions are always the first files of the list, and the SQL of exactly these
has taken effect, once and in order.
-/
namespace SecureShare.Database
open Go Library Library.Transition
open Library.Interleaving (System State Reply Action)

/-- The names of the files in the directory, as they are sorted. -/
structure MigrationFiles where
  names : List Text
  distinct : names.Nodup

/-- What is committed: the versions in `schema_migrations`, and the files whose SQL has
taken effect, the last one last. An open transaction holds the versions that it has
inserted. -/
structure Schema where
  recorded : List Text
  effects : List Text
  held : List Text
  deriving DecidableEq, Repr

/-- What a transaction has done and will commit. -/
structure Transaction where
  executed : List Text
  inserted : List Text
  deriving DecidableEq, Repr

/-- A call of `RunMigrations` before its next statement. -/
inductive MigrationCall where
  | creating
  | listing
  | checking (files : List Text)
  | reading (file : Text) (rest : List Text)
  | beginning (file : Text) (rest : List Text)
  | executing (file : Text) (rest : List Text) (tx : Transaction)
  | inserting (file : Text) (rest : List Text) (tx : Transaction)
  | committing (file : Text) (rest : List Text) (tx : Transaction)
  | returned (ok : Bool)
  deriving DecidableEq, Repr

/-- What comes after a statement, which ends the call if it fails. -/
def proceed (reply : Reply) (next : MigrationCall) : MigrationCall :=
  if reply = .answered then next else .returned false

/-- The version must be new. A version that another transaction holds is waited for, and
the wait can only fail. -/
def insertVersion (reply : Reply) (s : Schema) (file : Text) (rest : List Text)
    (tx : Transaction) : Option (Schema × MigrationCall) :=
  if file ∈ s.held then
    if reply = .failed then some (s, .returned false) else none
  else if file ∈ s.recorded ∨ reply ≠ .answered then some (s, .returned false)
  else
    some ({ s with held := file :: s.held },
      .committing file rest { tx with inserted := tx.inserted ++ [file] })

/-- The transaction ends, with its effects unless it fails. -/
def commit (reply : Reply) (s : Schema) (rest : List Text) (tx : Transaction) :
    Schema × MigrationCall :=
  let held := s.held.filter (· ∉ tx.inserted)
  if reply = .failed then ({ s with held }, .returned false)
  else
    ({ recorded := s.recorded ++ tx.inserted, effects := s.effects ++ tx.executed, held },
      proceed reply (.checking rest))

/-- One statement of `RunMigrations`. A call that returns an error rolls back. -/
def MigrationCall.advance (files : MigrationFiles) (reply : Reply) (s : Schema) :
    MigrationCall → Option (Schema × MigrationCall)
  | .creating => some (s, proceed reply .listing)
  | .listing => some (s, proceed reply (.checking files.names))
  | .checking [] => some (s, .returned true)
  | .checking (file :: rest) =>
    some (s, proceed reply (if file ∈ s.recorded then .checking rest else .reading file rest))
  | .reading file rest => some (s, proceed reply (.beginning file rest))
  | .beginning file rest => some (s, proceed reply (.executing file rest ⟨[], []⟩))
  | .executing file rest tx =>
    some (s, proceed reply (.inserting file rest { tx with executed := tx.executed ++ [file] }))
  | .inserting file rest tx => insertVersion reply s file rest tx
  | .committing _ rest tx => some (commit reply s rest tx)
  | .returned _ => none

/-- Any number of calls of `RunMigrations`. -/
def migrationSystem (files : MigrationFiles) : System Schema MigrationCall Unit Reply where
  start _ := .creating
  advance reply s call := call.advance files reply s

/-- The first `n` files have been applied, and no call has started. -/
def Schema.start (files : MigrationFiles) (n : ℕ) : State Schema MigrationCall :=
  ⟨⟨files.names.take n, files.names.take n, []⟩, []⟩

variable {files : MigrationFiles} {s s' : Schema} {call call' : MigrationCall} {reply : Reply}
  {file : Text} {rest : List Text} {tx : Transaction}

/-- The files before the ones that are left are recorded. -/
def Schema.Passed (files : MigrationFiles) (s : Schema) (rest : List Text) : Prop :=
  ∃ done, files.names = done ++ rest ∧ ∀ file ∈ done, file ∈ s.recorded

/-- What a call knows of the schema. -/
def MigrationCall.Holds (files : MigrationFiles) (s : Schema) : MigrationCall → Prop
  | .creating | .listing | .returned false => True
  | .checking rest => s.Passed files rest
  | .reading file rest | .beginning file rest => s.Passed files (file :: rest)
  | .executing file rest tx => s.Passed files (file :: rest) ∧ tx = ⟨[], []⟩
  | .inserting file rest tx => s.Passed files (file :: rest) ∧ tx = ⟨[file], []⟩
  | .committing file rest tx =>
    s.Passed files (file :: rest) ∧ tx = ⟨[file], [file]⟩ ∧ file ∉ s.recorded ∧ file ∈ s.held
  | .returned true => s.Passed files []

/-- The call has an uncommitted version. -/
def MigrationCall.Commits (file : Text) : MigrationCall → Prop
  | .committing file' _ _ => file' = file
  | _ => False

theorem Schema.Passed.mono (h : s.Passed files rest) (hle : ∀ file ∈ s.recorded, file ∈ s'.recorded) :
    s'.Passed files rest := by
  obtain ⟨done, hnames, hdone⟩ := h
  exact ⟨done, hnames, fun file hfile => hle file (hdone file hfile)⟩

theorem Schema.Passed.next (h : s.Passed files (file :: rest)) (hfile : file ∈ s.recorded) :
    s.Passed files rest := by
  obtain ⟨done, hnames, hdone⟩ := h
  refine ⟨done ++ [file], by rw [hnames, List.append_assoc]; rfl, fun f hf => ?_⟩
  rcases List.mem_append.mp hf with hf | hf
  · exact hdone f hf
  · exact List.mem_singleton.mp hf ▸ hfile

/-- Where the recorded files are the first ones, an unrecorded one whose predecessors are
all recorded is the next. -/
theorem Schema.Passed.next_file {n : ℕ} (h : s.Passed files (file :: rest))
    (hrecorded : s.recorded = files.names.take n) (hfile : file ∉ s.recorded) :
    files.names = s.recorded ++ file :: rest := by
  obtain ⟨done, hnames, hdone⟩ := h
  have hdistinct := files.distinct
  have hprefix : s.recorded <+: files.names := hrecorded ▸ List.take_prefix n _
  have hprefix' : done <+: files.names := ⟨file :: rest, hnames.symm⟩
  rcases List.prefix_or_prefix_of_prefix hprefix hprefix' with ⟨more, hmore⟩ | ⟨more, hmore⟩
  · cases more with
    | nil => rw [hnames, ← hmore, List.append_nil]
    | cons f more =>
        exfalso
        rw [hnames, ← hmore, List.append_assoc, List.nodup_append] at hdistinct
        have hf : f ∈ s.recorded := hdone f (by rw [← hmore]; simp)
        exact hdistinct.2.2 f hf f (by simp) rfl
  · cases more with
    | nil => rw [hnames, ← hmore, List.append_nil]
    | cons f more =>
        exfalso
        obtain ⟨last, hlast⟩ := hprefix
        rw [← hmore, hnames, List.append_assoc, List.append_cancel_left_eq] at hlast
        obtain rfl : f = file := (List.cons.inj hlast).1
        exact hfile (by rw [← hmore]; simp)

/-- A file that has been passed is one of the recorded ones, when none is left. -/
theorem Schema.Passed.all {n : ℕ} (h : s.Passed files []) (hrecorded : s.recorded = files.names.take n) :
    s.recorded = files.names := by
  obtain ⟨done, hnames, hdone⟩ := h
  rw [List.append_nil] at hnames
  by_cases hn : files.names.length ≤ n
  · rw [hrecorded, List.take_of_length_le hn]
  · exfalso
    have hlt : n < files.names.length := by omega
    have hmem := hdone files.names[n] (by rw [← hnames]; exact List.getElem_mem hlt)
    rw [hrecorded, List.mem_take_iff_getElem] at hmem
    obtain ⟨i, hi, heq⟩ := hmem
    have hin := (List.Nodup.getElem_inj_iff files.distinct).mp heq
    omega

/-- What one statement of a call does. -/
inductive MigrationStep (files : MigrationFiles) (s : Schema) (call : MigrationCall) :
    Schema → MigrationCall → Prop
  | quiet (call' : MigrationCall) : (∀ file, ¬call'.Commits file) →
      (call.Holds files s → call'.Holds files s) → MigrationStep files s call s call'
  | inserted (file : Text) (rest : List Text) (tx : Transaction) :
      call = .inserting file rest tx → file ∉ s.held → file ∉ s.recorded →
      MigrationStep files s call { s with held := file :: s.held }
        (.committing file rest { tx with inserted := tx.inserted ++ [file] })
  | rolledBack (file : Text) (rest : List Text) (tx : Transaction) :
      call = .committing file rest tx →
      MigrationStep files s call { s with held := s.held.filter (· ∉ tx.inserted) }
        (.returned false)
  | committed (file : Text) (rest : List Text) (tx : Transaction) (call' : MigrationCall) :
      call = .committing file rest tx → call' = .checking rest ∨ call' = .returned false →
      MigrationStep files s call
        ⟨s.recorded ++ tx.inserted, s.effects ++ tx.executed, s.held.filter (· ∉ tx.inserted)⟩ call'

theorem proceed_cases (reply : Reply) (next : MigrationCall) :
    proceed reply next = next ∨ proceed reply next = .returned false := by
  unfold proceed
  split_ifs
  · exact .inl rfl
  · exact .inr rfl

/-- A statement that leaves the schema as it is. -/
theorem MigrationStep.of_proceed {next : MigrationCall} (hnext : ∀ file, ¬next.Commits file)
    (hholds : call.Holds files s → next.Holds files s) :
    MigrationStep files s call s (proceed reply next) := by
  rcases proceed_cases reply next with h | h
  · rw [h]
    exact .quiet next hnext hholds
  · rw [h]
    exact .quiet _ (fun _ => not_false) fun _ => trivial

theorem MigrationCall.advance_step (h : call.advance files reply s = some (s', call')) :
    MigrationStep files s call s' call' := by
  cases call with
  | creating =>
      cases h
      exact .of_proceed (fun _ => not_false) fun _ => trivial
  | listing =>
      cases h
      exact .of_proceed (fun _ => not_false) fun _ => ⟨[], rfl, by simp⟩
  | checking left =>
      cases left with
      | nil =>
          cases h
          exact .quiet _ (fun _ => not_false) id
      | cons file rest =>
          cases h
          split_ifs with hfile
          · exact .of_proceed (fun _ => not_false) fun hpassed => hpassed.next hfile
          · exact .of_proceed (fun _ => not_false) id
  | reading file rest =>
      cases h
      exact .of_proceed (fun _ => not_false) id
  | beginning file rest =>
      cases h
      exact .of_proceed (fun _ => not_false) fun hpassed => ⟨hpassed, rfl⟩
  | executing file rest tx =>
      cases h
      refine .of_proceed (fun _ => not_false) fun hholds => ⟨hholds.1, ?_⟩
      rw [hholds.2]
      rfl
  | inserting file rest tx =>
      change insertVersion reply s file rest tx = some (s', call') at h
      unfold insertVersion at h
      split_ifs at h with hheld hfailed hrefused
      · cases h
        exact .quiet _ (fun _ => not_false) fun _ => trivial
      · cases h
        exact .quiet _ (fun _ => not_false) fun _ => trivial
      · cases h
        exact .inserted file rest tx rfl hheld (not_or.mp hrefused).1
  | committing file rest tx =>
      have hcommit : commit reply s rest tx = (s', call') := Option.some.inj h
      unfold commit at hcommit
      dsimp only at hcommit
      split_ifs at hcommit
      · cases hcommit
        exact .rolledBack file rest tx rfl
      · cases hcommit
        exact .committed file rest tx _ rfl (proceed_cases reply _)
  | returned ok => cases h

/-- The recorded versions are the first files, the SQL of exactly these has taken effect
in their order, and no two transactions are about to commit one version. -/
structure Consistent (files : MigrationFiles) (s : State Schema MigrationCall) : Prop where
  applied : ∃ n, s.store.recorded = files.names.take n ∧ s.store.effects = files.names.take n
  holds : ∀ (i : ℕ) call, s.calls[i]? = some call → call.Holds files s.store
  exclusive : ∀ (i j : ℕ) call call' file, s.calls[i]? = some call → s.calls[j]? = some call' →
    call.Commits file → call'.Commits file → i = j

/-- What another call knows stays so while versions are recorded and held that are not
its own. -/
theorem MigrationCall.Holds.mono (h : call.Holds files s)
    (hrecorded : ∀ file ∈ s.recorded, file ∈ s'.recorded)
    (hheld : ∀ file, call.Commits file → file ∉ s.recorded → file ∈ s.held →
      file ∉ s'.recorded ∧ file ∈ s'.held) : call.Holds files s' := by
  cases call with
  | creating => trivial
  | listing => trivial
  | checking left => exact Schema.Passed.mono h hrecorded
  | reading file rest => exact Schema.Passed.mono h hrecorded
  | beginning file rest => exact Schema.Passed.mono h hrecorded
  | executing file rest tx => exact ⟨h.1.mono hrecorded, h.2⟩
  | inserting file rest tx => exact ⟨h.1.mono hrecorded, h.2⟩
  | committing file rest tx => exact ⟨h.1.mono hrecorded, h.2.1, hheld file rfl h.2.2.1 h.2.2.2⟩
  | returned ok =>
      cases ok with
      | true => exact Schema.Passed.mono h hrecorded
      | false => trivial

/-- The calls after a step of call `i`: it knows what it says, the others what they did. -/
theorem Consistent.set {t : State Schema MigrationCall} {i : ℕ} (h : Consistent files t)
    (hcall : t.calls[i]? = some call)
    (happlied : ∃ n, s'.recorded = files.names.take n ∧ s'.effects = files.names.take n)
    (hmoved : call'.Holds files s')
    (hcommits : ∀ file, call'.Commits file → file ∉ t.store.held)
    (hrecorded : ∀ file ∈ t.store.recorded, file ∈ s'.recorded)
    (hheld : ∀ file, ¬call.Commits file → file ∉ t.store.recorded → file ∈ t.store.held →
      file ∉ s'.recorded ∧ file ∈ s'.held) : Consistent files ⟨s', t.calls.set i call'⟩ where
  applied := happlied
  holds := by
    intro j other hother
    rw [List.getElem?_set] at hother
    split_ifs at hother with hij hi
    · cases hother
      exact hmoved
    · apply (h.holds j other hother).mono hrecorded
      intro file hcommitting
      apply hheld file
      intro hcommits'
      exact hij (h.exclusive i j call other file hcall hother hcommits' hcommitting)
  exclusive := by
    intro j k other other' file hother hother' hcommitting hcommitting'
    have hnot (j : ℕ) (other : MigrationCall) (hother : t.calls[j]? = some other)
        (hcommitting : other.Commits file) : ¬call'.Commits file := by
      intro hcommits'
      have hholds := h.holds j other hother
      cases other with
      | committing file' rest tx =>
          obtain rfl : file' = file := hcommitting
          exact hcommits _ hcommits' hholds.2.2.2
      | creating | listing | checking | reading | beginning | executing | inserting | returned =>
          exact hcommitting
    rw [List.getElem?_set] at hother hother'
    split_ifs at hother hother' with hij hi hik
    · exact hij.symm.trans hik
    · cases hother
      exact absurd hcommitting (hnot k other' hother' hcommitting')
    · cases hother'
      exact absurd hcommitting' (hnot j other hother hcommitting)
    · exact h.exclusive j k other other' file hother hother' hcommitting hcommitting'

theorem Consistent.step {t u : State Schema MigrationCall} {a : Action Unit Reply}
    (h : Consistent files t) (hstep : (migrationSystem files).step t a = some u) :
    Consistent files u := by
  rcases System.step_cases hstep with
    ⟨request, _, rfl⟩ | ⟨i, reply, call, s', call', _, hcall, hadvance, rfl⟩
  · constructor
    · exact h.applied
    · intro j other hother
      rw [List.getElem?_append] at hother
      split_ifs at hother with hj
      · exact h.holds j other hother
      · obtain rfl := List.mem_singleton.mp (List.mem_of_getElem? hother)
        trivial
    · intro j k other other' file hother hother' hcommitting hcommitting'
      rw [List.getElem?_append] at hother hother'
      split_ifs at hother hother' with hj hk
      · exact h.exclusive j k other other' file hother hother' hcommitting hcommitting'
      · obtain rfl := List.mem_singleton.mp (List.mem_of_getElem? hother')
        exact absurd hcommitting' not_false
      · obtain rfl := List.mem_singleton.mp (List.mem_of_getElem? hother)
        exact absurd hcommitting not_false
      · obtain rfl := List.mem_singleton.mp (List.mem_of_getElem? hother)
        exact absurd hcommitting not_false
  · have hholds := h.holds i call hcall
    cases MigrationCall.advance_step hadvance with
    | quiet call' hcommits hnext =>
        exact h.set hcall h.applied (hnext hholds) (fun file hfile => absurd hfile (hcommits file))
          (fun _ hfile => hfile) fun _ _ hfile hheld => ⟨hfile, hheld⟩
    | inserted file rest tx hphase hfree hnew =>
        subst hphase
        obtain ⟨hpassed, rfl⟩ := hholds
        refine h.set hcall h.applied ⟨hpassed, rfl, hnew, List.mem_cons_self⟩ ?_ (fun _ hf => hf) ?_
        · intro f hf
          obtain rfl : file = f := hf
          exact hfree
        · intro f _ hf hheld
          exact ⟨hf, List.mem_cons_of_mem _ hheld⟩
    | rolledBack file rest tx hphase =>
        subst hphase
        obtain ⟨_, rfl, _, _⟩ := hholds
        refine h.set hcall h.applied trivial (fun _ hf => absurd hf not_false) (fun _ hf => hf) ?_
        intro f hf hnew hheld
        refine ⟨hnew, List.mem_filter.mpr ⟨hheld, ?_⟩⟩
        simpa using fun heq : f = file => hf heq.symm
    | committed file rest tx call' hphase hnext =>
        subst hphase
        obtain ⟨hpassed, rfl, hnew, _⟩ := hholds
        obtain ⟨n, hrecorded, heffects⟩ := h.applied
        have hnames := hpassed.next_file hrecorded hnew
        have happlied : t.store.recorded ++ [file] =
            files.names.take (t.store.recorded.length + 1) := by
          rw [hnames, List.take_append, List.take_of_length_le (by omega)]
          simp
        have hmore (f : Text) (hf : f ∈ t.store.recorded) : f ∈ t.store.recorded ++ [file] :=
          List.mem_append_left _ hf
        have heffects : t.store.effects ++ [file] =
            files.names.take (t.store.recorded.length + 1) := by
          rw [heffects, ← hrecorded, happlied]
        refine h.set hcall ⟨_, happlied, heffects⟩ ?_ ?_ hmore ?_
        · rcases hnext with rfl | rfl
          · exact (hpassed.mono hmore).next (by simp)
          · trivial
        · intro f hf
          rcases hnext with rfl | rfl <;> exact absurd hf not_false
        · intro f hf hunrecorded hheld
          have hne : f ≠ file := fun heq => hf heq.symm
          refine ⟨by simpa [hne] using hunrecorded, List.mem_filter.mpr ⟨hheld, ?_⟩⟩
          simpa using hne

theorem consistent_of_reachable {n : ℕ} {t : State Schema MigrationCall}
    (h : Reachable (migrationSystem files).step (Schema.start files n) t) : Consistent files t := by
  refine h.preserves ⟨⟨n, rfl, rfl⟩, ?_, ?_⟩ fun u a v hu hstep => hu.step hstep
  · intro i call hcall
    cases hcall
  · intro i j call call' file hcall
    cases hcall

/-- A call that checks its last files alone, with nothing failing, applies those that are
not recorded. -/
theorem completes_alone (calls : List MigrationCall) {n : ℕ} (hpassed : s.Passed files rest)
    (hrecorded : s.recorded = files.names.take n) (heffects : s.effects = files.names.take n)
    (hheld : s.held = []) :
    ∃ s', Reachable (migrationSystem files).step ⟨s, calls ++ [.checking rest]⟩
        ⟨s', calls ++ [.returned true]⟩ ∧
      s'.recorded = files.names ∧ s'.effects = files.names := by
  induction rest generalizing s n with
  | nil =>
      have hall := hpassed.all hrecorded
      refine ⟨s, System.reachable_last (x := .answered) calls rfl, hall, ?_⟩
      rw [heffects, ← hrecorded, hall]
  | cons file rest ih =>
      by_cases hfile : file ∈ s.recorded
      · obtain ⟨s', hreach, hfinal⟩ := ih (hpassed.next hfile) hrecorded heffects hheld
        have hcheck : MigrationCall.advance files .answered s (.checking (file :: rest)) =
            some (s, .checking rest) := by
          simp [MigrationCall.advance, proceed, hfile]
        exact ⟨s', (System.reachable_last calls hcheck).trans hreach, hfinal⟩
      · have hnames := hpassed.next_file hrecorded hfile
        have hnext : s.recorded ++ [file] = files.names.take (s.recorded.length + 1) := by
          rw [hnames, List.take_append, List.take_of_length_le (by omega)]
          simp
        obtain ⟨s', hreach, hfinal⟩ := ih (s := ⟨s.recorded ++ [file], s.effects ++ [file], []⟩)
          ((hpassed.mono fun f hf => List.mem_append_left _ hf).next (by simp)) hnext
          (by rw [heffects, ← hrecorded, hnext]) rfl
        have hcheck : MigrationCall.advance files .answered s (.checking (file :: rest)) =
            some (s, .reading file rest) := by
          simp [MigrationCall.advance, proceed, hfile]
        have hinsert : MigrationCall.advance files .answered s (.inserting file rest ⟨[file], []⟩) =
            some ({ s with held := [file] }, .committing file rest ⟨[file], [file]⟩) := by
          simp [MigrationCall.advance, insertVersion, hheld, hfile]
        have hcommit : MigrationCall.advance files .answered { s with held := [file] }
            (.committing file rest ⟨[file], [file]⟩) =
            some (⟨s.recorded ++ [file], s.effects ++ [file], []⟩, .checking rest) := by
          simp [MigrationCall.advance, commit, proceed]
        refine ⟨s', ?_, hfinal⟩
        refine (System.reachable_last calls hcheck).trans ?_
        refine (System.reachable_last (x := .answered) calls rfl).trans ?_
        refine (System.reachable_last (x := .answered) calls rfl).trans ?_
        refine (System.reachable_last (x := .answered) calls rfl).trans ?_
        refine (System.reachable_last calls hinsert).trans ?_
        exact (System.reachable_last calls hcommit).trans hreach

/-- In every run, whatever fails: the recorded versions are the first files and the SQL of
exactly these has taken effect, once each; a call that has returned nil leaves all of them
applied; a call goes on with a file only if that is the first one not applied; and a call
that nothing disturbs applies all that are left. -/
theorem migrations_advance_in_order {n : ℕ} {t : State Schema MigrationCall}
    (h : Reachable (migrationSystem files).step (Schema.start files n) t) :
    (∃ k, t.store.recorded = files.names.take k ∧ t.store.effects = files.names.take k) ∧
    (∀ i : ℕ, t.calls[i]? = some (.returned true) → t.store.recorded = files.names) ∧
    (∀ (i : ℕ) reply file rest u, t.calls[i]? = some (.checking (file :: rest)) →
      (migrationSystem files).step t (.advance i reply) = some u →
      u.calls[i]? = some (.reading file rest) → files.names = t.store.recorded ++ file :: rest) ∧
    (t.store.held = [] → ∃ u, Reachable (migrationSystem files).step t u ∧
      u.calls = t.calls ++ [.returned true] ∧ u.store.recorded = files.names ∧
      u.store.effects = files.names) := by
  have hconsistent := consistent_of_reachable h
  obtain ⟨k, hrecorded, heffects⟩ := hconsistent.applied
  refine ⟨⟨k, hrecorded, heffects⟩, ?_, ?_, ?_⟩
  · intro i hcall
    have hpassed : t.store.Passed files [] := hconsistent.holds i _ hcall
    exact hpassed.all hrecorded
  · intro i reply file rest u hcall hstep hreading
    have hpassed : t.store.Passed files (file :: rest) := hconsistent.holds i _ hcall
    apply hpassed.next_file hrecorded
    intro hfile
    rcases System.step_cases hstep with
      ⟨request, haction, _⟩ | ⟨j, reply', call, s', call', haction, hcall', hadvance, rfl⟩
    · cases haction
    · cases haction
      obtain rfl := Option.some.inj (hcall.symm.trans hcall')
      rw [List.getElem?_set_self (List.getElem?_eq_some_iff.mp hcall).1] at hreading
      obtain rfl := Option.some.inj hreading
      have hnext := (Prod.mk.inj (Option.some.inj hadvance)).2
      rw [if_pos hfile] at hnext
      rcases proceed_cases reply (.checking rest) with heq | heq
      · rw [heq] at hnext
        cases hnext
      · rw [heq] at hnext
        cases hnext
  · intro hheld
    have hpassed : t.store.Passed files files.names := ⟨[], rfl, by simp⟩
    obtain ⟨s', hreach, hfinal⟩ := completes_alone t.calls hpassed hrecorded heffects hheld
    refine ⟨⟨s', t.calls ++ [.returned true]⟩, ?_, rfl, hfinal⟩
    have hspawn : (migrationSystem files).step t (.spawn ()) =
        some ⟨t.store, t.calls ++ [.creating]⟩ := rfl
    refine (Reachable.of_step hspawn).trans ?_
    refine (System.reachable_last (x := .answered) t.calls rfl).trans ?_
    exact (System.reachable_last (x := .answered) t.calls rfl).trans hreach

def sampleFiles : MigrationFiles := ⟨["1".toList, "2".toList], by decide⟩

/-- Two replicas find the first file unapplied, and the first to insert its version wins. -/
def sampleRace : List (Action Unit Reply) :=
  [.spawn (), .spawn ()] ++ List.replicate 6 (.advance 0 .answered) ++
    List.replicate 6 (.advance 1 .answered) ++
    [.advance 0 .answered, .advance 0 .answered, .advance 1 .answered]

theorem migrations_advance_in_order_sample : ∃ t,
    Reachable (migrationSystem sampleFiles).step (Schema.start sampleFiles 0) t ∧
    t.calls = [.checking ["2".toList], .returned false] ∧ t.store.recorded = ["1".toList] ∧
    ∃ u, Reachable (migrationSystem sampleFiles).step t u ∧
      u.calls = t.calls ++ [.returned true] ∧ u.store.effects = sampleFiles.names := by
  have hrun : (run (migrationSystem sampleFiles).step (Schema.start sampleFiles 0) sampleRace).map
      (fun t => (t.calls, t.store)) =
        some ([.checking ["2".toList], .returned false], ⟨["1".toList], ["1".toList], []⟩) := by
    decide +kernel
  obtain ⟨t, hreach, hend⟩ := Reachable.of_map hrun
  obtain ⟨hcalls, hstore⟩ := Prod.mk.inj hend
  obtain ⟨u, hu, hucalls, _, heffects⟩ :=
    (migrations_advance_in_order hreach).2.2.2 (by rw [hstore])
  exact ⟨t, hreach, hcalls, by rw [hstore], u, hu, hucalls, heffects⟩

end SecureShare.Database
