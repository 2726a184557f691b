import SecureShare.Auth.Users
import Mathlib.Data.Fintype.Defs

/-!
# Concurrent updates of a user

An update writes back the columns that its patch leaves out as they were when it
read them, so an update that was executed in between is undone. In a run in which
no UPDATE writes back what is no longer so, a column always holds the value of the
last patch that sets it.
-/
namespace SecureShare.Auth
open Go Library Library.Transition
open Library.Interleaving (System State Reply Action)
open Delivery (UUID)

inductive UserField where
  | username | email | role | status | forcePasswordChange
  deriving DecidableEq, Repr

instance : Fintype UserField where
  elems := {.username, .email, .role, .status, .forcePasswordChange}
  complete f := by cases f <;> decide

def UserField.Value : UserField → Type
  | .username | .email => Text
  | .role => Role
  | .status => UserStatus
  | .forcePasswordChange => Bool

instance : (f : UserField) → DecidableEq f.Value
  | .username | .email => inferInstanceAs (DecidableEq Text)
  | .role => inferInstanceAs (DecidableEq Role)
  | .status => inferInstanceAs (DecidableEq UserStatus)
  | .forcePasswordChange => inferInstanceAs (DecidableEq Bool)

def User.column (user : User) : (f : UserField) → f.Value
  | .username => user.username
  | .email => user.email
  | .role => user.role
  | .status => user.status
  | .forcePasswordChange => user.forcePasswordChange

def UserColumns.column (c : UserColumns) : (f : UserField) → f.Value
  | .username => c.username
  | .email => c.email
  | .role => c.role
  | .status => c.status
  | .forcePasswordChange => c.forcePasswordChange

/-- The value that a patch gives a field, which is trimmed and checked. -/
def UserPatch.value (fns : CaseFunctions) (patch : UserPatch) : (f : UserField) → Option f.Value
  | .username => patch.username.map trimSpace
  | .email => patch.email.map fun email => trimSpace (fns.toLower email)
  | .role => patch.role.bind fun role => validRole (trimSpace role)
  | .status => patch.status.bind fun status => validStatus (trimSpace status)
  | .forcePasswordChange => patch.forcePasswordChange

/-- Everything but these five columns and the time of the last update. -/
def UserWithPassword.SameApart (r r' : UserWithPassword) : Prop :=
  r'.id = r.id ∧ r'.themePreference = r.themePreference ∧ r'.lastLoginAt = r.lastLoginAt ∧
    r'.passwordChangedAt = r.passwordChangedAt ∧ r'.createdAt = r.createdAt ∧
    r'.passwordHash = r.passwordHash

/-- `current` is the answer of the SELECT, `columns` what is computed from it. -/
inductive UpdatePhase where
  | selecting
  | updating (current : User) (columns : UserColumns)
  | answered (user : User)
  | refused
  deriving DecidableEq, Repr

structure UpdateCall where
  id : UUID
  patch : UserPatch
  phase : UpdatePhase
  deriving DecidableEq, Repr

inductive UpdateRequest where
  | updateUser (id : UUID) (patch : UserPatch)
  | setUserStatus (id : UUID) (status : Text)
  deriving DecidableEq, Repr

def UpdateRequest.call : UpdateRequest → UpdateCall
  | .updateUser id patch => ⟨id, patch, .selecting⟩
  | .setUserStatus id status => ⟨id, ⟨none, none, none, some status, none⟩, .selecting⟩

structure UpdateInputs where
  reply : Reply
  databaseNow : ℤ
  deriving DecidableEq, Repr

/-- One statement of `UpdateUser`. -/
def UpdateCall.advance (fns : CaseFunctions) (inputs : UpdateInputs) (t : UserTable)
    (call : UpdateCall) : Option (UserTable × UpdateCall) :=
  match call.phase with
  | .selecting =>
    some (t, { call with phase :=
      match (inputs.reply.apply t ((Repository.userByID t call.id).map fun user => (t, user))).2 with
      | none => .refused
      | some current =>
        match call.patch.columns fns current with
        | none => .refused
        | some columns => .updating current columns })
  | .updating _ columns =>
    let r := inputs.reply.apply t (Repository.updateColumns inputs.databaseNow t call.id columns)
    some (r.1, { call with phase :=
      match r.2 with
      | none => .refused
      | some user => .answered user })
  | .answered _ | .refused => none

/-- Any number of calls of `UpdateUser` and `SetUserStatus`. -/
def updateSystem (fns : CaseFunctions) : System UserTable UpdateCall UpdateRequest UpdateInputs where
  start := UpdateRequest.call
  advance inputs t call := call.advance fns inputs t

/-- Where the next statement of the call is the UPDATE, what it writes back is so. -/
def WritesBackCurrent (fns : CaseFunctions) (_ : UpdateInputs) (t : UserTable)
    (call : UpdateCall) : Prop :=
  match call.phase with
  | .updating current _ => ∀ r ∈ t.find (·.id) call.id, ∀ f, call.patch.value fns f = none →
      r.column f = current.column f
  | _ => True

instance (fns : CaseFunctions) (inputs : UpdateInputs) (t : UserTable) (call : UpdateCall) :
    Decidable (WritesBackCurrent fns inputs t call) := by
  unfold WritesBackCurrent
  split <;> infer_instance

variable {fns : CaseFunctions} {inputs : UpdateInputs} {t t' : UserTable} {call call' : UpdateCall}

/-- A field of what is written is the patched value, or the one that was read. -/
theorem UserPatch.columns_column {patch : UserPatch} {current : User} {c : UserColumns}
    (h : patch.columns fns current = some c) (f : UserField) :
    c.column f = (patch.value fns f).getD (current.column f) := by
  obtain ⟨username, email, role, status, force⟩ := patch
  unfold UserPatch.columns at h
  dsimp only at h
  split at h
  · next role' status' hrole hstatus =>
    split_ifs at h
    cases h
    cases f with
    | username => cases username <;> rfl
    | email => cases email <;> rfl
    | role =>
        cases role with
        | none => exact (Option.some.inj hrole).symm
        | some text =>
            change role' = (validRole (trimSpace text)).getD _
            rw [show validRole (trimSpace text) = some role' from hrole]
            rfl
    | status =>
        cases status with
        | none => exact (Option.some.inj hstatus).symm
        | some text =>
            change status' = (validStatus (trimSpace text)).getD _
            rw [show validStatus (trimSpace text) = some status' from hstatus]
            rfl
    | forcePasswordChange => rfl
  · cases h

theorem UserColumns.write_column (c : UserColumns) (r : UserWithPassword) (f : UserField) :
    (c.write r).column f = c.column f := by
  cases f <;> rfl

/-- What one statement of a call does. -/
inductive UpdateStep (fns : CaseFunctions) (inputs : UpdateInputs) (t : UserTable)
    (call : UpdateCall) : UserTable → UpdateCall → Prop
  | read (phase : UpdatePhase) : call.phase = .selecting →
      (∀ user, phase ≠ .answered user) →
      (∀ current c, phase = .updating current c → call.patch.columns fns current = some c) →
      UpdateStep fns inputs t call t { call with phase }
  | failed (current : User) (c : UserColumns) : call.phase = .updating current c →
      UpdateStep fns inputs t call t { call with phase := .refused }
  | written (current : User) (c : UserColumns) (t' : UserTable) (phase : UpdatePhase) :
      call.phase = .updating current c →
      Repository.updateRow inputs.databaseNow t call.id c.write = some t' →
      (phase = .refused ∨ ∃ user, phase = .answered user) →
      UpdateStep fns inputs t call t' { call with phase }

theorem UpdateCall.advance_step (h : call.advance fns inputs t = some (t', call')) :
    UpdateStep fns inputs t call t' call' := by
  unfold UpdateCall.advance at h
  split at h
  · next hphase =>
    cases h
    refine .read _ hphase (fun user h => ?_) fun current c h => ?_
    · split at h
      · cases h
      · split at h <;> cases h
    · split at h
      · cases h
      · next hread =>
        split at h
        · cases h
        · next hcolumns =>
          cases h
          exact hcolumns
  · next current c hphase =>
    rcases inputs.reply.apply_cases t
      (Repository.updateColumns inputs.databaseNow t call.id c) with
      hreply | ⟨u, user, hresult, hreply⟩
    · rw [hreply] at h
      cases h
      exact .failed current c hphase
    · obtain ⟨v, hv, hresult⟩ := Option.bind_eq_some_iff.mp hresult
      obtain ⟨_, _, heq⟩ := Option.map_eq_some_iff.mp hresult
      cases heq
      rcases hreply with hreply | hreply
      · rw [hreply] at h
        cases h
        exact .written current c u _ hphase hv (.inl rfl)
      · rw [hreply] at h
        cases h
        exact .written current c u _ hphase hv (.inr ⟨user, rfl⟩)
  · cases h
  · cases h

/-- The call has executed its UPDATE, or will execute none. -/
def UpdatePhase.Ended : UpdatePhase → Prop
  | .answered _ | .refused => True
  | .selecting | .updating _ _ => False

/-- Column `f`, which held `v₀`, holds the value of a patch that has been written, or it
is as it was and no completed call sets it. -/
def LastWritten (fns : CaseFunctions) (id : UUID) (calls : List UpdateCall) (f : UserField)
    (v₀ v : f.Value) : Prop :=
  (∃ (i : ℕ) (call : UpdateCall), calls[i]? = some call ∧ call.id = id ∧ call.phase.Ended ∧
    call.patch.value fns f = some v) ∨
  v = v₀ ∧ ∀ (i : ℕ) (call : UpdateCall) user, calls[i]? = some call → call.id = id →
    call.phase = .answered user → call.patch.value fns f = none

/-- The row of the user in a run that writes back nothing stale. -/
def Merged (fns : CaseFunctions) (id : UUID) (r₀ : UserWithPassword)
    (s : State UserTable UpdateCall) : Prop :=
  ∃ r, s.store.find (·.id) id = some r ∧ r₀.SameApart r ∧
    ∀ f, LastWritten fns id s.calls f (r₀.column f) (r.column f)

section step
variable {id : UUID} {r₀ r : UserWithPassword} {calls : List UpdateCall} {f : UserField} {i : ℕ}
  {v₀ v : f.Value} {phase : UpdatePhase}

theorem LastWritten.spawn (h : LastWritten fns id calls f v₀ v) (request : UpdateRequest) :
    LastWritten fns id (calls ++ [request.call]) f v₀ v := by
  rcases h with ⟨j, other, hother, hended⟩ | ⟨rfl, hnone⟩
  · refine .inl ⟨j, other, ?_, hended⟩
    rw [List.getElem?_append_left (List.getElem?_eq_some_iff.mp hother).1, hother]
  · refine .inr ⟨rfl, fun j other user hother hid hanswered => ?_⟩
    rw [List.getElem?_append] at hother
    split_ifs at hother
    · exact hnone j other user hother hid hanswered
    · obtain rfl := List.mem_singleton.mp (List.mem_of_getElem? hother)
      cases request <;> cases hanswered

/-- A call that moves on writes no other value. -/
theorem LastWritten.set (h : LastWritten fns id calls f v₀ v) (hcall : calls[i]? = some call)
    (hopen : ¬call.phase.Ended)
    (hphase : ∀ user, phase = .answered user → call.id = id → call.patch.value fns f = none) :
    LastWritten fns id (calls.set i { call with phase }) f v₀ v := by
  rcases h with ⟨j, other, hother, hid, hended, hvalue⟩ | ⟨rfl, hnone⟩
  · refine .inl ⟨j, other, ?_, hid, hended, hvalue⟩
    rw [List.getElem?_set_ne, hother]
    rintro rfl
    obtain rfl := Option.some.inj (hcall.symm.trans hother)
    exact hopen hended
  · refine .inr ⟨rfl, fun j other user hother hid hanswered => ?_⟩
    rw [List.getElem?_set] at hother
    split_ifs at hother
    · cases hother
      exact hphase user hanswered hid
    · exact hnone j other user hother hid hanswered

/-- A call that has written its own value. -/
theorem LastWritten.of_set {k : UpdateCall} (hcall : calls[i]? = some k) (hid : call.id = id)
    (hended : call.phase.Ended) (hvalue : call.patch.value fns f = some v) :
    LastWritten fns id (calls.set i call) f v₀ v := by
  refine .inl ⟨i, call, ?_, hid, hended, hvalue⟩
  exact List.getElem?_set_self (List.getElem?_eq_some_iff.mp hcall).1

/-- What a call is about to write has been computed from what it has read. -/
theorem columns_of_reachable {table : UserTable} {s : State UserTable UpdateCall}
    (h : Reachable (updateSystem fns).step ⟨table, []⟩ s) {current : User} {c : UserColumns}
    (hcall : s.calls[i]? = some call) (hphase : call.phase = .updating current c) :
    call.patch.columns fns current = some c := by
  refine (System.assertions_of_reachable (J := fun _ => True) (K := fun _ _ call =>
    ∀ current c, call.phase = .updating current c → call.patch.columns fns current = some c) h
    trivial (fun i k hk => ?_) ?_ ?_).2 i call hcall current c hphase
  · cases hk
  · intro _ _ request _ _ current c hphase
    cases request <;> cases hphase
  · intro inputs i t call t' call' _ hcall hadvance
    refine ⟨trivial, fun current c hphase => ?_, fun _ _ _ h => h⟩
    cases UpdateCall.advance_step hadvance with
    | read _ _ _ hcolumns => exact hcolumns current c hphase
    | failed => cases hphase
    | written _ _ _ _ _ _ hended =>
        rcases hended with rfl | ⟨_, rfl⟩ <;> cases hphase

/-- The UPDATE of a call that writes back nothing stale, on the row of the user. -/
theorem LastWritten.write {c : UserColumns} {current : User} (hcall : calls[i]? = some call)
    (hphase₀ : call.phase = .updating current c) (hended : phase.Ended)
    (hcolumns : call.patch.columns fns current = some c)
    (hcurrent : call.patch.value fns f = none → r.column f = current.column f)
    (h : LastWritten fns call.id calls f v₀ (r.column f)) :
    LastWritten fns call.id (calls.set i { call with phase }) f v₀ (c.column f) := by
  have hopen : ¬call.phase.Ended := by
    rw [hphase₀]
    exact not_false
  rw [UserPatch.columns_column hcolumns f]
  cases hvalue : call.patch.value fns f with
  | none =>
      rw [Option.getD_none, ← hcurrent hvalue]
      exact h.set hcall hopen fun _ _ _ => hvalue
  | some v => exact .of_set hcall rfl hended hvalue

theorem Merged.step {s u : State UserTable UpdateCall} {a : Action UpdateRequest UpdateInputs}
    (h : Merged fns id r₀ s)
    (hcolumns : ∀ (i : ℕ) (call : UpdateCall) current c, s.calls[i]? = some call →
      call.phase = .updating current c → call.patch.columns fns current = some c)
    (hstep : ((updateSystem fns).guarded (WritesBackCurrent fns)).step s a = some u) :
    Merged fns id r₀ u := by
  obtain ⟨r, hr, hsame, hlast⟩ := h
  rcases System.step_cases hstep with
    ⟨request, _, rfl⟩ | ⟨i, inputs, call, t', call', _, hcall, hadvance, rfl⟩
  · exact ⟨r, hr, hsame, fun f => (hlast f).spawn request⟩
  · obtain ⟨hcurrent, (hadvance : call.advance fns inputs s.store = some (t', call'))⟩ :=
      System.guarded_eq_some hadvance
    cases UpdateCall.advance_step hadvance with
    | read phase hphase hnot =>
        refine ⟨r, hr, hsame, fun f => (hlast f).set hcall ?_ fun user h => absurd h (hnot user)⟩
        rw [hphase]
        exact not_false
    | failed current c hphase =>
        refine ⟨r, hr, hsame, fun f => (hlast f).set hcall ?_ fun user h => ?_⟩
        · rw [hphase]
          exact not_false
        · cases h
    | written current c t' phase hphase hwrite hended =>
        have hfind := Repository.find_updateRow hwrite (fun _ => rfl) id
        rw [hr, Option.map_some] at hfind
        have hended : phase.Ended := by
          rcases hended with rfl | ⟨_, rfl⟩ <;> trivial
        split_ifs at hfind with hid
        · subst hid
          refine ⟨_, hfind, hsame, fun f => ?_⟩
          have hstays : call.patch.value fns f = none → r.column f = current.column f := by
            rw [WritesBackCurrent, hphase] at hcurrent
            exact hcurrent r hr f
          have hwritten := LastWritten.write hcall hphase hended
            (hcolumns i call current c hcall hphase) hstays (hlast f)
          rwa [← c.write_column r] at hwritten
        · refine ⟨r, hfind, hsame, fun f => (hlast f).set hcall ?_ fun _ _ h => absurd h.symm hid⟩
          rw [hphase]
          exact not_false

end step

section main
variable {id : UUID} {r₀ : UserWithPassword} {table : UserTable} {s : State UserTable UpdateCall}

theorem merged_of_reachable (hr : table.find (·.id) id = some r₀)
    (h : Reachable ((updateSystem fns).guarded (WritesBackCurrent fns)).step ⟨table, []⟩ s) :
    Merged fns id r₀ s := by
  refine h.induction ⟨r₀, hr, ⟨rfl, rfl, rfl, rfl, rfl, rfl⟩, fun f => .inr ⟨rfl, ?_⟩⟩ ?_
  · intro i call user hcall
    cases hcall
  · intro u a v hu hmerged hstep
    exact hmerged.step (fun i call current c => columns_of_reachable
      (System.reachable_of_guarded hu)) hstep

/-- In every run in which no UPDATE writes back what is no longer so: once all calls on
a user have succeeded, and their patches set different fields, each field of the row
holds the value of the patch that sets it, or is unchanged, as all other columns are. -/
theorem disjoint_updates_merge (hr : table.find (·.id) id = some r₀)
    (h : Reachable ((updateSystem fns).guarded (WritesBackCurrent fns)).step ⟨table, []⟩ s)
    (hsucceeded : ∀ (i : ℕ) call, s.calls[i]? = some call → call.id = id →
      ∃ user, call.phase = .answered user)
    (hdisjoint : ∀ (i j : ℕ) call other, i ≠ j → s.calls[i]? = some call →
      s.calls[j]? = some other → call.id = id → other.id = id →
      ∀ f, call.patch.value fns f = none ∨ other.patch.value fns f = none) :
    ∃ r, s.store.find (·.id) id = some r ∧ r₀.SameApart r ∧
      (∀ (i : ℕ) call, s.calls[i]? = some call → call.id = id →
        ∀ f v, call.patch.value fns f = some v → r.column f = v) ∧
      ∀ f, (∀ (i : ℕ) call, s.calls[i]? = some call → call.id = id →
        call.patch.value fns f = none) → r.column f = r₀.column f := by
  obtain ⟨r, hfind, hsame, hlast⟩ := merged_of_reachable hr h
  refine ⟨r, hfind, hsame, fun i call hcall hid f v hv => ?_, fun f hnone => ?_⟩
  · obtain ⟨user, hanswered⟩ := hsucceeded i call hcall hid
    rcases hlast f with ⟨j, other, hother, hotherID, _, hvalue⟩ | ⟨_, hunset⟩
    · by_cases hij : i = j
      · subst hij
        obtain rfl := Option.some.inj (hcall.symm.trans hother)
        exact Option.some.inj (hvalue.symm.trans hv)
      · rcases hdisjoint i j call other hij hcall hother hid hotherID f with hnot | hnot
        · rw [hv] at hnot
          cases hnot
        · rw [hvalue] at hnot
          cases hnot
    · have hnot := hunset i call user hcall hid hanswered
      rw [hv] at hnot
      cases hnot
  · rcases hlast f with ⟨j, other, hother, hotherID, _, hvalue⟩ | ⟨heq, _⟩
    · have hnot := hnone j other hother hotherID
      rw [hvalue] at hnot
      cases hnot
    · exact heq

end main

def sampleRename : UserPatch := ⟨some "bob".toList, none, none, none, none⟩

def sampleDisable : UserPatch := ⟨none, none, none, some "disabled".toList, none⟩

def sampleUpdateInputs : UpdateInputs := ⟨.answered, 5⟩

/-- The user is renamed, then disabled. -/
def sampleUpdates : List (Action UpdateRequest UpdateInputs) :=
  [.spawn (.updateUser 1 sampleRename), .spawn (.setUserStatus 1 "disabled".toList),
    .advance 0 sampleUpdateInputs, .advance 0 sampleUpdateInputs, .advance 1 sampleUpdateInputs,
    .advance 1 sampleUpdateInputs]

/-- Each call runs between the SELECT and the UPDATE of the other. -/
def sampleOverlap : List (Action UpdateRequest UpdateInputs) :=
  [.spawn (.updateUser 1 sampleRename), .spawn (.setUserStatus 1 "disabled".toList),
    .advance 0 sampleUpdateInputs, .advance 1 sampleUpdateInputs, .advance 1 sampleUpdateInputs,
    .advance 0 sampleUpdateInputs]

def sampleRenamed : User := { sampleUser.toUser with username := "bob".toList, updatedAt := 5 }

theorem sampleUpdates_calls :
    ((run ((updateSystem sampleCase).guarded (WritesBackCurrent sampleCase)).step
      ⟨sampleUsers, []⟩ sampleUpdates).map State.calls) = some
        [⟨1, sampleRename, .answered sampleRenamed⟩,
          ⟨1, sampleDisable, .answered { sampleRenamed with status := .disabled }⟩] := by
  decide +kernel

theorem sample_patches_disjoint (f : UserField) :
    sampleRename.value sampleCase f = none ∨ sampleDisable.value sampleCase f = none := by
  cases f with
  | username => exact .inr rfl
  | email | role | status | forcePasswordChange => exact .inl rfl

theorem disjoint_updates_merge_sample : ∃ s r,
    Reachable ((updateSystem sampleCase).guarded (WritesBackCurrent sampleCase)).step
      ⟨sampleUsers, []⟩ s ∧
    s.store.find (·.id) 1 = some r ∧ r.username = "bob".toList ∧ r.status = .disabled := by
  obtain ⟨s, hs, hcalls⟩ := Reachable.of_map sampleUpdates_calls
  have hsucceeded : ∀ (i : ℕ) call, s.calls[i]? = some call → call.id = 1 →
      ∃ user, call.phase = .answered user := by
    intro i call hcall _
    rw [hcalls] at hcall
    have hmem := List.mem_of_getElem? hcall
    simp only [List.mem_cons, List.not_mem_nil, or_false] at hmem
    rcases hmem with rfl | rfl <;> exact ⟨_, rfl⟩
  have hdisjoint : ∀ (i j : ℕ) call other, i ≠ j → s.calls[i]? = some call →
      s.calls[j]? = some other → call.id = 1 → other.id = 1 →
      ∀ f, call.patch.value sampleCase f = none ∨ other.patch.value sampleCase f = none := by
    intro i j call other hij hcall hother _ _ f
    rw [hcalls] at hcall hother
    rcases i with _ | _ | i
    · rcases j with _ | _ | j
      · exact absurd rfl hij
      · cases hcall
        cases hother
        exact sample_patches_disjoint f
      · cases hother
    · rcases j with _ | _ | j
      · cases hcall
        cases hother
        exact (sample_patches_disjoint f).symm
      · exact absurd rfl hij
      · cases hother
    · cases hcall
  have hr : sampleUsers.find (·.id) 1 = some sampleUser := rfl
  obtain ⟨r, hfind, _, hset, _⟩ := disjoint_updates_merge hr hs hsucceeded hdisjoint
  have hrename : s.calls[0]? = some ⟨1, sampleRename, .answered sampleRenamed⟩ := by
    rw [hcalls]
    rfl
  have hdisable : s.calls[1]? =
      some ⟨1, sampleDisable, .answered { sampleRenamed with status := .disabled }⟩ := by
    rw [hcalls]
    rfl
  exact ⟨s, r, hs, hfind, hset 0 _ hrename rfl .username _ rfl, hset 1 _ hdisable rfl .status _ rfl⟩

/-- The disable has succeeded before the rename has, and the user is active. -/
theorem completed_disable_undone :
    ((run (updateSystem sampleCase).step ⟨sampleUsers, []⟩ sampleOverlap).map
        fun s => (s.calls, (s.store.find (·.id) 1).map (·.status))) = some
      ([⟨1, sampleRename, .answered sampleRenamed⟩,
        ⟨1, sampleDisable, .answered
          { sampleUser.toUser with status := .disabled, updatedAt := 5 }⟩],
      some .active) ∧
    ∀ f, sampleRename.value sampleCase f = none ∨ sampleDisable.value sampleCase f = none :=
  ⟨by decide +kernel, sample_patches_disjoint⟩

end SecureShare.Auth
