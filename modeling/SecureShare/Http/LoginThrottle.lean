import SecureShare.Auth.LoginNames
import SecureShare.Http.RateLimit
import SecureShare.Http.Request

/-!
# Limits on logging in

Whoever logs in is limited by the hash of an address together with the login as it is
typed, while a user is found by either of two names. All guesses at the password of a
user share one window as long as they are typed with one name; with both names there are
two.
-/
namespace SecureShare.Http
open Go Library Library.Transition Library.FixedWindow
open Auth (CaseFunctions UserTable UserWithPassword normalizeLogin)

/-- `Registry.Login` -/
def loginLimit : Limit := ⟨10, 15 * minute⟩

/-- The login that `handleLogin` reads; a form has no `email`. -/
def LoginBody.typed (body : LoginBody) : Text :=
  if body.login ≠ [] then body.login
  else if body.username ≠ [] then body.username
  else body.email

/-- `pick` is the row that the database answers with, if it finds several. -/
inductive LoginCall where
  | login (ipHash : Text) (body : LoginBody) (pick : ℕ)
  | cleanup
  deriving DecidableEq, Repr

structure LoginDesk where
  fns : CaseFunctions
  users : UserTable

namespace LoginDesk
variable (desk : LoginDesk) (user : UserWithPassword) (ipHash name : Text)

/-- `limitKey` -/
def limitKey (ipHash login : Text) : Text :=
  limiterKey (ipHash ++ ":".toList ++ normalizeLogin desk.fns login)

/-- What a call means to `Registry.Login`. -/
def op : LoginCall → Op Text
  | .login ipHash body _ => .allow (desk.limitKey ipHash body.typed)
  | .cleanup => .cleanup

/-- `UserForLogin` -/
def userForLogin (login : Text) (pick : ℕ) : Option UserWithPassword :=
  let rows := Auth.Repository.usersForLogin desk.users desk.fns login
  rows[pick % rows.length]?

/-- The call comes with this hash of an address, and its login finds this user. -/
def resolvesTo : LoginCall → Bool
  | .login ipHash' body pick => ipHash' = ipHash ∧ desk.userForLogin body.typed pick = some user
  | .cleanup => false

/-- The call verifies a password against the hash of this user, if it is granted. -/
def guesses (call : LoginCall) : Bool := desk.resolvesTo user ipHash call ∧ user.status = .active

/-- A call that finds the user is typed with this name. -/
def Spelled : LoginCall → Prop
  | .login ipHash' body pick => desk.resolvesTo user ipHash (.login ipHash' body pick) = true →
      normalizeLogin desk.fns body.typed = name
  | .cleanup => True

instance : DecidablePred (desk.Spelled user ipHash name) := by
  intro call
  cases call <;> unfold Spelled <;> infer_instance

/-- No window is open in which such a call would be counted. -/
def Closed (now : ℤ) (s : Account Text LoginCall) (call : LoginCall) : Prop :=
  ∀ key, desk.op call = .allow key → sweep now (s.buckets key) = none

/-- Between the two moments at most ten guesses are granted. -/
def AtMostTen (s v : Account Text LoginCall) : Prop :=
  ∃ calls, v.granted = calls ++ s.granted ∧ calls.countP (desk.guesses user ipHash) ≤ 10

/-- In the fifteen minutes from a request that finds the user and opens the first window, at
most ten guesses are granted. -/
def Throttled : Prop :=
  ∀ clock s a u v, Reachable (Account.step loginLimit desk.op) (.init clock) s →
    desk.resolvesTo user ipHash a.2 = true →
    (∀ call, desk.resolvesTo user ipHash call = true → desk.Closed a.1 s call) →
    Account.step loginLimit desk.op s a = some u →
    Reachable (Account.step loginLimit desk.op) u v → v.clock ≤ a.1 + loginLimit.window →
    desk.AtMostTen user ipHash s v

/-- The two names of an active user are one in lower case, as far as they can be typed. -/
def OneName : Prop := user.status = .active → ∀ login login',
  normalizeLogin desk.fns login = desk.fns.sqlLower user.username →
  normalizeLogin desk.fns login' = desk.fns.sqlLower user.email →
  normalizeLogin desk.fns login = normalizeLogin desk.fns login'

end LoginDesk

variable {desk : LoginDesk} {user : UserWithPassword} {ipHash name : Text}
  {s u v : Account Text LoginCall} {a : ℤ × LoginCall}

/-- The login of a call that finds the user is one of the two names. -/
theorem LoginDesk.resolvesTo_eq_true {call : LoginCall}
    (h : desk.resolvesTo user ipHash call = true) :
    ∃ body pick, call = .login ipHash body pick ∧
      (desk.fns.sqlLower user.username = normalizeLogin desk.fns body.typed ∨
        desk.fns.sqlLower user.email = normalizeLogin desk.fns body.typed) := by
  cases call with
  | cleanup => cases h
  | login ipHash' body pick =>
      obtain ⟨rfl, hfound⟩ := of_decide_eq_true h
      exact ⟨body, pick, rfl, (Auth.mem_usersForLogin.mp (List.mem_of_getElem? hfound)).2⟩

/-- Guesses that are all typed with one name are limited together. -/
theorem atMostTen_of_spelled (hresolves : desk.resolvesTo user ipHash a.2 = true)
    (hspelled : desk.Spelled user ipHash name a.2) (hclosed : desk.Closed a.1 s a.2)
    (hstep : Account.step loginLimit desk.op s a = some u)
    (hrun : Reachable (restrict (fun _ b => desk.Spelled user ipHash name b.2)
      (Account.step loginLimit desk.op)) u v) (htime : v.clock ≤ a.1 + loginLimit.window) :
    desk.AtMostTen user ipHash s v := by
  have hkey : ∀ call, desk.Spelled user ipHash name call → desk.resolvesTo user ipHash call = true →
      desk.op call = .allow (limiterKey (ipHash ++ ":".toList ++ name)) := by
    intro call hspelled hresolves
    obtain ⟨body, pick, rfl, _⟩ := LoginDesk.resolvesTo_eq_true hresolves
    rw [LoginDesk.op, LoginDesk.limitKey, hspelled hresolves]
  have hop := hkey a.2 hspelled hresolves
  obtain ⟨_, hopened, hgranted, _, hbucket, _⟩ :=
    Account.exists_opened hop (hclosed _ hop) (Account.step_clock hstep).1
  cases hopened.symm.trans hstep
  obtain ⟨calls, hcalls, hall, hlimit, _⟩ :=
    Account.counts_of_reachable hrun hbucket (show 1 ≤ 10 by decide) htime
  refine ⟨calls ++ [a.2], ?_, ?_⟩
  · rw [hcalls, hgranted, List.append_assoc]
    rfl
  · have hbound : ((calls ++ [a.2]).countP fun call =>
        desk.op call = .allow (limiterKey (ipHash ++ ":".toList ++ name)) : ℤ) ≤ 10 := by
      rw [List.countP_append, List.countP_singleton, if_pos (by simpa using hop)]
      have : loginLimit.limit = 10 := rfl
      dsimp only at hlimit
      omega
    have hcount := countP_le_turns (p := desk.guesses user ipHash) hbound fun call hcall hguess => by
      have hresolves := (of_decide_eq_true hguess).1
      rcases List.mem_append.mp hcall with hcall | hcall
      · exact hkey call (hall call hcall) hresolves
      · rw [List.mem_singleton.mp hcall]
        exact hop
    exact_mod_cast hcount

/-- The restriction to calls that all meet it changes nothing. -/
theorem reachable_spelled (hall : ∀ call, desk.Spelled user ipHash name call)
    (h : Reachable (Account.step loginLimit desk.op) u v) :
    Reachable (restrict (fun _ b => desk.Spelled user ipHash name b.2)
      (Account.step loginLimit desk.op)) u v := by
  apply h.preserves (.refl u)
  intro w b x hw hstep
  exact hw.tail (restrict_eq_some.mpr ⟨hall b.2, hstep⟩)

/-- All calls that find a user of one name are typed with it. -/
theorem spelled_of_oneName (hactive : user.status = .active) (hone : desk.OneName user)
    {call : LoginCall} (h : desk.resolvesTo user ipHash call = true) :
    ∃ name, ∀ call, desk.Spelled user ipHash name call := by
  obtain ⟨body, pick, rfl, hname⟩ := LoginDesk.resolvesTo_eq_true h
  refine ⟨normalizeLogin desk.fns body.typed, fun call' => ?_⟩
  cases call' with
  | cleanup => trivial
  | login ipHash' body' pick' =>
      intro h'
      obtain ⟨_, _, heq, hname'⟩ := LoginDesk.resolvesTo_eq_true h'
      cases heq
      rcases hname with hname | hname <;> rcases hname' with hname' | hname'
      · exact hname'.symm.trans hname
      · exact (hone hactive _ _ hname.symm hname'.symm).symm
      · exact hone hactive _ _ hname'.symm hname.symm
      · exact hname'.symm.trans hname

theorem throttled_of_oneName (hone : desk.OneName user) : desk.Throttled user ipHash := by
  intro clock s a u v _ hresolves hclosed hstep hrun htime
  by_cases hactive : user.status = .active
  · obtain ⟨name, hall⟩ := spelled_of_oneName hactive hone hresolves
    exact atMostTen_of_spelled hresolves (hall a.2) (hclosed a.2 hresolves) hstep
      (reachable_spelled hall hrun) htime
  · obtain ⟨calls, hcalls⟩ := Account.granted_append ((Reachable.of_step hstep).trans hrun)
    refine ⟨calls, hcalls, ?_⟩
    have hnone : calls.countP (desk.guesses user ipHash) = 0 := by
      rw [List.countP_eq_zero]
      intro call _ hguess
      exact hactive (of_decide_eq_true hguess).2
    omega

/-- A login that is one of the names can be typed so that it finds the user. -/
theorem exists_call (huser : user ∈ desk.users.rows) (ipHash : Text) {login : Text}
    (h : desk.fns.sqlLower user.username = normalizeLogin desk.fns login ∨
      desk.fns.sqlLower user.email = normalizeLogin desk.fns login) :
    ∃ call, desk.resolvesTo user ipHash call = true ∧
      desk.op call = .allow (desk.limitKey ipHash login) := by
  obtain ⟨i, hi⟩ := List.getElem?_of_mem (Auth.mem_usersForLogin.mpr ⟨huser, h⟩)
  have htyped : LoginBody.typed ⟨login, [], [], []⟩ = login := by
    cases login <;> rfl
  refine ⟨.login ipHash ⟨login, [], [], []⟩ i, decide_eq_true ⟨rfl, ?_⟩, by rw [LoginDesk.op, htyped]⟩
  have hlt : i < (Auth.Repository.usersForLogin desk.users desk.fns login).length :=
    (List.getElem?_eq_some_iff.mp hi).1
  rw [htyped, LoginDesk.userForLogin, Nat.mod_eq_of_lt hlt]
  exact hi

theorem limitKey_inj {login login' : Text} (h : desk.limitKey ipHash login = desk.limitKey ipHash login') :
    normalizeLogin desk.fns login = normalizeLogin desk.fns login' := by
  have hkey : ∀ login, desk.limitKey ipHash login =
      ipHash ++ ":".toList ++ normalizeLogin desk.fns login := by
    intro login
    exact if_neg (by simp)
  rw [hkey, hkey] at h
  exact List.append_cancel_left h

/-- With two names there are ten guesses with the one, and then another with the other. -/
theorem oneName_of_throttled (huser : user ∈ desk.users.rows) (h : desk.Throttled user ipHash) :
    desk.OneName user := by
  intro hactive login login' hlogin hlogin'
  by_contra hne
  obtain ⟨first, hfirst, hop⟩ := exists_call huser ipHash (.inl hlogin.symm)
  obtain ⟨second, hsecond, hop'⟩ := exists_call huser ipHash (.inr hlogin'.symm)
  have hkeys : desk.limitKey ipHash login' ≠ desk.limitKey ipHash login :=
    fun heq => hne (limitKey_inj heq).symm
  have hwindow : (0 : ℤ) ≤ 0 + loginLimit.window := by decide
  obtain ⟨u, hu, hgranted, hclock, hbucket, hothers⟩ := Account.exists_opened (l := loginLimit)
    (s := .init 0) (a := (0, first)) hop rfl le_rfl
  obtain ⟨t, ht, htclock, htgranted, _, htothers⟩ :=
    Account.exists_granted (l := loginLimit) (n := 9) hop hbucket (hclock.trans_le hwindow)
      (show 1 + 9 ≤ 10 by decide)
  have hclosed : t.buckets (desk.limitKey ipHash login') = none := by
    rw [htothers _ hkeys, hothers _ hkeys]
    rfl
  obtain ⟨v, hv, hvgranted, hvclock, _⟩ := Account.exists_opened (l := loginLimit) (s := t)
    (a := (0, second)) hop' (by rw [hclosed]; rfl) (by rw [htclock, hclock])
  have hall : v.granted = second :: (List.replicate 9 first ++ [first]) := by
    rw [hvgranted, htgranted, hgranted]
    rfl
  obtain ⟨calls, hcalls, hten⟩ := h 0 (.init 0) (0, first) u v (.refl _) hfirst
    (fun _ _ _ _ => rfl) hu (ht.tail hv) (hvclock.trans_le hwindow)
  have hguess : ∀ call ∈ calls, desk.guesses user ipHash call = true := by
    intro call hcall
    rw [Account.init, List.append_nil] at hcalls
    rw [← hcalls, hall] at hcall
    simp only [List.mem_cons, List.mem_append, List.mem_replicate, List.not_mem_nil, or_false]
      at hcall
    rcases hcall with rfl | ⟨_, rfl⟩ | rfl
    · exact decide_eq_true ⟨hsecond, hactive⟩
    · exact decide_eq_true ⟨hfirst, hactive⟩
    · exact decide_eq_true ⟨hfirst, hactive⟩
  have hlength : calls.length = 11 := by
    rw [← List.append_nil calls]
    exact (congrArg List.length (hcalls.symm.trans hall)).trans rfl
  rw [List.countP_eq_length.mpr hguess] at hten
  omega

/-- In the fifteen minutes after a request has opened a window, at most ten guesses at the
password of a user are granted in each run in which all logins that find the user are typed
with one name, and in all runs exactly if the user has but one name. -/
theorem login_throttled_iff (huser : user ∈ desk.users.rows) (ipHash : Text) :
    (∀ name clock s a u v, Reachable (Account.step loginLimit desk.op) (.init clock) s →
      desk.resolvesTo user ipHash a.2 = true → desk.Closed a.1 s a.2 →
      desk.Spelled user ipHash name a.2 →
      Account.step loginLimit desk.op s a = some u →
      Reachable (restrict (fun _ b => desk.Spelled user ipHash name b.2)
        (Account.step loginLimit desk.op)) u v →
      v.clock ≤ a.1 + loginLimit.window → desk.AtMostTen user ipHash s v) ∧
    (desk.Throttled user ipHash ↔ desk.OneName user) := by
  constructor
  · intro name clock s a u v _ hresolves hclosed hspelled hstep hrun htime
    exact atMostTen_of_spelled hresolves hspelled hclosed hstep hrun htime
  · exact ⟨oneName_of_throttled huser, throttled_of_oneName⟩

/-- A user whose username is the address. -/
def sampleBob : UserWithPassword :=
  { Auth.sampleUser with
    id := 2
    username := "bob@example.com".toList
    email := "bob@example.com".toList }

def sampleDesk : LoginDesk where
  fns := Auth.sampleCase
  users := (Table.ofRows [Auth.sampleUser, sampleBob]).getD .empty

theorem login_throttled_iff_sample : sampleDesk.Throttled sampleBob "h".toList := by
  have hbob : sampleBob ∈ sampleDesk.users.rows := by decide +kernel
  exact (login_throttled_iff hbob _).2.mpr fun _ _ _ h h' => h.trans h'.symm

/-- A guess that is typed with this login. -/
def sampleGuess (login : String) : ℤ × LoginCall :=
  (0, .login "h".toList ⟨login.toList, [], [], []⟩ 0)

/-- Ten guesses with the one name, and ten with the other. -/
def sampleGuesses : List (ℤ × LoginCall) :=
  sampleGuess "ann" ::
    (List.replicate 9 (sampleGuess "ann") ++ List.replicate 10 (sampleGuess " ann@example.com"))

/-- Twenty guesses at the password of one user are granted at one moment. -/
theorem both_names_double_the_limit : ¬sampleDesk.Throttled Auth.sampleUser "h".toList ∧ ∃ v,
    run (Account.step loginLimit sampleDesk.op) (.init 0) sampleGuesses = some v ∧ v.clock = 0 ∧
    v.granted.countP (sampleDesk.guesses Auth.sampleUser "h".toList) = 20 := by
  have hrun : (run (Account.step loginLimit sampleDesk.op) (.init 0) sampleGuesses).map (fun v =>
      (v.clock, v.granted.countP (sampleDesk.guesses Auth.sampleUser "h".toList))) =
      some (0, 20) := by
    decide +kernel
  obtain ⟨v, hv, houtcome⟩ := Option.map_eq_some_iff.mp hrun
  obtain ⟨hclock, hcount⟩ := Prod.mk.inj houtcome
  refine ⟨fun h => ?_, v, hv, hclock, hcount⟩
  obtain ⟨u, hu, hrest⟩ := Option.bind_eq_some_iff.mp hv
  have hresolves : sampleDesk.resolvesTo Auth.sampleUser "h".toList (sampleGuess "ann").2 = true := by
    decide +kernel
  obtain ⟨calls, hcalls, hten⟩ := h 0 (.init 0) (sampleGuess "ann") u v (.refl _) hresolves
    (fun _ _ _ _ => rfl) hu (.of_run hrest) (hclock.trans_le (by decide))
  rw [Account.init, List.append_nil] at hcalls
  rw [hcalls] at hcount
  omega

end SecureShare.Http
