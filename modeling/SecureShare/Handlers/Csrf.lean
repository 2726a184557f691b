import SecureShare.Handlers.Mediation

/-!
# CSRF

Where only the cookie is accepted, the routes for logging in and for revealing a secret aside,
nothing is changed before a CSRF token of the session has been accepted.
-/
namespace SecureShare.Handlers
open Go Library Http

section
variable {srv : Server} {r : Request}

/-- With the cookie alone, whatever a request changes it changes after its CSRF token has been
accepted for the session of the cookie. -/
theorem csrf_complete (hr : NeedsSession r) {rely : Store → Store → Prop} {s : Store}
    {pre post : List (Event Store Op Op.Answer)} {e : Event Store Op Op.Answer}
    (hrun : Program.Run (act srv) rely s (serve srv r) (pre ++ e :: post))
    (hclient : ¬BasicAccepted srv r ((pre ++ [e]).map Event.call))
    (hbearer : srv.acceptsBearer r = false) (hchange : ¬SameButSeen e.before e.after) :
    CSRFAccepted srv r (pre.map Event.call) := by
  obtain ⟨⟨_, hunforged⟩, _⟩ := serve_keeps hrun
  have hsub : pre.map Event.call ⊆ (pre ++ [e]).map Event.call := by simp
  obtain ⟨input, hact⟩ := hrun.event
  rcases hunforged with hkeeps | ⟨permission, client, hfound, htouch⟩ |
    (hclient' | hbearer' | hcsrf) | hpath
  · have hsame : SameButSeen e.before (act srv input e.before e.op).1 := act_keeps hkeeps
    rw [hact] at hsame
    exact absurd hsame hchange
  · -- the use of a Basic client is noted
    obtain ⟨before, op, answer, after⟩ := e
    obtain rfl : op = .touchAPIClient client.id := htouch
    exact absurd ⟨permission, client, hfound.mono hsub, answer, by simp [Event.call]⟩ hclient
  · exact absurd (hclient'.mono hsub) hclient
  · rw [hbearer] at hbearer'
    cases hbearer'
  · exact hcsrf
  · exact absurd hr hpath

end

/-- Chooses the dark theme. -/
def sampleThemeRequest : Request :=
  { signedIn Auth.sampleID .put with
    path := "/api/v1/me/preferences/theme".toList
    decode := fun kind => match kind with
      | .theme => .ok "dark".toList
      | _ => .error .mediaType }

def sampleThemeRun : List (Event Store Op Op.Answer) :=
  Program.execute (act sampleServer) sampleSession
    (handleThemePreference sampleServer sampleThemeRequest)
    [sampleHandlerInputs, sampleHandlerInputs]

theorem length_sampleThemeRun : 1 < sampleThemeRun.length := by decide +kernel

theorem run_sampleTheme : Program.Run (act sampleServer) (· = ·) sampleSession
    (serve sampleServer sampleThemeRequest) (sampleThemeRun.take 1 ++
      sampleThemeRun.get ⟨1, length_sampleThemeRun⟩ :: sampleThemeRun.drop 2) := by
  have hserve : serve sampleServer sampleThemeRequest =
      handleThemePreference sampleServer sampleThemeRequest := by rfl
  rw [hserve]
  exact Program.run_execute_at (fun _ => rfl) length_sampleThemeRun

theorem csrf_complete_sample : ∃ pre e post,
    Program.Run (act sampleServer) (· = ·) sampleSession (serve sampleServer sampleThemeRequest)
      (pre ++ e :: post) ∧ ¬SameButSeen e.before e.after ∧
    CSRFAccepted sampleServer sampleThemeRequest (pre.map Event.call) := by
  have hthemes : (sampleThemeRun.get ⟨1, length_sampleThemeRun⟩).after.auth.users.rows.map
      (·.themePreference) ≠ (sampleThemeRun.get ⟨1, length_sampleThemeRun⟩).before.auth.users.rows.map
        (·.themePreference) := by
    decide +kernel
  have hchange : ¬SameButSeen (sampleThemeRun.get ⟨1, length_sampleThemeRun⟩).before
      (sampleThemeRun.get ⟨1, length_sampleThemeRun⟩).after := by
    intro h
    exact hthemes (congrArg (fun users => users.rows.map (·.themePreference)) h.users)
  have hclient : ¬BasicAccepted sampleServer sampleThemeRequest ((sampleThemeRun.take 1 ++
      [sampleThemeRun.get ⟨1, length_sampleThemeRun⟩]).map Event.call) := by
    rintro ⟨_, _, ⟨_, _, _, hbasic, _⟩, _⟩
    cases hbasic
  have hneeds : NeedsSession sampleThemeRequest := ⟨by decide, by decide⟩
  exact ⟨_, _, _, run_sampleTheme, hchange,
    csrf_complete hneeds run_sampleTheme hclient (by decide +kernel) hchange⟩

end SecureShare.Handlers
