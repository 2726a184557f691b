import SecureShare.Handlers.AcceptedRow
import SecureShare.Handlers.AuditRows
import SecureShare.Handlers.Duties

/-!
# Creating a link

A create request either leaves the links as they are or inserts one row, and only where it
answers with the link. An email that fails is reported in that answer.
-/
namespace SecureShare.Handlers
open Go Library Http
open Auth (Actor)
open Delivery (UUID CreateRequest CreateResponse InsertParams ServiceError canonicalPayload)

/-- Operations that neither write links nor send email. -/
def Op.Quiet : Op → Prop
  | .smtp => False
  | op =>
    match op.part with
    | some .links => False
    | _ => True

/-- The mail server has taken the message. -/
def MailSent (calls : Calls) : Prop := ⟨.smtp, some none⟩ ∈ calls

/-- No link has been written, but for INSERTs that failed. -/
def Unwritten (calls : Calls) : Prop :=
  ∀ call ∈ calls, call.op.part = some .links → ∃ params, call = ⟨.insert params, none⟩

/-- One INSERT with the parameters of the request, and the link that it answers with. -/
def Inserted (srv : Server) (req : CreateRequest) (link : CreateResponse) (calls : Calls) : Prop :=
  ∃ before params after actorID token, calls = before ++ ⟨.insert params, some ()⟩ :: after ∧
    Unwritten before ∧ Unwritten after ∧
    ⟨.insertParams actorID req, some (.ok (params, token))⟩ ∈ before ∧
    link = ⟨params.id, srv.cfg.appBaseURL ++ "/s#".toList ++ token, params.expiresAt⟩

/-- What the answer says of the email. -/
structure Reported (plan : EmailDeliveryPlan) (sent : Prop) (email : EmailDeliveryResult) : Prop where
  requested : email.requested = plan.requested
  notRequested : email.status = .notRequested ↔ plan.requested = false
  sent : email.status = .sent ↔ sent

/-- A contract that allows everything. -/
def freeContract : Contract Op Op.Answer Calls := .ofCalls (fun _ _ => True) Possible

section
variable {srv : Server} {r : Request} {calls : Calls} {I : Calls → Prop} {sent : Prop} {α β : Type}
  {actor : Actor} {permission : Text}

theorem Op.Quiet.part_ne {op : Op} (h : op.Quiet) : op.part ≠ some .links := by
  intro hpart
  cases op with
  | smtp => cases hpart
  | _ => first | exact h | cases hpart

theorem Op.Quiet.ne_smtp {op : Op} (h : op.Quiet) : op ≠ .smtp := by
  rintro rfl
  exact h

theorem mailSent_call {op : Op} {answer : Option op.Answer} (h : op ≠ .smtp) :
    MailSent (calls ++ [⟨op, answer⟩]) ↔ MailSent calls := by
  refine ⟨fun hsent => (List.mem_append.mp hsent).resolve_right fun hcall => ?_,
    List.mem_append_left _⟩
  exact h (congrArg Call.op (List.mem_singleton.mp hcall)).symm

theorem Unwritten.call {op : Op} {answer : Option op.Answer} (h : Unwritten calls)
    (hop : op.part ≠ some .links) : Unwritten (calls ++ [⟨op, answer⟩]) := by
  intro call hcall hpart
  rcases List.mem_append.mp hcall with hcall | hcall
  · exact h call hcall hpart
  · obtain rfl := List.mem_singleton.mp hcall
    exact absurd hpart hop

theorem Inserted.call {req : CreateRequest} {link : CreateResponse} {op : Op}
    {answer : Option op.Answer} (h : Inserted srv req link calls) (hop : op.part ≠ some .links) :
    Inserted srv req link (calls ++ [⟨op, answer⟩]) := by
  obtain ⟨before, params, after, actorID, token, rfl, hbefore, hafter, hparams, hlink⟩ := h
  exact ⟨before, params, after ++ [⟨op, answer⟩], actorID, token, by simp, hbefore,
    hafter.call hop, hparams, hlink⟩

/-- What operations keep that write no link. -/
def KeptOffLinks (I : Calls → Prop) : Prop :=
  ∀ calls op answer, op.part ≠ some .links → I calls → I (calls ++ [⟨op, answer⟩])

theorem keptOffLinks_unwritten : KeptOffLinks Unwritten := fun _ _ _ hop h => h.call hop

theorem keptOffLinks_inserted {req : CreateRequest} {link : CreateResponse} :
    KeptOffLinks (Inserted srv req link) := fun _ _ _ hop h => h.call hop

/-- With no link written, and the email as before. -/
def Quietly (I : Calls → Prop) (sent : Prop) (calls : Calls) : Prop :=
  I calls ∧ (MailSent calls ↔ sent)

theorem Quietly.call {op : Op} {answer : Option op.Answer} (hI : KeptOffLinks I)
    (h : Quietly I sent calls) (hop : op.Quiet) : Quietly I sent (calls ++ [⟨op, answer⟩]) :=
  ⟨hI _ _ _ hop.part_ne h.1, (mailSent_call hop.ne_smtp).trans h.2⟩

theorem meets_quiet {p : Prog α} (hI : KeptOffLinks I) (h : p.Uses Op.Quiet)
    (hcalls : Quietly I sent calls) : p.Meets freeContract (fun calls _ => Quietly I sent calls) calls :=
  h.meets hcalls (fun _ _ _ _ => trivial) fun _ _ _ hcalls hop => hcalls.call hI hop

theorem meets_requireAPI (hI : KeptOffLinks I) (hcalls : Quietly I sent calls) :
    (requireAPI srv r permission).Meets freeContract (fun calls _ => Quietly I sent calls) calls := by
  have hadmits : Admits srv r (fun _ op => op.Quiet) Possible :=
    { now := fun _ => trivial
      session := fun _ _ _ => trivial
      client := fun _ _ _ _ => trivial
      touch := fun _ _ _ _ => trivial
      sessionNamed := fun _ _ h => h
      clientNamed := fun _ _ h => h }
  have hmeets : (requireAPI srv r permission).Meets (.ofCalls (fun _ op => op.Quiet) Possible) _ calls :=
    requireAPI_meets hadmits
  have hkept := hmeets.invariant hcalls fun _ _ _ hcalls hop => hcalls.call hI hop
  exact (hkept.mono fun _ _ h => h.1).weaken fun _ _ _ => trivial

/-! ### The email -/

theorem quiet_recordEmailAudit {type : String} {result : Text} :
    (recordEmailAudit srv r actor type result).Uses Op.Quiet :=
  uses_call trivial fun _ => Program.uses_pure

theorem meets_sendWith {usable : Email.StoredSettings → Bool} {recipient : Option Text}
    (hI : KeptOffLinks I) (hcalls : Quietly I False calls) :
    (sendWith srv usable recipient).Meets freeContract
      (fun calls failure => Quietly I (failure = none) calls) calls := by
  have hfailed : ∀ calls, ∀ category : Email.Category, Quietly I False calls →
      Quietly I (some category = none) calls :=
    fun _ category h => ⟨h.1, h.2.trans (iff_of_false id (Option.some_ne_none category))⟩
  refine meets_call trivial fun stored _ => ?_
  have hcalls : Quietly I False (calls ++ [⟨.getEmailSettings, stored⟩]) := hcalls.call hI trivial
  match stored with
  | none => exact hfailed _ _ hcalls
  | some none => exact hfailed _ _ hcalls
  | some (some stored) =>
    dsimp only
    split_ifs
    · exact hfailed _ _ hcalls
    · refine meets_call trivial fun answer _ => ⟨hI _ _ _ (fun hpart => nomatch hpart) hcalls.1, ?_⟩
      have hsent : MailSent (calls ++ [⟨.getEmailSettings, some (some stored)⟩] ++ [⟨.smtp, answer⟩]) ↔
          answer = some none := by
        constructor
        · intro h
          have hcall := (List.mem_append.mp h).resolve_left hcalls.2.mp
          exact (eq_of_heq (Call.mk.inj (List.mem_singleton.mp hcall)).2).symm
        · rintro rfl
          exact List.mem_append_right _ (List.mem_singleton.mpr rfl)
      refine hsent.trans ?_
      match answer with
      | none => exact iff_of_false (fun h => nomatch h) (Option.some_ne_none _)
      | some none => exact iff_of_true rfl rfl
      | some (some category) => exact iff_of_false (fun h => nomatch h) (Option.some_ne_none _)
    · exact hfailed _ _ hcalls

/-- What `sendCreatedEmail` reports. -/
def EmailSent (I : Calls → Prop) (calls : Calls) (email : EmailDeliveryResult) : Prop :=
  I calls ∧ email.requested = true ∧
    (email.status = .sent ∧ MailSent calls ∨ email.status = .failed ∧ ¬MailSent calls)

theorem emailSent_failed {toAddress : Text} {category : Email.Category}
    {source : Option Email.TemplateSource} (h : Quietly I False calls) :
    EmailSent I calls (failedEmailResult toAddress category source) :=
  ⟨h.1, rfl, .inr ⟨rfl, h.2.mp⟩⟩

theorem meets_sendMessage {plan : EmailDeliveryPlan} {retry : Bool} {source : Email.TemplateSource}
    (hI : KeptOffLinks I) (hcalls : Quietly I False calls) :
    (sendMessage srv r actor plan retry source).Meets freeContract (EmailSent I) calls := by
  refine (meets_quiet hI quiet_recordEmailAudit hcalls).bind fun calls _ hcalls => ?_
  split_ifs
  on_goal 1 => refine (meets_quiet hI quiet_recordEmailAudit hcalls).bind fun calls _ hcalls => ?_
  all_goals
    refine (meets_sendWith hI hcalls).bind fun calls failure hcalls => ?_
    cases failure with
    | none =>
        refine meets_call trivial fun sentAt _ => ?_
        have hcalls : Quietly I (none = none) (calls ++ [⟨.now, sentAt⟩]) := hcalls.call hI trivial
        refine (meets_quiet hI quiet_recordEmailAudit hcalls).bind fun calls _ hcalls => ?_
        exact ⟨hcalls.1, rfl, .inl ⟨rfl, hcalls.2.mpr rfl⟩⟩
    | some category =>
        refine (meets_quiet hI quiet_recordEmailAudit hcalls).bind fun calls _ hcalls => ?_
        exact ⟨hcalls.1, rfl, .inr ⟨rfl, fun h => nomatch hcalls.2.mp h⟩⟩

theorem meets_sendCreatedEmail {title : Text} {link : CreateResponse} {plan : EmailDeliveryPlan}
    {retry : Bool} (hI : KeptOffLinks I) (hcalls : Quietly I False calls) :
    (sendCreatedEmail srv r actor title link plan retry).Meets freeContract (EmailSent I) calls := by
  refine (meets_quiet hI (uses_safeEmailSettings trivial) hcalls).bind fun calls settings hcalls => ?_
  cases settings with
  | none => exact emailSent_failed hcalls
  | some settings =>
      refine meets_call trivial fun now _ => ?_
      have hcalls : Quietly I False (calls ++ [⟨.now, now⟩]) := hcalls.call hI trivial
      split
      · exact emailSent_failed hcalls
      · exact meets_sendMessage hI hcalls

/-! ### The link -/

/-- The part of `Service.Create` that calls the store. -/
theorem meets_create {actorID : Text} {req : CreateRequest} (hcalls : Quietly Unwritten False calls) :
    (create srv actorID req).Meets freeContract (fun calls result => match result with
      | .error _ => Quietly Unwritten False calls
      | .ok link => Quietly (Inserted srv req link) False calls) calls := by
  refine meets_call trivial fun answer _ => ?_
  have hcalls : Quietly Unwritten False (calls ++ [⟨.insertParams actorID req, answer⟩]) :=
    hcalls.call keptOffLinks_unwritten trivial
  match answer with
  | none => exact hcalls
  | some (.error e) => exact hcalls
  | some (.ok (params, token)) =>
    refine meets_call trivial fun inserted _ => ?_
    have hother : Op.insert params ≠ .smtp := by
      rintro ⟨⟩
    have hsent : MailSent (calls ++ [⟨.insertParams actorID req, some (.ok (params, token))⟩] ++
        [⟨.insert params, inserted⟩]) ↔ False := (mailSent_call hother).trans hcalls.2
    cases inserted with
    | none =>
        refine ⟨fun call hcall hpart => ?_, hsent⟩
        rcases List.mem_append.mp hcall with hcall | hcall
        · exact hcalls.1 call hcall hpart
        · exact ⟨params, List.mem_singleton.mp hcall⟩
    | some inserted =>
        have hinserted : Inserted srv req
            ⟨params.id, srv.cfg.appBaseURL ++ "/s#".toList ++ token, params.expiresAt⟩
            (calls ++ [⟨.insertParams actorID req, some (.ok (params, token))⟩] ++
              [⟨.insert params, some inserted⟩]) := by
          refine ⟨_, params, [], actorID, token, rfl, hcalls.1, ?_, ?_, rfl⟩
          · exact fun _ h => absurd h List.not_mem_nil
          · exact List.mem_append_right _ (List.mem_singleton.mpr rfl)
        refine meets_call trivial fun recorded _ => ?_
        exact Quietly.call keptOffLinks_inserted ⟨hinserted, hsent⟩ trivial

/-- What a create request leads to: all of it, or nothing. -/
def Outcome (srv : Server) (r : Request) (calls : Calls) (response : Response) : Prop :=
  response.status ≠ 201 ∧ Unwritten calls ∨
    ∃ body link email, r.decode .createLink = .ok body ∧ response = .json 201 (.created link email) ∧
      Inserted srv body.request link calls ∧
      Reported (emailDeliveryFromCreate (linkRequest body)) (MailSent calls) email

theorem outcome_error {code : ErrorCode} {message : String} {status : ℕ}
    (hcalls : Quietly Unwritten False calls) (hstatus : status ≠ 201) :
    Outcome srv r calls (writeError code message status) :=
  .inl ⟨hstatus, hcalls.1⟩

theorem meets_createLink {body : CreateLinkBody} (hbody : r.decode .createLink = .ok body)
    (hcalls : Quietly Unwritten False calls) :
    (createLink srv r actor body).Meets freeContract (Outcome srv r) calls := by
  refine meets_withOk (meets_create hcalls) (fun calls e hcalls => ?_) fun calls link hcalls => ?_
  · refine outcome_error hcalls ?_
    cases e.kind <;> decide
  · dsimp only
    split_ifs with hrequested
    · refine (meets_sendCreatedEmail keptOffLinks_inserted hcalls).bind fun calls email h => ?_
      obtain ⟨hinserted, hemail, hstatus⟩ := h
      refine .inr ⟨body, link, email, hbody, rfl, hinserted, hemail.trans hrequested.symm, ?_, ?_⟩
      · rw [hrequested]
        refine iff_of_false (fun hnot => ?_) Bool.noConfusion
        rcases hstatus with ⟨hstatus, _⟩ | ⟨hstatus, _⟩ <;> cases hnot.symm.trans hstatus
      · rcases hstatus with ⟨hstatus, hsent⟩ | ⟨hstatus, hsent⟩
        · exact iff_of_true hstatus hsent
        · exact iff_of_false (fun h => nomatch hstatus.symm.trans h) hsent
    · refine .inr ⟨body, link, _, hbody, rfl, hcalls.1, (Bool.eq_false_iff.mpr hrequested).symm,
        iff_of_true rfl (Bool.eq_false_iff.mpr hrequested), iff_of_false (fun h => nomatch h) hcalls.2.mp⟩

theorem meets_limited {limiter : Limiter} {key : Text} {next : Prog Response}
    (h : ∀ calls, Quietly Unwritten False calls → next.Meets freeContract (Outcome srv r) calls)
    (hcalls : Quietly Unwritten False calls) :
    (withLimit limiter key rateLimited next).Meets freeContract (Outcome srv r) calls := by
  refine meets_call trivial fun allowed _ => ?_
  have hcalls : Quietly Unwritten False (calls ++ [⟨.allow limiter key, allowed⟩]) :=
    hcalls.call keptOffLinks_unwritten trivial
  split_ifs
  · exact h _ hcalls
  · exact outcome_error hcalls (by decide)

theorem meets_checkEmail {body : CreateLinkBody} {plan : EmailDeliveryPlan}
    (hbody : r.decode .createLink = .ok body) (hcalls : Quietly Unwritten False calls) :
    (checkEmail srv r actor body plan).Meets freeContract (Outcome srv r) calls := by
  unfold checkEmail
  split_ifs
  · refine meets_limited (fun calls hcalls => ?_) hcalls
    refine meets_call trivial fun now _ => ?_
    have hcalls : Quietly Unwritten False (calls ++ [⟨.now, now⟩]) :=
      hcalls.call keptOffLinks_unwritten trivial
    refine meets_withOk (meets_quiet keptOffLinks_unwritten
      (uses_preflightEmailDelivery trivial trivial) hcalls) (fun calls e hcalls => ?_)
      fun calls _ hcalls => meets_createLink hbody hcalls
    cases e <;> exact outcome_error hcalls (by decide)
  · exact outcome_error hcalls (by decide)

theorem meets_handleSecretLinks : (handleSecretLinks srv r).Meets freeContract (Outcome srv r) [] := by
  have hnone : Quietly Unwritten False [] :=
    ⟨fun _ h => absurd h List.not_mem_nil, iff_of_false List.not_mem_nil id⟩
  have hrefused : ∀ calls, ∀ refusal : Refusal, Quietly Unwritten False calls →
      Outcome srv r calls (refuse refusal) := by
    intro calls refusal hcalls
    cases refusal <;> exact outcome_error hcalls (by decide)
  unfold handleSecretLinks atPath
  split_ifs with hpath hget hpost
  · refine meets_withOk (meets_requireAPI keptOffLinks_unwritten hnone) hrefused fun calls _ hcalls => ?_
    refine meets_call trivial fun rows _ => ?_
    have hcalls : Quietly Unwritten False (calls ++ [⟨.query .listLinks, rows⟩]) :=
      hcalls.call keptOffLinks_unwritten trivial
    cases rows with
    | none => exact outcome_error hcalls (by decide)
    | some rows => exact .inl ⟨by decide, hcalls.1⟩
  · exact outcome_error hnone (by decide)
  · refine meets_withOk (meets_requireAPI keptOffLinks_unwritten hnone) hrefused fun calls _ hcalls => ?_
    refine meets_limited (fun calls hcalls => ?_) hcalls
    refine meets_decodeJSON (fun _ _ status hstatus => ?_) fun body hbody => ?_
    · exact outcome_error hcalls (by omega)
    · dsimp only
      split_ifs
      · exact meets_checkEmail hbody hcalls
      · exact meets_createLink hbody hcalls
  · exact .inl ⟨by decide, hnone.1⟩

/-! ### Runs -/

/-- The row of a link that a request has created, with the token of the link in the URL. -/
structure Created (srv : Server) (body : CreateLinkBody) (link : CreateResponse) (row : Delivery.Row) :
    Prop where
  id : row.id = link.id
  active : row.status = .active
  token : ∃ token, srv.deps.tokenHMAC srv.cfg.tokenHMACPepper token = some row.tokenHash ∧
    link.url = srv.cfg.appBaseURL ++ "/s#".toList ++ token
  payload : ∃ p summary n, canonicalPayload body.request = .ok (p, summary) ∧
    row.encryptedPayload = srv.deps.encrypt n p

/-- Events that leave the links as they are. -/
def LinksKept (events : List (Event Store Op Op.Answer)) : Prop :=
  ∀ e ∈ events, e.after.links = e.before.links

/-- An INSERT that fails has not been committed. -/
def FailedInsertsKeep (events : List (Event Store Op Op.Answer)) : Prop :=
  ∀ e ∈ events, ∀ params, e.op = .insert params → e.answer.isNone → e.after.links = e.before.links

variable {rely : Store → Store → Prop} {s : Store} {events : List (Event Store Op Op.Answer)}

theorem linksKept_of_unwritten (hgenuine : ∀ e ∈ events, ∃ x, act srv x e.before e.op = (e.after, e.answer))
    (hfailed : FailedInsertsKeep events) (h : Unwritten (events.map Event.call)) : LinksKept events := by
  intro e he
  obtain ⟨x, hact⟩ := hgenuine e he
  by_cases hpart : e.op.part = some .links
  · obtain ⟨params, hcall⟩ := h e.call (List.mem_map_of_mem he) hpart
    exact hfailed e he params (congrArg Call.op hcall) (congrArg (fun c => c.answer.isNone) hcall)
  · have hsame : (act srv x e.before e.op).1.links = e.before.links :=
      (act_part hpart : Part.Same .links e.before _)
    rwa [hact] at hsame

/-- The row that the INSERT of a request has stored. -/
theorem created_of_call {x : Inputs} {now : ℤ} {actorID token : Text} {params : InsertParams}
    {body : CreateLinkBody} (h : (act srv x s (.insertParams actorID body.request)).2 =
      some (.ok (params, token))) :
    Created srv body ⟨params.id, srv.cfg.appBaseURL ++ "/s#".toList ++ token, params.expiresAt⟩
      (params.row now) := by
  have hparams : Delivery.insertParams srv.deps srv.cfg x.create actorID body.request =
      .ok (params, token) := Option.some.inj h
  obtain ⟨p, haccepts⟩ := Delivery.insertParams_spec hparams
  obtain ⟨summary, hcanonical⟩ := haccepts.canonical
  obtain ⟨n, _, hencrypted⟩ := haccepts.encrypted
  exact ⟨rfl, rfl, ⟨token, haccepts.tokenHash, rfl⟩, p, summary, n, hcanonical, hencrypted⟩

/-- In every run of a create request to its end, with failed INSERTs not committed: either
no link is answered and no call has changed the links, or the answer is the link of the one row that
was inserted, no other call has changed the links, and it says whether the email was sent. -/
theorem create_all_or_nothing {response : Response}
    (hends : Program.Ends (act srv) rely s (handleSecretLinks srv r) events response)
    (hfailed : FailedInsertsKeep events) :
    response.status ≠ 201 ∧ LinksKept events ∨
    ∃ pre e post body link email row, events = pre ++ e :: post ∧ LinksKept (pre ++ post) ∧
      r.decode .createLink = .ok body ∧ response = .json 201 (.created link email) ∧
      e.before.links.insert row = some e.after.links ∧ Created srv body link row ∧
      Reported (emailDeliveryFromCreate (linkRequest body))
        (∃ e' ∈ events, e'.call = ⟨.smtp, some none⟩) email := by
  have hgenuine : ∀ e ∈ events, ∃ x, act srv x e.before e.op = (e.after, e.answer) :=
    fun e he => hends.run.mem he
  have houtcome := meets_handleSecretLinks.ends possible_of_act hends
  rw [freeContract, Contract.learnt_ofCalls, List.nil_append] at houtcome
  rcases houtcome with ⟨hstatus, hunwritten⟩ | ⟨body, link, email, hbody, hresponse, hinserted, hemail⟩
  · exact .inl ⟨hstatus, linksKept_of_unwritten hgenuine hfailed hunwritten⟩
  · obtain ⟨before, params, after, actorID, token, hcalls, hbefore, hafter, hparams, rfl⟩ := hinserted
    obtain ⟨pre, rest, rfl, rfl, hrest⟩ := List.map_eq_append_iff.mp hcalls
    obtain ⟨e, post, rfl, hcall, rfl⟩ := List.map_eq_cons_iff.mp hrest
    have hkept : LinksKept (pre ++ post) := by
      intro e' he'
      rcases List.mem_append.mp he' with he' | he'
      · exact linksKept_of_unwritten (fun e he => hgenuine e (List.mem_append_left _ he))
          (fun e he => hfailed e (List.mem_append_left _ he)) hbefore e' he'
      · have hmem : ∀ e' ∈ post, e' ∈ pre ++ e :: post :=
          fun _ h => List.mem_append_right _ (List.mem_cons_of_mem _ h)
        exact linksKept_of_unwritten (fun e he => hgenuine e (hmem e he))
          (fun e he => hfailed e (hmem e he)) hafter e' he'
    obtain ⟨e₁, he₁, hcall₁⟩ := List.mem_map.mp hparams
    obtain ⟨x₁, hact₁⟩ := hgenuine e₁ (List.mem_append_left _ he₁)
    obtain ⟨x, hact⟩ := hgenuine e (List.mem_append_right _ List.mem_cons_self)
    obtain ⟨before₁, _, _, after₁⟩ := e₁
    obtain ⟨before, _, _, after⟩ := e
    cases hcall₁
    cases hcall
    have hinsert := insert_of_act (congrArg Prod.snd hact)
    rw [congrArg Prod.fst hact] at hinsert
    exact .inr ⟨pre, _, post, body, _, email, _, rfl, hkept, hbody, hresponse, hinsert,
      created_of_call (congrArg Prod.snd hact₁),
      ⟨hemail.requested, hemail.notRequested, hemail.sent.trans List.mem_map⟩⟩

end

/-- A link is created with the legacy key. -/
def sampleCreateRequest : Request :=
  { sampleKeyRequest with
    path := "/api/v1/secret-links".toList
    decode := fun kind => match kind with
      | .createLink => .ok ⟨titledRequest ['a'], none, none, []⟩
      | _ => .error .mediaType }

def sampleCreateRun : List (Event Store Op Op.Answer) :=
  Program.execute (act sampleStoring) sampleStore (handleSecretLinks sampleStoring sampleCreateRequest)
    (List.replicate 4 sampleHandlerInputs)

theorem create_all_or_nothing_sample : ∃ response,
    Program.Ends (act sampleStoring) (· = ·) sampleStore
      (handleSecretLinks sampleStoring sampleCreateRequest) sampleCreateRun response ∧
    FailedInsertsKeep sampleCreateRun ∧ response.status = 201 ∧
    ∃ pre e post body link email row, sampleCreateRun = pre ++ e :: post ∧
      LinksKept (pre ++ post) ∧ sampleCreateRequest.decode .createLink = .ok body ∧
      response = .json 201 (.created link email) ∧ e.before.links.insert row = some e.after.links ∧
      Created sampleStoring body link row ∧ Reported (emailDeliveryFromCreate (linkRequest body))
        (∃ e' ∈ sampleCreateRun, e'.call = ⟨.smtp, some none⟩) email := by
  have hstatus : (Program.outcome (act sampleStoring) sampleStore
      (handleSecretLinks sampleStoring sampleCreateRequest)
      (List.replicate 4 sampleHandlerInputs)).map Response.status = some 201 := by
    decide +kernel
  obtain ⟨response, houtcome, hcreated⟩ := Option.map_eq_some_iff.mp hstatus
  have hanswered : (sampleCreateRun.all fun e =>
      decide (e.op.part ≠ some .links) || e.answer.isSome) = true := by
    decide +kernel
  have hfailed : FailedInsertsKeep sampleCreateRun := by
    intro e he params hop hnone
    have hpart : e.op.part = some .links := by
      rw [hop]
      rfl
    have hsome := List.all_eq_true.mp hanswered e he
    rw [hpart, Option.isNone_iff_eq_none.mp hnone] at hsome
    cases hsome
  have hends : Program.Ends (act sampleStoring) (· = ·) sampleStore
      (handleSecretLinks sampleStoring sampleCreateRequest) sampleCreateRun response :=
    Program.ends_execute (fun _ => rfl) houtcome
  exact ⟨response, hends, hfailed, hcreated,
    (create_all_or_nothing hends hfailed).resolve_left fun h => h.1 hcreated⟩

end SecureShare.Handlers
