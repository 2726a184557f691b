import SecureShare.Email.Template
import SecureShare.Email.SettingsUpdates
import SecureShare.Http.Audit
import SecureShare.Http.EmailDelivery
import SecureShare.Library.Lines

/-!
# The message that is sent

The subject is written into the header as it has been rendered. The header has the lines
that it should have exactly if neither the template nor a value in it breaks the subject.
-/
namespace SecureShare.Email
open Go Library.Lines
open Delivery (UUID)

/-- What is drawn for a text, and the time, which is written instead if the random source
fails. -/
structure Draw where
  bytes : Option ByteString
  unixNano : ℤ
  deriving DecidableEq, Repr

def randomHex (draw : Draw) : Text :=
  match draw.bytes with
  | some bytes => Http.hexEncode bytes
  | none => (toString draw.unixNano).toList

/-- What `strings.Cut` leaves after the first at sign. -/
def afterAt (address : Text) : Option Text := (address.dropWhile (· ≠ '@')).tail?

def messageDomain (lib : Libraries) (stored : StoredSettings) : Text :=
  (((lib.parseAddress stored.fromEmail).bind afterAt).filter (· ≠ [])).getD "localhost".toList

def randomMessageID (draw : Draw) (domain : Text) : Text :=
  '<' :: randomHex draw ++ '@' :: domain ++ ['>']

/-- What is drawn for a message. -/
structure MessageDraws where
  messageID : Draw
  boundary : Draw
  deriving DecidableEq, Repr

/-- `buildMessage` -/
def buildMessage (lib : MailLibraries) (stored : StoredSettings) (draws : MessageDraws)
    (recipient sender subject textBody htmlBody : Text) : Text :=
  let messageID := randomMessageID draws.messageID (messageDomain lib.toLibraries stored)
  let headers := "From: ".toList ++ sender ++ crlf ++
    "To: ".toList ++ recipient ++ crlf ++
    "Subject: ".toList ++ subject ++ crlf ++
    "Message-ID: ".toList ++ messageID ++ crlf ++
    "MIME-Version: 1.0".toList ++ crlf
  if trimSpace htmlBody = [] then
    headers ++ "Content-Type: text/plain; charset=UTF-8".toList ++ crlf ++ crlf ++ textBody ++ crlf
  else
    let boundary := "secureshare-".toList ++ randomHex draws.boundary
    headers ++
      "Content-Type: multipart/alternative; boundary=\"".toList ++ boundary ++ ['\u0022'] ++
        crlf ++ crlf ++
      "--".toList ++ boundary ++ crlf ++ "Content-Type: text/plain; charset=UTF-8".toList ++
        crlf ++ crlf ++ textBody ++ crlf ++
      "--".toList ++ boundary ++ crlf ++ "Content-Type: text/html; charset=UTF-8".toList ++
        crlf ++ crlf ++ htmlBody ++ crlf ++
      "--".toList ++ boundary ++ "--".toList ++ crlf

/-- The message of `sendMail`. -/
def mailMessage (lib : MailLibraries) (stored : StoredSettings) (draws : MessageDraws)
    (recipient subject textBody htmlBody : Text) : Text :=
  buildMessage lib stored draws recipient (lib.formatAddress stored.fromName stored.fromEmail)
    subject textBody htmlBody

/-- The lines that the header should have. -/
def headerLines (lib : MailLibraries) (stored : StoredSettings) (draws : MessageDraws)
    (recipient subject htmlBody : Text) : List Text :=
  ["From: ".toList ++ lib.formatAddress stored.fromName stored.fromEmail,
    "To: ".toList ++ recipient,
    "Subject: ".toList ++ subject,
    "Message-ID: ".toList ++
      randomMessageID draws.messageID (messageDomain lib.toLibraries stored),
    "MIME-Version: 1.0".toList,
    if trimSpace htmlBody = [] then "Content-Type: text/plain; charset=UTF-8".toList
    else "Content-Type: multipart/alternative; boundary=\"".toList ++
      ("secureshare-".toList ++ randomHex draws.boundary) ++ ['\u0022']]

/-- What is documented of the libraries: an address that has been parsed and one that is
written are on one line, and text that is equal but for case breaks where the other does. -/
structure MailLibraries.Documented (lib : MailLibraries) : Prop where
  parseAddress : ∀ s address, lib.parseAddress s = some address → Unbroken address
  formatAddress : ∀ name address, Unbroken address → Unbroken (lib.formatAddress name address)
  equalFold : ∀ s t, lib.equalFold s t = true → Unbroken s → Unbroken t

/-- Neither the own text of the subject nor a value that is put into it has a CR or LF. -/
def SubjectUnbroken (lib : MailLibraries) (settings : Settings) (override : Option TemplateOverride)
    (ctx : TemplateContext) : Prop :=
  let template := pieces (resolveTemplates settings override).subject
  (∀ c, .literal c ∈ template → isBreak c = false) ∧
    ∀ name, .placeholder name ∈ template → Unbroken ((placeholderValues lib ctx).get name)

variable {lib : MailLibraries} {stored : StoredSettings} {draws : MessageDraws}
  {recipient subject textBody htmlBody : Text} {settings : Settings}
  {override : Option TemplateOverride} {ctx : TemplateContext} {rendered : RenderedTemplate}

theorem unbroken_substitute {values : Values} {template : Text} :
    Unbroken (substitute values template) ↔
      (∀ c, .literal c ∈ pieces template → isBreak c = false) ∧
        ∀ name, .placeholder name ∈ pieces template → Unbroken (values.get name) := by
  rw [substitute, unbroken_flatMap]
  constructor
  · intro h
    exact ⟨fun c hc => h _ hc c List.mem_cons_self, fun name hname => h _ hname⟩
  · intro h piece hpiece
    cases piece with
    | literal c =>
        intro d hd
        obtain rfl := List.mem_singleton.mp hd
        exact h.1 d hpiece
    | placeholder name => exact h.2 name hpiece

theorem unbroken_repr (n : ℕ) : Unbroken n.repr.toList := by
  intro c hc
  rw [Nat.repr, String.toList_ofList] at hc
  have hdigit : c.isDigit = true := Nat.isDigit_of_mem_toDigits (by decide) (by decide) hc
  rw [isBreak, Bool.or_eq_false_iff, decide_eq_false_iff_not, decide_eq_false_iff_not]
  constructor
  · rintro rfl
    cases hdigit
  · rintro rfl
    cases hdigit

theorem unbroken_randomHex (draw : Draw) : Unbroken (randomHex draw) := by
  unfold randomHex
  cases draw.bytes with
  | some bytes =>
      have hdigits : Unbroken Http.hexDigits := unbroken_of_all (by decide +kernel)
      exact fun c hc => hdigits c (Http.mem_hexEncode hc)
  | none =>
      dsimp only
      cases draw.unixNano with
      | ofNat n => exact unbroken_repr n
      | negSucc n =>
          have hminus : (toString (Int.negSucc n)).toList = '-' :: (n + 1).repr.toList :=
            String.toList_append
          rw [hminus]
          exact List.forall_mem_cons.mpr ⟨rfl, unbroken_repr (n + 1)⟩

/-- A message is its header lines, an empty line, and what depends on the body. -/
theorem mailMessage_eq (lib : MailLibraries) (stored : StoredSettings) (draws : MessageDraws)
    (recipient subject textBody htmlBody : Text) :
    ∃ body, mailMessage lib stored draws recipient subject textBody htmlBody =
    (headerLines lib stored draws recipient subject htmlBody).flatMap (· ++ crlf) ++ crlf ++ body := by
  unfold mailMessage buildMessage headerLines
  dsimp only
  split_ifs
  · refine ⟨textBody ++ crlf, ?_⟩
    simp only [List.flatMap_cons, List.flatMap_nil, List.append_assoc, List.append_nil]
  · refine ⟨"--".toList ++ ("secureshare-".toList ++ randomHex draws.boundary) ++ crlf ++
      "Content-Type: text/plain; charset=UTF-8".toList ++ crlf ++ crlf ++ textBody ++ crlf ++
      "--".toList ++ ("secureshare-".toList ++ randomHex draws.boundary) ++ crlf ++
      "Content-Type: text/html; charset=UTF-8".toList ++ crlf ++ crlf ++ htmlBody ++ crlf ++
      "--".toList ++ ("secureshare-".toList ++ randomHex draws.boundary) ++ "--".toList ++ crlf, ?_⟩
    simp only [List.flatMap_cons, List.flatMap_nil, List.append_assoc, List.append_nil]

theorem unbroken_fromEmail {appEnv : Text} {requireComplete : Bool} (hlib : lib.Documented)
    (hvalid : validateStored lib.toLibraries appEnv stored requireComplete = none)
    (htrimmed : trimSpace stored.fromEmail = stored.fromEmail) : Unbroken stored.fromEmail := by
  by_cases hsender : stored.fromEmail = []
  · rw [hsender]
    exact unbroken_nil
  · have haddress := validEmailAddress_of_validated hvalid hsender
    obtain ⟨address, hparse, hfold⟩ := (Option.any_eq_true _ _).mp haddress
    rw [htrimmed] at hfold
    exact hlib.equalFold _ _ hfold (hlib.parseAddress _ _ hparse)

theorem unbroken_messageDomain (hlib : lib.Documented) :
    Unbroken (messageDomain lib.toLibraries stored) := by
  unfold messageDomain
  cases hafter : ((lib.parseAddress stored.fromEmail).bind afterAt).filter (· ≠ []) with
  | none => exact unbroken_of_all (by decide +kernel)
  | some domain =>
      obtain ⟨address, hparse, hdomain⟩ :=
        Option.bind_eq_some_iff.mp (Option.filter_eq_some_iff.mp hafter).1
      have htail : domain = (address.dropWhile (· ≠ '@')).tail := by
        rw [List.tail_eq_tail?, ← afterAt, hdomain]
        rfl
      rw [htail]
      apply (hlib.parseAddress _ _ hparse).of_subset
      exact List.Subset.trans (List.tail_subset _) (List.dropWhile_suffix _).subset

theorem headerLines_unbroken {appEnv : Text} {requireComplete : Bool} (draws : MessageDraws)
    (htmlBody : Text) (hlib : lib.Documented)
    (hvalid : validateStored lib.toLibraries appEnv stored requireComplete = none)
    (htrimmed : trimSpace stored.fromEmail = stored.fromEmail) (hrecipient : Unbroken recipient)
    (hsubject : Unbroken subject) :
    ∀ line ∈ headerLines lib stored draws recipient subject htmlBody, line ≠ [] ∧ Unbroken line := by
  have hsender := hlib.formatAddress stored.fromName _ (unbroken_fromEmail hlib hvalid htrimmed)
  have hdomain : Unbroken (messageDomain lib.toLibraries stored) := unbroken_messageDomain hlib
  have hmessageID : Unbroken (randomMessageID draws.messageID (messageDomain lib.toLibraries stored)) :=
    unbroken_append.mpr ⟨List.forall_mem_cons.mpr ⟨rfl, unbroken_append.mpr
      ⟨unbroken_randomHex _, List.forall_mem_cons.mpr ⟨rfl, hdomain⟩⟩⟩, unbroken_of_all rfl⟩
  have hfield (name : Text) (hne : name ≠ []) (hname : (name.all fun c => !isBreak c) = true)
      {value : Text} (hvalue : Unbroken value) : name ++ value ≠ [] ∧ Unbroken (name ++ value) :=
    ⟨by simp [hne], unbroken_append.mpr ⟨unbroken_of_all hname, hvalue⟩⟩
  have hcontent : ∀ type : Text, type = (if trimSpace htmlBody = [] then
      "Content-Type: text/plain; charset=UTF-8".toList
      else "Content-Type: multipart/alternative; boundary=\"".toList ++
        ("secureshare-".toList ++ randomHex draws.boundary) ++ ['\u0022']) →
      type ≠ [] ∧ Unbroken type := by
    rintro _ rfl
    split_ifs
    · exact ⟨by decide +kernel, unbroken_of_all (by decide +kernel)⟩
    · rw [List.append_assoc]
      apply hfield _ (by decide +kernel) (by decide +kernel)
      refine unbroken_append.mpr ⟨unbroken_append.mpr ⟨?_, unbroken_randomHex _⟩, unbroken_of_all rfl⟩
      exact unbroken_of_all (by decide +kernel)
  unfold headerLines
  simp only [List.forall_mem_cons]
  exact ⟨hfield _ (by decide +kernel) (by decide +kernel) hsender,
    hfield _ (by decide +kernel) (by decide +kernel) hrecipient,
    hfield _ (by decide +kernel) (by decide +kernel) hsubject,
    hfield _ (by decide +kernel) (by decide +kernel) hmessageID,
    ⟨by decide +kernel, unbroken_of_all (by decide +kernel)⟩, hcontent _ rfl,
    fun _ h => absurd h List.not_mem_nil⟩

theorem subject_mem_headerLines (lib : MailLibraries) (stored : StoredSettings)
    (draws : MessageDraws) (recipient subject htmlBody : Text) :
    "Subject: ".toList ++ subject ∈ headerLines lib stored draws recipient subject htmlBody :=
  List.mem_cons_of_mem _ (List.mem_cons_of_mem _ List.mem_cons_self)

/-- The header of what is rendered has the lines that it should have, whoever the recipient
is, exactly if the subject that the template makes is on one line. -/
theorem header_exact_iff {appEnv : Text} {actorUserID : UUID} {req : UpdateRequest}
    (hlib : lib.Documented) (hfields : stored.toSettings = req.next lib.toLower actorUserID)
    (hvalid : validateStored lib.toLibraries appEnv stored stored.enabled = none)
    (h : render lib settings override ctx = .ok rendered) :
    (∀ draws recipient, Unbroken recipient →
      headerBlock (mailMessage lib stored draws recipient rendered.subject rendered.text
        rendered.html) = headerLines lib stored draws recipient rendered.subject rendered.html) ↔
      SubjectUnbroken lib settings override ctx := by
  have hsubject : Unbroken rendered.subject ↔ SubjectUnbroken lib settings override ctx := by
    rw [render_subject h]
    exact unbroken_substitute
  have htrimmed : trimSpace stored.fromEmail = stored.fromEmail := by
    rw [hfields]
    exact trimSpace_trimSpace _
  rw [← hsubject]
  constructor
  · intro hexact
    have hblock := hexact ⟨⟨none, 0⟩, ⟨none, 0⟩⟩ [] unbroken_nil
    have hmem := subject_mem_headerLines lib stored ⟨⟨none, 0⟩, ⟨none, 0⟩⟩ [] rendered.subject
      rendered.html
    rw [← hblock] at hmem
    exact (unbroken_append.mp (unbroken_of_mem_headerBlock hmem)).2
  · intro hunbroken draws recipient hrecipient
    obtain ⟨body, hbody⟩ := mailMessage_eq lib stored draws recipient rendered.subject rendered.text
      rendered.html
    rw [hbody]
    exact headerBlock_append
      (headerLines_unbroken draws rendered.html hlib hvalid htrimmed hrecipient hunbroken)

/-- A subject with CR LF in it makes two lines of the header. -/
theorem headerBlock_split {appEnv : Text} {requireComplete : Bool} {first rest : Text}
    (draws : MessageDraws) (textBody htmlBody : Text) (hlib : lib.Documented)
    (hvalid : validateStored lib.toLibraries appEnv stored requireComplete = none)
    (htrimmed : trimSpace stored.fromEmail = stored.fromEmail) (hrecipient : Unbroken recipient)
    (hfirst : Unbroken first) (hrest : Unbroken rest) (hne : rest ≠ []) :
    headerBlock (mailMessage lib stored draws recipient (first ++ crlf ++ rest) textBody htmlBody) =
      (headerLines lib stored draws recipient first htmlBody).take 3 ++
        rest :: (headerLines lib stored draws recipient first htmlBody).drop 3 := by
  have hlines := headerLines_unbroken draws htmlBody hlib hvalid htrimmed hrecipient hfirst
  obtain ⟨body, hbody⟩ := mailMessage_eq lib stored draws recipient (first ++ crlf ++ rest) textBody
    htmlBody
  have hsplit : (headerLines lib stored draws recipient (first ++ crlf ++ rest) htmlBody).flatMap
      (· ++ crlf) = ((headerLines lib stored draws recipient first htmlBody).take 3 ++
        rest :: (headerLines lib stored draws recipient first htmlBody).drop 3).flatMap
        (· ++ crlf) := by
    unfold headerLines
    simp only [List.flatMap_cons, List.flatMap_nil, List.take_succ_cons, List.take_zero,
      List.drop_succ_cons, List.drop_zero, List.cons_append, List.nil_append, List.append_assoc]
  rw [hbody, hsplit]
  apply headerBlock_append
  intro line hline
  rcases List.mem_append.mp hline with hline | hline
  · exact hlines line (List.mem_of_mem_take hline)
  · rcases List.mem_cons.mp hline with rfl | hline
    · exact ⟨hne, hrest⟩
    · exact hlines line (List.mem_of_mem_drop hline)

/-- The libraries on plain addresses. -/
def sampleMailLibraries : MailLibraries where
  toLower := toLower
  equalFold s t := s = t
  parseIP _ := false
  parseAddress s := if s.all fun c => !isBreak c then some s else none
  formatTime _ := "2026-07-21T12:00:00Z".toList
  formatAddress _ address := '<' :: address ++ ['>']

theorem sampleMailLibraries_documented : sampleMailLibraries.Documented where
  parseAddress s address h := by
    simp only [sampleMailLibraries] at h
    split_ifs at h with hs
    cases h
    exact unbroken_of_all hs
  formatAddress name address h :=
    unbroken_append.mpr ⟨List.forall_mem_cons.mpr ⟨rfl, h⟩, unbroken_of_all rfl⟩
  equalFold s t h hs := by
    have hst : s = t := by simpa [sampleMailLibraries] using h
    rwa [← hst]

def sampleSender : StoredSettings := ⟨sampleUpdate.next toLower 7, "vp".toList⟩

theorem sampleSender_valid : validateStored sampleMailLibraries.toLibraries [] sampleSender
    sampleSender.enabled = none := by
  decide +kernel

/-- A request for a link that is sent with a subject of its own. -/
def sampleLinkRequest (subject : Text) : Http.CreateLinkRequest where
  toCreateRequest := Delivery.sampleRequest
  delivery := some (some ⟨some true, "bob@example.com".toList, [], false, subject, "m".toList⟩)
  sendEmail := none
  recipientEmail := []

/-- What is rendered for the link. -/
def sampleRender (subject : Text) : Except Text RenderedTemplate :=
  let plan := Http.emailDeliveryFromCreate (sampleLinkRequest subject)
  render sampleMailLibraries sampleSender.toSettings (Http.emailOverride plan)
    (Http.emailTemplateContext (fun _ _ => "24h0m0s".toList) 0 sampleSender.toSettings plan
      (sampleLinkRequest subject).title "https://example.com/s#t".toList 86400000000000)

theorem sampleRender_ok {subject : Text}
    (h : (sampleRender subject).toOption.map (·.subject) = some subject) :
    ∃ rendered, sampleRender subject = .ok rendered ∧ rendered.subject = subject := by
  cases hrender : sampleRender subject with
  | error e =>
      rw [hrender] at h
      cases h
  | ok rendered =>
      rw [hrender] at h
      exact ⟨rendered, rfl, Option.some.inj h⟩

theorem header_exact_iff_sample : ∃ rendered, sampleRender "Hello".toList = .ok rendered ∧
    ∀ draws recipient, Unbroken recipient →
      headerBlock (mailMessage sampleMailLibraries sampleSender draws recipient rendered.subject
        rendered.text rendered.html) =
      headerLines sampleMailLibraries sampleSender draws recipient rendered.subject
        rendered.html := by
  obtain ⟨rendered, hrender, hsubject⟩ : ∃ rendered, sampleRender "Hello".toList = .ok rendered ∧
      rendered.subject = "Hello".toList := sampleRender_ok (by decide +kernel)
  refine ⟨rendered, hrender, ?_⟩
  apply (header_exact_iff sampleMailLibraries_documented rfl sampleSender_valid hrender).mpr
  have hunbroken : Unbroken rendered.subject := by
    rw [hsubject]
    exact unbroken_of_all (by decide +kernel)
  rwa [render_subject hrender, unbroken_substitute] at hunbroken

def sampleDraws : MessageDraws := ⟨⟨some [1, 2], 0⟩, ⟨some [3], 0⟩⟩

/-- The subject of a request can add a recipient to the header. -/
theorem subject_adds_header :
    ∃ rendered, sampleRender ("Hi".toList ++ crlf ++ "Bcc: eve@example.com".toList) = .ok rendered ∧
      "Bcc: eve@example.com".toList ∈ headerBlock (mailMessage sampleMailLibraries sampleSender
        sampleDraws "bob@example.com".toList rendered.subject rendered.text rendered.html) ∧
      headerBlock (mailMessage sampleMailLibraries sampleSender sampleDraws
        "bob@example.com".toList rendered.subject rendered.text rendered.html) ≠
      headerLines sampleMailLibraries sampleSender sampleDraws "bob@example.com".toList
        rendered.subject rendered.html := by
  obtain ⟨rendered, hrender, hsubject⟩ : ∃ rendered,
      sampleRender ("Hi".toList ++ crlf ++ "Bcc: eve@example.com".toList) = .ok rendered ∧
      rendered.subject = "Hi".toList ++ crlf ++ "Bcc: eve@example.com".toList :=
    sampleRender_ok (by decide +kernel)
  have hrecipient : Unbroken "bob@example.com".toList := unbroken_of_all (by decide +kernel)
  have hfirst : Unbroken "Hi".toList := unbroken_of_all (by decide +kernel)
  have hrest : Unbroken "Bcc: eve@example.com".toList := unbroken_of_all (by decide +kernel)
  have hblock := headerBlock_split sampleDraws rendered.text rendered.html
    sampleMailLibraries_documented sampleSender_valid (by decide +kernel) hrecipient hfirst hrest
    (by decide +kernel)
  refine ⟨rendered, hrender, ?_⟩
  rw [hsubject, hblock]
  refine ⟨List.mem_append_right _ List.mem_cons_self, fun h => ?_⟩
  cases congrArg List.length h

end SecureShare.Email
