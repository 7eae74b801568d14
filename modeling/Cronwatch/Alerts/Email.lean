/-
# Alerts.Email -- one message for a failed run

`send` makes a message of the result and hands it to the mail server.  The steps of the
server can each raise, and nothing they raise leaves the call.  The message is made
before that: a header with a line break raises, and so does `result.duration`, which a
result does not have.

The attribute that the duration is read from is a parameter of `sendWith`.  With one
that exists a message goes out exactly when no header has a line break
(`sendWith_delivers_iff`); as written none goes out for any failed result, and the call
raises (`alertsFailures_iff`).
-/
import Cronwatch.Jobs.Execution
import Cronwatch.Runtime.Clock

namespace Cronwatch.Alerts

set_option autoImplicit false

open Cronwatch.Runtime Cronwatch.Jobs

/-- What the alerter reads of its configuration. -/
structure AlertConfig where
  email : List String
  smtpHost : String
  smtpPort : Nat
  smtpFrom : String
  smtpTls : Bool
  smtpUser : Option String
  smtpPassword : Option String

structure EmailMessage where
  subject : String
  sender : String
  receivers : String
  content : String
deriving DecidableEq

/-- The mail server, by how each step of a session with it ends. -/
structure SMTP where
  connect : String → Nat → Except PyException Unit
  starttls : Except PyException Unit
  login : String → String → Except PyException Unit
  sendMessage : EmailMessage → Except PyException Unit
  /-- `__exit__`, on every way out of the `with` block. -/
  quit : Except PyException Unit

namespace EmailAlerter

/-- The characters at which `str.splitlines` ends a line. -/
def isLineBreak (c : Char) : Bool :=
  c.toNat ∈ [0x0a, 0x0b, 0x0c, 0x0d, 0x1c, 0x1d, 0x1e, 0x85, 0x2028, 0x2029]

def hasLineBreak (value : String) : Bool := value.toList.any isLineBreak

/-- `msg[name] = value`, where any line break raises; `EmailMessage` itself takes one at the very
end of the value. -/
def header (value : String) : Except PyException String :=
  if hasLineBreak value then
    .error (.valueError "Header values may not contain linefeed or carriage return characters")
  else .ok value

def orEmpty (output : String) : String := if output = "" then "(empty)" else output

def subject (result : ExecutionResult) : String :=
  "[cronwatch] Job '" ++ result.jobName ++ "' FAILED"

def recipients (config : AlertConfig) : String := ", ".intercalate config.email

def content (result : ExecutionResult) (duration : ℚ) : String :=
  s!"Job: {result.jobName}\nExit code: {result.exitCode}\nDuration: {fixed2 duration}s\n\n" ++
    s!"--- stdout ---\n{orEmpty result.stdout}\n\n--- stderr ---\n{orEmpty result.stderr}\n"

section With

variable (duration : ExecutionResult → Except PyException ℚ)

/-- The message, made header by header. -/
def messageWith (config : AlertConfig) (result : ExecutionResult) :
    Except PyException EmailMessage := do
  let subject ← header (subject result)
  let sender ← header config.smtpFrom
  let receivers ← header (recipients config)
  let seconds ← duration result
  return { subject, sender, receivers, content := content result seconds }

/-- `if self.config.smtp_user and self.config.smtp_password: smtp.login(...)`. -/
def login (smtp : SMTP) (config : AlertConfig) : Except PyException Unit :=
  match config.smtpUser, config.smtpPassword with
  | some user, some password =>
      if user ≠ "" ∧ password ≠ "" then smtp.login user password else .ok ()
  | _, _ => .ok ()

/-- What comes before the message in a session. -/
def greet (smtp : SMTP) (config : AlertConfig) : Except PyException Unit := do
  if config.smtpTls then smtp.starttls
  login smtp config

/-- A session with the server, and the messages handed to it. -/
def session (smtp : SMTP) (config : AlertConfig) (msg : EmailMessage) :
    Except PyException Unit × List EmailMessage :=
  match smtp.connect config.smtpHost config.smtpPort with
  | .error e => (.error e, [])
  | .ok () =>
      let inside :=
        match greet smtp config with
        | .error e => (.error e, [])
        | .ok () => (smtp.sendMessage msg, [msg])
      match smtp.quit with
      | .error e => (.error e, inside.2)
      | .ok () => inside

/-- `send(result)`, and the messages handed to the server. -/
def sendWith (smtp : SMTP) (config : AlertConfig) (result : ExecutionResult) :
    Except PyException Unit × List EmailMessage :=
  if config.email = [] then (.ok (), [])
  else
    match messageWith duration config result with
    | .error e => (.error e, [])
    -- `except Exception`, around the session only
    | .ok msg => (.ok (), (session smtp config msg).2)

end With

def send (smtp : SMTP) (config : AlertConfig) (result : ExecutionResult) :
    Except PyException Unit × List EmailMessage :=
  sendWith ExecutionResult.duration smtp config result

def dispatchAlert (smtp : SMTP) (config : AlertConfig) (result : ExecutionResult) :
    Except PyException Unit × List EmailMessage :=
  if result.success then (.ok (), []) else send smtp config result

/-! ## Messages that go out -/

/-- Every step of a session succeeds. -/
structure Succeeds (smtp : SMTP) (config : AlertConfig) : Prop where
  connect : smtp.connect config.smtpHost config.smtpPort = .ok ()
  starttls : smtp.starttls = .ok ()
  login : ∀ user password, smtp.login user password = .ok ()
  sendMessage : ∀ msg, smtp.sendMessage msg = .ok ()
  quit : smtp.quit = .ok ()

/-- The message names the job. -/
def Names (jobName : String) (msg : EmailMessage) : Prop :=
  ∃ front back, msg.subject = front ++ jobName ++ back

/-- The call returns, and hands over one message about the job if the server lets it. -/
structure Delivers (smtp : SMTP) (config : AlertConfig) (result : ExecutionResult)
    (after : Except PyException Unit × List EmailMessage) : Prop where
  returns : after.1 = .ok ()
  once : Succeeds smtp config → ∃ msg, after.2 = [msg] ∧ Names result.jobName msg

/-- Failed results go out, by `send` and by `dispatchAlert`; successful ones do not. -/
structure AlertsFailures (smtp : SMTP) (config : AlertConfig) (result : ExecutionResult) : Prop where
  sent : result.success = false → Delivers smtp config result (send smtp config result)
  dispatched : result.success = false →
    Delivers smtp config result (dispatchAlert smtp config result)
  silent : result.success = true → dispatchAlert smtp config result = (.ok (), [])

theorem session_of_succeeds {smtp : SMTP} {config : AlertConfig} (succeeds : Succeeds smtp config)
    (msg : EmailMessage) : session smtp config msg = (.ok (), [msg]) := by
  have loggedIn : login smtp config = .ok () := by
    unfold login
    split
    · split
      · exact succeeds.login _ _
      · rfl
    · rfl
  have greeted : greet smtp config = .ok () := by
    unfold greet
    rw [succeeds.starttls, loggedIn]
    split <;> rfl
  rw [session, succeeds.connect]
  dsimp only
  rw [greeted, succeeds.quit]
  dsimp only
  rw [succeeds.sendMessage]

/-- A header that is set has no line break. -/
theorem header_bind_eq_ok_iff {α : Type} (value : String) (rest : String → Except PyException α)
    (a : α) : (header value >>= rest) = .ok a ↔ hasLineBreak value = false ∧ rest value = .ok a := by
  unfold header
  split
  · rename_i broken
    exact iff_of_false (fun impossible => by cases impossible) (by simp [broken])
  · rename_i whole
    exact (and_iff_right (Bool.eq_false_iff.mpr whole)).symm

variable {config : AlertConfig}

theorem names_subject (result : ExecutionResult) {msg : EmailMessage}
    (made : msg.subject = subject result) : Names result.jobName msg :=
  ⟨"[cronwatch] Job '", "' FAILED", made⟩

/-- No header of the message has a line break. -/
def WholeHeaders (config : AlertConfig) (result : ExecutionResult) : Prop :=
  hasLineBreak (subject result) = false ∧ hasLineBreak config.smtpFrom = false ∧
    hasLineBreak (recipients config) = false

/-- The message that is made when the duration can be read. -/
theorem messageWith_eq_ok_iff {duration : ExecutionResult → Except PyException ℚ}
    (durations : ∀ result, duration result = .ok result.durationSeconds) (config : AlertConfig)
    (result : ExecutionResult) (msg : EmailMessage) :
    messageWith duration config result = .ok msg ↔
      WholeHeaders config result ∧
        { subject := subject result, sender := config.smtpFrom, receivers := recipients config,
          content := content result result.durationSeconds } = msg := by
  unfold messageWith
  rw [header_bind_eq_ok_iff, header_bind_eq_ok_iff, header_bind_eq_ok_iff, durations]
  simp only [WholeHeaders, and_assoc]
  refine and_congr_right fun _ => and_congr_right fun _ => and_congr_right fun _ => ?_
  constructor
  · rintro ⟨⟩
    rfl
  · rintro rfl
    rfl

/-- **With a duration that can be read**, a failed result goes out exactly when no header
has a line break, whatever the server does. -/
theorem sendWith_delivers_iff {duration : ExecutionResult → Except PyException ℚ}
    (durations : ∀ result, duration result = .ok result.durationSeconds)
    (someone : config.email ≠ []) (smtp : SMTP) (result : ExecutionResult) :
    Delivers smtp config result (sendWith duration smtp config result) ↔
      WholeHeaders config result := by
  have made := messageWith_eq_ok_iff durations config result
  rw [sendWith, if_neg someone]
  cases message : messageWith duration config result with
  | error e =>
      refine iff_of_false (fun delivers => by cases delivers.returns) fun whole => ?_
      rw [(made _).mpr ⟨whole, rfl⟩] at message
      cases message
  | ok msg =>
      obtain ⟨whole, rfl⟩ := (made msg).mp message
      refine iff_of_true ⟨rfl, fun succeeds => ?_⟩ whole
      dsimp only
      rw [session_of_succeeds succeeds]
      exact ⟨_, rfl, names_subject result rfl⟩

/-- As written no message is made, so a call with someone to alert raises. -/
theorem send_raises (someone : config.email ≠ []) (smtp : SMTP) (result : ExecutionResult) :
    ∃ e, send smtp config result = (.error e, []) := by
  have raised : ∃ e, messageWith ExecutionResult.duration config result = .error e := by
    cases message : messageWith ExecutionResult.duration config result with
    | error e => exact ⟨e, rfl⟩
    | ok msg =>
        unfold messageWith at message
        rw [header_bind_eq_ok_iff, header_bind_eq_ok_iff, header_bind_eq_ok_iff] at message
        obtain ⟨-, -, -, impossible⟩ := message
        cases impossible
  obtain ⟨e, raised⟩ := raised
  exact ⟨e, by rw [send, sendWith, if_neg someone, raised]⟩

/-- **When failures are alerted**: for no failed result; of successful ones nothing is
sent, as it should be. -/
theorem alertsFailures_iff (someone : config.email ≠ []) (smtp : SMTP) (result : ExecutionResult) :
    AlertsFailures smtp config result ↔ result.success = true := by
  obtain ⟨e, raised⟩ := send_raises someone smtp result
  cases succeeded : result.success with
  | true =>
      refine iff_of_true ⟨?_, ?_, fun _ => ?_⟩ rfl
      · rw [succeeded]
        rintro ⟨⟩
      · rw [succeeded]
        rintro ⟨⟩
      · rw [dispatchAlert, if_pos succeeded]
  | false =>
      refine iff_of_false (fun alerts => ?_) (by simp)
      have returned := (alerts.sent succeeded).returns
      rw [raised] at returned
      cases returned

/-- One recipient, and a server on the same machine. -/
def operators : AlertConfig where
  email := ["ops@example.com"]
  smtpHost := "localhost"
  smtpPort := 25
  smtpFrom := "cronwatch@example.com"
  smtpTls := false
  smtpUser := none
  smtpPassword := none

/-- A server that takes every message. -/
def willing : SMTP where
  connect := fun _ _ => .ok ()
  starttls := .ok ()
  login := fun _ _ => .ok ()
  sendMessage := fun _ => .ok ()
  quit := .ok ()

def failed : ExecutionResult where
  jobName := "backup"
  exitCode := 1
  stdout := "some output"
  stderr := "some error"
  durationSeconds := 157 / 50
  startedAt := 0
  finishedAt := 157 / 50

def succeeded : ExecutionResult := { failed with exitCode := 0 }

theorem success_alerts_nothing : AlertsFailures willing operators succeeded :=
  (alertsFailures_iff (show operators.email ≠ [] by decide) willing succeeded).mpr (by decide)

/-- A failure is not alerted though every step of the session would succeed. -/
theorem failure_raises :
    Succeeds willing operators ∧ failed.success = false ∧
      send willing operators failed =
        (.error (.attributeError "'ExecutionResult' object has no attribute 'duration'"), []) ∧
      dispatchAlert willing operators failed =
        (.error (.attributeError "'ExecutionResult' object has no attribute 'duration'"), []) ∧
      ¬ AlertsFailures willing operators failed := by
  refine ⟨⟨rfl, rfl, fun _ _ => rfl, fun _ => rfl, rfl⟩, by decide, by decide +kernel,
    by decide +kernel, fun alerts => ?_⟩
  have returned := (alerts.sent (by decide)).returns
  revert returned
  decide +kernel

end EmailAlerter

end Cronwatch.Alerts
