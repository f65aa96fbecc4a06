import DataPipeline.Ingestor.Roles
import DataPipeline.Library.Json

/-! The notifications of `ingestor/notifications.py`: the channels that are
selected, the request that each of them makes, and the report of a dispatch.

Every client is given the same timeout, which is left out.
-/

set_option autoImplicit false

namespace DataPipeline.Ingestor.Notifications

open Encoding

inductive Channel where
  | slack
  | telegram
  | webhook
  | email
  deriving DecidableEq

def Channel.name : Channel → String
  | .slack => "slack"
  | .telegram => "telegram"
  | .webhook => "webhook"
  | .email => "email"

structure NotificationSettings where
  enabled : Bool
  defaultChannels : String
  slackWebhookUrl : Option String
  telegramBotToken : Option String
  telegramChatId : Option String
  webhookUrl : Option String
  emailProvider : String
  resendApiKey : Option String
  emailFrom : Option String
  emailTo : Option String

inductive ContextValue where
  | text (value : String)
  | int (value : Nat)

def ContextValue.str : ContextValue → String
  | .text value => value
  | .int value => toString value

def ContextValue.toJson : ContextValue → Json
  | .text value => .str (Text.ofString value)
  | .int value => .int value

structure Notification where
  event : String
  message : String
  severity : String
  context : List (String × ContextValue)

structure Post where
  url : String
  payload : Json
  headers : List (String × String)

def text (value : String) : Json := .str (Text.ofString value)

def object (entries : List (String × Json)) : Json := .dict (entries.map fun entry => (Text.ofString entry.1, entry.2))

/-- A setting that is neither missing nor empty. -/
def given (setting : Option String) : Option String := setting.filter (· ≠ "")

def severityWarning : String := "warning"

section

variable (isFinal : List Char → List Char → Bool) (upper : String → String)

def channelOf (value : String) : Option Channel :=
  [Channel.slack, .telegram, .webhook, .email].find? fun channel => channel.name = value

def parts (raw : String) : List String :=
  ((raw.toList.splitOn ',').map String.ofList).filter fun part => Roles.strip part ≠ ""

def parseChannels (raw : String) : List Channel :=
  ((parts raw).map (Roles.normalized isFinal)).filterMap channelOf

def emailRecipients (settings : NotificationSettings) : List String :=
  match given settings.emailTo with
  | none => []
  | some emailTo => (parts emailTo).map Roles.strip

def title (notification : Notification) : String :=
  "[" ++ upper notification.severity ++ "] " ++ notification.event

def color (severity : String) : String :=
  if severity = "critical" then "danger" else if severity = severityWarning then "warning" else "good"

def sendSlack (settings : NotificationSettings) (notification : Notification) : Except String Post :=
  match given settings.slackWebhookUrl with
  | none => .error "notification_slack_webhook_url is not configured"
  | some url => .ok {
      url
      payload := object [("attachments", .list [object [
        ("color", text (color notification.severity)),
        ("title", text (title upper notification)),
        ("text", text notification.message),
        ("fields", .list (notification.context.map fun entry =>
          object [("title", text entry.1), ("value", text entry.2.str), ("short", .bool true)]))]])]
      headers := [] }

def sendTelegram (settings : NotificationSettings) (notification : Notification) : Except String Post :=
  match given settings.telegramBotToken, given settings.telegramChatId with
  | some token, some chatId =>
    let lines := [title upper notification, notification.message] ++
      notification.context.map fun entry => entry.1 ++ ": " ++ entry.2.str
    .ok {
      url := "https://api.telegram.org/bot" ++ token ++ "/sendMessage"
      payload := object [("chat_id", text chatId), ("text", text ("\n".intercalate lines))]
      headers := [] }
  | _, _ => .error "notification_telegram_bot_token or notification_telegram_chat_id missing"

def sendWebhook (settings : NotificationSettings) (notification : Notification) : Except String Post :=
  match given settings.webhookUrl with
  | none => .error "notification_webhook_url is not configured"
  | some url => .ok {
      url
      payload := object [
        ("event", text notification.event),
        ("severity", text notification.severity),
        ("message", text notification.message),
        ("context", object (notification.context.map fun entry => (entry.1, entry.2.toJson)))]
      headers := [] }

def emailBody (notification : Notification) : String :=
  notification.message ++ "\n\nSeverity: " ++ notification.severity ++ "\nEvent: " ++ notification.event ++
    "\n\nContext:\n" ++
      "\n".intercalate (notification.context.map fun entry => "- " ++ entry.1 ++ ": " ++ entry.2.str) ++ "\n"

def sendEmail (settings : NotificationSettings) (notification : Notification) : Except String Post :=
  if Roles.normalized isFinal settings.emailProvider ≠ "resend" then
    .error "Only resend provider is supported in this baseline"
  else
    match given settings.resendApiKey, given settings.emailFrom, emailRecipients settings with
    | none, _, _ => .error "notification_resend_api_key is not configured"
    | some _, none, _ => .error "notification_email_from is not configured"
    | some _, some _, [] => .error "notification_email_to is not configured"
    | some key, some sender, first :: rest => .ok {
        url := "https://api.resend.com/emails"
        payload := object [
          ("from", text sender),
          ("to", .list ((first :: rest).map text)),
          ("subject", text (title upper notification)),
          ("text", text (emailBody notification))]
        headers := [("Authorization", "Bearer " ++ key), ("Content-Type", "application/json")] }

/-- `_dispatch_to_channel` up to its request, or the `ValueError` without one. -/
def dispatchToChannel (settings : NotificationSettings) (notification : Notification) :
    Channel → Except String Post
  | .slack => sendSlack upper settings notification
  | .telegram => sendTelegram upper settings notification
  | .webhook => sendWebhook settings notification
  | .email => sendEmail isFinal upper settings notification

end

/-- What `_dispatch_to_channel` returns for a request that has been answered well. -/
def Channel.delivered : Channel → String
  | .slack => "slack webhook delivered"
  | .telegram => "telegram message delivered"
  | .webhook => "webhook delivered"
  | .email => "resend email delivered"

inductive DispatchStatus where
  | sent
  | failed
  deriving DecidableEq

structure NotificationDispatchResult where
  channel : Channel
  status : DispatchStatus
  detail : String
  deriving DecidableEq

structure DispatchReport where
  event : String
  severity : String
  sent : Nat
  failed : Nat
  results : List NotificationDispatchResult
  detail : Option String

section

variable (isFinal : List Char → List Char → Bool) (upper : String → String)

/-- One round of the loop over the channels. -/
def dispatchResult (settings : NotificationSettings) (notification : Notification) (channel : Channel)
    (answer : Except String Unit) : NotificationDispatchResult :=
  match dispatchToChannel isFinal upper settings notification channel with
  | .error error => ⟨channel, .failed, error⟩
  | .ok _ =>
    match answer with
    | .error error => ⟨channel, .failed, error⟩
    | .ok () => ⟨channel, .sent, channel.delivered⟩

/-- `channels or _default_channels()` -/
def selectedChannels (settings : NotificationSettings) (channels : Option (List Channel)) : List Channel :=
  match channels with
  | none | some [] => parseChannels isFinal settings.defaultChannels
  | some (first :: rest) => first :: rest

/-- What is posted for the channels that are configured. -/
def requests (settings : NotificationSettings) (notification : Notification) (channels : List Channel) : List Post :=
  channels.filterMap fun channel => (dispatchToChannel isFinal upper settings notification channel).toOption

/-- `dispatch_notification_event`, with what is posted; `answers` says how the
request for the channel at a position ends, if there is one. -/
def dispatchNotificationEvent (settings : NotificationSettings) (notification : Notification)
    (channels : Option (List Channel)) (answers : Nat → Except String Unit) : DispatchReport × List Post :=
  if settings.enabled = false then
    (⟨notification.event, notification.severity, 0, 0, [], some "notifications disabled"⟩, [])
  else
    let selected := selectedChannels isFinal settings channels
    let results := selected.zipIdx.map fun entry =>
      dispatchResult isFinal upper settings notification entry.1 (answers entry.2)
    (⟨notification.event, notification.severity, results.countP (·.status = .sent),
      results.countP (·.status = .failed), results, none⟩,
      requests isFinal upper settings notification selected)

end

variable {isFinal : List Char → List Char → Bool} {upper : String → String} {settings : NotificationSettings}
  {notification : Notification} {channel : Channel}

/-! ## What a channel needs -/

def Configured (isFinal : List Char → List Char → Bool) (settings : NotificationSettings) : Channel → Prop
  | .slack => ∃ url ≠ "", settings.slackWebhookUrl = some url
  | .telegram => (∃ token ≠ "", settings.telegramBotToken = some token) ∧
      ∃ chatId ≠ "", settings.telegramChatId = some chatId
  | .webhook => ∃ url ≠ "", settings.webhookUrl = some url
  | .email => Roles.normalized isFinal settings.emailProvider = "resend" ∧
      (∃ key ≠ "", settings.resendApiKey = some key) ∧ (∃ sender ≠ "", settings.emailFrom = some sender) ∧
      ∃ emailTo, settings.emailTo = some emailTo ∧ parts emailTo ≠ []

theorem given_eq_some {setting : Option String} {value : String} :
    given setting = some value ↔ setting = some value ∧ value ≠ "" := by
  rw [given, Option.filter_eq_some_iff, decide_eq_true_iff]

theorem given_isSome {setting : Option String} : (given setting).isSome = true ↔ ∃ value ≠ "", setting = some value := by
  rw [Option.isSome_iff_exists]
  exact exists_congr fun value => given_eq_some.trans and_comm

theorem emailRecipients_ne_nil :
    emailRecipients settings ≠ [] ↔ ∃ emailTo, settings.emailTo = some emailTo ∧ parts emailTo ≠ [] := by
  unfold emailRecipients
  constructor
  · intro some
    split at some
    next => exact absurd rfl some
    next emailTo present => exact ⟨emailTo, (given_eq_some.mp present).1, fun none => some (by rw [none, List.map_nil])⟩
  · rintro ⟨emailTo, present, named⟩
    -- An empty setting has no part.
    have filled : emailTo ≠ "" := by
      rintro rfl
      exact named rfl
    rw [given_eq_some.mpr ⟨present, filled⟩]
    exact fun none => named (List.map_eq_nil_iff.mp none)

theorem dispatchToChannel_isOk :
    (dispatchToChannel isFinal upper settings notification channel).toOption.isSome = true ↔
      Configured isFinal settings channel := by
  cases channel with
  | slack =>
    simp only [dispatchToChannel, sendSlack, Configured, ← given_isSome]
    cases given settings.slackWebhookUrl <;> simp [Except.toOption]
  | telegram =>
    simp only [dispatchToChannel, sendTelegram, Configured, ← given_isSome]
    cases given settings.telegramBotToken <;> cases given settings.telegramChatId <;> simp [Except.toOption]
  | webhook =>
    simp only [dispatchToChannel, sendWebhook, Configured, ← given_isSome]
    cases given settings.webhookUrl <;> simp [Except.toOption]
  | email =>
    simp only [dispatchToChannel, sendEmail, Configured, ← given_isSome, ← emailRecipients_ne_nil]
    by_cases provider : Roles.normalized isFinal settings.emailProvider = "resend"
    · cases given settings.resendApiKey <;> cases given settings.emailFrom <;> cases emailRecipients settings <;>
        simp [provider, Except.toOption]
    · simp [provider, Except.toOption]

/-! ## The report -/

theorem dispatchResult_channel (answer : Except String Unit) :
    (dispatchResult isFinal upper settings notification channel answer).channel = channel := by
  unfold dispatchResult
  split
  next => rfl
  next => split <;> rfl

theorem dispatchResult_sent (answer : Except String Unit) :
    (dispatchResult isFinal upper settings notification channel answer).status = .sent ↔
      Configured isFinal settings channel ∧ answer = .ok () := by
  rw [← @dispatchToChannel_isOk isFinal upper settings notification channel]
  unfold dispatchResult
  cases dispatchToChannel isFinal upper settings notification channel with
  | error error => simp [Except.toOption]
  | ok post => cases answer <;> simp [Except.toOption]

/-- A dispatch reports on every channel in turn: one that is not configured fails,
and neither this nor a request that fails touches the others. -/
theorem dispatch_reports (enabled : settings.enabled = true) (channels : Option (List Channel))
    (answers : Nat → Except String Unit) {report : DispatchReport} {posts : List Post}
    (dispatched : dispatchNotificationEvent isFinal upper settings notification channels answers = (report, posts)) :
    report.results.map NotificationDispatchResult.channel = selectedChannels isFinal settings channels ∧
      report.sent + report.failed = report.results.length ∧
      ∀ (position : Nat) (result : NotificationDispatchResult), report.results[position]? = some result →
        (result.status = .sent ↔ Configured isFinal settings result.channel ∧ answers position = .ok ()) := by
  rw [dispatchNotificationEvent, if_neg (by simp [enabled])] at dispatched
  cases dispatched
  refine ⟨?_, ?_, ?_⟩
  · rw [List.map_map]
    have same : (NotificationDispatchResult.channel ∘ fun entry : Channel × Nat =>
        dispatchResult isFinal upper settings notification entry.1 (answers entry.2)) = Prod.fst :=
      funext fun entry => dispatchResult_channel (answers entry.2)
    rw [same, List.zipIdx_map_fst]
  · rw [List.length_eq_countP_add_countP fun result : NotificationDispatchResult => result.status = .sent]
    congr 1
    refine List.countP_congr fun result _ => ?_
    cases result.status <;> simp
  · intro position result found
    rw [List.getElem?_map, List.getElem?_zipIdx, Option.map_map] at found
    obtain ⟨channel, -, rfl⟩ := Option.map_eq_some_iff.mp found
    rw [Function.comp_apply, dispatchResult_channel, Nat.zero_add]
    exact dispatchResult_sent (answers position)

theorem dispatch_posts (channels : Option (List Channel)) (answers : Nat → Except String Unit) :
    (dispatchNotificationEvent isFinal upper settings notification channels answers).2 =
      if settings.enabled = false then []
      else requests isFinal upper settings notification (selectedChannels isFinal settings channels) := by
  unfold dispatchNotificationEvent
  split <;> rfl

end DataPipeline.Ingestor.Notifications
