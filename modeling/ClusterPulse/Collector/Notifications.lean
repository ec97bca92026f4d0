import ClusterPulse.Collector.Calls

/-!
# Notifications

The texts of the messages, and `TelegramNotifier`, which makes one attempt to deliver a text and catches
the errors of its HTTP client.  An environment with such a notifier is one whose calls of the notifier
fail with what is left.
-/

namespace ClusterPulse

/-! ## Formatting -/

def Severity.value : Severity → String
  | warning => "warning"
  | critical => "critical"

/-- `_SEVERITY_ICONS`. -/
def severityIcon : Severity → String
  | .critical => "🔴"
  | .warning => "🟡"

section Formatting

-- `str` of a number
variable (floatText : Double → String)

/-- Render the message sent when an alert first starts firing. -/
def formatOpened (alert : AlertRecord) : String :=
  severityIcon alert.severity ++ " ALERT #" ++ toString alert.id ++
    " [" ++ alert.severity.value.toUpper ++ "] " ++ alert.nodeId ++ ": " ++ alert.description ++
    " (value=" ++ floatText alert.triggeringValue ++ ", bound=" ++ floatText alert.bound ++ ")"

def formatEscalated (alert : AlertRecord) : String :=
  "🔺 ESCALATED ALERT #" ++ toString alert.id ++ " — still firing and unacknowledged " ++
    "[" ++ alert.severity.value.toUpper ++ "] " ++ alert.nodeId ++ ": " ++ alert.description

def formatResolved (alert : AlertRecord) : String :=
  "✅ RESOLVED ALERT #" ++ toString alert.id ++
    " [" ++ alert.severity.value.toUpper ++ "] " ++ alert.nodeId ++ ": " ++ alert.description

/-- The text handed to the notifier. -/
def Notification.text : Notification → String
  | opened alert => formatOpened floatText alert
  | escalated alert => formatEscalated alert
  | resolved alert => formatResolved alert

end Formatting

/-! ## Telegram -/

/-- What becomes of a request to the Bot API. -/
inductive TelegramOutcome where
  | responds (statusCode : ℕ)
  /-- An `httpx.HTTPError`. -/
  | httpError (message : String)
  /-- Any other exception. -/
  | raises (e : PyError)
deriving DecidableEq, Repr

namespace TelegramNotifier

def httpClientErrorThreshold : ℕ := 400

/-- Attempt to deliver a message: whether it succeeded. -/
def notify : TelegramOutcome → Except PyError Bool
  | .responds statusCode =>
    if httpClientErrorThreshold ≤ statusCode then .ok false else .ok true
  | .httpError _ => .ok false
  | .raises e => .error e

end TelegramNotifier

/-- The environment in which notifications go through Telegram; `client` tells what becomes of the
request made by the `n`-th call, with this text. -/
def Environment.withTelegram (env : Environment) (floatText : Double → String)
    (client : ℕ → String → TelegramOutcome) : Environment where
  fault n c := match c with
    | .notify message =>
      match TelegramNotifier.notify (client n (message.text floatText)) with
      | .error e => some e
      | .ok _ => none
    | c => env.fault n c
  scan := env.scan

end ClusterPulse
