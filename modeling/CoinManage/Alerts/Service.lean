import CoinManage.Core
import CoinManage.Lib.OrderedMap

/-!
# Alerts

The alert service hands messages to a notifier and remembers, for every key, the text it sent last: a message
with the same key and the same text is not sent again.  The notifier delivers whatever it is handed.

* `AlertService.send`            the early returns, the delivery, the memory;
* `send_delivered`, `send_memory`, `send_other`   what a message does to the log and to the memory.
-/

structure AlertMessage where
  title : String
  body : String
  dedupeKey : Option String
  deriving DecidableEq

structure SendInput extends AlertMessage where
  cooldownSec : Option ℚ := none

structure SentAlert where
  signature : String
  sentAtMs : ℤ
  deriving DecidableEq

/-- the memory of the service, and what the notifier has delivered -/
structure AlertService where
  lastSentByKey : OrderedMap String SentAlert
  delivered : List AlertMessage

namespace AlertService

def new : AlertService := ⟨.empty, []⟩

def signature (message : AlertMessage) : String := message.title ++ "\n" ++ message.body

/-- the two early returns for a message that was sent before -/
def isDuplicate (a : AlertService) (nowMs : ℤ) (input : SendInput) : Bool :=
  match input.dedupeKey.bind a.lastSentByKey.get? with
  | none => false
  | some previous =>
    previous.signature == signature input.toAlertMessage &&
      match input.cooldownSec with
      | some cooldownSec => decide ((nowMs - previous.sentAtMs : ℚ) < cooldownSec * 1000)
      | none => true

def send (nowMs : ℤ) (input : SendInput) (a : AlertService) : AlertService :=
  if a.isDuplicate nowMs input then a
  else
    { lastSentByKey := match input.dedupeKey with
        | some key => a.lastSentByKey.set key ⟨signature input.toAlertMessage, nowMs⟩
        | none => a.lastSentByKey
      delivered := a.delivered ++ [input.toAlertMessage] }

def healthCheckUnhealthy (targetName targetUrl detail : String) (consecutiveFailures : Nat) : SendInput where
  title := "[KORION] Health Down - " ++ targetName
  body := "\n".intercalate ["url=" ++ targetUrl, "detail=" ++ detail,
    "consecutiveFailures=" ++ toString consecutiveFailures]
  dedupeKey := some ("health-unhealthy:" ++ targetName ++ ":" ++ targetUrl)

def notifyHealthCheckUnhealthy (nowMs : ℤ) (targetName targetUrl detail : String) (consecutiveFailures : Nat)
    (a : AlertService) : AlertService :=
  send nowMs (healthCheckUnhealthy targetName targetUrl detail consecutiveFailures) a

def healthCheckRecovered (targetName targetUrl : String) : SendInput where
  title := "[KORION] Health Recovered - " ++ targetName
  body := "url=" ++ targetUrl
  dedupeKey := some ("health-recovered:" ++ targetName ++ ":" ++ targetUrl)

def notifyHealthCheckRecovered (nowMs : ℤ) (targetName targetUrl : String) (a : AlertService) : AlertService :=
  send nowMs (healthCheckRecovered targetName targetUrl) a

def externalEvent (title : String) (bodyLines : List String) (dedupeKey : String) : SendInput where
  title := title
  body := "\n".intercalate bodyLines
  dedupeKey := some ("external-event:" ++ dedupeKey)

def notifyExternalEvent (nowMs : ℤ) (title : String) (bodyLines : List String) (dedupeKey : String)
    (a : AlertService) : AlertService := send nowMs (externalEvent title bodyLines dedupeKey) a

/-! ## what a message does -/

/-- the text last sent under a key -/
def lastText (a : AlertService) (key : String) : Option String := (a.lastSentByKey.get? key).map (·.signature)

section
variable {nowMs : ℤ} {input : SendInput} {key : String}

theorem isDuplicate_iff (a : AlertService) (hkey : input.dedupeKey = some key) (hcool : input.cooldownSec = none) :
    a.isDuplicate nowMs input = true ↔ a.lastText key = some (signature input.toAlertMessage) := by
  unfold isDuplicate lastText
  rw [hkey, hcool, Option.bind_some]
  cases a.lastSentByKey.get? key with
  | none => simp
  | some previous => simp

/-- a text that is not the last one under its key is delivered -/
theorem send_delivered (a : AlertService) (hkey : input.dedupeKey = some key) (hcool : input.cooldownSec = none) :
    (send nowMs input a).delivered =
      a.delivered ++ if a.lastText key = some (signature input.toAlertMessage) then []
        else [input.toAlertMessage] := by
  have hiff := @isDuplicate_iff nowMs _ _ a hkey hcool
  unfold send
  by_cases h : a.isDuplicate nowMs input = true
  · rw [if_pos h, if_pos (hiff.mp h), List.append_nil]
  · rw [if_neg h, if_neg fun hsame => h (hiff.mpr hsame)]

/-- and it is the last one afterwards -/
theorem send_memory (a : AlertService) (hkey : input.dedupeKey = some key) (hcool : input.cooldownSec = none) :
    (send nowMs input a).lastText key = some (signature input.toAlertMessage) := by
  have hiff := @isDuplicate_iff nowMs _ _ a hkey hcool
  unfold send
  by_cases h : a.isDuplicate nowMs input = true
  · rw [if_pos h]
    exact hiff.mp h
  · rw [if_neg h, hkey]
    simp [lastText]

theorem send_other (a : AlertService) (hkey : input.dedupeKey = some key) {other : String} (h : key ≠ other) :
    (send nowMs input a).lastText other = a.lastText other := by
  unfold send
  split
  · rfl
  · rw [hkey]
    unfold lastText
    rw [OrderedMap.get?_set_of_ne _ h]

end

end AlertService
