import DracVms.Database.Events
import DracVms.Library.JsString
import DracVms.Recordings.Protection

namespace DracVms.Alarms

open Json (Text field)
open Database

inductive Channel where
  | webhook
  | email
  | push
  deriving DecidableEq, Repr

def defaultPlan : AlarmPriority → List Channel
  | .p1 => [.webhook, .email, .push]
  | .p2 => [.webhook, .email, .push]
  | .p3 => [.webhook, .push]
  | .p4 => [.webhook, .push]

def priorityText : AlarmPriority → Text
  | .p1 => ['P', '1']
  | .p2 => ['P', '2']
  | .p3 => ['P', '3']
  | .p4 => ['P', '4']

def channelOf (name : Text) : Option Channel :=
  if name = "webhook".toList then some .webhook
  else if name = "email".toList then some .email
  else if name = "push".toList then some .push
  else none

/-- `value ?? fallback` -/
def orElse (value fallback : Option Metadata) : Option Metadata :=
  match value with
  | none => fallback
  | some (.atom .null) => fallback
  | some other => some other

/-- The texts of a list; anything else makes the reading of the policy fail. -/
def namesOf : List Metadata → Option (List Text)
  | [] => some []
  | .atom (.string name) :: rest => (namesOf rest).map (name :: ·)
  | _ :: _ => none

def withPush (channels : List Channel) : List Channel :=
  if .push ∈ channels then channels else channels ++ [.push]

section Plan

/- The Unicode lower case. -/
variable (toLowerCase : Text → Text)

/-- The channels that a policy gives, in its order and with its repetitions, and the push anyway. -/
def plannedBy (names : List Text) : List Channel :=
  withPush (names.filterMap fun name => channelOf (JsString.trim (toLowerCase name)))

/-- The policy is what `JSON.parse` makes of the setting, if it can. -/
def resolveChannelPlan (policyRaw : Text) (parsed : Option Metadata) (priority : AlarmPriority) :
    List Channel :=
  if JsString.trim policyRaw = [] then defaultPlan priority
  else match parsed with
    | none => defaultPlan priority
    | some (.atom .null) => defaultPlan priority
    | some policy =>
      let fields := Protection.camposDe (some policy)
      match orElse (field fields (priorityText priority))
          (orElse (field fields ['P', '4']) none) with
      | none => withPush (defaultPlan .p4)
      | some (.array items) =>
        match namesOf items with
        | some names => plannedBy toLowerCase names
        | none => defaultPlan priority
      | some _ => defaultPlan priority

/-- The job of one alarm. -/
structure NotificationJob where
  alarmId : Text
  ruleId : Option Text
  channels : List Channel
  attempts : ℕ

/-- The job of an opened alarm, unless another of its kind was notified a moment ago. -/
def notifyOnOpen (policyRaw : Text) (parsed : Option Metadata) (suppressed : Bool)
    (alarm : AlarmInstance) (ruleId : Option Text) : Option NotificationJob :=
  if suppressed then none
  else some ⟨alarm.id, ruleId, resolveChannelPlan toLowerCase policyRaw parsed alarm.priority, 4⟩

end Plan

end DracVms.Alarms
