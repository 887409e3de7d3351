import DracVms.Alarms.AlarmsService

namespace DracVms.Jobs

open Json (Text field setField)
open Database
open Alarms (spread itemsOf optional text transitionHistory snoozeOf historyKey snoozeKey
  field_spread historyKey_named snoozeKey_named)
open JsDate (toISOString)
open Protection (camposDe)

/-- What a delivery leaves in the document of its alarm. -/
structure DeliveryEntry where
  time : Text
  channel : Text
  status : Text
  reason : Option Text
  /-- The job, the attempt, or the stage of a receipt. -/
  more : List (Text × Metadata)

def DeliveryEntry.document (entry : DeliveryEntry) : Metadata :=
  .object ([("at".toList, text entry.time), ("channel".toList, text entry.channel),
    ("status".toList, text entry.status), ("reason".toList, optional entry.reason)] ++ entry.more)

def deliveryKey : Text := "notificationDelivery".toList

def lastStatusKey : Text := "lastNotificationStatus".toList

def lastTimeKey : Text := "lastNotificationAt".toList

/-- `delivery.slice(-30)` -/
def lastThirty (delivery : List Metadata) : List Metadata := delivery.drop (delivery.length - 30)

/-- The document after a delivery: the last thirty of them stay. -/
def appendDelivery (entry : DeliveryEntry) (metadata : Option Metadata) : Metadata :=
  let base := spread metadata
  let delivery := itemsOf (field base deliveryKey) ++ [entry.document]
  .object (setField (setField (setField base
    (deliveryKey, .array (lastThirty delivery)))
    (lastStatusKey, text entry.status))
    (lastTimeKey, text entry.time))

/-- The document after the receipts of a push. -/
def appendPushOutcome (entry : DeliveryEntry) (metadata : Option Metadata) : Metadata :=
  let base := spread metadata
  .object (setField base
    (deliveryKey, .array (itemsOf (field base deliveryKey) ++ [entry.document])))

variable (entry : DeliveryEntry)

section

variable (metadata : Option Metadata)

/-- Neither of them touches the history or the snooze. -/
theorem appendDelivery_field (key : Text) (named : ∃ c ∈ key, c.isDigit = false)
    (delivery : deliveryKey ≠ key) (status : lastStatusKey ≠ key) (time : lastTimeKey ≠ key) :
    field (camposDe (some (appendDelivery entry metadata))) key =
      field (camposDe metadata) key := by
  rw [appendDelivery, camposDe, Json.field_setField, if_neg time, Json.field_setField,
    if_neg status, Json.field_setField, if_neg delivery, field_spread metadata key named]

theorem appendPushOutcome_field (key : Text) (named : ∃ c ∈ key, c.isDigit = false)
    (delivery : deliveryKey ≠ key) :
    field (camposDe (some (appendPushOutcome entry metadata))) key =
      field (camposDe metadata) key := by
  rw [appendPushOutcome, camposDe, Json.field_setField, if_neg delivery,
    field_spread metadata key named]

theorem appendDelivery_history :
    transitionHistory (some (appendDelivery entry metadata)) = transitionHistory metadata := by
  rw [transitionHistory, appendDelivery_field entry metadata _ historyKey_named (by decide)
    (by decide) (by decide)]
  rfl

theorem appendDelivery_snooze :
    snoozeOf (some (appendDelivery entry metadata)) = snoozeOf metadata :=
  appendDelivery_field entry metadata _ snoozeKey_named (by decide) (by decide) (by decide)

theorem appendPushOutcome_history :
    transitionHistory (some (appendPushOutcome entry metadata)) = transitionHistory metadata := by
  rw [transitionHistory, appendPushOutcome_field entry metadata _ historyKey_named (by decide)]
  rfl

theorem appendPushOutcome_snooze :
    snoozeOf (some (appendPushOutcome entry metadata)) = snoozeOf metadata :=
  appendPushOutcome_field entry metadata _ snoozeKey_named (by decide)

end

end DracVms.Jobs
