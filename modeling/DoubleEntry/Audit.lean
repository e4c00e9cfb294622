import DoubleEntry.Command.Basic

/-!
# Audit records

What was done is recorded for the audit: the action, what it was about, who did it and when. Records
may be kept by publishing them as events.

## Main definitions

* `AuditRecord`: the records. `AuditRecord.of`: the record of an action on the resource of a
  command.
* `AuditRecord.toJson`, `AuditRecord.topic`: records as events.
-/

namespace DoubleEntry

/-- A record of an action. -/
structure AuditRecord where
  action : String
  entity : String
  entityId : String
  actor : String
  at_ : Instant
  details : Json

namespace AuditRecord

/-- The record of an action on the resource of a command. -/
def of (action : String) (resource : Resource) (entityId : String) (at_ : Instant)
    (details : Json) :
    AuditRecord :=
  ⟨action, resource.type, entityId, resource.actor, at_, details⟩

/-- The record as a JSON value. -/
def toJson (r : AuditRecord) : Json := .record [
  ("action", .str r.action),
  ("entity", .str r.entity),
  ("entity_id", .str r.entityId),
  ("actor", .str r.actor),
  ("at", r.at_.toJson),
  ("details", r.details)]

/-- The topic under which records are published where no other is given. -/
def topic : String := "ledger.audit"

end AuditRecord

instance : ToJson AuditRecord := ⟨AuditRecord.toJson⟩

end DoubleEntry
