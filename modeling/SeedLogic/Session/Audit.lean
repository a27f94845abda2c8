import SeedLogic.Data.Datum

/-!
# Audit events

A session records when it starts, when its settings or bosses change, what an invalidation drops,
and which queries failed.
-/

namespace SeedLogic

/-- Which remembered answers an invalidation drops. -/
inductive InvalidationScope where
  | all
  /-- Only the answers that depend on which bosses are required. -/
  | bossDependent
deriving DecidableEq, Repr

/-- The name of a scope in the audit log. -/
def InvalidationScope.name : InvalidationScope → String
  | .all => "all"
  | .bossDependent => "boss_dependent"

/-- Something that a session records. -/
inductive AuditEvent where
  | sessionStarted (summary : String)
  | settingsUpdated
  | sessionReset
  | cacheInvalidated (scope : InvalidationScope) (entriesDropped : Nat)
  | bossRequirementChanged (dungeon : String) (required : Bool)
  | dataIntegrityError (operation message : String)
deriving DecidableEq, Repr

namespace AuditEvent

/-- The name of an event in the audit log. -/
def name : AuditEvent → String
  | .sessionStarted _ => "session_initialized"
  | .settingsUpdated => "settings_updated"
  | .sessionReset => "session_reset"
  | .cacheInvalidated .. => "cache_invalidated"
  | .bossRequirementChanged .. => "boss_requirement_changed"
  | .dataIntegrityError .. => "data_integrity_error"

/-- The fields of an event besides its name and time. -/
def details : AuditEvent → List (String × Datum)
  | .sessionStarted summary => [("message", .text summary)]
  | .settingsUpdated => []
  | .sessionReset => []
  | .cacheInvalidated scope dropped =>
    [("scope", .text scope.name), ("entries_dropped", .integer dropped)]
  | .bossRequirementChanged dungeon required =>
    [("dungeon", .text dungeon), ("required", .boolean required)]
  | .dataIntegrityError operation message =>
    [("operation", .text operation), ("message", .text message)]

/-- The record of an event, with the time in milliseconds if there is a clock. -/
def toDatum (event : AuditEvent) (time : Option Nat) : Datum :=
  .table <|
    ("event", .text event.name) ::
      ((time.map fun ms => ("timestamp_ms", Datum.integer ms)).toList ++ event.details)

end AuditEvent

end SeedLogic
