import SeedLogic.Resolution
import SeedLogic.Session.Cache
import SeedLogic.Tables.Integrity

/-!
# Sessions

A session holds the tables, the settings and the choice of bosses, together with the answers it
remembers and the events it has recorded. A query may fail; what it remembered and recorded before
it failed stays.
-/

namespace SeedLogic

/-- The state of a session. -/
structure Session where
  data : GameData
  settings : Settings
  /-- The items that the settings fix. -/
  predetermined : PredeterminedItems
  /-- The dungeons whose boss is marked as not required. -/
  notRequired : NameSet := {}
  cache : Cache := .empty
  /-- The recorded events, latest first. -/
  log : List AuditEvent := []

/-- A step of a session that cannot fail. -/
abbrev SessionM := StateM Session

/-- A step of a session that may fail. -/
abbrev Query := ExceptT LogicError SessionM

namespace Session

/-- The recorded events in the order in which they happened. -/
def events (s : Session) : List AuditEvent := s.log.reverse

/-- The state against which atoms are resolved. -/
def resolution (s : Session) : Resolution :=
  { data := s.data, settings := s.settings, predetermined := s.predetermined,
    notRequired := s.notRequired }

/-- The sizes of the tables in words. -/
def summary (data : GameData) : String :=
  Text.decimal data.macros.size ++ " macros, " ++ Text.decimal data.locations.size ++
    " general locations, " ++ Text.decimal data.entrances.length ++ " entrances"

/-- Starts a session, provided that the tables pass their integrity check. Either way one event
is recorded. -/
def start (settings : Settings) (data : GameData) : Except LogicError Session × AuditEvent :=
  match data.validate with
  | .error e => (.error e, .dataIntegrityError "initialize" e.message)
  | .ok () =>
    let event := AuditEvent.sessionStarted (summary data)
    (.ok { data, settings, predetermined := .derive settings, log := [event] }, event)

/-- Records an event. -/
def record (event : AuditEvent) : SessionM Unit :=
  modify fun s => { s with log := event :: s.log }

/-- Drops remembered answers and records how many. -/
def invalidate (scope : InvalidationScope) : SessionM Nat := do
  let s ← get
  let dropped := s.cache.dropped scope
  set { s with cache := s.cache.invalidate scope }
  record (.cacheInvalidated scope dropped)
  pure dropped

/-- Replaces the settings and forgets all answers. -/
def updateSettings (settings : Settings) : SessionM Unit := do
  modify fun s => { s with settings, predetermined := .derive settings }
  record .settingsUpdated
  discard (invalidate .all)

/-- Marks every boss as required again and forgets all answers. -/
def reset : SessionM Unit := do
  modify fun s => { s with notRequired := {} }
  record .sessionReset
  discard (invalidate .all)

/-- Records the failure of an operation, if it fails. -/
def audited {α : Type} (operation : String) (query : Query α) : Query α :=
  ExceptT.mk do
    let result ← query.run
    match result with
    | .error e => record (.dataIntegrityError operation e.message)
    | .ok _ => pure ()
    pure result

/-- Answers a question from the cache, or computes the answer and remembers it. A failure is not
remembered. -/
def remember (q : Question) (compute : Query q.Answer) : Query q.Answer := do
  match (← get).cache.get? q with
  | some answer => pure answer
  | none => do
    let answer ← compute
    modify fun s => { s with cache := s.cache.insert q answer }
    pure answer

end Session

end SeedLogic
