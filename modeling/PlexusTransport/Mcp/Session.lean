import PlexusTransport.Lib.Machine
import PlexusTransport.Lib.Tasks

/-! # MCP sessions

The session manager's calls run beside each other, each from one `await` to the next. A
session is live while its handle is in memory; its row may outlive it.
-/

namespace PlexusTransport.Mcp

structure SessionRow (Id : Type) where
  id : Id
  createdAt : Int
  lastSeenAt : Int
  deriving DecidableEq, Repr

inductive SqliteSessionError (Id E : Type) where
  | sessionNotFound (id : Id)
  | sessionError (e : E)
  | invalidEventId (e : E)
  | databaseError (message : String)
  deriving DecidableEq, Repr

/-- How what a call awaits fails: the session's handle, the event id's parse, SQL. -/
inductive Fault (E : Type) where
  | session (e : E)
  | eventId (e : E)
  | sql (e : String)
  deriving DecidableEq, Repr

inductive SessionCall (Id : Type) where
  | create (id : Id)
  | close (id : Id)
  | resume (id : Id)
  | has (id : Id)
  deriving DecidableEq, Repr

def SessionCall.id {Id : Type} : SessionCall Id → Id
  | .create id | .close id | .resume id | .has id => id

inductive Reply (Id : Type) where
  | session (id : Id)
  | has (b : Bool)
  | done
  deriving DecidableEq, Repr

/-- Where a call is; a restart drops those under way. -/
inductive Stage (Id E : Type) where
  | begun
  | persisted
  | closing
  | deleting
  | resuming
  | touching
  | checking
  | found
  | inserted
  | recreated
  | again
  | removing
  | ended (r : Except (SqliteSessionError Id E) (Reply Id))
  | dropped

namespace Stage

variable {Id E : Type}

/-- It holds `sessions.write()`. -/
def writes : Stage Id E → Bool
  | .closing | .deleting => true
  | _ => false

/-- It holds `sessions.read()`. -/
def reads : Stage Id E → Bool
  | .resuming | .touching | .again => true
  | _ => false

def isEnded : Stage Id E → Bool
  | .ended _ => true
  | _ => false

def drop : Stage Id E → Stage Id E
  | .ended r => .ended r
  | _ => .dropped

end Stage

section Rows

variable {Id : Type} [DecidableEq Id] (id : Id) (now : Int) (rows : List (SessionRow Id))

def persistSession : List (SessionRow Id) := rows.filter (·.id ≠ id) ++ [⟨id, now, now⟩]

def touchSession : List (SessionRow Id) :=
  rows.map fun row => if row.id = id then { row with lastSeenAt := now } else row

def sessionExistsInDb : Bool := rows.any (·.id = id)

def removeSessionFromDb : List (SessionRow Id) := rows.filter (·.id ≠ id)

def cleanupOldSessions (maxSessionAge : Int) : List (SessionRow Id) :=
  rows.filter (now - maxSessionAge ≤ ·.lastSeenAt)

end Rows

structure SqliteSessionManager (Id E : Type) where
  sessions : Finset Id
  rows : List (SessionRow Id)
  calls : List (SessionCall Id × Stage Id E)

/-- `goes`: with the time it is, and how what the call awaits fails if it does. -/
inductive SessionEvent (Id E : Type) where
  | calls (c : SessionCall Id)
  | goes (i : Nat) (now : Int) (fault : Option (Fault E))
  | restarts (now : Int)

namespace SqliteSessionManager

variable {Id E : Type} [DecidableEq Id]

def start : SqliteSessionManager Id E := ⟨∅, [], []⟩

def writing (s : SqliteSessionManager Id E) : Bool := s.calls.any (·.2.writes)

/-- Whether `sessions.write()` can be had. -/
def free (s : SqliteSessionManager Id E) : Bool := !s.writing && !s.calls.any (·.2.reads)

def put (s : SqliteSessionManager Id E) (i : Nat) (c : SessionCall Id) (stage : Stage Id E) :
    SqliteSessionManager Id E :=
  { s with calls := s.calls.set i (c, stage) }

def ends (s : SqliteSessionManager Id E) (i : Nat) (c : SessionCall Id)
    (r : Except (SqliteSessionError Id E) (Reply Id)) : SqliteSessionManager Id E :=
  s.put i c (.ended r)

/-- A statement; `?` ends the call. -/
def sql (s : SqliteSessionManager Id E) (i : Nat) (c : SessionCall Id) (failed : String)
    (done : SqliteSessionManager Id E) : Option (Fault E) → Option (SqliteSessionManager Id E)
  | none => some done
  | some (.sql e) => some (s.ends i c (.error (.databaseError (failed ++ e))))
  | some _ => none

/-- A statement whose failure is let go, with `.ok()`. -/
def bestEffort (done failed : SqliteSessionManager Id E) :
    Option (Fault E) → Option (SqliteSessionManager Id E)
  | none => some done
  | some (.sql _) => some failed
  | some _ => none

/-- `handle.resume(last_event_id.parse()?).await?` -/
def handleResume (s : SqliteSessionManager Id E) (i : Nat) (c : SessionCall Id)
    (done : SqliteSessionManager Id E) : Option (Fault E) → Option (SqliteSessionManager Id E)
  | none => some done
  | some (.session e) => some (s.ends i c (.error (.sessionError e)))
  | some (.eventId e) => some (s.ends i c (.error (.invalidEventId e)))
  | some (.sql _) => none

section Calls

variable (s : SqliteSessionManager Id E) (i : Nat) (id : Id) (now : Int) (fault : Option (Fault E))

def createSession : Stage Id E → Option (SqliteSessionManager Id E)
  | .begun =>
      s.sql i (.create id) "Failed to persist session: "
        ({ s with rows := persistSession id now s.rows }.put i (.create id) .persisted) fault
  | .persisted =>
      if s.free then
        some ({ s with sessions := insert id s.sessions }.ends i (.create id) (.ok (.session id)))
      else none
  | _ => none

def closeSession : Stage Id E → Option (SqliteSessionManager Id E)
  | .begun =>
      if s.free then
        if id ∈ s.sessions then
          some ({ s with sessions := s.sessions.erase id }.put i (.close id) .closing)
        else some (s.put i (.close id) .deleting)
      else none
  | .closing =>
      match fault with
      | none => some (s.put i (.close id) .deleting)
      | some (.session e) => some (s.ends i (.close id) (.error (.sessionError e)))
      | some _ => none
  | .deleting =>
      s.sql i (.close id) "Failed to remove session: "
        ({ s with rows := removeSessionFromDb id s.rows }.ends i (.close id) (.ok .done)) fault
  | _ => none

/-- `recreate_session` is from `found` to `recreated`. -/
def resume : Stage Id E → Option (SqliteSessionManager Id E)
  | .begun =>
      if s.writing then none
      else if id ∈ s.sessions then some (s.put i (.resume id) .resuming)
      else some (s.put i (.resume id) .checking)
  | .resuming => s.handleResume i (.resume id) (s.put i (.resume id) .touching) fault
  | .touching =>
      bestEffort ({ s with rows := touchSession id now s.rows }.ends i (.resume id) (.ok .done))
        (s.ends i (.resume id) (.ok .done)) fault
  | .checking =>
      s.sql i (.resume id) "Failed to check session: "
        (if sessionExistsInDb id s.rows then s.put i (.resume id) .found
          else s.ends i (.resume id) (.error (.sessionNotFound id))) fault
  | .found =>
      if s.free then
        some ({ s with sessions := insert id s.sessions }.put i (.resume id) .inserted)
      else none
  | .inserted =>
      s.sql i (.resume id) "Failed to touch session: "
        ({ s with rows := touchSession id now s.rows }.put i (.resume id) .recreated) fault
  | .recreated =>
      if s.writing then none
      else if id ∈ s.sessions then some (s.put i (.resume id) .again)
      else some (s.ends i (.resume id) (.error (.sessionNotFound id)))
  | .again => s.handleResume i (.resume id) (s.ends i (.resume id) (.ok .done)) fault
  | _ => none

def hasSession : Stage Id E → Option (SqliteSessionManager Id E)
  | .begun =>
      if s.writing then none
      else if id ∈ s.sessions then some (s.ends i (.has id) (.ok (.has true)))
      else some (s.put i (.has id) .checking)
  | .checking =>
      s.sql i (.has id) "Failed to check session: "
        (if sessionExistsInDb id s.rows then s.put i (.has id) .removing
          else s.ends i (.has id) (.ok (.has false))) fault
  | .removing =>
      bestEffort
        ({ s with rows := removeSessionFromDb id s.rows }.ends i (.has id) (.ok (.has false)))
        (s.ends i (.has id) (.ok (.has false))) fault
  | _ => none

def goes : SessionCall Id → Stage Id E → Option (SqliteSessionManager Id E)
  | .create id => s.createSession i id now fault
  | .close id => s.closeSession i id fault
  | .resume id => s.resume i id now fault
  | .has id => s.hasSession i id fault

end Calls

/-- `session_id()` makes an id that no call has named. -/
def New (s : SqliteSessionManager Id E) (id : Id) : Prop := ∀ call ∈ s.calls, call.1.id ≠ id

instance (s : SqliteSessionManager Id E) (id : Id) : Decidable (s.New id) :=
  inferInstanceAs (Decidable (∀ call ∈ s.calls, call.1.id ≠ id))

def begin (s : SqliteSessionManager Id E) (c : SessionCall Id) : SqliteSessionManager Id E :=
  { s with calls := s.calls ++ [(c, .begun)] }

def restart (maxSessionAge : Int) (s : SqliteSessionManager Id E) (now : Int) :
    SqliteSessionManager Id E where
  sessions := ∅
  rows := cleanupOldSessions now s.rows maxSessionAge
  calls := s.calls.map fun (c, stage) => (c, stage.drop)

def step (maxSessionAge : Int) (s : SqliteSessionManager Id E) :
    SessionEvent Id E → Option (SqliteSessionManager Id E)
  | .calls (.create id) => if s.New id then some (s.begin (.create id)) else none
  | .calls c => some (s.begin c)
  | .goes i now fault => s.calls[i]?.bind fun (c, stage) => s.goes i now fault c stage
  | .restarts now => some (s.restart maxSessionAge now)

def machine (maxSessionAge : Int) : Machine (SqliteSessionManager Id E) (SessionEvent Id E) :=
  ⟨start, step maxSessionAge⟩

end SqliteSessionManager

end PlexusTransport.Mcp
