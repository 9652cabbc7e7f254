import PlexusTransport.Lib.Loop
import PlexusTransport.Mcp.Bridge

/-! # Registering a backend

One exchange with the registry: the connection, the namespace its `_info` names, and the
call whose events confirm it.
-/

namespace PlexusTransport.Registration

/-- An error, and what it was met at before it. -/
abbrev Chain : Type := List String

/-- What a subscription gives next; `elapsed`: nothing for `CALL_TIMEOUT`. -/
inductive Next where
  | elapsed
  | ended
  | failed (e : String)
  | item (v : Json)

structure RegistryRegistration where
  url : String
  name : String
  host : String
  port : UInt16
  version : String
  schemaHash : String

def typeOf (v : Json) : Option String := (Mcp.member "type" v).bind Json.string?

def contentOf (v : Json) : Json := (Mcp.member "content" v).getD .null

def backendOf (v : Json) : Option String :=
  ((Mcp.member "content" v).bind (Mcp.member "backend")).bind Json.string?

def messageOr (default : String) (v : Json) : String :=
  ((Mcp.member "message" v).bind Json.string?).getD default

/-- What the registry's endpoint does when it is reached; `connected` is `none` when
    `CONNECT_TIMEOUT` has elapsed. -/
structure Reach where
  connected : Option (Except String Unit)
  subscribed : Except String Unit
  info : List Next

/-- What it does when it is asked. -/
structure Answer where
  subscribed : Except String Unit
  stream : List Next

def connect (url : String) : Option (Except String Unit) → Except Chain Unit
  | none => .error [s!"timed out connecting to registry at {url}"]
  | some (.error e) => .error [s!"connecting to registry at {url}", e]
  | some (.ok _) => .ok ()

def noBackendName : Chain := ["registry endpoint _info returned no backend name"]

/-- A pass of `discover_namespace`'s loop, which may leave it. -/
def infoItem (_ : Unit) : Next → Except (Except Chain String) Unit
  | .elapsed => .error (.error ["timed out waiting for _info from the registry"])
  | .ended => .error (.error noBackendName)
  | .failed e => .error (.error ["reading _info stream item", e])
  | .item v =>
      match typeOf v with
      | some "data" =>
          match backendOf v with
          | some name => .error (.ok name)
          | none => .ok ()
      | some "error" =>
          .error (.error ["_info error from registry endpoint: " ++ messageOr "unknown" v])
      | some "done" => .error (.error noBackendName)
      | _ => .ok ()

/-- The namespace, an error, or neither while it waits. -/
def discoverNamespace (r : Reach) : Option (Except Chain String) :=
  match r.subscribed with
  | .error e => some (.error ["subscribing to _info at the registry endpoint", e])
  | .ok _ => Loop.left? (r.info.foldlM infoItem ())

/-- A pass of `call_registry`'s loop. -/
def callItem (method : String) (out : List Json) : Next → Except (Except Chain (List Json)) (List Json)
  | .elapsed => .error (.error [s!"timed out waiting for registry.{method} response"])
  | .ended => .error (.ok out)
  | .failed e => .error (.error [s!"reading registry.{method} stream item", e])
  | .item v =>
      match typeOf v with
      | some "data" =>
          if typeOf (contentOf v) = some "error" then
            .error (.error
              [s!"registry.{method} failed: " ++ messageOr "unknown error" (contentOf v)])
          else .ok (out ++ [contentOf v])
      | some "error" =>
          .error (.error [s!"registry.{method} failed: " ++ messageOr "unknown error" v])
      | some "done" => .error (.ok out)
      | _ => .ok out

def callRegistry (ns method : String) (a : Answer) : Option (Except Chain (List Json)) :=
  match a.subscribed with
  | .error e => some (.error [s!"subscribing to {ns}.call", e])
  | .ok _ => Loop.left? (a.stream.foldlM (callItem method) [])

/-- What `register` and `deregister` ask, and the event that confirms it. -/
structure Announcement where
  method : String
  confirmedBy : String
  noun : String

def registering : Announcement := ⟨"register", "backend_registered", "registration"⟩

def deregistering : Announcement := ⟨"deregister", "backend_deregistered", "deregistration"⟩

/-- How `{:?}` writes events. -/
abbrev Debug : Type := List Json → String

def Announcement.confirm (debug : Debug) (n : Announcement) (events : List Json) : Except Chain Unit :=
  if events.any fun e => typeOf e = some n.confirmedBy then .ok ()
  else .error [s!"registry did not confirm {n.noun} (events: {debug events})"]

/-- The connection and the namespace. -/
def Reach.namespace? (url : String) (r : Reach) : Option (Except Chain String) :=
  match connect url r.connected with
  | .error e => some (.error e)
  | .ok _ => discoverNamespace r

/-- The call and its confirmation. -/
def Announcement.answered (debug : Debug) (n : Announcement) (ns : String) (a : Answer) :
    Option (Except Chain Unit) :=
  (callRegistry ns n.method a).map fun r => r.bind (n.confirm debug)

/-- A call as the registry is sent it. -/
structure Request where
  subMethod : String
  unsubMethod : String
  params : Json

def str (s : String) : Json := .str (some s)

def callRequest (ns method : String) (params : Json) : Request where
  subMethod := s!"{ns}.call"
  unsubMethod := s!"{ns}.call_unsub"
  params := .obj [(some "method", str s!"registry.{method}"), (some "params", params)]

def registerRequest (reg : RegistryRegistration) (pid : UInt32) (ns : String) : Request :=
  callRequest ns "register" <| .obj
    [ (some "name", str reg.name),
      (some "host", str reg.host),
      (some "port", .u64 reg.port.toUInt64),
      (some "protocol", str "ws"),
      (some "version", str reg.version),
      (some "metadata", .obj
        [(some "pid", .u64 pid.toUInt64), (some "schema_hash", str reg.schemaHash)]),
      (some "source", str "auto") ]

def deregisterRequest (reg : RegistryRegistration) (ns : String) : Request :=
  callRequest ns "deregister" (.obj [(some "name", str reg.name)])

/-- One whole exchange, `register` or `deregister`. -/
def Announcement.announce (debug : Debug) (url : String) (n : Announcement) (r : Reach) (a : Answer) :
    Option (Except Chain Unit) :=
  match r.namespace? url with
  | none => none
  | some (.error e) => some (.error e)
  | some (.ok ns) => n.answered debug ns a

def register (debug : Debug) (reg : RegistryRegistration) (r : Reach) (a : Answer) :
    Option (Except Chain Unit) :=
  registering.announce debug reg.url r a

def deregister (debug : Debug) (reg : RegistryRegistration) (r : Reach) (a : Answer) :
    Option (Except Chain Unit) :=
  deregistering.announce debug reg.url r a

/-- An item of `_info` that settles nothing. -/
def SkippedInfo : Next → Prop
  | .item v => typeOf v ≠ some "error" ∧ typeOf v ≠ some "done" ∧
      (typeOf v = some "data" → backendOf v = none)
  | _ => False

/-- The first item of `_info` to settle anything is data that names this backend. -/
def NamesBackend (ns : String) (info : List Next) : Prop :=
  ∃ front v rest, info = front ++ .item v :: rest ∧ (∀ n ∈ front, SkippedInfo n) ∧
    typeOf v = some "data" ∧ backendOf v = some ns

/-- An item of a call that neither ends it nor fails it. -/
def GoesOn : Next → Prop
  | .item v => typeOf v ≠ some "error" ∧ typeOf v ≠ some "done" ∧
      (typeOf v = some "data" → typeOf (contentOf v) ≠ some "error")
  | _ => False

def EndsCall : Next → Prop
  | .ended => True
  | .item v => typeOf v = some "done"
  | _ => False

/-- Up to its end a call fails at nothing, and one of its data items is the confirmation. -/
def Confirms (event : String) (stream : List Next) : Prop :=
  ∃ front last rest, stream = front ++ last :: rest ∧ (∀ n ∈ front, GoesOn n) ∧ EndsCall last ∧
    ∃ v, .item v ∈ front ∧ typeOf v = some "data" ∧ typeOf (contentOf v) = some event

section Exchange

variable {debug : Debug} {url ns event method : String} {r : Reach} {a : Answer}

theorem infoItem_ok (u : Unit) (n : Next) (u' : Unit) :
    infoItem u n = .ok u' ↔ SkippedInfo n ∧ u' = () := by
  cases n with
  | elapsed | ended | failed _ => simp [infoItem, SkippedInfo]
  | item v =>
      simp only [infoItem]
      split
      · rename_i data
        split
        · rename_i name named
          simp [SkippedInfo, data, named]
        · rename_i named
          simp [SkippedInfo, data, named]
      · rename_i error
        simp [SkippedInfo, error]
      · rename_i done
        simp [SkippedInfo, done]
      · rename_i data error done
        simp only [imp_false] at data error done
        simp [SkippedInfo, data, error, done]

theorem infoItem_named (u : Unit) (n : Next) :
    infoItem u n = .error (.ok ns) ↔
      ∃ v, n = .item v ∧ typeOf v = some "data" ∧ backendOf v = some ns := by
  cases n with
  | elapsed | ended | failed _ => simp [infoItem]
  | item v =>
      simp only [infoItem]
      split
      · rename_i data
        split
        · rename_i name named
          simp [data, named]
        · rename_i named
          simp [data, named]
      · rename_i error
        simp [error]
      · rename_i done
        simp [done]
      · rename_i data error done
        simp only [imp_false] at data error done
        simp [data]

/-- The items' contents a call has collected. -/
def contentsOf : Next → List Json
  | .item v => if typeOf v = some "data" then [contentOf v] else []
  | _ => []

theorem callItem_ok (out : List Json) (n : Next) (out' : List Json) :
    callItem method out n = .ok out' ↔ GoesOn n ∧ out' = out ++ contentsOf n := by
  cases n with
  | elapsed | ended | failed _ => simp [callItem, GoesOn]
  | item v =>
      simp only [callItem]
      split
      · rename_i data
        split
        · rename_i error
          simp [GoesOn, data, error]
        · rename_i fine
          simp [GoesOn, contentsOf, data, fine, eq_comm]
      · rename_i error
        simp [GoesOn, error]
      · rename_i done
        simp [GoesOn, done]
      · rename_i data error done
        simp only [imp_false] at data error done
        simp [GoesOn, contentsOf, data, error, done, eq_comm]

theorem callItem_ends {out events : List Json} (n : Next) :
    callItem method out n = .error (.ok events) ↔ EndsCall n ∧ events = out := by
  cases n with
  | elapsed | failed _ => simp [callItem, EndsCall]
  | ended => simp [callItem, EndsCall, eq_comm]
  | item v =>
      simp only [callItem]
      split
      · rename_i data
        split
        · simp [EndsCall, data]
        · simp [EndsCall, data]
      · rename_i error
        simp [EndsCall, error]
      · rename_i done
        simp [EndsCall, done, eq_comm]
      · rename_i data error done
        simp only [imp_false] at data error done
        simp [EndsCall, done]

theorem namespace?_ok :
    r.namespace? url = some (.ok ns) ↔
      r.connected = some (.ok ()) ∧ r.subscribed = .ok () ∧ NamesBackend ns r.info := by
  unfold Reach.namespace?
  match opened : r.connected with
  | none => simp [connect]
  | some (.error e) => simp [connect]
  | some (.ok ()) =>
      simp only [connect, discoverNamespace, true_and]
      cases r.subscribed with
      | error e => simp
      | ok u =>
          simp only [Loop.left?_eq_some, Loop.left_iff, infoItem_named,
            Loop.foldlM_ok_iff infoItem_ok, true_and]
          constructor
          · rintro ⟨front, n, rest, u, split, ⟨skipped, -⟩, v, rfl, data, named⟩
            exact ⟨front, v, rest, split, skipped, data, named⟩
          · rintro ⟨front, v, rest, split, skipped, data, named⟩
            exact ⟨front, _, rest, (), split, ⟨skipped, trivial⟩, v, rfl, data, named⟩

theorem mem_collected {front : List Next} {e : Json} :
    e ∈ front.foldl (fun out n => out ++ contentsOf n) [] ↔
      ∃ v, .item v ∈ front ∧ typeOf v = some "data" ∧ contentOf v = e := by
  rw [List.foldl_append_eq_append, List.nil_append, ← List.flatMap_def, List.mem_flatMap]
  constructor
  · rintro ⟨n, mem, held⟩
    cases n with
    | elapsed | ended | failed _ => cases held
    | item v =>
        obtain ⟨data, mem'⟩ : typeOf v = some "data" ∧ e ∈ [contentOf v] := by
          simpa [contentsOf] using held
        exact ⟨v, mem, data, (List.mem_singleton.mp mem').symm⟩
  · rintro ⟨v, mem, data, rfl⟩
    exact ⟨.item v, mem, by simp [contentsOf, data]⟩

theorem answered_ok {n : Announcement} :
    n.answered debug ns a = some (.ok ()) ↔
      a.subscribed = .ok () ∧ Confirms n.confirmedBy a.stream := by
  unfold Announcement.answered callRegistry
  cases a.subscribed with
  | error e => simp [Except.bind]
  | ok u =>
      simp only [Option.map_eq_some_iff, Loop.left?_eq_some, Loop.left_iff,
        Loop.foldlM_ok_iff callItem_ok, true_and]
      constructor
      · rintro ⟨result, ⟨front, last, rest, out, split, ⟨goes, rfl⟩, ended⟩, confirmed⟩
        cases result with
        | error e => cases confirmed
        | ok events =>
            obtain ⟨ends, rfl⟩ := (callItem_ends last).mp ended
            have any : ∃ e ∈ front.foldl (fun out n => out ++ contentsOf n) [],
                typeOf e = some n.confirmedBy := by
              simp only [Except.bind, Announcement.confirm] at confirmed
              split at confirmed
              · rename_i is
                obtain ⟨e, mem, is⟩ := List.any_eq_true.mp is
                exact ⟨e, mem, of_decide_eq_true is⟩
              · cases confirmed
            obtain ⟨e, mem, is⟩ := any
            obtain ⟨v, here, data, rfl⟩ := mem_collected.mp mem
            exact ⟨front, last, rest, split, goes, ends, v, here, data, is⟩
      · rintro ⟨front, last, rest, split, goes, ends, v, mem, data, is⟩
        refine ⟨.ok _, ⟨front, last, rest, _, split, ⟨goes, rfl⟩,
          (callItem_ends last).mpr ⟨ends, rfl⟩⟩, ?_⟩
        have any : (front.foldl (fun out n => out ++ contentsOf n) []).any
            (fun e => typeOf e = some n.confirmedBy) = true :=
          List.any_eq_true.mpr ⟨_, mem_collected.mpr ⟨v, mem, data, rfl⟩, by simpa using is⟩
        simp only [Except.bind, Announcement.confirm, any, if_true]

/-- The registry is reached, and its `_info` names a backend. -/
structure Reach.Open (r : Reach) : Prop where
  connected : r.connected = some (.ok ())
  subscribed : r.subscribed = .ok ()
  named : ∃ ns, NamesBackend ns r.info

theorem announce_ok {n : Announcement} :
    n.announce debug url r a = some (.ok ()) ↔
      r.Open ∧ a.subscribed = .ok () ∧ Confirms n.confirmedBy a.stream := by
  unfold Announcement.announce
  constructor
  · intro announced
    split at announced
    · cases announced
    · cases announced
    · rename_i ns reached
      obtain ⟨connected, subscribed, named⟩ := namespace?_ok.mp reached
      exact ⟨⟨connected, subscribed, ns, named⟩, answered_ok.mp announced⟩
  · rintro ⟨⟨connected, subscribed, ns, named⟩, answered⟩
    rw [namespace?_ok.mpr ⟨connected, subscribed, named⟩]
    exact answered_ok.mpr answered

end Exchange

/-- A registration succeeds, or a deregistration, just if the registry is reached, names its
    backend before its `_info` ends or errs, takes the call, and confirms it in the call's data
    before the call ends, with no error item and no error event before then. -/
theorem exchange_succeeds (debug : Debug) (reg : RegistryRegistration) (r : Reach) (a : Answer) :
    (register debug reg r a = some (.ok ()) ↔
        r.Open ∧ a.subscribed = .ok () ∧ Confirms "backend_registered" a.stream) ∧
      (deregister debug reg r a = some (.ok ()) ↔
        r.Open ∧ a.subscribed = .ok () ∧ Confirms "backend_deregistered" a.stream) :=
  ⟨announce_ok, announce_ok⟩

end PlexusTransport.Registration
