import PlexusTransport.Mcp.Bridge

/-! # What a tool call is told, and tells

The arguments a method is called with, and what a client that only listens to the call's
notifications knows of its result.
-/

namespace PlexusTransport.Mcp

open Plexus

namespace Object

variable {o : Object} {name : String}

theorem get_insert_of_ne {other : String} (ne : other ≠ name) (v : Json) :
    (o.insert name v).get other = o.get other := by
  have kept : ∀ entries : List (String × Json),
      (entries.filter (·.1 ≠ name)).lookup other = entries.lookup other := by
    intro entries
    induction entries with
    | nil => rfl
    | cons e entries ih =>
        by_cases same : e.1 = name
        · have not : (other == e.1) = false := by simp [same, ne]
          rw [List.filter_cons_of_neg (by simp [same]), ih, List.lookup_cons, not]
        · rw [List.filter_cons_of_pos (by simp [same]), List.lookup_cons, List.lookup_cons, ih]
  simp only [get, insert, List.lookup_cons]
  rw [show (other == name) = false by simp [ne]]
  exact kept o.entries

theorem isEmpty_iff : o.isEmpty = true ↔ ∀ name, o.get name = none := by
  constructor
  · intro none name
    simp only [isEmpty, List.isEmpty_iff] at none
    simp [get, none]
  · intro none
    cases entries : o.entries with
    | nil => simp [isEmpty, entries]
    | cons e rest =>
        have absent := none e.1
        simp [get, entries] at absent

end Object

/-- The query as an object: each parameter under its name, the last of a name. -/
def connectionMeta (query : List (String × String)) : Object :=
  query.foldl (fun o (key, value) => o.insert s!"query.{key}" (.str (some value))) Object.empty

/-- The value a parameter sets a name to. -/
def sets (name : String) (p : String × String) : Option Json :=
  if s!"query.{p.1}" = name then some (.str (some p.2)) else none

theorem connectionMeta_get (query : List (String × String)) (name : String) :
    (connectionMeta query).get name = query.reverse.findSome? (sets name) := by
  have last := Loop.foldl_last_some (fun o : Object => o.get name) (sets name)
    (f := fun o p => o.insert s!"query.{p.1}" (.str (some p.2)))
    (fun o p => by
      unfold sets
      split
      · rename_i same
        rw [same, Object.get_insert]
        rfl
      · rename_i other
        exact Object.get_insert_of_ne (Ne.symm other) _) query Object.empty
  exact last.trans (Option.or_none ..)

/-- A query of no parameters has nothing to say. -/
theorem connectionMeta_isEmpty (query : List (String × String)) :
    (connectionMeta query).isEmpty = query.isEmpty := by
  cases query using List.reverseRecOn with
  | nil => rfl
  | append_singleton query p _ =>
      have there : (connectionMeta (query ++ [p])).get s!"query.{p.1}" = some (.str (some p.2)) := by
        rw [connectionMeta_get]
        simp [sets]
      have not : (connectionMeta (query ++ [p])).isEmpty ≠ true := fun none => by
        rw [Object.isEmpty_iff.mp none] at there
        cases there
      rw [Bool.eq_false_iff.mpr not]
      simp

/-- The arguments a method is called with, whatever the client's and its query: the client's own,
    but that a query with parameters says what `_connection` is, each of them by its last value. -/
theorem argumentsMap_get (request : CallToolRequest) (name : String) :
    (name ≠ "_connection" ∨ (request.query.getD []).isEmpty = true →
        request.argumentsMap.get name = (request.arguments.getD .empty).get name) ∧
      ((request.query.getD []).isEmpty = false →
        ∃ o : Object, request.argumentsMap.get "_connection" = some o.json ∧
          ∀ key, o.get key = (request.query.getD []).reverse.findSome? (sets key)) := by
  have empty := connectionMeta_isEmpty (request.query.getD [])
  have same : request.argumentsMap =
      if (connectionMeta (request.query.getD [])).isEmpty then request.arguments.getD .empty
      else (request.arguments.getD .empty).insert "_connection"
        (connectionMeta (request.query.getD [])).json := rfl
  rw [same, empty]
  constructor
  · intro own
    split
    · rfl
    · rename_i some_
      rcases own with other | none
      · exact Object.get_insert_of_ne other _
      · exact absurd none some_
  · intro some_
    rw [if_neg (Bool.eq_false_iff.mp some_)]
    exact ⟨_, Object.get_insert .., connectionMeta_get _⟩

/-! ## The notifications -/

/-- What a client has heard: the data, and why the call failed. -/
structure Followed where
  data : List Json
  failed : Option Json

def Followed.start : Followed := ⟨[], none⟩

/-- The type a notification's data has. -/
def Notice.kind? : Notice → Option String
  | .log _ _ data => (member "type" data).bind Json.string?
  | .progress _ _ _ => none

/-- A log as a client takes it: data is kept, and the first error that is not recoverable. -/
def Followed.hear (f : Followed) (n : Notice) : Followed :=
  match n with
  | .log _ _ data =>
      if n.kind? = some "data" then { f with data := f.data ++ (member "data" data).toList }
      else if n.kind? = some "error" then
        match member "recoverable" data with
        | some (.bool false) => { f with failed := f.failed.or (member "error" data) }
        | _ => f
      else f
  | .progress _ _ _ => f

def follow (notices : List Notice) : Followed := notices.foldl Followed.hear .start

/-- The type an item goes out under. -/
def kind : PlexusStreamItem → String
  | .data _ _ => "data"
  | .progress _ _ => "progress"
  | .error _ _ => "error"
  | .done => "done"
  | .request _ _ _ => "request"

/-- A notification of this call's: logged under its tool's name, or with its token. -/
def Notice.Of (logger : Text) (token : Option String) : Notice → Prop
  | .log _ l _ => l = logger
  | .progress t _ _ => some t = token

/-- What the loop keeps: the notifications tell what it has. -/
structure Tells (logger : Text) (token : Option String) (items : List PlexusStreamItem)
    (s : Streamed) : Prop where
  data : (follow s.notices).data = s.bufferedData
  failed : (follow s.notices).failed = s.fatal.map (·.json)
  kinds : s.notices.filterMap Notice.kind? = items.map kind
  own : ∀ n ∈ s.notices, n.Of logger token

section Loop

variable {serde : Serde} {logger : Text} {token : Option String} {s t : Streamed}
  {items : List PlexusStreamItem} {item : PlexusStreamItem}

/-- One more notification. -/
theorem follow_append (notices : List Notice) (n : Notice) :
    follow (notices ++ [n]) = (follow notices).hear n := by
  rw [follow, List.foldl_concat]
  rfl

/-- A log of an item that is neither data nor an error. -/
theorem tells_log (tells : Tells logger token items s) (level : Level) {v : Json} {k : String}
    (is_ : (Notice.log level logger v).kind? = some k) (undata : k ≠ "data") (unerror : k ≠ "error")
    (same : kind item = k) :
    Tells logger token (items ++ [item])
      { s with notices := s.notices ++ [.log level logger v] } := by
  have heard : (follow s.notices).hear (.log level logger v) = follow s.notices := by
    simp [Followed.hear, is_, undata, unerror]
  refine ⟨?_, ?_, ?_, ?_⟩
  · rw [follow_append, heard]
    exact tells.data
  · rw [follow_append, heard]
    exact tells.failed
  · simp [is_, tells.kinds, same]
  · simp only [List.mem_append, List.mem_singleton]
    rintro n (before | rfl)
    · exact tells.own n before
    · rfl

theorem tells_progress {t : String} (tells : Tells logger (some t) items s) (percentage : Json)
    (message : String) :
    Tells logger (some t) items
      { s with notices := s.notices ++ [.progress t percentage message] } := by
  refine ⟨?_, ?_, ?_, ?_⟩
  · rw [follow_append]
    exact tells.data
  · rw [follow_append]
    exact tells.failed
  · simp [Notice.kind?, tells.kinds]
  · simp only [List.mem_append, List.mem_singleton]
    rintro n (before | rfl)
    · exact tells.own n before
    · rfl

theorem tells_data (tells : Tells logger token items s) (content : Content) (contentType : String) :
    Tells logger token (items ++ [.data content contentType])
      { s with
        notices := s.notices ++ [.log .info logger (typed "data"
          [("content_type", .str (some contentType)), ("data", content.toValue)])]
        bufferedData := s.bufferedData ++ [content.toValue] } := by
  refine ⟨?_, ?_, ?_, ?_⟩
  · rw [follow_append]
    simp [Followed.hear, Notice.kind?, typed, member, Json.valuesOf, Json.string?, tells.data]
  · rw [follow_append]
    simp [Followed.hear, Notice.kind?, typed, member, Json.valuesOf, Json.string?, tells.failed]
  · simp [Notice.kind?, typed, member, Json.valuesOf, Json.string?, tells.kinds, kind]
  · simp only [List.mem_append, List.mem_singleton]
    rintro n (before | rfl)
    · exact tells.own n before
    · rfl

theorem tells_error (tells : Tells logger token items s) (error : RemoteError) (recoverable : Bool) :
    Tells logger token (items ++ [.error error recoverable])
      { s with
        notices := s.notices ++ [.log .error logger (typed "error"
          [("error", error.json), ("recoverable", .bool recoverable)])]
        fatal := if !recoverable && s.fatal.isNone then some error else s.fatal } := by
  have failed := tells.failed
  refine ⟨?_, ?_, ?_, ?_⟩
  · rw [follow_append]
    cases recoverable <;>
      simp [Followed.hear, Notice.kind?, typed, member, Json.valuesOf, Json.string?, tells.data]
  · rw [follow_append]
    cases recoverable <;> cases fatal : s.fatal <;> rw [fatal] at failed <;>
      simp [Followed.hear, Notice.kind?, typed, member, Json.valuesOf, Json.string?, failed]
  · simp [Notice.kind?, typed, member, Json.valuesOf, Json.string?, tells.kinds, kind]
  · simp only [List.mem_append, List.mem_singleton]
    rintro n (before | rfl)
    · exact tells.own n before
    · rfl

/-- What an item that the loop goes past does. -/
theorem tells_item (tells : Tells logger token items s)
    (passed : streamItem serde logger token s (false, item) = .ok t) :
    Tells logger token (items ++ [item]) t := by
  cases item with
  | data content contentType =>
      cases passed
      exact tells_data tells content contentType
  | progress content contentType =>
      have logged : Tells logger token (items ++ [.progress content contentType])
          { s with notices := s.notices ++ [.log .info logger (typed "progress"
            [("content_type", .str (some contentType)), ("content", content)])] } :=
        tells_log (k := "progress") tells .info
          (by simp [Notice.kind?, typed, member, Json.valuesOf, Json.string?]) (by decide)
          (by decide) rfl
      cases token with
      | none =>
          cases passed
          exact logged
      | some token =>
          cases passed
          exact tells_progress logged _ _
  | error error recoverable =>
      cases passed
      exact tells_error tells error recoverable
  | done => cases passed
  | request requestId requestData timeoutMs =>
      cases passed
      exact tells_log (k := "request") tells .info
        (by simp [Notice.kind?, typed, member, Json.valuesOf, Json.string?]) (by decide) (by decide)
        rfl

theorem tells_start : Tells logger token [] .start := ⟨rfl, rfl, rfl, nofun⟩

theorem uncancelled {item : Bool × PlexusStreamItem}
    (passed : streamItem serde logger token s item = .ok t) :
    streamItem serde logger token s (false, item.2) = .ok t ∧ item.2.isDone = false := by
  obtain ⟨cancelled, item⟩ := item
  cases cancelled with
  | true => cases passed
  | false =>
      refine ⟨passed, ?_⟩
      cases item with
      | done => cases passed
      | data _ _ | progress _ _ | error _ _ | request _ _ _ => rfl

theorem tells_run {items : List (Bool × PlexusStreamItem)}
    (went : items.foldlM (streamItem serde logger token) .start = .ok s) :
    Tells logger token (items.map (·.2)) s ∧ ∀ i ∈ items.map (·.2), i.isDone = false := by
  induction items using List.reverseRecOn generalizing s with
  | nil =>
      cases went
      exact ⟨tells_start, nofun⟩
  | append_singleton items item ih =>
      obtain ⟨u, before, here⟩ := Loop.append_singleton_ok.mp went
      obtain ⟨tells, open_⟩ := ih before
      obtain ⟨passed, undone⟩ := uncancelled here
      rw [List.map_append]
      refine ⟨tells_item tells passed, ?_⟩
      simp only [List.mem_append, List.map_cons, List.map_nil, List.mem_singleton]
      rintro i (mem | rfl)
      · exact open_ i mem
      · exact undone

/-- The items of a stream before it is done. -/
def beforeDone (items : List (Bool × PlexusStreamItem)) : List PlexusStreamItem :=
  (items.map (·.2)).takeWhile fun i => !i.isDone

theorem tells_ended {items : List (Bool × PlexusStreamItem)}
    (ended : items.foldlM (streamItem serde logger token) .start = .ok s ∨
      items.foldlM (streamItem serde logger token) .start = .error (.broke s)) :
    Tells logger token (beforeDone items) s := by
  rcases ended with went | left
  · obtain ⟨tells, open_⟩ := tells_run went
    rw [beforeDone, List.takeWhile_eq_self_iff.mpr fun i mem => by simp [open_ i mem]]
    exact tells
  · obtain ⟨front, item, rest, t, rfl, went, here⟩ := Loop.left_iff.mp left
    obtain ⟨tells, open_⟩ := tells_run went
    obtain ⟨cancelled, item⟩ := item
    cases cancelled with
    | true => cases here
    | false =>
        cases item with
        | done =>
            cases here
            rw [beforeDone, List.map_append,
              List.takeWhile_append_of_pos fun i mem => by simp [open_ i mem]]
            simpa [PlexusStreamItem.isDone] using tells
        | progress _ _ => cases token <;> cases here
        | data _ _ | error _ _ | request _ _ _ => cases here

end Loop

/-- What a client that heard only the notifications knows. -/
structure Told (serde : Serde) (request : CallToolRequest) (items : List (Bool × PlexusStreamItem))
    (notices : List Notice) (r : CallToolResult) : Prop where
  isError : r.isError = (follow notices).failed.isSome
  failed : r.structuredContent = (follow notices).failed
  content : r.isError = false → r.content = resultText serde (follow notices).data
  kinds : notices.filterMap Notice.kind? = (beforeDone items).map kind
  own : ∀ n ∈ notices, n.Of request.name request.progressToken

/-- Every tool call that has a result has told it: an item of the stream a log, in order, till it
    was done; and the result is what those make. -/
theorem notices_tell (serde : Serde) (b : ActivationMcpBridge) (request : CallToolRequest)
    (items : List (Bool × PlexusStreamItem))
    (streamed : b.stream request.name request.argumentsMap = .ok items) (notices : List Notice)
    (r : CallToolResult) (called : b.callTool serde request = .ok (notices, r)) :
    Told serde request items notices r := by
  rw [ActivationMcpBridge.callTool, streamed] at called
  obtain ⟨s, ended, rfl, rfl⟩ : ∃ s,
      (items.foldlM (streamItem serde request.name request.progressToken) .start = .ok s ∨
        items.foldlM (streamItem serde request.name request.progressToken) .start =
          .error (.broke s)) ∧ s.notices = notices ∧ result serde s = r := by
    dsimp only at called
    split at called
    · cases called
    · rename_i s left
      cases called
      exact ⟨s, .inr left, rfl, rfl⟩
    · rename_i s went
      cases called
      exact ⟨s, .inl went, rfl, rfl⟩
  have tells := tells_ended ended
  refine ⟨?_, ?_, fun succeeded => ?_, tells.kinds, tells.own⟩
  · rw [tells.failed, result]
    cases s.fatal <;> rfl
  · rw [tells.failed, result]
    cases s.fatal <;> rfl
  · rw [tells.data]
    unfold result at succeeded ⊢
    cases fatal : s.fatal with
    | none => rfl
    | some e =>
        rw [fatal] at succeeded
        cases succeeded

/-- A leaf that says hello, then that it goes on. -/
def greeter : ActivationMcpBridge where
  pluginSchema := ⟨[], []⟩
  call _ _ := .ok [(false, .data ⟨.str (some "hello"), none⟩ "greeting"),
    (false, .request "r" .null 0), (false, .done)]
  flatSchemas := none
  router := none

theorem notices_tell_greeter : ∃ items notices r,
    greeter.callTool ⟨fun _ => "", fun _ => none⟩ ⟨[], none, none, none⟩ = .ok (notices, r) ∧
      Told ⟨fun _ => "", fun _ => none⟩ ⟨[], none, none, none⟩ items notices r ∧
      r.content = "hello" :=
  ⟨_, _, _, rfl, notices_tell _ greeter ⟨[], none, none, none⟩ _ rfl _ _ rfl, rfl⟩

end PlexusTransport.Mcp
