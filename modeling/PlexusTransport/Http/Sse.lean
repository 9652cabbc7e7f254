import PlexusTransport.Http.Timeout
import PlexusTransport.Mcp.Bridge

/-! # A stream's events and its one body

What a client puts together of `stream_sse_response`'s events, against the body that
`collect_and_respond` answers the same stream with.
-/

namespace PlexusTransport.Http.Sse

open Plexus

/-- What a client has read. -/
structure Received where
  dataItems : List Json
  progressItems : List Json
  error : Option Json

def Received.empty : Received := ⟨[], [], none⟩

/-- An event as it is read; at `done` and at an error the client is through. -/
def receive (r : Received) (e : SseEvent) : Except Received Received :=
  match e.event, e.data with
  | "data", .json v => .ok { r with dataItems := r.dataItems ++ (Mcp.member "content" v).toList }
  | "progress", .json v =>
      .ok { r with progressItems := r.progressItems ++ (Mcp.member "content" v).toList }
  | "error", .json v => .error { r with error := Mcp.member "error" v }
  | "done", _ => .error r
  | _, _ => .ok r

def receiveAll (events : List SseEvent) : Received :=
  match events.foldlM receive .empty with
  | .ok r | .error r => r

/-- The body the client can make of it. -/
def Received.body (r : Received) : Json :=
  let collected :=
    (some "data", Json.arr r.dataItems) ::
      if r.progressItems.isEmpty then [] else [(some "progress", Json.arr r.progressItems)]
  match r.error with
  | some e => .obj (collected ++ [(some "error", e)])
  | none => .obj collected

/-- What a client has read of what is buffered. -/
def seen (c : Collected) : Received := ⟨c.dataItems.map (·.toValue), c.progressItems, none⟩

/-- The stream is refused for what it would buffer. -/
def Refused (items : List PlexusStreamItem) : Prop :=
  (collectAndRespond items).status = 413 ∧
    ∃ front, front <+: items ∧ Going front ∧ ¬ (held front).DataFits

section Simulation

variable {c c' : Collected} {item : PlexusStreamItem} {items : List PlexusStreamItem}

/-- An item that is gone past is an event that is. -/
theorem receive_collectItem (c : Collected) (item : PlexusStreamItem) (c' : Collected)
    (passed : collectItem c item = .ok c') : receive (seen c) (sseEvent item) = .ok (seen c') := by
  cases item with
  | data content _ =>
      simp only [collectItem] at passed
      split at passed
      · cases passed
      · split at passed
        · cases passed
        · cases passed
          simp [receive, sseEvent, seen, Mcp.member, Json.valuesOf]
  | progress content _ =>
      cases passed
      simp [receive, sseEvent, seen, Mcp.member, Json.valuesOf]
  | request _ _ _ =>
      cases passed
      rfl
  | error _ _ | done => cases passed

/-- An item that ends the stream is an event that ends the reading. -/
theorem receive_broke {error : Option RemoteError} (left : collectItem c item = .error (.broke c' error)) :
    receive (seen c) (sseEvent item) = .error { seen c' with error := error.map (·.json) } := by
  cases item with
  | data content _ =>
      simp only [collectItem] at left
      split at left
      · cases left
      · split at left <;> cases left
  | error e recoverable =>
      cases left
      simp [receive, sseEvent, sseErrorEvent, Mcp.member, Json.valuesOf]
  | done =>
      cases left
      rfl
  | progress _ _ | request _ _ _ => cases left

theorem receiveAll_ok (went : collect items = .ok c) : receiveAll (items.map sseEvent) = seen c := by
  have read := Loop.foldlM_simulates receive_collectItem went
  rw [receiveAll]
  change (match (items.map sseEvent).foldlM receive (seen .empty) with | .ok r | .error r => r) = _
  rw [read]

theorem receiveAll_broke {error : Option RemoteError}
    (left : collect items = .error (.broke c error)) :
    receiveAll (items.map sseEvent) = { seen c with error := error.map (·.json) } := by
  obtain ⟨front, item, rest, t, rfl, before, here⟩ := Loop.left_iff.mp left
  have read := Loop.foldlM_simulates receive_collectItem before
  have ended : ((front ++ item :: rest).map sseEvent).foldlM receive (seen .empty) =
      .error { seen c with error := error.map (·.json) } := by
    rw [List.map_append, List.map_cons]
    exact Loop.left_iff.mpr ⟨_, _, _, _, rfl, read, receive_broke here⟩
  rw [receiveAll]
  change (match ((front ++ item :: rest).map sseEvent).foldlM receive (seen .empty) with
    | .ok r | .error r => r) = _
  rw [ended]

theorem respond_body (c : Collected) (error : Option RemoteError) :
    (respondCollected c error).body = ({ seen c with error := error.map (·.json) } : Received).body ∧
      ((respondCollected c error).status = 200 ↔ error = none) := by
  cases error with
  | none => exact ⟨rfl, by simp [respondCollected]⟩
  | some e =>
      refine ⟨rfl, ?_⟩
      simp only [respondCollected, reduceCtorEq, iff_false]
      unfold remoteErrorStatus
      cases e.kind <;> decide

end Simulation

/-- Any stream is answered with the body a client makes of its events, and 200 just if it reads
    no error in them; or it is refused for what its data would take to buffer. -/
theorem sse_body (items : List PlexusStreamItem) :
    ((collectAndRespond items).body = (receiveAll (items.map sseEvent)).body ∧
        ((collectAndRespond items).status = 200 ↔
          (receiveAll (items.map sseEvent)).error = none)) ∨
      Refused items := by
  cases went : collect items with
  | ok c =>
      obtain ⟨body, status⟩ := respond_body c none
      rw [collectAndRespond, went, receiveAll_ok went]
      exact .inl ⟨body, status.trans (by simp [seen])⟩
  | error left =>
      cases left with
      | broke c error =>
          obtain ⟨body, status⟩ := respond_body c error
          rw [collectAndRespond, went, receiveAll_broke went]
          exact .inl ⟨body, status.trans (by simp)⟩
      | limit r =>
          obtain ⟨front, item, rest, c, rfl, before, here⟩ := Loop.left_iff.mp went
          obtain ⟨going, fits, rfl⟩ := collect_ok.mp before
          have open_ : ends item = false := by
            cases item with
            | error _ _ | done => cases here
            | data _ _ | progress _ _ | request _ _ _ => rfl
          obtain ⟨_, same, status⟩ := collectItem_limit open_ here
          cases same
          refine .inr ⟨by rw [collectAndRespond, went, status], front ++ [item], by simp,
            going_append.mpr ⟨going, open_⟩, fun large => ?_⟩
          rw [held_append] at large
          cases ((collectItem_ok fits).mpr ⟨open_, large, rfl⟩).symm.trans here

end PlexusTransport.Http.Sse
