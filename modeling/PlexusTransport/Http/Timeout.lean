import PlexusTransport.Http.Buffer
import PlexusTransport.Lib.Machine

/-! # The method timeout

`handle_method_call`, polled by the runtime at whatever times, over a stream that yields at
whatever times. Times are in milliseconds since the call began.
-/

namespace PlexusTransport.Plexus

inductive Cardinality where
  | one
  | many
  deriving DecidableEq, Repr

/-- A stream: what it has yielded by each time, and whether it has ended. -/
structure PlexusStream where
  yielded : Nat → List PlexusStreamItem
  ended : Nat → Bool
  grows : ∀ s t, s ≤ t → yielded s <+: yielded t
  closed : ∀ s t, s ≤ t → ended s = true → ended t = true ∧ yielded t = yielded s

end PlexusTransport.Plexus

namespace PlexusTransport.Http

open Plexus

def methodTimeoutSecs : Nat := 300

def methodTimeout : Nat := methodTimeoutSecs * 1000

inductive SseData where
  | json (v : Json)
  | text (t : String)

structure SseEvent where
  event : String
  data : SseData

def sseErrorEvent (recoverable : Bool) (error : RemoteError) : SseEvent :=
  ⟨"error", .json (.obj [(some "recoverable", .bool recoverable), (some "error", error.json)])⟩

/-- An item as `stream_sse_response` sends it. -/
def sseEvent : PlexusStreamItem → SseEvent
  | .data content _ => ⟨"data", .json (.obj [(some "content", content.toValue)])⟩
  | .progress content contentType =>
      ⟨"progress", .json (.obj [(some "content_type", .str (some contentType)),
        (some "content", content)])⟩
  | .error error recoverable => sseErrorEvent recoverable error
  | .done => ⟨"done", .text "\x7b\x7d"⟩
  | .request _ _ _ =>
      ⟨"warning", .text "Bidirectional requests not supported in REST HTTP transport"⟩

/-- A call: not answered, answered whole, or its events as far as they are written, and
    whether the last one is. -/
inductive Handled where
  | running
  | answered (r : JsonResponse)
  | streaming (events : List SseEvent) (ended : Bool)

structure MethodCall where
  now : Nat
  handled : Handled

/-- `collect_and_respond`, polled: its loop goes through all that has come. -/
def pollCollect (stream : PlexusStream) (now : Nat) : Option JsonResponse :=
  match collect (stream.yielded now) with
  | .error (.limit r) => some r
  | .error (.broke c error) => some (respondCollected c error)
  | .ok c => if stream.ended now then some (respondCollected c none) else none

/-- `tokio::time::timeout`, polled: the future first, then the time. -/
def pollTimeout {α : Type} (value : Option α) (now : Nat) : Option (Option α) :=
  match value with
  | some v => some (some v)
  | none => if methodTimeout ≤ now then some none else none

def timedOut : JsonResponse where
  status := 504
  body := .obj [
    (some "error",
      .str (some s!"Method execution timed out after {methodTimeoutSecs} seconds")),
    (some "timeout_seconds", .u64 (.ofNat methodTimeoutSecs))]

/-- `handle_method_call`, polled. `stream_sse_response` awaits nothing: it is the response,
    its events still to come. -/
def handleMethodCall (stream : PlexusStream) (cardinality : Cardinality) (now : Nat) : Handled :=
  let result :=
    match cardinality with
    | .many => pollTimeout (some (Handled.streaming [] false)) now
    | .one => pollTimeout ((pollCollect stream now).map .answered) now
  match result with
  | some (some response) => response
  | some none => .answered timedOut
  | none => .running

namespace MethodCall

/-- The runtime polls the call, or the server the body of its response. -/
def step (stream : PlexusStream) (cardinality : Cardinality) (c : MethodCall) (now : Nat) :
    Option MethodCall :=
  if now < c.now then none
  else
    match c.handled with
    | .running => some ⟨now, handleMethodCall stream cardinality now⟩
    | .answered _ => none
    | .streaming _ _ =>
        some ⟨now, .streaming ((stream.yielded now).map sseEvent) (stream.ended now)⟩

def machine (stream : PlexusStream) (cardinality : Cardinality) : Machine MethodCall Nat :=
  ⟨⟨0, .running⟩, step stream cardinality⟩

/-- The runtime's timer wakes the call at its deadline, if it is not answered by then. -/
def Woken (c : MethodCall) (now : Nat) : Prop :=
  match c.handled with
  | .running => now ≤ methodTimeout
  | _ => True

instance (c : MethodCall) (now : Nat) : Decidable (c.Woken now) := by
  unfold Woken
  split <;> infer_instance

end MethodCall

/-- What is written is made of these items and no others. -/
def Handled.MadeOf (items : List PlexusStreamItem) : Handled → Prop
  | .running => True
  | .answered r => r = timedOut ∨ ∃ front, front <+: items ∧ r = collectAndRespond front
  | .streaming events _ => ∃ front, front <+: items ∧ events = front.map sseEvent

/-- What has come by the deadline does not end the call. -/
def RunsOver (stream : PlexusStream) : Cardinality → Prop
  | .one => pollCollect stream methodTimeout = none
  | .many => stream.ended methodTimeout = false

/-- Nothing yielded past the deadline is written, and a call still running then is answered
    that it timed out. -/
structure Timely (stream : PlexusStream) (cardinality : Cardinality) (c : MethodCall) : Prop where
  made : c.handled.MadeOf (stream.yielded methodTimeout)
  ends : RunsOver stream cardinality → methodTimeout ≤ c.now → c.handled = .answered timedOut

variable {stream : PlexusStream} {now : Nat}

theorem pollCollect_some {r : JsonResponse} (answered : pollCollect stream now = some r) :
    r = collectAndRespond (stream.yielded now) := by
  unfold pollCollect at answered
  unfold collectAndRespond
  cases went : collect (stream.yielded now) with
  | ok c =>
      simp only [went, Option.ite_none_right_eq_some, Option.some.injEq] at answered ⊢
      exact answered.2.symm
  | error left =>
      cases left <;> simpa [went] using answered.symm

namespace MethodCall

/-- A call answered with one body, as its runs keep it. -/
structure Unary (stream : PlexusStream) (c : MethodCall) : Prop where
  timely : Timely stream .one c
  whole : ∀ events ended, c.handled ≠ .streaming events ended

theorem handle_unary (early : now ≤ methodTimeout) :
    Unary stream ⟨now, handleMethodCall stream .one now⟩ := by
  unfold handleMethodCall
  cases answered : pollCollect stream now with
  | some r =>
      refine ⟨⟨?_, ?_⟩, by simp [pollTimeout]⟩
      · exact .inr ⟨_, stream.grows _ _ early, pollCollect_some answered⟩
      · intro past (late : methodTimeout ≤ now)
        have same : now = methodTimeout := Nat.le_antisymm early late
        rw [same] at answered
        cases answered.symm.trans past
  | none =>
      by_cases late : methodTimeout ≤ now
      · simp only [Option.map_none, pollTimeout, if_pos late]
        exact ⟨⟨.inl rfl, fun _ _ => rfl⟩, by simp⟩
      · simp only [Option.map_none, pollTimeout, if_neg late]
        exact ⟨⟨trivial, fun _ here => absurd here late⟩, by simp⟩

theorem start_unary : Unary stream ⟨0, .running⟩ := by
  refine ⟨⟨trivial, fun _ reached => ?_⟩, by simp⟩
  unfold methodTimeout methodTimeoutSecs at reached
  dsimp only at reached
  omega

theorem step_unary {c c' : MethodCall} (unary : Unary stream c) (woken : c.Woken now)
    (stepped : c.step stream .one now = some c') : Unary stream c' := by
  unfold step at stepped
  unfold Woken at woken
  split at stepped
  · cases stepped
  · cases handled : c.handled with
    | running =>
        simp only [handled] at stepped woken
        cases stepped
        exact handle_unary woken
    | answered r =>
        simp only [handled] at stepped
        cases stepped
    | streaming events ended => exact absurd handled (unary.whole events ended)

/-- Once the stream has ended, it yields nothing more. -/
theorem yielded_prefix (ended : stream.ended methodTimeout = true) (now : Nat) :
    stream.yielded now <+: stream.yielded methodTimeout := by
  rcases Nat.le_total now methodTimeout with early | late
  · exact stream.grows _ _ early
  · rw [(stream.closed _ _ late ended).2]

theorem step_many {c c' : MethodCall} (ended : stream.ended methodTimeout = true)
    (stepped : c.step stream .many now = some c') :
    c'.handled.MadeOf (stream.yielded methodTimeout) := by
  unfold step at stepped
  split at stepped
  · cases stepped
  · cases handled : c.handled with
    | running =>
        simp only [handled] at stepped
        cases stepped
        exact ⟨[], List.nil_prefix, rfl⟩
    | answered r =>
        simp only [handled] at stepped
        cases stepped
    | streaming events ends =>
        simp only [handled] at stepped
        cases stepped
        exact ⟨_, yielded_prefix ended now, rfl⟩

/-- Its response is there at the first poll. -/
theorem run_many (stream : PlexusStream) (last : Nat) :
    (machine stream .many).run [0, last] =
        some ⟨last, .streaming ((stream.yielded last).map sseEvent) (stream.ended last)⟩ ∧
      (machine stream .many).Allows Woken ⟨0, .running⟩ [0, last] := by
  refine ⟨?_, Nat.zero_le _, fun c stepped => ⟨?_, fun _ _ => trivial⟩⟩
  · simp [Machine.run, Machine.runFrom, machine, step, handleMethodCall, pollTimeout]
  · cases stepped
    trivial

/-- The timeout covers the call if and only if the method answers with one body, or its
    stream has ended by then. -/
theorem method_timeout (stream : PlexusStream) (cardinality : Cardinality) :
    (∀ polls c, (machine stream cardinality).run polls = some c →
      (machine stream cardinality).Allows Woken ⟨0, .running⟩ polls →
        Timely stream cardinality c) ↔
      cardinality = .one ∨ stream.ended methodTimeout = true := by
  constructor
  · intro timely
    cases cardinality with
    | one => exact .inl rfl
    | many =>
        cases ended : stream.ended methodTimeout with
        | true => exact .inr rfl
        | false =>
            obtain ⟨ran, woken⟩ := run_many stream methodTimeout
            cases (timely _ _ ran woken).ends ended (Nat.le_refl _)
  · intro covered polls c ran woken
    cases cardinality with
    | one =>
        have unary : Unary stream c := by
          refine Machine.runFrom_keeps (I := Unary stream) ?_ woken ran start_unary
          intro c now c' unary woken stepped
          exact step_unary unary woken stepped
        exact unary.timely
    | many =>
        have ended : stream.ended methodTimeout = true := by simpa using covered
        refine ⟨?_, fun past => ?_⟩
        · refine Machine.run_keeps
            (I := fun c => c.handled.MadeOf (stream.yielded methodTimeout)) trivial ?_ ran
          intro c now c' _ stepped
          exact step_many ended stepped
        · cases past.symm.trans ended

/-- Its one item comes a millisecond past the deadline. -/
def late : PlexusStream where
  yielded now := if now ≤ methodTimeout then [] else [.done]
  ended now := !decide (now ≤ methodTimeout)
  grows := by
    intro s t le
    split
    · exact List.nil_prefix
    · rw [if_neg (by omega)]
  closed := by
    intro s t le ended
    have past : ¬ s ≤ methodTimeout := by simpa using ended
    have past' : ¬ t ≤ methodTimeout := by omega
    simp [past, past']

/-- A stream's event is sent after the deadline. -/
theorem late_written :
    ¬ ∀ (stream : PlexusStream) (cardinality : Cardinality) (polls : List Nat) (c : MethodCall),
      (machine stream cardinality).run polls = some c →
      (machine stream cardinality).Allows Woken ⟨0, .running⟩ polls →
        Timely stream cardinality c := by
  intro timely
  obtain ⟨ran, woken⟩ := run_many late (methodTimeout + 1)
  obtain ⟨front, prior, events⟩ := (timely late .many _ _ ran woken).made
  simp only [late, Nat.le_refl, if_true, List.prefix_nil] at prior
  rw [prior, late] at events
  simp at events

end MethodCall

end PlexusTransport.Http
