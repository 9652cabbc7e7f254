import PlexusTransport.Lib.Framing
import PlexusTransport.Lib.JsonText
import PlexusTransport.Lib.Machine

/-! # The stdio transport

`serve_lines`: a reader that calls for each line, a task for each call that forwards its
items, and one writer behind a bounded queue.
-/

namespace PlexusTransport.Stdio

open Framing

structure RawValue where
  get : Text
  json : IsJsonText get

def RawValue.bytes (m : RawValue) : List UInt8 := Text.utf8 m.get

def newline : UInt8 := 0x0a

def writeBudget : Nat := 64 * 1024

/-- `raw_json_request` errs as the line does not deserialize; `invalidUtf8`: what tokio's
    `next_line` says of a line that is no text. -/
structure RpcModule (Service Request : Type) where
  invalidUtf8 : String
  fromStr : Text → Except String Request
  call : Service → Request → Service × RawValue

/-- `next_line`: the bytes of a line as text. -/
def fromUtf8 (invalid : String) (line : List UInt8) : Except String Text :=
  match String.fromUTF8? ⟨line.toArray⟩ with
  | some text => .ok text.toList
  | none => .error invalid

variable {Service Request : Type}

/-- What a line asks for; a blank one, nothing. -/
def RpcModule.asks (module : RpcModule Service Request) (line : List UInt8) :
    Except String (Option Request) := do
  let text ← fromUtf8 module.invalidUtf8 line
  let trimmed := Text.trim text
  if trimmed.isEmpty then return none
  match module.fromStr trimmed with
  | .ok request => return some request
  | .error e => .error ("RPC error: " ++ e)

/-- Whose a queued message is: the answer of a call, or one of its stream's items. -/
inductive Source where
  | answer (call : Nat)
  | item (call : Nat)
  deriving DecidableEq, Repr

structure Queued where
  source : Source
  message : RawValue

/-- Where the reader is; `ended`: the loop has, and the streams are being shut down. -/
inductive Reader where
  | reading
  | sending (response : RawValue)
  | ended (read : Except String Unit)
  | draining (read : Except String Unit)
  | returned (result : Except String Unit)

/-- Where a call's forwarder is. -/
inductive Stream where
  | receiving
  | sending (notification : RawValue)
  | over

inductive Writer where
  | receiving
  | gathering (buf : List UInt8)
  | writing (left : List UInt8)
  | flushing
  | failed (e : String)
  | ended
  | aborted

namespace Writer

/-- It no longer holds the queue. -/
def stopped : Writer → Bool
  | .failed _ | .ended | .aborted => true
  | _ => false

/-- What it took and has yet to write. -/
def left : Writer → List UInt8
  | .gathering buf => buf
  | .writing left => left
  | _ => []

end Writer

/-- The streams are the calls answered, in order; all that was ever queued is `queued`. -/
structure Server (Service : Type) where
  input : List (List UInt8)
  service : Service
  reader : Reader
  streams : List Stream
  queue : List RawValue
  writer : Writer
  written : List UInt8
  queued : List Queued

inductive StdioEvent where
  | reads
  | answers
  | receives (call : Nat) (notification : RawValue)
  | forwards (call : Nat)
  | closes (call : Nat)
  | shutsDown
  | takes
  | gathered
  | writes (n : Nat)
  | flushes
  | fails (e : String)
  | stops
  | timesOut
  | returns

namespace Server

def start (service : Service) (input : List (List UInt8)) : Server Service :=
  ⟨input, service, .reading, [], [], .receiving, [], []⟩

def put (s : Server Service) (call : Nat) (stream : Stream) : Server Service :=
  { s with streams := s.streams.set call stream }

/-- `out.send` once there is room. -/
def push (s : Server Service) (source : Source) (m : RawValue) : Server Service :=
  { s with queue := s.queue ++ [m], queued := s.queued ++ [⟨source, m⟩] }

/-- The loop's next line, and the call. -/
def nextLine (module : RpcModule Service Request) (s : Server Service) : Server Service :=
  match s.input with
  | [] => { s with reader := .ended (.ok ()) }
  | line :: input =>
      match module.asks line with
      | .error e => { s with input, reader := .ended (.error e) }
      | .ok none => { s with input }
      | .ok (some request) =>
          { s with
            input
            service := (module.call s.service request).1
            reader := .sending (module.call s.service request).2 }

/-- The reader's next step, but for the end of `serve_lines`. -/
def read (module : RpcModule Service Request) (bufferSize : Nat) (s : Server Service) :
    StdioEvent → Option (Server Service)
  | .reads =>
      match s.reader with
      | .reading => some (s.nextLine module)
      | _ => none
  | .answers =>
      match s.reader with
      | .sending response =>
          if s.writer.stopped then some { s with reader := .ended (.ok ()) }
          else if s.queue.length < max bufferSize 1 then
            some { s.push (.answer s.streams.length) response with
              reader := .reading
              streams := s.streams ++ [.receiving] }
          else none
      | _ => none
  | _ => none

def forward (bufferSize : Nat) (s : Server Service) : StdioEvent → Option (Server Service)
  | .receives call notification =>
      match s.streams[call]? with
      | some .receiving => some (s.put call (.sending notification))
      | _ => none
  | .forwards call =>
      match s.streams[call]? with
      | some (.sending notification) =>
          if s.writer.stopped then some (s.put call .over)
          else if s.queue.length < max bufferSize 1 then
            some ((s.push (.item call) notification).put call .receiving)
          else none
      | _ => none
  | .closes call =>
      match s.streams[call]? with
      | some .receiving => some (s.put call .over)
      | _ => none
  | _ => none

def writeLines (s : Server Service) : StdioEvent → Option (Server Service)
  | .takes =>
      match s.writer, s.queue with
      | .receiving, first :: queue =>
          some { s with queue, writer := .gathering (first.bytes ++ [newline]) }
      | .gathering buf, more :: queue =>
          if buf.length < writeBudget then
            some { s with queue, writer := .gathering (buf ++ (more.bytes ++ [newline])) }
          else none
      | _, _ => none
  | .gathered =>
      match s.writer with
      | .gathering buf =>
          if writeBudget ≤ buf.length ∨ s.queue.isEmpty then some { s with writer := .writing buf }
          else none
      | _ => none
  | .writes n =>
      match s.writer with
      | .writing left =>
          if 0 < n ∧ n ≤ left.length then
            some { s with written := s.written ++ left.take n, writer := .writing (left.drop n) }
          else none
      | _ => none
  | .flushes =>
      match s.writer with
      | .writing [] => some { s with writer := .flushing }
      | .flushing => some { s with writer := .receiving }
      | _ => none
  | .fails e =>
      match s.writer with
      | .writing _ | .flushing => some { s with writer := .failed e }
      | _ => none
  | .stops =>
      match s.writer, s.queue, s.reader with
      | .receiving, [], .draining _ => some { s with writer := .ended }
      | _, _, _ => none
  | _ => none

/-- The end of `serve_lines`. -/
def finish (s : Server Service) : StdioEvent → Option (Server Service)
  | .shutsDown =>
      match s.reader with
      | .ended read =>
          some { s with reader := .draining read, streams := s.streams.map fun _ => .over }
      | _ => none
  | .timesOut =>
      match s.reader with
      | .draining read =>
          if s.writer.stopped then none
          else some { s with reader := .returned read, writer := .aborted }
      | _ => none
  | .returns =>
      match s.reader, s.writer with
      | .draining read, .ended => some { s with reader := .returned read }
      | .draining read, .failed e =>
          some { s with reader := .returned (read.bind fun _ => .error e) }
      | _, _ => none
  | _ => none

def step (module : RpcModule Service Request) (bufferSize : Nat) (s : Server Service)
    (e : StdioEvent) : Option (Server Service) :=
  match e with
  | .reads | .answers => s.read module bufferSize e
  | .receives _ _ | .forwards _ | .closes _ => s.forward bufferSize e
  | .takes | .gathered | .writes _ | .flushes | .fails _ | .stops => s.writeLines e
  | .shutsDown | .timesOut | .returns => s.finish e

def machine (module : RpcModule Service Request) (bufferSize : Nat) (service : Service)
    (input : List (List UInt8)) : Machine (Server Service) StdioEvent :=
  ⟨start service input, step module bufferSize⟩

/-- All that a step can be. -/
inductive Goes (module : RpcModule Service Request) (s : Server Service) : Server Service → Prop where
  | reads (reading : s.reader = .reading) : Goes module s (s.nextLine module)
  | answers {response} (sending : s.reader = .sending response)
      (going : s.writer.stopped = false) :
      Goes module s { s.push (.answer s.streams.length) response with
        reader := .reading
        streams := s.streams ++ [.receiving] }
  | leaves {response} (sending : s.reader = .sending response) (stopped : s.writer.stopped) :
      Goes module s { s with reader := .ended (.ok ()) }
  | moves {call stream} : Goes module s (s.put call stream)
  | forwards {call notification} (sending : s.streams[call]? = some (.sending notification))
      (going : s.writer.stopped = false) :
      Goes module s ((s.push (.item call) notification).put call .receiving)
  | takesFirst {first queue} (receiving : s.writer = .receiving)
      (waits : s.queue = first :: queue) :
      Goes module s { s with queue, writer := .gathering (first.bytes ++ [newline]) }
  | takesMore {buf more queue} (gathering : s.writer = .gathering buf)
      (waits : s.queue = more :: queue) :
      Goes module s { s with queue, writer := .gathering (buf ++ (more.bytes ++ [newline])) }
  | gathered {buf} (gathering : s.writer = .gathering buf) :
      Goes module s { s with writer := .writing buf }
  | writes {left} {n : Nat} (writing : s.writer = .writing left) :
      Goes module s
        { s with written := s.written ++ left.take n, writer := .writing (left.drop n) }
  | wrote (writing : s.writer = .writing []) : Goes module s { s with writer := .flushing }
  | flushed (flushing : s.writer = .flushing) : Goes module s { s with writer := .receiving }
  | fails {e} (going : s.writer.stopped = false) : Goes module s { s with writer := .failed e }
  | stops {read} (receiving : s.writer = .receiving) (empty : s.queue = [])
      (draining : s.reader = .draining read) : Goes module s { s with writer := .ended }
  | shutsDown {read} (ended : s.reader = .ended read) :
      Goes module s
        { s with reader := .draining read, streams := s.streams.map fun _ => .over }
  | timesOut {read} (draining : s.reader = .draining read) (going : s.writer.stopped = false) :
      Goes module s { s with reader := .returned read, writer := .aborted }
  | returns {read} (draining : s.reader = .draining read) (ended : s.writer = .ended) :
      Goes module s { s with reader := .returned read }
  | returnsFailed {read e} (draining : s.reader = .draining read)
      (failed : s.writer = .failed e) :
      Goes module s { s with reader := .returned (read.bind fun _ => .error e) }

variable {module : RpcModule Service Request} {bufferSize : Nat} {s t : Server Service}
  {e : StdioEvent}

theorem read_cases (stepped : s.read module bufferSize e = some t) : Goes module s t := by
  unfold read at stepped
  split at stepped
  · split at stepped
    · rename_i reading
      cases stepped
      exact .reads reading
    · cases stepped
  · split at stepped
    · rename_i response sending
      split at stepped
      · rename_i stopped
        cases stepped
        exact .leaves sending stopped
      · rename_i going
        obtain ⟨-, stepped⟩ := Option.ite_none_right_eq_some.mp stepped
        cases stepped
        exact .answers sending (Bool.eq_false_iff.mpr going)
    · cases stepped
  · cases stepped

theorem forward_cases (stepped : s.forward bufferSize e = some t) : Goes module s t := by
  unfold forward at stepped
  split at stepped
  · split at stepped
    · cases stepped
      exact .moves
    · cases stepped
  · split at stepped
    · rename_i notification sending
      split at stepped
      · cases stepped
        exact .moves
      · rename_i going
        obtain ⟨-, stepped⟩ := Option.ite_none_right_eq_some.mp stepped
        cases stepped
        exact .forwards sending (Bool.eq_false_iff.mpr going)
    · cases stepped
  · split at stepped
    · cases stepped
      exact .moves
    · cases stepped
  · cases stepped

theorem writeLines_cases (stepped : s.writeLines e = some t) : Goes module s t := by
  unfold writeLines at stepped
  split at stepped
  · split at stepped
    · rename_i first queue receiving waits
      cases stepped
      exact .takesFirst receiving waits
    · rename_i buf more queue gathering waits
      obtain ⟨-, stepped⟩ := Option.ite_none_right_eq_some.mp stepped
      cases stepped
      exact .takesMore gathering waits
    · cases stepped
  · split at stepped
    · rename_i buf gathering
      obtain ⟨-, stepped⟩ := Option.ite_none_right_eq_some.mp stepped
      cases stepped
      exact .gathered gathering
    · cases stepped
  · split at stepped
    · rename_i left writing
      obtain ⟨-, stepped⟩ := Option.ite_none_right_eq_some.mp stepped
      cases stepped
      exact .writes writing
    · cases stepped
  · split at stepped
    · rename_i writing
      cases stepped
      exact .wrote writing
    · rename_i flushing
      cases stepped
      exact .flushed flushing
    · cases stepped
  · split at stepped
    · rename_i left writing
      cases stepped
      exact .fails (by rw [writing]; rfl)
    · rename_i flushing
      cases stepped
      exact .fails (by rw [flushing]; rfl)
    · cases stepped
  · split at stepped
    · rename_i receiving empty draining
      cases stepped
      exact .stops receiving empty draining
    · cases stepped
  · cases stepped

theorem finish_cases (stepped : s.finish e = some t) : Goes module s t := by
  unfold finish at stepped
  split at stepped
  · split at stepped
    · rename_i read ended
      cases stepped
      exact .shutsDown ended
    · cases stepped
  · split at stepped
    · rename_i read draining
      obtain ⟨going, stepped⟩ := Option.ite_none_left_eq_some.mp stepped
      cases stepped
      exact .timesOut draining (Bool.eq_false_iff.mpr going)
    · cases stepped
  · split at stepped
    · rename_i read draining ended
      cases stepped
      exact .returns draining ended
    · rename_i read e draining failed
      cases stepped
      exact .returnsFailed draining failed
    · cases stepped
  · cases stepped

theorem step_cases (stepped : s.step module bufferSize e = some t) : Goes module s t := by
  cases e with
  | reads | answers =>
      dsimp only [step] at stepped
      exact read_cases stepped
  | receives | forwards | closes =>
      dsimp only [step] at stepped
      exact forward_cases stepped
  | takes | gathered | writes | flushes | fails | stops =>
      dsimp only [step] at stepped
      exact writeLines_cases stepped
  | shutsDown | timesOut | returns =>
      dsimp only [step] at stepped
      exact finish_cases stepped

end Server

end PlexusTransport.Stdio
