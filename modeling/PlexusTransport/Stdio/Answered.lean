import PlexusTransport.Stdio.Written

/-! # What the stdio server's lines are answered -/

namespace PlexusTransport.Stdio

variable {Service Request : Type}

section Lines

variable (module : RpcModule Service Request)

/-- The line is blank or a request. -/
def Fine (line : List UInt8) : Prop := ∃ request, module.asks line = .ok request

def request? (line : List UInt8) : Option Request :=
  match module.asks line with
  | .ok request => request
  | .error _ => none

/-- These calls, one after another, and the answers to them. -/
def serve (service : Service) (calls : List Request) : Service × List RawValue :=
  calls.foldl (fun (service, answers) request =>
    ((module.call service request).1, answers ++ [(module.call service request).2])) (service, [])

theorem serve_append (service : Service) (calls : List Request) (request : Request) :
    serve module service (calls ++ [request]) =
      ((module.call (serve module service calls).1 request).1,
        (serve module service calls).2 ++ [(module.call (serve module service calls).1 request).2]) := by
  rw [serve, List.foldl_append]
  rfl

end Lines

/-- How the read loop ended, if it has. -/
def Reader.read? : Reader → Option (Except String Unit)
  | .reading | .sending _ => none
  | .ended read | .draining read | .returned read => some read

namespace Server

/-- The answers queued. -/
def answers (s : Server Service) : List RawValue :=
  s.queued.filterMap fun q =>
    match q.source with
    | .answer _ => some q.message
    | .item _ => none

/-- The lines read ask for these calls, and these answers were made. -/
def Served (module : RpcModule Service Request) (service : Service) (read : List (List UInt8))
    (s : Server Service) (answers : List RawValue) : Prop :=
  (∀ line ∈ read, Fine module line) ∧
    (s.service, answers) = serve module service (read.filterMap (request? module))

/-- How the reader is, or ended, with these lines read. -/
def Follows (module : RpcModule Service Request) (service : Service) (read : List (List UInt8))
    (s : Server Service) : Reader → Prop
  | .reading => Served module service read s s.answers
  | .sending response => Served module service read s (s.answers ++ [response])
  | .ended r | .draining r | .returned r =>
      (∃ e, s.writer = .failed e) ∨
      (r = .ok () ∧ s.input = [] ∧ Served module service read s s.answers) ∨
      (∃ e, r = .error e) ∧ ∃ line ∈ read, ¬ Fine module line

structure Reads (module : RpcModule Service Request) (service : Service) (lines : List (List UInt8))
    (s : Server Service) : Prop where
  follows : ∃ read, lines = read ++ s.input ∧ Follows module service read s s.reader
  early : s.reader.read? = none → s.writer.stopped → ∃ e, s.writer = .failed e

variable {module : RpcModule Service Request} {bufferSize : Nat} {service : Service}
  {lines : List (List UInt8)} {s t : Server Service}

theorem answers_push_answer (call : Nat) (m : RawValue) :
    (s.push (.answer call) m).answers = s.answers ++ [m] := by
  simp [answers, push]

theorem answers_push_item (call : Nat) (m : RawValue) :
    (s.push (.item call) m).answers = s.answers := by
  simp [answers, push]

/-- A line read. -/
theorem nextLine_follows {read : List (List UInt8)} (split : lines = read ++ s.input)
    (reading : s.reader = .reading) (served : Served module service read s s.answers) :
    ∃ read', lines = read' ++ (s.nextLine module).input ∧
      Follows module service read' (s.nextLine module) (s.nextLine module).reader := by
  cases input : s.input with
  | nil =>
      have ends : s.nextLine module = { s with reader := .ended (.ok ()) } := by
        simp only [nextLine, input]
      rw [ends]
      exact ⟨read, split, .inr (.inl ⟨rfl, input, served⟩)⟩
  | cons line rest =>
      have split : lines = (read ++ [line]) ++ rest := by
        rw [split, input, List.append_assoc, List.singleton_append]
      obtain ⟨fine, served⟩ := served
      have stillFine : Fine module line → ∀ l ∈ read ++ [line], Fine module l := by
        intro now l mem
        obtain earlier | here := List.mem_append.mp mem
        · exact fine l earlier
        · exact List.mem_singleton.mp here ▸ now
      cases asked : module.asks line with
      | error e =>
          have ends : s.nextLine module = { s with input := rest, reader := .ended (.error e) } := by
            simp only [nextLine, input, asked]
          rw [ends]
          refine ⟨read ++ [line], split, .inr (.inr ⟨⟨e, rfl⟩, line, by simp, ?_⟩)⟩
          rintro ⟨request, other⟩
          rw [asked] at other
          cases other
      | ok request =>
          cases request with
          | none =>
              have goes : s.nextLine module = { s with input := rest } := by
                simp only [nextLine, input, asked]
              have blank : [line].filterMap (request? module) = [] := by
                simp [request?, asked]
              rw [goes, reading]
              refine ⟨read ++ [line], split, stillFine ⟨_, asked⟩, ?_⟩
              rw [List.filterMap_append, blank, List.append_nil]
              exact served
          | some request =>
              have calls : s.nextLine module = { s with
                  input := rest
                  service := (module.call s.service request).1
                  reader := .sending (module.call s.service request).2 } := by
                simp only [nextLine, input, asked]
              have one : [line].filterMap (request? module) = [request] := by
                simp [request?, asked]
              rw [calls]
              refine ⟨read ++ [line], split, stillFine ⟨_, asked⟩, ?_⟩
              rw [List.filterMap_append, one, serve_append, ← served]
              rfl

/-- What follows of the reader is of its own fields, the answers queued, and a writer that
    failed. -/
theorem Follows.congr {read : List (List UInt8)} {reader : Reader}
    (follows : Follows module service read s reader) (input : t.input = s.input)
    (serv : t.service = s.service) (answers : t.answers = s.answers)
    (failed : ∀ e, s.writer = .failed e → ∃ e, t.writer = .failed e) :
    Follows module service read t reader := by
  unfold Follows Served at follows ⊢
  rw [input, serv, answers]
  cases reader with
  | reading | sending response => exact follows
  | ended | draining | returned =>
      obtain ⟨e, before⟩ | other := follows
      · exact .inl (failed e before)
      · exact .inr other

/-- A step of the writer. -/
theorem Reads.writer (reads : Reads module service lines s) (going : s.writer.stopped = false)
    {written : List UInt8} {queue : List RawValue} {writer : Writer}
    (early : s.reader.read? = none → writer.stopped → ∃ e, writer = .failed e) :
    Reads module service lines { s with written, queue, writer } := by
  obtain ⟨⟨read, split, follows⟩, -⟩ := reads
  refine ⟨⟨read, split, follows.congr rfl rfl rfl ?_⟩, early⟩
  intro e failed
  rw [failed] at going
  cases going

theorem Goes.follows (gone : Goes module s t) (reads : Reads module service lines s) :
    Reads module service lines t := by
  obtain ⟨⟨read, split, follows⟩, early⟩ := id reads
  cases gone with
  | reads reading =>
      obtain ⟨writer, -⟩ := nextLine_writer module s
      rw [reading] at follows early
      refine ⟨nextLine_follows split reading follows, fun _ stopped => ?_⟩
      rw [writer] at stopped ⊢
      exact early rfl stopped
  | @answers response sending going =>
      rw [sending] at follows early
      refine ⟨⟨read, split, ?_⟩, fun _ => early rfl⟩
      change Served module service read s (s.push (.answer s.streams.length) response).answers
      rw [answers_push_answer]
      exact follows
  | leaves sending stopped =>
      rw [sending] at early
      exact ⟨⟨read, split, .inl (early rfl stopped)⟩, fun _ => early rfl⟩
  | moves => exact ⟨⟨read, split, follows.congr rfl rfl rfl fun e failed => ⟨e, failed⟩⟩, early⟩
  | forwards sending going =>
      refine ⟨⟨read, split, follows.congr rfl rfl ?_ fun e failed => ⟨e, failed⟩⟩, early⟩
      exact answers_push_item _ _
  | takesFirst receiving waits =>
      exact reads.writer (by rw [receiving]; rfl) fun _ stopped => by cases stopped
  | takesMore gathering waits | gathered gathering =>
      exact reads.writer (by rw [gathering]; rfl) fun _ stopped => by cases stopped
  | writes writing | wrote writing =>
      exact reads.writer (by rw [writing]; rfl) fun _ stopped => by cases stopped
  | flushed flushing =>
      exact reads.writer (by rw [flushing]; rfl) fun _ stopped => by cases stopped
  | @fails e going =>
      refine ⟨⟨read, split, follows.congr rfl rfl rfl fun _ _ => ⟨e, rfl⟩⟩, fun _ _ => ⟨e, rfl⟩⟩
  | stops receiving empty draining =>
      refine reads.writer (by rw [receiving]; rfl) fun open' => ?_
      rw [draining] at open'
      cases open'
  | shutsDown ended =>
      rw [ended] at follows
      exact ⟨⟨read, split, follows⟩, fun open' => by cases open'⟩
  | timesOut draining going =>
      rw [draining] at follows
      refine ⟨⟨read, split, follows.congr rfl rfl rfl ?_⟩, fun open' => by cases open'⟩
      intro e failed
      rw [failed] at going
      cases going
  | returns draining ended =>
      rw [draining] at follows
      exact ⟨⟨read, split, follows⟩, fun open' => by cases open'⟩
  | returnsFailed draining failed =>
      exact ⟨⟨read, split, .inl ⟨_, failed⟩⟩, fun open' => by cases open'⟩

end Server

end PlexusTransport.Stdio
