import PlexusTransport.Stdio

/-! # What the stdio server writes -/

namespace PlexusTransport.Stdio

open Framing

variable {Service Request : Type}

namespace Server

/-- The messages ever queued, as they are written. -/
def texts (s : Server Service) : List (List UInt8) := s.queued.map (·.message.bytes)

/-- Every item is queued after the answer of its call. -/
def AnswersFirst (s : Server Service) : Prop :=
  ∀ front q rest, s.queued = front ++ q :: rest → ∀ call, q.source = .item call →
    ∃ a ∈ front, a.source = .answer call

/-- What was taken is the bytes of all queued, in order: written, on the way, or in the queue. -/
structure Conserves (s : Server Service) : Prop where
  going : s.writer.stopped = false →
    s.written ++ s.writer.left ++ frames newline (s.queue.map (·.bytes)) = frames newline s.texts
  front : s.written <+: frames newline s.texts
  ended : s.writer = .ended → s.written = frames newline s.texts

structure Ordered (s : Server Service) : Prop where
  answersFirst : s.AnswersFirst
  answered : ∀ call < s.streams.length, ∃ q ∈ s.queued, q.source = .answer call

variable {module : RpcModule Service Request} {bufferSize : Nat} {s t : Server Service}

/-- A step of the writer on what it holds. -/
theorem Conserves.writer (kept : s.Conserves) (going : s.writer.stopped = false)
    {written : List UInt8} {queue : List RawValue} {writer : Writer}
    (same : written ++ writer.left ++ frames newline (queue.map (·.bytes)) =
      s.written ++ s.writer.left ++ frames newline (s.queue.map (·.bytes)))
    (more : writer ≠ .ended) :
    Conserves { s with written, queue, writer } := by
  have all := same.trans (kept.going going)
  refine ⟨fun _ => all, ?_, fun ended => absurd ended more⟩
  rw [List.append_assoc] at all
  exact ⟨_, all⟩

theorem Conserves.push (kept : s.Conserves) (going : s.writer.stopped = false) (source : Source)
    (m : RawValue) : (s.push source m).Conserves := by
  have texts : (s.push source m).texts = s.texts ++ [m.bytes] := List.map_append
  refine ⟨fun _ => ?_, ?_, ?_⟩
  · rw [texts, frames_append, ← kept.going going]
    simp only [Server.push, List.map_append, frames_append, List.append_assoc, List.map_cons,
      List.map_nil]
  · rw [texts, frames_append]
    exact kept.front.trans (List.prefix_append _ _)
  · intro ended
    change s.writer = .ended at ended
    rw [ended] at going
    cases going

theorem nextLine_writer (module : RpcModule Service Request) (s : Server Service) :
    (s.nextLine module).writer = s.writer ∧ (s.nextLine module).written = s.written ∧
      (s.nextLine module).queue = s.queue ∧ (s.nextLine module).queued = s.queued ∧
        (s.nextLine module).streams = s.streams := by
  unfold nextLine
  split
  · exact ⟨rfl, rfl, rfl, rfl, rfl⟩
  · split <;> exact ⟨rfl, rfl, rfl, rfl, rfl⟩

theorem Goes.conserves (gone : Goes module s t) (kept : s.Conserves) : t.Conserves := by
  cases gone with
  | reads reading =>
      obtain ⟨writer, written, queue, queued, -⟩ := nextLine_writer module s
      have texts : (s.nextLine module).texts = s.texts := congrArg (List.map _) queued
      refine ⟨?_, ?_, ?_⟩
      · rw [writer, written, queue, texts]
        exact kept.going
      · rw [written, texts]
        exact kept.front
      · rw [writer, written, texts]
        exact kept.ended
  | answers sending going | forwards sending going =>
      have pushed := kept.push going
      exact ⟨(pushed _ _).going, (pushed _ _).front, (pushed _ _).ended⟩
  | leaves | moves | shutsDown | returns | returnsFailed => exact ⟨kept.going, kept.front, kept.ended⟩
  | takesFirst receiving waits =>
      refine kept.writer (by rw [receiving]; rfl) ?_ (by simp)
      simp [receiving, waits, Writer.left, frames_cons]
  | takesMore gathering waits =>
      refine kept.writer (by rw [gathering]; rfl) ?_ (by simp)
      simp [gathering, waits, Writer.left, frames_cons]
  | gathered gathering =>
      refine kept.writer (by rw [gathering]; rfl) ?_ (by simp)
      simp [gathering, Writer.left]
  | @writes left n writing =>
      refine kept.writer (by rw [writing]; rfl) ?_ (by simp)
      simp only [writing, Writer.left]
      rw [List.append_assoc s.written, List.take_append_drop]
  | wrote writing =>
      refine kept.writer (by rw [writing]; rfl) ?_ (by simp)
      simp [writing, Writer.left]
  | flushed flushing =>
      refine kept.writer (by rw [flushing]; rfl) ?_ (by simp)
      simp [flushing, Writer.left]
  | fails going | timesOut draining going =>
      refine ⟨?_, kept.front, ?_⟩
      · intro going
        cases going
      · intro ended
        cases ended
  | stops receiving empty draining =>
      have all := kept.going (by rw [receiving]; rfl)
      simp only [receiving, empty, Writer.left, List.append_nil, List.map_nil, frames,
        List.flatMap_nil] at all
      refine ⟨?_, kept.front, fun _ => all⟩
      intro going
      cases going

theorem Ordered.push (ordered : s.Ordered) (source : Source) (m : RawValue)
    (known : ∀ call, source = .item call → call < s.streams.length) :
    (s.push source m).AnswersFirst := by
  intro front q rest split call item
  rcases List.eq_nil_or_concat' rest with rfl | ⟨before, last, rfl⟩
  · obtain ⟨rfl, same⟩ := List.append_inj' split rfl
    cases same
    exact ordered.answered call (known call item)
  · rw [← List.cons_append, ← List.append_assoc] at split
    obtain ⟨before, -⟩ := List.append_inj' split rfl
    exact ordered.answersFirst front q _ before call item

theorem Ordered.answered_push (ordered : s.Ordered) (source : Source) (m : RawValue) :
    ∀ call < s.streams.length, ∃ q ∈ (s.push source m).queued, q.source = .answer call := by
  intro call within
  obtain ⟨q, mem, same⟩ := ordered.answered call within
  exact ⟨q, List.mem_append_left _ mem, same⟩

theorem Goes.ordered (gone : Goes module s t) (ordered : s.Ordered) : t.Ordered := by
  cases gone with
  | reads reading =>
      obtain ⟨-, -, -, queued, streams⟩ := nextLine_writer module s
      refine ⟨?_, ?_⟩
      · rw [AnswersFirst, queued]
        exact ordered.answersFirst
      · rw [streams, queued]
        exact ordered.answered
  | @answers response sending going =>
      refine ⟨ordered.push _ _ (by simp), ?_⟩
      intro call within
      rw [List.length_append, List.length_singleton] at within
      obtain earlier | rfl := Nat.lt_succ_iff_lt_or_eq.mp within
      · exact ordered.answered_push _ _ call earlier
      · exact ⟨_, List.mem_append_right _ (.head _), rfl⟩
  | @forwards call notification sending going =>
      refine ⟨ordered.push _ _ ?_, ?_⟩
      · intro call' same
        cases same
        exact (List.getElem?_eq_some_iff.mp sending).1
      · intro call' within
        rw [put, List.length_set] at within
        exact ordered.answered_push _ _ call' within
  | moves =>
      refine ⟨ordered.answersFirst, ?_⟩
      rw [put, List.length_set]
      exact ordered.answered
  | shutsDown =>
      refine ⟨ordered.answersFirst, ?_⟩
      rw [List.length_map]
      exact ordered.answered
  | _ => exact ⟨ordered.answersFirst, ordered.answered⟩

/-- The server returns once the writer has stopped. -/
def Finished (s : Server Service) : Prop := ∀ result, s.reader = .returned result → s.writer.stopped

theorem nextLine_reader (module : RpcModule Service Request) (s : Server Service)
    (reading : s.reader = .reading) (result : Except String Unit) :
    (s.nextLine module).reader ≠ .returned result := by
  unfold nextLine
  split
  · simp
  · split <;> simp [reading]

theorem Goes.finished (gone : Goes module s t) (finished : s.Finished) : t.Finished := by
  have open' : s.writer.stopped = false → ∀ result, s.reader ≠ .returned result := by
    intro going result returned
    rw [finished result returned] at going
    cases going
  intro result returned
  cases gone with
  | reads reading => exact absurd returned (nextLine_reader module s reading result)
  | answers | leaves | shutsDown => cases returned
  | moves => exact finished result returned
  | forwards sending going => exact finished result returned
  | takesFirst receiving => exact absurd returned (open' (by rw [receiving]; rfl) result)
  | takesMore gathering | gathered gathering =>
      exact absurd returned (open' (by rw [gathering]; rfl) result)
  | writes writing | wrote writing => exact absurd returned (open' (by rw [writing]; rfl) result)
  | flushed flushing => exact absurd returned (open' (by rw [flushing]; rfl) result)
  | fails | stops | timesOut => rfl
  | returns draining ended =>
      change s.writer.stopped
      rw [ended]
      rfl
  | returnsFailed draining failed =>
      change s.writer.stopped
      rw [failed]
      rfl

/-- In any run each item is queued after its call's answer, and what is queued is written in
    order: all of it when the writer comes to its end, and a front of it when the writer failed
    or the drain timed out. Split at its newlines, what is written is the messages, if and only
    if no message holds one. -/
theorem stdio_framing (module : RpcModule Service Request) (bufferSize : Nat) (service : Service)
    (input : List (List UInt8)) (events : List StdioEvent) (s : Server Service)
    (ran : (machine module bufferSize service input).run events = some s) :
    s.AnswersFirst ∧
    (∀ result, s.reader = .returned result →
      s.writer = .ended ∨ s.writer = .aborted ∨ ∃ e, s.writer = .failed e) ∧
    (s.writer.stopped = false → s.written ++ s.writer.left ++
      frames newline (s.queue.map (·.bytes)) = frames newline s.texts) ∧
    (s.writer = .ended → s.written = frames newline s.texts ∧
      (lines newline s.written = s.texts ↔ ∀ m ∈ s.texts, newline ∉ m)) ∧
    ((∀ m ∈ s.texts, newline ∉ m) → lines newline s.written <+: s.texts) := by
  have conserves : s.Conserves :=
    Machine.run_keeps (I := Conserves) ⟨fun _ => rfl, List.nil_prefix, fun _ => rfl⟩
      (fun _ _ _ kept stepped => (step_cases stepped).conserves kept) ran
  have ordered : s.Ordered :=
    Machine.run_keeps (I := Ordered) ⟨by simp [AnswersFirst, machine, start], by simp [machine, start]⟩
      (fun _ _ _ kept stepped => (step_cases stepped).ordered kept) ran
  have finished : s.Finished :=
    Machine.run_keeps (I := Finished) (fun result returned => by cases returned)
      (fun _ _ _ kept stepped => (step_cases stepped).finished kept) ran
  refine ⟨ordered.answersFirst, ?_, conserves.going, ?_, ?_⟩
  · intro result returned
    have stopped := finished result returned
    cases writer : s.writer with
    | failed e => exact .inr (.inr ⟨e, rfl⟩)
    | ended => exact .inl rfl
    | aborted => exact .inr (.inl rfl)
    | _ =>
        rw [writer] at stopped
        cases stopped
  · intro ended
    have all := conserves.ended ended
    rw [all]
    exact ⟨rfl, lines_frames_iff⟩
  · intro whole
    have read : lines newline s.written <+: lines newline (frames newline s.texts) :=
      lines_prefix conserves.front
    rwa [lines_frames_iff.mpr whole] at read

section Runs

open JsonText

/-- The answer to call 1. -/
def answerText (result : Text) : Text :=
  "\x7b\"jsonrpc\":\"2.0\",\"id\":1,\"result\":".toList ++ result ++ "\x7d".toList

theorem one_json : Reads .value ['1'] :=
  @Reads.number [] ['1'] [] [] (.inl rfl) (.digits (by decide) ⟨by simp, by simp [isDigit]⟩) .none
    .none

theorem answer_json {result : Text} (value : Reads .value result) :
    IsJsonText (answerText result) := by
  have version : Reads .value ('"' :: ['2', '.', '0'] ++ ['"']) :=
    .string (chars_of_plain (by simp))
  have members : Reads .members _ := .members (member_of_plain (k := "jsonrpc".toList) (by simp) version)
    (.members (member_of_plain (k := "id".toList) (by simp) one_json)
      (member_of_plain (k := "result".toList) (by simp) value))
  exact .object members

/-- An array whose one element is on a line of its own. -/
theorem array_json : Reads .value ['[', '\n', '1', ']'] :=
  .array (.element (@Reads.padded ['\n'] ['1'] [] (by simp [Blank, isBlank]) one_json
    (by simp [Blank])))

def callLine : List UInt8 :=
  Text.utf8 "\x7b\"jsonrpc\":\"2.0\",\"id\":1,\"method\":\"m\"\x7d".toList

/-- One method, called so. -/
def answering (m : RawValue) : RpcModule Unit Unit where
  invalidUtf8 := "stream did not contain valid UTF-8"
  fromStr t := if Text.utf8 t = callLine then .ok () else .error "missing field `id` at line 1 column 30"
  call _ _ := ((), m)

def one : RawValue := ⟨answerText ['1'], answer_json one_json⟩

def array : RawValue := ⟨answerText ['[', '\n', '1', ']'], answer_json array_json⟩

/-- One call, answered in `n` bytes; then the input ends. -/
def once (n : Nat) : List StdioEvent :=
  [.reads, .answers, .takes, .gathered, .writes n, .flushes, .flushes, .reads, .shutsDown, .stops,
    .returns]

theorem stdio_framing_once :
    ∃ s, (machine (answering one) 1 () [callLine]).run (once 36) = some s ∧
      lines newline s.written = s.texts := by
  obtain ⟨-, -, -, ended, -⟩ := stdio_framing (answering one) 1 () [callLine] (once 36) _ rfl
  exact ⟨_, rfl, (ended rfl).2.mpr (by decide +kernel)⟩

/-- The newline of an answer is read as the end of it. -/
theorem framing_broken :
    ¬ ∀ (module : RpcModule Unit Unit) (bufferSize : Nat) (service : Unit)
      (input : List (List UInt8)) (events : List StdioEvent) (s : Server Unit),
      (machine module bufferSize service input).run events = some s → s.writer = .ended →
        lines newline s.written = s.texts := by
  intro back
  have same := back (answering array) 1 () [callLine] (once 39) _ rfl rfl
  revert same
  decide +kernel

end Runs

end Server

end PlexusTransport.Stdio
