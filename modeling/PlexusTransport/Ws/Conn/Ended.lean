import PlexusTransport.Lib.Mpsc.Drains
import PlexusTransport.Ws.Conn.Wake

/-! # A socket's own frames, and its end

Writers put this side's own frames in a queue that the loop takes from. Once the loop has
ended the queue is closed and dropped, the close goes out and the peer's answer is awaited,
within a limit.
-/

namespace PlexusTransport.Ws.Conn

/-- `CLOSE_WAIT`. -/
def closeWait : Nat := 2000

inductive CloseCode where
  | normal
  | away
  | protocol
  deriving DecidableEq, Repr

structure CloseFrame where
  code : CloseCode
  reason : String
  deriving DecidableEq, Repr

/-- The close frame the server sends. -/
def Ending.frame : Ending → Option CloseFrame
  | .peerClosed | .lost => none
  | .protocol => some ⟨.protocol, "protocol error"⟩
  | .serverStopped => some ⟨.away, "the server is stopping"⟩
  | .closed => some ⟨.normal, "closed"⟩
  | .silent => some ⟨.away, "no answer to pings"⟩
  | .idle => some ⟨.normal, "idle"⟩

/-- What is handed to the socket. `own`: a frame of this side's, by its send. `reply`: to the
    peer's close, handed as that was read. -/
inductive Handed where
  | own (i : Nat) (m : Message)
  | other (m : Message)
  | reply
  | close (frame : Option CloseFrame)
  deriving DecidableEq, Repr

def Handed.send? : Handed → Option Nat
  | .own i _ => some i
  | _ => none

def Handed.isFrame : Handed → Bool
  | .own _ _ | .other _ => true
  | _ => false

/-- The last that an end hands the socket. -/
def Ending.last (e : Ending) : List Handed :=
  match e with
  | .lost => []
  | .peerClosed => [.reply]
  | e => [.close e.frame]

/-- Where an end is: the close to be handed, to be flushed, the peer's answer to be read; then
    the hook to be told, and the connection. -/
inductive Closing where
  | handing
  | flushing
  | draining
  | leaving
  | told
  | gone
  deriving DecidableEq, Repr

inductive Course where
  | serving
  | ended (e : Ending) (due : Nat) (at_ : Closing)
  deriving DecidableEq, Repr

inductive HookCall where
  | onFrame
  | onClose
  deriving DecidableEq, Repr

/-- `closed`: the connection is, asked to or over. -/
structure Life where
  now : Nat
  queue : Mpsc Outbound
  course : Course
  wrote : List Handed
  heard : List HookCall
  closed : Bool

/-- `writes`: by a `ConnectionWriter`. `hands` and `flushes`: whether the socket took it.
    `hears`: whether the socket goes on. -/
inductive LifeAct where
  | writes (op : Mpsc.Op Outbound)
  | takes
  | takesOther (m : Message)
  | reads
  | asksClose
  | ends (e : Ending)
  | hands (ok : Bool)
  | flushes
  | hears (more : Bool)
  | timesOut
  | tells
  | finishes
  | tick (time : Nat)

/-- Where an end begins. -/
def Ending.begin : Ending → Closing
  | .lost => .leaving
  | .peerClosed => .flushing
  | _ => .handing

/-- Once the close is sent, or failed to be: is the peer's answer read. -/
def Ending.sent : Ending → Closing
  | .lost | .peerClosed | .protocol => .leaving
  | _ => .draining

namespace Life

/-- A socket just upgraded. -/
def new (queue : Nat) : Life := ⟨0, .channel queue, .serving, [], [], false⟩

/-- Its end, from where `at_` is. -/
def passes (s : Life) (at_ : Closing) (f : Ending → Life → Option (Closing × Life)) :
    Option Life :=
  match s.course with
  | .ended e due here =>
      if here = at_ then
        (f e s).map fun (next, t) => { t with course := .ended e due next }
      else none
  | .serving => none

def take (s : Life) : Option Life := do
  let i ← s.queue.queue.head?
  let f ← s.queue.value i
  let c ← s.queue.recv
  return { s with queue := c, wrote := s.wrote ++ [.own i (own f)] }

def end_ (s : Life) (e : Ending) : Life :=
  { s with
    queue := s.queue.close.drop
    course := .ended e (s.now + closeWait) e.begin
    wrote := if e = .peerClosed then s.wrote ++ [.reply] else s.wrote }

def step (hooked : Bool) (s : Life) : LifeAct → Option Life
  | .writes op =>
      if op.closes || op.receives then none
      else (s.queue.step op).map fun c => { s with queue := c }
  | .takes => if s.course = .serving then s.take else none
  | .takesOther m =>
      if s.course = .serving then some { s with wrote := s.wrote ++ [.other m] } else none
  | .reads =>
      if s.course = .serving then
        some (if hooked then { s with heard := s.heard ++ [.onFrame] } else s)
      else none
  | .asksClose => some { s with closed := true }
  | .ends e =>
      if s.course = .serving ∧ (e = .closed → s.closed = true) then some (s.end_ e) else none
  | .hands ok => s.passes .handing fun e s =>
      if ok then some (.flushing, { s with wrote := s.wrote ++ [.close e.frame] })
      else some (e.sent, s)
  | .flushes => s.passes .flushing fun e s => some (e.sent, s)
  | .hears more => s.passes .draining fun _ s => some (if more then .draining else .leaving, s)
  | .timesOut =>
      match s.course with
      | .ended e due at_ =>
          if due ≤ s.now ∧ (at_ = .handing ∨ at_ = .flushing ∨ at_ = .draining) then
            some { s with course := .ended e due .leaving }
          else none
      | .serving => none
  | .tells => s.passes .leaving fun _ s =>
      some (.told, if hooked then { s with heard := s.heard ++ [.onClose] } else s)
  | .finishes => s.passes .told fun _ s => some (.gone, { s with closed := true })
  | .tick time => if s.now ≤ time then some { s with now := time } else none

def machine (hooked : Bool) (queue : Nat) : Machine Life LifeAct := ⟨new queue, step hooked⟩

/-- This side's own frames on the wire, by their sends. -/
def handed (s : Life) : List Nat := s.wrote.filterMap Handed.send?

end Life

/-- What has been handed last. -/
def Course.Wrote : Course → List Handed → Prop
  | .serving, last => last = []
  | .ended e _ .handing, last => last = [] ∧ e.last = [.close e.frame]
  | .ended e _ .flushing, last => last = e.last
  | .ended e _ _, last => last = [] ∨ last = e.last

/-- The hook has been told. -/
def Course.told : Course → Bool
  | .ended _ _ .told | .ended _ _ .gone => true
  | _ => false

namespace Life

/-- What every step keeps. -/
structure Keeps (hooked : Bool) (queue : Nat) (s : Life) : Prop where
  fits : s.queue.Fits
  capacity : s.queue.capacity = queue
  shut : s.queue.closed = true ↔ s.course ≠ .serving
  handed : s.handed = s.queue.taken
  same : ∀ i m, .own i m ∈ s.wrote → ∃ f, s.queue.value i = some f ∧ m = own f
  words : ∃ frames last, s.wrote = frames ++ last ∧ (∀ h ∈ frames, h.isFrame = true) ∧
    s.course.Wrote last
  heard : ∃ n, s.heard =
    List.replicate n .onFrame ++ if hooked && s.course.told then [.onClose] else []
  over_ : ∀ e due, s.course = .ended e due .gone → s.closed = true

section Steps

variable {hooked : Bool} {queue : Nat} {s t : Life}

theorem passes_some {at_ : Closing} {f : Ending → Life → Option (Closing × Life)}
    (passed : s.passes at_ f = some t) :
    ∃ e due next u, s.course = .ended e due at_ ∧ f e s = some (next, u) ∧
      t = { u with course := .ended e due next } := by
  unfold passes at passed
  split at passed
  · rename_i e due here course
    obtain ⟨rfl, mapped⟩ := Option.ite_none_right_eq_some.mp passed
    obtain ⟨⟨next, u⟩, went, rfl⟩ := Option.map_eq_some_iff.mp mapped
    exact ⟨e, due, next, u, course, went, rfl⟩
  · cases passed

theorem new_keeps : Keeps hooked queue (new queue) where
  fits := Mpsc.start_fits queue
  capacity := rfl
  shut := by simp [new, Mpsc.channel]
  handed := rfl
  same := nofun
  words := ⟨[], [], rfl, nofun, rfl⟩
  heard := ⟨0, by simp [new, Course.told]⟩
  over_ := nofun

theorem writes_keeps (keeps : Keeps hooked queue s) {op : Mpsc.Op Outbound} {c : Mpsc Outbound}
    (writer : (op.closes || op.receives) = false) (stepped : s.queue.step op = some c) :
    Keeps hooked queue { s with queue := c } := by
  obtain ⟨closes, receives⟩ := Bool.or_eq_false_iff.mp writer
  have shared := Mpsc.step_shared stepped
  rw [closes, receives, Bool.or_false] at shared
  simp only [Mpsc.shared, Bool.false_eq_true, if_false, List.append_nil, Prod.mk.injEq] at shared
  obtain ⟨capacity, closed, taken⟩ := shared
  refine ⟨Mpsc.step_fits keeps.fits stepped, capacity.trans keeps.capacity, ?_,
    keeps.handed.trans taken.symm, fun i m mem => ?_, keeps.words, keeps.heard, keeps.over_⟩
  · rw [closed]
    exact keeps.shut
  · obtain ⟨f, here, same⟩ := keeps.same i m mem
    exact ⟨f, Mpsc.step_value stepped i here, same⟩

/-- A frame handed while the socket serves. -/
theorem Keeps.words_frame (keeps : Keeps hooked queue s) (serving : s.course = .serving)
    {f : Handed} (frame : f.isFrame = true) :
    ∃ frames last, s.wrote ++ [f] = frames ++ last ∧ (∀ h ∈ frames, h.isFrame = true) ∧
      s.course.Wrote last := by
  obtain ⟨frames, last, wrote, each, none⟩ := keeps.words
  rw [serving] at none
  cases none
  refine ⟨frames ++ [f], [], by simp [wrote], fun h mem => ?_, by rw [serving]; rfl⟩
  rcases List.mem_append.mp mem with before | now
  · exact each h before
  · cases List.mem_singleton.mp now
    exact frame

theorem takes_some (took : s.take = some t) :
    ∃ i queue f c, s.queue.queue = i :: queue ∧ s.queue.value i = some f ∧
      s.queue.step .recv = some c ∧
      t = { s with queue := c, wrote := s.wrote ++ [.own i (own f)] } := by
  obtain ⟨i, front, took⟩ := Option.bind_eq_some_iff.mp took
  obtain ⟨f, value, took⟩ := Option.bind_eq_some_iff.mp took
  obtain ⟨c, received, took⟩ := Option.bind_eq_some_iff.mp took
  obtain ⟨queue, front⟩ := List.head?_eq_some_iff.mp front
  exact ⟨i, queue, f, c, front, value, received, (Option.some.inj took).symm⟩

theorem takes_keeps (keeps : Keeps hooked queue s) (serving : s.course = .serving)
    (took : s.take = some t) : Keeps hooked queue t := by
  obtain ⟨i, _, f, c, front, value, received, rfl⟩ := takes_some took
  have shared := Mpsc.step_shared received
  simp only [Mpsc.shared, Mpsc.Op.closes, Mpsc.Op.receives, Bool.or_false, if_true, front,
    Prod.mk.injEq, List.take_succ_cons, List.take_zero] at shared
  obtain ⟨capacity, closed, taken⟩ := shared
  refine ⟨Mpsc.step_fits keeps.fits received, capacity.trans keeps.capacity, ?_, ?_, ?_, ?_,
    keeps.heard, keeps.over_⟩
  · rw [closed]
    exact keeps.shut
  · rw [taken, ← keeps.handed]
    simp [Life.handed, Handed.send?]
  · intro j m mem
    rcases List.mem_append.mp mem with before | now
    · obtain ⟨g, here, same⟩ := keeps.same j m before
      exact ⟨g, Mpsc.step_value received j here, same⟩
    · cases List.mem_singleton.mp now
      exact ⟨f, Mpsc.step_value received i value, rfl⟩
  · exact keeps.words_frame serving rfl

theorem takesOther_keeps (keeps : Keeps hooked queue s) (serving : s.course = .serving)
    (m : Message) : Keeps hooked queue { s with wrote := s.wrote ++ [.other m] } := by
  refine ⟨keeps.fits, keeps.capacity, keeps.shut, ?_, fun i m' mem => ?_, ?_, keeps.heard,
    keeps.over_⟩
  · rw [← keeps.handed]
    simp [Life.handed, Handed.send?]
  · rcases List.mem_append.mp mem with before | now
    · exact keeps.same i m' before
    · cases List.mem_singleton.mp now
  · exact keeps.words_frame serving rfl

theorem reads_keeps (keeps : Keeps hooked queue s) (serving : s.course = .serving) :
    Keeps hooked queue (if hooked then { s with heard := s.heard ++ [.onFrame] } else s) := by
  cases hooked with
  | false => exact keeps
  | true =>
      refine ⟨keeps.fits, keeps.capacity, keeps.shut, keeps.handed, keeps.same, keeps.words, ?_,
        keeps.over_⟩
      obtain ⟨n, heard⟩ := keeps.heard
      rw [serving] at heard
      refine ⟨n + 1, ?_⟩
      simp [heard, serving, Course.told, List.replicate_succ']

theorem end_keeps (keeps : Keeps hooked queue s) (serving : s.course = .serving) (e : Ending) :
    Keeps hooked queue (s.end_ e) := by
  have shut := Mpsc.close_fits keeps.fits
  refine ⟨Mpsc.drop_fits shut, keeps.capacity, by simp [end_, Mpsc.drop], ?_, fun i m mem => ?_,
    ?_, ?_, ?_⟩
  · change _ = s.queue.taken
    rw [← keeps.handed]
    unfold Life.handed end_
    dsimp only
    split
    · simp [Handed.send?]
    · rfl
  · have before : .own i m ∈ s.wrote := by
      unfold end_ at mem
      dsimp only at mem
      split at mem
      · simpa using mem
      · exact mem
    obtain ⟨f, here, same⟩ := keeps.same i m before
    exact ⟨f, (Mpsc.drop_value s.queue.close i).trans here, same⟩
  · obtain ⟨frames, last, wrote, each, none⟩ := keeps.words
    rw [serving] at none
    cases none
    rw [List.append_nil] at wrote
    cases e with
    | peerClosed => exact ⟨frames, [.reply], by simp [end_, wrote], each, rfl⟩
    | lost => exact ⟨frames, [], by simp [end_, wrote], each, .inl rfl⟩
    | protocol | serverStopped | closed | silent | idle =>
        exact ⟨frames, [], by simp [end_, wrote], each, rfl, rfl⟩
  · obtain ⟨n, heard⟩ := keeps.heard
    rw [serving] at heard
    refine ⟨n, heard.trans ?_⟩
    cases e <;> rfl
  · intro e' due gone
    cases e <;> cases gone

/-- An end goes on: what it hands the socket and tells the hook. -/
theorem goes_keeps {e : Ending} {due : Nat} {at_ : Closing} (keeps : Keeps hooked queue s)
    (course : s.course = .ended e due at_) (next : Closing) (more : List Handed)
    (calls : List HookCall) (closed : Bool) (unframed : ∀ h ∈ more, h.send? = none)
    (wrote : ∀ last, Course.Wrote (.ended e due at_) last →
      Course.Wrote (.ended e due next) (last ++ more))
    (heard : (if hooked && Course.told (.ended e due at_) then [.onClose] else []) ++ calls =
      if hooked && Course.told (.ended e due next) then [.onClose] else [])
    (over_ : next = .gone → closed = true) :
    Keeps hooked queue { s with
      course := .ended e due next
      wrote := s.wrote ++ more
      heard := s.heard ++ calls
      closed := closed } := by
  refine ⟨keeps.fits, keeps.capacity, ?_, ?_, fun i m mem => ?_, ?_, ?_, ?_⟩
  · have shut := keeps.shut
    rw [course] at shut
    simpa using shut
  · rw [← keeps.handed]
    have none : more.filterMap Handed.send? = [] := List.filterMap_eq_nil_iff.mpr unframed
    simp [Life.handed, none]
  · rcases List.mem_append.mp mem with before | now
    · exact keeps.same i m before
    · cases unframed _ now
  · obtain ⟨frames, last, before, each, was⟩ := keeps.words
    rw [course] at was
    exact ⟨frames, last ++ more, by simp [before], each, wrote last was⟩
  · obtain ⟨n, before⟩ := keeps.heard
    rw [course] at before
    exact ⟨n, by rw [before, List.append_assoc, heard]⟩
  · intro e' due' gone
    cases gone
    exact over_ rfl

/-- An end goes on, with nothing handed or told. -/
theorem quiet_keeps {e : Ending} {due : Nat} {at_ : Closing} (keeps : Keeps hooked queue s)
    (course : s.course = .ended e due at_) (next : Closing)
    (wrote : ∀ last, Course.Wrote (.ended e due at_) last → Course.Wrote (.ended e due next) last)
    (untold : Course.told (.ended e due at_) = Course.told (.ended e due next))
    (going : next ≠ .gone) : Keeps hooked queue { s with course := .ended e due next } := by
  have goes := goes_keeps keeps course next [] [] s.closed nofun
    (fun last was => by simpa using wrote last was) (by simp [untold])
    (fun gone => absurd gone going)
  simpa using goes

theorem wrote_sent {e : Ending} {due : Nat} {last : List Handed} (was : last = [] ∨ last = e.last) :
    Course.Wrote (.ended e due e.sent) last := by
  cases e <;> exact was

theorem sent_untold (e : Ending) (due : Nat) : Course.told (.ended e due e.sent) = false := by
  cases e <;> rfl

theorem step_keeps {a : LifeAct} (keeps : Keeps hooked queue s)
    (stepped : s.step hooked a = some t) : Keeps hooked queue t := by
  cases a with
  | writes op =>
      obtain ⟨writer, stepped⟩ := Option.ite_none_left_eq_some.mp stepped
      obtain ⟨c, went, rfl⟩ := Option.map_eq_some_iff.mp stepped
      exact writes_keeps keeps (Bool.eq_false_iff.mpr writer) went
  | takes =>
      obtain ⟨serving, took⟩ := Option.ite_none_right_eq_some.mp stepped
      exact takes_keeps keeps serving took
  | takesOther m =>
      obtain ⟨serving, same⟩ := Option.ite_none_right_eq_some.mp stepped
      cases same
      exact takesOther_keeps keeps serving m
  | reads =>
      obtain ⟨serving, same⟩ := Option.ite_none_right_eq_some.mp stepped
      cases same
      exact reads_keeps keeps serving
  | asksClose =>
      cases stepped
      exact ⟨keeps.fits, keeps.capacity, keeps.shut, keeps.handed, keeps.same, keeps.words,
        keeps.heard, fun _ _ _ => rfl⟩
  | ends e =>
      obtain ⟨⟨serving, -⟩, same⟩ := Option.ite_none_right_eq_some.mp stepped
      cases same
      exact end_keeps keeps serving e
  | hands ok =>
      simp only [step] at stepped
      obtain ⟨e, due, next, u, course, went, rfl⟩ := passes_some stepped
      cases ok with
      | true =>
          cases went
          have goes := goes_keeps keeps course .flushing [.close e.frame] [] s.closed
            (by simp [Handed.send?])
            (fun last was => by simp [was.1, Course.Wrote, was.2]) (by simp [Course.told]) nofun
          simpa using goes
      | false =>
          cases went
          refine quiet_keeps keeps course e.sent (fun last was => wrote_sent (.inl was.1))
            (sent_untold e due).symm ?_
          cases e <;> nofun
  | flushes =>
      simp only [step] at stepped
      obtain ⟨e, due, next, u, course, went, rfl⟩ := passes_some stepped
      cases went
      refine quiet_keeps keeps course e.sent (fun last was => wrote_sent (.inr was))
        (sent_untold e due).symm ?_
      cases e <;> nofun
  | hears more =>
      simp only [step] at stepped
      obtain ⟨e, due, next, u, course, went, rfl⟩ := passes_some stepped
      cases went
      cases more with
      | true => exact quiet_keeps keeps course .draining (fun _ was => was) rfl nofun
      | false => exact quiet_keeps keeps course .leaving (fun _ was => was) rfl nofun
  | timesOut =>
      simp only [step] at stepped
      split at stepped
      · rename_i e due at_ course
        obtain ⟨⟨-, within⟩, same⟩ := Option.ite_none_right_eq_some.mp stepped
        cases same
        rcases within with rfl | rfl | rfl
        · exact quiet_keeps keeps course .leaving (fun _ was => .inl was.1) rfl nofun
        · exact quiet_keeps keeps course .leaving (fun _ was => .inr was) rfl nofun
        · exact quiet_keeps keeps course .leaving (fun _ was => was) rfl nofun
      · cases stepped
  | tells =>
      simp only [step] at stepped
      obtain ⟨e, due, next, u, course, went, rfl⟩ := passes_some stepped
      cases went
      have goes := goes_keeps keeps course .told [] (if hooked then [.onClose] else []) s.closed
        nofun (fun last was => (List.append_nil last).symm ▸ was) (by simp [Course.told]) nofun
      cases hooked <;> simpa using goes
  | finishes =>
      simp only [step] at stepped
      obtain ⟨e, due, next, u, course, went, rfl⟩ := passes_some stepped
      cases went
      have goes := goes_keeps keeps course .gone [] [] true nofun
        (fun last was => (List.append_nil last).symm ▸ was) (by simp [Course.told]) (fun _ => rfl)
      simpa using goes
  | tick time =>
      obtain ⟨-, same⟩ := Option.ite_none_right_eq_some.mp stepped
      cases same
      exact ⟨keeps.fits, keeps.capacity, keeps.shut, keeps.handed, keeps.same, keeps.words,
        keeps.heard, keeps.over_⟩

theorem run_keeps {as : List LifeAct} (ran : (machine hooked queue).run as = some s) :
    Keeps hooked queue s :=
  Machine.run_keeps (m := machine hooked queue) new_keeps
    (fun _ _ _ keeps stepped => step_keeps keeps stepped) ran

theorem takes_recv (hooked : Bool) (fits : s.queue.Fits) (serving : s.course = .serving)
    {c : Mpsc Outbound} (received : s.queue.step .recv = some c) :
    ∃ t, s.step hooked .takes = some t ∧ t.queue = c ∧ t.course = .serving := by
  cases front : s.queue.queue with
  | nil => simp [Mpsc.step, Mpsc.recv, front] at received
  | cons i queue =>
      have here := (fits.queued i).mp (by simp [front])
      obtain ⟨x, at_, -⟩ := Option.map_eq_some_iff.mp here
      have value : s.queue.value i = some x.value := by simp [Mpsc.value, at_]
      have received : s.queue.recv = some c := received
      refine ⟨{ s with queue := c, wrote := s.wrote ++ [.own i (own x.value)] }, ?_, rfl, serving⟩
      simp [step, serving, take, front, value, received]

/-- What a channel's operation is here. -/
def ofOp : Mpsc.Op Outbound → LifeAct
  | .recv => .takes
  | op => .writes op

/-- While the loop serves, woken writers and its takes bring every waiting frame to the socket. -/
theorem serves_all (keeps : Keeps hooked queue s) (some_ : 0 < queue)
    (serving : s.course = .serving) :
    ∃ (ops : List (Mpsc.Op Outbound)) (t : Life), (∀ op ∈ ops, op.runs = true) ∧
      (machine hooked queue).runFrom s (ops.map ofOp) = some t ∧
      ∀ i st, s.queue.stage i = some st → 0 < st.left → i ∈ t.handed := by
  have opened : s.queue.closed = false := by
    have shut := keeps.shut
    rw [serving] at shut
    simpa using shut
  obtain ⟨ops, c, each, ran, received⟩ :=
    Mpsc.drains keeps.fits opened (keeps.capacity ▸ some_) queue
  have simulates : ∀ (u : Life) (op : Mpsc.Op Outbound) (c : Mpsc Outbound),
      Keeps hooked queue u ∧ u.course = .serving → op.runs = true →
      (Mpsc.machine Outbound queue).step u.queue op = some c →
      ∃ v, (machine hooked queue).step u (ofOp op) = some v ∧ v.queue = c ∧
        Keeps hooked queue v ∧ v.course = .serving := by
    rintro u op c ⟨kept, going⟩ runs stepped
    cases op with
    | recv =>
        obtain ⟨v, took, same, still⟩ := takes_recv hooked kept.fits going stepped
        exact ⟨v, took, same, step_keeps kept took, still⟩
    | complete i =>
        have went : u.step hooked (.writes (.complete i)) = some { u with queue := c } := by
          simp only [step, Mpsc.Op.closes, Mpsc.Op.receives, Bool.or_false, Bool.false_eq_true,
            if_false]
          rw [show u.queue.step (.complete i) = some c from stepped]
          rfl
        exact ⟨_, went, rfl, step_keeps kept went, going⟩
    | trySend _ | send _ | cancel _ | close | drop => cases runs
  obtain ⟨t, ran', rfl, kept, -⟩ := Machine.runFrom_simulates simulates each ran ⟨keeps, serving⟩
  refine ⟨ops, t, each, ran', fun i st here pending => ?_⟩
  rw [kept.handed, kept.fits.received, received i st here, Mpsc.Stage.last, if_pos pending]

/-- Once the loop has ended, only writers come to the queue. -/
theorem step_queue (ended : s.course ≠ .serving) {a : LifeAct} (stepped : s.step hooked a = some t) :
    t.queue = s.queue ∨
      ∃ op, (op.closes || op.receives) = false ∧ s.queue.step op = some t.queue := by
  cases a with
  | writes op =>
      obtain ⟨writer, stepped⟩ := Option.ite_none_left_eq_some.mp stepped
      obtain ⟨c, went, rfl⟩ := Option.map_eq_some_iff.mp stepped
      exact .inr ⟨op, Bool.eq_false_iff.mpr writer, went⟩
  | takes => exact absurd (Option.ite_none_right_eq_some.mp stepped).1 ended
  | takesOther m => exact absurd (Option.ite_none_right_eq_some.mp stepped).1 ended
  | reads => exact absurd (Option.ite_none_right_eq_some.mp stepped).1 ended
  | ends e => exact absurd (Option.ite_none_right_eq_some.mp stepped).1.1 ended
  | asksClose =>
      cases stepped
      exact .inl rfl
  | hands ok =>
      simp only [step] at stepped
      obtain ⟨e, due, next, u, -, went, rfl⟩ := passes_some stepped
      cases ok <;> (cases went; exact .inl rfl)
  | flushes | hears more | finishes =>
      simp only [step] at stepped
      obtain ⟨e, due, next, u, -, went, rfl⟩ := passes_some stepped
      cases went
      exact .inl rfl
  | tells =>
      simp only [step] at stepped
      obtain ⟨e, due, next, u, -, went, rfl⟩ := passes_some stepped
      cases went
      cases hooked <;> exact .inl rfl
  | timesOut =>
      simp only [step] at stepped
      split at stepped
      · obtain ⟨-, same⟩ := Option.ite_none_right_eq_some.mp stepped
        cases same
        exact .inl rfl
      · cases stepped
  | tick time =>
      obtain ⟨-, same⟩ := Option.ite_none_right_eq_some.mp stepped
      cases same
      exact .inl rfl

/-- After the end no frame is accepted, and none of this side's handed. -/
theorem step_ended (keeps : Keeps hooked queue s) (ended : s.course ≠ .serving) {a : LifeAct}
    (stepped : s.step hooked a = some t) : t.queue.put = s.queue.put ∧ t.handed = s.handed := by
  have shut := keeps.shut.mpr ended
  rw [keeps.handed, (step_keeps keeps stepped).handed]
  obtain same | ⟨op, writer, went⟩ := step_queue ended stepped
  · rw [same]
    exact ⟨rfl, rfl⟩
  · obtain ⟨-, receives⟩ := Bool.or_eq_false_iff.mp writer
    have shared := Mpsc.step_shared went
    rw [receives] at shared
    refine ⟨Mpsc.step_put shut went, ?_⟩
    simpa [Mpsc.shared] using congrArg (·.2.2) shared

/-- What is so of a socket whatever its writers, its loop, its peer and time do. `order` to
    `same`: the frames accepted are handed in order, once each and as they are. `bound` to
    `kept`: a send waits for room alone, none overtakes it, and a frame is given back or lost
    only by the end. `isClosed` to `ended`: then the writers are closed, a send that waits is
    told so, and no other is accepted. `serves`: till then each can be handed. `words` and
    `heard`: after its frames a socket says at most what its end has to, and the hook hears of
    that last, once. -/
structure Said (hooked : Bool) (queue : Nat) (s : Life) : Prop where
  order : s.handed <+: s.queue.put
  once : s.queue.put.Nodup
  each : ∀ i, i ∈ s.handed ↔ s.queue.stage i = some .received
  same : ∀ i m, .own i m ∈ s.wrote → ∃ f, s.queue.value i = some f ∧ m = own f
  bound : s.queue.queue.length ≤ queue
  waits : s.course = .serving → ∀ i, s.queue.stage i = some .waiting → s.queue.used = queue
  turn : s.course = .serving → ∀ i j st, i < j → s.queue.stage i = some .waiting →
    s.queue.stage j = some st → st = .waiting ∨ st = .full ∨ st = .cancelled
  kept : s.course = .serving → s.queue.put = s.handed ++ s.queue.queue ∧
    ∀ i, s.queue.stage i ≠ some .lost ∧ s.queue.stage i ≠ some .dropped
  isClosed : s.queue.closed = true ↔ s.course ≠ .serving
  learns : s.course ≠ .serving → ∀ i, s.queue.stage i = some .waiting ∨
      s.queue.stage i = some .granted →
    ∃ t, s.step hooked (.writes (.complete i)) = some t ∧ t.queue.stage i = some .lost
  ended : s.course ≠ .serving → ∀ a t, s.step hooked a = some t →
    t.queue.put = s.queue.put ∧ t.handed = s.handed
  serves : s.course = .serving → ∃ (ops : List (Mpsc.Op Outbound)) (t : Life),
    (∀ op ∈ ops, op.runs = true) ∧ (machine hooked queue).runFrom s (ops.map ofOp) = some t ∧
      ∀ i st, s.queue.stage i = some st → 0 < st.left → i ∈ t.handed
  words : ∃ frames last, s.wrote = frames ++ last ∧ (∀ h ∈ frames, h.isFrame = true) ∧
    (s.course = .serving → last = []) ∧
    ∀ e due at_, s.course = .ended e due at_ → last = [] ∨ last = e.last
  heard : ∃ n, s.heard =
    List.replicate n .onFrame ++ if hooked && s.course.told then [.onClose] else []
  over_ : ∀ e due, s.course = .ended e due .gone → s.closed = true

theorem wrote_last {c : Course} {last : List Handed} (wrote : c.Wrote last) :
    (c = .serving → last = []) ∧ ∀ e due at_, c = .ended e due at_ → last = [] ∨ last = e.last := by
  constructor
  · rintro rfl
    exact wrote
  · rintro e due at_ rfl
    cases at_ with
    | handing => exact .inl wrote.1
    | flushing => exact .inr wrote
    | draining | leaving | told | gone => exact wrote

theorem Keeps.said (keeps : Keeps hooked queue s) (some_ : 0 < queue) : Said hooked queue s := by
  have opened : s.course = .serving → s.queue.closed = false := by
    intro serving
    have shut := keeps.shut
    rw [serving] at shut
    simpa using shut
  obtain ⟨gone, order, dropped⟩ := keeps.fits.order
  refine ⟨?_, keeps.fits.once, fun i => ?_, keeps.same, keeps.capacity ▸ keeps.fits.queue_le,
    fun serving i waits => ?_, fun serving => keeps.fits.fifo (opened serving),
    fun serving => ⟨?_, ?_⟩, keeps.shut, fun ended i waits => ?_,
    fun ended _ _ => step_ended keeps ended, serves_all keeps some_, ?_, keeps.heard, keeps.over_⟩
  · rw [keeps.handed, order, List.append_assoc]
    exact List.prefix_append _ _
  · rw [keeps.handed, keeps.fits.received]
  · rw [← keeps.capacity]
    exact keeps.fits.full (opened serving) i waits
  · have none : gone = [] := List.eq_nil_iff_forall_not_mem.mpr fun i mem =>
      (keeps.fits.opened (opened serving) i).2 ((dropped i).mp mem)
    rw [order, none, List.append_nil, keeps.handed]
  · exact keeps.fits.opened (opened serving)
  · have shut := keeps.shut.mpr ended
    refine ⟨{ s with queue := s.queue.move i .lost }, ?_, ?_⟩
    · rcases waits with here | here <;>
        simp [step, Mpsc.Op.closes, Mpsc.Op.receives, Mpsc.step, Mpsc.complete, here, shut]
    · rcases waits with here | here <;> simp [Mpsc.move_stage here]
  · obtain ⟨frames, last, wrote, each, was⟩ := keeps.words
    exact ⟨frames, last, wrote, each, wrote_last was⟩

/-- In every run of writers, a loop, a peer and time. -/
theorem life_said (hooked : Bool) (queue : Nat) (some_ : 0 < queue) (as : List LifeAct) (s : Life)
    (ran : (machine hooked queue).run as = some s) : Said hooked queue s :=
  (run_keeps ran).said some_

/-- A frame, and the server's close. -/
def farewell : List LifeAct :=
  [.writes (.trySend (.text [])), .takes, .asksClose, .ends .closed, .hands true, .flushes,
    .hears false, .tells, .finishes]

theorem life_said_farewell : ∃ s, (machine true 1).run farewell = some s ∧ Said true 1 s ∧
    s.wrote = [.own 0 (.text []), .close (some ⟨.normal, "closed"⟩)] :=
  ⟨_, rfl, life_said true 1 Nat.one_pos farewell _ rfl, rfl⟩

end Steps

end Life

end PlexusTransport.Ws.Conn
