import PlexusTransport.Ws.Conn.Batch
import PlexusTransport.Ws.Conn.Parked

/-! # What a peer that reads nothing leaves behind

A call read and not answered is in one of four places: its answer waits in `out` or on
the method table's queue, its task runs, or its acceptance is awaited. How many wait in
`out` is all that stops the reading.
-/

namespace PlexusTransport.Ws.Conn

namespace Served

/-- The calls whose answers wait in `out`. -/
def outCalls (c : Served) : Nat :=
  (c.asked.drop (c.asked.length - (c.out.filter (· ≠ .ping)).length)).count true

/-- How many frames have been sent on the method table's queue. -/
def sent (c : Served) : Nat := (c.log.filterMap Arrival.table?).length

/-- The calls answered by the frames that wait on that queue, the last it was sent. -/
def tableCalls (answering : Nat → Nat) (c : Served) : Nat :=
  (((List.range c.sent).drop (c.sent - c.table.length)).map answering).sum

/-- The calls read whose answers are not written; `answering`: how many the frames sent on
    the method table's queue answer, each in its turn. -/
def unanswered (answering : Nat → Nat) (c : Served) : Nat :=
  c.outCalls + c.tableCalls answering + c.running.sum + c.accepting.length

end Served

/-- The calls an unread socket may keep waiting while no more than `tasks` run. -/
def backlog (limits : SocketLimits) (tasks : Nat) : Nat :=
  outHigh + maxSubscriptions + limits.queue * max 1 limits.maxMessageSize +
    tasks * limits.maxMessageSize

/-- What JSON's reader is relied on for: every value of an array takes a byte. -/
def Short (parse : Bytes → Option Json) : Prop :=
  ∀ data items, parse data = some (.arr items) → items.length ≤ data.length

section Laws

variable {σ : Type} (limits : SocketLimits) (texts : Texts)

/-- A frame sent on the method table's queue answers a subscription, or what a task that
    runs is to answer. -/
def Tells (answering : Nat → Nat) (c : Served) (a : Act σ) : Prop :=
  ∀ c' ∈ c.step limits texts a, ∀ k, k < c'.sent → c.sent ≤ k →
    answering k ≤ 1 ∨ ∃ n ∈ c.running, answering k ≤ n

instance (answering : Nat → Nat) (c : Served) (a : Act σ) :
    Decidable (Tells limits texts answering c a) :=
  inferInstanceAs (Decidable (∀ c' ∈ c.step limits texts a, ∀ k, k < c'.sent → c.sent ≤ k →
    answering k ≤ 1 ∨ ∃ n ∈ c.running, answering k ≤ n))

/-- A call of an async method, or a batch. -/
def Reading.startsTask (x : Reading σ) (free : Nat) : Bool :=
  match x.read with
  | .message m =>
      match x.router.begin free m x.server with
      | .ok (.task _) => true
      | _ => false
  | _ => false

/-- A message that starts a task is read only while fewer than this many run. -/
def Few (tasks : Nat) (c : Served) : Act σ → Prop
  | .read x => c.reads < readBudget → c.out.length < outHigh → x.startsTask c.free = true →
      c.running.length < tasks
  | _ => True

instance (tasks : Nat) (c : Served) (a : Act σ) : Decidable (Few tasks c a) :=
  match a with
  | .read x => inferInstanceAs (Decidable (c.reads < readBudget → c.out.length < outHigh →
      x.startsTask c.free = true → c.running.length < tasks))
  | .happen _ | .wake _ | .accept | .write _ _ => inferInstanceAs (Decidable True)

end Laws

section Begun

variable {σ : Type} {r : Router σ} {free : Nat} {s : σ} {called : Bool} {ws : List Written}
  {calls : Nat}

theorem respond_length (rp : MethodResponse) : (respond rp).length ≤ 1 := by
  unfold respond
  split
  · exact le_rfl
  · exact Nat.zero_le 1

/-- What a message begins: an answer at most, a subscription with a permit, or the calls of
    a task, each of which took a byte. -/
def Begun.Small (free len : Nat) : Begun → Prop
  | .answers _ ws => ws.length ≤ 1
  | .accepting => 0 < free
  | .task calls => calls ≤ len

theorem begin_call_small (d : Dispatch σ) (req : Request) {len : Nat} (some : 1 ≤ len) :
    (d.begin free req s).Small free len := by
  unfold Dispatch.begin
  cases call : Loop.call d (permit free s) req s with
  | refused rp s' | returned kind rp s' => exact respond_length rp
  | spawned fut => exact some
  | accepting fut =>
      have permitted : 0 < free := by simpa [permit] using accepting_permit call
      exact permitted

theorem begin_single_small (r : Router σ) (data : Bytes) {len : Nat} (some : 1 ≤ len) :
    (r.beginSingle free data s).Small free len := by
  unfold Router.beginSingle
  split
  · exact begin_call_small _ _ some
  · split
    · exact Nat.zero_le 1
    · split
      · exact Nat.zero_le 1
      · exact respond_length _

theorem batchCalls_le {parse : Bytes → Option Json} (short : Short parse) (data : Bytes) :
    batchCalls (parse data) ≤ data.length := by
  unfold batchCalls
  split
  · rename_i items array
    exact List.countP_le_length.trans (short data items array)
  · exact Nat.zero_le _

theorem begin_byShape_small (short : Short r.parse) (binary : Bool) (data : Bytes) :
    (r.beginByShape free binary data s).Small free data.length := by
  unfold Router.beginByShape
  dsimp only
  split
  · exact Nat.zero_le 1
  · cases first : (data.take 128).findIdx? fun b => !isAsciiWhitespace b with
    | none =>
        simp only [Option.map_none, Option.bind_none]
        split <;> exact respond_length _
    | some i =>
        have within : (data.drop i).length ≤ data.length := by simp
        simp only [Option.map_some, Option.bind_some, Option.getD_some]
        split
        · rename_i brace
          apply begin_single_small
          cases rest : data.drop i with
          | nil => simp [rest] at brace
          | cons b bs =>
              rw [rest, List.length_cons] at within
              omega
        · exact (batchCalls_le short _).trans within
        · split <;> exact respond_length _

theorem begin_small (short : Short r.parse) {m : Inbound} {b : Begun}
    (begun : r.begin free m s = .ok b) : b.Small free (Read.message m).len := by
  cases m with
  | text t =>
      simp only [Router.begin, Except.ok.injEq] at begun
      subst begun
      split
      · exact Nat.zero_le 1
      · exact begin_byShape_small short false t
  | binary data =>
      simp only [Router.begin] at begun
      split at begun
      · cases begun
        exact Nat.zero_le 1
      · split at begun
        · split at begun
          · cases begun
            exact respond_length _
          · cases begun
            exact Nat.zero_le 1
        · cases begun
          exact begin_byShape_small short true data
  | ping | pong | frame =>
      cases begun
      exact Nat.zero_le 1
  | close => cases begun

end Begun

section Out

variable {texts : Texts} {c c' : Served}

theorem respond_queues (texts : Texts) (called : Bool) (ws : List Written) (c : Served) :
    (c.respond texts called ws).table = c.table ∧ (c.respond texts called ws).sent = c.sent := by
  unfold Served.respond
  dsimp only
  induction ws generalizing c with
  | nil => exact ⟨rfl, rfl⟩
  | cons answer ws ih =>
      exact ih { c with toWriter := c.toWriter.respond (texts.encode answer.json) }

theorem foldl_respond_out (texts : Texts) (ws : List Written) (w : Writer) :
    (ws.foldl (fun w answer => w.respond (texts.encode answer.json)) w).out =
      w.out ++ ws.map fun answer => text (texts.encode answer.json) := by
  induction ws generalizing w with
  | nil => simp
  | cons answer ws ih =>
      rw [List.foldl_cons, ih, List.map_cons]
      simp [Writer.respond]

/-- Answers made are calls answered only if they are said to be. -/
theorem respond_outCalls (texts : Texts) (called : Bool) (ws : List Written) (c : Served) :
    (c.respond texts called ws).outCalls = c.outCalls + if called then ws.length else 0 := by
  have waiting : ((c.respond texts called ws).out.filter (· ≠ .ping)).length =
      (c.out.filter (· ≠ .ping)).length + ws.length := by
    rw [Served.respond, foldl_respond_out, List.filter_append, List.length_append]
    congr 1
    rw [List.filter_eq_self.mpr, List.length_map]
    intro m mem
    obtain ⟨answer, -, rfl⟩ := List.mem_map.mp mem
    rfl
  have asked : (c.respond texts called ws).asked = c.asked ++ List.replicate ws.length called := by
    rw [Served.respond, List.map_const']
  rw [Served.outCalls, waiting, asked, List.length_append, List.length_replicate,
    Nat.add_sub_add_right, List.drop_append_of_le_length (Nat.sub_le _ _), List.count_append,
    List.count_replicate]
  cases called <;> rfl

theorem outCalls_le (c : Served) : c.outCalls ≤ c.out.length := by
  have waiting := List.length_filter_le (· ≠ .ping) c.out
  refine List.count_le_length.trans ?_
  rw [List.length_drop]
  omega

theorem outCalls_suffix (asked : c'.asked = c.asked) (out : c'.out <:+ c.out) :
    c'.outCalls ≤ c.outCalls := by
  have fewer := (out.filter (· ≠ .ping)).length_le
  rw [Served.outCalls, Served.outCalls, asked]
  apply List.Sublist.count_le
  exact List.drop_sublist_drop_left _ (by omega)

theorem gather_out (passes : List Pass) (moved : Bool) (w : Writer) :
    (w.gather passes moved).2.out <:+ w.out := by
  have gathered := w.gathers passes moved
  generalize w.gather passes moved = p at gathered ⊢
  induction gathered with
  | done | full | failed | pending => exact List.suffix_rfl
  | @nothing pass _ _ w _ under ready next | @lost pass _ _ w _ _ under ready next =>
      have out := w.nextOut_out pass.gaps
      rw [next] at out
      exact out ▸ List.tail_suffix w.out
  | @taken pass _ _ w _ _ _ under ready next takes later ih =>
      have out := w.nextOut_out pass.gaps
      rw [next] at out
      exact ih.trans (out ▸ List.tail_suffix w.out)

theorem pollWrite_out (passes : List Pass) (flush : Polled) (w : Writer) :
    (w.pollWrite passes flush).2.out <:+ w.out := by
  have out := gather_out passes false w
  have settled := w.settles passes flush
  generalize w.gather passes false = p, w.pollWrite passes flush = p' at out settled ⊢
  cases settled <;> exact out

end Out

/-- Where the unanswered calls are, place by place. -/
structure Bounded (limits : SocketLimits) (answering : Nat → Nat) (tasks : Nat) (c : Served) :
    Prop where
  out : c.outCalls + c.accepting.length ≤ outHigh + maxSubscriptions
  room : c.phase = .reading → c.accepting.length ≤ maxSubscriptions
  permits : c.free + c.awaited ≤ maxSubscriptions
  table : c.table.length ≤ limits.queue
  sent : ∀ k < c.sent, answering k ≤ max 1 limits.maxMessageSize
  few : c.running.length ≤ tasks
  running : ∀ n ∈ c.running, n ≤ limits.maxMessageSize

namespace Served

variable {σ : Type} {limits : SocketLimits} {texts : Texts} {answering : Nat → Nat} {tasks : Nat}
  {c c' : Served}

theorem filterMap_isNone {α β : Type} (f : α → Option β) (l : List α) :
    (l.filterMap f).length + (l.filter fun a => (f a).isNone).length = l.length := by
  induction l with
  | nil => rfl
  | cons a l ih => cases first : f a <;> simp [first] <;> omega

theorem flatMap_respond_length (rps : List MethodResponse) :
    (rps.flatMap Conn.respond).length ≤ rps.length := by
  induction rps with
  | nil => exact le_rfl
  | cons rp rps ih =>
      have one := respond_length rp
      rw [List.flatMap_cons, List.length_append, List.length_cons]
      omega

/-- What the places hold is within the bound. -/
theorem unanswered_le (bounded : Bounded limits answering tasks c) :
    c.unanswered answering ≤ backlog limits tasks := by
  have queued : c.tableCalls answering ≤ limits.queue * max 1 limits.maxMessageSize := by
    have each : ∀ n ∈ (((List.range c.sent).drop (c.sent - c.table.length)).map answering),
        n ≤ max 1 limits.maxMessageSize := by
      intro n mem
      obtain ⟨k, drawn, rfl⟩ := List.mem_map.mp mem
      exact bounded.sent k (List.mem_range.mp (List.mem_of_mem_drop drawn))
    have sum := List.sum_le_card_nsmul _ _ each
    have few : ((List.range c.sent).drop (c.sent - c.table.length)).length ≤ limits.queue := by
      have table := bounded.table
      rw [List.length_drop, List.length_range]
      omega
    rw [List.length_map, smul_eq_mul] at sum
    exact sum.trans (Nat.mul_le_mul_right _ few)
  have working : c.running.sum ≤ tasks * limits.maxMessageSize := by
    have sum := List.sum_le_card_nsmul _ _ bounded.running
    rw [smul_eq_mul] at sum
    exact sum.trans (Nat.mul_le_mul_right _ bounded.few)
  have out := bounded.out
  unfold unanswered backlog
  omega

/-- The places that neither a send nor a hand changes. -/
def inner (c : Served) : List Acceptance × Nat × List Nat := (c.accepting, c.free, c.running)

/-- A step that begins nothing and answers nothing. -/
theorem bounded_still (bounded : Bounded limits answering tasks c)
    (calls : c'.outCalls ≤ c.outCalls) (room : c'.phase = .reading → c.phase = .reading)
    (inner : c'.inner = c.inner) (table : c'.table.length ≤ limits.queue)
    (sent : ∀ k < c'.sent, answering k ≤ max 1 limits.maxMessageSize) :
    Bounded limits answering tasks c' := by
  obtain ⟨accepting, free, running⟩ : c'.accepting = c.accepting ∧ c'.free = c.free ∧
      c'.running = c.running := by simpa [Served.inner] using inner
  have awaited : c'.awaited = c.awaited := by rw [Served.awaited, accepting, Served.awaited]
  have out := bounded.out
  refine ⟨?_, ?_, ?_, table, sent, ?_, ?_⟩
  · rw [accepting]
    omega
  · rw [accepting]
    exact fun phase => bounded.room (room phase)
  · rw [free, awaited]
    exact bounded.permits
  · rw [running]
    exact bounded.few
  · rw [running]
    exact bounded.running

/-- What a step sends on the method table's queue answers no more than a message calls. -/
theorem sent_step {a : Act σ} (bounded : Bounded limits answering tasks c)
    (tells : Tells limits texts answering c a) (stepped : c.step limits texts a = some c') :
    ∀ k < c'.sent, answering k ≤ max 1 limits.maxMessageSize := by
  intro k before
  rcases Nat.lt_or_ge k c.sent with old | new
  · exact bounded.sent k old
  · rcases tells c' stepped k before new with one | ⟨n, mem, within⟩
    · omega
    · have task := bounded.running n mem
      omega

theorem bounded_happen {h : Happening} (bounded : Bounded limits answering tasks c)
    (sent : ∀ k < c'.sent, answering k ≤ max 1 limits.maxMessageSize)
    (happened : c.happen limits h = some c') : Bounded limits answering tasks c' := by
  cases h with
  | arrive a =>
      simp only [happen, Option.ite_none_right_eq_some, Option.some.injEq] at happened
      obtain ⟨fits, rfl⟩ := happened
      have out : (c.arrive a).out = c.out := congrArg Prod.fst (Writer.arrive_rest _ a)
      refine bounded_still bounded ?_ id rfl fits.1 sent
      exact outCalls_suffix rfl (out ▸ List.suffix_rfl)
  | resolve name rp =>
      cases happened
      have fewer : List.countP (·.got.isNone) (c.accepting.map fun a =>
          if a.name = name ∧ a.got = none then { a with got := some rp } else a) ≤ c.awaited := by
        rw [List.countP_map]
        apply List.countP_mono_left
        intro a _ none
        dsimp only [Function.comp_apply] at none
        split at none
        · cases none
        · exact none
      have permits := bounded.permits
      refine { bounded with out := ?_, room := ?_, permits := ?_ }
      · rw [List.length_map]
        exact bounded.out
      · rw [List.length_map]
        exact bounded.room
      · exact (Nat.add_le_add_left fewer _).trans permits
  | permitTaken =>
      simp only [happen, Option.ite_none_right_eq_some, Option.some.injEq] at happened
      obtain ⟨-, rfl⟩ := happened
      have permits := bounded.permits
      refine { bounded with permits := ?_ }
      exact (Nat.add_le_add_right (Nat.sub_le _ _) _).trans permits
  | permitBack =>
      simp only [happen, Option.ite_none_right_eq_some, Option.some.injEq] at happened
      obtain ⟨free, rfl⟩ := happened
      refine { bounded with permits := ?_ }
      change c.free + 1 + c.awaited ≤ _
      omega
  | finish i =>
      simp only [happen, Option.ite_none_right_eq_some, Option.some.injEq] at happened
      obtain ⟨-, rfl⟩ := happened
      refine { bounded with few := ?_, running := ?_ }
      · exact (List.eraseIdx_sublist _ _).length_le.trans bounded.few
      · exact fun n mem => bounded.running n ((List.eraseIdx_sublist _ _).subset mem)
  | frame time =>
      simp only [happen, Option.ite_none_right_eq_some, Option.some.injEq] at happened
      obtain ⟨-, rfl⟩ := happened
      exact { bounded with }

/-- What a wakeup finds before the loop. -/
theorem wake_places (limits : SocketLimits) (w : Wakeup) (c : Served) :
    (c.wake limits w).inner = c.inner ∧ (c.wake limits w).asked = c.asked ∧
      ((c.wake limits w).toWriter = c.toWriter ∨ (c.wake limits w).toWriter = c.pushPing) ∧
        (c.wake limits w).phase ≠ .reading := by
  have woke := wakes limits w c
  generalize c.wake limits w = d at woke ⊢
  cases woke with
  | stopped | closed | silent | idles => exact ⟨rfl, rfl, .inl rfl, by simp⟩
  | goes kept =>
      refine ⟨rfl, rfl, ?_, by simp⟩
      cases w.ping with
      | true => exact .inr rfl
      | false => exact .inl rfl

theorem bounded_wake {w : Wakeup} (bounded : Bounded limits answering tasks c)
    (sent : ∀ k < (c.wake limits w).sent, answering k ≤ max 1 limits.maxMessageSize) :
    Bounded limits answering tasks (c.wake limits w) := by
  obtain ⟨inner, asked, writer, phase⟩ := wake_places limits w c
  have waiting : (c.wake limits w).out.filter (· ≠ .ping) = c.out.filter (· ≠ .ping) ∧
      (c.wake limits w).table = c.table := by
    rcases writer with writer | writer <;> rw [writer] <;> exact ⟨rfl, rfl⟩
  refine bounded_still bounded ?_ (fun reading => absurd reading phase) inner ?_ sent
  · rw [outCalls, asked, waiting.1]
    exact le_rfl
  · rw [waiting.2]
    exact bounded.table

/-- An acceptance that has resolved is answered, if it was refused. -/
theorem bounded_accept (bounded : Bounded limits answering tasks c)
    (sent : ∀ k < (c.pollAccepting texts).sent, answering k ≤ max 1 limits.maxMessageSize) :
    Bounded limits answering tasks { c.pollAccepting texts with phase := .reading } := by
  have out := bounded.out
  have permits := bounded.permits
  have resolved := flatMap_respond_length (c.accepting.filterMap (·.got))
  have parts := filterMap_isNone (·.got) c.accepting
  have calls := respond_outCalls texts true ((c.accepting.filterMap (·.got)).flatMap Conn.respond) c
  rw [if_pos rfl] at calls
  have awaiting : c.awaited = (c.accepting.filter (·.got.isNone)).length := List.countP_eq_length_filter
  refine ⟨?_, fun _ => ?_, ?_, ?_, sent, bounded.few, bounded.running⟩
  · change (c.respond texts true _).outCalls + (c.accepting.filter (·.got.isNone)).length ≤ _
    rw [calls]
    omega
  · change (c.accepting.filter (·.got.isNone)).length ≤ _
    omega
  · change c.free + (c.accepting.filter (·.got.isNone)).countP (·.got.isNone) ≤ _
    rw [List.countP_filter]
    simp only [Bool.and_self]
    exact permits
  · change (c.respond texts true _).table.length ≤ _
    rw [(respond_queues ..).1]
    exact bounded.table

/-- A message begins one thing. -/
theorem bounded_message {x : Reading σ} {m : Inbound} (bounded : Bounded limits answering tasks c)
    (room : c.accepting.length ≤ maxSubscriptions) (gate : c.out.length < outHigh)
    (short : Short x.router.parse) (within : (Read.message m).len ≤ limits.maxMessageSize)
    (few : ∀ calls, x.router.begin c.free m x.server = .ok (.task calls) → c.running.length < tasks)
    (messaged : c.message texts x m = .ok c') :
    Bounded limits answering tasks { c' with phase := .writing } := by
  have high := outCalls_le c
  have permits := bounded.permits
  cases Served.messaged texts messaged with
  | @answers called ws begun =>
      have one : ws.length ≤ 1 := begin_small short begun
      have calls := respond_outCalls texts called ws { c with
        lastIn := x.now, lastBusy := if called then x.now else c.lastBusy }
      have queues := respond_queues texts called ws { c with
        lastIn := x.now, lastBusy := if called then x.now else c.lastBusy }
      refine ⟨?_, nofun, permits, ?_, ?_, bounded.few, bounded.running⟩
      · change outCalls (Served.respond texts called ws _) + c.accepting.length ≤ _
        rw [calls]
        change c.outCalls + _ + _ ≤ _
        split <;> omega
      · exact queues.1 ▸ bounded.table
      · exact queues.2 ▸ bounded.sent
  | accepting begun =>
      have free : 0 < c.free := begin_small short begun
      refine ⟨?_, nofun, ?_, bounded.table, bounded.sent, bounded.few, bounded.running⟩
      · change c.outCalls + (c.accepting ++ [_]).length ≤ _
        rw [List.length_append, List.length_singleton]
        omega
      · change c.free - 1 + (c.accepting ++ [_]).countP _ ≤ _
        rw [List.countP_append]
        change c.free - 1 + (c.awaited + 1) ≤ _
        omega
  | @task calls begun =>
      have small : calls ≤ (Read.message m).len := begin_small short begun
      have started := few calls begun
      refine ⟨bounded.out, nofun, permits, bounded.table, bounded.sent, ?_, ?_⟩
      · change (c.running ++ [calls]).length ≤ _
        rw [List.length_append, List.length_singleton]
        omega
      · intro n mem
        rcases List.mem_append.mp mem with old | new
        · exact bounded.running n old
        · rw [List.mem_singleton.mp new]
          exact small.trans within

/-- The refusals of the messages dropped answer no call. -/
theorem bounded_drops (bounded : Bounded limits answering tasks { c with phase := .writing }) :
    Bounded limits answering tasks { c.answerDrops limits texts with phase := .writing } := by
  have queues := fun ws => respond_queues texts false ws c
  refine bounded_still bounded ?_ (fun _ => by contradiction) rfl ?_ ?_
  · exact (respond_outCalls texts false _ c).le
  · exact (queues _).1 ▸ bounded.table
  · exact (queues _).2 ▸ bounded.sent

/-- One message more is a call more at most, and that only while few answers wait. -/
theorem bounded_read {x : Reading σ} (bounded : Bounded limits answering tasks c)
    (phase : c.phase = .reading) (short : Short x.router.parse) (made : Made limits x c)
    (few : Few tasks c (.read x))
    (sent : ∀ k < (c.pollNext limits texts x).sent, answering k ≤ max 1 limits.maxMessageSize) :
    Bounded limits answering tasks (c.pollNext limits texts x) := by
  have room := bounded.room phase
  have polled := polls limits texts x c
  generalize c.pollNext limits texts x = d at polled sent ⊢
  cases polled with
  | stopped closed => exact bounded_still bounded le_rfl (by simp) rfl bounded.table sent
  | ends gate read messaged | failed gate read | gone gate read =>
      exact bounded_still bounded le_rfl (fun _ => phase) rfl bounded.table bounded.sent
  | takes gate read messaged =>
      have within := made.2.2
      rw [read] at within
      have begun := bounded_message (c := { c with
        clock := x.now, dropped := c.dropped + x.drops, reads := c.reads + 1, moved := true,
        withheld := c.withheld.diff x.made }) { bounded with } room gate.2
        short within (fun calls begun => few gate.1 gate.2
          (by simp only [Reading.startsTask, read, begun])) messaged
      exact bounded_drops begun
  | pending gate read =>
      have waiting : Bounded limits answering tasks { c with
          clock := x.now, dropped := c.dropped + x.drops, phase := .writing } :=
        bounded_still bounded le_rfl (fun _ => phase) rfl bounded.table bounded.sent
      exact { bounded_drops waiting with }

theorem bounded_write {passes : List Pass} {flush : Polled}
    (bounded : Bounded limits answering tasks c)
    (sent : ∀ k < c'.sent, answering k ≤ max 1 limits.maxMessageSize)
    (written : c.write limits passes flush = some c') :
    Bounded limits answering tasks c' := by
  have out := pollWrite_out passes flush c.toWriter
  cases writes limits written with
  | lost gone => exact bounded_still bounded le_rfl (by simp) rfl bounded.table bounded.sent
  | rests said wrote fits | shares said wrote fits | goes said wrote fits =>
      rw [wrote] at out
      exact bounded_still bounded (outCalls_suffix rfl out) (by simp) rfl fits.1 sent

theorem step_bounded {a : Act σ} (bounded : Bounded limits answering tasks c)
    (tells : Tells limits texts answering c a) (few : Few tasks c a)
    (short : ∀ x, a = .read x → Short x.router.parse)
    (stepped : c.step limits texts a = some c') : Bounded limits answering tasks c' := by
  have sent := sent_step bounded tells stepped
  cases steps limits texts stepped with
  | happen going happened => exact bounded_happen bounded sent happened
  | wake phase later => exact bounded_wake bounded sent
  | accept phase => exact bounded_accept bounded sent
  | read phase made => exact bounded_read bounded phase (short _ rfl) made few sent
  | write phase written => exact bounded_write bounded sent written

theorem run_bounded {now : Nat} {acts : List (Act σ)} (bounded : Bounded limits answering tasks c)
    (short : ∀ x, .read x ∈ acts → Short x.router.parse)
    (tells : (machine limits texts now).Allows (Tells limits texts answering) c acts)
    (few : (machine limits texts now).Allows (Few tasks) c acts)
    (ran : (machine limits texts now).runFrom c acts = some c') :
    Bounded limits answering tasks c' := by
  induction acts generalizing c with
  | nil =>
      cases ran
      exact bounded
  | cons a acts ih =>
      obtain ⟨u, stepped, ran⟩ := Option.bind_eq_some_iff.mp ran
      apply ih _ (fun x mem => short x (.tail _ mem)) (tells.2 u stepped) (few.2 u stepped) ran
      exact step_bounded bounded tells.1 few.1 (fun x same => short x (same ▸ .head _)) stepped

theorem new_bounded (limits : SocketLimits) (answering : Nat → Nat) (tasks now : Nat) :
    Bounded limits answering tasks (new limits now) :=
  ⟨Nat.zero_le _, nofun, le_rfl, Nat.zero_le _, nofun, Nat.zero_le _, nofun⟩

end Served

/-- While a message that starts a task is read only with few tasks running, the calls left
    unanswered are bounded by the connection's limits, whatever the socket takes. -/
theorem backlog_bounded {σ : Type} (limits : SocketLimits) (texts : Texts) (now : Nat)
    (answering : Nat → Nat) (tasks : Nat) (acts : List (Act σ)) (c : Served)
    (short : ∀ x, .read x ∈ acts → Short x.router.parse)
    (tells : (Served.machine limits texts now).Allows (Tells limits texts answering)
      (Served.new limits now) acts)
    (few : (Served.machine limits texts now).Allows (Few tasks) (Served.new limits now) acts)
    (ran : (Served.machine limits texts now).run acts = some c) :
    c.unanswered answering ≤ backlog limits tasks := by
  apply Served.unanswered_le
  exact Served.run_bounded (Served.new_bounded limits answering tasks now) short tells few ran

section Stuck

def roomy : SocketLimits := ⟨1024, none, 0, none, 4, 8⟩

/-- A loop with one async method that never answers. -/
def asking : Router Unit where
  dispatch := { bare.dispatch with methodWithName := fun _ => some (.async fun _ _ _ => none) }
  hook := none
  inputsIdle := true
  takeFrame := fun _ => false
  takeBinary := fun _ => .other
  parse := fun data => if data = callText then some callJson else none

def callRead : Reading Unit := ⟨0, asking, (), 0, [], .message (.text callText)⟩

/-- A wakeup that reads a call, with a socket that takes nothing. -/
def round : List (Act Unit) :=
  let full : Act Unit := .write [⟨.pending, fun _ => ⟨[], false⟩, true⟩] .pending
  [.wake ⟨0, false, false, false, false, false⟩, .accept] ++ [.read callRead] ++
    [full, .accept, .read ⟨0, asking, (), 0, [], .pending⟩, full]

abbrev deaf : Machine Served (Act Unit) := Served.machine roomy blank 0

theorem backlog_bounded_round :
    ∃ c, deaf.run round = some c ∧ c.unanswered (fun _ => 0) ≤ backlog roomy 1 := by
  refine ⟨_, rfl, backlog_bounded roomy blank 0 _ 1 round _ ?_ ?_ ?_ rfl⟩
  · intro x mem data items array
    have asked : x.router = asking := by
      simp only [round, List.mem_append, List.mem_cons, List.not_mem_nil] at mem
      simp [callRead] at mem
      rcases mem with rfl | rfl <;> rfl
    rw [asked, asking] at array
    dsimp only at array
    split at array <;> cases array
  · decide +kernel
  · decide +kernel

theorem asking_begin (free : Nat) : asking.begin free (.text callText) () = .ok (.task 1) := by
  have request : Request.ofJson callJson = some ⟨.number 5, "m", none⟩ := rfl
  have first : (callText.take 128).findIdx? (fun b => !isAsciiWhitespace b) = some 0 := by
    decide +kernel
  have brace : callText.head? = some 0x7b := by decide +kernel
  simp [Router.begin, Router.hooked, asking, Router.beginByShape, first, brace,
    Router.beginSingle, request, Dispatch.begin, Loop.call, Called.begun]

/-- Parked with these tasks running. -/
def stuck (running : List Nat) : Served :=
  { Served.new roomy 0 with
    running := running, reads := 1, woken := false, heard := [.read, .ready .pending] }

/-- The call is about to be read. -/
def stuckReading (running : List Nat) : Served :=
  { stuck running with reads := 0, phase := .reading, heard := [] }

theorem read_call (running : List Nat) :
    deaf.step (stuckReading running) (.read callRead) = some { stuckReading running with
      running := running ++ [1], reads := 1, phase := .writing, moved := true } := by
  have made : Served.Made roomy callRead (stuckReading running) :=
    ⟨le_rfl, nofun, by decide +kernel⟩
  have gate : (stuckReading running).reads < readBudget ∧
      (stuckReading running).out.length < outHigh := ⟨Nat.zero_lt_succ _, Nat.zero_lt_succ _⟩
  have stepped : deaf.step (stuckReading running) (.read callRead) =
      some ((stuckReading running).pollNext roomy blank callRead) :=
    (if_pos made : (if Served.Made roomy callRead (stuckReading running) then
      some ((stuckReading running).pollNext roomy blank callRead) else none) = _)
  rw [stepped, Option.some.injEq]
  unfold Served.pollNext Served.message
  rw [if_pos gate]
  simp only [callRead, asking_begin]
  rfl

/-- Every wakeup starts one task more. -/
theorem round_stuck {c : Served} {running : List Nat}
    (opened : deaf.runFrom c [.wake ⟨0, false, false, false, false, false⟩, .accept] =
      some (stuckReading running)) :
    deaf.runFrom c round = some (stuck (running ++ [1])) := by
  rw [round, Machine.runFrom_append, Machine.runFrom_append, opened, Option.bind_some,
    Machine.runFrom, read_call]
  rfl

/-- After so many rounds. -/
theorem rounds_stuck (n : Nat) :
    deaf.run (List.replicate (n + 1) round).flatten = some (stuck (List.replicate (n + 1) 1)) := by
  induction n with
  | zero =>
      have first : deaf.runFrom deaf.start round = some (stuck ([] ++ [1])) := round_stuck rfl
      exact first
  | succ n ih =>
      have ran : deaf.runFrom deaf.start _ = _ := ih
      have next : deaf.runFrom (stuck (List.replicate (n + 1) 1)) round =
          some (stuck (List.replicate (n + 1) 1 ++ [1])) := round_stuck rfl
      rw [List.replicate_succ', List.flatten_append, List.flatten_singleton, Machine.run,
        Machine.runFrom_append, ran, Option.bind_some, next, ← List.replicate_succ']

/-- With a socket that takes nothing from the start. -/
theorem backlog_unbounded :
    ¬∃ bound, ∀ (acts : List (Act Unit)) (c : Served), deaf.run acts = some c →
      (∀ passes flush, .write passes flush ∈ acts → flush = .pending ∧
        ∀ pass ∈ passes, pass.ready = .pending) →
      c.unanswered (fun _ => 0) ≤ bound := by
  rintro ⟨bound, bounded⟩
  have within := bounded _ _ (rounds_stuck bound) (by
    intro passes flush mem
    obtain ⟨acts, which, mem⟩ := List.mem_flatten.mp mem
    rw [List.eq_of_mem_replicate which] at mem
    have full : passes = [⟨.pending, fun _ => ⟨[], false⟩, true⟩] ∧ flush = .pending := by
      simpa [round] using mem
    simp [full])
  have tasks : (stuck (List.replicate (bound + 1) 1)).running.sum = bound + 1 := by simp [stuck]
  unfold Served.unanswered at within
  omega

end Stuck

end PlexusTransport.Ws.Conn
