import PlexusTransport.Ws.Conn.Writer

/-! # Order and no loss

What a queue was sent is what the socket was handed of it and what still
waits, in one order, and a fenced frame is behind every answer of the method
table that was sent before it.
-/

namespace PlexusTransport.Ws.Conn

def Taken.answer? : Taken → Option Message
  | .out m => if m = .ping then none else some m
  | _ => none

def Taken.table? : Taken → Option Bytes
  | .table raw => some raw
  | _ => none

def Taken.own? : Taken → Option Outbound
  | .own f => some f
  | _ => none

def Taken.frames? : Taken → Option Bytes
  | .frames bytes => some bytes
  | _ => none

def Arrival.table? : Arrival → Option Bytes
  | .table raw => some raw
  | _ => none

def Arrival.own? : Arrival → Option Outbound
  | .own f => some f
  | _ => none

def Arrival.frames? : Arrival → Option WireFrame
  | .frames f => some f
  | _ => none

/-- The fenced frame sent after `before` is handed after every answer in `before`. -/
def Fenced (log : List Arrival) (handed : List Taken) : Prop :=
  ∀ (before after : List Arrival) (f : WireFrame),
    log = before ++ .frames f :: after → f.fenced = true →
    ∀ (first rest : List Taken) (bytes : Bytes), handed = first ++ .frames bytes :: rest →
      (first.filterMap Taken.frames?).length = (before.filterMap Arrival.frames?).length →
        before.filterMap Arrival.table? <+: first.filterMap Taken.table?

/-- What each queue was sent is handed or waits, in order. -/
structure Kept (w : Writer) : Prop where
  answers : w.handed.filterMap Taken.answer? ++ w.out.filter (· ≠ .ping) = w.answered
  table : w.handed.filterMap Taken.table? ++ w.table = w.log.filterMap Arrival.table?
  own : w.handed.filterMap Taken.own? ++ w.own = w.log.filterMap Arrival.own?
  frames : ∃ gone, gone ++ w.frames = w.log.filterMap Arrival.frames? ∧
    w.handed.filterMap Taken.frames? ++ w.fenced.toList = gone.map (·.bytes)
  fence : Fenced w.log w.handed
  closed : w.ownOpen = false → w.ownGone = true ∧ w.own = []

/-- With this frame handed too. -/
def Writer.handing (w : Writer) (t : Option Taken) : Writer :=
  { w with handed := w.handed ++ t.toList }

section Fence

variable {log : List Arrival} {handed : List Taken}

theorem append_singleton_eq {α : Type} {l before after : List α} {x y : α}
    (same : l ++ [x] = before ++ y :: after) :
    (∃ short, after = short ++ [x] ∧ l = before ++ y :: short) ∨
      (after = [] ∧ x = y ∧ l = before) := by
  rcases List.eq_nil_or_concat' after with rfl | ⟨short, z, rfl⟩
  · obtain ⟨rfl, last⟩ := List.append_inj' same rfl
    cases last
    exact .inr ⟨rfl, rfl, rfl⟩
  · have shift : l ++ [x] = (before ++ y :: short) ++ [z] := by simpa using same
    obtain ⟨rfl, last⟩ := List.append_inj' shift rfl
    cases last
    exact .inl ⟨short, rfl, rfl⟩

/-- A send changes nothing that was handed: its own frame is not among it. -/
theorem Fenced.arrive (fence : Fenced log handed) (a : Arrival)
    (fewer : (handed.filterMap Taken.frames?).length ≤
      (log.filterMap Arrival.frames?).length) : Fenced (log ++ [a]) handed := by
  intro before after f same fenced first rest bytes split count
  rcases append_singleton_eq same with ⟨short, -, old⟩ | ⟨-, -, rfl⟩
  · exact fence before short f old fenced first rest bytes split count
  · rw [split, List.filterMap_append, List.length_append] at fewer
    simp only [List.filterMap_cons, Taken.frames?, List.length_cons] at fewer
    omega

theorem Fenced.hand_other (fence : Fenced log handed) {t : Taken} (other : t.frames? = none) :
    Fenced log (handed ++ [t]) := by
  intro before after f same fenced first rest bytes split count
  rcases append_singleton_eq split with ⟨short, -, old⟩ | ⟨-, frame, -⟩
  · exact fence before after f same fenced first short bytes old count
  · rw [frame] at other
    cases other

/-- The method table's queue is empty: every answer sent is handed. -/
theorem Fenced.hand_fenced (fence : Fenced log handed) (bytes : Bytes)
    (all : handed.filterMap Taken.table? = log.filterMap Arrival.table?) :
    Fenced log (handed ++ [.frames bytes]) := by
  intro before after f same fenced first rest bytes' split count
  rcases append_singleton_eq split with ⟨short, -, old⟩ | ⟨-, -, whole⟩
  · exact fence before after f same fenced first short bytes' old count
  · rw [← whole, all, same, List.filterMap_append]
    exact List.prefix_append _ _

/-- A frame that is not fenced is none of those that are. -/
theorem Fenced.hand_plain (fence : Fenced log handed) (bytes : Bytes)
    {gone rest : List WireFrame} {f : WireFrame} (plain : f.fenced = false)
    (sent : gone ++ f :: rest = log.filterMap Arrival.frames?)
    (count : (handed.filterMap Taken.frames?).length = gone.length) :
    Fenced log (handed ++ [.frames bytes]) := by
  intro before after f' same fenced first rest' bytes' split count'
  rcases append_singleton_eq split with ⟨short, -, old⟩ | ⟨-, -, whole⟩
  · exact fence before after f' same fenced first short bytes' old count'
  · rw [same, List.filterMap_append] at sent
    have position : gone.length = (before.filterMap Arrival.frames?).length := by
      rw [← count', ← whole, count]
    obtain ⟨-, heads⟩ := List.append_inj sent position
    simp only [List.filterMap_cons, Arrival.frames?, List.cons.injEq] at heads
    rw [heads.1, fenced] at plain
    cases plain

end Fence

namespace Kept

variable {w : Writer}

theorem fewer (kept : Kept w) : (w.handed.filterMap Taken.frames?).length ≤
    (w.log.filterMap Arrival.frames?).length := by
  obtain ⟨gone, sent, bytes⟩ := kept.frames
  have counts := congrArg List.length bytes
  rw [← sent]
  simp only [List.length_append, List.length_map] at counts ⊢
  omega

theorem arrive (kept : Kept w) (a : Arrival) : Kept (w.arrive a) := by
  obtain ⟨gone, sent, bytes⟩ := kept.frames
  have fence := kept.fence.arrive a kept.fewer
  cases a with
  | table raw =>
      refine ⟨kept.answers, ?_, ?_, ⟨gone, ?_, bytes⟩, fence, kept.closed⟩
      · simp [Writer.arrive, ← kept.table, Arrival.table?]
      · simp [Writer.arrive, kept.own, Arrival.own?]
      · simp [Writer.arrive, sent, Arrival.frames?]
  | own f =>
      simp only [Writer.arrive]
      split
      · exact kept
      · rename_i writers
        refine ⟨kept.answers, ?_, ?_, ⟨gone, ?_, bytes⟩, fence, ?_⟩
        · simp [kept.table, Arrival.table?]
        · simp [← kept.own, Arrival.own?]
        · simp [sent, Arrival.frames?]
        · exact fun shut => absurd (kept.closed shut).1 writers
  | frames f =>
      refine ⟨kept.answers, ?_, ?_, ⟨gone, ?_, bytes⟩, fence, kept.closed⟩
      · simp [Writer.arrive, kept.table, Arrival.table?]
      · simp [Writer.arrive, kept.own, Arrival.own?]
      · simp [Writer.arrive, ← sent, Arrival.frames?]
  | ownGone => exact { kept with closed := fun shut => ⟨rfl, (kept.closed shut).2⟩ }

theorem meanwhile (kept : Kept w) (gap : Gap) : Kept (w.meanwhile gap) :=
  Writer.meanwhile_keeps (I := Kept) (fun _ a kept => kept.arrive a) gap kept

theorem respond (kept : Kept w) (json : Bytes) : Kept (w.respond json) := by
  refine { kept with answers := ?_ }
  simp [Writer.respond, text, ← kept.answers]

theorem pushPing (kept : Kept w) : Kept w.pushPing := by
  refine { kept with answers := ?_ }
  simp [Writer.pushPing, ← kept.answers]

/-- A frame taken from a queue and handed leaves what was sent to it as it was. -/
theorem hand_out (kept : Kept w) {m : Message} {rest : List Message} (waits : w.out = m :: rest) :
    Kept ({ w with out := rest }.handing (some (.out m))) := by
  obtain ⟨gone, sent, bytes⟩ := kept.frames
  refine ⟨?_, ?_, ?_, ⟨gone, sent, ?_⟩, kept.fence.hand_other rfl, kept.closed⟩
  · have answers := kept.answers
    rw [waits] at answers
    cases m <;> simpa [Writer.handing, List.filterMap_cons, Taken.answer?] using answers
  · simpa [Writer.handing, List.filterMap_cons, Taken.table?] using kept.table
  · simpa [Writer.handing, List.filterMap_cons, Taken.own?] using kept.own
  · simpa [Writer.handing, List.filterMap_cons, Taken.frames?] using bytes

theorem hand_table (kept : Kept w) {raw : Bytes} {rest : List Bytes}
    (waits : w.table = raw :: rest) :
    Kept ({ w with table := rest }.handing (some (.table raw))) := by
  obtain ⟨gone, sent, bytes⟩ := kept.frames
  refine ⟨?_, ?_, ?_, ⟨gone, sent, ?_⟩, kept.fence.hand_other rfl, kept.closed⟩
  · simpa [Writer.handing, List.filterMap_cons, Taken.answer?] using kept.answers
  · simpa [Writer.handing, List.filterMap_cons, Taken.table?, waits] using kept.table
  · simpa [Writer.handing, List.filterMap_cons, Taken.own?] using kept.own
  · simpa [Writer.handing, List.filterMap_cons, Taken.frames?] using bytes

theorem hand_own (kept : Kept w) {f : Outbound} {rest : List Outbound} (waits : w.own = f :: rest) :
    Kept ({ w with own := rest }.handing (some (.own f))) := by
  obtain ⟨gone, sent, bytes⟩ := kept.frames
  refine ⟨?_, ?_, ?_, ⟨gone, sent, ?_⟩, kept.fence.hand_other rfl, ?_⟩
  · simpa [Writer.handing, List.filterMap_cons, Taken.answer?] using kept.answers
  · simpa [Writer.handing, List.filterMap_cons, Taken.table?] using kept.table
  · simpa [Writer.handing, List.filterMap_cons, Taken.own?, waits] using kept.own
  · simpa [Writer.handing, List.filterMap_cons, Taken.frames?] using bytes
  · intro shut
    rw [(kept.closed shut).2] at waits
    cases waits

theorem hand_plain (kept : Kept w) {f : WireFrame} {rest : List WireFrame}
    (waits : w.frames = f :: rest) (plain : f.fenced = false) (unfenced : w.fenced = none) :
    Kept ({ w with frames := rest }.handing (some (.frames f.bytes))) := by
  obtain ⟨gone, sent, bytes⟩ := kept.frames
  rw [waits] at sent
  rw [unfenced, Option.toList_none, List.append_nil] at bytes
  have count : (w.handed.filterMap Taken.frames?).length = gone.length := by
    rw [bytes, List.length_map]
  refine ⟨?_, ?_, ?_, ⟨gone ++ [f], ?_, ?_⟩, kept.fence.hand_plain f.bytes plain sent count,
    kept.closed⟩
  · simpa [Writer.handing, List.filterMap_cons, Taken.answer?] using kept.answers
  · simpa [Writer.handing, List.filterMap_cons, Taken.table?] using kept.table
  · simpa [Writer.handing, List.filterMap_cons, Taken.own?] using kept.own
  · simpa [Writer.handing] using sent
  · simp [Writer.handing, Taken.frames?, unfenced, bytes]

/-- A frame fenced waits before the rest of its queue. -/
theorem fenceUp (kept : Kept w) {f : WireFrame} {rest : List WireFrame}
    (waits : w.frames = f :: rest) (unfenced : w.fenced = none) :
    Kept { w with frames := rest, fenced := some f.bytes } := by
  obtain ⟨gone, sent, bytes⟩ := kept.frames
  rw [waits] at sent
  rw [unfenced, Option.toList_none, List.append_nil] at bytes
  refine ⟨kept.answers, kept.table, kept.own, ⟨gone ++ [f], ?_, ?_⟩, kept.fence, kept.closed⟩
  · simpa using sent
  · simp [bytes]

theorem hand_fenced (kept : Kept w) {bytes : Bytes} (fenced : w.fenced = some bytes)
    (empty : w.table = []) : Kept ({ w with fenced := none }.handing (some (.frames bytes))) := by
  obtain ⟨gone, sent, same⟩ := kept.frames
  have table := kept.table
  rw [empty, List.append_nil] at table
  refine ⟨?_, ?_, ?_, ⟨gone, sent, ?_⟩, kept.fence.hand_fenced bytes table,
    kept.closed⟩
  · simpa [Writer.handing, List.filterMap_cons, Taken.answer?] using kept.answers
  · simpa [Writer.handing, List.filterMap_cons, Taken.table?] using kept.table
  · simpa [Writer.handing, List.filterMap_cons, Taken.own?] using kept.own
  · simpa [Writer.handing, List.filterMap_cons, Taken.frames?, fenced] using same

end Kept

/-- What a round leaves: the frame it took is in hand, or fenced. -/
def Round.Left : Round → Writer → Prop
  | .nothing, w => Kept w ∧ w.fenced = none
  | .taken t, w => Kept (w.handing (some t))
  | .fence bytes, w => Kept w ∧ w.fenced = some bytes

section NextOut

variable {w : Writer}

theorem poll_left (kept : Kept w) (unfenced : w.fenced = none) (q : Queue) (spent : Bool) :
    (Writer.poll q spent w).1.Left (Writer.poll q spent w).2 := by
  have polled := w.polling q spent
  generalize Writer.poll q spent w = p at polled ⊢
  cases polled with
  | spent | shut | tableEmpty | framesEmpty => exact ⟨kept, unfenced⟩
  | ownEmpty opened empty =>
      refine ⟨{ kept with closed := fun shut => ⟨?_, empty⟩ }, unfenced⟩
      simpa using shut
  | own opened waits => exact kept.hand_own waits
  | table waits => exact kept.hand_table waits
  | frames waits plain => exact kept.hand_plain waits plain unfenced
  | fence waits fenced => exact ⟨kept.fenceUp waits unfenced, rfl⟩

theorem byTurns_left (gaps : Nat → Gap) (is : List Nat) (kept : Kept w) (unfenced : w.fenced = none) :
    (Writer.byTurns gaps is w).1.Left (Writer.byTurns gaps is w).2 := by
  induction is generalizing w with
  | nil => exact ⟨kept, unfenced⟩
  | cons i is ih =>
      have left := poll_left (kept.meanwhile (gaps i)) ((w.meanwhile_fenced (gaps i)).trans unfenced)
        (Writer.turns (w.turn + i)) (gaps i).spent
      unfold Writer.byTurns
      cases polled : Writer.poll (Writer.turns (w.turn + i)) (gaps i).spent (w.meanwhile (gaps i))
      rename_i got w'
      rw [polled] at left
      cases got with
      | nothing => exact ih left.1 left.2
      | taken t => exact { left with }
      | fence bytes =>
          obtain ⟨kept, fenced⟩ := left
          exact ⟨{ kept with }, fenced⟩

/-- A fenced frame is taken with nothing left on the method table's queue. -/
theorem behindTable_kept (gap : Gap) {bytes : Bytes} (kept : Kept w)
    (fenced : w.fenced = some bytes) :
    Kept ((w.behindTable gap bytes).2.handing (some (w.behindTable gap bytes).1)) := by
  have later := kept.meanwhile gap
  have still : (w.meanwhile gap).fenced = some bytes := (w.meanwhile_fenced gap).trans fenced
  unfold Writer.behindTable
  dsimp only
  split
  · rename_i waits
    exact later.hand_table waits
  · rename_i empty
    exact later.hand_fenced still empty

theorem nextOut_kept (gaps : Nat → Gap) (kept : Kept w) :
    Kept ((w.nextOut gaps).2.handing (w.nextOut gaps).1) := by
  unfold Writer.nextOut
  cases waits : w.out with
  | cons m rest => exact kept.hand_out waits
  | nil =>
      cases fenced : w.fenced with
      | some bytes => exact behindTable_kept (gaps 0) kept fenced
      | none =>
          have left := byTurns_left gaps [0, 1, 2] kept fenced
          cases polled : Writer.byTurns gaps [0, 1, 2] w
          rename_i got w'
          rw [polled] at left
          cases got with
          | nothing => simpa [Writer.handing] using left.1
          | taken t => exact left
          | fence bytes => exact behindTable_kept (gaps 3) left.1 left.2

end NextOut

/-- What `poll_write` keeps: a frame taken is lost only where the socket ended. -/
def Wrote (gone : Bool) (w : Writer) : Prop :=
  ∃ t, Kept (w.handing t) ∧ (gone = false → t = none)

theorem Kept.wrote {w : Writer} (kept : Kept w) (gone : Bool) : Wrote gone w :=
  ⟨none, by simpa [Writer.handing] using kept, fun _ => rfl⟩

theorem Wrote.kept {w : Writer} (written : Wrote false w) : Kept w := by
  obtain ⟨t, kept, none⟩ := written
  simpa [none rfl, Writer.handing] using kept

theorem gather_wrote (passes : List Pass) (moved : Bool) {w : Writer} (kept : Kept w) :
    Wrote (w.gather passes moved).1.isNone (w.gather passes moved).2 := by
  have gathered := w.gathers passes moved
  generalize w.gather passes moved = p at gathered ⊢
  induction gathered with
  | done | full | failed | pending => exact kept.wrote _
  | @nothing pass _ _ _ v under ready next =>
      have taken := nextOut_kept pass.gaps kept
      rw [next] at taken
      have taken : Kept v := by simpa [Writer.handing] using taken
      exact taken.wrote _
  | @lost pass _ _ _ _ t under ready next refused =>
      have taken := nextOut_kept pass.gaps kept
      rw [next] at taken
      refine ⟨some t, ?_, nofun⟩
      exact { taken with }
  | @taken pass _ _ _ _ _ _ under ready next takes later ih =>
      have taken := nextOut_kept pass.gaps kept
      rw [next] at taken
      exact ih { taken with }

theorem pollWrite_wrote (passes : List Pass) (flush : Polled) {w : Writer} (kept : Kept w) :
    Wrote (w.pollWrite passes flush).1.isNone (w.pollWrite passes flush).2 := by
  have written := gather_wrote passes false kept
  have settled := w.settles passes flush
  generalize w.gather passes false = p, w.pollWrite passes flush = p' at written settled ⊢
  cases settled with
  | gone => exact written
  | level | failed | pending => exact written.kept.wrote _
  | flushed =>
      refine Kept.wrote ?_ _
      exact { written.kept with }

theorem step_wrote {w w' : Writer} {e : Event} (written : Wrote w.ended w)
    (stepped : step w e = some w') : Wrote w'.ended w' := by
  obtain ⟨going, happened⟩ := happens stepped
  rw [going] at written
  have kept := written.kept
  cases happened with
  | arrive a => exact (kept.arrive a).wrote _
  | respond json => exact (kept.respond json).wrote _
  | ping => exact kept.pushPing.wrote _
  | @write passes flush _ _ wrote =>
      have written := pollWrite_wrote passes flush kept
      rw [wrote] at written
      exact written.kept.wrote _
  | @ends passes flush _ wrote =>
      have written := pollWrite_wrote passes flush kept
      rw [wrote] at written
      obtain ⟨t, kept, -⟩ := written
      refine ⟨t, ?_, nofun⟩
      exact { kept with }

/-- What the socket was handed of each queue, against what the queue was sent. -/
structure Ordered (w : Writer) : Prop where
  answers : w.handed.filterMap Taken.answer? <+: w.answered
  table : w.handed.filterMap Taken.table? <+: w.log.filterMap Arrival.table?
  own : w.handed.filterMap Taken.own? <+: w.log.filterMap Arrival.own?
  frames : w.handed.filterMap Taken.frames? <+: (w.log.filterMap Arrival.frames?).map (·.bytes)

/-- While the socket has not ended, what was sent and not handed still waits. -/
structure Waiting (w : Writer) : Prop where
  answers : w.answered = w.handed.filterMap Taken.answer? ++ w.out.filter (· ≠ .ping)
  table : w.log.filterMap Arrival.table? = w.handed.filterMap Taken.table? ++ w.table
  own : w.log.filterMap Arrival.own? = w.handed.filterMap Taken.own? ++ w.own
  frames : (w.log.filterMap Arrival.frames?).map (·.bytes) =
    w.handed.filterMap Taken.frames? ++ (w.fenced.toList ++ w.frames.map (·.bytes))
  closed : w.ownOpen = false → w.own = []

/-- The answers sent before a fenced frame are handed before it and before every later
    frame. -/
def Behind (w : Writer) : Prop :=
  ∀ (before after : List Arrival) (f : WireFrame),
    w.log = before ++ .frames f :: after → f.fenced = true →
    ∀ (first rest : List Taken) (bytes : Bytes), w.handed = first ++ .frames bytes :: rest →
      (before.filterMap Arrival.frames?).length ≤ (first.filterMap Taken.frames?).length →
        before.filterMap Arrival.table? <+: first.filterMap Taken.table?

theorem Kept.waiting {w : Writer} (kept : Kept w) : Waiting w where
  answers := kept.answers.symm
  table := kept.table.symm
  own := kept.own.symm
  frames := by
    obtain ⟨gone, sent, bytes⟩ := kept.frames
    rw [← sent, List.map_append, ← bytes, List.append_assoc]
  closed := fun shut => (kept.closed shut).2

/-- The place of the frame that has this many before it. -/
theorem frame_at {n : Nat} {l : List Taken} (more : n < (l.filterMap Taken.frames?).length) :
    ∃ first bytes rest, l = first ++ .frames bytes :: rest ∧
      (first.filterMap Taken.frames?).length = n := by
  induction l generalizing n with
  | nil => simp at more
  | cons t l ih =>
      cases frame : t.frames? with
      | none =>
          rw [List.filterMap_cons_none frame] at more
          obtain ⟨first, bytes, rest, rfl, count⟩ := ih more
          exact ⟨t :: first, bytes, rest, rfl, by rw [List.filterMap_cons_none frame, count]⟩
      | some bytes =>
          rw [List.filterMap_cons_some frame, List.length_cons] at more
          cases n with
          | zero =>
              cases t <;> cases frame
              exact ⟨[], bytes, l, rfl, rfl⟩
          | succ n =>
              obtain ⟨first, b, rest, rfl, count⟩ := ih (Nat.lt_of_succ_lt_succ more)
              refine ⟨t :: first, b, rest, rfl, ?_⟩
              rw [List.filterMap_cons_some frame, List.length_cons, count]

theorem Fenced.behind {w : Writer} (fence : Fenced w.log w.handed) : Behind w := by
  intro before after f same fenced first rest bytes split later
  rcases Nat.eq_or_lt_of_le later with here | later
  · exact fence before after f same fenced first rest bytes split here.symm
  · obtain ⟨first', bytes', rest', rfl, count⟩ := frame_at later
    have earlier := fence before after f same fenced first' (rest' ++ .frames bytes :: rest) bytes'
      (by rw [split, List.append_assoc, List.cons_append]) count
    exact earlier.trans ((List.prefix_append _ _).filterMap _)

/-- The frames of each queue are handed in the order they were sent, each once, none
    lost while the socket has not ended, and a fenced frame behind the method table's
    answers. -/
theorem writer_order (budget : Nat) (events : List Event) (w : Writer)
    (ran : (machine budget).run events = some w) :
    Ordered w ∧ (w.ended = false → Waiting w) ∧ Behind w := by
  have start : Wrote (machine budget).start.ended (machine budget).start := by
    refine Kept.wrote ⟨rfl, rfl, rfl, ⟨[], rfl, rfl⟩, ?_, ?_⟩ _
    · intro before after f same
      simp [machine, Writer.new] at same
    · intro shut
      cases shut
  obtain ⟨t, kept, none⟩ := Machine.run_keeps (I := fun w => Wrote w.ended w) start
    (fun _ _ _ => step_wrote) ran
  have handed : w.handed <+: (w.handing t).handed := List.prefix_append _ _
  have waiting := kept.waiting
  refine ⟨⟨?_, ?_, ?_, ?_⟩, ?_, ?_⟩
  · exact (handed.filterMap _).trans ⟨_, waiting.answers.symm⟩
  · exact (handed.filterMap _).trans ⟨_, waiting.table.symm⟩
  · exact (handed.filterMap _).trans ⟨_, waiting.own.symm⟩
  · exact (handed.filterMap _).trans ⟨_, waiting.frames.symm⟩
  · intro going
    simpa [none going, Writer.handing] using waiting
  · intro before after f same fenced first rest bytes split
    obtain ⟨more, whole⟩ := handed
    exact kept.fence.behind before after f same fenced first (rest ++ more) bytes
      (by rw [← whole, split, List.append_assoc, List.cons_append])

/-- The loop's own answer, sends while the calls' queue is polled, and a fenced frame that
    then waits for the answer sent before it. -/
def fencedRun : List Event :=
  let still : Nat → Gap := fun _ => ⟨[], false⟩
  let sends : Nat → Gap := fun i =>
    if i = 2 then ⟨[.table [1], .frames ⟨[2], true⟩], false⟩ else ⟨[], false⟩
  [.respond [0], .ping,
    .write [⟨.ready, still, true⟩, ⟨.ready, still, true⟩, ⟨.ready, sends, true⟩,
      ⟨.ready, still, true⟩, ⟨.pending, still, true⟩] .pending]

theorem writer_order_fenced :
    ∃ w, (machine 8).run fencedRun = some w ∧
      w.handed = [.out .ping, .out (.text [0]), .table [1], .frames [2]] ∧ Behind w :=
  ⟨_, rfl, rfl, (writer_order 8 fencedRun _ rfl).2.2⟩

end PlexusTransport.Ws.Conn
