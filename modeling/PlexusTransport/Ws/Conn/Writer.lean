import PlexusTransport.Lib.Machine

/-! # The socket's writer

`Loop::next_out` merges what the loop answered itself with three queues that
other tasks fill while it runs: the method table's, this side's own and the
calls' frames. A call's first frame is fenced: it waits for the method table's
queue as it stands.
-/

namespace PlexusTransport.Ws.Conn

abbrev Bytes := List UInt8

inductive Message where
  | text (t : Bytes)
  | binary (b : Bytes)
  | ping
  deriving DecidableEq, Repr

def Message.len : Message → Nat
  | .text t => t.length
  | .binary b => b.length
  | .ping => 0

/-- A frame of this side's own. -/
inductive Outbound where
  | text (t : Bytes)
  | binary (b : Bytes)
  deriving DecidableEq, Repr

/-- A call's frame, encoded once. -/
structure WireFrame where
  bytes : Bytes
  fenced : Bool
  deriving DecidableEq, Repr

def text (raw : Bytes) : Message := .text raw

def own : Outbound → Message
  | .text t => .text t
  | .binary b => .binary b

def framed (bytes : Bytes) : Message := .text bytes

inductive Queue where
  | own
  | table
  | frames
  deriving DecidableEq, Repr

/-- What `next_out` gives, by the queue it came from. -/
inductive Taken where
  | out (m : Message)
  | own (f : Outbound)
  | table (raw : Bytes)
  | frames (bytes : Bytes)
  deriving DecidableEq, Repr

def Taken.message : Taken → Message
  | .out m => m
  | .own f => Conn.own f
  | .table raw => text raw
  | .frames bytes => framed bytes

/-- A send that completed; `ownGone`: the last `ConnectionWriter` is dropped. -/
inductive Arrival where
  | table (raw : Bytes)
  | own (f : Outbound)
  | frames (f : WireFrame)
  | ownGone
  deriving DecidableEq, Repr

/-- The writing half of `Loop`, the receivers as what waits in them. -/
structure Loop where
  out : List Message
  table : List Bytes
  own : List Outbound
  ownGone : Bool
  ownOpen : Bool
  frames : List WireFrame
  fenced : Option Bytes
  turn : Nat
  gathered : Nat
  unflushed : Bool
  budget : Nat
  deriving DecidableEq, Repr

/-- A loop with what has been sent to it and what it has handed the socket. -/
structure Writer extends Loop where
  answered : List Message
  log : List Arrival
  handed : List Taken
  ended : Bool
  deriving DecidableEq, Repr

/-- What happens before an operation on a queue: sends complete, and a poll may find
    the task's cooperative budget spent. -/
structure Gap where
  arrivals : List Arrival
  spent : Bool

inductive Polled where
  | ready
  | failed
  | pending
  deriving DecidableEq, Repr

/-- How the queues looked to one round over the turns. -/
inductive Round where
  | nothing
  | taken (t : Taken)
  | fence (bytes : Bytes)
  deriving DecidableEq, Repr

/-- One pass of `poll_write`'s loop: the socket, the sends around each operation of
    `next_out`, and whether the socket takes the frame. -/
structure Pass where
  ready : Polled
  gaps : Nat → Gap
  takes : Bool

namespace Writer

def new (budget : Nat) : Writer where
  out := []
  table := []
  own := []
  ownGone := false
  ownOpen := true
  frames := []
  fenced := none
  turn := 0
  gathered := 0
  unflushed := false
  budget := budget
  answered := []
  log := []
  handed := []
  ended := false

/-- A send on a channel whose sender is gone is none. -/
def arrive (w : Writer) : Arrival → Writer
  | .table raw => { w with table := w.table ++ [raw], log := w.log ++ [.table raw] }
  | .own f => if w.ownGone then w else { w with own := w.own ++ [f], log := w.log ++ [.own f] }
  | .frames f => { w with frames := w.frames ++ [f], log := w.log ++ [.frames f] }
  | .ownGone => { w with ownGone := true }

def meanwhile (w : Writer) (gap : Gap) : Writer := gap.arrivals.foldl arrive w

/-- `Queue::Own`; all senders gone and nothing left, it is not polled again. -/
def pollOwn (spent : Bool) (w : Writer) : Round × Writer :=
  if !w.ownOpen || spent then (.nothing, w)
  else
    match w.own with
    | f :: rest => (.taken (.own f), { w with own := rest })
    | [] => (.nothing, { w with ownOpen := !w.ownGone })

def pollTable (spent : Bool) (w : Writer) : Round × Writer :=
  if spent then (.nothing, w)
  else
    match w.table with
    | raw :: rest => (.taken (.table raw), { w with table := rest })
    | [] => (.nothing, w)

def pollFrames (spent : Bool) (w : Writer) : Round × Writer :=
  if spent then (.nothing, w)
  else
    match w.frames with
    | f :: rest =>
        if f.fenced then (.fence f.bytes, { w with frames := rest, fenced := some f.bytes })
        else (.taken (.frames f.bytes), { w with frames := rest })
    | [] => (.nothing, w)

def turns (i : Nat) : Queue :=
  match i % 3 with
  | 0 => .own
  | 1 => .table
  | _ => .frames

def poll : Queue → Bool → Writer → Round × Writer
  | .own => pollOwn
  | .table => pollTable
  | .frames => pollFrames

/-- The queues from `turn` on, until one has a frame. -/
def byTurns (gaps : Nat → Gap) : List Nat → Writer → Round × Writer
  | [], w => (.nothing, w)
  | i :: rest, w =>
      match poll (turns (w.turn + i)) (gaps i).spent (w.meanwhile (gaps i)) with
      | (.nothing, w) => byTurns gaps rest w
      | (got, w) => (got, { w with turn := (w.turn + i + 1) % 3 })

/-- With a frame fenced: what the method table holds (`try_recv`) first. -/
def behindTable (gap : Gap) (bytes : Bytes) (w : Writer) : Taken × Writer :=
  let w := w.meanwhile gap
  match w.table with
  | raw :: rest => (.table raw, { w with table := rest })
  | [] => (.frames bytes, { w with fenced := none })

/-- `next_out`. Called again once a frame is fenced, it finds nothing on `out`. -/
def nextOut (gaps : Nat → Gap) (w : Writer) : Option Taken × Writer :=
  match w.out with
  | m :: rest => (some (.out m), { w with out := rest })
  | [] =>
      match w.fenced with
      | some bytes => (behindTable (gaps 0) bytes w).map some id
      | none =>
          match byTurns gaps [0, 1, 2] w with
          | (.nothing, w) => (none, w)
          | (.taken t, w) => (some t, w)
          | (.fence bytes, w) => (behindTable (gaps 3) bytes w).map some id

/-- How many frames wait on a queue. -/
def waiting (w : Writer) : Queue → Nat
  | .own => w.own.length
  | .table => w.table.length
  | .frames => w.frames.length

/-- What polling a queue comes to. -/
inductive Polling (w : Writer) : Queue → Bool → Round × Writer → Prop where
  | spent (q : Queue) : Polling w q true (.nothing, w)
  | shut (spent : Bool) (closed : w.ownOpen = false) : Polling w .own spent (.nothing, w)
  | ownEmpty (opened : w.ownOpen = true) (empty : w.own = []) :
      Polling w .own false (.nothing, { w with ownOpen := !w.ownGone })
  | own {f rest} (opened : w.ownOpen = true) (waits : w.own = f :: rest) :
      Polling w .own false (.taken (.own f), { w with own := rest })
  | tableEmpty (empty : w.table = []) : Polling w .table false (.nothing, w)
  | table {raw rest} (waits : w.table = raw :: rest) :
      Polling w .table false (.taken (.table raw), { w with table := rest })
  | framesEmpty (empty : w.frames = []) : Polling w .frames false (.nothing, w)
  | frames {f rest} (waits : w.frames = f :: rest) (plain : f.fenced = false) :
      Polling w .frames false (.taken (.frames f.bytes), { w with frames := rest })
  | fence {f rest} (waits : w.frames = f :: rest) (fenced : f.fenced = true) :
      Polling w .frames false
        (.fence f.bytes, { w with frames := rest, fenced := some f.bytes })

theorem polling (q : Queue) (spent : Bool) (w : Writer) : Polling w q spent (poll q spent w) := by
  cases spent with
  | true =>
      have none : poll q true w = (.nothing, w) := by
        cases q <;> simp [poll, pollOwn, pollTable, pollFrames]
      rw [none]
      exact .spent q
  | false =>
      cases q with
      | own =>
          simp only [poll, pollOwn, Bool.or_false]
          split
          · rename_i closed
            exact .shut false (by simpa using closed)
          · rename_i opened
            have opened : w.ownOpen = true := by simpa using opened
            split
            · rename_i own
              exact .own opened own
            · rename_i empty
              exact .ownEmpty opened empty
      | table =>
          simp only [poll, pollTable, Bool.false_eq_true, if_false]
          split
          · rename_i table
            exact .table table
          · rename_i empty
            exact .tableEmpty empty
      | frames =>
          simp only [poll, pollFrames, Bool.false_eq_true, if_false]
          split
          · rename_i frames
            split
            · rename_i fenced
              exact .fence frames fenced
            · rename_i plain
              exact .frames frames (Bool.eq_false_iff.mpr plain)
          · rename_i empty
            exact .framesEmpty empty

section Keeps

variable {I : Writer → Prop} {w : Writer}

/-- What a send keeps, the sends of a gap keep. -/
theorem meanwhile_keeps (sends : ∀ w a, I w → I (w.arrive a)) (gap : Gap) (here : I w) :
    I (w.meanwhile gap) :=
  List.foldlRecOn _ _ here fun w kept a _ => sends w a kept

/-- What sends, polls and turns keep, a round keeps. -/
theorem byTurns_keeps (sends : ∀ w a, I w → I (w.arrive a))
    (polls : ∀ q spent w, I w → I (poll q spent w).2) (turns : ∀ w k, I w → I { w with turn := k })
    (gaps : Nat → Gap) (is : List Nat) (here : I w) : I (w.byTurns gaps is).2 := by
  induction is generalizing w with
  | nil => exact here
  | cons i is ih =>
      have kept := polls (Writer.turns (w.turn + i)) (gaps i).spent _
        (meanwhile_keeps sends (gaps i) here)
      unfold byTurns
      generalize poll (Writer.turns (w.turn + i)) (gaps i).spent (w.meanwhile (gaps i)) = p
        at kept ⊢
      obtain ⟨got, w₁⟩ := p
      cases got with
      | nothing => exact ih kept
      | taken t | fence bytes => exact turns w₁ _ kept

end Keeps

/-- The half of the writer that faces the socket. -/
def outer (w : Writer) : List Taken × Nat × Bool × Nat :=
  (w.handed, w.gathered, w.unflushed, w.budget)

/-- What the queues have no part in. -/
def rest (w : Writer) : List Message × List Taken × Nat × Bool × Nat := (w.out, w.outer)

/-- What no send touches. -/
def unsent (w : Writer) : Nat × Option Bytes × Bool × List Message × List Taken × Nat × Bool × Nat :=
  (w.turn, w.fenced, w.ownOpen, w.rest)

theorem arrive_unsent (w : Writer) (a : Arrival) : (w.arrive a).unsent = w.unsent := by
  cases a with
  | own f =>
      simp only [arrive]
      split <;> rfl
  | table raw | frames f | ownGone => rfl

theorem arrive_fenced (w : Writer) (a : Arrival) : (w.arrive a).fenced = w.fenced :=
  congrArg (·.2.1) (arrive_unsent w a)

theorem arrive_ownOpen (w : Writer) (a : Arrival) : (w.arrive a).ownOpen = w.ownOpen :=
  congrArg (·.2.2.1) (arrive_unsent w a)

theorem arrive_rest (w : Writer) (a : Arrival) : (w.arrive a).rest = w.rest :=
  congrArg (·.2.2.2) (arrive_unsent w a)

theorem arrive_out (w : Writer) (a : Arrival) : (w.arrive a).out = w.out :=
  congrArg Prod.fst (arrive_rest w a)

theorem meanwhile_unsent (w : Writer) (gap : Gap) : (w.meanwhile gap).unsent = w.unsent :=
  meanwhile_keeps (I := fun u => u.unsent = w.unsent)
    (fun u a same => (arrive_unsent u a).trans same) gap rfl

theorem meanwhile_turn (w : Writer) (gap : Gap) : (w.meanwhile gap).turn = w.turn :=
  congrArg (·.1) (meanwhile_unsent w gap)

theorem meanwhile_fenced (w : Writer) (gap : Gap) : (w.meanwhile gap).fenced = w.fenced :=
  congrArg (·.2.1) (meanwhile_unsent w gap)

theorem meanwhile_rest (w : Writer) (gap : Gap) : (w.meanwhile gap).rest = w.rest :=
  congrArg (·.2.2.2) (meanwhile_unsent w gap)

theorem poll_rest (q : Queue) (spent : Bool) (w : Writer) : (poll q spent w).2.rest = w.rest := by
  have polled := polling q spent w
  generalize poll q spent w = p at polled ⊢
  cases polled <;> rfl

theorem byTurns_rest (gaps : Nat → Gap) (is : List Nat) (w : Writer) :
    (w.byTurns gaps is).2.rest = w.rest :=
  byTurns_keeps (I := fun u => u.rest = w.rest) (fun u a same => (arrive_rest u a).trans same)
    (fun q spent u same => (poll_rest q spent u).trans same) (fun _ _ same => same) gaps is rfl

theorem behindTable_rest (gap : Gap) (bytes : Bytes) (w : Writer) :
    (w.behindTable gap bytes).2.rest = w.rest := by
  rw [← meanwhile_rest w gap]
  simp only [behindTable]
  split <;> rfl

/-- `next_out` takes no more than the loop's own first answer of what the queues have no
    part in. -/
theorem nextOut_rest (gaps : Nat → Gap) (w : Writer) :
    (w.nextOut gaps).2.rest = (w.out.tail, w.outer) := by
  unfold nextOut
  cases out : w.out with
  | cons m rest => rfl
  | nil =>
      have same : w.rest = ([], w.outer) := by rw [rest, out]
      rw [List.tail_nil, ← same]
      dsimp only
      split
      · exact behindTable_rest _ _ w
      · have round := byTurns_rest gaps [0, 1, 2] w
        cases taken : w.byTurns gaps [0, 1, 2] with
        | mk got w₁ =>
            rw [taken] at round
            cases got with
            | nothing | taken t => exact round
            | fence bytes => exact (behindTable_rest _ _ w₁).trans round

theorem nextOut_outer (gaps : Nat → Gap) (w : Writer) : (w.nextOut gaps).2.outer = w.outer :=
  congrArg Prod.snd (w.nextOut_rest gaps)

theorem nextOut_out (gaps : Nat → Gap) (w : Writer) : (w.nextOut gaps).2.out = w.out.tail :=
  congrArg Prod.fst (w.nextOut_rest gaps)

/-- `poll_write`'s loop; `none`: the socket is gone. -/
def gather : List Pass → Bool → Writer → Option Bool × Writer
  | [], moved, w => (some moved, w)
  | pass :: rest, moved, w =>
      if w.gathered < w.budget then
        match pass.ready with
        | .failed => (none, w)
        | .pending => (some moved, w)
        | .ready =>
            match nextOut pass.gaps w with
            | (none, w) => (some moved, w)
            | (some t, w) =>
                let w := { w with gathered := w.gathered + t.message.len }
                if pass.takes then
                  gather rest true { w with unflushed := true, handed := w.handed ++ [t] }
                else (none, w)
      else (some moved, w)

/-- What the passes come to. -/
inductive Gathered : List Pass → Bool → Writer → Option Bool × Writer → Prop where
  | done {moved w} : Gathered [] moved w (some moved, w)
  | full {pass rest moved w} (full : w.budget ≤ w.gathered) :
      Gathered (pass :: rest) moved w (some moved, w)
  | failed {pass rest moved w} (under : w.gathered < w.budget) (ready : pass.ready = .failed) :
      Gathered (pass :: rest) moved w (none, w)
  | pending {pass rest moved w} (under : w.gathered < w.budget) (ready : pass.ready = .pending) :
      Gathered (pass :: rest) moved w (some moved, w)
  | nothing {pass rest moved w w₁} (under : w.gathered < w.budget) (ready : pass.ready = .ready)
      (next : w.nextOut pass.gaps = (none, w₁)) : Gathered (pass :: rest) moved w (some moved, w₁)
  | lost {pass rest moved w w₁ t} (under : w.gathered < w.budget) (ready : pass.ready = .ready)
      (next : w.nextOut pass.gaps = (some t, w₁)) (refused : pass.takes = false) :
      Gathered (pass :: rest) moved w
        (none, { w₁ with gathered := w₁.gathered + t.message.len })
  | taken {pass rest moved w w₁ t p} (under : w.gathered < w.budget) (ready : pass.ready = .ready)
      (next : w.nextOut pass.gaps = (some t, w₁)) (takes : pass.takes = true)
      (later : Gathered rest true { w₁ with
        gathered := w₁.gathered + t.message.len, unflushed := true, handed := w₁.handed ++ [t] } p) :
      Gathered (pass :: rest) moved w p

theorem gathers (passes : List Pass) (moved : Bool) (w : Writer) :
    Gathered passes moved w (w.gather passes moved) := by
  induction passes generalizing moved w with
  | nil => exact .done
  | cons pass rest ih =>
      unfold gather
      by_cases under : w.gathered < w.budget
      · rw [if_pos under]
        cases ready : pass.ready with
        | failed => exact .failed under ready
        | pending => exact .pending under ready
        | ready =>
            cases next : w.nextOut pass.gaps with
            | mk got w₁ =>
                cases got with
                | none => exact .nothing under ready next
                | some t =>
                    cases takes : pass.takes with
                    | false => exact .lost under ready next takes
                    | true => exact .taken under ready next takes (ih true _)
      · rw [if_neg under]
        exact .full (Nat.le_of_not_lt under)

/-- Every ready frame, up to the budget, into the socket, then one flush. -/
def pollWrite (passes : List Pass) (flush : Polled) (w : Writer) : Option Bool × Writer :=
  match gather passes false w with
  | (none, w) => (none, w)
  | (some moved, w) =>
      if w.unflushed then
        match flush with
        | .ready => (some true, { w with unflushed := false, gathered := 0 })
        | .failed => (none, w)
        | .pending => (some moved, w)
      else (some moved, w)

/-- What a write comes to, from what its passes came to. -/
inductive Settles (flush : Polled) : Option Bool × Writer → Option Bool × Writer → Prop where
  | gone {w} : Settles flush (none, w) (none, w)
  | level {moved w} (flushed : w.unflushed = false) : Settles flush (some moved, w) (some moved, w)
  | flushed {moved w} (owed : w.unflushed = true) (ready : flush = .ready) :
      Settles flush (some moved, w) (some true, { w with unflushed := false, gathered := 0 })
  | failed {moved w} (owed : w.unflushed = true) (failed : flush = .failed) :
      Settles flush (some moved, w) (none, w)
  | pending {moved w} (owed : w.unflushed = true) (pending : flush = .pending) :
      Settles flush (some moved, w) (some moved, w)

theorem settles (passes : List Pass) (flush : Polled) (w : Writer) :
    Settles flush (w.gather passes false) (w.pollWrite passes flush) := by
  unfold pollWrite
  generalize w.gather passes false = p
  obtain ⟨r, w₁⟩ := p
  cases r with
  | none => exact .gone
  | some moved =>
      cases owed : w₁.unflushed with
      | false => simpa [owed] using .level owed
      | true =>
          cases flush with
          | ready => simpa [owed] using .flushed owed rfl
          | failed => simpa [owed] using .failed owed rfl
          | pending => simpa [owed] using .pending owed rfl

/-- An answer of the loop's own, as `respond` queues it. -/
def respond (json : Bytes) (w : Writer) : Writer :=
  { w with out := w.out ++ [text json], answered := w.answered ++ [text json] }

/-- Ahead of anything queued. -/
def pushPing (w : Writer) : Writer := { w with out := .ping :: w.out }

end Writer

/-- What the producers do, and what `poll_run` does to the queues, in any order. -/
inductive Event where
  | arrive (a : Arrival)
  | respond (json : Bytes)
  | ping
  | write (passes : List Pass) (flush : Polled)

def step (w : Writer) : Event → Option Writer
  | .arrive a => if w.ended then none else some (w.arrive a)
  | .respond json => if w.ended then none else some (w.respond json)
  | .ping => if w.ended then none else some w.pushPing
  | .write passes flush =>
      if w.ended then none
      else
        match w.pollWrite passes flush with
        | (some _, w) => some w
        | (none, w) => some { w with ended := true }

/-- What an event comes to. -/
inductive Happens (w : Writer) : Event → Writer → Prop where
  | arrive (a : Arrival) : Happens w (.arrive a) (w.arrive a)
  | respond (json : Bytes) : Happens w (.respond json) (w.respond json)
  | ping : Happens w .ping w.pushPing
  | write {passes flush moved w'} (wrote : w.pollWrite passes flush = (some moved, w')) :
      Happens w (.write passes flush) w'
  | ends {passes flush w'} (wrote : w.pollWrite passes flush = (none, w')) :
      Happens w (.write passes flush) { w' with ended := true }

theorem happens {w w' : Writer} {e : Event} (stepped : step w e = some w') :
    w.ended = false ∧ Happens w e w' := by
  cases ended : w.ended with
  | true => cases e <;> simp [step, ended] at stepped
  | false =>
      refine ⟨rfl, ?_⟩
      cases e with
      | arrive a =>
          simp only [step, ended] at stepped
          cases stepped
          exact .arrive a
      | respond json =>
          simp only [step, ended] at stepped
          cases stepped
          exact .respond json
      | ping =>
          simp only [step, ended] at stepped
          cases stepped
          exact .ping
      | write passes flush =>
          simp only [step, ended] at stepped
          cases wrote : w.pollWrite passes flush with
          | mk r w₁ =>
              rw [wrote] at stepped
              cases r with
              | some moved =>
                  cases stepped
                  exact .write wrote
              | none =>
                  cases stepped
                  exact .ends wrote

def machine (budget : Nat) : Machine Writer Event := ⟨Writer.new budget, step⟩

end PlexusTransport.Ws.Conn
