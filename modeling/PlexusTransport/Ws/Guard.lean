import PlexusTransport.Lib.BigEndian

/-! # The frame guard

`Guard` reads the client's bytes before the WebSocket codec does. It follows
each frame's header, holds the fragments of a message until its last one, and
drops a message over the cap whole. The guard looks at header bytes only and
moves every other byte unread, so the model is generic in the byte: any type
that reads as an octet, in particular octets that remember their place in the
client's stream.
-/

namespace PlexusTransport.Ws

open BigEndian

/-- A byte, as the guard reads it. -/
class Octet (β : Type) where
  octet : β → UInt8

export Octet (octet)

instance : Octet UInt8 := ⟨id⟩

instance {β τ : Type} [Octet β] : Octet (β × τ) := ⟨fun b => octet b.1⟩

def u64Max : Nat := 2 ^ 64 - 1

/-- `u64::saturating_add`. -/
def saturatingAdd (a b : Nat) : Nat := min (a + b) u64Max

/-- `u64::checked_add`. -/
def checkedAdd (a b : Nat) : Option Nat := if a + b ≤ u64Max then some (a + b) else none

/-- Where the guard is in the client's byte stream. -/
inductive In where
  | header
  | pass (n : Nat)
  | hold (n : Nat)
  | skip (n : Nat)
  deriving DecidableEq, Repr

/-- Where the current data message stands. -/
inductive Msg where
  | none
  | holding (len : Nat)
  | skipping
  deriving DecidableEq, Repr

structure Header where
  fin : Bool
  opcode : UInt8
  len : Nat
  size : Nat
  deriving DecidableEq, Repr

def Header.total (h : Header) : Nat := saturatingAdd h.size h.len

variable {β : Type}

section Parsing

variable [Octet β]

/-- RFC 6455 section 5.2: the top bit of a 64-bit length must be 0. -/
def illegalLength : List β → Bool
  | _ :: second :: third :: _ => octet second &&& 0x7f == 127 && octet third &&& 0x80 != 0
  | _ => false

/-- The length and the header's size without its mask key, once they are in. -/
def lengthField (second : UInt8) (rest : List β) : Option (Nat × Nat) :=
  if second &&& 0x7f = 126 then
    if 2 ≤ rest.length then some (fromBe ((rest.take 2).map octet), 4) else none
  else if second &&& 0x7f = 127 then
    if 8 ≤ rest.length then some (fromBe ((rest.take 8).map octet), 10) else none
  else some ((second &&& 0x7f).toNat, 2)

/-- `some` once the whole header is in `b`. -/
def header (b : List β) : Option Header :=
  match b with
  | first :: second :: rest =>
      match lengthField (octet second) rest with
      | none => none
      | some (len, size) =>
          let size := if octet second &&& 0x80 != 0 then size + 4 else size
          if size ≤ b.length then
            some ⟨octet first &&& 0x80 != 0, octet first &&& 0x0f, len, size⟩
          else none
  | _ => none

theorem header_size {b : List β} {h : Header} (eq : header b = some h) :
    2 ≤ h.size ∧ h.size ≤ b.length := by
  unfold header at eq
  split at eq
  · unfold lengthField at eq
    grind
  · simp at eq

end Parsing

/-- What `BytesMut::with_capacity` and `reserve` leave spare when 8 KiB are asked for:
    at least as many. -/
structure Reserve where
  room : Nat
  enough : 8 * 1024 ≤ room
  deriving DecidableEq, Repr

namespace Reserve

def least : Reserve := ⟨8 * 1024, Nat.le_refl _⟩

/-- As an allocation doubled to 16 KiB leaves with 4097 bytes of it in use. -/
def grown : Reserve := ⟨12287, by decide⟩

/-- The first of what the allocator's reservations leave, in the order they are made.
    Past the last, each leaves what was asked for. -/
def next (reserves : List Reserve) : Reserve := reserves.headD least

/-- No reservation leaves more than this. -/
def AtMost (most : Nat) (reserves : List Reserve) : Prop :=
  8 * 1024 ≤ most ∧ ∀ r ∈ reserves, r.room ≤ most

theorem AtMost.next {most : Nat} {reserves : List Reserve} (atMost : AtMost most reserves) :
    (next reserves).room ≤ most := by
  cases reserves with
  | nil => exact atMost.1
  | cons r rs => exact atMost.2 r List.mem_cons_self

theorem AtMost.tail {most : Nat} {reserves : List Reserve} (atMost : AtMost most reserves) :
    AtMost most reserves.tail :=
  ⟨atMost.1, fun r mem => atMost.2 r (List.mem_of_mem_tail mem)⟩

end Reserve

/-- The read side of a socket. `spare` is the room left in `buf`'s allocation: what one
    read may fill. `reserves` is what the allocator's later reservations leave. -/
structure Guard (β : Type) where
  cap : UInt64
  buf : List β
  ready : List β
  hold : List β
  state : In
  msg : Msg
  release : Bool
  dropped : Nat
  spare : Nat
  reserves : List Reserve
  deriving DecidableEq, Repr

namespace Guard

def new (cap : UInt64) (reserves : List Reserve) : Guard β where
  cap := cap
  buf := []
  ready := []
  hold := []
  state := .header
  msg := .none
  release := false
  dropped := 0
  spare := (Reserve.next reserves).room
  reserves := reserves.tail

/-- The fragment being held is complete. -/
def endHold (g : Guard β) : Guard β :=
  let g := { g with state := .header }
  if g.release then
    { g with ready := g.ready ++ g.hold, hold := [], msg := .none, release := false }
  else g

/-- The frame whose header is at the front of `buf` is held. -/
def holdFrame (g : Guard β) (h : Header) : Guard β :=
  let g := { g with
    hold := g.hold ++ g.buf.take h.size
    buf := g.buf.drop h.size
    release := h.fin
    state := .hold h.len }
  if h.len = 0 then g.endHold else g

/-- Drop the frame whose header is at the front of `buf`. -/
def skipFrame (g : Guard β) (h : Header) : Guard β :=
  { g with buf := g.buf.drop h.size, state := .skip h.len }

/-- A whole header is at the front of `buf`: what becomes of its frame. -/
def decide (g : Guard β) (h : Header) : Guard β :=
  if h.opcode &&& 0x08 != 0 then { g with state := .pass h.total }
  else if h.opcode = 0 then
    match g.msg with
    | .skipping =>
        let g := g.skipFrame h
        if h.fin then { g with msg := .none } else g
    | .holding len =>
        match (checkedAdd len h.len).filter (· ≤ g.cap.toNat) with
        | none =>
            { g.skipFrame h with
              hold := []
              msg := if h.fin then .none else .skipping
              dropped := g.dropped + 1 }
        | some total => { g with msg := .holding total }.holdFrame h
    -- A stray continuation: passed on, the codec refuses it.
    | .none => { g with msg := .none, state := .pass h.total }
  else
    match g.msg with
    -- A new message while one is held: what is held goes out as sent.
    | .holding _ =>
        { g with ready := g.ready ++ g.hold, hold := [], msg := .none, state := .pass h.total }
    | .skipping => { g with msg := .none, state := .pass h.total }
    | .none =>
        if g.cap.toNat < h.len then
          { g.skipFrame h with
            msg := if h.fin then g.msg else .skipping
            dropped := g.dropped + 1 }
        else if h.fin then { g with state := .pass h.total }
        else { g with hold := [], msg := .holding h.len }.holdFrame h

end Guard

/-- What the socket has for a read: bytes that came together, or nothing yet. -/
inductive Arrival (β : Type) where
  | data (first : β) (rest : List β)
  | pending
  deriving DecidableEq, Repr

namespace Arrival

def bytes : Arrival β → List β
  | .data first rest => first :: rest
  | .pending => []

/-- What is left of an arrival after a short read. -/
def left : List β → List (Arrival β)
  | [] => []
  | first :: rest => [.data first rest]

@[simp] theorem flatMap_left (b : List β) : (left b).flatMap bytes = b := by
  cases b <;> simp [left, bytes]

end Arrival

/-- How the socket answers once its arrivals are read. -/
inductive Last where
  | quiet
  | closed
  | failed
  deriving DecidableEq, Repr

structure Socket (β : Type) where
  arrivals : List (Arrival β)
  last : Last
  deriving DecidableEq, Repr

inductive Failure where
  /-- The guard refused a frame (`is_refused`). -/
  | refused
  | io
  deriving DecidableEq, Repr

/-- What a poll of a reader answers: no bytes is the end of the stream. -/
inductive Polled (β : Type) where
  | pending
  | bytes (b : List β)
  | failed (e : Failure)
  deriving DecidableEq, Repr

/-- The bytes an answer hands the reader. -/
def Polled.handed : Polled β → List β
  | .bytes b => b
  | _ => []

namespace Socket

/-- One `poll_read` of the socket into a buffer with `room` bytes left. -/
def pollRead (s : Socket β) (room : Nat) : Polled β × Socket β :=
  match s.arrivals with
  | [] =>
      match s.last with
      | .quiet => (.pending, s)
      | .closed => (.bytes [], s)
      | .failed => (.failed .io, s)
  | .pending :: later => (.pending, { s with arrivals := later })
  | .data first rest :: later =>
      (.bytes ((first :: rest).take room),
        { s with arrivals := Arrival.left ((first :: rest).drop room) ++ later })

/-- The bytes a socket still has to give. -/
def bytes (s : Socket β) : List β := s.arrivals.flatMap Arrival.bytes

theorem pollRead_bytes {s s' : Socket β} {room : Nat} {b : List β}
    (eq : s.pollRead room = (.bytes b, s')) : s.bytes = b ++ s'.bytes := by
  obtain ⟨arrivals, last⟩ := s
  cases arrivals with
  | nil =>
      cases last <;> simp only [pollRead, Prod.mk.injEq, reduceCtorEq, false_and] at eq
      obtain ⟨hb, rfl⟩ := eq
      cases hb
      rfl
  | cons a later =>
      cases a with
      | pending => simp [pollRead] at eq
      | data first rest =>
          simp only [pollRead, Prod.mk.injEq, Polled.bytes.injEq] at eq
          obtain ⟨rfl, rfl⟩ := eq
          simp only [bytes, List.flatMap_cons, List.flatMap_append, Arrival.flatMap_left,
            ← List.append_assoc, List.take_append_drop]
          rfl

end Socket

/-- One turn of the guard's loop: it goes on, or the poll is answered. -/
inductive Turn (β : Type) where
  | again (g : Guard β) (s : Socket β)
  | done (g : Guard β) (s : Socket β) (r : Polled β)

namespace Guard

/-- Room for one read: `reserve` when too little of the allocation is left. -/
def reserve (g : Guard β) : Guard β :=
  if g.spare < 4096 then
    { g with spare := (Reserve.next g.reserves).room, reserves := g.reserves.tail }
  else g

/-- Read into `buf`'s spare capacity: nothing read is the end of the stream. -/
def fill (g : Guard β) (s : Socket β) : Turn β :=
  match s.pollRead g.spare with
  | (.bytes [], s) => .done g s (.bytes [])
  | (.bytes (b :: bs), s) =>
      .again { g with buf := g.buf ++ b :: bs, spare := g.spare - (bs.length + 1) } s
  | (.pending, s) => .done g s .pending
  | (.failed e, s) => .done g s (.failed e)

/-- More of the client's bytes are needed. -/
def more (g : Guard β) (s : Socket β) : Turn β := g.reserve.fill s

/-- One turn of the loop in `poll_read`, into a reader's buffer with `out` bytes left. -/
def turn [Octet β] (g : Guard β) (s : Socket β) (out : Nat) : Turn β :=
  if g.ready ≠ [] then
    let k := min g.ready.length out
    .done { g with ready := g.ready.drop k } s (.bytes (g.ready.take k))
  else
    match g.state with
    | .pass 0 | .skip 0 => .again { g with state := .header } s
    | .hold 0 => .again g.endHold s
    | .pass n =>
        if g.buf ≠ [] then
          let k := min (min n g.buf.length) out
          .done { g with buf := g.buf.drop k, state := .pass (n - k) } s (.bytes (g.buf.take k))
        else if out = 0 then .done g s (.bytes [])
        else
          match s.pollRead (min n out) with
          | (.bytes b, s) => .done { g with state := .pass (n - b.length) } s (.bytes b)
          | (.pending, s) => .done g s .pending
          | (.failed e, s) => .done g s (.failed e)
    | .hold n =>
        if g.buf ≠ [] then
          let k := min n g.buf.length
          let g := { g with
            hold := g.hold ++ g.buf.take k, buf := g.buf.drop k, state := .hold (n - k) }
          .again (if n = k then g.endHold else g) s
        else g.more s
    | .skip n =>
        if g.buf ≠ [] then
          let k := min n g.buf.length
          .again { g with buf := g.buf.drop k, state := .skip (n - k) } s
        else g.more s
    | .header =>
        if illegalLength g.buf then .done { g with hold := [] } s (.failed .refused)
        else
          match header g.buf with
          | some h => .again (g.decide h) s
          | none => g.more s

def rank : In → Nat
  | .header => 1
  | .pass (_ + 1) => 0
  | _ => 2

theorem rank_le (i : In) : rank i ≤ 2 := by unfold rank; split <;> omega

theorem rank_header : rank .header = 1 := rfl

theorem rank_pass {n : Nat} (h : n ≠ 0) : rank (.pass n) = 0 := by
  cases n with
  | zero => contradiction
  | succ n => rfl

/-- Bounds the turns a poll may still take: each moves bytes on or settles the state. -/
def work (g : Guard β) (s : Socket β) : Nat :=
  3 * (2 * s.bytes.length + g.buf.length) + rank g.state

@[simp] theorem endHold_buf (g : Guard β) : g.endHold.buf = g.buf := by
  unfold endHold; dsimp only; split <;> rfl

@[simp] theorem endHold_state (g : Guard β) : g.endHold.state = .header := by
  unfold endHold; dsimp only; split <;> rfl

@[simp] theorem holdFrame_buf (g : Guard β) (h : Header) :
    (g.holdFrame h).buf = g.buf.drop h.size := by
  unfold holdFrame; dsimp only; split <;> simp

/-- A decided frame leaves fewer bytes, or is about to be passed on. -/
theorem decide_work (g : Guard β) (h : Header) (s : Socket β) (state : g.state = .header)
    (size : 2 ≤ h.size ∧ h.size ≤ g.buf.length) : (g.decide h).work s < g.work s := by
  have passes : rank (.pass h.total) = 0 :=
    rank_pass (by simp only [Header.total, saturatingAdd, u64Max]; omega)
  have shorter : ∀ g' : Guard β, g'.buf = g.buf.drop h.size → g'.work s < g.work s := by
    intro g' buf
    have := rank_le g'.state
    simp only [work, buf, List.length_drop]
    omega
  unfold decide
  split
  · simp only [work, passes, state, rank_header]; omega
  split
  · split
    · split <;> exact shorter _ rfl
    · split
      · exact shorter _ rfl
      · exact shorter _ (holdFrame_buf _ h)
    · simp only [work, passes, state, rank_header]; omega
  · split
    · simp only [work, passes, state, rank_header]; omega
    · simp only [work, passes, state, rank_header]; omega
    · split
      · exact shorter _ rfl
      · split
        · simp only [work, passes, state, rank_header]; omega
        · exact shorter _ (holdFrame_buf _ h)

theorem reserve_spare (g : Guard β) : 0 < g.reserve.spare := by
  unfold reserve
  split
  · exact Nat.lt_of_lt_of_le (Nat.zero_lt_succ _) (Reserve.next g.reserves).enough
  · omega

theorem reserve_eq (g : Guard β) :
    g.reserve = { g with spare := g.reserve.spare, reserves := g.reserve.reserves } := by
  unfold reserve
  split <;> rfl

section Turns

variable [Octet β]

/-- More of the client's bytes are needed. -/
def Short (g : Guard β) : Prop :=
  match g.state with
  | .header => illegalLength g.buf = false ∧ header g.buf = none
  | .hold n | .skip n => n ≠ 0 ∧ g.buf = []
  | .pass _ => False

/-- What a turn comes to, by where the guard stands. -/
inductive Moves (g : Guard β) (s : Socket β) (out : Nat) : Turn β → Prop where
  | hands {k : Nat} (ready : g.ready ≠ []) (most : k = min g.ready.length out) :
      Moves g s out (.done { g with ready := g.ready.drop k } s (.bytes (g.ready.take k)))
  | ends (drained : g.ready = []) (state : g.state = .pass 0 ∨ g.state = .skip 0) :
      Moves g s out (.again { g with state := .header } s)
  | endsHold (drained : g.ready = []) (state : g.state = .hold 0) :
      Moves g s out (.again g.endHold s)
  | passes {n k : Nat} (drained : g.ready = []) (state : g.state = .pass n) (left : 0 < n)
      (buf : g.buf ≠ []) (most : k = min (min n g.buf.length) out) :
      Moves g s out
        (.done { g with buf := g.buf.drop k, state := .pass (n - k) } s (.bytes (g.buf.take k)))
  | full {n : Nat} (drained : g.ready = []) (state : g.state = .pass n) (none : out = 0) :
      Moves g s out (.done g s (.bytes []))
  | relays {n : Nat} {r : Polled β} {s' : Socket β} (drained : g.ready = [])
      (state : g.state = .pass n) (left : 0 < n) (empty : g.buf = []) (room : 0 < out)
      (read : s.pollRead (min n out) = (r, s')) :
      Moves g s out (.done { g with state := .pass (n - r.handed.length) } s' r)
  | holds {n k : Nat} (drained : g.ready = []) (state : g.state = .hold n) (left : 0 < n)
      (buf : g.buf ≠ []) (most : k = min n g.buf.length) {g' : Guard β}
      (held : g' = { g with
        hold := g.hold ++ g.buf.take k, buf := g.buf.drop k, state := .hold (n - k) }) :
      Moves g s out (.again (if n = k then g'.endHold else g') s)
  | skips {n k : Nat} (drained : g.ready = []) (state : g.state = .skip n) (left : 0 < n)
      (buf : g.buf ≠ []) (most : k = min n g.buf.length) :
      Moves g s out (.again { g with buf := g.buf.drop k, state := .skip (n - k) } s)
  | fills {spare : Nat} {reserves : List Reserve} {first : β} {rest : List β} {s' : Socket β}
      (drained : g.ready = []) (short : g.Short)
      (reserved : g.reserve = { g with spare := spare, reserves := reserves }) (room : 0 < spare)
      (read : s.pollRead spare = (.bytes (first :: rest), s')) :
      Moves g s out (.again { g with
        buf := g.buf ++ first :: rest, spare := spare - (rest.length + 1)
        reserves := reserves } s')
  | waits {spare : Nat} {reserves : List Reserve} {r : Polled β} {s' : Socket β}
      (drained : g.ready = []) (short : g.Short)
      (reserved : g.reserve = { g with spare := spare, reserves := reserves }) (room : 0 < spare)
      (read : s.pollRead spare = (r, s')) (nothing : r.handed = []) :
      Moves g s out (.done { g with spare := spare, reserves := reserves } s' r)
  | refuses (drained : g.ready = []) (state : g.state = .header)
      (illegal : illegalLength g.buf = true) :
      Moves g s out (.done { g with hold := [] } s (.failed .refused))
  | decides {h : Header} (drained : g.ready = []) (state : g.state = .header)
      (legal : illegalLength g.buf = false) (found : header g.buf = some h) :
      Moves g s out (.again (g.decide h) s)

variable {g g' : Guard β} {s s' : Socket β} {out : Nat}

theorem more_moves (drained : g.ready = []) (short : g.Short) : Moves g s out (g.more s) := by
  have reserved := g.reserve_eq
  have room := g.reserve_spare
  unfold more fill
  generalize g.reserve.spare = spare at reserved room
  generalize g.reserve.reserves = reserves at reserved
  rw [reserved]
  cases read : s.pollRead spare with
  | mk r s' =>
      cases r with
      | pending | failed => exact .waits drained short reserved room read rfl
      | bytes b =>
          cases b with
          | nil => exact .waits drained short reserved room read rfl
          | cons first rest => exact .fills drained short reserved room read

theorem moves (g : Guard β) (s : Socket β) (out : Nat) : Moves g s out (g.turn s out) := by
  unfold turn
  split
  · rename_i ready
    exact .hands ready rfl
  rename_i drained
  simp only [ne_eq, not_not] at drained
  split
  case h_1 state => exact .ends drained (.inl state)
  case h_2 state => exact .ends drained (.inr state)
  case h_3 state => exact .endsHold drained state
  case h_4 n pos state =>
    have left : 0 < n := Nat.pos_of_ne_zero pos
    split
    · rename_i buf
      exact .passes drained state left buf rfl
    rename_i empty
    simp only [ne_eq, not_not] at empty
    split
    · rename_i none
      exact .full drained state none
    rename_i some
    have relayed : ∀ {r s'}, s.pollRead (min n out) = (r, s') →
        Moves g s out (.done { g with state := .pass (n - r.handed.length) } s' r) := fun read =>
      .relays drained state left empty (Nat.pos_of_ne_zero some) read
    have same : ({ g with state := .pass (n - 0) } : Guard β) = g := by
      rw [Nat.sub_zero, ← state]
    cases read : s.pollRead (min n out) with
    | mk r s' =>
        have relayed := relayed read
        cases r with
        | bytes b => exact relayed
        | pending | failed =>
            simp only [Polled.handed, List.length_nil, same] at relayed
            exact relayed
  case h_5 n pos state =>
    have left : n ≠ 0 := pos
    split
    · rename_i buf
      exact .holds drained state (Nat.pos_of_ne_zero left) buf rfl rfl
    · rename_i empty
      simp only [ne_eq, not_not] at empty
      exact more_moves drained (by simp only [Short, state]; exact ⟨left, empty⟩)
  case h_6 n pos state =>
    have left : n ≠ 0 := pos
    split
    · rename_i buf
      exact .skips drained state (Nat.pos_of_ne_zero left) buf rfl
    · rename_i empty
      simp only [ne_eq, not_not] at empty
      exact more_moves drained (by simp only [Short, state]; exact ⟨left, empty⟩)
  case h_7 state =>
    split
    · rename_i illegal
      exact .refuses drained state illegal
    rename_i legal
    simp only [Bool.not_eq_true] at legal
    split
    · rename_i found
      exact .decides drained state legal found
    · rename_i none
      exact more_moves drained (by simp only [Short, state]; exact ⟨legal, none⟩)

theorem turn_again (eq : g.turn s out = .again g' s') : g'.work s' < g.work s := by
  have shorter : ∀ {n : Nat}, 0 < n → g.buf ≠ [] → ∀ g' : Guard β,
      g'.buf = g.buf.drop (min n g.buf.length) → g'.work s < g.work s := by
    intro n left buf g' rest
    have := List.length_pos_of_ne_nil buf
    have := rank_le g'.state
    simp only [work, rest, List.length_drop]
    omega
  have moves := g.moves s out
  rw [eq] at moves
  cases moves with
  | ends drained state =>
      obtain state | state := state <;> simp [work, state, rank]
  | endsHold drained state => simp [work, state, rank]
  | holds drained state left buf most held =>
      subst held most
      apply shorter left buf
      split <;> simp
  | skips drained state left buf most =>
      subst most
      exact shorter left buf _ rfl
  | fills drained short reserved room read =>
      have moved := Socket.pollRead_bytes read
      simp only [work, moved, List.length_append, List.length_cons]
      omega
  | decides drained state legal found => exact decide_work g _ s state (header_size found)

end Turns

/-- `AsyncRead::poll_read`: the loop, until a turn answers the poll. -/
def pollRead [Octet β] (g : Guard β) (s : Socket β) (out : Nat) :
    Guard β × Socket β × Polled β :=
  match _step : g.turn s out with
  | .done g s r => (g, s, r)
  | .again g s => g.pollRead s out
termination_by g.work s
decreasing_by exact turn_again _step

end Guard

end PlexusTransport.Ws
