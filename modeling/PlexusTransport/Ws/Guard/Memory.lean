import PlexusTransport.Lib.Machine
import PlexusTransport.Ws.Guard.Messages

/-! # What a guard keeps

The cap is compared with payload bytes, and a held fragment's header is kept too.
So the bytes a guard keeps are bounded by the cap, by the fragments without a payload
that a message has while it is held and by what the allocator leaves for a read, and by
nothing else the client sends.
-/

namespace PlexusTransport.Ws

variable {β : Type}

namespace DataMessage

/-- The fragments without a payload. -/
def empties (m : DataMessage β) : Nat := m.frames.countP fun f => f.header.len == 0

/-- The message some of whose first fragments these are. -/
def Begins (m whole : DataMessage β) : Prop :=
  m.cutIn = whole.cutIn ∧ m.frames <+: whole.frames

/-- Bytes that hold the fragments, their headers with them. -/
def room (m : DataMessage β) : Nat := 15 * m.total + 14 * m.empties

theorem room_add {m : DataMessage β} {f : Frame β} (size : f.header.size ≤ 14) :
    m.room + f.header.size + f.header.len ≤ (m.add f).room := by
  have more : (m.add f).empties = m.empties + if f.header.len = 0 then 1 else 0 := by
    simp [empties, add, List.countP_cons, List.countP_nil]
  rw [room, room, more, total_add]
  split <;> omega

theorem room_one {cutIn : Bool} {f : Frame β} (size : f.header.size ≤ 14) :
    f.header.size + f.header.len ≤ (DataMessage.mk cutIn [f]).room := by
  have first := room_add (m := ⟨cutIn, []⟩) size
  have none : (DataMessage.mk cutIn ([] : List (Frame β))).room = 0 := rfl
  rw [none, Nat.zero_add] at first
  exact first

end DataMessage

/-- No message has more than `n` fragments without a payload while it is within the
    cap. Those that cut in on another are not held. -/
def Sparse (cap : UInt64) (n : Nat) (ms : List (DataMessage β)) : Prop :=
  ∀ whole ∈ ms, whole.cutIn = false → ∀ m : DataMessage β, m.Begins whole →
    m.total ≤ cap.toNat → m.empties ≤ n

theorem messages_begins (m : DataMessage β) (fs : List (Frame β)) :
    ∃ whole ∈ messages (some m) fs, m.Begins whole := by
  have here : m.Begins m := ⟨rfl, List.prefix_rfl⟩
  induction fs generalizing m with
  | nil => exact ⟨m, by simp [messages], here⟩
  | cons f fs ih =>
      unfold messages
      split
      · exact ih m here
      split
      · have longer : m.Begins (m.add f) := ⟨rfl, List.prefix_append _ _⟩
        cases fin : f.header.fin with
        | true => exact ⟨m.add f, by simp [Frame.ends, fin], longer⟩
        | false =>
            obtain ⟨whole, mem, begins⟩ := ih (m.add f) ⟨rfl, List.prefix_rfl⟩
            refine ⟨whole, by simp [Frame.ends, Frame.leaves, fin, mem], ?_⟩
            exact ⟨begins.1, longer.2.trans begins.2⟩
      · exact ⟨m, by simp, here⟩

theorem Sparse.sub {cap : UInt64} {n : Nat} {ms fewer : List (DataMessage β)}
    (sparse : Sparse cap n ms) (sub : ∀ m ∈ fewer, m ∈ ms) : Sparse cap n fewer :=
  fun m mem => sparse m (sub m mem)

/-- A message has no more of them at first than in the end. -/
theorem sparse_whole {cap : UInt64} {n : Nat} {ms : List (DataMessage β)}
    (few : ∀ whole ∈ ms, whole.empties ≤ n) : Sparse cap n ms := by
  intro whole mem _ m begins _
  exact begins.2.sublist.countP_le.trans (few whole mem)

/-- A message that a frame adds to, ended or left open. -/
theorem Sparse.empties {cap : UInt64} {n : Nat} {m : DataMessage β} {f : Frame β}
    {fs : List (Frame β)} (sparse : Sparse cap n (f.ends m ++ messages (f.leaves m) fs))
    (held : m.cutIn = false) (fits : m.total ≤ cap.toNat) : m.empties ≤ n := by
  obtain ⟨whole, mem, begins⟩ : ∃ whole ∈ f.ends m ++ messages (f.leaves m) fs, m.Begins whole := by
    cases fin : f.header.fin with
    | true => exact ⟨m, by simp [Frame.ends, fin], rfl, List.prefix_rfl⟩
    | false =>
        obtain ⟨whole, mem, begins⟩ := messages_begins m fs
        exact ⟨whole, by simp [Frame.ends, Frame.leaves, fin, mem], begins⟩
  exact sparse whole mem (begins.1.symm.trans held) m begins fits

/-- What a guard between frames keeps of the open message. -/
def Bears (cap : UInt64) (msg : Msg) (held : Nat) : Option (DataMessage β) → Prop
  | none => msg = .none ∧ held = 0
  | some m =>
      if m.cutIn then msg = .none ∧ held = 0
      else msg = .holding m.total ∧ m.total ≤ cap.toNat ∧ held ≤ m.room ∨
        msg = .skipping ∧ cap.toNat < m.total ∧ held = 0

/-- What a guard keeps after a frame, and what may still come. -/
def Bearing (cap : UInt64) (n : Nat) (msg : Msg) (held : Nat) (fs : List (Frame β)) : Prop :=
  ∃ opened, Bears cap msg held opened ∧ Sparse cap n (messages opened fs)

/-- While a fragment of this message is held. -/
structure Holds (cap : UInt64) (n : Nat) (m : DataMessage β) (msg : Msg) (held : Nat)
    (last : Bool) (fs : List (Frame β)) : Prop where
  own : m.cutIn = false
  msg : msg = .holding m.total
  fits : m.total ≤ cap.toNat
  held : held ≤ m.room
  few : m.empties ≤ n
  later : Sparse cap n (messages (if last then none else some m) fs)

theorem Holds.room {cap : UInt64} {n held : Nat} {m : DataMessage β} {msg : Msg} {last : Bool}
    {fs : List (Frame β)} (holds : Holds cap n m msg held last fs) :
    held ≤ 15 * cap.toNat + 14 * n := by
  obtain ⟨own, msg, fits, held, few, later⟩ := holds
  rw [DataMessage.room] at held
  omega

/-- Nothing is held but by the message that is. -/
theorem Bearing.held {cap : UInt64} {n : Nat} {msg : Msg} {hold : List β} {fs : List (Frame β)}
    (bearing : Bearing cap n msg hold.length fs) : msg.held hold = hold := by
  obtain ⟨opened, bears, -⟩ := bearing
  cases msg with
  | holding len => rfl
  | none | skipping =>
      have nothing : hold.length = 0 := by
        cases opened with
        | none => exact bears.2
        | some m =>
            simp only [Bears] at bears
            split at bears
            · exact bears.2
            · simp_all
      exact (List.length_eq_zero_iff.mp nothing).symm

/-- What is held may be let go of. -/
theorem Bearing.clear {cap : UInt64} {n held : Nat} {msg : Msg} {fs : List (Frame β)}
    (bearing : Bearing cap n msg held fs) : Bearing cap n msg 0 fs := by
  obtain ⟨opened, bears, sparse⟩ := bearing
  refine ⟨opened, ?_, sparse⟩
  cases opened with
  | none => exact ⟨bears.1, rfl⟩
  | some m =>
      simp only [Bears] at bears ⊢
      split at bears
      · rename_i cutIn
        simpa [cutIn] using bears.1
      · rename_i own
        rw [if_neg own]
        rcases bears with ⟨holding, fits, _⟩ | ⟨skipping, past, _⟩
        · exact .inl ⟨holding, fits, Nat.zero_le _⟩
        · simpa [skipping] using past

theorem holds_add {cap : UInt64} {n held : Nat} {m : DataMessage β} {f : Frame β}
    {fs : List (Frame β)} (own : m.cutIn = false) (fits : m.total ≤ cap.toNat) (size : held ≤ m.room)
    (sparse : Sparse cap n (f.ends m ++ messages (f.leaves m) fs)) :
    Holds cap n m (.holding m.total) held f.header.fin fs := by
  refine ⟨own, rfl, fits, size, sparse.empties own fits, sparse.sub fun m mem => ?_⟩
  exact List.mem_append_right _ mem

theorem bears_cutIn (cap : UInt64) {m : DataMessage β} (cutIn : m.cutIn = true) (f : Frame β) :
    Bears cap .none 0 (f.leaves m) := by
  cases fin : f.header.fin <;> simp [Frame.leaves, fin, Bears, cutIn]

theorem bears_over {cap : UInt64} {m : DataMessage β} (own : m.cutIn = false)
    (past : cap.toNat < m.total) (f : Frame β) :
    Bears cap (if f.header.fin then .none else .skipping) 0 (f.leaves m) := by
  cases fin : f.header.fin <;> simp [Frame.leaves, fin, Bears, own, past]

/-- What the guard keeps after a frame, by the frame's fate. -/
def Bearing.After (cap : UInt64) (n held : Nat) (f : Frame β) (fs : List (Frame β)) : Fate → Prop
  | .pass msg => Bearing cap n msg held fs
  | .release => Bearing cap n .none 0 fs
  | .keep total =>
      ∃ m, Holds cap n m (.holding total) (held + f.header.size + f.header.len) f.header.fin fs
  | .drop _ msg => Bearing cap n msg 0 fs

/-- A frame of the message that is open. -/
theorem after_continuation {cap : UInt64} {n held : Nat} {msg : Msg} {f : Frame β}
    {fs : List (Frame β)} {m : DataMessage β} (size : f.header.size ≤ 14)
    (data : f.control = false) (opcode : f.header.opcode = 0)
    (bears : Bears cap msg held (some m))
    (sparse : Sparse cap n (f.ends (m.add f) ++ messages (f.leaves (m.add f)) fs)) :
    Bearing.After cap n held f fs (fate cap msg f.header) := by
  have later := sparse.sub fun m mem => List.mem_append_right _ mem
  have more := DataMessage.total_add m f
  have room := DataMessage.room_add (m := m) size
  unfold fate
  rw [if_neg (by simpa [Frame.control] using data), if_pos opcode]
  cases cutIn : m.cutIn with
  | true =>
      obtain ⟨rfl, rfl⟩ : msg = .none ∧ held = 0 := by simpa [Bears, cutIn] using bears
      exact ⟨_, bears_cutIn cap (m := m.add f) cutIn f, later⟩
  | false =>
      have own : (m.add f).cutIn = false := cutIn
      have stands : msg = .holding m.total ∧ m.total ≤ cap.toNat ∧ held ≤ m.room ∨
          msg = .skipping ∧ cap.toNat < m.total ∧ held = 0 := by simpa [Bears, cutIn] using bears
      rcases stands with ⟨rfl, _, small⟩ | ⟨rfl, past, rfl⟩
      · dsimp only
        by_cases fits : m.total + f.header.len ≤ cap.toNat
        · rw [if_pos fits, ← more]
          exact ⟨m.add f, holds_add own (by omega) (by omega) sparse⟩
        · rw [if_neg fits]
          exact ⟨_, bears_over own (by omega) f, later⟩
      · exact ⟨_, bears_over own (by omega) f, later⟩

/-- A frame that opens a message, with none open or one that is no concern of the guard's. -/
theorem after_opening {cap : UInt64} {n : Nat} {f : Frame β} {fs : List (Frame β)}
    (size : f.header.size ≤ 14) (data : f.control = false) (opcode : f.header.opcode ≠ 0)
    (sparse : Sparse cap n (f.ends ⟨false, [f]⟩ ++ messages (f.leaves ⟨false, [f]⟩) fs)) :
    Bearing.After cap n 0 f fs (fate cap .none f.header) := by
  have later := sparse.sub fun m mem => List.mem_append_right _ mem
  have total := DataMessage.total_one false f
  have room : f.header.size + f.header.len ≤ (DataMessage.mk false [f]).room :=
    DataMessage.room_one size
  unfold fate
  rw [if_neg (by simpa [Frame.control] using data), if_neg opcode]
  dsimp only
  by_cases past : cap.toNat < f.header.len
  · rw [if_pos past]
    exact ⟨_, bears_over rfl (by omega) f, later⟩
  · rw [if_neg past]
    cases fin : f.header.fin with
    | true =>
        rw [Frame.leaves, if_pos fin] at later
        exact ⟨none, ⟨rfl, rfl⟩, later⟩
    | false =>
        rw [if_neg (by simp), ← total]
        refine ⟨⟨false, [f]⟩, ?_⟩
        exact holds_add rfl (by omega) (by omega) sparse

theorem bearing_frame {cap : UInt64} {n : Nat} {msg : Msg} {held : Nat} {f : Frame β}
    {fs : List (Frame β)} (size : f.header.size ≤ 14) (bearing : Bearing cap n msg held (f :: fs)) :
    Bearing.After cap n held f fs (fate cap msg f.header) := by
  obtain ⟨opened, bears, sparse⟩ := bearing
  unfold messages at sparse
  cases control : f.control with
  | true =>
      rw [if_pos control] at sparse
      unfold fate
      rw [if_pos (by simpa [Frame.control] using control)]
      exact ⟨opened, bears, sparse⟩
  | false =>
      rw [if_neg (by simp [control])] at sparse
      by_cases opcode : f.header.opcode = 0
      · rw [if_pos opcode] at sparse
        cases opened with
        | none =>
            obtain ⟨rfl, rfl⟩ := bears
            unfold fate
            rw [if_neg (by simpa [Frame.control] using control), if_pos opcode]
            exact ⟨none, ⟨rfl, rfl⟩, sparse⟩
        | some m => exact after_continuation size control opcode bears sparse
      · rw [if_neg opcode] at sparse
        cases opened with
        | none =>
            obtain ⟨rfl, rfl⟩ := bears
            exact after_opening size control opcode sparse
        | some o =>
            have later := sparse.sub fun m mem => List.mem_append_right _ mem
            have new : Sparse cap n (f.ends ⟨!o.cutIn, [f]⟩ ++ messages (f.leaves ⟨!o.cutIn, [f]⟩) fs) := by
              apply sparse.sub
              intro m mem
              rw [List.append_assoc]
              exact List.mem_append_right _ mem
            cases cutIn : o.cutIn with
            | true =>
                obtain ⟨rfl, rfl⟩ : msg = .none ∧ held = 0 := by simpa [Bears, cutIn] using bears
                rw [cutIn] at new
                exact after_opening size control opcode new
            | false =>
                have cuts : (Option.some o).any (fun m => !m.cutIn) = true := by simp [cutIn]
                have after := bears_cutIn cap (m := ⟨_, [f]⟩) cuts f
                have stands : msg = .holding o.total ∧ o.total ≤ cap.toNat ∧ held ≤ o.room ∨
                    msg = .skipping ∧ cap.toNat < o.total ∧ held = 0 := by
                  simpa [Bears, cutIn] using bears
                unfold fate
                rw [if_neg (by simpa [Frame.control] using control), if_neg opcode]
                rcases stands with ⟨rfl, _, _⟩ | ⟨rfl, _, rfl⟩ <;> exact ⟨_, after, later⟩

section Turns

variable [Octet β]

theorem lengthField_size {second : UInt8} {rest : List β} {len size : Nat}
    (field : lengthField second rest = some (len, size)) : size ≤ 10 := by
  have short := (second &&& 0x7f).toNat_lt
  unfold lengthField at field
  grind

theorem header_small {b : List β} {h : Header} (found : header b = some h) : h.size ≤ 14 := by
  unfold header at found
  split at found
  · split at found
    · simp at found
    · rename_i field
      have := lengthField_size field
      dsimp only at found
      grind
  · simp at found

/-- A header is whole within fourteen bytes. -/
theorem header_none {b : List β} (none : header b = none) : b.length < 14 := by
  unfold header at none
  split at none
  · rename_i first second rest
    split at none
    · rename_i short
      unfold lengthField at short
      grind
    · rename_i field
      have := lengthField_size field
      dsimp only at none
      grind
  · rename_i short
    match b, short with
    | [], _ | [_], _ => simp
    | first :: second :: rest, short => exact absurd rfl (short first second rest)

/-- The bytes of the frame at hand that are still to come. -/
def In.left : In → Nat
  | .header => 0
  | .pass n | .hold n | .skip n => n

/-- Where a guard stands in a stream of which this is unread. -/
def Stands (cap : UInt64) (n : Nat) (msg : Msg) (held : Nat) (last : Bool) (state : In)
    (input : List β) : Prop :=
  match state with
  | .hold k => ∃ m, Holds cap n m msg (held + k) last (parse (input.drop k)).frames
  | state => Bearing cap n msg held (parse (input.drop state.left)).frames

namespace Guard

/-- The bytes the guard keeps: those it holds, those it has read, those it hands on next. -/
def keeps (g : Guard β) : Nat := g.hold.length + g.buf.length + g.ready.length

structure Roomy (cap : UInt64) (n most : Nat) (g : Guard β) (unread : List β) : Prop where
  capped : g.cap = cap
  buf : g.buf.length + g.spare ≤ most + 13
  atMost : Reserve.AtMost most g.reserves
  kept : g.hold.length + g.ready.length ≤ 15 * cap.toNat + 14 * n
  ready : g.ready = [] ∨ g.hold = []
  stands : Stands cap n g.msg g.hold.length g.release g.state (g.buf ++ unread)

variable {cap : UInt64} {n most : Nat} {g : Guard β} {s : Socket β}

/-- Nothing but the bytes still to come has changed. -/
theorem Roomy.unread {unread later : List β} (roomy : g.Roomy cap n most unread) (same : unread = later) :
    g.Roomy cap n most later := same ▸ roomy

theorem Short.small (short : g.Short) : g.buf.length ≤ 13 := by
  unfold Short at short
  split at short
  · have := header_none short.2
    omega
  · simp [short.2]
  · simp [short.2]
  · exact short.elim

theorem reserve_roomy (roomy : g.Roomy cap n most s.bytes) (short : g.Short) :
    g.reserve.Roomy cap n most s.bytes := by
  have small := short.small
  obtain ⟨capped, buf, atMost, kept, ready, stands⟩ := roomy
  have next := atMost.next
  unfold reserve
  split
  · exact ⟨capped, by dsimp only; omega, atMost.tail, kept, ready, stands⟩
  · exact ⟨capped, buf, atMost, kept, ready, stands⟩

theorem endHold_roomy (drained : g.ready = []) (capped : g.cap = cap)
    (buf : g.buf.length + g.spare ≤ most + 13)
    (atMost : Reserve.AtMost most g.reserves) {m : DataMessage β}
    (holds : Holds cap n m g.msg g.hold.length g.release (parse (g.buf ++ s.bytes)).frames) :
    g.endHold.Roomy cap n most s.bytes := by
  have room := holds.room
  obtain ⟨own, msg, fits, held, few, later⟩ := holds
  unfold endHold
  dsimp only
  split
  · rename_i last
    rw [if_pos last] at later
    refine ⟨capped, buf, atMost, ?_, .inr rfl, ⟨none, ⟨rfl, rfl⟩, later⟩⟩
    simpa [drained] using room
  · rename_i more
    rw [if_neg more] at later
    refine ⟨capped, buf, atMost, ?_, .inl drained, ⟨some m, ?_, later⟩⟩
    · simpa [drained] using room
    · simp only [Bears, own, Bool.false_eq_true, if_false]
      exact .inl ⟨msg, fits, held⟩

theorem holdFrame_roomy {h : Header} {m : DataMessage β} (drained : g.ready = [])
    (capped : g.cap = cap) (buf : g.buf.length + g.spare ≤ most + 13)
    (atMost : Reserve.AtMost most g.reserves)
    (size : h.size ≤ g.buf.length)
    (holds : Holds cap n m g.msg (g.hold.length + h.size + h.len) h.fin
      (parse ((g.buf ++ s.bytes).drop (h.size + h.len))).frames) :
    (g.holdFrame h).Roomy cap n most s.bytes := by
  have room := holds.room
  have rest : (g.buf ++ s.bytes).drop (h.size + h.len) =
      (g.buf.drop h.size ++ s.bytes).drop h.len := by
    rw [← List.drop_drop, List.drop_append_of_le_length size]
  rw [rest] at holds
  unfold holdFrame
  dsimp only
  split
  · rename_i empty
    rw [empty, List.drop_zero, Nat.add_zero] at holds
    apply endHold_roomy
    · exact drained
    · exact capped
    · simp only [List.length_drop]
      omega
    · exact atMost
    · simpa [size] using holds
  · refine ⟨capped, ?_, atMost, ?_, .inl drained, ⟨m, ?_⟩⟩
    · simp only [List.length_drop]
      omega
    · simp only [List.length_append, List.length_take, drained, List.length_nil]
      omega
    · simpa [size] using holds

theorem decide_roomy {h : Header} (roomy : g.Roomy cap n most s.bytes) (drained : g.ready = [])
    (state : g.state = .header) (legal : illegalLength g.buf = false) (found : header g.buf = some h) :
    (g.decide h).Roomy cap n most s.bytes := by
  obtain ⟨rfl, buf, atMost, kept, ready, stands⟩ := roomy
  have size := header_size found
  have stands : Bearing g.cap n g.msg g.hold.length (parse (g.buf ++ s.bytes)).frames := by
    rw [state] at stands
    exact stands
  have after := bearing_frame (header_small found) (parse_header
    ((illegalLength_header found s.bytes).trans legal) (header_append found s.bytes) ▸ stands)
  rw [decide_eq g h (header_legal found legal)]
  dsimp only at after
  cases fated : fate g.cap g.msg h with
  | pass msg =>
      rw [fated] at after
      exact ⟨rfl, buf, atMost, kept, ready, after⟩
  | release =>
      rw [fated] at after
      refine ⟨rfl, buf, atMost, ?_, .inr rfl, after⟩
      simpa [drained] using kept
  | keep total =>
      rw [fated] at after
      obtain ⟨m, holds⟩ := after
      dsimp only
      rw [stands.held]
      apply holdFrame_roomy
      · exact drained
      · rfl
      · exact buf
      · exact atMost
      · exact size.2
      · exact holds
  | drop counted msg =>
      rw [fated] at after
      have skipped : (g.buf ++ s.bytes).drop (h.size + h.len) =
          (g.buf.drop h.size ++ s.bytes).drop h.len := by
        rw [← List.drop_drop, List.drop_append_of_le_length size.2]
      rw [skipped] at after
      have roomy : ∀ hold : List β, hold = [] → Roomy g.cap n most
          { g.skipFrame h with hold := hold, msg := msg, dropped := g.dropped + counted.toNat }
          s.bytes := by
        intro hold none
        subst none
        refine ⟨rfl, ?_, atMost, ?_, .inr rfl, after⟩
        · simp only [skipFrame, List.length_drop]
          omega
        · simp [skipFrame, drained]
      apply roomy
      have held := stands.held
      cases msg : g.msg <;> simp_all [Msg.held]

theorem turn_roomy (roomy : g.Roomy cap n most s.bytes) (out : Nat) :
    (g.turn s out).guard.Roomy cap n most (g.turn s out).socket.bytes := by
  have moves := g.moves s out
  generalize g.turn s out = t at moves ⊢
  cases moves with
  | hands some most =>
      obtain ⟨capped, buf, atMost, kept, ready, stands⟩ := roomy
      have drained : g.hold = [] := ready.resolve_left some
      refine ⟨capped, buf, atMost, ?_, .inr drained, stands⟩
      simp only [Turn.guard, List.length_drop]
      omega
  | ends drained state =>
      obtain ⟨capped, buf, atMost, kept, ready, stands⟩ := roomy
      obtain state | state := state
      all_goals
        rw [state] at stands
        exact ⟨capped, buf, atMost, kept, ready, stands⟩
  | endsHold drained state =>
      obtain ⟨capped, buf, atMost, kept, ready, stands⟩ := roomy
      rw [state] at stands
      obtain ⟨m, holds⟩ := stands
      exact endHold_roomy drained capped buf atMost holds
  | @passes k l drained state left some most =>
      obtain ⟨capped, buf, atMost, kept, ready, stands⟩ := roomy
      rw [state] at stands
      have stands : Bearing cap n g.msg g.hold.length (parse ((g.buf ++ s.bytes).drop k)).frames :=
        stands
      have small : l ≤ k := by omega
      have inside : l ≤ g.buf.length := by omega
      rw [drop_front small inside] at stands
      refine ⟨capped, ?_, atMost, kept, ready, stands⟩
      simp only [Turn.guard, List.length_drop]
      omega
  | full => exact roomy
  | @relays k r s' drained state left empty room read =>
      obtain ⟨capped, buf, atMost, kept, ready, stands⟩ := roomy
      rw [state] at stands
      have stands : Bearing cap n g.msg g.hold.length (parse ((g.buf ++ s.bytes).drop k)).frames :=
        stands
      have came := Socket.pollRead_handed read
      have small : r.handed.length ≤ k := by
        have := Socket.pollRead_room read
        omega
      refine ⟨capped, buf, atMost, kept, ready, ?_⟩
      rw [empty, came, List.nil_append, drop_front small (Nat.le_refl _),
        List.drop_length] at stands
      simp only [Turn.guard, Turn.socket, empty]
      exact stands
  | @holds k l drained state left some most g' held =>
      obtain ⟨capped, buf, atMost, kept, ready, stands⟩ := roomy
      rw [state] at stands
      have small : l ≤ k := by omega
      have inside : l ≤ g.buf.length := by omega
      obtain ⟨m, holds⟩ := stands
      have room := holds.room
      rw [drop_front small inside] at holds
      subst held
      dsimp only [Turn.guard]
      split
      · rename_i all
        apply endHold_roomy
        · exact drained
        · exact capped
        · simp only [List.length_drop]
          omega
        · exact atMost
        · rw [← all, Nat.sub_self, List.drop_zero] at holds
          simpa [Turn.socket, ← all, show min k g.buf.length = k by omega] using holds
      · refine ⟨capped, ?_, atMost, ?_, .inl drained, ⟨m, ?_⟩⟩
        · simp only [List.length_drop]
          omega
        · simp only [List.length_append, List.length_take, drained, List.length_nil]
          omega
        · simp only [Turn.socket, List.length_append, List.length_take]
          rwa [show g.hold.length + min l g.buf.length + (k - l) = g.hold.length + k by omega]
  | @skips k l drained state left some most =>
      obtain ⟨capped, buf, atMost, kept, ready, stands⟩ := roomy
      rw [state] at stands
      have stands : Bearing cap n g.msg g.hold.length (parse ((g.buf ++ s.bytes).drop k)).frames :=
        stands
      have small : l ≤ k := by omega
      have inside : l ≤ g.buf.length := by omega
      rw [drop_front small inside] at stands
      refine ⟨capped, ?_, atMost, kept, ready, stands⟩
      simp only [Turn.guard, List.length_drop]
      omega
  | fills drained short reserved room read =>
      have came := Socket.pollRead_handed read
      have most := Socket.pollRead_room read
      have roomy := reserve_roomy roomy short
      rw [reserved] at roomy
      obtain ⟨capped, buf, atMost, kept, ready, stands⟩ := roomy
      refine ⟨capped, ?_, atMost, kept, ready, ?_⟩
      · simp only [Turn.guard, Polled.handed, List.length_append, List.length_cons] at most buf ⊢
        omega
      · simpa [Turn.guard, Turn.socket, came, Polled.handed] using stands
  | waits drained short reserved room read nothing =>
      have came := Socket.pollRead_handed read
      rw [nothing, List.nil_append] at came
      have roomy := reserve_roomy roomy short
      rw [reserved, came] at roomy
      exact roomy
  | refuses drained state illegal =>
      obtain ⟨capped, buf, atMost, kept, ready, stands⟩ := roomy
      rw [state] at stands
      have cleared := Bearing.clear stands
      refine ⟨capped, buf, atMost, ?_, .inr rfl, ?_⟩
      · simp [Turn.guard, drained]
      · rw [Turn.guard, state]
        exact cleared
  | decides drained state legal found => exact decide_roomy roomy drained state legal found

/-- A guard and its socket turn by turn, each turn into a reader's buffer with any room.
    A poll is some of these turns. -/
def turns (cap : UInt64) (reserves : List Reserve) (s : Socket β) :
    Machine (Guard β × Socket β) Nat where
  start := (new cap reserves, s)
  step := fun (g, s) out => some ((g.turn s out).guard, (g.turn s out).socket)

theorem turns_roomy {cap : UInt64} {n most : Nat} {reserves : List Reserve} {s : Socket β}
    (atMost : Reserve.AtMost most reserves)
    (sparse : Sparse cap n (messages none (parse s.bytes).frames)) {outs : List Nat}
    {t : Guard β × Socket β} (ran : (turns cap reserves s).run outs = some t) :
    t.1.Roomy cap n most t.2.bytes := by
  refine Machine.run_keeps (I := fun t => t.1.Roomy cap n most t.2.bytes) ?_ ?_ ran
  · have next := atMost.next
    refine ⟨rfl, ?_, atMost.tail, ?_, .inl rfl, none, ⟨rfl, rfl⟩, sparse⟩
    · simp only [turns, new, List.length_nil]
      omega
    · simp [turns, new]
  · intro t out t' roomy step
    cases step
    exact turn_roomy roomy out

theorem reads_roomy (roomy : g.Roomy cap n most s.bytes) (rooms : List Nat) :
    (g.reads s rooms).guard.Roomy cap n most (g.reads s rooms).socket.bytes := by
  induction rooms generalizing g s with
  | nil => exact roomy
  | cons room rooms ih =>
      apply ih
      exact pollRead_invariant (fun g s => g.Roomy cap n most s.bytes)
        (fun roomy => turn_roomy roomy room) roomy

theorem Roomy.keeps (roomy : g.Roomy cap n most s.bytes) :
    g.keeps ≤ 15 * cap.toNat + 14 * n + (most + 13) := by
  have buf := roomy.buf
  have kept := roomy.kept
  unfold Guard.keeps
  omega

end Guard

/-- Whatever a client sends, as long as its messages have at most `n` fragments without
    a payload while within the cap, the bytes the guard keeps stay below a bound of the
    cap, `n` and the most a reservation leaves, at every turn and after every poll. -/
theorem guard_memory (cap : UInt64) (n most : Nat) (reserves : List Reserve)
    (atMost : Reserve.AtMost most reserves) (s : Socket β)
    (sparse : Sparse cap n (messages none (parse s.bytes).frames)) :
    (∀ outs t, (Guard.turns cap reserves s).run outs = some t →
      t.1.keeps ≤ 15 * cap.toNat + 14 * n + (most + 13)) ∧
    ∀ rooms, ((Guard.new cap reserves).reads s rooms).guard.keeps ≤
      15 * cap.toNat + 14 * n + (most + 13) := by
  constructor
  · intro outs t ran
    exact (Guard.turns_roomy atMost sparse ran).keeps
  · intro rooms
    have start := Guard.turns_roomy atMost sparse
      (rfl : (Guard.turns cap reserves s).run [] = some (Guard.new cap reserves, s))
    exact (Guard.reads_roomy start rooms).keeps

end Turns

namespace Guard

theorem more_data (g : Guard β) (first : β) {rest : List β} (later : List (Arrival β)) (last : Last)
    (fits : rest.length < 4096) :
    ∃ spare reserves, g.more ⟨.data first rest :: later, last⟩ =
      .again { g with buf := g.buf ++ first :: rest, spare := spare, reserves := reserves }
        ⟨later, last⟩ := by
  obtain ⟨spare, reserves, reserved, room⟩ : ∃ spare reserves,
      g.reserve = { g with spare := spare, reserves := reserves } ∧
        (first :: rest).length ≤ spare := by
    have enough := (Reserve.next g.reserves).enough
    rw [List.length_cons]
    unfold reserve
    split
    · exact ⟨_, _, rfl, by omega⟩
    · exact ⟨g.spare, g.reserves, rfl, by omega⟩
  refine ⟨spare - (rest.length + 1), reserves, ?_⟩
  simp only [more, reserved, fill, Socket.pollRead, List.take_of_length_le room,
    List.drop_of_length_le room, Arrival.left, List.nil_append]

/-- Between frames, with nothing read and nothing to hand on. -/
structure Idle (g : Guard β) : Prop where
  ready : g.ready = []
  buf : g.buf = []
  state : g.state = .header

/-- A fragment without a payload that is kept: its header is held. -/
theorem pollRead_keep [Octet β] {g : Guard β} (idle : g.Idle) (first : β) (rest : List β)
    {h : Header} {total : Nat} (legal : illegalLength (first :: rest) = false)
    (found : header (first :: rest) = some h) (whole : h.size = (first :: rest).length)
    (empty : h.len = 0) (more : h.fin = false) (kept : fate g.cap g.msg h = .keep total)
    (later : List (Arrival β)) (last : Last) (out : Nat) :
    ∃ g' : Guard β, g.pollRead ⟨.data first rest :: later, last⟩ out =
        g'.pollRead ⟨later, last⟩ out ∧
      g'.Idle ∧ g'.cap = g.cap ∧ g'.msg = .holding total ∧
        g'.hold = g.msg.held g.hold ++ first :: rest := by
  have small := header_small found
  have short : rest.length < 4096 := by
    rw [List.length_cons] at whole
    omega
  obtain ⟨spare, reserves, read⟩ := g.more_data first later last short
  have none : header ([] : List β) = none := rfl
  have turned : g.turn ⟨.data first rest :: later, last⟩ out =
      g.more ⟨.data first rest :: later, last⟩ := by
    simp [turn, idle.ready, idle.state, idle.buf, illegalLength, none]
  rw [pollRead_again (turned.trans read)]
  obtain ⟨cap, _, _, hold, _, msg, release, dropped, _, _⟩ := g
  obtain ⟨rfl, rfl, rfl⟩ := idle
  refine ⟨⟨cap, [], [], msg.held hold ++ first :: rest, .header, .holding total, false, dropped,
    spare, reserves⟩, pollRead_again ?_, ⟨rfl, rfl, rfl⟩, rfl, rfl, rfl⟩
  have decided := decide_eq
    ⟨cap, first :: rest, [], hold, .header, msg, release, dropped, spare, reserves⟩ h
    (header_legal found legal)
  dsimp only at kept decided
  rw [kept] at decided
  simp only [turn, ne_eq, not_true, if_false, List.nil_append, legal, Bool.false_eq_true, found,
    decided, holdFrame, whole, List.take_length, List.drop_length, empty, if_true, endHold, more]

end Guard

/-- A fragment of a text, one without a payload, and part of a third. -/
def broken : Socket UInt8 :=
  ⟨[.data 0x01 [0x01, 0x61, 0x00], .pending, .data 0x00 [0x00, 0x02, 0x62]], .quiet⟩

/-- The first allocation, and what it may grow to. -/
def growing : List Reserve := [.least, .grown]

theorem guard_memory_broken :
    ((Guard.new 4 growing).reads broken [7, 7, 7]).guard.keeps ≤ 12374 := by
  have few : ∀ whole ∈ messages none (parse broken.bytes).frames, whole.empties ≤ 1 := by
    decide +kernel
  have atMost : Reserve.AtMost 12287 growing := by
    refine ⟨by decide, ?_⟩
    decide
  exact (guard_memory 4 1 12287 growing atMost broken (sparse_whole few)).2 [7, 7, 7]

/-- A message with this many fragments after its first, none with a payload, and more to come. -/
def hollow (k : Nat) : Socket UInt8 where
  arrivals := .data 0x01 [0x80, 0x01, 0x02, 0x03, 0x04] ::
    List.replicate k (.data 0x00 [0x80, 0x01, 0x02, 0x03, 0x04])
  last := .quiet

theorem hollow_held {g : Guard UInt8} (idle : g.Idle) (msg : g.msg = .holding 0) (k out : Nat) :
    (g.pollRead ⟨List.replicate k (.data 0x00 [0x80, 0x01, 0x02, 0x03, 0x04]), .quiet⟩
      out).1.hold.length = g.hold.length + 6 * k := by
  induction k generalizing g with
  | zero =>
      have none : header ([] : List UInt8) = none := rfl
      have turned : g.turn ⟨[], .quiet⟩ out = .done g.reserve ⟨[], .quiet⟩ .pending := by
        simp [Guard.turn, idle.ready, idle.state, idle.buf, illegalLength, none, Guard.more,
          Guard.fill, Socket.pollRead]
      have same : g.reserve.hold = g.hold := by
        unfold Guard.reserve
        split <;> rfl
      rw [List.replicate_zero, Guard.pollRead_done turned, same]
      rfl
  | succ k ih =>
      have kept : fate g.cap g.msg ⟨false, 0, 0, 6⟩ = .keep 0 := by simp [fate, msg]
      obtain ⟨g', read, idle', _, msg', hold'⟩ := Guard.pollRead_keep idle
        0x00 [0x80, 0x01, 0x02, 0x03, 0x04] (by decide +kernel) (by decide +kernel) rfl rfl rfl kept
        (List.replicate k _) .quiet out
      rw [List.replicate_succ, read, ih idle' msg', hold', msg]
      simp only [Msg.held, List.length_append, List.length_cons, List.length_nil]
      omega

/-- Fragments without a payload are held without end, whatever the cap. -/
theorem hollow_keeps (cap : UInt64) (reserves : List Reserve) (k : Nat) :
    6 * k ≤ ((Guard.new cap reserves).reads (hollow k) [1]).guard.keeps := by
  have idle : (Guard.new cap reserves : Guard UInt8).Idle := ⟨rfl, rfl, rfl⟩
  have data : (1 : UInt8) &&& 8 = 0 := rfl
  have kept : fate cap .none ⟨false, 1, 0, 6⟩ = .keep 0 := by simp [fate, data]
  obtain ⟨g, read, idle', _, msg, hold⟩ := Guard.pollRead_keep idle
    0x01 [0x80, 0x01, 0x02, 0x03, 0x04] (by decide +kernel) (by decide +kernel) rfl rfl rfl kept
    (List.replicate k (.data 0x00 [0x80, 0x01, 0x02, 0x03, 0x04])) .quiet 1
  have held := hollow_held idle' msg k 1
  rw [← read] at held
  change 6 * k ≤ ((Guard.new cap reserves).pollRead (hollow k) 1).1.keeps
  unfold Guard.keeps
  unfold hollow
  omega

theorem guard_memory_hollow :
    ¬ ∃ bound : UInt64 → Nat, ∀ (cap : UInt64) (s : Socket UInt8) (rooms : List Nat),
      ((Guard.new cap []).reads s rooms).guard.keeps ≤ bound cap := by
  intro ⟨bound, below⟩
  have kept := hollow_keeps 0 [] (bound 0 + 1)
  have small := below 0 (hollow (bound 0 + 1)) [1]
  omega

end PlexusTransport.Ws
