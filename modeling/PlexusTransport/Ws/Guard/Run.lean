import PlexusTransport.Ws.Guard.Relay

/-! # Runs of polls

A run of polls hands on the front of what was ahead, and with enough polls all
of it (`reads_hands`, `reads_settled`): neither the socket's chunks nor the
reader's rooms matter.
-/

namespace PlexusTransport.Ws

variable {β : Type}

/-- The guard after a turn. -/
def Turn.guard : Turn β → Guard β
  | .again g _ => g
  | .done g _ _ => g

/-- The socket after a turn. -/
def Turn.socket : Turn β → Socket β
  | .again _ s => s
  | .done _ s _ => s

/-- A frame's bytes at the front of what is left of it. -/
theorem take_front {a r : List β} {k n : Nat} (small : k ≤ n) (inside : k ≤ a.length) :
    (a ++ r).take n = a.take k ++ (a.drop k ++ r).take (n - k) := by
  conv_lhs => rw [show n = k + (n - k) by omega, List.take_add, List.take_append_of_le_length inside,
    List.drop_append_of_le_length inside]

theorem drop_front {a r : List β} {k n : Nat} (small : k ≤ n) (inside : k ≤ a.length) :
    (a ++ r).drop n = (a.drop k ++ r).drop (n - k) := by
  conv_lhs => rw [show n = k + (n - k) by omega, ← List.drop_drop,
    List.drop_append_of_le_length inside]

namespace Socket

theorem pollRead_room {s s' : Socket β} {room : Nat} {r : Polled β}
    (eq : s.pollRead room = (r, s')) : r.handed.length ≤ room := by
  cases r with
  | pending | failed => exact Nat.zero_le _
  | bytes b =>
      obtain ⟨arrivals, last⟩ := s
      cases arrivals with
      | nil =>
          cases last <;> simp only [pollRead, Prod.mk.injEq, reduceCtorEq, false_and] at eq
          cases eq.1
          exact Nat.zero_le _
      | cons a later =>
          cases a with
          | pending => simp [pollRead] at eq
          | data first rest =>
              simp only [pollRead, Prod.mk.injEq, Polled.bytes.injEq] at eq
              rw [Polled.handed, ← eq.1, List.length_take]
              omega

theorem pollRead_handed {s s' : Socket β} {room : Nat} {r : Polled β}
    (eq : s.pollRead room = (r, s')) : s.bytes = r.handed ++ s'.bytes := by
  cases r with
  | bytes b => exact pollRead_bytes eq
  | pending | failed =>
      obtain ⟨arrivals, last⟩ := s
      cases arrivals with
      | nil => cases last <;> simp_all [pollRead, Polled.handed]
      | cons a later =>
          cases a with
          | pending =>
              simp only [pollRead, Prod.mk.injEq, reduceCtorEq, false_and] at eq <;>
              simp [← eq.2, bytes, Arrival.bytes, Polled.handed]
          | data first rest => simp [pollRead] at eq

/-- The polls the socket will answer pending before its end. -/
def waits (s : Socket β) : Nat :=
  s.arrivals.countP fun
    | .pending => true
    | .data _ _ => false

/-- How the socket answers a read with room. -/
def Answers (before after : Socket β) : Polled β → Prop
  | .bytes (_ :: _) => after.waits ≤ before.waits
  | .bytes [] => after.arrivals = [] ∧ after.last = .closed
  | .pending => after.waits < before.waits ∨ after.arrivals = [] ∧ after.last = .quiet
  | .failed e => e = .io ∧ after.arrivals = [] ∧ after.last = .failed

theorem pollRead_answers (s : Socket β) {room : Nat} (some : 0 < room) :
    s.Answers (s.pollRead room).2 (s.pollRead room).1 := by
  obtain ⟨arrivals, last⟩ := s
  cases arrivals with
  | nil => cases last <;> simp [pollRead, Answers]
  | cons a later =>
      cases a with
      | pending => simp [pollRead, Answers, waits]
      | data first rest =>
          obtain ⟨room, rfl⟩ : ∃ n, room = n + 1 := ⟨room - 1, by omega⟩
          simp only [pollRead, List.take_succ_cons, Answers, waits, List.countP_append]
          cases (first :: rest).drop (room + 1) <;> simp [Arrival.left]

end Socket

section Hands

variable [Octet β]

/-- What was ahead is handed over now or is still ahead. -/
def Turn.Hands (p : Played β) : Turn β → Prop
  | .again g s => g.ahead s.bytes = p
  | .done g s r => (g.ahead s.bytes).hand r.handed = p

namespace Guard

theorem ahead_congr {g g' : Guard β} {r r' : List β} (same : g'.buf ++ r' = g.buf ++ r)
    (cap : g'.cap = g.cap) (ready : g'.ready = g.ready) (hold : g'.hold = g.hold)
    (state : g'.state = g.state) (msg : g'.msg = g.msg) (release : g'.release = g.release)
    (dropped : g'.dropped = g.dropped) : g'.ahead r' = g.ahead r := by
  simp only [ahead, same, cap, ready, hold, state, msg, release, dropped]

theorem turn_hands (g : Guard β) (s : Socket β) (out : Nat) :
    (g.turn s out).Hands (g.ahead s.bytes) := by
  have moves := g.moves s out
  generalize g.turn s out = t at moves ⊢
  cases moves with
  | @hands k ready most =>
      have front := List.take_append_drop k g.ready
      simp only [Turn.Hands, ahead, Polled.handed, ← Played.count_hand, Played.hand_hand, front]
  | ends drained state =>
      obtain state | state := state <;> simp [Turn.Hands, ahead, state]
  | endsHold drained state =>
      simp only [Turn.Hands, ahead_endHold]
      simp [ahead, state]
  | @passes n k drained state left buf most =>
      have small : k ≤ n := by omega
      have inside : k ≤ g.buf.length := by omega
      simp only [Turn.Hands, ahead, drained, state, Polled.handed, take_front small inside,
        drop_front small inside, List.nil_append, ← Played.count_hand, Played.hand_hand]
  | full => simp [Turn.Hands, Polled.handed]
  | @relays n r s' drained state left empty room read =>
      have kept := Socket.pollRead_handed read
      have small : r.handed.length ≤ n := by
        have := Socket.pollRead_room read
        omega
      simp only [Turn.Hands, ahead, drained, state, empty, kept, List.nil_append,
        take_front small (Nat.le_refl _), drop_front small (Nat.le_refl _), List.take_length,
        List.drop_length, ← Played.count_hand, Played.hand_hand]
  | @holds n k drained state left buf most g' held =>
      have small : k ≤ n := by omega
      have inside : k ≤ g.buf.length := by omega
      have len : n ≤ (g.buf ++ s.bytes).length ↔ n - k ≤ (g.buf.drop k ++ s.bytes).length := by
        simp only [List.length_append, List.length_drop]
        omega
      have fits : (n ≤ (g.buf ++ s.bytes).length) = _ := propext len
      subst held
      dsimp only [Turn.Hands]
      split
      · rename_i all
        rw [ahead_endHold]
        simp only [ahead, state, fits, take_front small inside, drop_front small inside]
        simp [show n - k = 0 by omega]
      · simp only [ahead, state, fits, take_front small inside, drop_front small inside,
          List.append_assoc]
  | @skips n k drained state left buf most =>
      have small : k ≤ n := by omega
      have inside : k ≤ g.buf.length := by omega
      simp only [Turn.Hands, ahead, state, drop_front small inside]
  | fills drained short reserved room read =>
      have kept := Socket.pollRead_handed read
      refine ahead_congr ?_ rfl rfl rfl rfl rfl rfl rfl
      simp [kept, Polled.handed]
  | waits drained short reserved room read nothing =>
      have kept := Socket.pollRead_handed read
      rw [nothing, List.nil_append] at kept
      rw [Turn.Hands, nothing, Played.hand_nil, kept]
      exact ahead_congr rfl rfl rfl rfl rfl rfl rfl rfl
  | refuses drained state illegal =>
      simp [Turn.Hands, ahead, state, relay_illegal (illegalLength_append illegal _),
        Polled.handed]
  | decides drained state legal found => exact ahead_decide g state legal found _

theorem pollRead_done {g g' : Guard β} {s s' : Socket β} {out : Nat} {r : Polled β}
    (step : g.turn s out = .done g' s' r) : g.pollRead s out = (g', s', r) := by
  rw [pollRead]
  split <;> simp_all

theorem pollRead_again {g g' : Guard β} {s s' : Socket β} {out : Nat}
    (step : g.turn s out = .again g' s') : g.pollRead s out = g'.pollRead s' out := by
  rw [pollRead]
  split <;> simp_all

/-- What every turn keeps, a poll keeps, and ends with what its last turn gives. -/
theorem pollRead_keeps {out : Nat} (Keep : Guard β → Socket β → Prop)
    (End : Guard β → Socket β → Polled β → Prop)
    (again : ∀ {g s g' s'}, Keep g s → g.turn s out = .again g' s' → Keep g' s')
    (done : ∀ {g s g' s' r}, Keep g s → g.turn s out = .done g' s' r → End g' s' r)
    {g : Guard β} {s : Socket β} (start : Keep g s) :
    End (g.pollRead s out).1 (g.pollRead s out).2.1 (g.pollRead s out).2.2 := by
  cases step : g.turn s out with
  | done g' s' r =>
      rw [pollRead_done step]
      exact done start step
  | again g' s' =>
      have := turn_again step
      rw [pollRead_again step]
      exact pollRead_keeps Keep End again done (again start step)
termination_by g.work s

/-- What each turn keeps, a poll keeps. -/
theorem pollRead_invariant {out : Nat} (I : Guard β → Socket β → Prop)
    (turn : ∀ {g s}, I g s → I (g.turn s out).guard (g.turn s out).socket)
    {g : Guard β} {s : Socket β} (start : I g s) :
    I (g.pollRead s out).1 (g.pollRead s out).2.1 := by
  refine pollRead_keeps I (fun g s _ => I g s) ?_ ?_ start
  · intro g₁ s₁ g₂ s₂ kept step
    have turned := turn kept
    rwa [step] at turned
  · intro g₁ s₁ g₂ s₂ r kept step
    have turned := turn kept
    rwa [step] at turned

theorem pollRead_hands (g : Guard β) (s : Socket β) (out : Nat) :
    ((g.pollRead s out).1.ahead (g.pollRead s out).2.1.bytes).hand (g.pollRead s out).2.2.handed =
      g.ahead s.bytes := by
  refine pollRead_keeps (fun g' s' => g'.ahead s'.bytes = g.ahead s.bytes)
    (fun g' s' r => (g'.ahead s'.bytes).hand r.handed = g.ahead s.bytes) ?_ ?_ rfl
  · intro g₁ s₁ g₂ s₂ kept step
    have hands := turn_hands g₁ s₁ out
    rw [step] at hands
    exact hands.trans kept
  · intro g₁ s₁ g₂ s₂ r kept step
    have hands := turn_hands g₁ s₁ out
    rw [step] at hands
    exact hands.trans kept

/-- Nothing more will be handed on, or counted. -/
def Settled (g : Guard β) (s : Socket β) : Prop :=
  (g.ahead s.bytes).out = [] ∧ (g.ahead s.bytes).dropped = g.dropped

/-- How a poll into a reader with room ends: bytes, or the socket's own answer. -/
def Ends (before : Socket β) (g : Guard β) (s : Socket β) : Polled β → Prop
  | .bytes (_ :: _) => s.waits ≤ before.waits
  | .bytes [] => s.arrivals = [] ∧ s.last = .closed ∧ g.Settled s
  | .pending => s.waits < before.waits ∨ s.arrivals = [] ∧ s.last = .quiet ∧ g.Settled s
  | .failed .refused => g.Settled s
  | .failed .io => s.arrivals = [] ∧ s.last = .failed ∧ g.Settled s

/-- With no byte more, nothing is ahead, and no refusal. -/
def Dry (g : Guard β) : Prop := g.ahead [] = ⟨[], g.dropped, false⟩

/-- The frame at the front of `buf` is refused. -/
def Refuses (g : Guard β) : Prop :=
  g.ready = [] ∧ g.state = .header ∧ illegalLength g.buf = true

/-- `Ends`, with what it says of the guard in full. -/
def Stops (before : Socket β) (g : Guard β) (s : Socket β) : Polled β → Prop
  | .bytes (_ :: _) => s.waits ≤ before.waits
  | .bytes [] => s.arrivals = [] ∧ s.last = .closed ∧ g.Dry
  | .pending => s.waits < before.waits ∨ s.arrivals = [] ∧ s.last = .quiet ∧ g.Dry
  | .failed .refused => g.Refuses
  | .failed .io => s.arrivals = [] ∧ s.last = .failed ∧ g.Dry

theorem Dry.settled {g : Guard β} {s : Socket β} (dry : g.Dry) (empty : s.arrivals = []) :
    g.Settled s := by
  unfold Dry at dry
  simp [Settled, Socket.bytes, empty, dry]

theorem Refuses.ahead {g : Guard β} (refuses : g.Refuses) (r : List β) :
    g.ahead r = ⟨[], g.dropped, true⟩ := by
  obtain ⟨ready, state, illegal⟩ := refuses
  simp [Guard.ahead, state, ready, relay_illegal (illegalLength_append illegal _), Played.hand,
    Played.count]

theorem Stops.ends {before : Socket β} {g : Guard β} {s : Socket β} {r : Polled β}
    (stops : Stops before g s r) : Ends before g s r := by
  unfold Stops at stops
  split at stops
  · exact stops
  · exact ⟨stops.1, stops.2.1, stops.2.2.settled stops.1⟩
  · exact stops.imp_right fun dry => ⟨dry.1, dry.2.1, dry.2.2.settled dry.1⟩
  · simp [Ends, Settled, stops.ahead]
  · exact ⟨stops.1, stops.2.1, stops.2.2.settled stops.1⟩

theorem Stops.mono {before after : Socket β} (less : before.waits ≤ after.waits) {g : Guard β}
    {s : Socket β} {r : Polled β} (stops : Stops before g s r) : Stops after g s r := by
  unfold Stops at *
  split at stops
  · omega
  · exact stops
  · exact stops.imp_left (by omega)
  · exact stops
  · exact stops

/-- The socket's own answer, passed on: with no bytes in it nothing is ahead. -/
theorem stops_read {g' : Guard β} {s s' : Socket β} {n : Nat} {r : Polled β} (room : 0 < n)
    (read : s.pollRead n = (r, s')) (dry : r.handed = [] → g'.Dry) : Stops s g' s' r := by
  have answers := s.pollRead_answers room
  rw [read] at answers
  cases r with
  | bytes b =>
      cases b with
      | nil => exact ⟨answers.1, answers.2, dry rfl⟩
      | cons b bs => exact answers
  | pending => exact answers.imp_right fun a => ⟨a.1, a.2, dry rfl⟩
  | failed e =>
      obtain ⟨rfl, empty, last⟩ := answers
      exact ⟨empty, last, dry rfl⟩

theorem Short.dry {g : Guard β} (drained : g.ready = []) (short : g.Short) : g.Dry := by
  unfold Short at short
  cases state : g.state with
  | header =>
      simp only [state] at short
      simp [Dry, ahead, state, drained, relay_short short.1 short.2, Played.hand, Played.count]
  | pass n => simp [state] at short
  | hold n =>
      simp only [state] at short
      simp [Dry, ahead, state, drained, short.2, Played.hand, Played.count, short.1]
  | skip n =>
      simp only [state] at short
      simp [Dry, ahead, state, drained, short.2, Played.hand, Played.count]

theorem turn_stops {g g' : Guard β} {s s' : Socket β} {out : Nat} {r : Polled β} (room : 0 < out)
    (step : g.turn s out = .done g' s' r) : Stops s g' s' r := by
  have some : ∀ {b : List β}, b ≠ [] → ∀ {n : Nat}, 0 < n → Stops s g' s (.bytes (b.take n)) := by
    intro b ne n pos
    match b, n, ne, pos with
    | b :: bs, n + 1, _, _ => exact Nat.le_refl _
  have moves := g.moves s out
  rw [step] at moves
  cases moves with
  | hands ready most =>
      have := List.length_pos_of_ne_nil ready
      exact some ready (by omega)
  | passes drained state left buf most =>
      have := List.length_pos_of_ne_nil buf
      exact some buf (by omega)
  | full drained state none => omega
  | relays drained state left empty room read =>
      refine stops_read (by omega) read fun nothing => ?_
      simp [Dry, ahead, drained, empty, Played.hand, Played.count]
  | waits drained short reserved room read nothing =>
      exact stops_read room read fun _ => (ahead_congr rfl rfl rfl rfl rfl rfl rfl rfl).trans
        (short.dry drained)
  | refuses drained state illegal => exact ⟨drained, state, illegal⟩

theorem turn_waits {g g' : Guard β} {s s' : Socket β} {out : Nat}
    (step : g.turn s out = .again g' s') : s'.waits ≤ s.waits := by
  have moves := g.moves s out
  rw [step] at moves
  cases moves with
  | ends | endsHold | holds | skips | decides => exact Nat.le_refl _
  | fills drained short reserved room read =>
      have answers := s.pollRead_answers room
      rwa [read] at answers

theorem pollRead_stops (g : Guard β) (s : Socket β) {out : Nat} (room : 0 < out) :
    Stops s (g.pollRead s out).1 (g.pollRead s out).2.1 (g.pollRead s out).2.2 :=
  pollRead_keeps (fun _ s' => s'.waits ≤ s.waits) (Stops s)
    (fun kept step => (turn_waits step).trans kept)
    (fun kept step => (turn_stops room step).mono kept) (Nat.le_refl _)

theorem pollRead_ends (g : Guard β) (s : Socket β) {out : Nat} (room : 0 < out) :
    Ends s (g.pollRead s out).1 (g.pollRead s out).2.1 (g.pollRead s out).2.2 :=
  (pollRead_stops g s room).ends

omit [Octet β] in
theorem decide_dropped (g : Guard β) (h : Header) : g.dropped ≤ (g.decide h).dropped := by
  have held : ∀ g : Guard β, (g.holdFrame h).dropped = g.dropped := by
    intro g
    unfold holdFrame endHold
    grind
  unfold decide skipFrame
  grind

theorem turn_dropped (g : Guard β) (s : Socket β) (out : Nat) :
    g.dropped ≤ (g.turn s out).guard.dropped := by
  have held : ∀ g : Guard β, g.endHold.dropped = g.dropped := by
    intro g
    unfold endHold
    grind
  have moves := g.moves s out
  generalize g.turn s out = t at moves ⊢
  cases moves with
  | decides drained state legal found => exact g.decide_dropped _
  | endsHold => exact (held g).ge
  | holds drained state left buf most same =>
      subst same
      dsimp only [Turn.guard]
      split <;> simp [held]
  | _ => exact Nat.le_refl _

theorem pollRead_dropped (g : Guard β) (s : Socket β) (out : Nat) :
    g.dropped ≤ (g.pollRead s out).1.dropped :=
  pollRead_invariant (fun g' _ => g.dropped ≤ g'.dropped)
    (fun kept => kept.trans (turn_dropped _ _ out)) (Nat.le_refl _)

/-- A settled guard stays settled, and answers no bytes. -/
theorem pollRead_settled {g : Guard β} {s : Socket β} (settled : g.Settled s) (out : Nat) :
    (g.pollRead s out).1.Settled (g.pollRead s out).2.1 := by
  have hands := pollRead_hands g s out
  have grows := pollRead_dropped g s out
  obtain ⟨quiet, counted⟩ := settled
  rw [← hands] at quiet counted
  simp only [Played.hand_out, List.append_eq_nil_iff] at quiet
  simp only [Played.hand_dropped] at counted
  refine ⟨quiet.2, Nat.le_antisymm (counted ▸ grows) ?_⟩
  simp only [ahead, Played.count_dropped]
  omega

end Guard

/-- A run of polls: the guard and the socket after it, and the bytes handed on. -/
structure Reading (β : Type) where
  guard : Guard β
  socket : Socket β
  out : List β

namespace Guard

/-- Polls into readers with these many bytes of room, one after another. -/
def reads (g : Guard β) (s : Socket β) : List Nat → Reading β
  | [] => ⟨g, s, []⟩
  | room :: rooms =>
      let (g', s', r) := g.pollRead s room
      let later := g'.reads s' rooms
      { later with out := r.handed ++ later.out }

theorem reads_hands (g : Guard β) (s : Socket β) (rooms : List Nat) :
    ((g.reads s rooms).guard.ahead (g.reads s rooms).socket.bytes).hand (g.reads s rooms).out =
      g.ahead s.bytes := by
  induction rooms generalizing g s with
  | nil => simp [reads]
  | cons room rooms ih =>
      have first := pollRead_hands g s room
      rw [← ih, Played.hand_hand] at first
      exact first

/-- At every point of a run, what was handed on is the front of what was ahead. -/
theorem reads_front (g : Guard β) (s : Socket β) (rooms : List Nat) :
    (g.reads s rooms).out <+: (g.ahead s.bytes).out :=
  ⟨_, congrArg Played.out (reads_hands g s rooms)⟩

theorem reads_stay {g : Guard β} {s : Socket β} (settled : g.Settled s) (rooms : List Nat) :
    (g.reads s rooms).guard.Settled (g.reads s rooms).socket := by
  induction rooms generalizing g s with
  | nil => exact settled
  | cons room rooms ih => exact ih (pollRead_settled settled room)

/-- Every poll hands a byte on, takes a wait of the socket's, or finds nothing left. -/
theorem reads_settled (g : Guard β) (s : Socket β) {rooms : List Nat}
    (some : ∀ room ∈ rooms, 0 < room)
    (enough : (g.ahead s.bytes).out.length + s.waits < rooms.length) :
    (g.reads s rooms).guard.Settled (g.reads s rooms).socket := by
  induction rooms generalizing g s with
  | nil => simp at enough
  | cons room rooms ih =>
      have room' := some room (by simp)
      have ends := pollRead_ends g s room'
      have hands := pollRead_hands g s room
      have go : ((g.pollRead s room).1.ahead (g.pollRead s room).2.1.bytes).out.length +
          (g.pollRead s room).2.1.waits < rooms.length →
          (g.reads s (room :: rooms)).guard.Settled (g.reads s (room :: rooms)).socket :=
        fun less => ih _ _ (fun n mem => some n (by simp [mem])) less
      have stay : (g.pollRead s room).1.Settled (g.pollRead s room).2.1 →
          (g.reads s (room :: rooms)).guard.Settled (g.reads s (room :: rooms)).socket :=
        fun settled => reads_stay settled rooms
      rw [← hands] at enough
      simp only [Played.hand_out, List.length_append, List.length_cons] at enough
      unfold Ends at ends
      split at ends
      · rename_i same
        simp only [same, Polled.handed, List.length_cons] at enough
        apply go
        omega
      · exact stay ends.2.2
      · rcases ends with fewer | ⟨_, _, settled⟩
        · apply go
          omega
        · exact stay settled
      · exact stay ends
      · exact stay ends.2.2

theorem parse_bytes (input : List β) :
    ((parse input).frames.flatMap Frame.bytes) <+: input := by
  induction eq : input.length using Nat.strongRecOn generalizing input with
  | ind n ih =>
      cases legal : illegalLength input with
      | true => simp [parse_illegal legal]
      | false =>
          cases found : header input with
          | none => simp [parse_short legal found]
          | some h =>
              have size := header_size found
              obtain ⟨rest, split⟩ := ih (input.drop (h.size + h.len)).length
                (by simp only [List.length_drop]; omega) _ rfl
              refine ⟨rest, ?_⟩
              rw [parse_header legal found, List.flatMap_cons, List.append_assoc, split,
                List.take_append_drop]

omit [Octet β] in
theorem play_length (cap : UInt64) (refused : Bool) (msg : Msg) (hold : List β)
    (fs : List (Frame β)) :
    (play cap refused msg hold fs).out.length ≤ hold.length + (fs.flatMap Frame.bytes).length := by
  induction fs generalizing msg hold with
  | nil => simp [play]
  | cons f fs ih =>
      have held : (msg.held hold).length ≤ hold.length := by cases msg <;> simp [Msg.held]
      simp only [play, List.flatMap_cons, List.length_append]
      split
      · rename_i msg' _
        have := ih msg' hold
        simp only [Played.hand_out, List.length_append]
        omega
      · have := ih .none []
        simp only [Played.hand_out, List.length_append, List.length_nil] at this ⊢
        omega
      · rename_i total _
        split
        · split
          · have := ih .none []
            simp only [Played.hand_out, List.length_append, List.length_nil] at this ⊢
            omega
          · have := ih (.holding total) (msg.held hold ++ f.bytes)
            simp only [List.length_append] at this ⊢
            omega
        · simp
      · rename_i msg' _
        have := ih msg' []
        simp only [Played.count_out, List.length_nil] at this ⊢
        omega

theorem relay_length (cap : UInt64) (input : List β) :
    (relay cap .none [] input).out.length ≤ input.length := by
  have played := play_length cap (parse input).refused .none [] (parse input).frames
  have parsed := (parse_bytes input).length_le
  simp only [relay, List.length_nil] at played ⊢
  omega

/-- The polls with room that are sure to reach a socket's end. -/
def patience (s : Socket β) : Nat := s.bytes.length + s.waits

@[simp] theorem ahead_new (cap : UInt64) (reserves : List Reserve) (input : List β) :
    (new cap reserves).ahead input = relay cap .none [] input := by
  simp [ahead, new]

/-- A new guard, read long enough, hands on all it will: what `parse` and `play` say. -/
theorem reads_all (cap : UInt64) (reserves : List Reserve) (s : Socket β) {rooms : List Nat}
    (some : ∀ room ∈ rooms, 0 < room) (enough : patience s < rooms.length) :
    ((new cap reserves).reads s rooms).out = (relay cap .none [] s.bytes).out ∧
      ((new cap reserves).reads s rooms).guard.dropped = (relay cap .none [] s.bytes).dropped := by
  have short := relay_length cap s.bytes
  have settled := reads_settled (new cap reserves) s some (by
    rw [ahead_new]
    unfold patience at enough
    omega)
  have hands := reads_hands (new cap reserves) s rooms
  rw [ahead_new] at hands
  rw [← hands]
  exact ⟨by simp [settled.1], by simp [settled.2]⟩

end Guard

end Hands

end PlexusTransport.Ws
