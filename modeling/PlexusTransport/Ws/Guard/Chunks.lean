import PlexusTransport.Ws.Guard.Messages

/-! # Chunks do not matter

Two runs over one stream, each read on to its end or to the guard's refusal,
hand on the same bytes, count the same drops and end alike, whatever the stream.
-/

namespace PlexusTransport.Ws

variable {β : Type}

theorem Socket.pollRead_last (s : Socket β) (room : Nat) : (s.pollRead room).2.last = s.last := by
  obtain ⟨arrivals, last⟩ := s
  cases arrivals with
  | nil => cases last <;> rfl
  | cons a later => cases a <;> rfl

section Ending

variable [Octet β]

namespace Guard

/-- How a run of polls ends, once it does: at the stream's end, or refused. -/
def ending (g : Guard β) (s : Socket β) : List Nat → Option Bool
  | [] => none
  | room :: rooms =>
      match g.pollRead s room with
      | (_, _, .bytes []) => some false
      | (_, _, .failed .refused) => some true
      | (g, s, _) => g.ending s rooms

theorem turn_last (g : Guard β) (s : Socket β) (out : Nat) :
    (g.turn s out).socket.last = s.last := by
  have answered : ∀ {n r s'}, s.pollRead n = (r, s') → s'.last = s.last := by
    intro n r s' read
    have kept := s.pollRead_last n
    rwa [read] at kept
  have moves := g.moves s out
  generalize g.turn s out = t at moves ⊢
  cases moves with
  | relays drained state left empty room read => exact answered read
  | fills drained short reserved room read => exact answered read
  | waits drained short reserved room read nothing => exact answered read
  | _ => rfl

theorem pollRead_last (g : Guard β) (s : Socket β) (out : Nat) :
    (g.pollRead s out).2.1.last = s.last :=
  pollRead_invariant (fun _ s' => s'.last = s.last)
    (fun kept => (turn_last _ _ out).trans kept) rfl

/-- Read long enough, a run over a stream that ends does. -/
theorem ending_reached (g : Guard β) (s : Socket β) {rooms : List Nat} (closed : s.last = .closed)
    (some : ∀ room ∈ rooms, 0 < room)
    (enough : (g.ahead s.bytes).out.length + s.waits < rooms.length) :
    ∃ refused, g.ending s rooms = Option.some refused := by
  induction rooms generalizing g s with
  | nil => simp at enough
  | cons room rooms ih =>
      have stops := pollRead_stops g s (some room (by simp))
      have hands := pollRead_hands g s room
      have last := (pollRead_last g s room).trans closed
      have onward := fun less => ih (g.pollRead s room).1 (g.pollRead s room).2.1 last
        (fun r mem => some r (by simp [mem])) less
      rw [← hands, Played.hand_out, List.length_append, List.length_cons] at enough
      unfold ending
      generalize g.pollRead s room = polled at stops onward last enough
      obtain ⟨g', s', r⟩ := polled
      have still : s'.last = .closed := last
      dsimp only at onward enough
      cases r with
      | pending =>
          apply onward
          rcases stops with fewer | ⟨-, quiet, -⟩
          · have waits : s'.waits < s.waits := fewer
            simp only [Polled.handed, List.length_nil] at enough
            omega
          · cases still.symm.trans quiet
      | bytes b =>
          cases b with
          | nil => exact ⟨_, rfl⟩
          | cons b bs =>
              apply onward
              have waits : s'.waits ≤ s.waits := stops
              simp only [Polled.handed, List.length_cons] at enough
              omega
      | failed e =>
          cases e with
          | refused => exact ⟨_, rfl⟩
          | io => cases still.symm.trans stops.2.1

/-- A guard that has refused refuses again, and moves nothing. -/
theorem pollRead_refused {g : Guard β} (refuses : g.Refuses) (s : Socket β) (room : Nat) :
    g.pollRead s room = ({ g with hold := [] }, s, .failed .refused) := by
  obtain ⟨ready, state, illegal⟩ := refuses
  apply pollRead_done
  simp [turn, ready, state, illegal]

theorem reads_refused {g : Guard β} (refuses : g.Refuses) (s : Socket β) (rooms : List Nat) :
    (g.reads s rooms).guard.Refuses ∧ (g.reads s rooms).out = [] := by
  induction rooms generalizing g with
  | nil => exact ⟨refuses, rfl⟩
  | cons room rooms ih =>
      have again : ({ g with hold := [] } : Guard β).Refuses := refuses
      have later := ih again
      simp only [reads, pollRead_refused refuses, Polled.handed, List.nil_append]
      exact later

/-- A run that ends has handed on and counted all there was, and ends as the stream does. -/
theorem ending_settled {g : Guard β} {s : Socket β} {rooms : List Nat}
    (some : ∀ room ∈ rooms, 0 < room) {refused : Bool}
    (ended : g.ending s rooms = Option.some refused) :
    (g.reads s rooms).guard.Settled (g.reads s rooms).socket ∧
      (g.ahead s.bytes).refused = refused ∧
        (refused = true → (g.reads s rooms).guard.Refuses) := by
  induction rooms generalizing g s with
  | nil => cases ended
  | cons room rooms ih =>
      have stops := pollRead_stops g s (some room (by simp))
      have hands := congrArg Played.refused (pollRead_hands g s room)
      have onward : (g.pollRead s room).1.ending (g.pollRead s room).2.1 rooms =
          Option.some refused → _ := ih fun r mem => some r (by simp [mem])
      simp only [Played.hand_refused] at hands
      rw [← hands]
      simp only [reads]
      unfold ending at ended
      generalize g.pollRead s room = polled at stops onward ended
      obtain ⟨g', s', r⟩ := polled
      cases r with
      | pending => exact onward ended
      | bytes b =>
          cases b with
          | cons b bs => exact onward ended
          | nil =>
              cases ended
              obtain ⟨empty, -, dry⟩ := stops
              refine ⟨reads_stay (dry.settled empty) rooms, ?_, by simp⟩
              have drained : s'.arrivals = [] := empty
              have nothing : s'.bytes = [] := by simp [Socket.bytes, drained]
              rw [nothing, dry]
      | failed e =>
          cases e with
          | io => exact onward ended
          | refused =>
              cases ended
              have refuses : g'.Refuses := stops
              have settled : g'.Settled s' := by simp [Settled, refuses.ahead]
              exact ⟨reads_stay settled rooms, by rw [refuses.ahead],
                fun _ => (reads_refused refuses s' rooms).1⟩

end Guard

/-- Before a frame whose length is illegal, every frame is whole. -/
theorem parse_refused {input : List β} (refused : (parse input).refused = true) :
    (∀ f ∈ (parse input).frames, f.Whole) ∧
      ∃ rest, illegalLength rest = true ∧
        input = (parse input).frames.flatMap Frame.bytes ++ rest := by
  induction eq : input.length using Nat.strongRecOn generalizing input with
  | ind n ih =>
      cases legal : illegalLength input with
      | true =>
          rw [parse_illegal legal]
          exact ⟨by simp, input, legal, rfl⟩
      | false =>
          cases found : header input with
          | none =>
              rw [parse_short legal found] at refused
              cases refused
          | some h =>
              have size := header_size found
              rw [parse_header legal found] at refused ⊢
              have whole : h.size + h.len ≤ input.length := by
                refine Nat.le_of_not_lt fun short => ?_
                rw [List.drop_eq_nil_of_le (by omega), parse_nil] at refused
                cases refused
              obtain ⟨all, rest, illegal, split⟩ := ih (input.drop (h.size + h.len)).length
                (by simp only [List.length_drop]; omega) refused rfl
              refine ⟨?_, rest, illegal, ?_⟩
              · intro f mem
                rcases List.mem_cons.mp mem with rfl | mem
                · simp [Frame.Whole, whole]
                · exact all f mem
              · rw [List.flatMap_cons, List.append_assoc, ← split, List.take_append_drop]

end Ending

theorem play_refused (cap : UInt64) (refused : Bool) (msg : Msg) (hold : List β)
    (fs : List (Frame β)) : (play cap refused msg hold fs).refused = refused := by
  induction fs generalizing msg hold with
  | nil => rfl
  | cons f fs ih =>
      simp only [play]
      split
      · exact ih _ _
      · exact ih _ _
      · split
        · split <;> exact ih _ _
        · rfl
      · exact ih _ _

/-- The bytes of the message left open, if the guard holds it. -/
def unfinished (cap : UInt64) : Option (DataMessage β) → List β
  | none => []
  | some m => if m.cutIn || m.overCap cap then [] else m.bytes

section Whole

variable [DecidableEq β]

/-- Every byte of whole frames is handed on, or a dropped message's, or held. -/
theorem play_whole (cap : UInt64) (refused : Bool) {msg : Msg} {hold : List β}
    {opened : Option (DataMessage β)} {fs : List (Frame β)} (all : ∀ f ∈ fs, f.Whole)
    (minds : Minds cap msg hold opened) (b : β) :
    (play cap refused msg hold fs).out.count b +
        ((lost cap opened fs).flatMap (·.bytes)).count b +
          (unfinished cap (opening opened fs)).count b =
      (kept opened).count b + (fs.flatMap Frame.bytes).count b := by
  induction fs generalizing msg hold opened with
  | nil =>
      cases opened with
      | none => simp [play, lost, messages, opening, unfinished, kept]
      | some m =>
          cases cutIn : m.cutIn <;> cases tooLong : m.overCap cap <;>
            simp [play, lost, messages, opening, unfinished, kept, cutIn, tooLong]
          rw [within_cutIn cutIn] at tooLong
          cases tooLong
  | cons f fs ih =>
      have whole := all f (by simp)
      have last : fs = [] ∨ f.Whole := .inr whole
      obtain ⟨j, judged⟩ := judge cap refused last minds
      have later := ih (fun g mem => all g (by simp [mem])) judged.minds
      have step := judged.whole whole b
      simp only [lost] at later
      simp only [lost, judged.played, judged.grouped, judged.opens, Played.count_out,
        Played.hand_out, List.filter_append, List.flatMap_append, List.flatMap_cons,
        List.count_append]
      omega

variable [Octet β]

/-- Read long enough, a run over a stream that ends does. Two runs over one stream that end
    hand on the same, count the same and end alike. Refused, the guard handed on every byte
    before the refused frame but those of the messages over the cap and of an unfinished one it
    holds, and hands on nothing more. -/
theorem guard_chunks (cap : UInt64) :
    (∀ (reserves : List Reserve) (s : Socket β) (rooms : List Nat), s.last = .closed →
      (∀ room ∈ rooms, 0 < room) → Guard.patience s < rooms.length →
        ∃ refused, (Guard.new cap reserves).ending s rooms = some refused) ∧
    ∀ (reserves₁ reserves₂ : List Reserve) (s₁ s₂ : Socket β) (rooms₁ rooms₂ : List Nat),
      s₁.bytes = s₂.bytes →
      (∀ room ∈ rooms₁, 0 < room) → (∀ room ∈ rooms₂, 0 < room) → ∀ refused₁ refused₂ : Bool,
        (Guard.new cap reserves₁).ending s₁ rooms₁ = some refused₁ →
        (Guard.new cap reserves₂).ending s₂ rooms₂ = some refused₂ →
          ((Guard.new cap reserves₁).reads s₁ rooms₁).out =
            ((Guard.new cap reserves₂).reads s₂ rooms₂).out ∧
          ((Guard.new cap reserves₁).reads s₁ rooms₁).guard.dropped =
            ((Guard.new cap reserves₂).reads s₂ rooms₂).guard.dropped ∧
          refused₁ = refused₂ ∧
          (refused₁ = true →
            (∃ before rest, s₁.bytes = before ++ rest ∧ illegalLength rest = true ∧
              before = (parse s₁.bytes).frames.flatMap Frame.bytes ∧
              (((Guard.new cap reserves₁).reads s₁ rooms₁).out ++
                (lost cap none (parse s₁.bytes).frames).flatMap (·.bytes) ++
                  unfinished cap (opening none (parse s₁.bytes).frames)).Perm before) ∧
            ∀ more room,
              let later := ((Guard.new cap reserves₁).reads s₁ rooms₁).guard.reads
                ((Guard.new cap reserves₁).reads s₁ rooms₁).socket more
              later.out = [] ∧
                (later.guard.pollRead later.socket room).2.2 = .failed .refused) := by
  constructor
  · intro reserves s rooms closed some enough
    refine Guard.ending_reached (Guard.new cap reserves) s closed some ?_
    have short := Guard.relay_length cap s.bytes
    rw [Guard.ahead_new]
    unfold Guard.patience at enough
    omega
  intro reserves₁ reserves₂ s₁ s₂ rooms₁ rooms₂ same some₁ some₂ refused₁ refused₂ ended₁ ended₂
  have run : ∀ {reserves : List Reserve} {s : Socket β} {rooms : List Nat} {refused : Bool},
      (∀ room ∈ rooms, 0 < room) → (Guard.new cap reserves).ending s rooms = some refused →
        ((Guard.new cap reserves).reads s rooms).out = (relay cap .none [] s.bytes).out ∧
        ((Guard.new cap reserves).reads s rooms).guard.dropped = (relay cap .none [] s.bytes).dropped ∧
        (relay cap .none [] s.bytes).refused = refused := by
    intro reserves s rooms refused some ended
    obtain ⟨settled, verdict, -⟩ := Guard.ending_settled some ended
    have hands := Guard.reads_hands (Guard.new cap reserves) s rooms
    rw [Guard.ahead_new] at hands verdict
    rw [← hands]
    exact ⟨by simp [settled.1], by simp [settled.2], by rw [hands, verdict]⟩
  obtain ⟨out₁, dropped₁, verdict₁⟩ := run some₁ ended₁
  obtain ⟨out₂, dropped₂, verdict₂⟩ := run some₂ ended₂
  rw [← same] at out₂ dropped₂ verdict₂
  refine ⟨out₁.trans out₂.symm, dropped₁.trans dropped₂.symm, verdict₁.symm.trans verdict₂, ?_⟩
  rintro rfl
  have stream : (parse s₁.bytes).refused = true := by
    rw [← verdict₁, relay, play_refused]
  obtain ⟨all, rest, illegal, split⟩ := parse_refused stream
  have idle : Minds cap .none [] (none : Option (DataMessage β)) := rfl
  refine ⟨⟨_, rest, split, illegal, rfl, ?_⟩, fun more room => ?_⟩
  · rw [List.perm_iff_count]
    intro b
    have accounted := play_whole cap (parse s₁.bytes).refused all idle b
    simp only [kept, List.count_nil, Nat.zero_add] at accounted
    rw [out₁, List.count_append, List.count_append, relay, accounted]
  · obtain ⟨-, -, refuses⟩ := Guard.ending_settled some₁ ended₁
    obtain ⟨still, nothing⟩ := Guard.reads_refused (refuses rfl)
      ((Guard.new cap reserves₁).reads s₁ rooms₁).socket more
    exact ⟨nothing, by rw [Guard.pollRead_refused still]⟩

/-- A message of three bytes over a cap of two, a fragment held, then a length with its top bit
    set, each byte with its place. -/
def topBit : List (UInt8 × Nat) :=
  List.zipIdx [0x82, 0x03, 0x61, 0x62, 0x63, 0x81, 0x01, 0x64, 0x01, 0x01, 0x65, 0x82, 0x7f, 0x80]

/-- The stream in one read. -/
def atOnce : Socket (UInt8 × Nat) := ⟨Arrival.left topBit, .closed⟩

/-- The stream byte by byte. -/
def byBytes : Socket (UInt8 × Nat) := ⟨topBit.map fun b => .data b [], .closed⟩

theorem guard_chunks_topBit :
    ((Guard.new 2 []).reads atOnce (List.replicate 9 4)).out =
        ((Guard.new 2 [.grown]).reads byBytes (List.replicate 9 1)).out ∧
      ((Guard.new 2 []).reads atOnce (List.replicate 9 4)).guard.dropped =
        ((Guard.new 2 [.grown]).reads byBytes (List.replicate 9 1)).guard.dropped := by
  have ended₁ : (Guard.new 2 []).ending atOnce (List.replicate 9 4) = some true := by decide +kernel
  have ended₂ : (Guard.new 2 [.grown]).ending byBytes (List.replicate 9 1) = some true := by decide +kernel
  have runs := (guard_chunks 2).2 [] [.grown] atOnce byBytes (List.replicate 9 4) (List.replicate 9 1)
    (by decide) (by decide) (by decide) true true ended₁ ended₂
  exact ⟨runs.1, runs.2.1⟩

/-- The first message was dropped whole, and is not the one left open. -/
theorem guard_chunks_dropped :
    ¬ ∀ (cap : UInt64) (s : Socket (UInt8 × Nat)) (rooms : List Nat),
      (∀ room ∈ rooms, 0 < room) → (Guard.new cap []).ending s rooms = some true →
        ∀ b ∈ (parse s.bytes).frames.flatMap Frame.bytes,
          b ∈ ((Guard.new cap []).reads s rooms).out ∨
            b ∈ kept (opening none (parse s.bytes).frames) := by
  intro all
  have ended : (Guard.new 2 []).ending atOnce (List.replicate 9 4) = some true := by decide +kernel
  have lost : (0x61, 2) ∈ (parse atOnce.bytes).frames.flatMap Frame.bytes ∧
      (0x61, 2) ∉ ((Guard.new 2 []).reads atOnce (List.replicate 9 4)).out ∧
        (0x61, 2) ∉ kept (opening none (parse atOnce.bytes).frames) := by
    decide +kernel
  obtain ⟨came, notHanded, notOpen⟩ := lost
  rcases all 2 atOnce (List.replicate 9 4) (by decide) ended _ came with handed | still
  · exact notHanded handed
  · exact notOpen still

end Whole

end PlexusTransport.Ws
