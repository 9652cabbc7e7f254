import PlexusTransport.Ws.Guard.Account

/-! # A guard kept track of

A guard has done with the bytes it read what `deal` says of their frames, wherever in a
frame it stands: each turn of its loop keeps that true.
-/

namespace PlexusTransport.Ws

variable {β : Type}

def Fate.passes : Fate → Bool
  | .pass _ | .release => true
  | _ => false

def Fate.drops : Fate → Bool
  | .drop _ _ => true
  | _ => false

namespace Dealt

/-- What a guard has done with all of these. -/
def all (cap : UInt64) (fs : List (Frame β)) : Dealt β := fs.foldl (deal cap) new

variable {cap : UInt64} {d : Dealt β} {h : Header} {p q : List β}

theorem all_append (fs : List (Frame β)) (f : Frame β) :
    all cap (fs ++ [f]) = (all cap fs).deal cap f := by
  simp [all]

theorem all_clean (cap : UInt64) (fs : List (Frame β)) : (all cap fs).Clean := by
  induction fs using List.reverseRecOn with
  | nil => exact .inr rfl
  | append_singleton fs f ih =>
      rw [all_append]
      exact deal_clean ih f

theorem all_minds (cap : UInt64) {fs : List (Frame β)} (whole : ∀ f ∈ fs, f.Whole) :
    Minds cap (all cap fs).msg (all cap fs).hold (opening none fs) :=
  dealt_minds rfl (.inr rfl) whole

theorem deal_passes (passes : (fate cap d.msg h).passes = true) (p q : List β) :
    d.deal cap ⟨h, p ++ q⟩ =
      { d.deal cap ⟨h, p⟩ with handed := (d.deal cap ⟨h, p⟩).handed ++ q } := by
  unfold deal
  cases fated : fate cap d.msg h with
  | pass msg | release => simp
  | keep total | drop counted msg => simp [fated, Fate.passes] at passes

theorem deal_drops (drops : (fate cap d.msg h).drops = true) (p q : List β) :
    d.deal cap ⟨h, q⟩ = d.deal cap ⟨h, p⟩ := by
  unfold deal
  cases fated : fate cap d.msg h with
  | drop counted msg => rfl
  | pass msg | release | keep total => simp [fated, Fate.drops] at drops

theorem deal_keeps {total : Nat} (keeps : fate cap d.msg h = .keep total)
    (short : ¬(⟨h, p⟩ : Frame β).Whole) :
    d.deal cap ⟨h, p⟩ = ⟨.holding total, d.hold ++ p, d.handed⟩ := by
  simp [deal, keeps, short]

theorem deal_kept {total : Nat} (keeps : fate cap d.msg h = .keep total)
    (whole : (⟨h, p⟩ : Frame β).Whole) :
    d.deal cap ⟨h, p⟩ =
      if h.fin then ⟨.none, [], d.handed ++ d.hold ++ p⟩
      else ⟨.holding total, d.hold ++ p, d.handed⟩ := by
  simp [deal, keeps, whole]

end Dealt

section Met

variable [Octet β]

/-- The whole frames in the bytes that came, and the bytes past them. -/
structure Met (came : List β) (fs : List (Frame β)) (rest : List β) : Prop where
  split : came = fs.flatMap Frame.bytes ++ rest
  whole : ∀ f ∈ fs, f.Whole
  parsed : ∀ unread, (parse (came ++ unread)).frames = fs ++ (parse (rest ++ unread)).frames

/-- A frame whose header came: `p` was taken in, and `n` bytes are left of it. -/
structure At (came buf : List β) (fs : List (Frame β)) (h : Header) (p : List β) (n : Nat) :
    Prop where
  met : Met came fs (p ++ buf)
  found : header (p ++ buf) = some h
  legal : illegalLength (p ++ buf) = false
  left : p.length + n = h.size + h.len

variable {came buf rest p q b : List β} {fs : List (Frame β)} {h : Header} {n : Nat}

theorem Met.more (met : Met came fs rest) (b : List β) : Met (came ++ b) fs (rest ++ b) where
  split := by rw [met.split, List.append_assoc]
  whole := met.whole
  parsed unread := by simpa only [List.append_assoc] using met.parsed (b ++ unread)

theorem At.more (inside : At came buf fs h p n) (b : List β) :
    At (came ++ b) (buf ++ b) fs h p n where
  met := by simpa only [List.append_assoc] using inside.met.more b
  found := by simpa only [List.append_assoc] using header_append inside.found b
  legal := by
    rw [← List.append_assoc, illegalLength_header inside.found]
    exact inside.legal
  left := inside.left

/-- More of the frame is taken in. -/
theorem At.takes (inside : At came (q ++ buf) fs h p n) (small : q.length ≤ n) :
    At came buf fs h (p ++ q) (n - q.length) where
  met := by simpa only [List.append_assoc] using inside.met
  found := by simpa only [List.append_assoc] using inside.found
  legal := by simpa only [List.append_assoc] using inside.legal
  left := by
    have left := inside.left
    rw [List.length_append]
    omega

theorem At.whole (inside : At came buf fs h p 0) : (⟨h, p⟩ : Frame β).Whole :=
  inside.left.ge

theorem At.done (inside : At came buf fs h p 0) : Met came (fs ++ [⟨h, p⟩]) buf where
  split := by simpa [List.append_assoc] using inside.met.split
  whole f mem := by
    obtain old | new := List.mem_append.mp mem
    · exact inside.met.whole f old
    · rw [List.mem_singleton.mp new]
      exact inside.whole
  parsed unread := by
    have size : h.size + h.len = p.length := inside.left.symm
    have legal : illegalLength (p ++ buf ++ unread) = false := by
      rw [illegalLength_header inside.found]
      exact inside.legal
    rw [inside.met.parsed, parse_header legal (header_append inside.found unread), size]
    simp

/-- A header that is whole in the bytes past the frames. -/
theorem Met.found (met : Met came fs buf) (found : header buf = some h)
    (legal : illegalLength buf = false) : At came buf fs h [] (h.size + h.len) :=
  ⟨met, found, legal, by simp⟩

/-- What the guard has done with the bytes that came: all that it should have with the frames it
    has met, the last as far as it was taken in. -/
def Guard.Tracks (cap : UInt64) (came out : List β) (g : Guard β) : Prop :=
  g.cap = cap ∧
    match g.state with
    | .header => ∃ fs hold, Met came fs g.buf ∧ Dealt.all cap fs = ⟨g.msg, hold, out ++ g.ready⟩ ∧
        (g.hold = hold ∨ g.hold = [] ∧ illegalLength g.buf = true)
    | .pass n => ∃ fs h p, At came g.buf fs h p n ∧
        (fate cap (Dealt.all cap fs).msg h).passes = true ∧
          (Dealt.all cap fs).deal cap ⟨h, p⟩ = ⟨g.msg, g.hold, out ++ g.ready⟩
    | .skip n => ∃ fs h p, At came g.buf fs h p n ∧
        (fate cap (Dealt.all cap fs).msg h).drops = true ∧
          (Dealt.all cap fs).deal cap ⟨h, p⟩ = ⟨g.msg, g.hold, out ++ g.ready⟩
    | .hold n => ∃ fs h p total, At came g.buf fs h p n ∧ 0 < n ∧
        fate cap (Dealt.all cap fs).msg h = .keep total ∧ g.release = h.fin ∧
          (Dealt.all cap fs).deal cap ⟨h, p⟩ = ⟨g.msg, g.hold, out ++ g.ready⟩

namespace Guard

variable {cap : UInt64} {came out b : List β} {g : Guard β} {s : Socket β}

theorem tracks_new (cap : UInt64) (reserves : List Reserve) :
    (new cap reserves : Guard β).Tracks cap [] [] := by
  refine ⟨rfl, [], [], ⟨rfl, by simp, fun unread => by simp [new]⟩, rfl, .inl rfl⟩

/-- Bytes read into `buf`. -/
theorem Tracks.more (tracks : g.Tracks cap came out) (b : List β) (spare : Nat)
    (reserves : List Reserve) :
    ({ g with buf := g.buf ++ b, spare, reserves } : Guard β).Tracks cap (came ++ b) out := by
  obtain ⟨capped, tracks⟩ := tracks
  refine ⟨capped, ?_⟩
  cases state : g.state with
  | header =>
      simp only [state] at tracks ⊢
      obtain ⟨fs, hold, met, dealt, kept⟩ := tracks
      exact ⟨fs, hold, met.more b, dealt, kept.imp_right fun refused =>
        ⟨refused.1, illegalLength_append refused.2 b⟩⟩
  | pass n | skip n =>
      simp only [state] at tracks ⊢
      obtain ⟨fs, h, p, inside, fated, dealt⟩ := tracks
      exact ⟨fs, h, p, inside.more b, fated, dealt⟩
  | hold n =>
      simp only [state] at tracks ⊢
      obtain ⟨fs, h, p, total, inside, some, fated, last, dealt⟩ := tracks
      exact ⟨fs, h, p, total, inside.more b, some, fated, last, dealt⟩

/-- A fragment that is complete. -/
theorem endHold_tracks {fs : List (Frame β)} {h : Header} {p : List β} {total : Nat}
    (capped : g.cap = cap) (inside : At came g.buf fs h p 0)
    (fated : fate cap (Dealt.all cap fs).msg h = .keep total) (last : g.release = h.fin)
    (msg : g.msg = .holding total) (hold : g.hold = (Dealt.all cap fs).hold ++ p)
    (handed : (Dealt.all cap fs).handed = out ++ g.ready) : g.endHold.Tracks cap came out := by
  have dealt := Dealt.deal_kept fated inside.whole
  rw [← Dealt.all_append, ← last] at dealt
  unfold endHold
  dsimp only
  split
  · rename_i released
    refine ⟨capped, fs ++ [⟨h, p⟩], [], inside.done, ?_, .inl rfl⟩
    rw [dealt, if_pos released, handed, hold]
    simp
  · rename_i more
    refine ⟨capped, fs ++ [⟨h, p⟩], g.hold, inside.done, ?_, .inl rfl⟩
    rw [dealt, if_neg more, handed, hold, msg]

theorem decide_tracks {h : Header} (tracks : g.Tracks cap came out) (drained : g.ready = [])
    (state : g.state = .header) (legal : illegalLength g.buf = false) (found : header g.buf = some h) :
    (g.decide h).Tracks cap came out := by
  obtain ⟨rfl, tracks⟩ := tracks
  simp only [state] at tracks
  obtain ⟨fs, hold, met, dealt, kept⟩ := tracks
  have held : g.hold = hold := kept.resolve_right fun refused => by simp [legal] at refused
  subst held
  have inside := met.found found legal
  have size := header_size found
  have clean : (∃ len, g.msg = .holding len) ∨ g.hold = [] := by
    simpa [Dealt.Clean, dealt] using Dealt.all_clean g.cap fs
  have msg : (Dealt.all g.cap fs).msg = g.msg := by rw [dealt]
  -- The header is taken in first, where the frame is not passed on.
  have taken : At came (g.buf.drop h.size) fs h (g.buf.take h.size) h.len := by
    have front : g.buf.take h.size ++ g.buf.drop h.size = g.buf := List.take_append_drop _ _
    have length : (g.buf.take h.size).length = h.size := by
      rw [List.length_take]
      omega
    rw [← front] at inside
    have takes := inside.takes (by omega)
    rwa [length, Nat.add_sub_cancel_left] at takes
  rw [decide_eq g h (header_legal found legal)]
  cases fated : fate g.cap g.msg h with
  | pass msg' =>
      refine ⟨rfl, fs, h, [], inside, by rw [msg, fated]; rfl, ?_⟩
      simp [Dealt.deal, dealt, fated]
  | release =>
      refine ⟨rfl, fs, h, [], inside, by rw [msg, fated]; rfl, ?_⟩
      simp [Dealt.deal, dealt, fated, drained]
  | keep total =>
      have keeps : fate g.cap (Dealt.all g.cap fs).msg h = .keep total := by rw [msg, fated]
      have kept : g.msg.held g.hold = g.hold := by
        obtain ⟨len, holding⟩ | empty := clean
        · simp [holding, Msg.held]
        · cases g.msg <;> simp [Msg.held, empty]
      simp only [kept]
      unfold holdFrame
      dsimp only
      split
      · rename_i none
        rw [none] at taken
        exact endHold_tracks rfl taken keeps rfl rfl (by rw [dealt]) (by rw [dealt])
      · rename_i some
        have short : ¬(⟨h, g.buf.take h.size⟩ : Frame β).Whole := by
          have left := taken.left
          simp only [Frame.Whole]
          omega
        refine ⟨rfl, fs, h, g.buf.take h.size, total, taken, by omega, keeps, rfl, ?_⟩
        rw [Dealt.deal_keeps keeps short, dealt]
  | drop counted msg' =>
      have dropped : (Dealt.all g.cap fs).deal g.cap ⟨h, g.buf.take h.size⟩ =
          ⟨msg', [], out ++ g.ready⟩ := by
        simp [Dealt.deal, dealt, fated]
      have drops : ∀ hold : List β, hold = [] → Guard.Tracks g.cap came out
          { g.skipFrame h with hold, msg := msg', dropped := g.dropped + counted.toNat } := by
        rintro hold rfl
        exact ⟨rfl, fs, h, g.buf.take h.size, taken, by rw [msg, fated]; rfl, dropped⟩
      apply drops
      obtain ⟨len, holding⟩ | empty := clean
      · simp [holding]
      · cases g.msg <;> simp [empty]

/-- Ready bytes that are handed on. -/
theorem Tracks.hands {p q : List β} (tracks : g.Tracks cap came out) (ready : g.ready = p ++ q) :
    ({ g with ready := q } : Guard β).Tracks cap came (out ++ p) := by
  unfold Tracks at tracks ⊢
  simpa only [ready, List.append_assoc] using tracks

/-- Bytes of a frame that is passed on. -/
theorem Tracks.passes {n : Nat} {q rest : List β} (tracks : g.Tracks cap came out)
    (state : g.state = .pass n) (drained : g.ready = []) (buf : g.buf = q ++ rest)
    (small : q.length ≤ n) :
    ({ g with buf := rest, state := .pass (n - q.length) } : Guard β).Tracks cap came (out ++ q) := by
  obtain ⟨capped, tracks⟩ := tracks
  simp only [state, buf] at tracks
  obtain ⟨fs, h, p, inside, fated, dealt⟩ := tracks
  refine ⟨capped, fs, h, p ++ q, inside.takes small, fated, ?_⟩
  rw [Dealt.deal_passes fated, dealt, drained]
  simp

/-- A frame that is passed on, or dropped, is done. -/
theorem header_tracks (tracks : g.Tracks cap came out)
    (state : g.state = .pass 0 ∨ g.state = .skip 0) :
    ({ g with state := .header } : Guard β).Tracks cap came out := by
  obtain ⟨capped, tracks⟩ := tracks
  obtain state | state := state
  all_goals
    simp only [state] at tracks
    obtain ⟨fs, h, p, inside, -, dealt⟩ := tracks
    refine ⟨capped, fs ++ [⟨h, p⟩], g.hold, inside.done, ?_, .inl rfl⟩
    rw [Dealt.all_append, dealt]

end Guard

/-- A turn keeps track of what it reads and what it hands on. -/
def Turn.Tracks (cap : UInt64) (came out : List β) (s : Socket β) : Turn β → Prop
  | .again g s' => ∃ b, s.bytes = b ++ s'.bytes ∧ g.Tracks cap (came ++ b) out
  | .done g s' r => ∃ b, s.bytes = b ++ s'.bytes ∧ g.Tracks cap (came ++ b) (out ++ r.handed)

theorem Turn.again_tracks {cap : UInt64} {out : List β} {g : Guard β} (tracks : g.Tracks cap came out)
    (s : Socket β) : (Turn.again g s).Tracks cap came out s :=
  ⟨[], rfl, by rwa [List.append_nil]⟩

theorem Turn.done_tracks {cap : UInt64} {out : List β} {g : Guard β} {r : Polled β}
    (tracks : g.Tracks cap came (out ++ r.handed)) (s : Socket β) :
    (Turn.done g s r).Tracks cap came out s :=
  ⟨[], rfl, by rwa [List.append_nil]⟩

namespace Guard

variable {cap : UInt64} {out : List β} {g : Guard β}

theorem turn_tracks (tracks : g.Tracks cap came out) (s : Socket β) (room : Nat) :
    (g.turn s room).Tracks cap came out s := by
  have moves := g.moves s room
  generalize g.turn s room = t at moves ⊢
  cases moves with
  | hands ready most =>
      exact Turn.done_tracks (tracks.hands (List.take_append_drop _ _).symm) s
  | ends drained state => exact Turn.again_tracks (header_tracks tracks state) s
  | endsHold drained state =>
      obtain ⟨-, tracks⟩ := tracks
      simp only [state] at tracks
      obtain ⟨_, _, _, _, _, some, _⟩ := tracks
      omega
  | @passes n k drained state left buf most =>
      have length : (g.buf.take k).length = k := List.length_take_of_le (by omega)
      have front := (List.take_append_drop k g.buf).symm
      have passed := tracks.passes state drained front (by omega)
      rw [length] at passed
      exact Turn.done_tracks passed s
  | full =>
      apply Turn.done_tracks
      simpa [Polled.handed] using tracks
  | @relays n r s' drained state left empty some read =>
      have kept := Socket.pollRead_handed read
      have small : r.handed.length ≤ n := by
        have := Socket.pollRead_room read
        omega
      have front : g.buf ++ r.handed = r.handed ++ [] := by simp [empty]
      have passed := (tracks.more r.handed g.spare g.reserves).passes state drained front small
      refine ⟨r.handed, kept, ?_⟩
      simpa only [empty] using passed
  | @holds n k drained state left buf most g' held =>
      have length : (g.buf.take k).length = k := List.length_take_of_le (by omega)
      obtain ⟨rfl, tracks⟩ := tracks
      simp only [state] at tracks
      obtain ⟨fs, h, p, total, inside, some, fated, last, dealt⟩ := tracks
      have short : ¬(⟨h, p⟩ : Frame β).Whole := by
        have left := inside.left
        simp only [Frame.Whole]
        omega
      rw [Dealt.deal_keeps fated short, Dealt.mk.injEq] at dealt
      obtain ⟨msg, hold, handed⟩ := dealt
      have taken : At came (g.buf.drop k) fs h (p ++ g.buf.take k) (n - k) := by
        rw [← List.take_append_drop k g.buf] at inside
        have takes := inside.takes (by omega)
        rwa [length] at takes
      subst held
      apply Turn.again_tracks
      split
      · rename_i all
        rw [← all, Nat.sub_self] at taken
        refine endHold_tracks rfl (by rwa [← all]) fated last msg.symm ?_ handed
        rw [← hold, List.append_assoc, ← all]
      · refine ⟨rfl, fs, h, _, total, taken, by omega, fated, last, ?_⟩
        have short : ¬(⟨h, p ++ g.buf.take k⟩ : Frame β).Whole := by
          have left := taken.left
          simp only [Frame.Whole]
          omega
        rw [Dealt.deal_keeps fated short, ← hold, handed, msg, List.append_assoc]
  | @skips n k drained state left buf most =>
      have length : (g.buf.take k).length = k := List.length_take_of_le (by omega)
      obtain ⟨rfl, tracks⟩ := tracks
      simp only [state] at tracks
      obtain ⟨fs, h, p, inside, fated, dealt⟩ := tracks
      rw [← List.take_append_drop k g.buf] at inside
      have takes := inside.takes (by omega)
      rw [length] at takes
      apply Turn.again_tracks
      refine ⟨rfl, fs, h, _, takes, fated, ?_⟩
      rw [Dealt.deal_drops fated p, dealt]
  | fills drained short reserved some read =>
      exact ⟨_, Socket.pollRead_handed read, tracks.more _ _ _⟩
  | waits drained short reserved some read nothing =>
      refine ⟨_, Socket.pollRead_handed read, ?_⟩
      rw [nothing, List.append_nil, List.append_nil]
      exact tracks
  | refuses drained state illegal =>
      obtain ⟨rfl, tracks⟩ := tracks
      simp only [state] at tracks
      obtain ⟨fs, hold, met, dealt, -⟩ := tracks
      apply Turn.done_tracks
      refine ⟨rfl, ?_⟩
      simp only [state, Polled.handed, List.append_nil]
      exact ⟨fs, hold, met, dealt, .inr ⟨by simp, illegal⟩⟩
  | decides drained state legal found =>
      exact Turn.again_tracks (decide_tracks tracks drained state legal found) s

theorem pollRead_tracks (tracks : g.Tracks cap came out) (s : Socket β) (room : Nat) :
    ∃ b, s.bytes = b ++ (g.pollRead s room).2.1.bytes ∧
      (g.pollRead s room).1.Tracks cap (came ++ b) (out ++ (g.pollRead s room).2.2.handed) := by
  refine pollRead_keeps (fun g' s' => ∃ b, s.bytes = b ++ s'.bytes ∧ g'.Tracks cap (came ++ b) out)
    (fun g' s' r => ∃ b, s.bytes = b ++ s'.bytes ∧
      g'.Tracks cap (came ++ b) (out ++ r.handed)) ?_ ?_ ⟨[], rfl, by rwa [List.append_nil]⟩
  all_goals
    intro g₁ s₁
    intros
    rename_i kept step
    obtain ⟨b, split, tracks⟩ := kept
    have turned := turn_tracks tracks s₁ room
    rw [step] at turned
    obtain ⟨b', split', tracks'⟩ := turned
    refine ⟨b ++ b', ?_, ?_⟩
    · rw [split, split', List.append_assoc]
    · rwa [← List.append_assoc]

theorem reads_tracks (tracks : g.Tracks cap came out) (s : Socket β) (rooms : List Nat) :
    ∃ b, s.bytes = b ++ (g.reads s rooms).socket.bytes ∧
      (g.reads s rooms).guard.Tracks cap (came ++ b) (out ++ (g.reads s rooms).out) := by
  induction rooms generalizing g s came out with
  | nil => exact ⟨[], rfl, by simpa [reads] using tracks⟩
  | cons room rooms ih =>
      obtain ⟨b, split, polled⟩ := pollRead_tracks tracks s room
      obtain ⟨b', split', later⟩ := ih polled (g.pollRead s room).2.1
      refine ⟨b ++ b', ?_, ?_⟩
      · rw [split, split', List.append_assoc]
        rfl
      · rwa [List.append_assoc, List.append_assoc] at later

end Guard

end Met

end PlexusTransport.Ws
