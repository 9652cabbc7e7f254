import PlexusTransport.Ws.Guard

/-! # What a guard hands on, by frames

The guard meets its stream in pieces: whatever the socket gives, into whatever
room the reader has. `parse` cuts the whole stream into frames instead, and
`play` says what becomes of each. `Guard.ahead` is what a guard will still hand
on, count and refuse, given the bytes it has not read. No turn of the loop
changes it except by handing its front over (`turn_ahead`), so no run of polls
does, however the stream is cut.
-/

namespace PlexusTransport.Ws

open BigEndian

variable {β : Type}

/-- A frame found in a stream: its header, and the bytes of it that came. -/
structure Frame (β : Type) where
  header : Header
  bytes : List β

namespace Frame

def control (f : Frame β) : Bool := f.header.opcode &&& 0x08 != 0

/-- The frame's last byte came. -/
def Whole (f : Frame β) : Prop := f.header.size + f.header.len ≤ f.bytes.length

instance (f : Frame β) : Decidable f.Whole := inferInstanceAs (Decidable (_ ≤ _))

end Frame

section Parsing

variable [Octet β]

theorem header_append {b : List β} {h : Header} (found : header b = some h) (r : List β) :
    header (b ++ r) = some h := by
  match b, found with
  | first :: second :: rest, found =>
      have field : ∀ p, lengthField (octet second) rest = some p →
          lengthField (octet second) (rest ++ r) = some p := by
        intro p eq
        unfold lengthField at eq ⊢
        split at eq
        · split at eq
          · rename_i two
            rw [if_pos ‹_›, if_pos (by simp; omega), List.take_append_of_le_length two]
            exact eq
          · simp at eq
        split at eq
        · split at eq
          · rename_i eight
            rw [if_neg ‹_›, if_pos ‹_›, if_pos (by simp; omega), List.take_append_of_le_length eight]
            exact eq
          · simp at eq
        · rwa [if_neg ‹_›, if_neg ‹_›]
      unfold header at found ⊢
      dsimp only [List.cons_append] at found ⊢
      split at found
      · simp at found
      · rename_i len size eq
        rw [field _ eq]
        dsimp only at found ⊢
        grind

theorem illegalLength_append {b : List β} (illegal : illegalLength b = true) (r : List β) :
    illegalLength (b ++ r) = true := by
  match b, illegal with
  | _ :: second :: third :: _, illegal => exact illegal

/-- The length field is judged before the header is whole. -/
theorem illegalLength_header {b : List β} {h : Header} (found : header b = some h) (r : List β) :
    illegalLength (b ++ r) = illegalLength b := by
  match b, found with
  | [first, second], found =>
      have short : octet second &&& 0x7f ≠ 127 := by
        intro long
        simp [header, lengthField, long] at found
      cases r <;> simp [illegalLength, short]
  | _ :: _ :: _ :: _, found => rfl

theorem clear_top {x : UInt8} (h : x &&& 0x80 = 0) : x.toNat < 128 := by
  have bits : ∀ n < 256, n &&& 128 = 0 → n < 128 := by decide +kernel
  exact bits _ x.toNat_lt (by simpa using congrArg UInt8.toNat h)

/-- What the length check leaves: no header and length wrap together. -/
theorem header_legal {b : List β} {h : Header} (found : header b = some h)
    (legal : illegalLength b = false) : h.size + h.len ≤ u64Max := by
  match b, found with
  | first :: second :: rest, found =>
      have field : ∀ p, lengthField (octet second) rest = some p →
          p.1 < 2 ^ 63 ∧ p.2 ≤ 10 := by
        intro p eq
        unfold lengthField at eq
        split at eq
        · split at eq <;> simp only [reduceCtorEq, Option.some.injEq] at eq
          subst eq
          have := fromBe_lt ((rest.take 2).map octet)
          simp only [List.length_map, List.length_take] at this
          have : (256 : Nat) ^ min 2 rest.length ≤ 256 ^ 2 := Nat.pow_le_pow_right (by omega) (by omega)
          omega
        split at eq
        · rename_i long
          split at eq <;> simp only [reduceCtorEq, Option.some.injEq] at eq
          rename_i eight
          subst eq
          match rest, eight with
          | third :: rest, eight =>
              have top : octet third &&& 0x80 = 0 := by simpa [illegalLength, long] using legal
              have := clear_top top
              have := fromBe_lt ((rest.take 7).map octet)
              simp only [List.take_succ_cons, List.map_cons, fromBe_cons, List.length_map,
                List.length_take] at this ⊢
              simp only [List.length_cons] at eight
              rw [show min 7 rest.length = 7 by omega] at this ⊢
              omega
        · simp only [Option.some.injEq] at eq
          subst eq
          have := (octet second &&& 0x7f).toNat_lt
          dsimp only
          omega
      unfold header at found
      dsimp only at found
      split at found
      · simp at found
      · rename_i len size eq
        have bound := field _ eq
        have : u64Max = 2 ^ 64 - 1 := rfl
        by_cases masked : octet second &&& 0x80 != 0 <;>
          simp only [masked, if_true, if_false, Bool.false_eq_true, Option.ite_none_right_eq_some,
            Option.some.injEq] at found <;>
          obtain ⟨_, rfl⟩ := found <;> dsimp only at bound ⊢ <;> omega

/-- A stream cut into frames, as far as a whole header goes. The cuts are where the
    guard's own `header` puts them; `header_encode` and `parse_encode` say that these
    are the frames of RFC 6455. -/
structure Parsed (β : Type) where
  frames : List (Frame β)
  refused : Bool

def parse (input : List β) : Parsed β :=
  if illegalLength input then ⟨[], true⟩
  else
    match _found : header input with
    | none => ⟨[], false⟩
    | some h =>
        let later := parse (input.drop (h.size + h.len))
        ⟨⟨h, input.take (h.size + h.len)⟩ :: later.frames, later.refused⟩
termination_by input.length
decreasing_by
  have := header_size _found
  simp only [List.length_drop]
  omega

theorem parse_illegal {input : List β} (illegal : illegalLength input = true) :
    parse input = ⟨[], true⟩ := by
  rw [parse, if_pos illegal]

theorem parse_short {input : List β} (legal : illegalLength input = false)
    (found : header input = none) : parse input = ⟨[], false⟩ := by
  rw [parse, if_neg (by simp [legal])]
  split
  · rfl
  · simp_all

theorem parse_header {input : List β} {h : Header} (legal : illegalLength input = false)
    (found : header input = some h) :
    parse input = ⟨⟨h, input.take (h.size + h.len)⟩ :: (parse (input.drop (h.size + h.len))).frames,
      (parse (input.drop (h.size + h.len))).refused⟩ := by
  conv_lhs => rw [parse, if_neg (by simp [legal])]
  split
  · simp_all
  · rename_i h' found'
    cases found.symm.trans found'
    rfl

@[simp] theorem parse_nil : parse ([] : List β) = ⟨[], false⟩ := parse_short rfl rfl

end Parsing

/-- What becomes of a frame, and where its message stands after it. -/
inductive Fate where
  | pass (msg : Msg)
  /-- What is held goes first, then the frame. -/
  | release
  | keep (total : Nat)
  | drop (counted : Bool) (msg : Msg)

def fate (cap : UInt64) (msg : Msg) (h : Header) : Fate :=
  let after : Msg := if h.fin then .none else .skipping
  if h.opcode &&& 0x08 != 0 then .pass msg
  else if h.opcode = 0 then
    match msg with
    | .skipping => .drop false after
    | .holding len => if len + h.len ≤ cap.toNat then .keep (len + h.len) else .drop true after
    | .none => .pass .none
  else
    match msg with
    | .holding _ => .release
    | .skipping => .pass .none
    | .none =>
        if cap.toNat < h.len then .drop true after
        else if h.fin then .pass .none
        else .keep h.len

/-- The fragments held before this frame. -/
def Msg.held : Msg → List β → List β
  | .holding _, hold => hold
  | _, _ => []

/-- All a guard hands on of a stream, and how it counts and ends it. -/
@[ext] structure Played (β : Type) where
  out : List β
  dropped : Nat
  refused : Bool

namespace Played

/-- With these bytes handed on first. -/
def hand (b : List β) (p : Played β) : Played β := { p with out := b ++ p.out }

def count (n : Nat) (p : Played β) : Played β := { p with dropped := n + p.dropped }

@[simp] theorem hand_nil (p : Played β) : p.hand [] = p := rfl
@[simp] theorem hand_hand (a b : List β) (p : Played β) : (p.hand b).hand a = p.hand (a ++ b) := by
  simp [hand]
@[simp] theorem hand_out (b : List β) (p : Played β) : (p.hand b).out = b ++ p.out := rfl
@[simp] theorem hand_dropped (b : List β) (p : Played β) : (p.hand b).dropped = p.dropped := rfl
@[simp] theorem hand_refused (b : List β) (p : Played β) : (p.hand b).refused = p.refused := rfl
@[simp] theorem count_zero (p : Played β) : p.count 0 = p := by simp [count]
@[simp] theorem count_count (m n : Nat) (p : Played β) : (p.count n).count m = p.count (m + n) := by
  simp [count, Nat.add_assoc]
@[simp] theorem count_hand (n : Nat) (b : List β) (p : Played β) :
    (p.hand b).count n = (p.count n).hand b := rfl
@[simp] theorem count_out (n : Nat) (p : Played β) : (p.count n).out = p.out := rfl
@[simp] theorem count_dropped (n : Nat) (p : Played β) : (p.count n).dropped = n + p.dropped := rfl
@[simp] theorem count_refused (n : Nat) (p : Played β) : (p.count n).refused = p.refused := rfl

end Played

/-- What a guard at a header does with these frames. Only the last frame of a
    stream can lack bytes: a fragment that does is lost. -/
def play (cap : UInt64) (refused : Bool) : Msg → List β → List (Frame β) → Played β
  | _, _, [] => ⟨[], 0, refused⟩
  | msg, hold, f :: fs =>
      match fate cap msg f.header with
      | .pass msg' => (play cap refused msg' hold fs).hand f.bytes
      | .release => (play cap refused .none [] fs).hand (hold ++ f.bytes)
      | .keep total =>
          let held := msg.held hold ++ f.bytes
          if f.Whole then
            if f.header.fin then (play cap refused .none [] fs).hand held
            else play cap refused (.holding total) held fs
          else ⟨[], 0, refused⟩
      | .drop counted msg' => (play cap refused msg' [] fs).count counted.toNat

/-- Bytes held by no message change nothing. -/
theorem play_stale (cap : UInt64) (refused : Bool) {msg : Msg} (idle : ∀ len, msg ≠ .holding len)
    (hold : List β) (fs : List (Frame β)) :
    play cap refused msg hold fs = play cap refused msg [] fs := by
  induction fs generalizing msg hold with
  | nil => simp [play]
  | cons f fs ih =>
      have held : msg.held hold = msg.held [] := by cases msg <;> simp_all [Msg.held]
      have passed : ∀ msg', fate cap msg f.header = .pass msg' → ∀ len, msg' ≠ .holding len := by
        intro msg' eq
        unfold fate at eq
        grind
      have released : fate cap msg f.header ≠ .release := by
        unfold fate
        grind
      simp only [play, held]
      split
      · rename_i eq
        rw [ih (passed _ eq)]
      · contradiction
      · rfl
      · rfl

/-- `decide`, by the frame's fate. -/
theorem Guard.decide_eq (g : Guard β) (h : Header) (legal : h.size + h.len ≤ u64Max) :
    g.decide h =
      match fate g.cap g.msg h with
      | .pass msg => { g with msg := msg, state := .pass (h.size + h.len) }
      | .release =>
          { g with
            ready := g.ready ++ g.hold, hold := [], msg := .none, state := .pass (h.size + h.len) }
      | .keep total => { g with hold := g.msg.held g.hold, msg := .holding total }.holdFrame h
      | .drop counted msg =>
          { g.skipFrame h with
            hold := match g.msg with | .holding _ => [] | _ => g.hold
            msg := msg
            dropped := g.dropped + counted.toNat } := by
  have total : h.total = h.size + h.len := by
    simp only [Header.total, saturatingAdd]
    omega
  obtain ⟨cap, buf, ready, hold, state, msg, release, dropped, spare, reserves⟩ := g
  have capped : cap.toNat ≤ u64Max := by
    have := cap.toNat_lt
    have : u64Max = 2 ^ 64 - 1 := rfl
    omega
  unfold decide fate
  rw [total]
  split
  · rfl
  split
  · cases msg with
    | none => rfl
    | skipping => cases h.fin <;> rfl
    | holding len =>
        by_cases fits : len + h.len ≤ cap.toNat
        · simp [checkedAdd, Option.filter, fits, show len + h.len ≤ u64Max by omega, Msg.held]
        · by_cases wraps : len + h.len ≤ u64Max <;>
            simp [checkedAdd, Option.filter, fits, wraps, skipFrame]
  · cases msg with
    | skipping => rfl
    | holding len => rfl
    | none =>
        dsimp only
        split
        · rfl
        · split <;> rfl

section Ahead

variable [Octet β]

/-- `play` on a whole stream. -/
def relay (cap : UInt64) (msg : Msg) (hold input : List β) : Played β :=
  play cap (parse input).refused msg hold (parse input).frames

/-- What a guard will hand on, count and refuse, given the bytes it has yet to read. -/
def Guard.ahead (g : Guard β) (unread : List β) : Played β :=
  let input := g.buf ++ unread
  let later := match g.state with
    | .header => relay g.cap g.msg g.hold input
    | .pass n => (relay g.cap g.msg g.hold (input.drop n)).hand (input.take n)
    | .skip n => relay g.cap g.msg g.hold (input.drop n)
    | .hold n =>
        if n ≤ input.length then
          if g.release then (relay g.cap .none [] (input.drop n)).hand (g.hold ++ input.take n)
          else relay g.cap g.msg (g.hold ++ input.take n) (input.drop n)
        else ⟨[], 0, false⟩
  (later.hand g.ready).count g.dropped

theorem relay_illegal {cap : UInt64} {msg : Msg} {hold input : List β}
    (illegal : illegalLength input = true) : relay cap msg hold input = ⟨[], 0, true⟩ := by
  simp [relay, parse_illegal illegal, play]

theorem relay_short {cap : UInt64} {msg : Msg} {hold input : List β}
    (legal : illegalLength input = false) (found : header input = none) :
    relay cap msg hold input = ⟨[], 0, false⟩ := by
  simp [relay, parse_short legal found, play]

@[simp] theorem relay_nil (cap : UInt64) (msg : Msg) (hold : List β) :
    relay cap msg hold [] = ⟨[], 0, false⟩ := relay_short rfl rfl

theorem relay_stale {cap : UInt64} {msg : Msg} (idle : ∀ len, msg ≠ .holding len)
    (hold input : List β) : relay cap msg hold input = relay cap msg [] input := play_stale _ _ idle _ _

theorem relay_header (cap : UInt64) (msg : Msg) (hold : List β) {input : List β} {h : Header}
    (legal : illegalLength input = false) (found : header input = some h) :
    relay cap msg hold input =
      match fate cap msg h with
      | .pass msg' =>
          (relay cap msg' hold (input.drop (h.size + h.len))).hand (input.take (h.size + h.len))
      | .release =>
          (relay cap .none [] (input.drop (h.size + h.len))).hand
            (hold ++ input.take (h.size + h.len))
      | .keep total =>
          if h.size + h.len ≤ input.length then
            if h.fin then
              (relay cap .none [] (input.drop (h.size + h.len))).hand
                (msg.held hold ++ input.take (h.size + h.len))
            else
              relay cap (.holding total) (msg.held hold ++ input.take (h.size + h.len))
                (input.drop (h.size + h.len))
          else ⟨[], 0, false⟩
      | .drop counted msg' =>
          (relay cap msg' [] (input.drop (h.size + h.len))).count counted.toNat := by
  simp only [relay, parse_header legal found, play]
  split
  · rfl
  · rfl
  · simp only [Frame.Whole, List.length_take]
    by_cases whole : h.size + h.len ≤ input.length
    · rw [if_pos (by omega), if_pos whole]
    · rw [if_neg (by omega), if_neg whole, List.drop_of_length_le (by omega), parse_nil]
  · rfl

namespace Guard

theorem ahead_endHold (g : Guard β) (r : List β) :
    g.endHold.ahead r =
      ((if g.release then (relay g.cap .none [] (g.buf ++ r)).hand g.hold
        else relay g.cap g.msg g.hold (g.buf ++ r)).hand g.ready).count g.dropped := by
  unfold endHold
  dsimp only
  split <;> simp [ahead]

theorem ahead_holdFrame (g : Guard β) (h : Header) (size : h.size ≤ g.buf.length) (r : List β) :
    (g.holdFrame h).ahead r =
      ((if h.size + h.len ≤ (g.buf ++ r).length then
          if h.fin then
            (relay g.cap .none [] ((g.buf ++ r).drop (h.size + h.len))).hand
              (g.hold ++ (g.buf ++ r).take (h.size + h.len))
          else
            relay g.cap g.msg (g.hold ++ (g.buf ++ r).take (h.size + h.len))
              ((g.buf ++ r).drop (h.size + h.len))
        else ⟨[], 0, false⟩).hand g.ready).count g.dropped := by
  have front : g.buf.take h.size = (g.buf ++ r).take h.size :=
    (List.take_append_of_le_length size).symm
  have back : g.buf.drop h.size ++ r = (g.buf ++ r).drop h.size :=
    (List.drop_append_of_le_length size).symm
  unfold holdFrame
  dsimp only
  split
  · rename_i empty
    have whole : h.size ≤ (g.buf ++ r).length := by simp only [List.length_append]; omega
    simp only [ahead_endHold, front, back, empty, Nat.add_zero, whole, if_true]
  · simp only [ahead, front, back, List.drop_drop, List.append_assoc, List.take_add,
      List.length_drop]
    congr 2
    refine if_congr ?_ rfl rfl
    simp only [List.length_append]
    omega

theorem ahead_decide (g : Guard β) {h : Header} (state : g.state = .header)
    (legal : illegalLength g.buf = false) (found : header g.buf = some h) (r : List β) :
    (g.decide h).ahead r = g.ahead r := by
  have size := (header_size found).2
  have whole := relay_header g.cap g.msg g.hold
    ((illegalLength_header found r).trans legal) (header_append found r)
  rw [decide_eq g h (header_legal found legal)]
  conv_rhs => simp only [ahead, state, whole]
  split
  · rfl
  · simp [ahead]
  · rw [ahead_holdFrame _ h (by exact size)]
  · rename_i counted msg eq
    have idle : ∀ len, msg ≠ .holding len := by
      intro len same
      unfold fate at eq
      grind
    have skipped : g.buf.drop h.size ++ r = (g.buf ++ r).drop h.size :=
      (List.drop_append_of_le_length size).symm
    simp only [ahead, skipFrame, relay_stale idle, skipped, List.drop_drop, Played.count_hand,
      Played.count_count]

end Guard

end Ahead

end PlexusTransport.Ws
