import PlexusTransport.Ws.Guard.Frames

/-! # A broken order stays visible

The codec behind the guard closes a connection whose frames come out of order, if
it sees that they do. The guard passes on the frame that breaks the order, after
what it holds, so the codec sees it too. But a new message that comes while one
over the cap is being dropped is passed on as if the dropped one were over.
-/

namespace PlexusTransport.Ws

open Rfc6455

/-- The frames a guard hands on of these. -/
def handed (cap : UInt64) : Msg → List Rfc6455.Frame → List Rfc6455.Frame → List Rfc6455.Frame
  | _, _, [] => []
  | msg, held, f :: fs =>
      match fate cap msg (headerOf f) with
      | .pass msg' => f :: handed cap msg' held fs
      | .release => held ++ f :: handed cap .none [] fs
      | .keep total =>
          if f.fin then msg.held held ++ f :: handed cap .none [] fs
          else handed cap (.holding total) (msg.held held ++ [f]) fs
      | .drop _ msg' => handed cap msg' [] fs

theorem held_encode (msg : Msg) (held : List Rfc6455.Frame) :
    msg.held (held.flatMap Frame.encode) = (msg.held held).flatMap Frame.encode := by
  cases msg <;> rfl

theorem play_handed (cap : UInt64) (msg : Msg) (held fs : List Rfc6455.Frame) :
    (play cap false msg (held.flatMap Frame.encode) (fs.map seen)).out =
      (handed cap msg held fs).flatMap Frame.encode := by
  induction fs generalizing msg held with
  | nil => rfl
  | cons f fs ih =>
      have fresh := ih .none []
      rw [List.flatMap_nil] at fresh
      rw [List.map_cons, play_seen_cons]
      unfold handed
      cases fate cap msg (headerOf f) with
      | pass msg' => simp [ih]
      | release => simp [fresh]
      | keep total =>
          dsimp only
          split
          · simp [fresh, held_encode]
          · have later := ih (.holding total) (msg.held held ++ [f])
            simp only [List.flatMap_append, List.flatMap_cons, List.flatMap_nil,
              List.append_nil] at later
            rw [held_encode, later]
      | drop counted msg' =>
          have later := ih msg' []
          rw [List.flatMap_nil] at later
          exact later

/-- A frame's bytes say what a receiver follows. -/
theorem follow_congr {f g : Rfc6455.Frame} (same : headerOf f = headerOf g) (opened : Option Bool) :
    follow opened f = follow opened g := by
  have control : f.control = g.control := by
    rw [← control_opcode, ← control_opcode, same]
  have continuation : f.continuation = g.continuation := by
    rw [Bool.eq_iff_iff, ← continuation_opcode, ← continuation_opcode, same]
  have fin : f.fin = g.fin := congrArg Header.fin same
  cases opened with
  | none => rfl
  | some opened => simp only [follow, control, continuation, fin]

theorem broken_encode {fs gs : List Rfc6455.Frame}
    (same : fs.flatMap Frame.encode = gs.flatMap Frame.encode) : Broken fs ↔ Broken gs := by
  have parsed := congrArg (fun input => (parse input).frames.map Frame.header) same
  simp only [parse_encode, List.map_map] at parsed
  have follows : ∀ opened, fs.foldl follow opened = gs.foldl follow opened := by
    clear same
    induction fs generalizing gs with
    | nil =>
        cases gs with
        | nil => exact fun _ => rfl
        | cons g gs => simp at parsed
    | cons f fs ih =>
        cases gs with
        | nil => simp at parsed
        | cons g gs =>
            obtain ⟨first, rest⟩ := List.cons.inj parsed
            intro opened
            rw [List.foldl_cons, List.foldl_cons, follow_congr first]
            exact ih rest _
  rw [Broken, Broken, follows]

/-- A frame that may come while these fragments are open. -/
def inTurn (opened : List Rfc6455.Frame) (f : Rfc6455.Frame) : Bool :=
  f.control || f.continuation == !opened.isEmpty

/-- The fragments open after a frame in turn. -/
def openAfter (opened : List Rfc6455.Frame) (f : Rfc6455.Frame) : List Rfc6455.Frame :=
  if f.control then opened else if f.fin then [] else opened ++ [f]

/-- The order is first broken by a new message, while one over the cap is being dropped. -/
def Hidden (cap : Nat) : List Rfc6455.Frame → List Rfc6455.Frame → Prop
  | _, [] => False
  | opened, f :: fs =>
      if inTurn opened f then Hidden cap (openAfter opened f) fs
      else f.continuation = false ∧ cap < total opened

/-- What a guard read to the end of these frames hands on is frames again, out of
    order if these are. -/
def Visible (cap : UInt64) (reserves : List Reserve) (fs : List Rfc6455.Frame) : Prop :=
  ∀ (s : Socket UInt8) (rooms : List Nat), s.bytes = fs.flatMap Frame.encode →
    (∀ room ∈ rooms, 0 < room) → Guard.patience s < rooms.length →
      ∃ on, ((Guard.new cap reserves).reads s rooms).out = on.flatMap Frame.encode ∧
        (Broken fs → Broken on)

theorem follow_inTurn {opened : List Rfc6455.Frame} {f : Rfc6455.Frame}
    (turn : inTurn opened f = true) :
    follow (some !opened.isEmpty) f = some !(openAfter opened f).isEmpty := by
  cases control : f.control with
  | true => simp [follow, openAfter, control]
  | false =>
      have order : f.continuation = !opened.isEmpty := by simpa [inTurn, control] using turn
      cases fin : f.fin <;> simp [follow, openAfter, control, order, fin]

/-- What a guard between these frames knows of the open message. The codec has seen
    none of it. -/
def Follows (cap : UInt64) (msg : Msg) (held opened : List Rfc6455.Frame) : Prop :=
  match msg with
  | .none => opened = []
  | .holding len =>
      opened ≠ [] ∧ len = total opened ∧ len ≤ cap.toNat ∧
        held.foldl follow (some false) = some true
  | .skipping => opened ≠ [] ∧ cap.toNat < total opened

theorem follows_dropped (cap : UInt64) {opened : List Rfc6455.Frame} {f : Rfc6455.Frame}
    (past : cap.toNat < total (opened ++ [f])) :
    Follows cap (if f.fin then .none else .skipping) [] (if f.fin then [] else opened ++ [f]) := by
  cases f.fin with
  | true => rfl
  | false => exact ⟨by simp, past⟩

/-- Where the guard stands after a frame, and the whole messages it hands on with it. -/
structure Onward (cap : UInt64) (msg : Msg) (held opened : List Rfc6455.Frame)
    (f : Rfc6455.Frame) where
  out : List Rfc6455.Frame
  msg' : Msg
  held' : List Rfc6455.Frame
  hands : ∀ fs, handed cap msg held (f :: fs) = out ++ handed cap msg' held' fs
  whole : out.foldl follow (some false) = some false
  follows : Follows cap msg' held' opened

theorem onward_data (cap : UInt64) {msg : Msg} {held opened : List Rfc6455.Frame}
    {f : Rfc6455.Frame} (follows : Follows cap msg held opened) (data : f.control = false)
    (order : f.continuation = !opened.isEmpty) :
    Nonempty (Onward cap msg held (if f.fin then [] else opened ++ [f]) f) := by
  have longer : opened ++ [f] ≠ [] := by simp
  have more : total (opened ++ [f]) = total opened + f.payload.length := by simp [total]
  have decided := fate_headerOf cap msg f
  simp only [data, Bool.false_eq_true, if_false] at decided
  cases msg with
  | none =>
      subst follows
      have one : total [f] = f.payload.length := by simp [total]
      simp only [order, List.isEmpty_nil, Bool.not_true, Bool.false_eq_true, if_false] at decided
      by_cases tooLong : cap.toNat < f.payload.length
      · rw [if_pos tooLong] at decided
        refine ⟨[], if f.fin then .none else .skipping, [], fun fs => ?_, rfl, ?_⟩
        · simp [handed, decided]
        · exact follows_dropped cap (by simpa [one] using tooLong)
      · rw [if_neg tooLong] at decided
        cases fin : f.fin with
        | true =>
            refine ⟨[f], .none, held, fun fs => ?_, ?_, rfl⟩
            · simp [handed, decided, fin]
            · simp [follow, data, order, fin]
        | false =>
            refine ⟨[], .holding f.payload.length, [f], fun fs => ?_, rfl, longer, one.symm, ?_, ?_⟩
            · simp [handed, decided, fin, Msg.held]
            · omega
            · simp [follow, data, order, fin]
  | holding len =>
      obtain ⟨ne, rfl, small, open'⟩ := follows
      rw [List.isEmpty_eq_false_iff.mpr ne, Bool.not_false] at order
      simp only [order, if_true, ← more] at decided
      by_cases fits : total (opened ++ [f]) ≤ cap.toNat
      · rw [if_pos fits] at decided
        cases fin : f.fin with
        | true =>
            refine ⟨held ++ [f], .none, [], fun fs => ?_, ?_, rfl⟩
            · simp [handed, decided, fin, Msg.held]
            · simp [open', follow, data, order, fin]
        | false =>
            refine ⟨[], .holding (total (opened ++ [f])), held ++ [f], fun fs => ?_, rfl, longer,
              rfl, fits, ?_⟩
            · simp [handed, decided, fin, Msg.held]
            · simp [open', follow, data, order, fin]
      · rw [if_neg fits] at decided
        refine ⟨[], if f.fin then .none else .skipping, [], fun fs => ?_, rfl, ?_⟩
        · simp [handed, decided]
        · exact follows_dropped cap (by omega)
  | skipping =>
      obtain ⟨ne, past⟩ := follows
      rw [List.isEmpty_eq_false_iff.mpr ne, Bool.not_false] at order
      simp only [order, if_true] at decided
      refine ⟨[], if f.fin then .none else .skipping, [], fun fs => ?_, rfl, ?_⟩
      · simp [handed, decided]
      · exact follows_dropped cap (by omega)

/-- A frame in turn leaves the codec between messages, as it was. -/
theorem onward (cap : UInt64) {msg : Msg} {held opened : List Rfc6455.Frame} {f : Rfc6455.Frame}
    (follows : Follows cap msg held opened) (turn : inTurn opened f = true) :
    Nonempty (Onward cap msg held (openAfter opened f) f) := by
  cases control : f.control with
  | true =>
      have passed : fate cap msg (headerOf f) = .pass msg := by rw [fate_headerOf, if_pos control]
      rw [openAfter, if_pos control]
      refine ⟨[f], msg, held, fun fs => ?_, ?_, follows⟩
      · simp [handed, passed]
      · simp [follow, control]
  | false =>
      have order : f.continuation = !opened.isEmpty := by simpa [inTurn, control] using turn
      have data := onward_data cap follows control order
      rwa [openAfter, if_neg (by simp [control])]

/-- A frame out of turn is passed on after what is held: out of order for the codec
    too, unless it comes while a message is being dropped. -/
theorem handed_outOfTurn (cap : UInt64) {msg : Msg} {held opened : List Rfc6455.Frame}
    {f : Rfc6455.Frame} (follows : Follows cap msg held opened) (turn : inTurn opened f = false)
    (fs : List Rfc6455.Frame) :
    ∃ out held', handed cap msg held (f :: fs) = out ++ f :: handed cap .none held' fs ∧
      ((out ++ [f]).foldl follow (some false) = none ↔
        ¬ (f.continuation = false ∧ cap.toNat < total opened)) := by
  obtain ⟨data, order⟩ : f.control = false ∧ f.continuation ≠ !opened.isEmpty := by
    simpa [inTurn] using turn
  have decided := fate_headerOf cap msg f
  simp only [data, Bool.false_eq_true, if_false] at decided
  cases msg with
  | none =>
      subst follows
      have stray : f.continuation = true := by simpa using order
      simp only [stray, if_true] at decided
      refine ⟨[], held, ?_, ?_⟩
      · simp [handed, decided]
      · simp [follow, data, stray]
  | holding len =>
      obtain ⟨ne, rfl, small, open'⟩ := follows
      have new : f.continuation = false := by
        simpa [List.isEmpty_eq_false_iff.mpr ne] using order
      simp only [new, Bool.false_eq_true, if_false] at decided
      refine ⟨held, [], ?_, ?_⟩
      · simp [handed, decided]
      · simp [open', follow, data, new, small]
  | skipping =>
      obtain ⟨ne, past⟩ := follows
      have new : f.continuation = false := by
        simpa [List.isEmpty_eq_false_iff.mpr ne] using order
      simp only [new, Bool.false_eq_true, if_false] at decided
      refine ⟨[], held, ?_, ?_⟩
      · simp [handed, decided]
      · simp [follow, data, new, past]

theorem handed_shows (cap : UInt64) {msg : Msg} {held opened fs : List Rfc6455.Frame}
    (follows : Follows cap msg held opened) (shown : ¬ Hidden cap.toNat opened fs)
    (broken : fs.foldl follow (some !opened.isEmpty) = none) :
    (handed cap msg held fs).foldl follow (some false) = none := by
  induction fs generalizing msg held opened with
  | nil => simp at broken
  | cons f fs ih =>
      rw [Hidden] at shown
      cases turn : inTurn opened f with
      | true =>
          obtain ⟨out, msg', held', hands, whole, follows⟩ := onward cap follows turn
          rw [if_pos turn] at shown
          rw [List.foldl_cons, follow_inTurn turn] at broken
          rw [hands, List.foldl_append, whole]
          exact ih follows shown broken
      | false =>
          obtain ⟨out, held', hands, breaks⟩ := handed_outOfTurn cap follows turn fs
          rw [if_neg (by simp [turn])] at shown
          rw [hands, List.append_cons, List.foldl_append, breaks.mpr shown, foldl_follow_none]

/-- Up to the frame that breaks the order, the codec sees none broken. -/
theorem handed_hides (cap : UInt64) {msg : Msg} {held opened fs : List Rfc6455.Frame}
    (follows : Follows cap msg held opened) (hidden : Hidden cap.toNat opened fs) :
    ∃ p, p <+: fs ∧ p.foldl follow (some !opened.isEmpty) = none ∧
      (handed cap msg held p).foldl follow (some false) ≠ none := by
  induction fs generalizing msg held opened with
  | nil => exact hidden.elim
  | cons f fs ih =>
      rw [Hidden] at hidden
      cases turn : inTurn opened f with
      | true =>
          obtain ⟨out, msg', held', hands, whole, follows⟩ := onward cap follows turn
          rw [if_pos turn] at hidden
          obtain ⟨p, front, broken, unseen⟩ := ih follows hidden
          refine ⟨f :: p, List.cons_prefix_cons.mpr ⟨rfl, front⟩, ?_, ?_⟩
          · rw [List.foldl_cons, follow_inTurn turn]
            exact broken
          · rw [hands, List.foldl_append, whole]
            exact unseen
      | false =>
          obtain ⟨out, held', hands, breaks⟩ := handed_outOfTurn cap follows turn []
          rw [if_neg (by simp [turn])] at hidden
          refine ⟨[f], List.cons_prefix_cons.mpr ⟨rfl, List.nil_prefix⟩, ?_, ?_⟩
          · obtain ⟨data, order⟩ : f.control = false ∧ f.continuation ≠ !opened.isEmpty := by
              simpa [inTurn] using turn
            simp [follow, data, order]
          · rw [hands]
            exact fun none => breaks.mp none hidden

theorem Hidden.of_prefix {cap : Nat} {opened p fs : List Rfc6455.Frame} (front : p <+: fs)
    (hidden : Hidden cap opened p) : Hidden cap opened fs := by
  induction p generalizing opened fs with
  | nil => exact hidden.elim
  | cons f p ih =>
      obtain ⟨rest, rfl⟩ := front
      rw [List.cons_append, Hidden]
      rw [Hidden] at hidden
      split
      · rename_i turn
        rw [if_pos turn] at hidden
        exact ih (List.prefix_append p rest) hidden
      · rename_i turn
        rwa [if_neg turn] at hidden

/-- Read to the end, a guard hands on `handed`. -/
theorem reads_handed (cap : UInt64) (reserves : List Reserve) {fs : List Rfc6455.Frame} {s : Socket UInt8}
    (stream : s.bytes = fs.flatMap Frame.encode) {rooms : List Nat}
    (some : ∀ room ∈ rooms, 0 < room) (enough : Guard.patience s < rooms.length) :
    ((Guard.new cap reserves).reads s rooms).out =
      (handed cap .none [] fs).flatMap Frame.encode := by
  have all := (Guard.reads_all cap reserves s some enough).1
  rw [stream, relay, parse_encode] at all
  exact all.trans (play_handed cap .none [] fs)

theorem not_visible {cap : UInt64} {reserves : List Reserve} {fs : List Rfc6455.Frame}
    (broken : Broken fs) (unseen : ¬ Broken (handed cap .none [] fs)) :
    ¬ Visible cap reserves fs := by
  intro visible
  let s : Socket UInt8 := ⟨Arrival.left (fs.flatMap Frame.encode), .closed⟩
  have stream : s.bytes = fs.flatMap Frame.encode := Arrival.flatMap_left _
  let rooms := List.replicate (Guard.patience s + 1) 1
  have some : ∀ room ∈ rooms, 0 < room := by simp [rooms]
  have enough : Guard.patience s < rooms.length := by simp [rooms]
  obtain ⟨on, out, breaks⟩ := visible s rooms stream some enough
  have same := (reads_handed cap reserves stream some enough).symm.trans out
  exact unseen ((broken_encode same).mpr (breaks broken))

/-- However client frames reach a guard, an order they break is broken for the codec
    too, at every front of them, exactly unless the first frame out of order is a new
    message that comes while one over the cap is being dropped. -/
theorem guard_shows_broken (cap : UInt64) (reserves : List Reserve) (fs : List Rfc6455.Frame) :
    (∀ p, p <+: fs → Visible cap reserves p) ↔ ¬ Hidden cap.toNat [] fs := by
  have start : Follows cap .none [] [] := rfl
  constructor
  · intro visible hidden
    obtain ⟨p, front, broken, unseen⟩ := handed_hides cap start hidden
    exact not_visible broken unseen (visible p front)
  · intro shown p front s rooms stream some enough
    refine ⟨_, reads_handed cap reserves stream some enough, fun broken => ?_⟩
    apply handed_shows cap start _ broken
    exact fun hidden => shown (hidden.of_prefix front)

/-- A text message's first fragment, three bytes long, then a text message. -/
def overrun : List Rfc6455.Frame :=
  [textFrame false [0x61, 0x61, 0x61] (by decide), textFrame true [0x62] fits_letter]

theorem guard_shows_broken_overrun :
    ¬ ∀ (cap : UInt64) (fs : List Rfc6455.Frame), Visible cap [] fs := by
  intro visible
  have broken : Broken overrun := by decide +kernel
  have unseen : ¬ Broken (handed 2 .none [] overrun) := by decide +kernel
  exact not_visible broken unseen (visible 2 overrun)

end PlexusTransport.Ws
