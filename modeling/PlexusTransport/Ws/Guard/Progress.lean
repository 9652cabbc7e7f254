import PlexusTransport.Ws.Guard.Frames
import PlexusTransport.Ws.Guard.Tracks

/-! # Reads that make progress

A poll into a reader with room ends: with bytes, as the socket answers, or refused. Every byte
the socket gave is then handed on, kept, or dropped with its message.
-/

namespace PlexusTransport.Ws

variable {β : Type}

namespace Socket

/-- A read of the socket that gives bytes. -/
def Gives (s s' : Socket β) : Prop :=
  ∃ room first rest, 0 < room ∧ s.pollRead room = (.bytes (first :: rest), s')

/-- The socket's own answer to the last of its reads, where those before gave bytes. -/
def Replies (s : Socket β) (r : Polled β) (s' : Socket β) : Prop :=
  ∃ t room, Relation.ReflTransGen Gives s t ∧ 0 < room ∧ t.pollRead room = (r, s')

end Socket

section Progress

variable [Octet β]

/-- How a poll of a guard is answered: with bytes, or refused for a length, or else as the
    socket answered in it. -/
def Socket.Answered (s : Socket β) (g : Guard β) (s' : Socket β) : Polled β → Prop
  | .bytes (_ :: _) => True
  | .bytes [] => s.Replies (.bytes []) s'
  | .pending => s.Replies .pending s'
  | .failed .refused => illegalLength g.buf = true
  | .failed .io => s.Replies (.failed .io) s'

/-- A turn reads nothing, or some bytes, or answers. -/
def Turn.Answers (s : Socket β) : Turn β → Prop
  | .again _ s' => s' = s ∨ s.Gives s'
  | .done g s' r => s.Answered g s' r

variable {s s' t : Socket β} {r : Polled β}

theorem Socket.Answered.after {g : Guard β} (gives : Relation.ReflTransGen Gives s t)
    (answered : t.Answered g s' r) : s.Answered g s' r := by
  have replies : ∀ {r}, t.Replies r s' → s.Replies r s' := by
    rintro r ⟨u, room, later, some, read⟩
    exact ⟨u, room, gives.trans later, some, read⟩
  match r, answered with
  | .bytes (_ :: _), _ => exact trivial
  | .bytes [], answered | .pending, answered | .failed .io, answered => exact replies answered
  | .failed .refused, illegal => exact illegal

theorem Socket.answered_read {room : Nat} (some : 0 < room) (read : s.pollRead room = (r, s'))
    (g : Guard β) : s.Answered g s' r := by
  have replies : s.Replies r s' := ⟨s, room, .refl, some, read⟩
  have answers := s.pollRead_answers some
  rw [read] at answers
  match r, replies, answers with
  | .bytes (_ :: _), _, _ => exact trivial
  | .bytes [], replies, _ | .pending, replies, _ | .failed .io, replies, _ => exact replies
  | .failed .refused, _, answers => cases answers.1

namespace Guard

/-- The loop in `poll_read`, given up after this many turns. -/
def loop (g : Guard β) (s : Socket β) (out : Nat) : Nat → Option (Guard β × Socket β × Polled β)
  | 0 => none
  | n + 1 =>
      match g.turn s out with
      | .done g s r => some (g, s, r)
      | .again g s => g.loop s out n

theorem loop_ends {g : Guard β} {s : Socket β} {out n : Nat} (enough : g.work s < n) :
    g.loop s out n = some (g.pollRead s out) := by
  induction n generalizing g s with
  | zero => omega
  | succ n ih =>
      cases step : g.turn s out with
      | done g' s' r => simp only [loop, step, pollRead_done step]
      | again g' s' =>
          have less := turn_again step
          rw [pollRead_again step, ← ih (by omega)]
          simp only [loop, step]

theorem turn_answers (g : Guard β) (s : Socket β) {out : Nat} (room : 0 < out) :
    (g.turn s out).Answers s := by
  have front : ∀ {b : List β}, b ≠ [] → ∀ {n : Nat}, 0 < n → ∀ g',
      s.Answered g' s (.bytes (b.take n)) := by
    intro b ne n pos g'
    match b, n, ne, pos with
    | b :: bs, n + 1, _, _ => exact trivial
  have moves := g.moves s out
  generalize g.turn s out = t at moves ⊢
  cases moves with
  | hands ready most =>
      have := List.length_pos_of_ne_nil ready
      exact front ready (by omega) _
  | passes drained state left buf most =>
      have := List.length_pos_of_ne_nil buf
      exact front buf (by omega) _
  | full drained state none => omega
  | relays drained state left empty some read => exact Socket.answered_read (by omega) read _
  | fills drained short reserved some read => exact .inr ⟨_, _, _, some, read⟩
  | waits drained short reserved some read nothing => exact Socket.answered_read some read _
  | refuses drained state illegal => exact illegal
  | ends | endsHold | holds | skips | decides => exact .inl rfl

theorem pollRead_answered (g : Guard β) (s : Socket β) {out : Nat} (room : 0 < out) :
    s.Answered (g.pollRead s out).1 (g.pollRead s out).2.1 (g.pollRead s out).2.2 := by
  refine pollRead_keeps (fun _ s' => Relation.ReflTransGen Socket.Gives s s')
    (fun g' s' r => s.Answered g' s' r) ?_ ?_ .refl
  · intro g₁ s₁ g₂ s₂ gives step
    have answers := turn_answers g₁ s₁ room
    rw [step] at answers
    obtain rfl | more := answers
    · exact gives
    · exact gives.tail more
  · intro g₁ s₁ g₂ s₂ r gives step
    have answers := turn_answers g₁ s₁ room
    rw [step] at answers
    exact Socket.Answered.after gives answers

end Guard

end Progress

/-- The first of these frames, of which the last may be cut short. -/
inductive Front (frames : List (Frame β)) : List (Frame β) → Prop where
  | whole {fs : List (Frame β)} (front : fs <+: frames) : Front frames fs
  | cut {fs : List (Frame β)} {h : Header} {p q : List β}
      (front : fs ++ [⟨h, p ++ q⟩] <+: frames) : Front frames (fs ++ [⟨h, p⟩])

theorem cut_append {fs last : List (Frame β)} (whole : ∀ f ∈ fs, f.Whole) (cut : Cut last) :
    Cut (fs ++ last) := by
  induction fs with
  | nil => exact cut
  | cons f fs ih => exact ⟨.inr (whole f (by simp)), ih fun g mem => whole g (by simp [mem])⟩

/-- What is held is a message's that is unfinished. -/
theorem hold_unfinished {cap : UInt64} {d : Dealt β} {opened : Option (DataMessage β)}
    (minds : Minds cap d.msg d.hold opened) (clean : d.Clean) : d.hold = unfinished cap opened := by
  obtain ⟨none, rfl⟩ | ⟨m, rfl, ⟨none, cutIn⟩ | ⟨-, own, fits, held⟩ | ⟨skipping, own, past⟩⟩ :=
    minds_cases minds
  · exact clean.idle none
  · simp [clean.idle none, unfinished, cutIn]
  · simp [held, unfinished, own, DataMessage.overCap, fits]
  · simp [clean.other (by simp [skipping]), unfinished, own, (over_iff own).mpr past]

section Accounts

variable [Octet β]

/-- Every byte that came was handed on, in turn, or is kept, or was dropped: with a message over
    the cap, or, when a length was refused, with the message unfinished then. -/
structure Guard.Accounts (cap : UInt64) (came out : List β) (g : Guard β) (fs : List (Frame β))
    (refused : List β) : Prop where
  frames : Front (parse came).frames fs
  bytes : came.Perm (out ++ (g.ready ++ g.hold ++ g.buf) ++
    ((lost cap none fs).flatMap (·.bytes) ++ refused))
  refusal : refused = [] ∨ illegalLength g.buf = true ∧ refused = unfinished cap (opening none fs)
  turn : ∀ pos : β → Nat, came.Pairwise (pos · < pos ·) → out.Pairwise (InTurn pos fs)

variable {cap : UInt64} {came out rest p : List β} {fs : List (Frame β)} {h : Header} {n : Nat}

theorem Met.front (met : Met came fs rest) : Front (parse came).frames fs := by
  have parsed := met.parsed []
  rw [List.append_nil] at parsed
  exact .whole (parsed ▸ List.prefix_append _ _)

theorem At.front (inside : At came rest fs h p n) :
    Front (parse came).frames (fs ++ [⟨h, p⟩]) := by
  have parsed := inside.met.parsed []
  rw [List.append_nil, List.append_nil, parse_header inside.legal inside.found] at parsed
  have left := inside.left
  rw [List.take_append, List.take_of_length_le (by omega)] at parsed
  refine .cut (q := rest.take (h.size + h.len - p.length)) ?_
  rw [parsed]
  exact ⟨_, by rw [List.append_assoc, List.singleton_append]⟩

theorem At.cut (inside : At came rest fs h p n) : Cut (fs ++ [⟨h, p⟩]) :=
  cut_append inside.met.whole ⟨.inl rfl, trivial⟩

theorem At.split (inside : At came rest fs h p n) :
    came = (fs ++ [(⟨h, p⟩ : Frame β)]).flatMap Frame.bytes ++ rest := by
  simpa [List.append_assoc] using inside.met.split

/-- From what `deal` says of the frames met, to what became of each byte. -/
theorem Guard.accounts_dealt {g : Guard β} {hold : List β} (front : Front (parse came).frames fs)
    (cut : Cut fs) (split : came = fs.flatMap Frame.bytes ++ g.buf)
    (dealt : Dealt.all cap fs = ⟨g.msg, hold, out ++ g.ready⟩) {refused : List β}
    (held : hold = g.hold ++ refused)
    (refusal : refused = [] ∨
      illegalLength g.buf = true ∧ refused = unfinished cap (opening none fs)) :
    g.Accounts cap came out fs refused where
  frames := front
  bytes := by
    classical
    rw [List.perm_iff_count]
    intro b
    have start : Minds cap .none ([] : List β) none := rfl
    have bytes := dealt_bytes (d := .new) start (.inr rfl) cut b
    have dealt : fs.foldl (Dealt.deal cap) .new = _ := dealt
    rw [dealt, held] at bytes
    simp only [split, List.count_append, lost, gone, Dealt.new, kept, List.count_nil] at bytes ⊢
    omega
  refusal := refusal
  turn pos places := by
    rw [split, List.pairwise_append] at places
    have start : (Dealt.new : Dealt β).Turned pos [] :=
      ⟨.nil, .nil, by simp [Dealt.new], by simp [Dealt.new]⟩
    have turned : (Dealt.all cap fs).Turned pos ([] ++ fs) :=
      dealt_turned start (.inr rfl) places.1
    rw [dealt, List.nil_append] at turned
    exact turned.handed.sublist (by simp [List.append_assoc])

theorem Guard.Tracks.accounts {g : Guard β} (tracks : g.Tracks cap came out) :
    ∃ fs refused, g.Accounts cap came out fs refused := by
  obtain ⟨-, tracks⟩ := tracks
  cases state : g.state with
  | header =>
      simp only [state] at tracks
      obtain ⟨fs, hold, met, dealt, kept⟩ := tracks
      have cut : Cut (fs ++ []) := cut_append met.whole trivial
      rw [List.append_nil] at cut
      obtain rfl | ⟨cleared, illegal⟩ := kept
      · exact ⟨fs, [], accounts_dealt met.front cut met.split dealt (by simp) (.inl rfl)⟩
      · have minds := Dealt.all_minds cap met.whole
        have left := hold_unfinished minds (Dealt.all_clean cap fs)
        rw [dealt] at left
        exact ⟨fs, hold, accounts_dealt met.front cut met.split dealt (by simp [cleared])
          (.inr ⟨illegal, left⟩)⟩
  | pass n | skip n =>
      simp only [state] at tracks
      obtain ⟨fs, h, p, inside, -, dealt⟩ := tracks
      rw [← Dealt.all_append] at dealt
      exact ⟨_, [], accounts_dealt inside.front inside.cut inside.split dealt (by simp) (.inl rfl)⟩
  | hold n =>
      simp only [state] at tracks
      obtain ⟨fs, h, p, total, inside, -, -, -, dealt⟩ := tracks
      rw [← Dealt.all_append] at dealt
      exact ⟨_, [], accounts_dealt inside.front inside.cut inside.split dealt (by simp) (.inl rfl)⟩

/-- After any run of polls, a poll into a reader with room ends, answered with bytes, as the
    socket it then has answers, or refused; and every byte read is accounted for. -/
theorem guard_progress (cap : UInt64) (reserves : List Reserve) (s : Socket β) (rooms : List Nat)
    {before : Reading β} (reached : (Guard.new cap reserves).reads s rooms = before)
    (t : Socket β) {room : Nat} (some : 0 < room) :
    ∃ g t' r, before.guard.pollRead t room = (g, t', r) ∧
      before.guard.loop t room (before.guard.work t + 1) = Option.some (g, t', r) ∧
      t.Answered g t' r ∧
      ∃ came read, s.bytes = came ++ before.socket.bytes ∧ t.bytes = read ++ t'.bytes ∧
        ∃ fs refused, g.Accounts cap (came ++ read) (before.out ++ r.handed) fs refused := by
  subst reached
  refine ⟨_, _, _, rfl, Guard.loop_ends (Nat.lt_succ_self _), Guard.pollRead_answered _ t some, ?_⟩
  obtain ⟨came, split, tracks⟩ := Guard.reads_tracks (Guard.tracks_new cap reserves) s rooms
  obtain ⟨read, split', tracks'⟩ := Guard.pollRead_tracks tracks t room
  exact ⟨came, read, split, split', tracks'.accounts⟩

end Accounts

/-- A fragment is held; then a ping comes. -/
theorem guard_progress_pinged :
    ∃ g t came read fs refused,
      ((Guard.new 2 []).reads pingedSocket [3]).guard.pollRead
          ((Guard.new 2 []).reads pingedSocket [3]).socket 3 = (g, t, .bytes [0x89, 0x00]) ∧
        pingedSocket.bytes = came ++ read ++ t.bytes ∧
          g.Accounts 2 (came ++ read) [0x89, 0x00] fs refused := by
  obtain ⟨g, t, r, polled, -, -, came, read, split, split', fs, refused, accounts⟩ :=
    guard_progress 2 [] pingedSocket [3] rfl ((Guard.new 2 []).reads pingedSocket [3]).socket
      (by decide : 0 < 3)
  have answer : (((Guard.new 2 []).reads pingedSocket [3]).guard.pollRead
      ((Guard.new 2 []).reads pingedSocket [3]).socket 3).2.2 = .bytes [0x89, 0x00] := by
    decide +kernel
  have before : ((Guard.new 2 []).reads pingedSocket [3]).out = [] := by decide +kernel
  rw [polled] at answer
  cases answer
  rw [before] at accounts
  exact ⟨g, t, came, read, fs, refused, polled, by rw [split, split', List.append_assoc], accounts⟩

/-- The ping goes ahead of the fragment. -/
theorem guard_progress_ahead :
    ¬ ∀ (cap : UInt64) (s : Socket UInt8) (rooms : List Nat),
      ((Guard.new cap []).reads s rooms).out.Sublist s.bytes := by
  intro inOrder
  have ahead : ¬ ((Guard.new 2 []).reads pingedSocket [3, 3, 3]).out.Sublist pingedSocket.bytes := by
    decide +kernel
  exact ahead (inOrder 2 pingedSocket [3, 3, 3])

end PlexusTransport.Ws
