import PlexusTransport.Ws.Guard.Chunks

/-! # Every byte accounted for

`deal` follows a guard by the frames it has met, the last of them as far as it has come. Each
byte of theirs was handed on, is held, or was dropped with a message over the cap.
-/

namespace PlexusTransport.Ws

variable {β : Type}

/-- What a guard has done with the frames it has met. -/
structure Dealt (β : Type) where
  msg : Msg
  hold : List β
  handed : List β

namespace Dealt

def new : Dealt β := ⟨.none, [], []⟩

def deal (cap : UInt64) (d : Dealt β) (f : Frame β) : Dealt β :=
  match fate cap d.msg f.header with
  | .pass msg => { d with msg, handed := d.handed ++ f.bytes }
  | .release => ⟨.none, [], d.handed ++ d.hold ++ f.bytes⟩
  | .keep total =>
      if f.header.fin ∧ f.Whole then ⟨.none, [], d.handed ++ d.hold ++ f.bytes⟩
      else ⟨.holding total, d.hold ++ f.bytes, d.handed⟩
  | .drop _ msg => ⟨msg, [], d.handed⟩

/-- Nothing is held but a message's that is. -/
def Clean (d : Dealt β) : Prop := (∃ len, d.msg = .holding len) ∨ d.hold = []

variable {cap : UInt64} {d : Dealt β} {opened : Option (DataMessage β)} {f : Frame β}

theorem Clean.other (clean : d.Clean) (other : ∀ len, d.msg ≠ .holding len) : d.hold = [] :=
  clean.resolve_left (not_exists.mpr other)

theorem Clean.idle (clean : d.Clean) (idle : d.msg = .none) : d.hold = [] :=
  clean.other (by simp [idle])

theorem deal_clean (clean : d.Clean) (f : Frame β) : (d.deal cap f).Clean := by
  unfold deal
  split
  · rename_i msg fated
    obtain ⟨len, is⟩ | none := clean
    · rw [is] at fated
      have same : msg = .holding len := by
        unfold fate at fated
        grind
      exact .inl ⟨len, same⟩
    · exact .inr none
  · exact .inr rfl
  · split
    · exact .inr rfl
    · exact .inl ⟨_, rfl⟩
  · exact .inr rfl

end Dealt

/-- The messages up to a frame: those it closes come first, then the one it leaves open. -/
theorem messages_one (opened : Option (DataMessage β)) (f : Frame β) :
    ∃ closed, messages opened [f] = closed ++ (opening opened [f]).toList ∧
      ∀ fs, messages opened (f :: fs) = closed ++ messages (opening opened [f]) fs := by
  simp only [messages, opening]
  split
  · exact ⟨[], rfl, fun _ => rfl⟩
  · split
    · cases opened with
      | none => exact ⟨[], rfl, fun _ => rfl⟩
      | some m => exact ⟨_, rfl, fun _ => rfl⟩
    · exact ⟨_, rfl, fun _ => rfl⟩

theorem opening_cons (opened : Option (DataMessage β)) (f : Frame β) (fs : List (Frame β)) :
    opening opened (f :: fs) = opening (opening opened [f]) fs := by
  simp only [opening]
  split
  · rfl
  · split
    · cases opened with
      | none => rfl
      | some m => rfl
    · rfl

section Account

variable {cap : UInt64} {d : Dealt β} {opened : Option (DataMessage β)}

/-- What is known of a message that the guard follows, by where it stands. -/
theorem minds_cases {msg : Msg} {hold : List β} (minds : Minds cap msg hold opened) :
    msg = .none ∧ opened = none ∨
      ∃ m, opened = some m ∧
        (msg = .none ∧ m.cutIn = true ∨
          msg = .holding m.total ∧ m.cutIn = false ∧ m.total ≤ cap.toNat ∧ hold = m.bytes ∨
            msg = .skipping ∧ m.cutIn = false ∧ cap.toNat < m.total) := by
  cases opened with
  | none => exact .inl ⟨minds, rfl⟩
  | some m =>
      refine .inr ⟨m, rfl, ?_⟩
      cases cutIn : m.cutIn with
      | true => exact .inl ⟨by simpa [Minds, cutIn] using minds, rfl⟩
      | false =>
          simp only [Minds, cutIn, Bool.false_eq_true, if_false] at minds
          obtain ⟨holding, fits, held⟩ | ⟨skipping, past⟩ := minds
          · exact .inr (.inl ⟨holding, rfl, fits, held⟩)
          · exact .inr (.inr ⟨skipping, rfl, past⟩)

/-- What a frame is to the messages, by where the open one stands: what becomes of it, the
    messages up to it, and the one it leaves open. -/
inductive Meets (cap : UInt64) (d : Dealt β) (f : Frame β) :
    Option (DataMessage β) → Fate → List (DataMessage β) → Option (DataMessage β) → Prop where
  | control {opened : Option (DataMessage β)} (control : f.control = true) :
      Meets cap d f opened (.pass d.msg) opened.toList opened
  | stray (data : f.control = false) (idle : d.msg = .none) :
      Meets cap d f none (.pass .none) [] none
  | onward {m : DataMessage β} (data : f.control = false) (idle : d.msg = .none)
      (cutIn : m.cutIn = true) :
      Meets cap d f (some m) (.pass .none) [m.add f] (f.leaves (m.add f))
  | keeps {m : DataMessage β} (data : f.control = false) (own : m.cutIn = false)
      (held : d.hold = m.bytes) (fits : m.total + f.header.len ≤ cap.toNat) :
      Meets cap d f (some m) (.keep (m.total + f.header.len)) [m.add f] (f.leaves (m.add f))
  | drops {m : DataMessage β} {counted : Bool} (own : m.cutIn = false)
      (past : cap.toNat < m.total + f.header.len) :
      Meets cap d f (some m) (.drop counted f.dropping) [m.add f] (f.leaves (m.add f))
  | releases {m : DataMessage β} (data : f.control = false) (own : m.cutIn = false)
      (held : d.hold = m.bytes) (fits : m.total ≤ cap.toNat) :
      Meets cap d f (some m) .release [m, ⟨true, [f]⟩] (f.leaves ⟨true, [f]⟩)
  | cutsIn {m : DataMessage β} (data : f.control = false) (own : m.cutIn = false)
      (skipping : d.msg = .skipping) (past : cap.toNat < m.total) :
      Meets cap d f (some m) (.pass .none) [m, ⟨true, [f]⟩] (f.leaves ⟨true, [f]⟩)
  | passes {opened : Option (DataMessage β)} (data : f.control = false) (idle : d.msg = .none)
      (outer : ∀ m ∈ opened, m.cutIn = true) (fin : f.header.fin = true)
      (fits : f.header.len ≤ cap.toNat) :
      Meets cap d f opened (.pass .none) (opened.toList ++ [⟨false, [f]⟩]) (f.leaves ⟨false, [f]⟩)
  | holds {opened : Option (DataMessage β)} (data : f.control = false) (idle : d.msg = .none)
      (outer : ∀ m ∈ opened, m.cutIn = true) (fits : f.header.len ≤ cap.toNat) :
      Meets cap d f opened (.keep f.header.len) (opened.toList ++ [⟨false, [f]⟩])
        (f.leaves ⟨false, [f]⟩)
  | refuses {opened : Option (DataMessage β)} (idle : d.msg = .none)
      (outer : ∀ m ∈ opened, m.cutIn = true) (past : cap.toNat < f.header.len) :
      Meets cap d f opened (.drop true f.dropping) (opened.toList ++ [⟨false, [f]⟩])
        (f.leaves ⟨false, [f]⟩)

theorem meets (minds : Minds cap d.msg d.hold opened) (f : Frame β) :
    Meets cap d f opened (fate cap d.msg f.header) (messages opened [f])
      (opening opened [f]) := by
  cases control : f.control with
  | true =>
      have fated : fate cap d.msg f.header = .pass d.msg := by
        simp only [Frame.control] at control
        simp [fate, control]
      rw [fated]
      simpa [messages, opening, control] using Meets.control control
  | false =>
      have data : (f.header.opcode &&& 0x08 != 0) = false := control
      by_cases part : f.header.opcode = 0
      · have more : ∀ m, messages (some m) [f] = [m.add f] ∧ opening (some m) [f] = f.leaves (m.add f) := by
          intro m
          simp [messages, opening, control, part, ends_leaves]
        obtain ⟨none, rfl⟩ | ⟨m, rfl, ⟨none, cutIn⟩ | ⟨holding, own, fits, held⟩ |
          ⟨skipping, own, past⟩⟩ := minds_cases minds
        · rw [show fate cap d.msg f.header = .pass .none by simp [fate, part, none]]
          simpa [messages, opening, control, part] using Meets.stray control none
        · rw [show fate cap d.msg f.header = .pass .none by simp [fate, part, none],
            (more m).1, (more m).2]
          exact .onward control none cutIn
        · rw [(more m).1, (more m).2]
          by_cases fits : m.total + f.header.len ≤ cap.toNat
          · rw [show fate cap d.msg f.header = .keep (m.total + f.header.len) by
              simp [fate, part, holding, fits]]
            exact .keeps control own held fits
          · rw [show fate cap d.msg f.header = .drop true f.dropping by
              simp [fate, part, holding, fits, Frame.dropping]]
            exact .drops own (by omega)
        · rw [show fate cap d.msg f.header = .drop false f.dropping by
            simp [fate, part, skipping, Frame.dropping], (more m).1, (more m).2]
          exact .drops own (by omega)
      · have opens : (f.header.opcode = 0) = False := eq_false part
        have more : messages opened [f] = opened.toList ++ [⟨opened.any fun m => !m.cutIn, [f]⟩] ∧
            opening opened [f] = f.leaves ⟨opened.any fun m => !m.cutIn, [f]⟩ := by
          simp [messages, opening, control, opens, ends_leaves]
        have fresh : d.msg = .none → (∀ m ∈ opened, m.cutIn = true) →
            Meets cap d f opened (fate cap d.msg f.header) (opened.toList ++ [⟨false, [f]⟩])
              (f.leaves ⟨false, [f]⟩) := by
          intro none outer
          by_cases past : cap.toNat < f.header.len
          · rw [show fate cap d.msg f.header = .drop true f.dropping by
              simp [fate, data, opens, none, past, Frame.dropping]]
            exact .refuses none outer past
          · cases fin : f.header.fin with
            | true =>
                rw [show fate cap d.msg f.header = .pass .none by
                  simp [fate, data, opens, none, past, fin]]
                exact .passes control none outer fin (by omega)
            | false =>
                rw [show fate cap d.msg f.header = .keep f.header.len by
                  simp [fate, data, opens, none, past, fin]]
                exact .holds control none outer (by omega)
        rw [more.1, more.2]
        obtain ⟨none, rfl⟩ | ⟨m, rfl, ⟨none, cutIn⟩ | ⟨holding, own, fits, held⟩ |
          ⟨skipping, own, past⟩⟩ := minds_cases minds
        · exact fresh none (by simp)
        · simp only [Option.any_some, cutIn, Bool.not_true]
          exact fresh none (by simp [cutIn])
        · rw [show fate cap d.msg f.header = .release by simp [fate, data, opens, holding]]
          simp only [Option.any_some, own, Bool.not_false]
          exact .releases control own held fits
        · rw [show fate cap d.msg f.header = .pass .none by simp [fate, data, opens, skipping]]
          simp only [Option.any_some, own, Bool.not_false]
          exact .cutsIn control own skipping past

/-- A whole frame leaves the guard knowing the open message. -/
theorem deal_minds (minds : Minds cap d.msg d.hold opened) (clean : d.Clean) {f : Frame β}
    (whole : f.Whole) :
    Minds cap (d.deal cap f).msg (d.deal cap f).hold (opening opened [f]) := by
  have met := meets minds f
  unfold Dealt.deal
  generalize fate cap d.msg f.header = fated, messages opened [f] = ms, opening opened [f] = after
    at met ⊢
  cases met with
  | control control => exact minds
  | stray data idle => exact rfl
  | onward data idle cutIn => exact minds_cutIn f _ cutIn
  | @keeps m data own held fits =>
      simp only [whole, and_true]
      cases fin : f.header.fin <;> simp [Frame.leaves, fin, Minds, own, fits, held]
  | @drops m counted own past => exact minds_over (m := m.add f) f own _ (by simpa using past)
  | releases data own held fits => exact minds_cutIn f _ rfl
  | cutsIn data own skipping past => exact minds_cutIn f _ rfl
  | passes data idle outer fin fits => simp [Frame.leaves, fin, Minds]
  | holds data idle outer fits =>
      have empty : d.hold = [] := clean.idle idle
      simp only [whole, and_true]
      cases fin : f.header.fin <;> simp [Frame.leaves, fin, Minds, fits, empty]
  | refuses idle outer past => exact minds_over (m := ⟨false, [f]⟩) f rfl _ (by simpa using past)

theorem dealt_minds {fs : List (Frame β)} (minds : Minds cap d.msg d.hold opened) (clean : d.Clean)
    (whole : ∀ f ∈ fs, f.Whole) :
    Minds cap (fs.foldl (Dealt.deal cap) d).msg (fs.foldl (Dealt.deal cap) d).hold
      (opening opened fs) := by
  induction fs generalizing d opened with
  | nil => exact minds
  | cons f fs ih =>
      rw [opening_cons]
      exact ih (deal_minds minds clean (whole f (by simp))) (Dealt.deal_clean clean f)
        fun g mem => whole g (by simp [mem])

variable [DecidableEq β]

/-- The bytes of the messages over the cap. -/
def gone (cap : UInt64) (ms : List (DataMessage β)) (b : β) : Nat :=
  ((ms.filter (DataMessage.overCap cap)).flatMap (·.bytes)).count b

@[simp] theorem gone_nil (b : β) : gone cap [] b = 0 := rfl

@[simp] theorem gone_append (ms ns : List (DataMessage β)) (b : β) :
    gone cap (ms ++ ns) b = gone cap ms b + gone cap ns b := by
  simp [gone]

theorem gone_cons (m : DataMessage β) (ms : List (DataMessage β)) (b : β) :
    gone cap (m :: ms) b = gone cap [m] b + gone cap ms b := gone_append [m] ms b

theorem gone_over {m : DataMessage β} (own : m.cutIn = false) (past : cap.toNat < m.total) (b : β) :
    gone cap [m] b = m.bytes.count b := by
  simp [gone, (over_iff own).mpr past]

theorem gone_within {m : DataMessage β} (within : m.overCap cap = false) (b : β) :
    gone cap [m] b = 0 := by
  simp [gone, within]

theorem gone_cutIn {m : DataMessage β} (cutIn : m.cutIn = true) (b : β) : gone cap [m] b = 0 :=
  gone_within (within_cutIn cutIn) b

theorem gone_fits {m : DataMessage β} (fits : m.total ≤ cap.toNat) (b : β) : gone cap [m] b = 0 :=
  gone_within (by simp [DataMessage.overCap, fits]) b

/-- What the guard keeps of the open message is held, or dropped. -/
theorem kept_split (minds : Minds cap d.msg d.hold opened) (clean : d.Clean) (b : β) :
    d.hold.count b + gone cap opened.toList b = (kept opened).count b := by
  obtain ⟨none, rfl⟩ | ⟨m, rfl, ⟨none, cutIn⟩ | ⟨-, own, fits, held⟩ | ⟨skipping, own, past⟩⟩ :=
    minds_cases minds
  · simp [clean.idle none, kept]
  · simp [clean.idle none, kept, cutIn, gone_cutIn cutIn]
  · simp [held, kept, own, gone_fits fits]
  · simp [clean.other (by simp [skipping]), kept, own, gone_over own past]

/-- The bytes of a frame, however many of them came, are handed on, held, or gone with a message
    over the cap. -/
theorem deal_bytes (minds : Minds cap d.msg d.hold opened) (clean : d.Clean) (f : Frame β) (b : β) :
    (d.deal cap f).handed.count b + (d.deal cap f).hold.count b + gone cap (messages opened [f]) b =
      d.handed.count b + (kept opened).count b + f.bytes.count b := by
  have split := kept_split minds clean b
  have met := meets minds f
  unfold Dealt.deal
  generalize fate cap d.msg f.header = fated, messages opened [f] = ms, opening opened [f] = after
    at met ⊢
  cases met with
  | control control =>
      simp only [List.count_append]
      omega
  | stray data idle =>
      simp only [List.count_append, Option.toList, gone_nil] at split ⊢
      omega
  | @onward m data idle cutIn =>
      simp only [List.count_append, Option.toList, gone_cutIn cutIn,
        gone_cutIn (m := m.add f) cutIn] at split ⊢
      omega
  | @keeps m data own held fits =>
      have small : m.total ≤ cap.toNat := by omega
      simp only [Option.toList, gone_fits small] at split
      rw [gone_fits (by simpa using fits)]
      dsimp only
      split <;> simp only [List.count_append, List.count_nil] <;> omega
  | @drops m counted own past =>
      rw [gone_over (m := m.add f) own (by simpa using past)]
      simp only [DataMessage.bytes_add, List.count_append, kept, own, Bool.false_eq_true, if_false,
        List.count_nil]
      omega
  | @releases m data own held fits =>
      rw [gone_cons, gone_cutIn (m := ⟨true, [f]⟩) rfl]
      simp only [List.count_append, List.count_nil, Option.toList] at split ⊢
      omega
  | @cutsIn m data own skipping past =>
      rw [gone_cons, gone_cutIn (m := ⟨true, [f]⟩) rfl]
      simp only [List.count_append, Option.toList] at split ⊢
      omega
  | passes data idle outer fin fits =>
      rw [gone_append, gone_fits (m := ⟨false, [f]⟩) (by simpa using fits)]
      simp only [List.count_append]
      omega
  | holds data idle outer fits =>
      rw [gone_append, gone_fits (m := ⟨false, [f]⟩) (by simpa using fits)]
      dsimp only
      split <;> simp only [List.count_append, List.count_nil] <;> omega
  | refuses idle outer past =>
      have empty : d.hold = [] := clean.idle idle
      rw [gone_append, gone_over (m := ⟨false, [f]⟩) rfl (by simpa using past)]
      simp only [empty, DataMessage.bytes_one, List.count_nil] at split ⊢
      omega

theorem dealt_bytes {fs : List (Frame β)} (minds : Minds cap d.msg d.hold opened)
    (clean : d.Clean) (cut : Cut fs) (b : β) :
    (fs.foldl (Dealt.deal cap) d).handed.count b + (fs.foldl (Dealt.deal cap) d).hold.count b +
        gone cap (messages opened fs) b =
      d.handed.count b + (kept opened).count b + (fs.flatMap Frame.bytes).count b := by
  induction fs generalizing d opened with
  | nil =>
      have split := kept_split minds clean b
      simp only [List.foldl_nil, messages, List.flatMap_nil, List.count_nil]
      omega
  | cons f fs ih =>
      obtain ⟨whole, cut⟩ := cut
      have first := deal_bytes minds clean f b
      obtain rfl | whole := whole
      · simpa using first
      · obtain ⟨closed, one, onward⟩ := messages_one opened f
        have minds' := deal_minds minds clean whole
        have later := ih minds' (Dealt.deal_clean clean f) cut
        have split := kept_split minds' (Dealt.deal_clean clean f) b
        rw [one, gone_append] at first
        simp only [List.foldl_cons, onward, gone_append, List.flatMap_cons, List.count_append]
        omega

end Account

section Order

variable {cap : UInt64} {d : Dealt β} {fs : List (Frame β)} {pos : β → Nat}

/-- Of two bytes handed on the first came first, or it is a control frame's and went ahead of a
    data frame's. -/
def InTurn (pos : β → Nat) (fs : List (Frame β)) (a b : β) : Prop :=
  pos a < pos b ∨
    (∃ f ∈ fs, f.control = true ∧ a ∈ f.bytes) ∧ ∃ f ∈ fs, f.control = false ∧ b ∈ f.bytes

theorem InTurn.mono {a b : β} (inTurn : InTurn pos fs a b) (later : List (Frame β)) :
    InTurn pos (fs ++ later) a b := by
  obtain first | ⟨⟨f, mem, control⟩, g, mem', data⟩ := inTurn
  · exact .inl first
  · exact .inr ⟨⟨f, by simp [mem], control⟩, g, by simp [mem'], data⟩

/-- What is handed on of these frames is in turn, and so is what is held. -/
structure Dealt.Turned (pos : β → Nat) (fs : List (Frame β)) (d : Dealt β) : Prop where
  handed : (d.handed ++ d.hold).Pairwise (InTurn pos fs)
  hold : d.hold.Pairwise (pos · < pos ·)
  data : ∀ b ∈ d.hold, ∃ f ∈ fs, f.control = false ∧ b ∈ f.bytes
  came : ∀ a ∈ d.handed ++ d.hold, a ∈ fs.flatMap Frame.bytes

theorem fate_pass {msg msg' : Msg} {f : Frame β} (fated : fate cap msg f.header = .pass msg')
    (data : f.control = false) : ∀ len, msg ≠ .holding len := by
  rintro len rfl
  have data : (f.header.opcode &&& 0x08 != 0) = false := data
  unfold fate at fated
  simp only [data] at fated
  grind

theorem fate_keep {msg : Msg} {total : Nat} {f : Frame β}
    (fated : fate cap msg f.header = .keep total) : f.control = false := by
  by_contra control
  have control : (f.header.opcode &&& 0x08 != 0) = true := by simpa [Frame.control] using control
  unfold fate at fated
  simp only [control, if_true, reduceCtorEq] at fated

theorem Dealt.Turned.deal {f : Frame β} (turned : d.Turned pos fs) (clean : d.Clean)
    (places : ((fs ++ [f]).flatMap Frame.bytes).Pairwise (pos · < pos ·)) :
    (d.deal cap f).Turned pos (fs ++ [f]) := by
  obtain ⟨handed, hold, data, came⟩ := turned
  simp only [List.flatMap_append, List.flatMap_singleton, List.pairwise_append] at places
  obtain ⟨-, own, before⟩ := places
  have later : ∀ a ∈ d.handed ++ d.hold, ∀ b ∈ f.bytes, pos a < pos b := fun a mem b mem' =>
    before a (came a mem) b mem'
  have all : (d.handed ++ d.hold ++ f.bytes).Pairwise (InTurn pos (fs ++ [f])) := by
    rw [List.pairwise_append]
    exact ⟨handed.imp fun inTurn => inTurn.mono [f], own.imp .inl,
      fun a mem b mem' => .inl (later a mem b mem')⟩
  have bytes : ∀ a ∈ d.handed ++ d.hold ++ f.bytes, a ∈ (fs ++ [f]).flatMap Frame.bytes := by
    intro a mem
    rw [List.flatMap_append, List.flatMap_singleton]
    exact (List.mem_append.mp mem).elim (fun old => List.mem_append_left _ (came a old))
      (List.mem_append_right _)
  have data' : ∀ b ∈ d.hold, ∃ g ∈ fs ++ [f], g.control = false ∧ b ∈ g.bytes := by
    intro b mem
    obtain ⟨g, there, rest⟩ := data b mem
    exact ⟨g, List.mem_append_left _ there, rest⟩
  unfold Dealt.deal
  split
  · rename_i msg fated
    have moved : ∀ a, a ∈ d.handed ++ f.bytes ++ d.hold ↔ a ∈ d.handed ++ d.hold ++ f.bytes := by
      intro a
      simp only [List.mem_append]
      tauto
    refine ⟨?_, hold, data', fun a mem => bytes a ((moved a).mp mem)⟩
    cases control : f.control with
    | false =>
        have empty : d.hold = [] := clean.other (fate_pass fated control)
        simpa [empty] using all
    | true =>
        -- What is held waits for its message; the control frame does not.
        have ahead : ∀ a ∈ f.bytes, ∀ b ∈ d.hold, InTurn pos (fs ++ [f]) a b := fun a mem b mem' =>
          .inr ⟨⟨f, by simp, control, mem⟩, data' b mem'⟩
        simp only [List.pairwise_append, List.mem_append] at all ⊢
        obtain ⟨⟨handed, hold, cross⟩, own, last⟩ := all
        refine ⟨⟨handed, own, fun a mem b mem' => last a (.inl mem) b mem'⟩, hold, ?_⟩
        rintro a (old | new) b held
        · exact cross a old b held
        · exact ahead a new b held
  · refine ⟨by simpa using all, .nil, by simp, by simpa using bytes⟩
  · rename_i total fated
    split
    · refine ⟨by simpa using all, .nil, by simp, by simpa using bytes⟩
    · refine ⟨by simpa using all, ?_, ?_, by simpa using bytes⟩
      · rw [List.pairwise_append]
        exact ⟨hold, own, fun a mem b mem' => later a (by simp [mem]) b mem'⟩
      · intro b mem
        obtain held | new := List.mem_append.mp mem
        · exact data' b held
        · exact ⟨f, by simp, fate_keep fated, new⟩
  · refine ⟨?_, .nil, by simp, fun a mem => bytes a ?_⟩
    · exact all.sublist (by simp)
    · simp at mem
      simp [mem]

theorem dealt_turned {before : List (Frame β)} (turned : d.Turned pos before) (clean : d.Clean)
    (places : ((before ++ fs).flatMap Frame.bytes).Pairwise (pos · < pos ·)) :
    (fs.foldl (Dealt.deal cap) d).Turned pos (before ++ fs) := by
  induction fs generalizing before d with
  | nil => simpa using turned
  | cons f fs ih =>
      have split : before ++ f :: fs = (before ++ [f]) ++ fs := by simp
      rw [split] at places ⊢
      have first : ((before ++ [f]).flatMap Frame.bytes).Pairwise (pos · < pos ·) := by
        rw [List.flatMap_append, List.pairwise_append] at places
        exact places.1
      exact ih (turned.deal clean first) (Dealt.deal_clean clean f) places

end Order

end PlexusTransport.Ws
