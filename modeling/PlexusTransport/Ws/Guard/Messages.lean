import PlexusTransport.Ws.Guard.Run

/-! # The guard on any frames at all

An adversary's stream need not keep RFC 6455's order of fragments. `messages`
groups whatever frames it has into data messages; `CutIn` marks the one shape
the cap is not kept for: a message that starts inside one the guard holds or
drops is passed on as it came, for the codec to judge.
-/

namespace PlexusTransport.Ws

variable {β : Type}

/-- A frame that opens a message and the continuations that follow it. -/
structure DataMessage (β : Type) where
  /-- It started while another message, itself no cut-in, was still open. -/
  cutIn : Bool
  frames : List (Frame β)

namespace DataMessage

/-- The payload lengths its headers give: those of RFC 6455, by `header_encode`. -/
def total (m : DataMessage β) : Nat := (m.frames.map fun f => f.header.len).sum

def bytes (m : DataMessage β) : List β := m.frames.flatMap Frame.bytes

def add (m : DataMessage β) (f : Frame β) : DataMessage β := { m with frames := m.frames ++ [f] }

/-- Past the cap, and no cut-in. -/
def overCap (cap : UInt64) (m : DataMessage β) : Bool := !m.cutIn && cap.toNat < m.total

@[simp] theorem total_add (m : DataMessage β) (f : Frame β) :
    (m.add f).total = m.total + f.header.len := by
  simp [total, add]

@[simp] theorem total_one (cutIn : Bool) (f : Frame β) :
    (DataMessage.mk cutIn [f]).total = f.header.len := by
  simp [total]

@[simp] theorem bytes_add (m : DataMessage β) (f : Frame β) :
    (m.add f).bytes = m.bytes ++ f.bytes := by
  simp [bytes, add]

@[simp] theorem bytes_one (cutIn : Bool) (f : Frame β) :
    (DataMessage.mk cutIn [f]).bytes = f.bytes := by
  simp [bytes]

@[simp] theorem cutIn_add (m : DataMessage β) (f : Frame β) : (m.add f).cutIn = m.cutIn := rfl

end DataMessage

/-- The message this frame ends, if it is its last. -/
def Frame.ends (f : Frame β) (m : DataMessage β) : List (DataMessage β) :=
  if f.header.fin then [m] else []

/-- The message this frame leaves open. -/
def Frame.leaves (f : Frame β) (m : DataMessage β) : Option (DataMessage β) :=
  if f.header.fin then none else some m

/-- The data messages of a stream, the one still open first. -/
def messages : Option (DataMessage β) → List (Frame β) → List (DataMessage β)
  | opened, [] => opened.toList
  | opened, f :: fs =>
      if f.control then messages opened fs
      else if f.header.opcode = 0 then
        match opened with
        | none => messages none fs
        | some m => f.ends (m.add f) ++ messages (f.leaves (m.add f)) fs
      else
        let m : DataMessage β := ⟨opened.any fun m => !m.cutIn, [f]⟩
        opened.toList ++ f.ends m ++ messages (f.leaves m) fs

/-- The message a stream leaves open. -/
def opening : Option (DataMessage β) → List (Frame β) → Option (DataMessage β)
  | opened, [] => opened
  | opened, f :: fs =>
      if f.control then opening opened fs
      else if f.header.opcode = 0 then
        match opened with
        | none => opening none fs
        | some m => opening (f.leaves (m.add f)) fs
      else opening (f.leaves ⟨opened.any fun m => !m.cutIn, [f]⟩) fs

/-- The messages a guard with this cap drops. -/
def lost (cap : UInt64) (opened : Option (DataMessage β)) (fs : List (Frame β)) :
    List (DataMessage β) :=
  (messages opened fs).filter (DataMessage.overCap cap)

/-- What a guard between these frames knows of the open message. -/
def Minds (cap : UInt64) (msg : Msg) (hold : List β) : Option (DataMessage β) → Prop
  | none => msg = .none
  | some m =>
      if m.cutIn then msg = .none
      else msg = .holding m.total ∧ m.total ≤ cap.toNat ∧ hold = m.bytes ∨
        msg = .skipping ∧ cap.toNat < m.total

/-- The bytes of the open message that the guard kept, held or dropped. -/
def kept : Option (DataMessage β) → List β
  | none => []
  | some m => if m.cutIn then [] else m.bytes

/-- Where a guard stands after the frame that put this message over the cap, or a
    later one of it. -/
def Frame.dropping (f : Frame β) : Msg := if f.header.fin then .none else .skipping

/-- Only a stream's last frame can lack bytes. -/
def Cut : List (Frame β) → Prop
  | [] => True
  | f :: fs => (fs = [] ∨ f.Whole) ∧ Cut fs

theorem parse_cut [Octet β] (input : List β) : Cut (parse input).frames := by
  induction eq : input.length using Nat.strongRecOn generalizing input with
  | ind n ih =>
      cases legal : illegalLength input with
      | true => simp [parse_illegal legal, Cut]
      | false =>
          cases found : header input with
          | none => simp [parse_short legal found, Cut]
          | some h =>
              have size := header_size found
              rw [parse_header legal found]
              refine ⟨?_, ih _ (by simp only [List.length_drop]; omega) _ rfl⟩
              by_cases whole : h.size + h.len ≤ input.length
              · right
                simp [Frame.Whole, whole]
              · left
                rw [List.drop_eq_nil_of_le (by omega), parse_nil]

/-- What one frame changes: the guard's side and the messages' side. -/
structure Judged (β : Type) where
  msg : Msg
  hold : List β
  opened : Option (DataMessage β)
  handed : List β
  counted : Nat
  closed : List (DataMessage β)

/-- A message being dropped was counted before it ended. -/
def early (msg : Msg) : Nat := if msg = .skipping then 1 else 0

@[simp] theorem early_skipping : early .skipping = 1 := rfl
@[simp] theorem early_none : early .none = 0 := rfl
@[simp] theorem early_holding (len : Nat) : early (.holding len) = 0 := rfl

structure Judges [DecidableEq β] (cap : UInt64) (refused : Bool) (msg : Msg) (hold : List β)
    (opened : Option (DataMessage β)) (f : Frame β) (fs : List (Frame β)) (j : Judged β) :
    Prop where
  played : play cap refused msg hold (f :: fs) =
    ((play cap refused j.msg j.hold fs).hand j.handed).count j.counted
  grouped : messages opened (f :: fs) = j.closed ++ messages j.opened fs
  minds : Minds cap j.msg j.hold j.opened
  bytes : ∀ b, j.handed.count b +
    ((j.closed.filter (DataMessage.overCap cap)).flatMap (·.bytes)).count b +
      (kept j.opened).count b ≤ (kept opened).count b + f.bytes.count b
  whole : f.Whole → ∀ b, j.handed.count b +
    ((j.closed.filter (DataMessage.overCap cap)).flatMap (·.bytes)).count b +
      (kept j.opened).count b = (kept opened).count b + f.bytes.count b
  opens : opening opened (f :: fs) = opening j.opened fs
  counts : j.counted + early msg = j.closed.countP (DataMessage.overCap cap) + early j.msg
  cutIns : ∀ m ∈ j.closed ++ j.opened.toList, m.cutIn = true → ∀ g ∈ m.frames,
    (∃ o ∈ opened, o.cutIn = true ∧ g ∈ o.frames) ∨ g.bytes <:+: j.handed

section Ends

variable {cap : UInt64} {m : DataMessage β} (f : Frame β)

theorem ends_leaves (m : DataMessage β) : f.ends m ++ (f.leaves m).toList = [m] := by
  cases fin : f.header.fin <;> simp [Frame.ends, Frame.leaves, fin]

theorem ends_within (within : m.overCap cap = false) :
    (f.ends m).filter (DataMessage.overCap cap) = [] := by
  cases fin : f.header.fin <;> simp [Frame.ends, fin, within]

theorem counts_within (within : m.overCap cap = false) :
    (f.ends m).countP (DataMessage.overCap cap) = 0 := by
  rw [List.countP_eq_length_filter, ends_within f within, List.length_nil]

theorem minds_cutIn (hold : List β) (cutIn : m.cutIn = true) :
    Minds cap .none hold (f.leaves m) := by
  cases fin : f.header.fin <;> simp [Frame.leaves, fin, Minds, cutIn]

theorem kept_cutIn (cutIn : m.cutIn = true) : kept (f.leaves m) = [] := by
  cases fin : f.header.fin <;> simp [Frame.leaves, fin, kept, cutIn]

theorem within_cutIn (cutIn : m.cutIn = true) : m.overCap cap = false := by
  simp [DataMessage.overCap, cutIn]

variable (cutIn : m.cutIn = false)

include cutIn

theorem over_iff : m.overCap cap = true ↔ cap.toNat < m.total := by
  simp [DataMessage.overCap, cutIn]

theorem ends_over (past : cap.toNat < m.total) :
    ((f.ends m).filter (DataMessage.overCap cap)).flatMap (·.bytes) ++ kept (f.leaves m) =
      m.bytes := by
  have tooLong := (over_iff cutIn).mpr past
  cases fin : f.header.fin <;> simp [Frame.ends, Frame.leaves, fin, kept, cutIn, tooLong]

theorem counts_over (past : cap.toNat < m.total) :
    (f.ends m).countP (DataMessage.overCap cap) + early f.dropping = 1 := by
  have tooLong := (over_iff cutIn).mpr past
  cases fin : f.header.fin <;> simp [Frame.ends, Frame.dropping, fin, tooLong]

theorem minds_over (hold : List β) (past : cap.toNat < m.total) :
    Minds cap f.dropping hold (f.leaves m) := by
  cases fin : f.header.fin <;> simp [Frame.leaves, Frame.dropping, fin, Minds, cutIn, past]

end Ends

/-- The cut-ins among these messages, none a new one, were open before. -/
theorem cutIns_before {opened : Option (DataMessage β)} {f : Frame β} {handed : List β}
    {before : List (DataMessage β)} {m : DataMessage β} (cutIn : m.cutIn = false)
    (came : ∀ o ∈ before, o ∈ opened) :
    ∀ o ∈ (before ++ f.ends m) ++ (f.leaves m).toList, o.cutIn = true → ∀ g ∈ o.frames,
      (∃ o ∈ opened, o.cutIn = true ∧ g ∈ o.frames) ∨ g.bytes <:+: handed := by
  intro o mem cut g frame
  rw [List.append_assoc, ends_leaves, List.mem_append, List.mem_singleton] at mem
  rcases mem with mem | rfl
  · exact .inl ⟨o, came o mem, cut, frame⟩
  · simp [cutIn] at cut

variable [DecidableEq β]

theorem judge_control (cap : UInt64) (refused : Bool) {msg : Msg} {hold : List β}
    {opened : Option (DataMessage β)} {f : Frame β} (fs : List (Frame β))
    (minds : Minds cap msg hold opened) (control : f.control = true) :
    Judges cap refused msg hold opened f fs ⟨msg, hold, opened, f.bytes, 0, []⟩ := by
  refine ⟨?_, ?_, minds, ?_, ?_, ?_, ?_, ?_⟩
  · simp_all [play, fate, Frame.control]
  · simp [messages, control]
  · intro b
    simp [Nat.add_comm]
  · intro _ b
    simp [Nat.add_comm]
  · simp [opening, control]
  · simp
  · intro m mem cut g frame
    exact .inl ⟨m, by simpa using mem, cut, frame⟩

/-- A frame of a message over the cap. -/
theorem judge_drop {cap : UInt64} {refused counted : Bool} {msg : Msg} {hold : List β}
    {opened : Option (DataMessage β)} {f : Frame β} {fs : List (Frame β)}
    {before : List (DataMessage β)} {m : DataMessage β} (cutIn : m.cutIn = false)
    (past : cap.toNat < m.total)
    (fated : fate cap msg f.header = .drop counted f.dropping)
    (grouped : messages opened (f :: fs) = before ++ f.ends m ++ messages (f.leaves m) fs)
    (opens : opening opened (f :: fs) = opening (f.leaves m) fs)
    (came : ∀ o ∈ before, o ∈ opened) (within : before.filter (DataMessage.overCap cap) = [])
    (bytes : ∀ b, m.bytes.count b = (kept opened).count b + f.bytes.count b)
    (counts : counted.toNat + early msg = 1) :
    Judges cap refused msg hold opened f fs
      ⟨f.dropping, [], f.leaves m, [], counted.toNat, before ++ f.ends m⟩ := by
  have whole : ∀ b, ([] : List β).count b +
      (((before ++ f.ends m).filter (DataMessage.overCap cap)).flatMap (·.bytes)).count b +
        (kept (f.leaves m)).count b = (kept opened).count b + f.bytes.count b := by
    intro b
    have split := congrArg (List.count b) (ends_over f cutIn past)
    have all := bytes b
    rw [List.count_append] at split
    simp only [List.filter_append, within, List.nil_append, List.count_nil]
    omega
  refine ⟨?_, grouped, minds_over f cutIn [] past, fun b => (whole b).le, fun _ => whole, opens,
    ?_, cutIns_before cutIn came⟩
  · simp [play, fated]
  · have none : before.countP (DataMessage.overCap cap) = 0 := by
      rw [List.countP_eq_length_filter, within, List.length_nil]
    have one := counts_over f cutIn past
    simp only [List.countP_append, none]
    omega

/-- A fragment of a message within the cap so far. -/
theorem judge_keep {cap : UInt64} {refused : Bool} {msg : Msg} {hold : List β}
    {opened : Option (DataMessage β)} {f : Frame β} {fs : List (Frame β)}
    {before : List (DataMessage β)} {m : DataMessage β} (whole : fs = [] ∨ f.Whole)
    (cutIn : m.cutIn = false) (fits : m.total ≤ cap.toNat)
    (fated : fate cap msg f.header = .keep m.total) (held : msg.held hold ++ f.bytes = m.bytes)
    (grouped : messages opened (f :: fs) = before ++ f.ends m ++ messages (f.leaves m) fs)
    (opens : opening opened (f :: fs) = opening (f.leaves m) fs)
    (came : ∀ o ∈ before, o ∈ opened) (within : before.filter (DataMessage.overCap cap) = [])
    (bytes : ∀ b, m.bytes.count b = (kept opened).count b + f.bytes.count b)
    (counts : early msg = 0) : ∃ j, Judges cap refused msg hold opened f fs j := by
  have small : m.overCap cap = false := by simp [DataMessage.overCap, cutIn, fits]
  have earlier : before.countP (DataMessage.overCap cap) = 0 := by
    rw [List.countP_eq_length_filter, within, List.length_nil]
  cases fin : f.header.fin with
  | false =>
      refine ⟨⟨.holding m.total, m.bytes, f.leaves m, [], 0, before ++ f.ends m⟩,
        ?_, grouped, ?_, ?_, ?_, opens, ?_, cutIns_before cutIn came⟩
      · by_cases all : f.Whole
        · simp [play, fated, fin, all, held]
        · have last : fs = [] := whole.resolve_right all
          simp [play, fated, all, last]
      · simp [Frame.leaves, fin, Minds, cutIn, fits]
      · intro b
        simpa [Frame.ends, Frame.leaves, fin, within, kept, cutIn] using (bytes b).le
      · intro _ b
        simpa [Frame.ends, Frame.leaves, fin, within, kept, cutIn] using bytes b
      · simp [Frame.ends, fin, counts, earlier]
  | true =>
      have closes : ∀ b n, n ≤ m.bytes.count b →
          n + (((before ++ f.ends m).filter (DataMessage.overCap cap)).flatMap (·.bytes)).count b +
              (kept (f.leaves m)).count b ≤
            (kept opened).count b + f.bytes.count b := by
        intro b n le
        simpa [Frame.ends, Frame.leaves, fin, within, small, kept] using le.trans (bytes b).le
      by_cases all : f.Whole
      · refine ⟨⟨.none, [], f.leaves m, m.bytes, 0, before ++ f.ends m⟩,
          ?_, grouped, ?_, ?_, ?_, opens, ?_, cutIns_before cutIn came⟩
        · simp [play, fated, fin, all, held]
        · simp [Frame.leaves, fin, Minds]
        · exact fun b => closes b _ le_rfl
        · intro _ b
          simpa [Frame.ends, Frame.leaves, fin, within, small, kept] using bytes b
        · simp [Frame.ends, fin, counts, earlier, small]
      · have last : fs = [] := whole.resolve_right all
        refine ⟨⟨.none, [], f.leaves m, [], 0, before ++ f.ends m⟩,
          ?_, grouped, ?_, ?_, fun whole => absurd whole all, opens, ?_, cutIns_before cutIn came⟩
        · simp [play, fated, all, last]
        · simp [Frame.leaves, fin, Minds]
        · exact fun b => closes b _ (Nat.zero_le _)
        · simp [Frame.ends, fin, counts, earlier, small]

theorem judge_continuation (cap : UInt64) (refused : Bool) {msg : Msg} {hold : List β}
    {opened : Option (DataMessage β)} {f : Frame β} {fs : List (Frame β)}
    (whole : fs = [] ∨ f.Whole) (minds : Minds cap msg hold opened) (data : f.control = false)
    (opcode : f.header.opcode = 0) : ∃ j, Judges cap refused msg hold opened f fs j := by
  cases opened with
  | none =>
      cases minds
      refine ⟨⟨.none, hold, none, f.bytes, 0, []⟩, ?_, ?_, rfl, ?_, ?_, ?_, ?_, ?_⟩
      · simp_all [play, fate, Frame.control]
      · simp [messages, data, opcode]
      · simp [kept]
      · simp [kept]
      · simp [opening, data, opcode]
      · simp
      · simp
  | some m =>
      have grouped : messages (some m) (f :: fs) =
          [] ++ f.ends (m.add f) ++ messages (f.leaves (m.add f)) fs := by
        simp [messages, data, opcode]
      have opens : opening (some m) (f :: fs) = opening (f.leaves (m.add f)) fs := by
        simp [opening, data, opcode]
      cases cutIn : (m.add f).cutIn with
      | true =>
          have before : m.cutIn = true := cutIn
          have idle : msg = .none := by simpa [Minds, before] using minds
          subst idle
          refine ⟨⟨.none, hold, f.leaves (m.add f), f.bytes, 0, f.ends (m.add f)⟩,
            ?_, grouped, minds_cutIn f hold cutIn, ?_, ?_, opens, ?_, ?_⟩
          · simp_all [play, fate, Frame.control]
          · simp [ends_within f (within_cutIn cutIn), kept_cutIn f cutIn]
          · have nothing : kept (some m) = [] := by simp [kept, before]
            simp [ends_within f (within_cutIn cutIn), kept_cutIn f cutIn, nothing]
          · simp [counts_within f (within_cutIn cutIn)]
          · intro o mem _ g frame
            rw [ends_leaves, List.mem_singleton] at mem
            subst mem
            rcases List.mem_append.mp frame with frame | last
            · exact .inl ⟨m, rfl, cutIn, frame⟩
            · cases List.mem_singleton.mp last
              exact .inr (List.infix_refl _)
      | false =>
          have before : m.cutIn = false := cutIn
          have bytes : ∀ b, (m.add f).bytes.count b =
              (kept (some m)).count b + f.bytes.count b := by
            simp [kept, before]
          simp only [Minds, before, Bool.false_eq_true, if_false] at minds
          rcases minds with ⟨rfl, fits, rfl⟩ | ⟨rfl, past⟩
          · by_cases past : cap.toNat < (m.add f).total
            · have fated : fate cap (.holding m.total) f.header = .drop true f.dropping := by
                simp_all [fate, Frame.control, Frame.dropping]
              exact ⟨_, judge_drop cutIn past fated grouped opens (by simp) rfl bytes rfl⟩
            · have within : (m.add f).total ≤ cap.toNat := by omega
              refine judge_keep whole cutIn within ?_ ?_ grouped opens (by simp) rfl bytes rfl
              · simp_all [fate, Frame.control]
              · simp [Msg.held]
          · have past : cap.toNat < (m.add f).total := by
              rw [DataMessage.total_add]
              omega
            have fated : fate cap .skipping f.header = .drop false f.dropping := by
              simp_all [fate, Frame.control, Frame.dropping]
            exact ⟨_, judge_drop cutIn past fated grouped opens (by simp) rfl bytes rfl⟩

/-- A new message, none that the guard follows being open. -/
theorem judge_fresh (cap : UInt64) (refused : Bool) (hold : List β)
    {opened : Option (DataMessage β)} {f : Frame β} {fs : List (Frame β)}
    (whole : fs = [] ∨ f.Whole) (data : f.control = false) (opcode : f.header.opcode ≠ 0)
    (unfollowed : ∀ m ∈ opened, m.cutIn = true) :
    ∃ j, Judges cap refused .none hold opened f fs j := by
  have alone : (opened.any fun m => !m.cutIn) = false := by
    cases opened <;> simp_all
  have grouped : messages opened (f :: fs) =
      opened.toList ++ f.ends ⟨false, [f]⟩ ++ messages (f.leaves ⟨false, [f]⟩) fs := by
    simp [messages, data, opcode, alone]
  have opens : opening opened (f :: fs) = opening (f.leaves ⟨false, [f]⟩) fs := by
    simp [opening, data, opcode, alone]
  have came : ∀ o ∈ opened.toList, o ∈ opened := by
    simp
  have within : opened.toList.filter (DataMessage.overCap cap) = [] := by
    cases opened <;> simp_all [DataMessage.overCap]
  have bytes : ∀ b, (DataMessage.mk false [f]).bytes.count b =
      (kept opened).count b + f.bytes.count b := by
    intro b
    cases opened <;> simp_all [kept]
  by_cases past : cap.toNat < f.header.len
  · have fated : fate cap .none f.header = .drop true f.dropping := by
      simp_all [fate, Frame.control, Frame.dropping]
    exact ⟨_, judge_drop rfl (by simpa using past) fated grouped opens came within bytes rfl⟩
  · have fits : (DataMessage.mk false [f]).total ≤ cap.toNat := by
      simpa using past
    cases fin : f.header.fin with
    | false =>
        refine judge_keep whole rfl fits ?_ ?_ grouped opens came within bytes rfl
        · simp_all [fate, Frame.control]
        · simp [Msg.held]
    | true =>
        have small : (DataMessage.mk false [f]).overCap cap = false := by
          simpa [DataMessage.overCap] using past
        refine ⟨⟨.none, hold, none, f.bytes, 0, opened.toList ++ [⟨false, [f]⟩]⟩,
          ?_, ?_, rfl, ?_, ?_, ?_, ?_, ?_⟩
        · have fated : fate cap .none f.header = .pass .none := by
            simp_all [fate, Frame.control, Nat.not_lt.mpr]
          simp [play, fated]
        · simpa [Frame.ends, Frame.leaves, fin] using grouped
        · simp [within, small, kept]
        · intro _ b
          simpa [within, small, kept] using bytes b
        · simpa [Frame.leaves, fin] using opens
        · have none : opened.toList.countP (DataMessage.overCap cap) = 0 := by
            rw [List.countP_eq_length_filter, within, List.length_nil]
          simp [none, small]
        · have new : (DataMessage.mk false [f]).cutIn = false := rfl
          have earlier := @cutIns_before β opened f f.bytes _ _ new came
          simpa [Frame.ends, Frame.leaves, fin] using earlier

theorem judge_opening (cap : UInt64) (refused : Bool) {msg : Msg} {hold : List β}
    {opened : Option (DataMessage β)} {f : Frame β} {fs : List (Frame β)}
    (whole : fs = [] ∨ f.Whole) (minds : Minds cap msg hold opened) (data : f.control = false)
    (opcode : f.header.opcode ≠ 0) : ∃ j, Judges cap refused msg hold opened f fs j := by
  cases opened with
  | none =>
      cases minds
      exact judge_fresh cap refused hold whole data opcode (by simp)
  | some m =>
      cases cutIn : m.cutIn with
      | true =>
          have idle : msg = .none := by simpa [Minds, cutIn] using minds
          subst idle
          exact judge_fresh cap refused hold whole data opcode (by simp [cutIn])
      | false =>
          have grouped : messages (some m) (f :: fs) =
              m :: f.ends ⟨true, [f]⟩ ++ messages (f.leaves ⟨true, [f]⟩) fs := by
            simp [messages, data, opcode, cutIn]
          have opens : opening (some m) (f :: fs) = opening (f.leaves ⟨true, [f]⟩) fs := by
            simp [opening, data, opcode, cutIn]
          have cut : (DataMessage.mk true [f]).cutIn = true := rfl
          have new : ∀ handed, f.bytes <:+: handed →
              ∀ o ∈ (m :: f.ends ⟨true, [f]⟩) ++ (f.leaves ⟨true, [f]⟩).toList,
                o.cutIn = true → ∀ g ∈ o.frames,
                  (∃ o ∈ some m, o.cutIn = true ∧ g ∈ o.frames) ∨ g.bytes <:+: handed := by
            intro handed part o mem cut g frame
            rw [List.cons_append, ends_leaves, List.mem_cons, List.mem_singleton] at mem
            rcases mem with rfl | rfl
            · exact .inl ⟨o, rfl, cut, frame⟩
            · cases List.mem_singleton.mp frame
              exact .inr part
          have rest : (f.ends ⟨true, [f]⟩).filter (DataMessage.overCap cap) = [] :=
            ends_within f (within_cutIn cut)
          have counted : (f.ends ⟨true, [f]⟩).countP (DataMessage.overCap cap) = 0 :=
            counts_within f (within_cutIn cut)
          simp only [Minds, cutIn, Bool.false_eq_true, if_false] at minds
          rcases minds with ⟨rfl, fits, rfl⟩ | ⟨rfl, past⟩
          · have small : m.overCap cap = false := by
              simp [DataMessage.overCap, cutIn, fits]
            refine ⟨⟨.none, [], f.leaves ⟨true, [f]⟩, m.bytes ++ f.bytes, 0,
              m :: f.ends ⟨true, [f]⟩⟩, ?_, grouped, minds_cutIn f [] cut, ?_, ?_, opens, ?_, ?_⟩
            · simp_all [play, fate, Frame.control]
            · intro b
              rw [List.filter_cons_of_neg (by simp [small]), rest, kept_cutIn f cut]
              simp [kept, cutIn]
            · intro _ b
              rw [List.filter_cons_of_neg (by simp [small]), rest, kept_cutIn f cut]
              simp [kept, cutIn]
            · rw [List.countP_cons_of_neg (by simp [small]), counted]
              rfl
            · exact new _ (List.suffix_append _ _).isInfix
          · have tooLong := (over_iff cutIn).mpr past
            refine ⟨⟨.none, hold, f.leaves ⟨true, [f]⟩, f.bytes, 0,
              m :: f.ends ⟨true, [f]⟩⟩, ?_, grouped, minds_cutIn f hold cut, ?_, ?_, opens, ?_, ?_⟩
            · simp_all [play, fate, Frame.control]
            · intro b
              rw [List.filter_cons_of_pos tooLong, rest, kept_cutIn f cut]
              simp [kept, cutIn, Nat.add_comm]
            · intro _ b
              rw [List.filter_cons_of_pos tooLong, rest, kept_cutIn f cut]
              simp [kept, cutIn, Nat.add_comm]
            · rw [List.countP_cons_of_pos tooLong, counted]
              rfl
            · exact new _ (List.infix_refl _)

theorem judge (cap : UInt64) (refused : Bool) {msg : Msg} {hold : List β}
    {opened : Option (DataMessage β)} {f : Frame β} {fs : List (Frame β)}
    (whole : fs = [] ∨ f.Whole) (minds : Minds cap msg hold opened) :
    ∃ j, Judges cap refused msg hold opened f fs j := by
  cases data : f.control with
  | true => exact ⟨_, judge_control cap refused fs minds data⟩
  | false =>
      by_cases opcode : f.header.opcode = 0
      · exact judge_continuation cap refused whole minds data opcode
      · exact judge_opening cap refused whole minds data opcode

/-- What is handed on and what the dropped messages had are apart in the stream. -/
theorem play_bytes (cap : UInt64) (refused : Bool) {msg : Msg} {hold : List β}
    {opened : Option (DataMessage β)} {fs : List (Frame β)} (cut : Cut fs)
    (minds : Minds cap msg hold opened) (b : β) :
    (play cap refused msg hold fs).out.count b +
        ((lost cap opened fs).flatMap (·.bytes)).count b ≤
      (kept opened).count b + (fs.flatMap Frame.bytes).count b := by
  induction fs generalizing msg hold opened with
  | nil =>
      cases opened with
      | none => simp [play, lost, messages]
      | some m =>
          cases cutIn : m.cutIn <;> cases tooLong : m.overCap cap <;>
            simp_all [play, lost, messages, kept, DataMessage.overCap]
  | cons f fs ih =>
      obtain ⟨whole, cut⟩ := cut
      obtain ⟨j, judged⟩ := judge cap refused whole minds
      have later := ih cut judged.minds
      have step := judged.bytes b
      simp only [lost] at later
      simp only [lost, judged.played, judged.grouped, Played.count_out, Played.hand_out,
        List.filter_append, List.flatMap_append, List.flatMap_cons, List.count_append]
      omega

theorem play_counts (cap : UInt64) (refused : Bool) {msg : Msg} {hold : List β}
    {opened : Option (DataMessage β)} {fs : List (Frame β)} (cut : Cut fs)
    (minds : Minds cap msg hold opened) :
    (play cap refused msg hold fs).dropped + early msg = (lost cap opened fs).length := by
  induction fs generalizing msg hold opened with
  | nil =>
      cases opened with
      | none =>
          cases minds
          simp [play, lost, messages]
      | some m =>
          cases cutIn : m.cutIn with
          | true =>
              have idle : msg = .none := by simpa [Minds, cutIn] using minds
              simp [play, lost, messages, idle, DataMessage.overCap, cutIn]
          | false =>
              simp only [Minds, cutIn, Bool.false_eq_true, if_false] at minds
              rcases minds with ⟨rfl, fits, -⟩ | ⟨rfl, past⟩
              · simp [play, lost, messages, DataMessage.overCap, fits]
              · simp [play, lost, messages, DataMessage.overCap, cutIn, past]
  | cons f fs ih =>
      obtain ⟨whole, cut⟩ := cut
      obtain ⟨j, judged⟩ := judge cap refused whole minds
      have later := ih cut judged.minds
      have step := judged.counts
      simp only [lost] at later
      simp only [lost, judged.played, judged.grouped, Played.count_dropped, Played.hand_dropped,
        List.filter_append, List.length_append, List.countP_eq_length_filter] at step ⊢
      omega

/-- A message that cuts in is handed on as it came, frame by frame. -/
theorem play_cutIns (cap : UInt64) (refused : Bool) {msg : Msg} {hold : List β}
    {opened : Option (DataMessage β)} {fs : List (Frame β)} (cut : Cut fs)
    (minds : Minds cap msg hold opened) :
    ∀ m ∈ messages opened fs, m.cutIn = true → ∀ g ∈ m.frames,
      (∃ o ∈ opened, o.cutIn = true ∧ g ∈ o.frames) ∨
        g.bytes <:+: (play cap refused msg hold fs).out := by
  induction fs generalizing msg hold opened with
  | nil =>
      intro m mem cutIn g frame
      exact .inl ⟨m, by simpa [messages] using mem, cutIn, frame⟩
  | cons f fs ih =>
      obtain ⟨whole, cut⟩ := cut
      obtain ⟨j, judged⟩ := judge cap refused whole minds
      have later := ih cut judged.minds
      have step := judged.cutIns
      rw [judged.played, judged.grouped, Played.count_out, Played.hand_out]
      have front : ∀ m ∈ j.closed ++ j.opened.toList, m.cutIn = true → ∀ g ∈ m.frames,
          (∃ o ∈ opened, o.cutIn = true ∧ g ∈ o.frames) ∨
            g.bytes <:+: j.handed ++ (play cap refused j.msg j.hold fs).out := by
        intro m mem cutIn g frame
        exact (step m mem cutIn g frame).imp_right fun part =>
          part.trans (List.prefix_append _ _).isInfix
      intro m mem cutIn g frame
      rcases List.mem_append.mp mem with closed | open'
      · exact front m (by simp [closed]) cutIn g frame
      · rcases later m open' cutIn g frame with ⟨o, opened', cutIn', frame'⟩ | part
        · exact front o (by simp_all) cutIn' g frame'
        · exact .inr (part.trans (List.suffix_append _ _).isInfix)

omit [DecidableEq β] in
theorem mem_lost {cap : UInt64} {fs : List (Frame β)} {m : DataMessage β} {f : Frame β} {b : β}
    (mem : m ∈ messages none fs) (tooLong : m.overCap cap = true) (frame : f ∈ m.frames)
    (byte : b ∈ f.bytes) : b ∈ (lost cap none fs).flatMap (·.bytes) :=
  List.mem_flatMap.mpr ⟨m, List.mem_filter.mpr ⟨mem, tooLong⟩, List.mem_flatMap.mpr ⟨f, frame, byte⟩⟩

theorem relay_apart [Octet β] (cap : UInt64) {input : List β} (places : input.Nodup) {b : β}
    (gone : b ∈ (lost cap none (parse input).frames).flatMap (·.bytes)) :
    b ∉ (relay cap .none [] input).out := by
  intro out
  have idle : Minds cap .none [] (none : Option (DataMessage β)) := rfl
  have apart := play_bytes cap (parse input).refused (parse_cut input) idle b
  have once := List.nodup_iff_count.mp places b
  have parsed := (Guard.parse_bytes input).sublist.count_le b
  rw [← List.count_pos_iff] at gone out
  simp only [relay, kept, List.count_nil] at out apart
  omega

/-- Whatever frames a stream has, no byte of a message over the cap that cuts in on no
    other is handed on, at any point of any run; in the end the guard counted those
    messages and no other, and handed on each cut-in's frames as they came. The bytes
    carry their places in the stream. -/
theorem guard_over_cap (cap : UInt64) (reserves : List Reserve) (input : List UInt8)
    (s : Socket (UInt8 × Nat)) (stream : s.bytes = input.zipIdx) (rooms : List Nat) :
    (∀ m ∈ messages none (parse s.bytes).frames, m.cutIn = false → cap.toNat < m.total →
      ∀ f ∈ m.frames, ∀ b ∈ f.bytes, b ∉ ((Guard.new cap reserves).reads s rooms).out) ∧
    ((∀ room ∈ rooms, 0 < room) → Guard.patience s < rooms.length →
      ((Guard.new cap reserves).reads s rooms).guard.dropped =
          ((messages none (parse s.bytes).frames).filter fun m =>
            !m.cutIn && cap.toNat < m.total).length ∧
        ∀ m ∈ messages none (parse s.bytes).frames, m.cutIn = true →
          ∀ f ∈ m.frames, f.bytes <:+: ((Guard.new cap reserves).reads s rooms).out) := by
  have cut := parse_cut s.bytes
  have idle : Minds cap .none [] (none : Option (DataMessage (UInt8 × Nat))) := rfl
  constructor
  · intro m mem cutIn past f frame b byte handed
    have places : (input.zipIdx.map Prod.snd).Nodup := by
      rw [List.zipIdx_map_snd]
      exact List.nodup_range'
    have once : s.bytes.Nodup := stream ▸ List.Nodup.of_map _ places
    apply relay_apart cap once (mem_lost mem ((over_iff cutIn).mpr past) frame byte)
    rw [← Guard.ahead_new cap reserves]
    exact ((Guard.new cap reserves).reads_front s rooms).subset handed
  · intro some enough
    have all := Guard.reads_all cap reserves s some enough
    constructor
    · rw [all.2]
      exact play_counts cap (parse s.bytes).refused cut idle
    · intro m mem cutIn f frame
      rw [all.1]
      rcases play_cutIns cap (parse s.bytes).refused cut idle m mem cutIn f frame with
        ⟨o, opened, -⟩ | part
      · cases opened
      · exact part

/-- One byte of text over a cap of one byte, then a message within it, each byte with
    its place. -/
def numbered : Socket (UInt8 × Nat) :=
  ⟨[.data (0x01, 0) [(0x02, 1), (0x61, 2)], .data (0x62, 3) [(0x80, 4), (0x00, 5), (0x82, 6)],
    .data (0x01, 7) [(0x63, 8)]], .closed⟩

theorem guard_over_cap_numbered :
    ((Guard.new 1 []).reads numbered (List.replicate 20 4)).guard.dropped = 1 ∧
      (0x61, 2) ∉ ((Guard.new 1 []).reads numbered (List.replicate 20 4)).out := by
  have stream : numbered.bytes =
      List.zipIdx [0x01, 0x02, 0x61, 0x62, 0x80, 0x00, 0x82, 0x01, 0x63] := by decide
  have holds := guard_over_cap 1 [] _ numbered stream (List.replicate 20 4)
  constructor
  · exact (holds.2 (by decide) (by decide)).1.trans (by decide +kernel)
  · have first : ∃ m ∈ messages none (parse numbered.bytes).frames, m.cutIn = false ∧
        1 < m.total ∧ ∃ f ∈ m.frames, (0x61, 2) ∈ f.bytes := by decide +kernel
    obtain ⟨m, mem, cutIn, past, f, frame, byte⟩ := first
    exact holds.1 m mem cutIn past f frame _ byte

/-- A fragment within a cap of one byte, then a new message over it: the second is
    handed on whole, and counted by no one. -/
def interrupted : Socket (UInt8 × Nat) :=
  ⟨[.data (0x01, 0) [(0x01, 1), (0x61, 2), (0x81, 3), (0x02, 4), (0x62, 5), (0x63, 6)]], .closed⟩

theorem guard_interrupted :
    interrupted.bytes = List.zipIdx [0x01, 0x01, 0x61, 0x81, 0x02, 0x62, 0x63] ∧
      ∃ m ∈ messages none (parse interrupted.bytes).frames, 1 < m.total ∧
        (∃ f ∈ m.frames, ∃ b ∈ f.bytes,
          b ∈ ((Guard.new 1 []).reads interrupted (List.replicate 20 4)).out) ∧
        ((Guard.new 1 []).reads interrupted (List.replicate 20 4)).guard.dropped = 0 := by
  decide +kernel

end PlexusTransport.Ws
