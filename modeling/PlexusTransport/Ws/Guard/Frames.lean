import PlexusTransport.Lib.Rfc6455
import PlexusTransport.Ws.Guard.Run

/-! # The guard on whole frames in order

What a guard with a cap hands on of a well-formed stream, in the terms of
RFC 6455 alone (`capped`, `overCap`), and that it does.
-/

namespace PlexusTransport.Ws

open BigEndian Rfc6455

/-- The header the guard finds on a frame. -/
def headerOf (f : Rfc6455.Frame) : Header :=
  ⟨f.fin, UInt8.ofNat f.opcode, f.payload.length, f.head.length⟩

theorem lengthField_encode (f : Rfc6455.Frame) (r : List UInt8) :
    lengthField f.secondByte (f.form.extended f.payload.length ++ r) =
      some (f.payload.length, 2 + (f.form.extended f.payload.length).length) := by
  have fits := f.fits
  unfold lengthField
  rw [f.secondByte_code]
  cases form : f.form with
  | short =>
      rw [form, LengthForm.limit] at fits
      have small : (UInt8.ofNat f.payload.length).toNat = f.payload.length := by
        rw [UInt8.toNat_ofNat']
        omega
      have ne : ∀ n : UInt8, 126 ≤ n.toNat → UInt8.ofNat f.payload.length ≠ n := by
        intro n le same
        rw [same] at small
        omega
      simp [LengthForm.code, LengthForm.extended, ne 126 (by decide), ne 127 (by decide), small]
  | medium =>
      rw [form, LengthForm.limit] at fits
      have spelled := fromBe_toBe 2 f.payload.length
      rw [Nat.mod_eq_of_lt (by omega)] at spelled
      simp [LengthForm.code, LengthForm.extended, octet, spelled]
  | long =>
      rw [form, LengthForm.limit] at fits
      have spelled := fromBe_toBe 8 f.payload.length
      rw [Nat.mod_eq_of_lt (by omega)] at spelled
      simp [LengthForm.code, LengthForm.extended, octet, spelled]

theorem head_length (f : Rfc6455.Frame) : f.head.length =
    2 + (f.form.extended f.payload.length).length + if f.key.isSome then 4 else 0 := by
  cases key : f.key with
  | none => simp [Frame.head, key]; omega
  | some k => simp [Frame.head, key, k.four]; omega

theorem header_encode (f : Rfc6455.Frame) (r : List UInt8) :
    header (f.encode ++ r) = some (headerOf f) := by
  have field := lengthField_encode f ((f.key.map Key.bytes).getD [] ++ f.payload ++ r)
  have long : f.head.length ≤ (f.encode ++ r).length := by
    simp only [Frame.encode, List.length_append]
    omega
  have size : (if f.key.isSome then 2 + (f.form.extended f.payload.length).length + 4
      else 2 + (f.form.extended f.payload.length).length) = f.head.length := by
    rw [head_length]
    split <;> rfl
  unfold Frame.encode Frame.head at long ⊢
  simp only [List.cons_append, List.append_assoc] at long field ⊢
  unfold header
  simp only [octet, id, field, f.secondByte_mask, f.firstByte_fin, f.firstByte_opcode, size]
  rw [if_pos]
  · rfl
  · exact long

theorem legal_encode (f : Rfc6455.Frame) (r : List UInt8) :
    illegalLength (f.encode ++ r) = false := by
  have fits := f.fits
  have code := f.secondByte_code
  have other : f.secondByte &&& 0x7f ≠ 127 →
      illegalLength (f.firstByte :: f.secondByte :: (f.encode.drop 2 ++ r)) = false := by
    intro ne
    cases f.encode.drop 2 ++ r <;> simp [illegalLength, octet, ne]
  have split : f.encode ++ r = f.firstByte :: f.secondByte :: (f.encode.drop 2 ++ r) := by
    simp [Frame.encode, Frame.head]
  rw [split]
  cases form : f.form with
  | short =>
      rw [form, LengthForm.limit] at fits
      apply other
      rw [code, form]
      intro same
      have small := congrArg UInt8.toNat same
      have : (127 : UInt8).toNat = 127 := rfl
      simp only [LengthForm.code, UInt8.toNat_ofNat'] at small
      omega
  | medium =>
      apply other
      rw [code, form]
      exact (by decide : (126 : UInt8) ≠ 127)
  | long =>
      rw [form, LengthForm.limit] at fits
      have top : UInt8.ofNat (f.payload.length / 256 ^ 7) &&& 0x80 = 0 := by
        have bits : ∀ n < 128, UInt8.ofNat n &&& 0x80 = 0 := by decide +kernel
        exact bits _ (by omega)
      simp only [Frame.encode, Frame.head, form, LengthForm.extended, toBe, List.cons_append,
        List.drop_succ_cons, List.drop_zero, illegalLength, octet, id, top]
      simp

/-- A whole frame, as the guard finds it. -/
def seen (f : Rfc6455.Frame) : Frame UInt8 := ⟨headerOf f, f.encode⟩

theorem parse_encode (fs : List Rfc6455.Frame) :
    parse (fs.flatMap Frame.encode) = ⟨fs.map seen, false⟩ := by
  induction fs with
  | nil => exact parse_nil
  | cons f fs ih =>
      have len : (headerOf f).size + (headerOf f).len = f.encode.length := by
        simp [headerOf, Frame.encode]
      rw [List.flatMap_cons, parse_header (legal_encode f _) (header_encode f _), len,
        List.drop_left, List.take_left, ih]
      rfl

/-- What a guard with this cap hands on: control frames as they come, and each
    data message within the cap whole, once its final fragment is there. -/
def capped (cap : Nat) : List Rfc6455.Frame → List Rfc6455.Frame → List Rfc6455.Frame
  | _, [] => []
  | opened, f :: fs =>
      if f.control then f :: capped cap opened fs
      else if f.fin then
        (if total (opened ++ [f]) ≤ cap then opened ++ [f] else []) ++ capped cap [] fs
      else capped cap (opened ++ [f]) fs

/-- The data messages over the cap. -/
def overCap (cap : Nat) : List Rfc6455.Frame → List Rfc6455.Frame → Nat
  | _, [] => 0
  | opened, f :: fs =>
      if f.control then overCap cap opened fs
      else if f.fin then (if total (opened ++ [f]) ≤ cap then 0 else 1) + overCap cap [] fs
      else overCap cap (opened ++ [f]) fs

/-- What a guard between these frames knows of the open message. -/
def Knows (cap : UInt64) (msg : Msg) (hold : List UInt8) (opened : List Rfc6455.Frame) : Prop :=
  match msg with
  | .none => opened = []
  | .holding len =>
      opened ≠ [] ∧ len = total opened ∧ len ≤ cap.toNat ∧ hold = opened.flatMap Frame.encode
  | .skipping => opened ≠ [] ∧ cap.toNat < total opened

theorem control_opcode (f : Rfc6455.Frame) :
    ((headerOf f).opcode &&& 0x08 != 0) = f.control := by
  have bits : ∀ opcode : Fin 16,
      (UInt8.ofNat opcode &&& 0x08 != 0) = Decidable.decide (8 ≤ opcode.val) := by
    decide +kernel
  exact bits f.opcode

theorem continuation_opcode (f : Rfc6455.Frame) :
    (headerOf f).opcode = 0 ↔ f.continuation = true := by
  have bits : ∀ opcode : Fin 16, UInt8.ofNat opcode = 0 ↔ (opcode.val == 0) = true := by
    decide +kernel
  exact bits f.opcode

/-- `fate`, in the frame's own terms. -/
theorem fate_headerOf (cap : UInt64) (msg : Msg) (f : Rfc6455.Frame) :
    fate cap msg (headerOf f) =
      if f.control then .pass msg
      else if f.continuation then
        match msg with
        | .skipping => .drop false (if f.fin then .none else .skipping)
        | .holding len =>
            if len + f.payload.length ≤ cap.toNat then .keep (len + f.payload.length)
            else .drop true (if f.fin then .none else .skipping)
        | .none => .pass .none
      else
        match msg with
        | .holding _ => .release
        | .skipping => .pass .none
        | .none =>
            if cap.toNat < f.payload.length then .drop true (if f.fin then .none else .skipping)
            else if f.fin then .pass .none
            else .keep f.payload.length := by
  unfold fate
  simp only [control_opcode, continuation_opcode]
  rfl

theorem whole_seen (f : Rfc6455.Frame) : (seen f).Whole := by
  simp [Frame.Whole, seen, headerOf, Rfc6455.Frame.encode]

theorem play_seen_cons (cap : UInt64) (msg : Msg) (hold : List UInt8) (f : Rfc6455.Frame)
    (fs : List (Frame UInt8)) :
    play cap false msg hold (seen f :: fs) =
      match fate cap msg (headerOf f) with
      | .pass msg' => (play cap false msg' hold fs).hand f.encode
      | .release => (play cap false .none [] fs).hand (hold ++ f.encode)
      | .keep total =>
          if f.fin then (play cap false .none [] fs).hand (msg.held hold ++ f.encode)
          else play cap false (.holding total) (msg.held hold ++ f.encode) fs
      | .drop counted msg' => (play cap false msg' [] fs).count counted.toNat := by
  simp only [play, whole_seen, if_true]
  rfl

/-- The guard's frames in order: it counts a message when it passes the cap, `overCap`
    when it ends, so a message being skipped was counted before. -/
theorem play_seen (cap : UInt64) {msg : Msg} {hold : List UInt8} {opened fs : List Rfc6455.Frame}
    (order : InOrder (!opened.isEmpty) fs) (knows : Knows cap msg hold opened) :
    (play cap false msg hold (fs.map seen)).out =
        (capped cap.toNat opened fs).flatMap Rfc6455.Frame.encode ∧
      (play cap false msg hold (fs.map seen)).dropped + (if msg = .skipping then 1 else 0) =
        overCap cap.toNat opened fs := by
  induction fs generalizing msg hold opened with
  | nil =>
      simp only [InOrder, Bool.not_eq_false', List.isEmpty_iff] at order
      subst order
      cases msg <;> simp_all [Knows, play, capped, overCap]
  | cons f fs ih =>
      have more : total (opened ++ [f]) = total opened + f.payload.length := by simp [total]
      have fresh : ∀ hold, Knows cap .none hold [] := fun _ => rfl
      have longer : opened ++ [f] ≠ [] := by simp
      rw [List.map_cons, play_seen_cons, fate_headerOf]
      cases control : f.control with
      | true =>
          simp only [InOrder, control, if_true] at order
          simp [capped, overCap, control, ih order knows]
      | false =>
          simp only [InOrder, control, Bool.false_eq_true, if_false] at order
          obtain ⟨opens, order⟩ := order
          have closed : f.fin = true → InOrder (!([] : List Rfc6455.Frame).isEmpty) fs := by
            intro fin
            rwa [fin] at order
          have still : f.fin = false → InOrder (!(opened ++ [f]).isEmpty) fs := by
            intro fin
            rw [fin] at order
            rwa [List.isEmpty_eq_false_iff.mpr longer]
          cases msg with
          | none =>
              subst knows
              simp only [List.nil_append] at more still longer
              have one : total [f] = f.payload.length := by simp [total]
              simp only [capped, overCap, control, opens, List.isEmpty_nil, Bool.not_true,
                Bool.false_eq_true, if_false, List.nil_append, one]
              by_cases tooLong : cap.toNat < f.payload.length
              · rw [if_pos tooLong, if_neg (by omega : ¬ f.payload.length ≤ cap.toNat),
                  if_neg (by omega : ¬ f.payload.length ≤ cap.toNat)]
                cases fin : f.fin with
                | true =>
                    have later := ih (closed fin) (fresh [])
                    simpa [Nat.add_comm] using later
                | false =>
                    have skips : Knows cap .skipping [] [f] := ⟨longer, by omega⟩
                    have later := ih (still fin) skips
                    simp only [if_true] at later
                    simp [← later.2, later.1, Nat.add_comm]
              · have fits : f.payload.length ≤ cap.toNat := by omega
                rw [if_neg tooLong, if_pos fits, if_pos fits]
                cases fin : f.fin with
                | true =>
                    have later := ih (closed fin) (fresh hold)
                    simpa using later
                | false =>
                    have holds : Knows cap (.holding f.payload.length) f.encode [f] :=
                      ⟨longer, one.symm, fits, by simp⟩
                    have later := ih (still fin) holds
                    simpa [fin, Msg.held] using later
          | holding len =>
              obtain ⟨ne, rfl, fits, rfl⟩ := knows
              simp only [capped, overCap, control, opens, List.isEmpty_eq_false_iff.mpr ne,
                Bool.not_false, Bool.false_eq_true, if_true, if_false, ← more]
              by_cases tooLong : total (opened ++ [f]) ≤ cap.toNat
              · rw [if_pos tooLong]
                cases fin : f.fin with
                | true =>
                    have later := ih (closed fin) (fresh [])
                    simpa [fin, tooLong, Msg.held] using later
                | false =>
                    have holds : Knows cap (.holding (total (opened ++ [f])))
                        ((opened ++ [f]).flatMap Frame.encode) (opened ++ [f]) :=
                      ⟨longer, rfl, tooLong, rfl⟩
                    have later := ih (still fin) holds
                    simpa [fin, Msg.held] using later
              · rw [if_neg tooLong]
                cases fin : f.fin with
                | true =>
                    have later := ih (closed fin) (fresh [])
                    simpa [tooLong, Nat.add_comm] using later
                | false =>
                    have skips : Knows cap .skipping [] (opened ++ [f]) := ⟨longer, by omega⟩
                    have later := ih (still fin) skips
                    simp only [if_true] at later
                    simp [← later.2, later.1, Nat.add_comm]
          | skipping =>
              obtain ⟨ne, past⟩ := knows
              have tooLong : ¬ total (opened ++ [f]) ≤ cap.toNat := by omega
              simp only [capped, overCap, control, opens, List.isEmpty_eq_false_iff.mpr ne,
                Bool.not_false, Bool.false_eq_true, if_true, if_false, tooLong]
              cases fin : f.fin with
              | true =>
                  have later := ih (closed fin) (fresh [])
                  simpa [Nat.add_comm] using later
              | false =>
                  have skips : Knows cap .skipping [] (opened ++ [f]) := ⟨longer, by omega⟩
                  have later := ih (still fin) skips
                  simpa using later

theorem relay_encode (cap : UInt64) {fs : List Rfc6455.Frame} (order : InOrder false fs) :
    (relay cap .none [] (fs.flatMap Rfc6455.Frame.encode)).out =
        (capped cap.toNat [] fs).flatMap Rfc6455.Frame.encode ∧
      (relay cap .none [] (fs.flatMap Rfc6455.Frame.encode)).dropped = overCap cap.toNat [] fs := by
  have start : InOrder (!([] : List Rfc6455.Frame).isEmpty) fs := order
  have idle : Knows cap .none [] [] := rfl
  have played := play_seen cap start idle
  rw [relay, parse_encode]
  simpa using played

/-- However a stream of whole messages reaches a guard, and whatever room its reader
    has, what it hands on is the front of the messages within the cap, and in the end
    all of them; it counts the others. -/
theorem guard_capped (cap : UInt64) (fs : List Rfc6455.Frame) (order : InOrder false fs)
    (reserves : List Reserve) (s : Socket UInt8)
    (stream : s.bytes = fs.flatMap Rfc6455.Frame.encode) (rooms : List Nat)
    (some : ∀ room ∈ rooms, 0 < room) :
    ((Guard.new cap reserves).reads s rooms).out <+:
        (capped cap.toNat [] fs).flatMap Rfc6455.Frame.encode ∧
      (Guard.patience s < rooms.length →
        ((Guard.new cap reserves).reads s rooms).out =
            (capped cap.toNat [] fs).flatMap Rfc6455.Frame.encode ∧
          ((Guard.new cap reserves).reads s rooms).guard.dropped = overCap cap.toNat [] fs) := by
  have relayed := relay_encode cap order
  rw [← stream] at relayed
  constructor
  · have front := (Guard.new cap reserves).reads_front s rooms
    rw [Guard.ahead_new, relayed.1] at front
    exact front
  · intro enough
    have all := Guard.reads_all cap reserves s some enough
    rw [relayed.1, relayed.2] at all
    exact all

/-- A text message's first frame, unmasked. -/
def textFrame (fin : Bool) (payload : List UInt8)
    (fits : payload.length < Rfc6455.LengthForm.short.limit) : Rfc6455.Frame :=
  ⟨fin, 0, 1, none, .short, payload, fits⟩

theorem fits_letter : [(0x62 : UInt8)].length < Rfc6455.LengthForm.short.limit := by decide

/-- A text message in two fragments, a ping between them, then a binary message. -/
def pinged : List Rfc6455.Frame :=
  [⟨false, 0, 1, none, .short, [0x61], by decide⟩, ⟨true, 0, 9, none, .short, [], by decide⟩,
    ⟨true, 0, 0, none, .short, [0x62], fits_letter⟩,
    ⟨true, 0, 2, none, .short, [0x01, 0x02, 0x03], by decide⟩]

/-- `pinged` as it may come off the wire. -/
def pingedSocket : Socket UInt8 :=
  ⟨[.data 0x01 [0x01], .pending, .data 0x61 [0x89, 0x00, 0x80], .data 0x01 [0x62, 0x82],
    .data 0x03 [0x01, 0x02, 0x03]], .closed⟩

theorem guard_capped_pinged :
    ((Guard.new 2 []).reads pingedSocket (List.replicate 20 3)).out =
        [0x89, 0x00, 0x01, 0x01, 0x61, 0x80, 0x01, 0x62] ∧
      ((Guard.new 2 []).reads pingedSocket (List.replicate 20 3)).guard.dropped = 1 := by
  have all := (guard_capped 2 pinged (by decide) [] pingedSocket (by decide +kernel)
    (List.replicate 20 3) (by decide)).2 (by decide)
  exact ⟨all.1.trans (by decide +kernel), all.2.trans (by decide +kernel)⟩

end PlexusTransport.Ws
