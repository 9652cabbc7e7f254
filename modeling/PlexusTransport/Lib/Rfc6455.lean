import PlexusTransport.Lib.BigEndian

/-! # WebSocket frames on the wire

RFC 6455 section 5.2: a frame's first two bytes, its extended length, its mask
key and its payload; and section 5.4: the order in which the fragments of a
message may come.
-/

namespace PlexusTransport.Rfc6455

open BigEndian

/-- How a frame spells its payload length. -/
inductive LengthForm where
  | short
  | medium
  | long
  deriving Repr, DecidableEq

namespace LengthForm

/-- The lengths a form can spell: the top bit of a 64-bit length is 0. -/
def limit : LengthForm → Nat
  | .short => 126
  | .medium => 2 ^ 16
  | .long => 2 ^ 63

/-- The seven length bits of a frame's second byte. -/
def code (form : LengthForm) (len : Nat) : UInt8 :=
  match form with
  | .short => UInt8.ofNat len
  | .medium => 126
  | .long => 127

/-- The extended length that follows them. -/
def extended (form : LengthForm) (len : Nat) : List UInt8 :=
  match form with
  | .short => []
  | .medium => toBe 2 len
  | .long => toBe 8 len

end LengthForm

/-- A mask key. -/
structure Key where
  bytes : List UInt8
  four : bytes.length = 4

/-- A whole frame, its payload as sent (masked or not). -/
structure Frame where
  fin : Bool
  rsv : Fin 8
  opcode : Fin 16
  key : Option Key
  form : LengthForm
  payload : List UInt8
  fits : payload.length < form.limit

namespace Frame

def firstByte (f : Frame) : UInt8 :=
  (if f.fin then 0x80 else 0) ||| UInt8.ofNat (16 * f.rsv + f.opcode)

def secondByte (f : Frame) : UInt8 :=
  (if f.key.isSome then 0x80 else 0) ||| f.form.code f.payload.length

def head (f : Frame) : List UInt8 :=
  f.firstByte :: f.secondByte :: f.form.extended f.payload.length ++
    (f.key.map Key.bytes).getD []

def encode (f : Frame) : List UInt8 := f.head ++ f.payload

theorem firstByte_fin (f : Frame) : (f.firstByte &&& 0x80 != 0) = f.fin := by
  have bits : ∀ (fin : Bool) (rsv : Fin 8) (opcode : Fin 16),
      (((if fin then 0x80 else 0) ||| UInt8.ofNat (16 * rsv + opcode)) &&& 0x80 != 0) = fin := by
    decide +kernel
  exact bits f.fin f.rsv f.opcode

theorem firstByte_opcode (f : Frame) : f.firstByte &&& 0x0f = UInt8.ofNat f.opcode := by
  have bits : ∀ (fin : Bool) (rsv : Fin 8) (opcode : Fin 16),
      ((if fin then 0x80 else 0) ||| UInt8.ofNat (16 * rsv + opcode)) &&& 0x0f =
        UInt8.ofNat opcode := by
    decide +kernel
  exact bits f.fin f.rsv f.opcode

theorem code_lt (f : Frame) : (f.form.code f.payload.length).toNat < 128 := by
  have fits := f.fits
  cases form : f.form with
  | short =>
      rw [form, LengthForm.limit] at fits
      simp only [LengthForm.code, UInt8.toNat_ofNat']
      omega
  | medium | long => simp [LengthForm.code]

theorem secondByte_mask (f : Frame) : (f.secondByte &&& 0x80 != 0) = f.key.isSome := by
  have bits : ∀ (masked : Bool), ∀ n < 128,
      (((if masked then 0x80 else 0) ||| UInt8.ofNat n) &&& 0x80 != 0) = masked := by
    decide +kernel
  simpa [secondByte] using bits f.key.isSome _ f.code_lt

theorem secondByte_code (f : Frame) : f.secondByte &&& 0x7f = f.form.code f.payload.length := by
  have bits : ∀ (masked : Bool), ∀ n < 128,
      ((if masked then 0x80 else 0) ||| UInt8.ofNat n) &&& 0x7f = UInt8.ofNat n := by
    decide +kernel
  simpa [secondByte] using bits f.key.isSome _ f.code_lt

/-- Ping, pong, close, and the reserved control opcodes. -/
def control (f : Frame) : Bool := 8 ≤ f.opcode.val

def continuation (f : Frame) : Bool := f.opcode.val == 0

end Frame

/-- Every data frame continues the open message exactly if there is one, and no
    message is left open. Control frames may come anywhere. -/
def InOrder : Bool → List Frame → Prop
  | opened, [] => opened = false
  | opened, f :: fs =>
      if f.control then InOrder opened fs
      else f.continuation = opened ∧ InOrder (!f.fin) fs

instance decInOrder : (opened : Bool) → (fs : List Frame) → Decidable (InOrder opened fs)
  | opened, [] => inferInstanceAs (Decidable (opened = false))
  | opened, f :: fs =>
      have := decInOrder opened fs
      have := decInOrder (!f.fin) fs
      inferInstanceAs (Decidable (if f.control then _ else _ ∧ _))

/-- Whether a message is open after a frame, as a receiver follows them: `none` once
    the frames are out of order. -/
def follow : Option Bool → Frame → Option Bool
  | none, _ => none
  | some opened, f =>
      if f.control then some opened
      else if f.continuation = opened then some !f.fin
      else none

@[simp] theorem foldl_follow_none (fs : List Frame) : fs.foldl follow none = none := by
  induction fs with
  | nil => rfl
  | cons f fs ih => exact ih

/-- The fragments of a message come out of order: a data frame before the open
    message's final fragment, or a continuation with no message open. -/
def Broken (fs : List Frame) : Prop := fs.foldl follow (some false) = none

instance (fs : List Frame) : Decidable (Broken fs) := inferInstanceAs (Decidable (_ = _))

/-- The payload bytes of a message's fragments. -/
def total (fs : List Frame) : Nat := (fs.map fun f => f.payload.length).sum

end PlexusTransport.Rfc6455
