import PlexusTransport.Lib.Tasks

/-! # Watch channels

A value that is sent to every receiver there is, the last one sent alone. It is closed
once no receiver is left; to wait for a value is to wait for it or for the last sender's
end.
-/

namespace PlexusTransport

structure WatchChannel (α : Type) where
  value : α
  senders : Nat
  receivers : Nat

/-- What a task does to the receivers as it moves. -/
inductive Share where
  | keeps
  | clones
  | drops
  deriving DecidableEq, Repr

namespace WatchChannel

variable {α : Type}

/-- A sender and a receiver. -/
def channel (a : α) : WatchChannel α := ⟨a, 1, 1⟩

/-- `none`: there is no receiver, and the value stays. -/
def send (w : WatchChannel α) (a : α) : Option (WatchChannel α) :=
  if w.receivers = 0 then none else some { w with value := a }

def isClosed (w : WatchChannel α) : Bool := w.receivers == 0

/-- A `wait_for` is over. -/
def ready (w : WatchChannel α) (p : α → Bool) : Bool := p w.value || w.senders == 0

/-- `none`: there is no receiver to clone, or none to drop. -/
def share (w : WatchChannel α) : Share → Option (WatchChannel α)
  | .keeps => some w
  | .clones => if w.receivers = 0 then none else some { w with receivers := w.receivers + 1 }
  | .drops => if w.receivers = 0 then none else some { w with receivers := w.receivers - 1 }

def cloneSender (w : WatchChannel α) : Option (WatchChannel α) :=
  if w.senders = 0 then none else some { w with senders := w.senders + 1 }

def dropSender (w : WatchChannel α) : Option (WatchChannel α) :=
  if w.senders = 0 then none else some { w with senders := w.senders - 1 }

end WatchChannel

/-- The receivers held before and after it. -/
def Share.Balances (before after : Nat) : Share → Prop
  | .keeps => after = before
  | .clones => after = before + 1 ∧ before ≠ 0
  | .drops => after + 1 = before

namespace WatchChannel

variable {α : Type} {w w' : WatchChannel α}

theorem isClosed_iff : w.isClosed = true ↔ w.receivers = 0 := by simp [isClosed]

theorem share_some {sh : Share} (shared : w.share sh = some w') :
    (∀ p, w'.ready p = w.ready p) ∧ sh.Balances w.receivers w'.receivers := by
  cases sh with
  | keeps =>
      cases shared
      exact ⟨fun _ => rfl, rfl⟩
  | clones =>
      obtain ⟨some_, same⟩ := Option.ite_none_left_eq_some.mp shared
      cases same
      exact ⟨fun _ => rfl, rfl, some_⟩
  | drops =>
      obtain ⟨some_, same⟩ := Option.ite_none_left_eq_some.mp shared
      cases same
      refine ⟨fun _ => rfl, ?_⟩
      simp only [Share.Balances]
      omega

/-- As one of the holders takes up or gives back, so does the whole. -/
theorem share_total (others : Nat) {sh : Share} {before after here here' : Nat}
    (shared : w.share sh = some w') (task : sh.Balances before after)
    (moved : here' + before = here + after) (receivers : w.receivers = others + here) :
    w'.receivers = others + here' := by
  have watch := (share_some shared).2
  cases sh <;> simp only [Share.Balances] at task watch <;> omega

end WatchChannel

end PlexusTransport
