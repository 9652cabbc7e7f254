import Mathlib

/-! # Cells set once

A `OnceLock` keeps what it was first set to, whatever it is set to afterwards.
-/

namespace PlexusTransport.Once

variable {σ α β : Type}

/-- `OnceLock::set`. -/
def set (cell : Option β) (b : β) : Option β := cell.or (some b)

/-- Where each item sets a cell or leaves it, the first that sets it does. -/
theorem foldl_first {f : σ → α → σ} (read : σ → Option β) (sets : α → Option β)
    (each : ∀ s i, read (f s i) = (read s).or (sets i)) (items : List α) (s : σ) :
    read (items.foldl f s) = (read s).or (items.findSome? sets) := by
  induction items generalizing s with
  | nil => simp
  | cons i items ih =>
      rw [List.foldl_cons, ih, each, List.findSome?_cons, Option.or_assoc]
      cases sets i <;> rfl

end PlexusTransport.Once
