import Mathlib

/-! # Atomic cells

A cell that several tasks share, with the order of the values it has had. A load, and a
compare that fails, may see any of them; a change is made to the last, and read off it.
-/

namespace PlexusTransport

structure Atomic (α : Type) where
  value : α
  past : List α

namespace Atomic

variable {α : Type}

def new (a : α) : Atomic α := ⟨a, []⟩

def put (c : Atomic α) (a : α) : Atomic α := ⟨a, c.value :: c.past⟩

def Had (c : Atomic α) (a : α) : Prop := a ∈ c.value :: c.past

/-- Every value of the cell's. -/
def Each (P : α → Prop) (c : Atomic α) : Prop := ∀ a, c.Had a → P a

section Decide

variable [DecidableEq α]

instance (c : Atomic α) (a : α) : Decidable (c.Had a) :=
  inferInstanceAs (Decidable (a ∈ c.value :: c.past))

/-- A load that sees `seen`. -/
def load (c : Atomic α) (seen : α) : Option α := if c.Had seen then some seen else none

/-- A `compare_exchange` that goes through. -/
def exchange (c : Atomic α) (expected new : α) : Option (Atomic α) :=
  if c.value = expected then some (c.put new) else none

/-- A `compare_exchange` that fails, with what it has seen. -/
def mismatch (c : Atomic α) (expected seen : α) : Option α :=
  if c.Had seen ∧ seen ≠ expected then some seen else none

end Decide

/-- A `fetch_sub`, or another that reads the cell and changes it in one. -/
def fetch (c : Atomic α) (f : α → α) : Atomic α := c.put (f c.value)

variable {c : Atomic α} {P : α → Prop}

theorem had_value : c.Had c.value := .head _

theorem Had.put {a : α} (had : c.Had a) (b : α) : (c.put b).Had a := .tail _ had

theorem Each.put (each : c.Each P) {a : α} (is : P a) : (c.put a).Each P := by
  intro b had
  obtain rfl | had := List.mem_cons.mp had
  · exact is
  · exact each b had

end Atomic

end PlexusTransport
