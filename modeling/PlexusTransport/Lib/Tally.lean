import Mathlib

/-! # Tallies

A map from keys to counts, raised by `entry(k).or_default() += 1` and lowered
by a decrement that takes an entry out when it reaches zero. It tallies a list
when its entries are exactly the list's keys, each with its count.
-/

namespace PlexusTransport

/-- A map's entries. -/
abbrev Tally (κ : Type) : Type := κ → Option Nat

namespace Tally

variable {κ : Type} [DecidableEq κ]

def empty : Tally κ := fun _ => none

def get (m : Tally κ) (k : κ) : Nat := (m k).getD 0

def up (m : Tally κ) (k : κ) : Tally κ := Function.update m k (some (m.get k + 1))

/-- `none`: the decrement would underflow. -/
def down (m : Tally κ) (k : κ) : Option (Tally κ) :=
  match m k with
  | none => some m
  | some 0 => none
  | some (n + 1) => some (Function.update m k (if n = 0 then none else some n))

def Tallies (m : Tally κ) (keys : List κ) : Prop :=
  ∀ k, m k = if keys.count k = 0 then none else some (keys.count k)

theorem tallies_nil : (empty : Tally κ).Tallies [] := by
  intro k
  rfl

variable {m : Tally κ} {keys : List κ}

theorem Tallies.get (tallies : m.Tallies keys) (k : κ) : m.get k = keys.count k := by
  rw [Tally.get, tallies k]
  split
  · rename_i none
    rw [none]
    rfl
  · rfl

theorem Tallies.isSome_iff (tallies : m.Tallies keys) (k : κ) : (m k).isSome = true ↔ k ∈ keys := by
  rw [tallies k, ← List.count_pos_iff]
  split
  · rename_i none
    simp [none]
  · rename_i some
    simp [Nat.pos_iff_ne_zero, some]

theorem Tallies.perm {keys' : List κ} (same : keys.Perm keys') (tallies : m.Tallies keys) :
    m.Tallies keys' := by
  intro k
  rw [tallies k, same.count_eq]

theorem Tallies.up (tallies : m.Tallies keys) (k : κ) : (m.up k).Tallies (k :: keys) := by
  intro other
  by_cases same : other = k
  · subst same
    simp [Tally.up, tallies.get]
  · simp [Tally.up, Function.update_of_ne same, tallies other, List.count_cons_of_ne (Ne.symm same)]

/-- A key that is there can be taken out: nothing underflows. -/
theorem Tallies.down {k : κ} (tallies : m.Tallies (k :: keys)) :
    ∃ m', m.down k = some m' ∧ m'.Tallies keys := by
  have entry : m k = some (keys.count k + 1) := by rw [tallies k]; simp
  refine ⟨_, by rw [Tally.down, entry], ?_⟩
  intro other
  by_cases same : other = k
  · subst same
    simp
  · rw [Function.update_of_ne same, tallies other, List.count_cons_of_ne (Ne.symm same)]

/-- The counts of a map's entries add up to what it tallies. -/
theorem Tallies.sum (tallies : m.Tallies keys) {entries : List κ} (once : entries.Nodup)
    (all : ∀ k, k ∈ entries ↔ (m k).isSome = true) : (entries.map m.get).sum = keys.length := by
  have same : entries.Perm keys.dedup := by
    rw [List.perm_ext_iff_of_nodup once (List.nodup_dedup keys)]
    intro k
    rw [all, List.mem_dedup, ← List.count_pos_iff, tallies k]
    split <;> simp_all [Nat.pos_iff_ne_zero]
  have counts : m.get = fun k => keys.count k := funext tallies.get
  rw [(same.map m.get).sum_eq, counts, List.sum_map_count_dedup_eq_length]

end Tally

end PlexusTransport
