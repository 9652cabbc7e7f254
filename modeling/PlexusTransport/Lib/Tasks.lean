import Mathlib

/-! # Tasks

Tasks that run beside each other: a list of where each is, by its index. A step moves
one of them; a new one comes last.
-/

namespace PlexusTransport.Tasks

variable {α : Type} {P Q : Nat → α → Prop} {tasks : List α}

/-- Each task is where it may be. -/
def Each (P : Nat → α → Prop) (tasks : List α) : Prop := ∀ i a, tasks[i]? = some a → P i a

theorem Each.mono (each : Each P tasks) (weaker : ∀ i a, tasks[i]? = some a → P i a → Q i a) :
    Each Q tasks :=
  fun i a here => weaker i a here (each i a here)

theorem Each.set (each : Each P tasks) {i : Nat} {a : α} (moved : P i a) :
    Each P (tasks.set i a) := by
  intro j b here
  rw [List.getElem?_set] at here
  split at here
  · rename_i same
    split at here
    · cases here
      exact same ▸ moved
    · cases here
  · exact each j b here

theorem Each.append (each : Each P tasks) {a : α} (new : P tasks.length a) :
    Each P (tasks ++ [a]) := by
  intro j b here
  rw [List.getElem?_append] at here
  split at here
  · exact each j b here
  · rename_i past
    obtain ⟨rfl, rfl⟩ : j = tasks.length ∧ a = b := by
      obtain ⟨within, same⟩ := List.getElem?_eq_some_iff.mp here
      simp only [List.length_singleton] at within
      exact ⟨by omega, by simpa [show j - tasks.length = 0 by omega] using same⟩
    exact new

theorem each_nil : Each P [] := fun _ _ here => by simp at here

/-- What the tasks hold together. -/
def total (held : α → Nat) (tasks : List α) : Nat := (tasks.map held).sum

section Total

variable {held : α → Nat}

theorem total_append (a : α) : total held (tasks ++ [a]) = total held tasks + held a := by
  simp [total]

theorem total_set {i : Nat} {a : α} (here : tasks[i]? = some a) (b : α) :
    total held (tasks.set i b) + held a = total held tasks + held b := by
  induction tasks generalizing i with
  | nil => cases here
  | cons c tasks ih =>
      cases i with
      | zero =>
          cases here
          simp only [total, List.set_cons_zero, List.map_cons, List.sum_cons]
          omega
      | succ i =>
          have later := ih here
          simp only [total, List.set_cons_succ, List.map_cons, List.sum_cons] at later ⊢
          omega

theorem total_eq_zero : total held tasks = 0 ↔ Each (fun _ a => held a = 0) tasks := by
  constructor
  · intro none i a here
    exact List.sum_eq_zero_iff.mp none _ (List.mem_map_of_mem (List.mem_of_getElem? here))
  · intro each
    refine List.sum_eq_zero_iff.mpr fun n mem => ?_
    obtain ⟨a, here, rfl⟩ := List.mem_map.mp mem
    obtain ⟨i, here⟩ := List.mem_iff_getElem?.mp here
    exact each i a here

/-- As many tasks as hold something, each counted once. -/
theorem length_le_total {indices : List Nat} (once : indices.Nodup)
    (each : ∀ i ∈ indices, ∃ a, tasks[i]? = some a ∧ 1 ≤ held a) :
    indices.length ≤ total held tasks := by
  let here (i : Nat) : Nat := (tasks[i]?.map held).getD 0
  have within : indices.toFinset ⊆ Finset.range tasks.length := by
    intro i mem
    obtain ⟨a, at_, -⟩ := each i (List.mem_toFinset.mp mem)
    exact Finset.mem_range.mpr (List.getElem?_eq_some_iff.mp at_).1
  calc indices.length = ∑ i ∈ indices.toFinset, 1 := by
        rw [Finset.sum_const, smul_eq_mul, mul_one, List.toFinset_card_of_nodup once]
    _ ≤ ∑ i ∈ indices.toFinset, here i := by
        refine Finset.sum_le_sum fun i mem => ?_
        obtain ⟨a, at_, some_⟩ := each i (List.mem_toFinset.mp mem)
        simpa [here, at_] using some_
    _ ≤ ∑ i ∈ Finset.range tasks.length, here i := Finset.sum_le_sum_of_subset within
    _ = total held tasks := by
        rw [Finset.sum_range, total, ← Fin.sum_univ_fun_getElem]
        simp [here]

end Total

/-- What a task has of a kind, as it moves. -/
theorem filterMap_set_perm {β : Type} {f : α → Option β} {i : Nat} {a : α}
    (here : tasks[i]? = some a) (b : α) :
    ((tasks.set i b).filterMap f ++ (f a).toList).Perm (tasks.filterMap f ++ (f b).toList) := by
  have cons : ∀ (c : α) (tasks : List α),
      (c :: tasks).filterMap f = (f c).toList ++ tasks.filterMap f := by
    intro c tasks
    cases fc : f c <;> simp [fc]
  induction tasks generalizing i with
  | nil => cases here
  | cons c tasks ih =>
      cases i with
      | zero =>
          cases here
          rw [List.set_cons_zero, cons, cons, List.append_assoc (f a).toList]
          exact List.perm_append_comm.trans (List.perm_append_comm.append_left _)
      | succ i =>
          rw [List.set_cons_succ, cons, cons, List.append_assoc, List.append_assoc]
          exact (ih here).append_left _

end PlexusTransport.Tasks
