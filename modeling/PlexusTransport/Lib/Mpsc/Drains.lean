import PlexusTransport.Lib.Mpsc.Fits

/-! # What a bounded channel gives its receiver

As long as it is open, woken senders and the receiver bring every value through.
-/

namespace PlexusTransport

namespace Mpsc

/-- How far a send is from being received; nothing, if it will not be. -/
def Stage.left : Stage → Nat
  | .waiting => 3
  | .granted => 2
  | .queued => 1
  | _ => 0

def Send.left {α : Type} (s : Send α) : Nat := s.stage.left

/-- Where a send comes to if nothing ends it. -/
def Stage.last (st : Stage) : Stage := if 0 < st.left then .received else st

/-- Only woken tasks run, and the receiver. -/
def Op.runs {α : Type} : Op α → Bool
  | .complete _ | .recv => true
  | _ => false

section Drains

variable {c c' : Mpsc α} {i : Nat} {st : Stage}

def left (c : Mpsc α) : Nat := Tasks.total Send.left c.sends

theorem move_left (here : c.stage i = some st) (st' : Stage) :
    (c.move i st').left + st.left = c.left + st'.left := by
  obtain ⟨s, at_, rfl⟩ := Option.map_eq_some_iff.mp here
  simp only [move, at_, left]
  exact Tasks.total_set at_ _

/-- Each send is where it was, or nearer to being received. -/
def Nears (c c' : Mpsc α) : Prop :=
  ∀ i st, c.stage i = some st → ∃ st', c'.stage i = some st' ∧ st'.last = st.last

theorem Nears.trans {c₁ c₂ c₃ : Mpsc α} (one : Nears c₁ c₂) (two : Nears c₂ c₃) : Nears c₁ c₃ := by
  intro i st here
  obtain ⟨st', here', same⟩ := one i st here
  obtain ⟨st'', here'', same'⟩ := two i st' here'
  exact ⟨st'', here'', same'.trans same⟩

theorem move_nears (here : c.stage i = some st) {st' : Stage} (same : st'.last = st.last) :
    Nears c (c.move i st') := by
  intro j st₁ at_
  rw [move_stage here]
  split
  · rename_i there
    rw [there, here] at at_
    cases at_
    exact ⟨st', rfl, same⟩
  · exact ⟨st₁, at_, rfl⟩

theorem grant_nears (c : Mpsc α) : Nears c c.grant ∧ c.grant.left ≤ c.left := by
  have granted := grants c
  generalize c.grant = c' at granted
  cases granted with
  | none => exact ⟨fun i st here => ⟨st, here, rfl⟩, Nat.le_refl _⟩
  | first i here =>
      have left := move_left here .granted
      refine ⟨move_nears here rfl, ?_⟩
      simp only [Stage.left] at left
      omega

/-- While a send is to be received yet, there is a task to run that brings one nearer. -/
theorem runs_on (fits : c.Fits) (opened : c.closed = false) (some_ : 0 < c.capacity)
    (pending : 0 < c.left) :
    ∃ op c', op.runs = true ∧ c.step op = some c' ∧ Nears c c' ∧ c'.left < c.left ∧
      c'.closed = false ∧ c'.capacity = c.capacity := by
  cases front : c.queue with
  | cons i queue =>
      have here : c.stage i = some .queued := (fits.queued i).mp (by simp [front])
      have left := move_left here .received
      have taken : Nears c (c.take i queue) := move_nears here rfl
      obtain ⟨nears, less⟩ := grant_nears (c.take i queue)
      have stays : (c.take i queue).left = (c.move i .received).left := rfl
      refine ⟨.recv, (c.take i queue).grant, rfl, by simp [step, recv, front],
        taken.trans nears, ?_, ?_, ?_⟩
      · simp only [Stage.left] at left
        omega
      all_goals
        have granted := grants (c.take i queue)
        generalize (c.take i queue).grant = c' at granted
        cases granted <;> simp [opened]
  | nil =>
      by_cases granted : ∃ i, c.stage i = some .granted
      · obtain ⟨i, here⟩ := granted
        have left := move_left here .queued
        refine ⟨.complete i, (c.move i .queued).enqueue i, rfl,
          by simp [step, complete, here, opened], move_nears here rfl, ?_,
          (move_closed c i .queued).trans opened, move_capacity c i .queued⟩
        change (c.move i .queued).left < c.left
        simp only [Stage.left] at left
        omega
      · -- No slot is taken, so none waits.
        exfalso
        have none : c.used = 0 := by
          refine Tasks.total_eq_zero.mpr fun i s at_ => ?_
          have here : c.stage i = some s.stage := by simp [stage, at_]
          have unqueued : s.stage ≠ .queued := by
            intro queued
            have mem := (fits.queued i).mpr (here.trans (congrArg _ queued))
            simp [front] at mem
          have ungranted : s.stage ≠ .granted := fun there => granted ⟨i, there ▸ here⟩
          change s.stage.slots = 0
          cases stage : s.stage <;> simp_all [Stage.slots]
        have still : c.left = 0 := by
          refine Tasks.total_eq_zero.mpr fun i s at_ => ?_
          have here : c.stage i = some s.stage := by simp [stage, at_]
          have slotless : s.stage.slots = 0 := Tasks.total_eq_zero.mp none i s at_
          change s.stage.left = 0
          cases stage : s.stage with
          | waiting =>
              have full := fits.full opened i (here.trans (congrArg _ stage))
              omega
          | granted | queued => simp [stage, Stage.slots] at slotless
          | received | full | lost | cancelled | dropped => rfl
        omega

/-- An open channel gives every value there is to its receiver, woken tasks and the receiver
    alone running on. -/
theorem drains (fits : c.Fits) (opened : c.closed = false) (some_ : 0 < c.capacity)
    (capacity : Nat) :
    ∃ ops c', (∀ op ∈ ops, op.runs = true) ∧ (machine α capacity).runFrom c ops = some c' ∧
      ∀ i st, c.stage i = some st → c'.stage i = some st.last := by
  generalize bound : c.left = n
  induction n using Nat.strong_induction_on generalizing c with | _ n ih
  by_cases pending : 0 < c.left
  · obtain ⟨op, c₁, runs, stepped, nears, less, opened₁, same⟩ := runs_on fits opened some_ pending
    obtain ⟨ops, c', each, ran, received⟩ :=
      ih c₁.left (bound ▸ less) (step_fits fits stepped) opened₁ (same ▸ some_) rfl
    refine ⟨op :: ops, c', ?_, ?_, fun i st here => ?_⟩
    · rintro op' (_ | ⟨_, mem⟩)
      · exact runs
      · exact each op' mem
    · exact Option.bind_eq_some_iff.mpr ⟨c₁, stepped, ran⟩
    · obtain ⟨st', here', last⟩ := nears i st here
      rw [← last]
      exact received i st' here'
  · refine ⟨[], c, nofun, rfl, fun i st here => ?_⟩
    obtain ⟨s, at_, rfl⟩ := Option.map_eq_some_iff.mp here
    have none : s.stage.left = 0 := Tasks.total_eq_zero.mp (Nat.eq_zero_of_not_pos pending) i s at_
    simpa [Stage.last, none] using here

end Drains

end Mpsc

end PlexusTransport
