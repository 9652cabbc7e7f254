import PlexusTransport.Lib.Mpsc

/-! # What a bounded channel keeps

Values come out in the order they came in, each once. A send waits only while every slot is
taken, and none that asked later gets one before it.
-/

namespace PlexusTransport

namespace Mpsc

variable {α : Type}

/-- No send got a slot before an earlier one that waits; every value that came in is in the
    queue, was received in its turn, or went with the receiver. -/
structure Sound (c : Mpsc α) : Prop where
  room : c.used ≤ c.capacity
  fifo : c.closed = false → ∀ i j st, i < j → c.stage i = some .waiting → c.stage j = some st →
    st = .waiting ∨ st = .full ∨ st = .cancelled
  opened : c.closed = false → ∀ i, c.stage i ≠ some .lost ∧ c.stage i ≠ some .dropped
  order : ∃ gone, c.put = c.taken ++ c.queue ++ gone ∧ ∀ i, i ∈ gone ↔ c.stage i = some .dropped
  once : c.put.Nodup
  queued : ∀ i, i ∈ c.queue ↔ c.stage i = some .queued
  received : ∀ i, i ∈ c.taken ↔ c.stage i = some .received

/-- And no send waits while there is a slot. -/
structure Fits (c : Mpsc α) : Prop extends Sound c where
  full : c.closed = false → ∀ i, c.stage i = some .waiting → c.used = c.capacity

/-- It says nothing of the queue. -/
abbrev Stage.Plain (st : Stage) : Prop := st ≠ .queued ∧ st ≠ .received ∧ st ≠ .dropped

section Steps

variable {c c' : Mpsc α} {i : Nat} {st : Stage}

theorem start_fits (capacity : Nat) : (channel capacity : Mpsc α).Fits where
  room := Nat.zero_le _
  fifo _ _ _ _ _ here := by simp [channel, stage] at here
  opened _ _ := by simp [channel, stage]
  order := ⟨[], rfl, fun _ => by simp [channel, stage]⟩
  once := .nil
  queued _ := by simp [channel, stage]
  received _ := by simp [channel, stage]
  full _ _ here := by simp [channel, stage] at here

theorem move_sound (sound : c.Sound) (here : c.stage i = some st) (plain : st.Plain) (st' : Stage)
    (plain' : st'.Plain) (room : c.used + st'.slots ≤ c.capacity + st.slots)
    (lost : st' = .lost → c.closed = true)
    (turn : c.closed = false → (∃ j < i, c.stage j = some .waiting) → st' = .cancelled)
    (leaves : st' ≠ .waiting) : (c.move i st').Sound := by
  have used := move_used here st'
  refine ⟨by rw [move_capacity]; omega, ?_, ?_, ?_, by simpa using sound.once, ?_, ?_⟩
  · intro opened j k st₁ less waits at_
    rw [move_closed] at opened
    rw [move_stage here] at waits at_
    have waits : c.stage j = some .waiting := by
      split at waits
      · exact absurd (Option.some.inj waits) leaves
      · exact waits
    split at at_
    · rename_i same
      cases at_
      exact .inr (.inr (turn opened ⟨j, same ▸ less, waits⟩))
    · exact sound.fifo opened j k st₁ less waits at_
  · intro opened j
    rw [move_closed] at opened
    rw [move_stage here]
    split
    · refine ⟨fun same => ?_, fun same => plain'.2.2 (Option.some.inj same)⟩
      rw [lost (Option.some.inj same)] at opened
      cases opened
    · exact sound.opened opened j
  · obtain ⟨gone, order, dropped⟩ := sound.order
    refine ⟨gone, by simpa using order, fun j => ?_⟩
    exact (dropped j).trans (move_stage_iff here (Ne.symm plain.2.2) (Ne.symm plain'.2.2) j).symm
  · intro j
    rw [move_queue, move_stage_iff here (Ne.symm plain.1) (Ne.symm plain'.1)]
    exact sound.queued j
  · intro j
    rw [move_taken, move_stage_iff here (Ne.symm plain.2.1) (Ne.symm plain'.2.1)]
    exact sound.received j

/-- A slot is free, and none other while a send waits. -/
theorem grant_fits (sound : c.Sound) (spare : c.used < c.capacity)
    (one : c.closed = false → ∀ i, c.stage i = some .waiting → c.used + 1 = c.capacity) :
    c.grant.Fits := by
  have granted := grants c
  generalize c.grant = c' at granted
  cases granted with
  | none none => exact ⟨sound, fun _ i here => absurd here (none i)⟩
  | first i here first =>
      have used : (c.move i .granted).used = c.used + 1 := move_used here .granted
      refine ⟨move_sound sound here (by decide) .granted (by decide) spare nofun ?_ nofun, ?_⟩
      · rintro - ⟨j, less, waits⟩
        exact absurd waits (first j less)
      · intro opened _ _
        rw [move_closed] at opened
        rw [used, move_capacity]
        exact one opened i here

theorem used_eq (fits : c.Fits) (none : ¬c.used < c.capacity) : c.used = c.capacity :=
  Nat.le_antisymm fits.room (Nat.le_of_not_lt none)

theorem ask_fits (fits : c.Fits) (a : α) (asks : Asks c st) : (c.ask a st).Fits := by
  have used := ask_used c a st
  have plain : st.Plain := by cases asks <;> decide
  refine ⟨⟨?_, ?_, ?_, ?_, fits.once, ?_, ?_⟩, ?_⟩
  · rw [used]
    cases asks with
    | granted _ free => exact free
    | lost | waiting | full => exact fits.room
  · intro opened j k st₁ less waits at_
    rw [ask_stage] at waits at_
    have waited : c.stage j = some .waiting := by
      split at waits
      · rw [if_neg (by omega)] at at_
        have within := stage_lt at_
        omega
      · exact waits
    split at at_
    · cases at_
      cases asks with
      | lost closed => exact absurd closed (Bool.eq_false_iff.mp opened)
      | granted _ free => exact absurd (fits.full opened j waited) (Nat.ne_of_lt free)
      | waiting => exact .inl rfl
      | full => exact .inr (.inl rfl)
    · exact fits.fifo opened j k st₁ less waited at_
  · intro opened j
    rw [ask_stage]
    split
    · refine ⟨fun same => ?_, fun same => plain.2.2 (Option.some.inj same)⟩
      cases asks with
      | lost closed => exact absurd closed (Bool.eq_false_iff.mp opened)
      | granted | waiting | full => cases same
    · exact fits.opened opened j
  · obtain ⟨gone, order, dropped⟩ := fits.order
    refine ⟨gone, order, fun j => ?_⟩
    exact (dropped j).trans (ask_stage_iff c a (Ne.symm plain.2.2) j).symm
  · intro j
    exact (fits.queued j).trans (ask_stage_iff c a (Ne.symm plain.1) j).symm
  · intro j
    exact (fits.received j).trans (ask_stage_iff c a (Ne.symm plain.2.1) j).symm
  · intro opened j waits
    cases asks with
    | lost closed => exact absurd closed (Bool.eq_false_iff.mp opened)
    | granted _ free =>
        have waited : c.stage j = some .waiting := (ask_stage_iff c a (by decide) j).mp waits
        have none := fits.full opened j waited
        omega
    | waiting _ none | full _ none => exact used.trans (used_eq fits none)

/-- A granted send's value comes in. -/
theorem enqueue_fits (fits : c.Fits) (here : c.stage i = some .granted)
    (opened : c.closed = false) : ((c.move i .queued).enqueue i).Fits := by
  have used : (c.move i .queued).used = c.used := Nat.add_right_cancel (move_used here .queued)
  have at_ := move_stage here .queued
  have elsewhere : ∀ other : Stage, other ≠ .granted → other ≠ .queued → ∀ j,
      (c.move i .queued).stage j = some other ↔ c.stage j = some other :=
    fun _ before after j => move_stage_iff here before after j
  obtain ⟨gone, order, dropped⟩ := fits.order
  have empty : gone = [] := by
    refine List.eq_nil_iff_forall_not_mem.mpr fun j mem => ?_
    exact (fits.opened opened j).2 ((dropped j).mp mem)
  subst empty
  have out : i ∉ c.put := by
    rw [order, List.append_nil, List.mem_append, fits.received, fits.queued, here]
    simp
  refine ⟨⟨?_, ?_, ?_, ⟨[], ?_, ?_⟩, ?_, ?_, ?_⟩, ?_⟩
  · rw [enqueue_used, used]
    exact fits.room.trans_eq (move_capacity c i .queued).symm
  · intro _ j k st₁ less waits there
    have waited := (elsewhere .waiting nofun nofun j).mp waits
    rw [enqueue_stage, at_] at there
    split at there
    · rename_i same
      cases there
      have none := fits.fifo opened j i _ (same ▸ less) waited here
      simp at none
    · exact fits.fifo opened j k st₁ less waited there
  · intro _ j
    have before := fits.opened opened j
    exact ⟨fun lost => before.1 ((elsewhere .lost nofun nofun j).mp lost),
      fun gone => before.2 ((elsewhere .dropped nofun nofun j).mp gone)⟩
  · simp [enqueue, order]
  · intro j
    have before := (fits.opened opened j).2
    simpa using mt (elsewhere .dropped nofun nofun j).mp before
  · have put : ((c.move i .queued).enqueue i).put = c.put ++ [i] :=
      congrArg (· ++ [i]) (move_put c i .queued)
    rw [put]
    exact List.nodup_append.mpr ⟨fits.once, List.nodup_singleton i, by
      rintro j mem _ (_ | ⟨_, ⟨⟩⟩) rfl
      exact out mem⟩
  · intro j
    change j ∈ (c.move i .queued).queue ++ [i] ↔ (c.move i .queued).stage j = some .queued
    rw [at_, move_queue, List.mem_append, List.mem_singleton, fits.queued]
    split
    · simp_all
    · rename_i other
      simp [other]
  · intro j
    rw [show ((c.move i .queued).enqueue i).taken = c.taken from move_taken c i .queued,
      fits.received]
    exact (elsewhere .received nofun nofun j).symm
  · intro _ j waits
    have none := fits.full opened j ((elsewhere .waiting nofun nofun j).mp waits)
    rw [enqueue_used, used]
    exact none.trans (move_capacity c i .queued).symm

theorem lost_fits (fits : c.Fits) (here : c.stage i = some st)
    (plain : st.Plain) (closed : c.closed = true) : (c.move i .lost).Fits :=
  ⟨move_sound fits.toSound here plain .lost (by decide) (fits.room.trans (Nat.le_add_right _ _))
    (fun _ => closed) (fun opened => absurd closed (Bool.eq_false_iff.mp opened)) nofun,
    fun opened => absurd closed (Bool.eq_false_iff.mp ((move_closed c i .lost).symm.trans opened))⟩

theorem cancel_waits (here : c.stage i = some st) {j : Nat}
    (waits : (c.move i .cancelled).stage j = some .waiting) : c.stage j = some .waiting := by
  rw [move_stage here] at waits
  split at waits
  · cases waits
  · exact waits

theorem released_fits (fits : c.Fits) (here : c.stage i = some .granted) :
    (c.move i .cancelled).grant.Fits := by
  have used : (c.move i .cancelled).used + 1 = c.used := move_used here .cancelled
  have room := fits.room
  refine grant_fits (move_sound fits.toSound here (by decide) .cancelled (by decide)
    (by simp only [Stage.slots]; omega) nofun (fun _ _ => rfl) nofun) ?_ ?_
  · rw [move_capacity]
    omega
  · intro opened j waits
    rw [move_closed] at opened
    rw [move_capacity, used]
    exact fits.full opened j (cancel_waits here waits)

theorem left_fits (fits : c.Fits) (here : c.stage i = some .waiting) :
    (c.move i .cancelled).Fits := by
  have used : (c.move i .cancelled).used = c.used := move_used here .cancelled
  refine ⟨move_sound fits.toSound here (by decide) .cancelled (by decide) fits.room nofun
    (fun _ _ => rfl) nofun, fun opened j waits => ?_⟩
  rw [move_closed] at opened
  rw [move_capacity, used]
  exact fits.full opened j (cancel_waits here waits)

theorem take_sound {queue : List Nat} (fits : c.Fits) (front : c.queue = i :: queue) :
    (c.take i queue).Sound ∧ (c.take i queue).used + 1 = c.used ∧
      ∀ j, (c.take i queue).stage j = if j = i then some .received else c.stage j := by
  have here : c.stage i = some .queued := (fits.queued i).mp (by simp [front])
  have used : (c.move i .received).used + 1 = c.used := move_used here .received
  have at_ := move_stage here .received
  have elsewhere : ∀ other : Stage, other ≠ .queued → other ≠ .received → ∀ j,
      (c.move i .received).stage j = some other ↔ c.stage j = some other :=
    fun _ before after j => move_stage_iff here before after j
  obtain ⟨gone, order, dropped⟩ := fits.order
  have distinct := fits.once
  rw [order, front] at distinct
  have out : i ∉ queue := by
    have tail := (List.nodup_append.mp (List.nodup_append.mp distinct).1).2.1
    exact (List.nodup_cons.mp tail).1
  refine ⟨⟨?_, ?_, ?_, ⟨gone, ?_, ?_⟩, ?_, ?_, ?_⟩, used, at_⟩
  · have room := fits.room
    rw [take_used, take_capacity]
    omega
  · intro opened j k st₁ less waits there
    rw [take_closed] at opened
    have waited := (elsewhere .waiting nofun nofun j).mp waits
    rw [take_stage, at_] at there
    split at there
    · rename_i same
      have none := fits.fifo opened j i _ (same ▸ less) waited here
      simp at none
    · exact fits.fifo opened j k st₁ less waited there
  · intro opened j
    rw [take_closed] at opened
    have before := fits.opened opened j
    exact ⟨mt (elsewhere .lost nofun nofun j).mp before.1,
      mt (elsewhere .dropped nofun nofun j).mp before.2⟩
  · rw [take_put, order, front]
    simp [take]
  · intro j
    exact (dropped j).trans (elsewhere .dropped nofun nofun j).symm
  · rw [take_put]
    exact fits.once
  · intro j
    have before := fits.queued j
    rw [front, List.mem_cons] at before
    change j ∈ queue ↔ _
    rw [take_stage, at_]
    split
    · rename_i same
      simp [same, out]
    · rename_i other
      rw [← before]
      simp [other]
  · intro j
    change j ∈ c.taken ++ [i] ↔ _
    rw [take_stage, at_, List.mem_append, List.mem_singleton, fits.received]
    split
    · rename_i same
      simp [same]
    · rename_i other
      simp [other]

theorem received_fits {queue : List Nat} (fits : c.Fits) (front : c.queue = i :: queue) :
    (c.take i queue).grant.Fits := by
  obtain ⟨sound, used, at_⟩ := take_sound fits front
  have room := fits.room
  refine grant_fits sound (by rw [take_capacity]; omega) fun opened j waits => ?_
  rw [take_closed] at opened
  rw [at_] at waits
  split at waits
  · cases waits
  · rw [used, take_capacity]
    exact fits.full opened j waits

theorem close_fits (fits : c.Fits) : c.close.Fits where
  room := fits.room
  fifo := nofun
  opened := nofun
  order := fits.order
  once := fits.once
  queued := fits.queued
  received := fits.received
  full := nofun

theorem drop_stage (c : Mpsc α) (i : Nat) :
    c.drop.stage i = (c.stage i).map fun st => if st = .queued then .dropped else st := by
  simp only [drop, stage, List.getElem?_map, Option.map_map]
  congr 1
  funext s
  dsimp only [Function.comp]
  split <;> rfl

theorem drop_used (c : Mpsc α) : c.drop.used ≤ c.used := by
  unfold used Tasks.total drop
  rw [List.map_map]
  refine List.sum_le_sum fun s _ => ?_
  dsimp only [Function.comp, Send.slots]
  split
  · exact Nat.zero_le _
  · exact Nat.le_refl _

theorem drop_fits (fits : c.Fits) : c.drop.Fits := by
  have at_ := drop_stage c
  have never : c.drop.closed ≠ false := by simp [drop]
  obtain ⟨gone, order, dropped⟩ := fits.order
  have elsewhere : ∀ other : Stage, other ≠ .queued → other ≠ .dropped → ∀ j,
      c.drop.stage j = some other ↔ c.stage j = some other := by
    intro other before after j
    rw [at_]
    cases c.stage j with
    | none => simp
    | some st => by_cases queued : st = .queued <;> simp [queued, Ne.symm before, Ne.symm after]
  refine ⟨⟨(drop_used c).trans fits.room, fun opened => absurd opened never,
    fun opened => absurd opened never, ⟨c.queue ++ gone, ?_, ?_⟩, fits.once, ?_, ?_⟩,
    fun opened => absurd opened never⟩
  · simp [drop, order]
  · intro j
    rw [List.mem_append, fits.queued, dropped, at_]
    cases c.stage j with
    | none => simp
    | some st => by_cases queued : st = .queued <;> simp [queued]
  · intro j
    rw [at_]
    cases c.stage j with
    | none => simp [drop]
    | some st => by_cases queued : st = .queued <;> simp [drop, queued]
  · intro j
    exact (fits.received j).trans (elsewhere .received (by decide) (by decide) j).symm

theorem came_fits (fits : c.Fits) (a : α) (opened : c.closed = false)
    (free : c.used < c.capacity) : ((c.ask a .queued).enqueue c.sends.length).Fits := by
  have here : (c.ask a .granted).stage c.sends.length = some .granted := by simp
  have came := enqueue_fits (ask_fits fits a (.granted opened free)) here opened
  have same : (c.ask a .granted).move c.sends.length .queued = c.ask a .queued := by
    simp [move, ask]
  rwa [same] at came

/-- What every operation keeps. -/
theorem step_fits (fits : c.Fits) {op : Op α} (stepped : c.step op = some c') : c'.Fits := by
  cases steps stepped with
  | refused asks | asked asks => exact ask_fits fits _ asks
  | came opened free => exact came_fits fits _ opened free
  | put here opened => exact enqueue_fits fits here opened
  | lost here waits closed =>
      refine lost_fits fits here ?_ closed
      rcases waits with rfl | rfl <;> decide
  | released here => exact released_fits fits here
  | left here => exact left_fits fits here
  | received front => exact received_fits fits front
  | closed => exact close_fits fits
  | dropped => exact drop_fits fits

end Steps

theorem Fits.queue_le {c : Mpsc α} (fits : c.Fits) : c.queue.length ≤ c.capacity := by
  refine le_trans (Tasks.length_le_total ?_ fun i mem => ?_) fits.room
  · obtain ⟨gone, order, -⟩ := fits.order
    have once := order ▸ fits.once
    exact (List.nodup_append.mp (List.nodup_append.mp once).1).2.1
  · obtain ⟨s, at_, queued⟩ := Option.map_eq_some_iff.mp ((fits.queued i).mp mem)
    exact ⟨s, at_, by rw [Send.slots, queued]; rfl⟩

end Mpsc

end PlexusTransport
