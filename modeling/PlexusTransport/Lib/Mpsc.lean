import PlexusTransport.Lib.Machine
import PlexusTransport.Lib.Tasks

/-! # Bounded channels

A send takes a slot of the channel, or waits for one behind the sends that asked before it.
The slot is its own until its value is received. The receiver closes the channel, or is
dropped with what is in it.
-/

namespace PlexusTransport

namespace Mpsc

/-- Where a send is. `full`: a `try_send` that found no slot; `lost`: its value was given back
    by a closed channel; `dropped`: its value went with the receiver. -/
inductive Stage where
  | waiting
  | granted
  | queued
  | received
  | full
  | lost
  | cancelled
  | dropped
  deriving DecidableEq, Repr

def Stage.slots : Stage → Nat
  | .granted | .queued => 1
  | _ => 0

structure Send (α : Type) where
  value : α
  stage : Stage

def Send.slots {α : Type} (s : Send α) : Nat := s.stage.slots

inductive Op (α : Type) where
  | trySend (a : α)
  | send (a : α)
  | complete (i : Nat)
  | cancel (i : Nat)
  | recv
  | close
  | drop

end Mpsc

/-- `sends`: every send there was, in the order they asked. `queue`: those whose values wait to
    be received. `put` and `taken`: those whose values came in and went out, in order. -/
structure Mpsc (α : Type) where
  capacity : Nat
  sends : List (Mpsc.Send α)
  queue : List Nat
  closed : Bool
  put : List Nat
  taken : List Nat

namespace Mpsc

variable {α : Type}

def channel (capacity : Nat) : Mpsc α := ⟨capacity, [], [], false, [], []⟩

def used (c : Mpsc α) : Nat := Tasks.total Send.slots c.sends

def stage (c : Mpsc α) (i : Nat) : Option Stage := c.sends[i]?.map (·.stage)

def value (c : Mpsc α) (i : Nat) : Option α := c.sends[i]?.map (·.value)

def ask (c : Mpsc α) (a : α) (st : Stage) : Mpsc α := { c with sends := c.sends ++ [⟨a, st⟩] }

def move (c : Mpsc α) (i : Nat) (st : Stage) : Mpsc α :=
  match c.sends[i]? with
  | some s => { c with sends := c.sends.set i { s with stage := st } }
  | none => c

/-- Its value comes in. -/
def enqueue (c : Mpsc α) (i : Nat) : Mpsc α :=
  { c with queue := c.queue ++ [i], put := c.put ++ [i] }

/-- The first value in the queue goes out. -/
def take (c : Mpsc α) (i : Nat) (queue : List Nat) : Mpsc α :=
  { c.move i .received with queue := queue, taken := c.taken ++ [i] }

/-- A slot that came free goes to the send that has waited for one longest. -/
def grant (c : Mpsc α) : Mpsc α :=
  match c.sends.findIdx? (·.stage = .waiting) with
  | some i => c.move i .granted
  | none => c

def trySend (c : Mpsc α) (a : α) : Mpsc α :=
  if c.closed then c.ask a .lost
  else if c.used < c.capacity then (c.ask a .queued).enqueue c.sends.length
  else c.ask a .full

def send (c : Mpsc α) (a : α) : Mpsc α :=
  c.ask a (if c.closed then .lost else if c.used < c.capacity then .granted else .waiting)

/-- The send's task runs on: with its slot, or told that the channel is closed. -/
def complete (c : Mpsc α) (i : Nat) : Option (Mpsc α) :=
  match c.stage i, c.closed with
  | some .granted, false => some ((c.move i .queued).enqueue i)
  | some .granted, true | some .waiting, true => some (c.move i .lost)
  | _, _ => none

def cancel (c : Mpsc α) (i : Nat) : Option (Mpsc α) :=
  match c.stage i with
  | some .granted => some (c.move i .cancelled).grant
  | some .waiting => some (c.move i .cancelled)
  | _ => none

def recv (c : Mpsc α) : Option (Mpsc α) :=
  match c.queue with
  | i :: queue => some (c.take i queue).grant
  | [] => none

def close (c : Mpsc α) : Mpsc α := { c with closed := true }

/-- What is in it is dropped with it. -/
def drop (c : Mpsc α) : Mpsc α where
  capacity := c.capacity
  sends := c.sends.map fun s => if s.stage = .queued then { s with stage := .dropped } else s
  queue := []
  closed := true
  put := c.put
  taken := c.taken

def step (c : Mpsc α) : Op α → Option (Mpsc α)
  | .trySend a => some (c.trySend a)
  | .send a => some (c.send a)
  | .complete i => c.complete i
  | .cancel i => c.cancel i
  | .recv => c.recv
  | .close => some c.close
  | .drop => some c.drop

def machine (α : Type) (capacity : Nat) : Machine (Mpsc α) (Op α) := ⟨channel capacity, step⟩

section Moves

variable {c c' : Mpsc α} {i j : Nat} {st st' : Stage} {a : α}

@[simp] theorem ask_stage (c : Mpsc α) (a : α) (st : Stage) (i : Nat) :
    (c.ask a st).stage i = if i = c.sends.length then some st else c.stage i := by
  simp only [ask, stage, List.getElem?_append]
  rcases Nat.lt_trichotomy i c.sends.length with less | same | more
  · simp [less, Nat.ne_of_lt less]
  · simp [same]
  · simp [Nat.not_lt_of_gt more, Nat.ne_of_gt more, show i - c.sends.length ≠ 0 by omega]

theorem ask_stage_iff (c : Mpsc α) (a : α) {st other : Stage} (ne : other ≠ st) (i : Nat) :
    (c.ask a st).stage i = some other ↔ c.stage i = some other := by
  rw [ask_stage]
  split
  · rename_i same
    simp [same, stage, Ne.symm ne]
  · rfl

theorem ask_used (c : Mpsc α) (a : α) (st : Stage) : (c.ask a st).used = c.used + st.slots :=
  Tasks.total_append _

theorem stage_lt (here : c.stage i = some st) : i < c.sends.length := by
  obtain ⟨s, at_, -⟩ := Option.map_eq_some_iff.mp here
  exact (List.getElem?_eq_some_iff.mp at_).1

theorem move_stage (here : c.stage i = some st) (st' : Stage) (j : Nat) :
    (c.move i st').stage j = if j = i then some st' else c.stage j := by
  obtain ⟨s, at_, -⟩ := Option.map_eq_some_iff.mp here
  simp only [move, at_, stage, List.getElem?_set]
  by_cases same : i = j
  · subst same
    simp [(List.getElem?_eq_some_iff.mp at_).1]
  · simp [same, Ne.symm same]

theorem move_stage_iff (here : c.stage i = some st) {other : Stage} (before : other ≠ st)
    (after : other ≠ st') (j : Nat) :
    (c.move i st').stage j = some other ↔ c.stage j = some other := by
  rw [move_stage here]
  split
  · rename_i same
    simp [same, here, Ne.symm before, Ne.symm after]
  · rfl

theorem move_used (here : c.stage i = some st) (st' : Stage) :
    (c.move i st').used + st.slots = c.used + st'.slots := by
  obtain ⟨s, at_, rfl⟩ := Option.map_eq_some_iff.mp here
  simp only [move, at_, used]
  exact Tasks.total_set at_ _

@[simp] theorem move_capacity (c : Mpsc α) (i : Nat) (st : Stage) :
    (c.move i st).capacity = c.capacity := by
  unfold move
  split <;> rfl

@[simp] theorem move_queue (c : Mpsc α) (i : Nat) (st : Stage) : (c.move i st).queue = c.queue := by
  unfold move
  split <;> rfl

@[simp] theorem move_closed (c : Mpsc α) (i : Nat) (st : Stage) :
    (c.move i st).closed = c.closed := by
  unfold move
  split <;> rfl

@[simp] theorem move_put (c : Mpsc α) (i : Nat) (st : Stage) : (c.move i st).put = c.put := by
  unfold move
  split <;> rfl

@[simp] theorem move_taken (c : Mpsc α) (i : Nat) (st : Stage) : (c.move i st).taken = c.taken := by
  unfold move
  split <;> rfl

@[simp] theorem take_stage (c : Mpsc α) (i : Nat) (queue : List Nat) (j : Nat) :
    (c.take i queue).stage j = (c.move i .received).stage j := rfl

@[simp] theorem take_used (c : Mpsc α) (i : Nat) (queue : List Nat) :
    (c.take i queue).used = (c.move i .received).used := rfl

@[simp] theorem take_capacity (c : Mpsc α) (i : Nat) (queue : List Nat) :
    (c.take i queue).capacity = c.capacity := move_capacity c i .received

@[simp] theorem take_closed (c : Mpsc α) (i : Nat) (queue : List Nat) :
    (c.take i queue).closed = c.closed := move_closed c i .received

@[simp] theorem take_put (c : Mpsc α) (i : Nat) (queue : List Nat) :
    (c.take i queue).put = c.put := move_put c i .received

@[simp] theorem enqueue_stage (c : Mpsc α) (i j : Nat) : (c.enqueue i).stage j = c.stage j := rfl

@[simp] theorem enqueue_used (c : Mpsc α) (i : Nat) : (c.enqueue i).used = c.used := rfl

/-- What a slot that comes free does. -/
inductive Grants (c : Mpsc α) : Mpsc α → Prop where
  | none (none : ∀ i, c.stage i ≠ some .waiting) : Grants c c
  | first i (here : c.stage i = some .waiting) (first : ∀ j < i, c.stage j ≠ some .waiting) :
      Grants c (c.move i .granted)

theorem grants (c : Mpsc α) : Grants c c.grant := by
  unfold grant
  split
  · rename_i i found
    obtain ⟨within, waits, first⟩ := List.findIdx?_eq_some_iff_getElem.mp found
    have waits := of_decide_eq_true waits
    refine .first i ?_ fun j less here => ?_
    · simp [stage, List.getElem?_eq_getElem within, waits]
    · have earlier := first j less
      obtain ⟨s, at_, waits⟩ := Option.map_eq_some_iff.mp here
      obtain ⟨_, rfl⟩ := List.getElem?_eq_some_iff.mp at_
      exact absurd waits (by simpa using earlier)
  · rename_i none
    refine .none fun i here => ?_
    obtain ⟨s, at_, waits⟩ := Option.map_eq_some_iff.mp here
    have not := List.findIdx?_eq_none_iff.mp none s (List.mem_of_getElem? at_)
    simp [waits] at not

end Moves

/-- Where a new send may be, its value not in the queue. -/
inductive Asks (c : Mpsc α) : Stage → Prop where
  | lost (closed : c.closed = true) : Asks c .lost
  | granted (opened : c.closed = false) (free : c.used < c.capacity) : Asks c .granted
  | waiting (opened : c.closed = false) (none : ¬c.used < c.capacity) : Asks c .waiting
  | full (opened : c.closed = false) (none : ¬c.used < c.capacity) : Asks c .full

/-- All that an operation can do. -/
inductive Steps (c : Mpsc α) : Op α → Mpsc α → Prop where
  | refused {a st} (asks : c.Asks st) : Steps c (.trySend a) (c.ask a st)
  | came {a} (opened : c.closed = false) (free : c.used < c.capacity) :
      Steps c (.trySend a) ((c.ask a .queued).enqueue c.sends.length)
  | asked {a st} (asks : c.Asks st) : Steps c (.send a) (c.ask a st)
  | put {i} (here : c.stage i = some .granted) (opened : c.closed = false) :
      Steps c (.complete i) ((c.move i .queued).enqueue i)
  | lost {i st} (here : c.stage i = some st) (waits : st = .granted ∨ st = .waiting)
      (closed : c.closed = true) : Steps c (.complete i) (c.move i .lost)
  | released {i} (here : c.stage i = some .granted) :
      Steps c (.cancel i) (c.move i .cancelled).grant
  | left {i} (here : c.stage i = some .waiting) : Steps c (.cancel i) (c.move i .cancelled)
  | received {i queue} (front : c.queue = i :: queue) : Steps c .recv (c.take i queue).grant
  | closed : Steps c .close c.close
  | dropped : Steps c .drop c.drop

theorem steps {c c' : Mpsc α} {op : Op α} (stepped : c.step op = some c') : Steps c op c' := by
  cases op with
  | trySend a =>
      cases stepped
      unfold trySend
      split
      · rename_i closed
        exact .refused (.lost closed)
      · rename_i opened
        have opened := Bool.eq_false_iff.mpr opened
        split
        · rename_i free
          exact .came opened free
        · rename_i none
          exact .refused (.full opened none)
  | send a =>
      cases stepped
      unfold send
      split
      · rename_i closed
        exact .asked (.lost closed)
      · rename_i opened
        have opened := Bool.eq_false_iff.mpr opened
        split
        · rename_i free
          exact .asked (.granted opened free)
        · rename_i none
          exact .asked (.waiting opened none)
  | complete i =>
      simp only [step, complete] at stepped
      split at stepped
      · rename_i here opened
        cases stepped
        exact .put here opened
      · rename_i here closed
        cases stepped
        exact .lost here (.inl rfl) closed
      · rename_i here closed
        cases stepped
        exact .lost here (.inr rfl) closed
      · cases stepped
  | cancel i =>
      simp only [step, cancel] at stepped
      split at stepped
      · rename_i here
        cases stepped
        exact .released here
      · rename_i here
        cases stepped
        exact .left here
      · cases stepped
  | recv =>
      simp only [step, recv] at stepped
      split at stepped
      · rename_i front
        cases stepped
        exact .received front
      · cases stepped
  | close =>
      cases stepped
      exact .closed
  | drop =>
      cases stepped
      exact .dropped

/-- The receiver's end of it. -/
def Op.closes {α : Type} : Op α → Bool
  | .close | .drop => true
  | _ => false

def Op.receives {α : Type} : Op α → Bool
  | .recv => true
  | _ => false

section Shared

variable {c c' : Mpsc α}

/-- What only the receiver changes. -/
def shared (c : Mpsc α) : Nat × Bool × List Nat := (c.capacity, c.closed, c.taken)

@[simp] theorem move_shared (c : Mpsc α) (i : Nat) (st : Stage) :
    (c.move i st).shared = c.shared := by
  simp [shared]

@[simp] theorem grant_shared (c : Mpsc α) : c.grant.shared = c.shared := by
  unfold grant
  split
  · exact move_shared ..
  · rfl

@[simp] theorem grant_put (c : Mpsc α) : c.grant.put = c.put := by
  unfold grant
  split
  · exact move_put ..
  · rfl

theorem step_shared {op : Op α} (stepped : c.step op = some c') :
    c'.shared = (c.capacity, c.closed || op.closes,
      c.taken ++ if op.receives then c.queue.take 1 else []) := by
  have still : ∀ d : Mpsc α, d.shared = c.shared →
      d.shared = (c.capacity, c.closed || false, c.taken ++ []) := by
    intro d same
    simpa [shared] using same
  cases steps stepped with
  | refused | asked | came => exact still _ rfl
  | put => exact still _ (move_shared c _ .queued)
  | lost => exact still _ (move_shared c _ .lost)
  | left => exact still _ (move_shared c _ .cancelled)
  | released => exact still _ (by rw [grant_shared, move_shared])
  | received front =>
      rw [grant_shared]
      simp [shared, front, take, Op.closes, Op.receives]
  | closed | dropped => simp [shared, close, drop, Op.closes, Op.receives]

/-- Nothing comes into a closed channel. -/
theorem step_put (closed : c.closed = true) {op : Op α} (stepped : c.step op = some c') :
    c'.put = c.put := by
  cases steps stepped with
  | refused | asked | closed | dropped => rfl
  | came opened | put _ opened => exact absurd closed (Bool.eq_false_iff.mp opened)
  | lost | left => exact move_put c _ _
  | released | received => simp

@[simp] theorem ask_value (c : Mpsc α) (a : α) (st : Stage) (i : Nat) :
    (c.ask a st).value i = if i = c.sends.length then some a else c.value i := by
  simp only [ask, value, List.getElem?_append]
  rcases Nat.lt_trichotomy i c.sends.length with less | same | more
  · simp [less, Nat.ne_of_lt less]
  · simp [same]
  · simp [Nat.not_lt_of_gt more, Nat.ne_of_gt more, show i - c.sends.length ≠ 0 by omega]

@[simp] theorem move_value (c : Mpsc α) (i : Nat) (st : Stage) (j : Nat) :
    (c.move i st).value j = c.value j := by
  unfold move
  split
  · rename_i s at_
    simp only [value, List.getElem?_set]
    split
    · rename_i same
      subst same
      obtain ⟨within, rfl⟩ := List.getElem?_eq_some_iff.mp at_
      simp [within]
    · rfl
  · rfl

@[simp] theorem grant_value (c : Mpsc α) (i : Nat) : c.grant.value i = c.value i := by
  unfold grant
  split
  · exact move_value ..
  · rfl

@[simp] theorem drop_value (c : Mpsc α) (i : Nat) : c.drop.value i = c.value i := by
  simp only [value, drop, List.getElem?_map, Option.map_map]
  congr 1
  funext s
  dsimp only [Function.comp]
  split <;> rfl

@[simp] theorem enqueue_value (c : Mpsc α) (i j : Nat) : (c.enqueue i).value j = c.value j := rfl

@[simp] theorem take_value (c : Mpsc α) (i : Nat) (queue : List Nat) (j : Nat) :
    (c.take i queue).value j = c.value j := move_value c i .received j

/-- A new send. -/
def Op.asks : Op α → Bool
  | .trySend _ | .send _ => true
  | _ => false

/-- A send's value is its own for good. -/
theorem step_value {op : Op α} (stepped : c.step op = some c') (i : Nat) {a : α}
    (here : c.value i = some a) : c'.value i = some a := by
  have within : i ≠ c.sends.length := by
    obtain ⟨s, at_, -⟩ := Option.map_eq_some_iff.mp here
    exact Nat.ne_of_lt (List.getElem?_eq_some_iff.mp at_).1
  cases steps stepped with
  | refused | asked | came => simp [within, here]
  | put | lost | released | left | received | dropped => simpa using here
  | closed => exact here

/-- None but a new one's comes to be there. -/
theorem step_value_eq {op : Op α} (stepped : c.step op = some c') (old : op.asks = false)
    (i : Nat) : c'.value i = c.value i := by
  cases steps stepped with
  | refused | asked | came => cases old
  | put | lost | released | left | received | dropped => simp
  | closed => rfl

end Shared

end Mpsc

end PlexusTransport
