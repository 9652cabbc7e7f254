import PlexusTransport.Lib.Atomic
import PlexusTransport.Lib.Machine
import PlexusTransport.Lib.Tasks

/-! # The calls open on a connection

Every call takes a place in the connection's one count, from any thread, and gives it back
when the place is dropped. The count is an atomic: a try loads it, and changes it by a
compare and exchange until that goes through or what it has seen is its limit.
-/

namespace PlexusTransport.Calls

/-- A `usize` of `w` bits. -/
abbrev Usize (w : Nat) : Type := BitVec w

structure TooManyCalls (w : Nat) where
  max : Usize w
  deriving DecidableEq, Repr

/-- Where a `try_open_within` is, and then the place it was given: `looping` with the `now` it
    is to compare. -/
inductive Stage (w : Nat) where
  | begun
  | looping (now : Usize w)
  | held
  | refused (e : TooManyCalls w)
  | dropped
  deriving DecidableEq, Repr

/-- A try, with its limit. -/
structure Try (w : Nat) where
  limit : Usize w
  stage : Stage w
  deriving DecidableEq, Repr

/-- Its `Held` is live. -/
def Try.holds {w : Nat} (t : Try w) : Bool := t.stage = .held

/-- It has neither been given its place nor refused one. -/
def Try.trying {w : Nat} (t : Try w) : Bool :=
  match t.stage with
  | .begun | .looping _ => true
  | _ => false

/-- The count, of at most `max`, with the tries there have been at it. -/
structure ConnectionCalls (w : Nat) where
  count : Atomic (Usize w)
  max : Usize w
  tries : List (Try w)

/-- The atomic steps. `sees`: a load, or a `compare_exchange` that fails; `takes`: one that goes
    through. -/
inductive CallsEvent (w : Nat) where
  | tries (limit : Usize w)
  | sees (i : Nat) (seen : Usize w)
  | takes (i : Nat)
  | refuses (i : Nat)
  | drops (i : Nat)

/-- Whose step it is. -/
def CallsEvent.of {w : Nat} : CallsEvent w → Option Nat
  | .tries _ => none
  | .sees i _ | .takes i | .refuses i | .drops i => some i

namespace ConnectionCalls

variable {w : Nat}

def new (max : Usize w) : ConnectionCalls w := ⟨.new 0, max, []⟩

/-- `self.max.min(limit)` -/
def within (s : ConnectionCalls w) (limit : Usize w) : Usize w :=
  if s.max ≤ limit then s.max else limit

def put (s : ConnectionCalls w) (i : Nat) (t : Try w) (stage : Stage w) : ConnectionCalls w :=
  { s with tries := s.tries.set i { t with stage } }

section Try

variable (s : ConnectionCalls w) (i : Nat) (t : Try w)

/-- The first load, and the loop's comparison where it fails. -/
def sees (seen : Usize w) : Option (ConnectionCalls w) :=
  match t.stage with
  | .begun => (s.count.load seen).map fun now => s.put i t (.looping now)
  | .looping now =>
      if s.within t.limit ≤ now then none
      else (s.count.mismatch now seen).map fun seen => s.put i t (.looping seen)
  | _ => none

def takes : Option (ConnectionCalls w) :=
  match t.stage with
  | .looping now =>
      if s.within t.limit ≤ now then none
      else (s.count.exchange now (now + 1)).map fun count => { s with count }.put i t .held
  | _ => none

def refuses : Option (ConnectionCalls w) :=
  match t.stage with
  | .looping now =>
      if s.within t.limit ≤ now then some (s.put i t (.refused ⟨s.within t.limit⟩)) else none
  | _ => none

/-- `Held::drop` -/
def drops : Option (ConnectionCalls w) :=
  match t.stage with
  | .held => some ({ s with count := s.count.fetch (· - 1) }.put i t .dropped)
  | _ => none

end Try

def step (s : ConnectionCalls w) : CallsEvent w → Option (ConnectionCalls w)
  | .tries limit => some { s with tries := s.tries ++ [⟨limit, .begun⟩] }
  | .sees i seen => s.tries[i]?.bind fun t => s.sees i t seen
  | .takes i => s.tries[i]?.bind fun t => s.takes i t
  | .refuses i => s.tries[i]?.bind fun t => s.refuses i t
  | .drops i => s.tries[i]?.bind fun t => s.drops i t

def machine (max : Usize w) : Machine (ConnectionCalls w) (CallsEvent w) := ⟨new max, step⟩

/-- The live places. -/
def live (s : ConnectionCalls w) : Nat := s.tries.countP (·.holds)

/-- The count is the live places', and has never been more than the max. -/
structure Counts (max : Usize w) (s : ConnectionCalls w) : Prop where
  live : s.count.value.toNat = s.live
  within : s.count.Each (· ≤ max)

/-- A place is taken with the count below its limit and the max, and is given back from a count
    that has it. -/
structure Moves (max : Usize w) (s : ConnectionCalls w) (a : CallsEvent w) : Prop where
  under : ∀ i, a = .takes i →
    ∃ c, s.tries[i]? = some c ∧ s.count.value < c.limit ∧ s.count.value < max
  back : ∀ i, a = .drops i → 0 < s.count.value

/-- This try has been refused. -/
def Refused (s : ConnectionCalls w) (i : Nat) : Prop :=
  ∃ c ∈ s.tries[i]?, ∃ e, c.stage = .refused e

variable {s t u : ConnectionCalls w} {a : CallsEvent w} {i : Nat} {c : Try w}

theorem not_within_le {limit now : Usize w} :
    ¬ s.within limit ≤ now ↔ now < s.max ∧ now < limit := by
  unfold within
  split <;> bv_omega

theorem not_holds {c : Try w} (trying : c.trying = true) : c.holds = false := by
  unfold Try.trying at trying
  unfold Try.holds
  split at trying
  · rename_i begun
    simp [begun]
  · rename_i looping
    simp [looping]
  · cases trying

/-- All that a step can be. -/
inductive Goes (s : ConnectionCalls w) : CallsEvent w → ConnectionCalls w → Prop where
  | tries (limit : Usize w) : Goes s (.tries limit) { s with tries := s.tries ++ [⟨limit, .begun⟩] }
  | sees {i : Nat} {c : Try w} (now : Usize w) (here : s.tries[i]? = some c)
      (trying : c.trying = true) (had : s.count.Had now) :
      Goes s (.sees i now) (s.put i c (.looping now))
  | takes {i : Nat} {c : Try w} (here : s.tries[i]? = some c) (trying : c.trying = true)
      (under : s.count.value < s.max ∧ s.count.value < c.limit) : Goes s (.takes i)
        ({ s with count := s.count.put (s.count.value + 1) }.put i c .held)
  | refuses {i : Nat} {c : Try w} (now : Usize w) (here : s.tries[i]? = some c) (looping : c.stage = .looping now)
      (full : s.within c.limit ≤ now) :
      Goes s (.refuses i) (s.put i c (.refused ⟨s.within c.limit⟩))
  | drops {i : Nat} {c : Try w} (here : s.tries[i]? = some c) (held : c.holds = true) : Goes s (.drops i)
      ({ s with count := s.count.put (s.count.value - 1) }.put i c .dropped)

theorem step_cases (stepped : s.step a = some t) : Goes s a t := by
  cases a with
  | tries limit =>
      cases stepped
      exact .tries limit
  | sees i seen =>
      obtain ⟨c, here, saw⟩ := Option.bind_eq_some_iff.mp stepped
      unfold ConnectionCalls.sees at saw
      split at saw
      · rename_i begun
        obtain ⟨now, loaded, rfl⟩ := Option.map_eq_some_iff.mp saw
        obtain ⟨had, same⟩ := Option.ite_none_right_eq_some.mp loaded
        cases same
        exact .sees seen here (by simp [Try.trying, begun]) had
      · rename_i now looping
        obtain ⟨-, saw⟩ := Option.ite_none_left_eq_some.mp saw
        obtain ⟨other, missed, rfl⟩ := Option.map_eq_some_iff.mp saw
        obtain ⟨⟨had, -⟩, same⟩ := Option.ite_none_right_eq_some.mp missed
        cases same
        exact .sees seen here (by simp [Try.trying, looping]) had
      · cases saw
  | takes i =>
      obtain ⟨c, here, took⟩ := Option.bind_eq_some_iff.mp stepped
      unfold ConnectionCalls.takes at took
      split at took
      · rename_i now looping
        obtain ⟨room, took⟩ := Option.ite_none_left_eq_some.mp took
        obtain ⟨count, exchanged, rfl⟩ := Option.map_eq_some_iff.mp took
        obtain ⟨is, same⟩ := Option.ite_none_right_eq_some.mp exchanged
        cases same
        subst is
        exact .takes here (by simp [Try.trying, looping]) (not_within_le.mp room)
      · cases took
  | refuses i =>
      obtain ⟨c, here, refused⟩ := Option.bind_eq_some_iff.mp stepped
      unfold ConnectionCalls.refuses at refused
      split at refused
      · rename_i now looping
        obtain ⟨full, same⟩ := Option.ite_none_right_eq_some.mp refused
        cases same
        exact .refuses now here looping full
      · cases refused
  | drops i =>
      obtain ⟨c, here, dropped⟩ := Option.bind_eq_some_iff.mp stepped
      unfold ConnectionCalls.drops at dropped
      split at dropped
      · rename_i held
        cases dropped
        exact .drops here (by simp [Try.holds, held])
      · cases dropped

theorem toNat_succ {a b : Usize w} (below : a < b) : (a + 1).toNat = a.toNat + 1 := by
  have below : a.toNat < b.toNat := below
  have bound := b.isLt
  have one : 1 % 2 ^ w = 1 := Nat.mod_eq_of_lt (by omega)
  rw [BitVec.toNat_add, show (1 : Usize w).toNat = 1 % 2 ^ w from rfl, one]
  exact Nat.mod_eq_of_lt (by omega)

theorem toNat_pred {a : Usize w} (positive : 0 < a) : (a - 1).toNat = a.toNat - 1 := by
  have positive : 0 < a.toNat := by simpa using BitVec.lt_def.mp positive
  have bound := a.isLt
  have one : 1 % 2 ^ w = 1 := Nat.mod_eq_of_lt (by omega)
  have one : (1 : Usize w).toNat = 1 := one
  rw [BitVec.toNat_sub_of_le (BitVec.le_def.mpr (by omega)), one]

/-- A try that moves changes what is live by itself. -/
theorem live_put (here : s.tries[i]? = some c) (count : Atomic (Usize w)) (stage : Stage w) :
    ({ s with count }.put i c stage).live + c.holds.toNat =
      s.live + (decide (stage = .held)).toNat := by
  obtain ⟨within, is⟩ := List.getElem?_eq_some_iff.mp here
  have some : c.holds.toNat ≤ s.live := by
    cases holds : c.holds with
    | false => exact Nat.zero_le _
    | true => exact List.countP_pos_iff.mpr ⟨c, List.mem_of_getElem? here, holds⟩
  unfold live put at *
  rw [List.countP_set within, is]
  cases holds : c.holds <;> by_cases held : stage = .held <;> simp_all [Try.holds]

/-- A live place is counted. -/
theorem Counts.positive {max : Usize w} (counts : s.Counts max) (here : s.tries[i]? = some c)
    (held : c.holds = true) : 0 < s.count.value := by
  have live : 0 < s.live := List.countP_pos_iff.mpr ⟨c, List.mem_of_getElem? here, held⟩
  exact BitVec.lt_def.mpr (by simpa [counts.live] using live)

theorem Counts.goes {max : Usize w} (same : s.max = max) (counts : s.Counts max)
    (goes : Goes s a t) : t.Counts max := by
  have live := counts.live
  have within := counts.within
  cases goes with
  | tries limit => exact ⟨by simpa [ConnectionCalls.live, Try.holds] using live, within⟩
  | sees now here trying had =>
      have moved := live_put here s.count (.looping now)
      simp only [not_holds trying, reduceCtorEq, decide_false] at moved
      exact ⟨live.trans moved.symm, within⟩
  | takes here trying under =>
      rw [same] at under
      have moved := live_put here (s.count.put (s.count.value + 1)) .held
      simp only [not_holds trying, decide_true, Bool.toNat_false, Bool.toNat_true] at moved
      have one := toNat_succ under.1
      constructor
      · exact (one.trans (congrArg (· + 1) live)).trans moved.symm
      · exact within.put (BitVec.le_def.mpr (one ▸ BitVec.lt_def.mp under.1))
  | @refuses i c now here looping full =>
      have moved := live_put here s.count (.refused ⟨s.within c.limit⟩)
      simp only [Try.holds, looping, reduceCtorEq, decide_false] at moved
      exact ⟨live.trans moved.symm, within⟩
  | drops here held =>
      have moved := live_put here (s.count.put (s.count.value - 1)) .dropped
      simp only [held, reduceCtorEq, decide_false, Bool.toNat_false, Bool.toNat_true] at moved
      have positive := counts.positive here held
      have one := toNat_pred positive
      constructor
      · change (s.count.value - 1).toNat = _
        omega
      · have fewer := BitVec.le_def.mp (within _ Atomic.had_value)
        exact within.put (BitVec.le_def.mpr (one ▸ (Nat.sub_le _ 1).trans fewer))

theorem Counts.moves {max : Usize w} (same : s.max = max) (counts : s.Counts max)
    (goes : Goes s a t) : s.Moves max a := by
  constructor
  · rintro i rfl
    cases goes with
    | takes here trying under => exact ⟨_, here, under.2, same ▸ under.1⟩
  · rintro i rfl
    cases goes with
    | drops here held => exact counts.positive here held

/-- The invariant of a run. -/
theorem run_counts {max : Usize w} {as : List (CallsEvent w)} (ran : (machine max).run as = some s) :
    s.max = max ∧ s.Counts max := by
  have start : (new max).Counts max := by
    refine ⟨rfl, fun v had => ?_⟩
    obtain rfl : v = 0 := by simpa [new, Atomic.new, Atomic.Had] using had
    exact BitVec.le_def.mpr (by simp)
  refine (machine max).run_keeps (I := fun s => s.max = max ∧ s.Counts max) ⟨rfl, start⟩ ?_ ran
  rintro s a t ⟨same, counts⟩ stepped
  have goes := step_cases stepped
  exact ⟨by cases goes <;> exact same, counts.goes same goes⟩

/-- A try with its place, given back or not: it is never refused. -/
def Taken (s : ConnectionCalls w) (i : Nat) : Prop :=
  ∃ c, s.tries[i]? = some c ∧ (c.stage = .held ∨ c.stage = .dropped)

theorem put_taken {stage : Stage w} {j : Nat} (taken : s.Taken i) (here : s.tries[j]? = some c)
    (count : Atomic (Usize w)) (keeps : c.trying = true ∨ stage = .dropped) :
    ({ s with count }.put j c stage).Taken i := by
  obtain ⟨d, there, stands⟩ := taken
  by_cases same : j = i
  · subst same
    obtain rfl : c = d := Option.some.inj (here.symm.trans there)
    obtain trying | rfl := keeps
    · obtain held | dropped := stands
      · simp [Try.trying, held] at trying
      · simp [Try.trying, dropped] at trying
    · obtain ⟨within, -⟩ := List.getElem?_eq_some_iff.mp here
      exact ⟨_, List.getElem?_set_self within, .inr rfl⟩
  · exact ⟨d, by rw [put, List.getElem?_set_ne same]; exact there, stands⟩

theorem Goes.taken (goes : Goes s a t) (taken : s.Taken i) : t.Taken i := by
  cases goes with
  | tries limit =>
      obtain ⟨d, there, stands⟩ := taken
      exact ⟨d, List.getElem?_append_left (List.getElem?_eq_some_iff.mp there).1 ▸ there, stands⟩
  | sees now here trying had => exact put_taken taken here s.count (.inl trying)
  | takes here trying under => exact put_taken taken here _ (.inl trying)
  | refuses now here looping full =>
      exact put_taken taken here s.count (.inl (by simp [Try.trying, looping]))
  | drops here held => exact put_taken taken here _ (.inr rfl)

/-- Until its try is given its place, no step of it moves the count. -/
theorem Goes.count (goes : Goes s a t) (whose : a.of = some i) : t.count = s.count ∨ t.Taken i := by
  cases goes with
  | tries limit | sees now here trying had | refuses now here looping full => exact .inl rfl
  | @takes j c here trying under =>
      cases whose
      obtain ⟨within, -⟩ := List.getElem?_eq_some_iff.mp here
      exact .inr ⟨_, List.getElem?_set_self within, .inl rfl⟩
  | @drops j c here held =>
      cases whose
      obtain ⟨within, -⟩ := List.getElem?_eq_some_iff.mp here
      exact .inr ⟨_, List.getElem?_set_self within, .inr rfl⟩

/-- No step of a try that is refused has changed the count. -/
theorem refused_count {max : Usize w} {before after : List (CallsEvent w)} {v : ConnectionCalls w}
    (ran : (machine max).run (before ++ a :: after) = some s) (refused : s.Refused i)
    (whose : a.of = some i) (first : (machine max).run before = some u)
    (stepped : u.step a = some v) : v.count = u.count := by
  have later : (machine max).runFrom v after = some s := by
    rw [Machine.run, Machine.runFrom_append, show (machine max).runFrom _ before = _ from first] at ran
    have ran : (machine max).runFrom u (a :: after) = some s := ran
    obtain ⟨v', stepped', ran⟩ := Option.bind_eq_some_iff.mp ran
    cases stepped.symm.trans stepped'
    exact ran
  obtain same | taken := (step_cases stepped).count whose
  · exact same
  · have keeps : ∀ s a t, s.Taken i → True → (machine max).step s a = some t → t.Taken i :=
      fun s a t taken _ stepped => (step_cases stepped).taken taken
    obtain ⟨c, here, stands⟩ := Machine.runFrom_keeps keeps (Machine.allows_all v after) later taken
    obtain ⟨d, there, e, is⟩ := refused
    obtain rfl : c = d := Option.some.inj (here.symm.trans there)
    rw [is] at stands
    simp at stands

/-- In every run: the count is the live places' and within its max, a place is taken only below
    its limit and the max, none is given back to a count of zero, and a refused try has left the
    count as it was at each of its steps. -/
theorem places_exact {max : Usize w} {as : List (CallsEvent w)}
    (ran : (machine max).run as = some s) :
    s.Counts max ∧ (∀ a t, s.step a = some t → s.Moves max a) ∧
      ∀ i, s.Refused i → ∀ before a after, as = before ++ a :: after → a.of = some i →
        ∀ u v, (machine max).run before = some u → u.step a = some v → v.count = u.count := by
  obtain ⟨same, counts⟩ := run_counts ran
  refine ⟨counts, fun a t stepped => counts.moves same (step_cases stepped), ?_⟩
  rintro i refused before a after rfl whose u v first stepped
  exact refused_count ran refused whose first stepped

/-- What a try has to show for where it is. -/
def Saw (s : ConnectionCalls w) (c : Try w) : Prop :=
  match c.stage with
  | .looping now => s.count.Had now
  | .refused e => e.max = s.within c.limit ∧ ∃ seen, s.count.Had seen ∧ e.max ≤ seen
  | _ => True

theorem saw_put (saw : s.Saw c) (v : Usize w) : ({ s with count := s.count.put v }).Saw c := by
  unfold Saw at *
  cases stage : c.stage with
  | looping now =>
      simp only [stage] at saw ⊢
      exact saw.put v
  | refused e =>
      simp only [stage] at saw ⊢
      obtain ⟨max, seen, had, full⟩ := saw
      exact ⟨max, seen, had.put v, full⟩
  | begun | held | dropped => trivial

theorem Goes.saw (goes : Goes s a t) (each : Tasks.Each (fun _ c => s.Saw c) s.tries) :
    Tasks.Each (fun _ c => t.Saw c) t.tries := by
  cases goes with
  | tries limit => exact Tasks.Each.append each trivial
  | sees now here trying had => exact Tasks.Each.set each had
  | takes here trying under =>
      exact Tasks.Each.set (each.mono fun _ _ _ saw => saw_put saw _) trivial
  | refuses now here looping full =>
      have saw := each _ _ here
      simp only [Saw, looping] at saw
      exact Tasks.Each.set each ⟨rfl, now, saw, full⟩
  | drops here held => exact Tasks.Each.set (each.mono fun _ _ _ saw => saw_put saw _) trivial

/-- A try is refused only with a count that has been at its limit, which it is told. -/
theorem refused_full {max : Usize w} {as : List (CallsEvent w)} {e : TooManyCalls w}
    (ran : (machine max).run as = some s) (here : s.tries[i]? = some c) (refused : c.stage = .refused e) :
    e.max = s.within c.limit ∧ ∃ seen, s.count.Had seen ∧ e.max ≤ seen := by
  have each := (machine max).run_keeps (I := fun s => Tasks.Each (fun _ c => s.Saw c) s.tries)
    Tasks.each_nil (fun s a t each stepped => (step_cases stepped).saw each) ran
  have saw := each i c here
  simpa only [Saw, refused] using saw

section Race

/-- Two tries for one place load the count before either takes it. -/
def race : List (CallsEvent 64) :=
  [.tries 5, .tries 1, .sees 0 0, .sees 1 0, .takes 0, .sees 1 1, .refuses 1, .drops 0]

theorem places_exact_race : ∃ s, (machine 1).run race = some s ∧
    s.Counts 1 ∧ (∀ a t, s.step a = some t → s.Moves 1 a) ∧
      ∀ i, s.Refused i → ∀ before a after, race = before ++ a :: after → a.of = some i →
        ∀ u v, (machine 1).run before = some u → u.step a = some v → v.count = u.count :=
  ⟨_, rfl, places_exact rfl⟩

end Race

end ConnectionCalls

end PlexusTransport.Calls
