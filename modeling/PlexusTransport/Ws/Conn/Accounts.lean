import PlexusTransport.Ws.Conn.Ledger

/-! # Each call accounted for once

The frames of a call that is to be answered, and what its task still owes, are one
together.
-/

namespace PlexusTransport.Ws.Conn

open Ledger

variable {σ : Type}

/-- What the tasks have still to send for a message. -/
def Ledger.owing (l : Ledger σ) (k : Nat) : Nat := (l.tasks.map (Task.owing k)).sum

def Deed.frame? (texts : Texts) (k : Nat) (d : Deed) : Option Bytes :=
  if d.message = some k then d.effect.frame? texts else none

/-- The frames made for a message. -/
def Ledger.frames (texts : Texts) (l : Ledger σ) (k : Nat) : List Bytes :=
  l.trace.filterMap (Deed.frame? texts k)

/-- A message that is to be answered. -/
def Ledger.owed? (l : Ledger σ) (k : Nat) : Option Request := l.messages[k]?.bind Arrived.owes?

structure Accounts (texts : Texts) (l : Ledger σ) : Prop where
  answering : ∀ a ∈ l.messages, a.router.dispatch.Answering
  promised : ∀ t ∈ l.tasks, ∀ req, t.req = some req → ∀ ws, t.left = some ws →
    ∀ w ∈ ws, Arrived.Bears texts req (texts.encode w.json)
  bears : ∀ k req, l.owed? k = some req → ∀ raw ∈ l.frames texts k, Arrived.Bears texts req raw
  owed : ∀ k req, l.owed? k = some req → (l.frames texts k).length + l.owing k = 1

namespace Accounts

variable {texts : Texts} {input : List Inbound} {l l' : Ledger σ} {e : Entry σ}
  {events : List Deed} {tasks : List Task}

theorem owes {k : Nat} {a : Arrived σ} {req : Request} (accounts : Accounts texts l)
    (here : l.messages[k]? = some a) (owed : l.owed? k = some req) :
    Arrived.Owes texts req a.effects := by
  rw [owed?, here, Option.bind_some] at owed
  exact Arrived.effects_owes texts (accounts.answering a (List.mem_of_getElem? here)) owed

/-- A call that is to be answered awaits no acceptance. -/
theorem apart (accounts : Accounts texts l) (traced : Traced input l) {k : Nat} {req : Request}
    (owed : l.owed? k = some req) : k ∉ l.awaited ++ l.sinks := by
  intro waits
  obtain ⟨a, here, awaits⟩ := traced.waits k waits
  have still := (accounts.owes here owed).still
  omega

/-- Its task is the call's own. -/
theorem task_req (accounts : Accounts texts l) (traced : Traced input l) {t : Task}
    {req : Request} (mem : t ∈ l.tasks) (owed : l.owed? t.message = some req) :
    t.req = some req := by
  obtain ⟨a, here, spawned⟩ := traced.tasks t mem
  exact (accounts.owes here owed).task _ spawned

theorem owing_append (k : Nat) (front back : List Task) (t : Task) :
    ((front ++ t :: back).map (Task.owing k)).sum =
      t.owing k + ((front ++ back).map (Task.owing k)).sum := by
  simp only [List.map_append, List.map_cons, List.sum_append, List.sum_cons]
  omega

/-- A frame more is a frame less that is owed. -/
theorem moves (accounts : Accounts texts l) (traced : Traced input l)
    (plain : ∀ m ∈ input, m.isBatch = false) (lawful : e.Lawful l)
    (goes : Goes texts l e events tasks) {k : Nat} {req : Request} (owed : l.owed? k = some req) :
    (events.filterMap (Deed.frame? texts k)).length + (tasks.map (Task.owing k)).sum = l.owing k ∧
      ∀ raw ∈ events.filterMap (Deed.frame? texts k), Arrived.Bears texts req raw := by
  have apart := accounts.apart traced owed
  have elsewhere : ∀ {d : Deed}, d.message ≠ some k → [d].filterMap (Deed.frame? texts k) = [] := by
    intro d other
    simp [Deed.frame?, other]
  have nothing : ∀ {d : Deed}, d.message ≠ some k → tasks = l.tasks → events = [d] →
      (events.filterMap (Deed.frame? texts k)).length + (tasks.map (Task.owing k)).sum = l.owing k ∧
        ∀ raw ∈ events.filterMap (Deed.frame? texts k), Arrived.Bears texts req raw := by
    rintro d other rfl rfl
    rw [elsewhere other]
    exact ⟨Nat.zero_add _, by simp⟩
  cases goes with
  | refused w => exact nothing (d := ⟨none, .respond w⟩) (by simp) rfl rfl
  | accepted name w =>
      refine nothing (d := ⟨l.awaited[name]?, .respond w⟩) ?_ rfl rfl
      exact fun named => apart (List.mem_append_left _ (List.mem_of_getElem? named))
  | @sunk k' raw sinks =>
      refine nothing (d := ⟨some k', .sink raw⟩) ?_ rfl rfl
      intro same
      cases same
      exact apart (List.mem_append_right _ sinks)
  | @resolved i front t back b split here undone =>
      refine ⟨?_, by simp⟩
      rw [Ledger.owing, split, owing_append, owing_append]
      suffices same : Task.owing k { t with left := some (sendResponse b) } = t.owing k by
        rw [same, List.filterMap_nil, List.length_nil, Nat.zero_add]
      have mem : t ∈ l.tasks := by simp [split]
      obtain ⟨req, call⟩ := traced.called plain t mem
      obtain ⟨rp, rfl, kind, -⟩ := lawful t here req call
      unfold Task.owing
      split
      · rw [undone]
        simp [sendResponse, Conn.respond, kind]
      · rfl
  | @sent i front t back w rest split left =>
      rw [Ledger.owing, split, owing_append, owing_append]
      by_cases same : t.message = k
      · subst same
        have mem : t ∈ l.tasks := by simp [split]
        refine ⟨?_, ?_⟩
        · simp only [Deed.frame?, Effect.frame?, List.filterMap_cons, if_true, List.filterMap_nil,
            List.length_nil, Task.owing, left, List.length_cons]
          omega
        · intro raw mem'
          simp only [Deed.frame?, Effect.frame?, List.filterMap_cons, if_true, List.filterMap_nil,
            List.mem_singleton] at mem'
          subst mem'
          exact accounts.promised t mem req (accounts.task_req traced mem owed) _ left w (.head _)
      · have other : (⟨some t.message, .send w⟩ : Deed).message ≠ some k := by simpa using same
        rw [elsewhere other]
        refine ⟨?_, by simp⟩
        simp [Task.owing, same]
  | @finished i front t back split done =>
      refine ⟨?_, by simp⟩
      rw [Ledger.owing, split, owing_append]
      simp [Task.owing, done]

theorem keeps (accounts : Accounts texts l) (lawful : e.Lawful l)
    (goes : Goes texts l e events tasks) :
    ∀ t ∈ tasks, ∀ req, t.req = some req → ∀ ws, t.left = some ws →
      ∀ w ∈ ws, Arrived.Bears texts req (texts.encode w.json) := by
  have others : ∀ {front back : List Task} {t₀ : Task}, l.tasks = front ++ t₀ :: back →
      ∀ t ∈ front ++ back, ∀ req, t.req = some req → ∀ ws, t.left = some ws →
        ∀ w ∈ ws, Arrived.Bears texts req (texts.encode w.json) := by
    intro front back t₀ split t mem
    refine accounts.promised t ?_
    rw [split]
    obtain mem | mem := List.mem_append.mp mem <;> simp [mem]
  cases goes with
  | refused w | accepted name w | sunk raw sinks => exact accounts.promised
  | @resolved i front t₀ back b split here undone =>
      intro t mem req call ws left w mem'
      obtain rfl | mem := List.mem_cons.mp (List.perm_middle.mem_iff.mp mem)
      · obtain ⟨rp, rfl, kind, id⟩ := lawful t₀ here req call
        cases left
        simp only [sendResponse, Conn.respond, kind, List.mem_singleton] at mem'
        subst mem'
        exact ⟨rp, kind, id, rfl⟩
      · exact others split t mem req call ws left w mem'
  | @sent i front t₀ back w₀ rest split left₀ =>
      intro t mem req call ws left w mem'
      obtain rfl | mem := List.mem_cons.mp (List.perm_middle.mem_iff.mp mem)
      · cases left
        exact accounts.promised t₀ (by simp [split]) req call _ left₀ w (.tail _ mem')
      · exact others split t mem req call ws left w mem'
  | finished split done => exact others split

theorem goes (accounts : Accounts texts l) (traced : Traced input l)
    (plain : ∀ m ∈ input, m.isBatch = false) (lawful : e.Lawful l)
    (goes : Goes texts l e events tasks) :
    Accounts texts { l with tasks, trace := l.trace ++ events } := by
  refine ⟨accounts.answering, accounts.keeps lawful goes, ?_, ?_⟩
  · intro k req owed raw mem
    rw [Ledger.frames, List.filterMap_append] at mem
    obtain mem | mem := List.mem_append.mp mem
    · exact accounts.bears k req owed raw mem
    · exact (accounts.moves traced plain lawful goes owed).2 raw mem
  · intro k req owed
    have before := accounts.owed k req owed
    have same := (accounts.moves traced plain lawful goes owed).1
    rw [Ledger.frames, List.filterMap_append, List.length_append]
    change (l.frames texts k).length + _ + (tasks.map (Task.owing k)).sum = 1
    omega

theorem begin_frames (texts : Texts) (l : Ledger σ) (a : Arrived σ) (k : Nat) :
    (l.begin a).frames texts k = l.frames texts k ++
      if l.messages.length = k then a.effects.filterMap (Effect.frame? texts) else [] := by
  unfold Ledger.frames begin
  dsimp only
  rw [List.filterMap_append, List.filterMap_map]
  congr 1
  split
  · rename_i same
    exact List.filterMap_congr fun e _ => by simp [Deed.frame?, same]
  · rename_i other
    simp [Deed.frame?, other]

theorem begin_owing (l : Ledger σ) (a : Arrived σ) (k : Nat) :
    (l.begin a).owing k = l.owing k +
      if l.messages.length = k then (a.effects.filterMap Effect.spawned?).length else 0 := by
  have each : ∀ reqs : List (Option Request),
      ((reqs.map fun req => (⟨l.messages.length, req, none⟩ : Task)).map (Task.owing k)).sum =
        if l.messages.length = k then reqs.length else 0 := by
    intro reqs
    rw [List.map_map]
    by_cases same : l.messages.length = k <;>
      simp [Task.owing, same, Function.comp_def]
  unfold Ledger.owing begin
  dsimp only
  rw [List.map_append, List.sum_append, each]

/-- Nothing is done yet for a message to come. -/
theorem fresh (traced : Traced input l) (texts : Texts) :
    l.frames texts l.messages.length = [] ∧ l.owing l.messages.length = 0 := by
  refine ⟨?_, ?_⟩
  · unfold Ledger.frames
    rw [List.filterMap_eq_nil_iff]
    intro d mem
    refine if_neg fun named => ?_
    exact absurd (traced.old d mem _ named) (Nat.lt_irrefl _)
  · unfold Ledger.owing
    rw [List.sum_eq_zero_iff]
    intro n mem
    obtain ⟨t, held, rfl⟩ := List.mem_map.mp mem
    obtain ⟨a, here, -⟩ := traced.tasks t held
    refine if_neg fun same => ?_
    rw [same] at here
    exact absurd (List.getElem?_eq_some_iff.mp here).1 (Nat.lt_irrefl _)

theorem begins {a : Arrived σ} (accounts : Accounts texts l) (traced : Traced input l)
    (lawful : a.router.dispatch.Answering) : Accounts texts (l.begin a) := by
  have answering : ∀ b ∈ (l.begin a).messages, b.router.dispatch.Answering := by
    intro b mem
    obtain mem | mem := List.mem_append.mp mem
    · exact accounts.answering b mem
    · cases List.mem_singleton.mp mem
      exact lawful
  have promised : ∀ t ∈ (l.begin a).tasks, ∀ req, t.req = some req → ∀ ws, t.left = some ws →
      ∀ w ∈ ws, Arrived.Bears texts req (texts.encode w.json) := by
    intro t mem
    obtain mem | mem := List.mem_append.mp mem
    · exact accounts.promised t mem
    · obtain ⟨req, -, rfl⟩ := List.mem_map.mp mem
      intro _ _ ws left
      cases left
  have parts : ∀ k req, (l.begin a).owed? k = some req →
      ((l.begin a).frames texts k).length + (l.begin a).owing k = 1 ∧
        ∀ raw ∈ (l.begin a).frames texts k, Arrived.Bears texts req raw := by
    intro k req owed
    obtain ⟨b, here, owes⟩ := Option.bind_eq_some_iff.mp owed
    rw [begin_frames, begin_owing]
    obtain before | same := (Nat.lt_or_eq_of_le (Nat.le_of_lt_succ
      (by simpa [begin] using (List.getElem?_eq_some_iff.mp here).1)))
    · have here : l.messages[k]? = some b := by
        rwa [begin, List.getElem?_append_left before] at here
      have owed : l.owed? k = some req := by rw [owed?, here, Option.bind_some, owes]
      rw [if_neg (by omega), if_neg (by omega), List.append_nil, Nat.add_zero]
      exact ⟨accounts.owed k req owed, accounts.bears k req owed⟩
    · subst same
      have last : (l.messages ++ [a])[l.messages.length]? = some a := List.getElem?_concat_length
      cases last.symm.trans here
      have owes := Arrived.effects_owes texts lawful owes
      rw [if_pos rfl, if_pos rfl, (fresh traced texts).1, (fresh traced texts).2, List.nil_append,
        Nat.zero_add]
      exact ⟨owes.one, owes.bears⟩
  exact ⟨answering, promised, fun k req owed => (parts k req owed).2,
    fun k req owed => (parts k req owed).1⟩

theorem step (plain : ∀ m ∈ input, m.isBatch = false) (accounts : Accounts texts l)
    (traced : Traced input l) (lawful : e.Lawful l) (stepped : l.step texts e = some l') :
    Accounts texts l' := by
  cases steps stepped with
  | begins next => exact accounts.begins traced lawful
  | goes goes => exact accounts.goes traced plain lawful goes
  | batched task batch =>
      obtain ⟨req, call⟩ := traced.called plain _ task
      rw [batch] at call
      cases call

/-- No task left, a call that is to be answered has one frame, which bears its id. -/
theorem settled (accounts : Accounts texts l) (none : l.tasks = []) {k : Nat} {req : Request}
    (owed : l.owed? k = some req) :
    ∃ raw, l.frames texts k = [raw] ∧ Arrived.Bears texts req raw := by
  have one := accounts.owed k req owed
  rw [Ledger.owing, none, List.map_nil, List.sum_nil, Nat.add_zero] at one
  obtain ⟨raw, frames⟩ := List.length_eq_one_iff.mp one
  exact ⟨raw, frames, accounts.bears k req owed raw (by simp [frames])⟩

end Accounts

/-- What an entry writes, on the loop's own queue and on the method table's, and the tasks it
    starts and ends. -/
def Entry.written : Entry σ → List Written
  | .message a => a.effects.filterMap Effect.written?
  | .refused w | .accepted _ w => [w]
  | _ => []

def Entry.table : Entry σ → List Bytes
  | .sent _ raw | .sunk _ raw => [raw]
  | _ => []

def Entry.started : Entry σ → Nat
  | .message a => (a.effects.filterMap Effect.spawned?).length
  | _ => 0

def Entry.ended : Entry σ → Nat
  | .finished _ => 1
  | _ => 0

section Books

variable {texts : Texts} {input : List Inbound} {l l' : Ledger σ} {e : Entry σ}

theorem goes_books {events : List Deed} {tasks : List Task} (goes : Goes texts l e events tasks) :
    events.filterMap (·.effect.written?) = e.written ∧
      events.filterMap (·.effect.table? texts) = e.table ∧
        tasks.length + e.ended = l.tasks.length + e.started := by
  cases goes with
  | refused w | accepted name w | sunk raw sinks => exact ⟨rfl, rfl, rfl⟩
  | resolved b split here undone => exact ⟨rfl, rfl, by simp [split, Entry.ended, Entry.started]⟩
  | sent split left => exact ⟨rfl, rfl, by simp [split, Entry.ended, Entry.started]⟩
  | finished split done =>
      refine ⟨rfl, rfl, ?_⟩
      simp only [split, Entry.ended, Entry.started, List.length_append, List.length_cons]
      omega

/-- The trace is added what the entry writes, and the tasks are those started and not ended. -/
theorem step_books (plain : ∀ m ∈ input, m.isBatch = false) (traced : Traced input l)
    (stepped : l.step texts e = some l') :
    l'.written = l.written ++ e.written ∧ l'.table texts = l.table texts ++ e.table ∧
      l'.tasks.length + e.ended = l.tasks.length + e.started := by
  cases steps stepped with
  | @begins a rest next =>
      refine ⟨?_, ?_, ?_⟩
      · unfold Ledger.written begin
        rw [List.filterMap_append, List.filterMap_map]
        rfl
      · unfold Ledger.table begin
        rw [List.filterMap_append, List.filterMap_map]
        exact congrArg _ (Arrived.effects_table texts)
      · simp [begin, Entry.ended, Entry.started]
  | goes goes =>
      obtain ⟨written, table, tasks⟩ := goes_books goes
      refine ⟨?_, ?_, tasks⟩
      · rw [Ledger.written, List.filterMap_append, written]
        rfl
      · rw [Ledger.table, List.filterMap_append, table]
        rfl
  | batched task batch =>
      obtain ⟨req, call⟩ := traced.called plain _ task
      rw [batch] at call
      cases call

/-- The same of a list of entries. -/
theorem run_books (plain : ∀ m ∈ input, m.isBatch = false) {es : List (Entry σ)}
    (traced : Traced input l) (ran : (Ledger.machine texts input).runFrom l es = some l') :
    l'.written = l.written ++ es.flatMap Entry.written ∧
      l'.table texts = l.table texts ++ es.flatMap Entry.table ∧
        l'.tasks.length + (es.map Entry.ended).sum =
          l.tasks.length + (es.map Entry.started).sum := by
  induction es generalizing l with
  | nil =>
      cases ran
      simp
  | cons e es ih =>
      obtain ⟨m, stepped, ran⟩ := Option.bind_eq_some_iff.mp ran
      have stepped : l.step texts e = some m := stepped
      obtain ⟨written, table, tasks⟩ := step_books plain traced stepped
      obtain ⟨writtens, tables, counts⟩ := ih (traced.step plain stepped) ran
      refine ⟨?_, ?_, ?_⟩
      · rw [writtens, written, List.flatMap_cons, List.append_assoc]
      · rw [tables, table, List.flatMap_cons, List.append_assoc]
      · simp only [List.map_cons, List.sum_cons]
        omega

end Books

end PlexusTransport.Ws.Conn
