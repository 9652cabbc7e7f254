import PlexusTransport.Ws.Conn.Arrived

/-! # The ledger of a connection

Each message read is entered with what it did, each task with what it has still to
write. A call that is to be answered is accounted for once: by its frame, or by the task
that owes it.
-/

namespace PlexusTransport.Ws.Conn

variable {σ : Type}

/-- The task of a message: a call's, or a batch's (`none`). `left`: what it has still to
    send, once its future is done. -/
structure Task where
  message : Nat
  req : Option Request
  left : Option (List Written)

/-- What was done, and for which message. -/
structure Deed where
  message : Option Nat
  effect : Effect

/-- Messages are named by their place in `messages`; `awaited`: the message of each
    acceptance, by its name; `sinks`: those whose subscriptions have a sink. -/
structure Ledger (σ : Type) where
  unread : List Inbound
  messages : List (Arrived σ)
  tasks : List Task
  awaited : List Nat
  sinks : List Nat
  trace : List Deed

inductive Entry (σ : Type) where
  | message (a : Arrived σ)
  | refused (w : Written)
  | accepted (name : Nat) (w : Written)
  | resolved (i : Nat) (b : BatchResponse)
  | sent (i : Nat) (raw : Bytes)
  | sunk (message : Nat) (raw : Bytes)
  | finished (i : Nat)
  | batched (i : Nat) (kind : Kind) (req : Request)

namespace Ledger

def new (input : List Inbound) : Ledger σ := ⟨input, [], [], [], [], []⟩

def note (l : Ledger σ) (message : Option Nat) (e : Effect) : Ledger σ :=
  { l with trace := l.trace ++ [⟨message, e⟩] }

def begin (l : Ledger σ) (a : Arrived σ) : Ledger σ :=
  let k := l.messages.length
  { unread := l.unread.tail
    messages := l.messages ++ [a]
    tasks := l.tasks ++ (a.effects.filterMap Effect.spawned?).map fun req => ⟨k, req, none⟩
    awaited := l.awaited ++ List.replicate (a.effects.countP Effect.awaits) k
    sinks := l.sinks ++ List.replicate (a.effects.countP Effect.awaits) k
    trace := l.trace ++ a.effects.map fun e => ⟨some k, e⟩ }

/-- `send_response`: a task whose future is done sends what it has, then ends. A batch's
    task begins calls of its own. -/
def step (texts : Texts) (l : Ledger σ) : Entry σ → Option (Ledger σ)
  | .message a => if l.unread.head? = some a.inbound then some (l.begin a) else none
  | .refused w => some (l.note none (.respond w))
  | .accepted name w => some (l.note l.awaited[name]? (.respond w))
  | .resolved i b =>
      match l.tasks[i]? with
      | some ⟨k, req, none⟩ =>
          some { l with tasks := l.tasks.set i ⟨k, req, some (sendResponse b)⟩ }
      | _ => none
  | .sent i raw =>
      match l.tasks[i]? with
      | some ⟨k, req, some (w :: rest)⟩ =>
          if raw = texts.encode w.json then
            some ({ l with tasks := l.tasks.set i ⟨k, req, some rest⟩ }.note (some k) (.send w))
          else none
      | _ => none
  | .sunk k raw => if k ∈ l.sinks then some (l.note (some k) (.sink raw)) else none
  | .finished i =>
      match l.tasks[i]? with
      | some ⟨_, _, some []⟩ => some { l with tasks := l.tasks.eraseIdx i }
      | _ => none
  | .batched i kind req =>
      match l.tasks[i]? with
      | some ⟨k, none, none⟩ =>
          some ({ l with sinks := if kind = Kind.subscription then l.sinks ++ [k] else l.sinks }.note
            (some k) (.invoke kind req))
      | _ => none

def machine (texts : Texts) (input : List Inbound) : Machine (Ledger σ) (Entry σ) :=
  ⟨new input, step texts⟩

variable (l : Ledger σ)

/-- What was done for a message. -/
def of (k : Nat) : List Effect :=
  l.trace.filterMap fun e => if e.message = some k then some e.effect else none

/-- What was done of one kind, in the order it was done, by message. -/
def told {β : Type} (f : Effect → Option β) : List (Nat × β) :=
  l.trace.filterMap fun e => e.message.bind fun k => (f e.effect).map (k, ·)

/-- What the messages ask for, in the order they came. -/
def asked {β : Type} (g : Arrived σ → Option β) : List (Nat × β) :=
  l.messages.zipIdx.filterMap fun (a, k) => (g a).map (k, ·)

/-- The answers the loop queued itself. -/
def written : List Written := l.trace.filterMap (·.effect.written?)

/-- What was sent on the method table's queue. -/
def table (texts : Texts) : List Bytes := l.trace.filterMap (·.effect.table? texts)

end Ledger

/-- The frames a task has still to send for a message. -/
def Task.owing (k : Nat) (t : Task) : Nat :=
  if t.message = k then
    match t.left with
    | none => 1
    | some ws => ws.length
  else 0

/-- What is relied on: the method table's callbacks answer the call they are given, and a
    call's future resolves to its answer. -/
def Entry.Lawful (l : Ledger σ) : Entry σ → Prop
  | .message a => a.router.dispatch.Answering
  | .resolved i b => ∀ t ∈ l.tasks[i]?, ∀ req, t.req = some req →
      ∃ rp : MethodResponse, b = .single rp ∧ rp.kind = .methodCall ∧ rp.id = req.id
  | _ => True

namespace Ledger

/-- How a step goes that reads no message: what it notes, and the tasks it leaves. -/
inductive Goes (texts : Texts) (l : Ledger σ) : Entry σ → List Deed → List Task → Prop where
  | refused (w) : Goes texts l (.refused w) [⟨none, .respond w⟩] l.tasks
  | accepted (name w) :
      Goes texts l (.accepted name w) [⟨l.awaited[name]?, .respond w⟩] l.tasks
  | resolved {i front t back} (b) (tasks : l.tasks = front ++ t :: back)
      (here : l.tasks[i]? = some t) (undone : t.left = none) :
      Goes texts l (.resolved i b) [] (front ++ { t with left := some (sendResponse b) } :: back)
  | sent {i front t back w rest} (tasks : l.tasks = front ++ t :: back)
      (left : t.left = some (w :: rest)) :
      Goes texts l (.sent i (texts.encode w.json)) [⟨some t.message, .send w⟩]
        (front ++ { t with left := some rest } :: back)
  | sunk {k} (raw) (sinks : k ∈ l.sinks) :
      Goes texts l (.sunk k raw) [⟨some k, .sink raw⟩] l.tasks
  | finished {i front t back} (tasks : l.tasks = front ++ t :: back) (done : t.left = some []) :
      Goes texts l (.finished i) [] (front ++ back)

/-- All that a step can be. -/
inductive Steps (texts : Texts) (l : Ledger σ) : Entry σ → Ledger σ → Prop where
  | begins {a rest} (next : l.unread = a.inbound :: rest) : Steps texts l (.message a) (l.begin a)
  | goes {e events tasks} (goes : Goes texts l e events tasks) :
      Steps texts l e { l with tasks, trace := l.trace ++ events }
  | batched {i kind req t l'} (task : t ∈ l.tasks) (batch : t.req = none) :
      Steps texts l (.batched i kind req) l'

theorem split_at {α : Type} {l : List α} {i : Nat} {x : α} (here : l[i]? = some x) :
    ∃ front back, l = front ++ x :: back ∧ front.length = i := by
  obtain ⟨within, rfl⟩ := List.getElem?_eq_some_iff.mp here
  refine ⟨l.take i, l.drop (i + 1), ?_, List.length_take_of_le within.le⟩
  rw [List.getElem_cons_drop, List.take_append_drop]

theorem steps {texts : Texts} {l l' : Ledger σ} {e : Entry σ}
    (stepped : l.step texts e = some l') : Steps texts l e l' := by
  cases e with
  | message a =>
      simp only [step, Option.ite_none_right_eq_some, Option.some.injEq] at stepped
      obtain ⟨next, rfl⟩ := stepped
      obtain ⟨rest, next⟩ := List.head?_eq_some_iff.mp next
      exact .begins next
  | refused w =>
      cases stepped
      exact .goes (.refused w)
  | accepted name w =>
      cases stepped
      exact .goes (.accepted name w)
  | resolved i b =>
      simp only [step] at stepped
      split at stepped
      · rename_i k req here
        cases stepped
        obtain ⟨front, back, tasks, rfl⟩ := split_at here
        have goes : Goes texts l _ [] _ := .resolved b tasks here rfl
        rw [tasks, List.set_append_right _ _ (Nat.le_refl _), Nat.sub_self, List.set_cons_zero]
        exact List.append_nil l.trace ▸ .goes goes
      · cases stepped
  | sent i raw =>
      simp only [step] at stepped
      split at stepped
      · rename_i k req w rest here
        split at stepped
        · rename_i same
          cases stepped
          subst same
          obtain ⟨front, back, tasks, rfl⟩ := split_at here
          have goes : Goes texts l (.sent front.length _) _ _ := .sent tasks rfl
          rw [tasks, List.set_append_right _ _ (Nat.le_refl _), Nat.sub_self, List.set_cons_zero]
          exact .goes goes
        · cases stepped
      · cases stepped
  | sunk k raw =>
      simp only [step, Option.ite_none_right_eq_some, Option.some.injEq] at stepped
      obtain ⟨sinks, rfl⟩ := stepped
      exact .goes (.sunk raw sinks)
  | finished i =>
      simp only [step] at stepped
      split at stepped
      · rename_i k req here
        cases stepped
        obtain ⟨front, back, tasks, rfl⟩ := split_at here
        have goes : Goes texts l (.finished front.length) [] _ := .finished tasks rfl
        rw [tasks, List.eraseIdx_append_of_length_le (Nat.le_refl _), Nat.sub_self,
          List.eraseIdx_cons_zero]
        exact List.append_nil l.trace ▸ .goes goes
      · cases stepped
  | batched i kind req =>
      simp only [step] at stepped
      split at stepped
      · rename_i k here
        exact .batched (List.mem_of_getElem? here) rfl
      · cases stepped

variable {texts : Texts} {input : List Inbound} {l l' : Ledger σ} {e : Entry σ}
  {events : List Deed} {tasks : List Task}

/-- A step that reads no message shows the hook nothing and invokes nothing. -/
theorem goes_silent (goes : Goes texts l e events tasks) :
    ∀ d ∈ events, d.effect.seen? = none ∧ d.effect.invoked? = none := by
  intro d mem
  cases goes with
  | refused w | accepted name w | sunk raw sinks | sent split left =>
      cases List.mem_singleton.mp mem
      exact ⟨rfl, rfl⟩
  | resolved b split here undone | finished split done => cases mem

/-- What it does is done for a subscription, or by a message's task. -/
theorem goes_for (goes : Goes texts l e events tasks) :
    ∀ d ∈ events, ∀ k, d.message = some k →
      k ∈ l.awaited ++ l.sinks ∨ ∃ t ∈ l.tasks, t.message = k := by
  intro d mem k named
  cases goes with
  | refused w =>
      cases List.mem_singleton.mp mem
      cases named
  | accepted name w =>
      cases List.mem_singleton.mp mem
      exact .inl (List.mem_append_left _ (List.mem_of_getElem? named))
  | sunk raw sinks =>
      cases List.mem_singleton.mp mem
      cases named
      exact .inl (List.mem_append_right _ sinks)
  | @sent i front t back w rest split left =>
      cases List.mem_singleton.mp mem
      cases named
      exact .inr ⟨t, by simp [split], rfl⟩
  | resolved b split here undone | finished split done => cases mem

theorem goes_tasks (goes : Goes texts l e events tasks) :
    ∀ t ∈ tasks, ∃ t₀ ∈ l.tasks, t₀.message = t.message ∧ t₀.req = t.req := by
  intro t mem
  have kept : ∀ {front back : List Task} {t₀ : Task} {left}, l.tasks = front ++ t₀ :: back →
      t ∈ front ++ { t₀ with left } :: back →
      ∃ t₀ ∈ l.tasks, t₀.message = t.message ∧ t₀.req = t.req := by
    intro front back t₀ left split mem
    simp only [List.mem_append, List.mem_cons] at mem
    obtain mem | rfl | mem := mem
    · exact ⟨t, by simp [split, mem], rfl, rfl⟩
    · exact ⟨t₀, by simp [split], rfl, rfl⟩
    · exact ⟨t, by simp [split, mem], rfl, rfl⟩
  cases goes with
  | refused w | accepted name w | sunk raw sinks => exact ⟨t, mem, rfl, rfl⟩
  | resolved b split here undone => exact kept split mem
  | sent split left => exact kept split mem
  | @finished i front t₀ back split done =>
      refine ⟨t, ?_, rfl, rfl⟩
      obtain mem | mem := List.mem_append.mp mem <;> simp [split, mem]

theorem of_append (k : Nat) (ds : List Deed) :
    { l with tasks, trace := l.trace ++ ds }.of k =
      l.of k ++ ds.filterMap fun d => if d.message = some k then some d.effect else none :=
  List.filterMap_append

theorem told_append {β : Type} (f : Effect → Option β) (ds : List Deed) :
    { l with tasks, trace := l.trace ++ ds }.told f =
      l.told f ++ ds.filterMap fun d => d.message.bind fun k => (f d.effect).map (k, ·) :=
  List.filterMap_append

theorem begin_of (l : Ledger σ) (a : Arrived σ) (k : Nat) :
    (l.begin a).of k = l.of k ++ if l.messages.length = k then a.effects else [] := by
  unfold of begin
  dsimp only
  rw [List.filterMap_append, List.filterMap_map]
  congr 1
  split
  · rename_i same
    simp [same]
  · rename_i other
    simp [other]

theorem begin_told {β : Type} (f : Effect → Option β) (l : Ledger σ) (a : Arrived σ) :
    (l.begin a).told f = l.told f ++ (a.effects.filterMap f).map (l.messages.length, ·) := by
  unfold told begin
  dsimp only
  rw [List.filterMap_append, List.filterMap_map, List.map_filterMap]
  rfl

theorem begin_asked {β : Type} (g : Arrived σ → Option β) (l : Ledger σ) (a : Arrived σ) :
    (l.begin a).asked g = l.asked g ++ (g a).toList.map (l.messages.length, ·) := by
  unfold asked begin
  dsimp only
  rw [List.zipIdx_append, List.filterMap_append, List.zipIdx_singleton, Nat.zero_add]
  cases asks : g a <;> simp [asks]

end Ledger

/-- More may be done for it later: its task's answer, or its subscription's. -/
def Arrived.Lasts (a : Arrived σ) : Prop :=
  a.effects.filterMap Effect.spawned? ≠ [] ∨ 0 < a.effects.countP Effect.awaits

/-- The trace against the messages. -/
structure Traced (input : List Inbound) (l : Ledger σ) : Prop where
  read : l.messages.map (·.inbound) ++ l.unread = input
  seen : l.told Effect.seen? = l.asked Arrived.seen?
  invoked : l.told Effect.invoked? = l.asked Arrived.due?
  old : ∀ d ∈ l.trace, ∀ k, d.message = some k → k < l.messages.length
  tasks : ∀ t ∈ l.tasks, ∃ a, l.messages[t.message]? = some a ∧
    t.req ∈ a.effects.filterMap Effect.spawned?
  waits : ∀ k ∈ l.awaited ++ l.sinks, ∃ a, l.messages[k]? = some a ∧
    0 < a.effects.countP Effect.awaits
  front : ∀ k a, l.messages[k]? = some a →
    ∃ later, l.of k = a.effects ++ later ∧ (later = [] ∨ a.Lasts)

namespace Traced

open Ledger

variable {texts : Texts} {input : List Inbound} {l l' : Ledger σ} {e : Entry σ}
  {events : List Deed} {tasks : List Task}

theorem goes (traced : Traced input l) (goes : Goes texts l e events tasks) :
    Traced input { l with tasks, trace := l.trace ++ events } := by
  have silent := goes_silent goes
  have places : ∀ d ∈ events, ∀ k, d.message = some k →
      ∃ a, l.messages[k]? = some a ∧ a.Lasts := by
    intro d mem k named
    obtain waits | ⟨t, mem, rfl⟩ := goes_for goes d mem k named
    · obtain ⟨a, here, awaits⟩ := traced.waits k waits
      exact ⟨a, here, .inr awaits⟩
    · obtain ⟨a, here, spawned⟩ := traced.tasks t mem
      exact ⟨a, here, .inl (List.ne_nil_of_mem spawned)⟩
  refine ⟨traced.read, ?_, ?_, ?_, ?_, traced.waits, ?_⟩
  · rw [told_append, List.filterMap_eq_nil_iff.mpr, List.append_nil]
    · exact traced.seen
    · intro d mem
      simp [(silent d mem).1]
  · rw [told_append, List.filterMap_eq_nil_iff.mpr, List.append_nil]
    · exact traced.invoked
    · intro d mem
      simp [(silent d mem).2]
  · intro d mem k named
    obtain mem | mem := List.mem_append.mp mem
    · exact traced.old d mem k named
    · obtain ⟨a, here, -⟩ := places d mem k named
      exact (List.getElem?_eq_some_iff.mp here).1
  · intro t mem
    obtain ⟨t₀, mem, message, req⟩ := goes_tasks goes t mem
    rw [← message, ← req]
    exact traced.tasks t₀ mem
  · intro k a here
    obtain ⟨later, whole, lasts⟩ := traced.front k a here
    rw [of_append, whole, List.append_assoc]
    refine ⟨_, rfl, ?_⟩
    cases more : events.filterMap fun d => if d.message = some k then some d.effect else none with
    | nil =>
        rw [List.append_nil]
        exact lasts
    | cons x xs =>
        right
        have mem : x ∈ events.filterMap fun d =>
          if d.message = some k then some d.effect else none := more ▸ .head _
        obtain ⟨d, mem, named⟩ := List.mem_filterMap.mp mem
        obtain ⟨b, here', lasts⟩ := places d mem k (Option.ite_none_right_eq_some.mp named).1
        cases here.symm.trans here'
        exact lasts

theorem begins {a : Arrived σ} {rest : List Inbound} (traced : Traced input l)
    (next : l.unread = a.inbound :: rest) : Traced input (l.begin a) := by
  have later : ∀ {k : Nat} {b}, l.messages[k]? = some b → (l.messages ++ [a])[k]? = some b := by
    intro k b here
    rw [List.getElem?_append_left (List.getElem?_eq_some_iff.mp here).1, here]
  have last : (l.messages ++ [a])[l.messages.length]? = some a := List.getElem?_concat_length
  refine ⟨?_, ?_, ?_, ?_, ?_, ?_, ?_⟩
  · have read := traced.read
    rw [next] at read
    simp [begin, next, ← read]
  · rw [begin_told, begin_asked, traced.seen, Arrived.effects_seen]
  · rw [begin_told, begin_asked, traced.invoked, Arrived.effects_invoked]
  · intro d mem k named
    simp only [begin, List.length_append, List.length_singleton]
    obtain mem | mem := List.mem_append.mp mem
    · have before := traced.old d mem k named
      omega
    · obtain ⟨e, -, rfl⟩ := List.mem_map.mp mem
      cases named
      omega
  · intro t mem
    obtain mem | mem := List.mem_append.mp mem
    · obtain ⟨b, here, spawned⟩ := traced.tasks t mem
      exact ⟨b, later here, spawned⟩
    · obtain ⟨req, spawned, rfl⟩ := List.mem_map.mp mem
      exact ⟨a, last, spawned⟩
  · intro k mem
    have either : k ∈ l.awaited ++ l.sinks ∨
        k ∈ List.replicate (a.effects.countP Effect.awaits) l.messages.length := by
      simp only [begin, List.mem_append] at mem ⊢
      tauto
    obtain mem | mem := either
    · obtain ⟨b, here, awaits⟩ := traced.waits k mem
      exact ⟨b, later here, awaits⟩
    · obtain ⟨some, rfl⟩ := List.mem_replicate.mp mem
      exact ⟨a, last, Nat.pos_of_ne_zero some⟩
  · intro k b here
    rw [begin_of]
    obtain before | same := (Nat.lt_or_eq_of_le (Nat.le_of_lt_succ
      (by simpa [begin] using (List.getElem?_eq_some_iff.mp here).1)))
    · have here : l.messages[k]? = some b := by
        rwa [begin, List.getElem?_append_left before] at here
      rw [if_neg (by omega), List.append_nil]
      exact traced.front k b here
    · subst same
      cases last.symm.trans here
      have none : l.of l.messages.length = [] := by
        unfold of
        rw [List.filterMap_eq_nil_iff]
        intro d mem
        rw [if_neg]
        intro named
        exact absurd (traced.old d mem _ named) (Nat.lt_irrefl _)
      rw [none, if_pos rfl]
      exact ⟨[], by simp, .inl rfl⟩

/-- Without batches no task begins calls of its own. -/
theorem called (traced : Traced input l) (plain : ∀ m ∈ input, m.isBatch = false) :
    ∀ t ∈ l.tasks, ∃ req, t.req = some req := by
  intro t mem
  obtain ⟨a, here, spawned⟩ := traced.tasks t mem
  cases call : t.req with
  | some req => exact ⟨req, rfl⟩
  | none =>
      rw [call] at spawned
      have came : a.inbound ∈ input := by
        rw [← traced.read]
        exact List.mem_append_left _ (List.mem_map_of_mem (List.mem_of_getElem? here))
      have batch := Arrived.spawned_batch spawned
      rw [plain _ came] at batch
      cases batch

theorem step (plain : ∀ m ∈ input, m.isBatch = false) (traced : Traced input l)
    (stepped : l.step texts e = some l') : Traced input l' := by
  cases steps stepped with
  | begins next => exact traced.begins next
  | goes goes => exact traced.goes goes
  | batched task batch =>
      obtain ⟨req, call⟩ := traced.called plain _ task
      rw [batch] at call
      cases call

end Traced

end PlexusTransport.Ws.Conn
