import PlexusTransport.Ws.Conn.Accounts
import PlexusTransport.Ws.Conn.Backlog

/-! # Arrival order of dispatch

The loop with its ledger: each step is entered with what it does for which message, and
with who sends each frame that goes on the method table's queue meanwhile.
-/

namespace PlexusTransport.Ws.Conn

variable {σ : Type}

/-- Who sends on the method table's queue: the task at this place, or a subscription's sink. -/
inductive Sender where
  | task (i : Nat)
  | sink (message : Nat)

def Sender.entry (raw : Bytes) : Sender → Entry σ
  | .task i => .sent i raw
  | .sink k => .sunk k raw

/-- A step of the loop; or a task's future is done, or a batch's task begins a call. -/
inductive Move (σ : Type) where
  | loop (a : Act σ) (senders : List Sender)
  | resolve (i : Nat) (b : BatchResponse)
  | batched (i : Nat) (kind : Kind) (req : Request)

structure Dispatched (σ : Type) where
  served : Served
  ledger : Ledger σ

namespace Served

/-- What was sent on the method table's queue since. -/
def sentSince (c c' : Served) : List Bytes :=
  (c'.log.drop c.log.length).filterMap Arrival.table?

variable (limits : SocketLimits) (texts : Texts)

/-- The refusals of the messages dropped. -/
def refusals (c : Served) (x : Reading σ) : List Written :=
  let refusal := MethodResponse.error .null (texts.rejectTooBigRequest limits.maxMessageSize)
  (List.replicate (c.dropped + x.drops - c.answeredDrops) refusal).flatMap Conn.respond

/-- What a step of the loop's own does for its messages. -/
def entries (c : Served) : Act σ → List (Entry σ)
  | .read x =>
      if c.reads < readBudget ∧ c.out.length < outHigh then
        match x.read with
        | .message m =>
            .message ⟨m, x.router, x.server, c.free⟩ ::
              match x.router.begin c.free m x.server with
              | .error _ => []
              | .ok _ => (c.refusals limits texts x).map .refused
        | .pending => (c.refusals limits texts x).map .refused
        | .failed _ | .gone => []
      else []
  | .accept =>
      c.accepting.flatMap fun a => (a.got.toList.flatMap Conn.respond).map (.accepted a.name)
  | .happen (.finish i) => [.finished i]
  | .happen _ | .wake _ | .write _ _ => []

end Served

namespace Dispatched

variable (limits : SocketLimits) (texts : Texts) (input : List Inbound)

def new (now : Nat) : Dispatched σ := ⟨.new limits now, .new input⟩

def step (d : Dispatched σ) : Move σ → Option (Dispatched σ)
  | .loop a senders =>
      (d.served.step limits texts a).bind fun c =>
        let raws := d.served.sentSince c
        if senders.length = raws.length then
          ((Ledger.machine texts input).runFrom d.ledger
            (d.served.entries limits texts a ++ List.zipWith Sender.entry raws senders)).map
              fun l => ⟨c, l⟩
        else none
  | .resolve i b => (d.ledger.step texts (.resolved i b)).map fun l => ⟨d.served, l⟩
  | .batched i kind req =>
      (d.ledger.step texts (.batched i kind req)).map fun l => ⟨d.served, l⟩

def machine (now : Nat) : Machine (Dispatched σ) (Move σ) :=
  ⟨new limits input now, step limits texts input⟩

end Dispatched

/-- What is relied on of the method table: its callbacks answer the call they are given, and
    so do its calls' futures. -/
def Lawful (d : Dispatched σ) : Move σ → Prop
  | .loop (.read x) _ => x.router.dispatch.Answering
  | .resolve i b => (Entry.resolved i b).Lawful d.ledger
  | _ => True

/-- What was queued stays queued or goes on: no answer is forgotten, no send unmade. -/
structure Grows (w w' : Writer) : Prop where
  answered : w'.answered = w.answered
  log : w.log <+: w'.log

namespace Grows

theorem refl (w : Writer) : Grows w w := ⟨rfl, List.prefix_rfl⟩

theorem trans {w₁ w₂ w₃ : Writer} (first : Grows w₁ w₂) (then' : Grows w₂ w₃) : Grows w₁ w₃ :=
  ⟨then'.answered.trans first.answered, first.log.trans then'.log⟩

theorem arrive (w : Writer) (a : Arrival) : Grows w (w.arrive a) := by
  cases a with
  | own f =>
      unfold Writer.arrive
      dsimp only
      split
      · exact refl w
      · exact ⟨rfl, List.prefix_append _ _⟩
  | table raw | frames f => exact ⟨rfl, List.prefix_append _ _⟩
  | ownGone => exact ⟨rfl, List.prefix_rfl⟩

theorem meanwhile (w : Writer) (gap : Gap) : Grows w (w.meanwhile gap) :=
  Writer.meanwhile_keeps (I := Grows w) (fun u a grown => grown.trans (arrive u a)) gap (refl w)

theorem poll (q : Queue) (spent : Bool) (w : Writer) : Grows w (Writer.poll q spent w).2 := by
  have polled := w.polling q spent
  generalize Writer.poll q spent w = p at polled ⊢
  cases polled <;> exact ⟨rfl, List.prefix_rfl⟩

theorem byTurns (gaps : Nat → Gap) (is : List Nat) (w : Writer) :
    Grows w (w.byTurns gaps is).2 :=
  Writer.byTurns_keeps (I := Grows w) (fun u a grown => grown.trans (arrive u a))
    (fun q spent u grown => grown.trans (poll q spent u))
    (fun _ _ grown => ⟨grown.answered, grown.log⟩) gaps is (refl w)

theorem behindTable (gap : Gap) (bytes : Bytes) (w : Writer) :
    Grows w (w.behindTable gap bytes).2 := by
  have between := meanwhile w gap
  simp only [Writer.behindTable]
  split <;> exact ⟨between.answered, between.log⟩

theorem nextOut (gaps : Nat → Gap) (w : Writer) : Grows w (w.nextOut gaps).2 := by
  unfold Writer.nextOut
  split
  · exact ⟨rfl, List.prefix_rfl⟩
  · split
    · exact behindTable _ _ w
    · have round := byTurns gaps [0, 1, 2] w
      cases taken : w.byTurns gaps [0, 1, 2] with
      | mk got w₁ =>
          rw [taken] at round
          cases got with
          | nothing | taken t => exact round
          | fence bytes => exact round.trans (behindTable _ _ w₁)

theorem gather (passes : List Pass) (moved : Bool) (w : Writer) :
    Grows w (w.gather passes moved).2 := by
  have gathered := w.gathers passes moved
  generalize w.gather passes moved = p at gathered ⊢
  induction gathered with
  | done | full | failed | pending => exact refl _
  | @nothing pass _ _ w _ under ready next | @lost pass _ _ w _ _ under ready next =>
      have grown := nextOut pass.gaps w
      rw [next] at grown
      exact ⟨grown.answered, grown.log⟩
  | @taken pass _ _ w _ _ _ under ready next takes later ih =>
      have grown := nextOut pass.gaps w
      rw [next] at grown
      refine Grows.trans ?_ ih
      exact ⟨grown.answered, grown.log⟩

theorem pollWrite (passes : List Pass) (flush : Polled) (w : Writer) :
    Grows w (w.pollWrite passes flush).2 := by
  have grown := gather passes false w
  have settled := w.settles passes flush
  generalize w.gather passes false = p, w.pollWrite passes flush = p' at grown settled ⊢
  cases settled <;> exact ⟨grown.answered, grown.log⟩

end Grows

/-- An answer as it is queued. -/
def Written.shown (texts : Texts) (w : Written) : Message := text (texts.encode w.json)

/-- A step of the loop against its entries. -/
structure Books (texts : Texts) (c c' : Served) (es : List (Entry σ)) : Prop where
  answered : c'.answered = c.answered ++ (es.flatMap Entry.written).map (Written.shown texts)
  log : c.log <+: c'.log
  table : es.flatMap Entry.table = []
  tasks : c'.running.length + (es.map Entry.ended).sum =
    c.running.length + (es.map Entry.started).sum
  kept : Kept c.toWriter → Kept c'.toWriter

namespace Books

variable {limits : SocketLimits} {texts : Texts} {c c' : Served}

theorem still (grows : Grows c.toWriter c'.toWriter) (running : c'.running = c.running)
    (kept : Kept c.toWriter → Kept c'.toWriter) :
    Books texts c c' ([] : List (Entry σ)) :=
  ⟨by simpa using grows.answered, grows.log, rfl, congrArg List.length running, kept⟩

/-- Entries that write an answer each, and no more. -/
theorem answers {make : Written → Entry σ} (writes : ∀ w, (make w).written = [w])
    (other : ∀ w, (make w).table = [] ∧ (make w).ended = 0 ∧ (make w).started = 0)
    (ws : List Written) :
    (ws.map make).flatMap Entry.written = ws ∧ (ws.map make).flatMap Entry.table = [] ∧
      ((ws.map make).map Entry.ended).sum = 0 ∧ ((ws.map make).map Entry.started).sum = 0 := by
  induction ws with
  | nil => exact ⟨rfl, rfl, rfl, rfl⟩
  | cons w ws ih =>
      obtain ⟨written, table, ended, started⟩ := ih
      obtain ⟨none, ends, starts⟩ := other w
      simp only [List.map_cons, List.flatMap_cons, List.sum_cons, writes, none, ends, starts,
        written, table, ended, started, List.singleton_append, List.append_nil, and_self]

theorem refused (ws : List Written) :
    (ws.map (Entry.refused (σ := σ))).flatMap Entry.written = ws ∧
      (ws.map (Entry.refused (σ := σ))).flatMap Entry.table = [] ∧
      ((ws.map (Entry.refused (σ := σ))).map Entry.ended).sum = 0 ∧
      ((ws.map (Entry.refused (σ := σ))).map Entry.started).sum = 0 :=
  answers (fun _ => rfl) (fun _ => ⟨rfl, rfl, rfl⟩) ws

theorem accepted (name : Nat) (ws : List Written) :
    (ws.map (Entry.accepted (σ := σ) name)).flatMap Entry.written = ws ∧
      (ws.map (Entry.accepted (σ := σ) name)).flatMap Entry.table = [] ∧
      ((ws.map (Entry.accepted (σ := σ) name)).map Entry.ended).sum = 0 ∧
      ((ws.map (Entry.accepted (σ := σ) name)).map Entry.started).sum = 0 :=
  answers (fun _ => rfl) (fun _ => ⟨rfl, rfl, rfl⟩) ws

theorem respond_answered (texts : Texts) (called : Bool) (ws : List Written) (c : Served) :
    (c.respond texts called ws).answered = c.answered ++ ws.map (Written.shown texts) ∧
      (c.respond texts called ws).log = c.log := by
  unfold Served.respond
  dsimp only
  induction ws generalizing c with
  | nil => exact ⟨(List.append_nil _).symm, rfl⟩
  | cons answer ws ih =>
      obtain ⟨answered, log⟩ :=
        ih { c with toWriter := c.toWriter.respond (texts.encode answer.json) }
      refine ⟨?_, log⟩
      rw [List.foldl_cons, answered, Writer.respond, List.map_cons, List.append_assoc]
      rfl

/-- The refusals of the messages dropped, after what went before. -/
theorem drops (limits : SocketLimits) {es : List (Entry σ)} {x : Reading σ} {c₀ c₁ : Served}
    (books : Books texts c₀ c₁ es) (dropped : c₁.dropped = c₀.dropped + x.drops)
    (answered : c₁.answeredDrops = c₀.answeredDrops) :
    Books texts c₀ (c₁.answerDrops limits texts)
      (es ++ (c₀.refusals limits texts x).map .refused) := by
  obtain ⟨written, table, ended, started⟩ := refused (σ := σ) (c₀.refusals limits texts x)
  obtain ⟨more, log⟩ := respond_answered texts false (c₀.refusals limits texts x) c₁
  have same : c₁.answerDrops limits texts =
      { c₁.respond texts false (c₀.refusals limits texts x) with
        answeredDrops := max c₁.answeredDrops c₁.dropped } := by
    rw [Served.answerDrops, Served.refusals, dropped, answered]
  rw [same]
  refine ⟨?_, ?_, ?_, ?_, ?_⟩
  · rw [List.flatMap_append, written, List.map_append, ← List.append_assoc, ← books.answered]
    exact more
  · exact log ▸ books.log
  · rw [List.flatMap_append, books.table, table, List.nil_append]
  · rw [List.map_append, List.map_append, List.sum_append, List.sum_append, ended, started]
    exact books.tasks
  · exact fun kept => Served.respond_kept texts false _ (books.kept kept)

/-- A message read against what it does. -/
theorem message {x : Reading σ} {m : Inbound} (messaged : c.message texts x m = .ok c') :
    Books texts c c' [.message ⟨m, x.router, x.server, c.free⟩] := by
  have parts : ∀ {b ws n k}, x.router.begin c.free m x.server = .ok b → b.tally = (ws, n, k) →
      ([.message ⟨m, x.router, x.server, c.free⟩] : List (Entry σ)).flatMap Entry.written = ws ∧
      (([.message ⟨m, x.router, x.server, c.free⟩] : List (Entry σ)).map Entry.started).sum = n := by
    intro b ws n k begun same
    cases (Router.effects_begin begun).trans same
    exact ⟨List.append_nil _, rfl⟩
  cases Served.messaged texts messaged with
  | @answers called ws begun =>
      obtain ⟨written, started⟩ := parts begun rfl
      obtain ⟨answered, log⟩ := respond_answered texts called ws { c with
        lastIn := x.now, lastBusy := if called then x.now else c.lastBusy }
      refine ⟨by rw [written]; exact answered, ?_, rfl, by rw [started]; rfl, ?_⟩
      · rw [log]
      · exact fun kept => Served.respond_kept texts called ws kept
  | accepting begun =>
      obtain ⟨written, started⟩ := parts begun rfl
      exact ⟨by rw [written]; simp, List.prefix_rfl, rfl, by rw [started]; rfl, id⟩
  | task begun =>
      obtain ⟨written, started⟩ := parts begun rfl
      refine ⟨by rw [written]; simp, List.prefix_rfl, rfl, ?_, id⟩
      rw [started]
      simp [Entry.ended]

theorem happen {h : Happening} (happened : c.happen limits h = some c') :
    Books texts c c' (c.entries limits texts (.happen h) : List (Entry σ)) := by
  cases h with
  | arrive a =>
      simp only [Served.happen, Option.ite_none_right_eq_some, Option.some.injEq] at happened
      obtain ⟨-, rfl⟩ := happened
      exact still (Grows.arrive c.toWriter a) rfl fun kept => kept.arrive a
  | resolve name rp =>
      cases happened
      exact still (Grows.refl _) rfl id
  | finish i =>
      simp only [Served.happen, Option.ite_none_right_eq_some, Option.some.injEq] at happened
      obtain ⟨within, rfl⟩ := happened
      refine ⟨(List.append_nil _).symm, List.prefix_rfl, rfl, ?_, id⟩
      have fewer := List.length_eraseIdx_add_one within
      simpa [Served.entries, Entry.ended, Entry.started] using fewer
  | permitTaken | permitBack | frame time =>
      simp only [Served.happen, Option.ite_none_right_eq_some, Option.some.injEq] at happened
      obtain ⟨-, rfl⟩ := happened
      exact still (Grows.refl _) rfl id

theorem wake (w : Wakeup) (c : Served) :
    Books texts c (c.wake limits w) ([] : List (Entry σ)) := by
  have woke := Served.wakes limits w c
  generalize c.wake limits w = d at woke
  cases woke with
  | stopped | closed | silent | idles => exact still (Grows.refl _) rfl id
  | goes kept =>
      refine still ?_ rfl fun kept => ?_
      · dsimp only
        split
        · exact ⟨rfl, List.prefix_rfl⟩
        · exact Grows.refl _
      · dsimp only
        split
        · exact kept.pushPing
        · exact kept

theorem accept (c : Served) :
    Books texts c { c.pollAccepting texts with phase := .reading }
      (c.entries limits texts .accept : List (Entry σ)) := by
  have all : ∀ as : List Acceptance,
      let es : List (Entry σ) :=
        as.flatMap fun a => (a.got.toList.flatMap Conn.respond).map (.accepted a.name)
      es.flatMap Entry.written = (as.filterMap (·.got)).flatMap Conn.respond ∧
        es.flatMap Entry.table = [] ∧ (es.map Entry.ended).sum = 0 ∧
        (es.map Entry.started).sum = 0 := by
    intro as
    induction as with
    | nil => exact ⟨rfl, rfl, rfl, rfl⟩
    | cons a as ih =>
        obtain ⟨written, table, ended, started⟩ := ih
        obtain ⟨one, none, ends, starts⟩ := accepted (σ := σ) a.name
          (a.got.toList.flatMap Conn.respond)
        simp only [List.flatMap_cons, List.flatMap_append, List.map_append, List.sum_append,
          written, table, ended, started, one, none, ends, starts, and_true, List.append_nil,
          Nat.add_zero]
        cases got : a.got <;> simp [got]
  obtain ⟨written, table, ended, started⟩ := all c.accepting
  obtain ⟨answered, log⟩ := respond_answered texts true
    ((c.accepting.filterMap (·.got)).flatMap Conn.respond) c
  refine ⟨?_, ?_, table, ?_, fun kept => Served.respond_kept texts true _ kept⟩
  · rw [Served.entries, written]
    exact answered
  · exact log ▸ List.prefix_rfl
  · rw [Served.entries, ended, started]
    rfl

theorem message_drops {x : Reading σ} {m : Inbound} (messaged : c.message texts x m = .ok c') :
    c'.dropped = c.dropped ∧ c'.answeredDrops = c.answeredDrops ∧
      ∃ b, x.router.begin c.free m x.server = .ok b := by
  cases Served.messaged texts messaged with
  | answers begun | accepting begun | task begun => exact ⟨rfl, rfl, _, begun⟩

theorem read {x : Reading σ} (c : Served) :
    Books texts c (c.pollNext limits texts x) (c.entries limits texts (.read x)) := by
  have polled := Served.polls limits texts x c
  generalize c.pollNext limits texts x = d at polled ⊢
  unfold Served.entries
  dsimp only
  cases polled with
  | stopped closed =>
      rw [if_neg closed]
      exact still (Grows.refl _) rfl id
  | @ends m e gate read messaged =>
      rw [if_pos gate, read]
      cases Router.begin_error (Served.message_error texts messaged)
      exact ⟨(List.append_nil _).symm, List.prefix_rfl, rfl, rfl, id⟩
  | @takes m c₁ gate read messaged =>
      rw [if_pos gate, read]
      have books := message messaged
      obtain ⟨dropped, answered, b, begun⟩ := message_drops messaged
      have before : Books texts c c₁ [.message ⟨m, x.router, x.server, c.free⟩] := { books with }
      dsimp only at begun ⊢
      rw [begun]
      exact { drops limits before dropped answered with }
  | failed gate read | gone gate read =>
      rw [if_pos gate, read]
      exact still (Grows.refl _) rfl id
  | pending gate read =>
      rw [if_pos gate, read]
      have before : Books texts c { c with clock := x.now, dropped := c.dropped + x.drops }
          ([] : List (Entry σ)) := still (Grows.refl _) rfl id
      exact { drops limits before rfl rfl with }

theorem write {passes : List Pass} {flush : Polled}
    (written : c.write limits passes flush = some c') :
    Books texts c c' ([] : List (Entry σ)) := by
  have grows := Grows.pollWrite passes flush c.toWriter
  have keeps := fun kept => pollWrite_wrote passes flush (w := c.toWriter) kept
  cases Served.writes limits written with
  | lost gone => exact still (Grows.refl _) rfl id
  | rests said wrote | shares said wrote | goes said wrote =>
      rw [wrote] at grows keeps
      exact still grows rfl fun kept => (keeps kept).kept

theorem step {a : Act σ} (stepped : c.step limits texts a = some c') :
    Books texts c c' (c.entries limits texts a) := by
  cases Served.steps limits texts stepped with
  | happen going happened => exact happen happened
  | wake phase later => exact wake _ c
  | accept phase => exact accept c
  | read phase made => exact read c
  | write phase written => exact write written

end Books

/-- The ledger is the loop's: what it says was written and sent was, and its tasks run. -/
structure Coupled (texts : Texts) (d : Dispatched σ) : Prop where
  kept : Kept d.served.toWriter
  answered : d.served.answered = d.ledger.written.map (Written.shown texts)
  table : d.served.log.filterMap Arrival.table? = d.ledger.table texts
  tasks : d.served.running.length = d.ledger.tasks.length

namespace Dispatched

variable {limits : SocketLimits} {texts : Texts} {input : List Inbound} {d d' : Dispatched σ}

/-- A step and the ledger's entries of it. -/
inductive Steps (limits : SocketLimits) (texts : Texts) (input : List Inbound)
    (d : Dispatched σ) : Move σ → Dispatched σ → Prop where
  | loop {a c senders l} (stepped : d.served.step limits texts a = some c)
      (all : senders.length = (d.served.sentSince c).length)
      (ran : (Ledger.machine texts input).runFrom d.ledger (d.served.entries limits texts a ++
        List.zipWith Sender.entry (d.served.sentSince c) senders) = some l) :
      Steps limits texts input d (.loop a senders) ⟨c, l⟩
  | resolve {i b l} (entered : d.ledger.step texts (.resolved i b) = some l) :
      Steps limits texts input d (.resolve i b) ⟨d.served, l⟩
  | batched {i kind req l} (entered : d.ledger.step texts (.batched i kind req) = some l) :
      Steps limits texts input d (.batched i kind req) ⟨d.served, l⟩

theorem steps {m : Move σ} (stepped : d.step limits texts input m = some d') :
    Steps limits texts input d m d' := by
  cases m with
  | loop a senders =>
      obtain ⟨c, served, entered⟩ := Option.bind_eq_some_iff.mp stepped
      obtain ⟨all, entered⟩ := Option.ite_none_right_eq_some.mp entered
      obtain ⟨l, ran, rfl⟩ := Option.map_eq_some_iff.mp entered
      exact .loop served all ran
  | resolve i b =>
      obtain ⟨l, entered, rfl⟩ := Option.map_eq_some_iff.mp stepped
      exact .resolve entered
  | batched i kind req =>
      obtain ⟨l, entered, rfl⟩ := Option.map_eq_some_iff.mp stepped
      exact .batched entered

theorem entries_cases {c : Served} {a : Act σ} {e : Entry σ}
    (mem : e ∈ c.entries limits texts a) :
    (∃ x m, a = .read x ∧ e = .message ⟨m, x.router, x.server, c.free⟩) ∨ ∀ l, e.Lawful l := by
  have refused : ∀ ws : List Written, e ∈ ws.map .refused → ∀ l, e.Lawful l := by
    intro ws mem l
    obtain ⟨w, -, rfl⟩ := List.mem_map.mp mem
    trivial
  cases a with
  | read x =>
      simp only [Served.entries] at mem
      split at mem
      · split at mem
        · rename_i m read
          obtain rfl | mem := List.mem_cons.mp mem
          · exact .inl ⟨x, m, rfl, rfl⟩
          · split at mem
            · cases mem
            · exact .inr (refused _ mem)
        · exact .inr (refused _ mem)
        · cases mem
        · cases mem
      · cases mem
  | accept =>
      obtain ⟨a, -, mem⟩ := List.mem_flatMap.mp mem
      obtain ⟨w, -, rfl⟩ := List.mem_map.mp mem
      exact .inr fun _ => trivial
  | happen h =>
      cases h with
      | finish i =>
          cases List.mem_singleton.mp mem
          exact .inr fun _ => trivial
      | arrive a | resolve name rp | permitTaken | permitBack | frame time => cases mem
  | wake w | write passes flush => cases mem

/-- What is relied on of a step is what is relied on of each of its entries. -/
theorem entries_lawful {a : Act σ} {senders : List Sender} {raws : List Bytes}
    (lawful : Lawful d (.loop a senders)) :
    ∀ e ∈ d.served.entries limits texts a ++ List.zipWith Sender.entry raws senders,
      ∀ l, e.Lawful l := by
  intro e mem l
  obtain mem | mem := List.mem_append.mp mem
  · obtain ⟨x, m, rfl, rfl⟩ | lawful := entries_cases mem
    · exact lawful
    · exact lawful l
  · obtain ⟨i, within, rfl⟩ := List.mem_iff_getElem.mp mem
    have any : ∀ raw (sender : Sender), (sender.entry raw : Entry σ).Lawful l := by
      intro raw sender
      cases sender <;> trivial
    rw [List.getElem_zipWith]
    exact any _ _

/-- The induction rule for the ledger, an entry at a time. -/
theorem ledger_keeps {I : Ledger σ → Prop}
    (keeps : ∀ l e l', I l → e.Lawful l → l.step texts e = some l' → I l')
    {m : Move σ} (here : I d.ledger) (lawful : Lawful d m)
    (stepped : d.step limits texts input m = some d') : I d'.ledger := by
  cases steps stepped with
  | loop stepped all ran =>
      refine Machine.runFrom_keeps ?_ (Machine.allows_of_mem (entries_lawful lawful)) ran here
      exact fun l e l' here lawful => keeps l e l' here lawful
  | resolve entered => exact keeps _ (.resolved _ _) _ here lawful entered
  | batched entered => exact keeps _ (.batched _ _ _) _ here trivial entered

theorem sends {raws : List Bytes} {senders : List Sender} (all : senders.length = raws.length) :
    (List.zipWith (Sender.entry (σ := σ)) raws senders).flatMap Entry.written = [] ∧
      (List.zipWith (Sender.entry (σ := σ)) raws senders).flatMap Entry.table = raws ∧
      ((List.zipWith (Sender.entry (σ := σ)) raws senders).map Entry.ended).sum = 0 ∧
      ((List.zipWith (Sender.entry (σ := σ)) raws senders).map Entry.started).sum = 0 := by
  induction raws generalizing senders with
  | nil => exact ⟨rfl, rfl, rfl, rfl⟩
  | cons raw raws ih =>
      cases senders with
      | nil => cases all
      | cons sender senders =>
          obtain ⟨written, table, ended, started⟩ := ih (Nat.succ.inj all)
          simp only [List.zipWith_cons_cons, List.flatMap_cons, List.map_cons, List.sum_cons,
            written, table, ended, started]
          cases sender <;> exact ⟨rfl, rfl, rfl, rfl⟩

theorem step_coupled {m : Move σ} (plain : ∀ m ∈ input, m.isBatch = false)
    (traced : Traced input d.ledger) (coupled : Coupled texts d)
    (stepped : d.step limits texts input m = some d') : Coupled texts d' := by
  cases steps stepped with
  | @loop a c senders l served all ran =>
      have books := Books.step (σ := σ) served
      obtain ⟨written, table, tasks⟩ := run_books plain traced ran
      obtain ⟨unwritten, sent, ended, started⟩ := sends (σ := σ) all
      rw [List.flatMap_append, unwritten, List.append_nil] at written
      rw [List.flatMap_append, books.table, sent, List.nil_append] at table
      simp only [List.map_append, List.sum_append, ended, started, Nat.add_zero] at tasks
      refine ⟨books.kept coupled.kept, ?_, ?_, ?_⟩
      · rw [books.answered, coupled.answered, written, List.map_append]
      · obtain ⟨more, log⟩ := books.log
        rw [table, ← coupled.table, ← log, List.filterMap_append, Served.sentSince, ← log,
          List.drop_left]
      · have counts := books.tasks
        have before := coupled.tasks
        change c.running.length = l.tasks.length
        change l.tasks.length + _ = _ at tasks
        omega
  | resolve entered | batched entered =>
      obtain ⟨written, table, tasks⟩ := step_books plain traced entered
      refine ⟨coupled.kept, ?_, ?_, coupled.tasks.trans ?_⟩
      · rw [written]
        exact coupled.answered.trans (by simp [Entry.written])
      · rw [table]
        exact coupled.table.trans (by simp [Entry.table])
      · simpa [Entry.ended, Entry.started] using tasks.symm

/-- What every run keeps. -/
structure Follows (texts : Texts) (input : List Inbound) (d : Dispatched σ) : Prop where
  traced : Traced input d.ledger
  accounts : Accounts texts d.ledger
  coupled : Coupled texts d

theorem step_follows {m : Move σ} (plain : ∀ m ∈ input, m.isBatch = false)
    (follows : Follows texts input d) (lawful : Lawful d m)
    (stepped : d.step limits texts input m = some d') : Follows texts input d' := by
  have both : Traced input d'.ledger ∧ Accounts texts d'.ledger := by
    refine ledger_keeps (I := fun l => Traced input l ∧ Accounts texts l) ?_
      ⟨follows.traced, follows.accounts⟩ lawful stepped
    intro l e l' ⟨traced, accounts⟩ lawful stepped
    exact ⟨traced.step plain stepped, accounts.step plain traced lawful stepped⟩
  exact ⟨both.1, both.2, step_coupled plain follows.traced follows.coupled stepped⟩

theorem new_follows (limits : SocketLimits) (texts : Texts) (input : List Inbound) (now : Nat) :
    Follows texts input (new limits input now : Dispatched σ) := by
  refine ⟨⟨rfl, rfl, rfl, ?_, ?_, ?_, ?_⟩, ⟨?_, ?_, ?_, ?_⟩, ?_⟩
  · intro d mem
    cases mem
  · intro t mem
    cases mem
  · intro k mem
    cases mem
  · intro k a here
    cases here
  · intro a mem
    cases mem
  · intro t mem
    cases mem
  · intro k req owed
    cases owed
  · intro k req owed
    cases owed
  · exact ⟨(Served.new_awake limits now).kept, rfl, rfl, rfl⟩

theorem run_follows {now : Nat} {moves : List (Move σ)} (plain : ∀ m ∈ input, m.isBatch = false)
    (ran : (machine limits texts input now).run moves = some d)
    (lawful : (machine limits texts input now).Allows Lawful (new limits input now) moves) :
    Follows texts input d := by
  refine Machine.runFrom_keeps (I := Follows texts input) ?_ lawful ran
    (new_follows limits texts input now)
  exact fun _ _ _ follows lawful stepped => step_follows plain follows lawful stepped

end Dispatched

/-- The hook sees each message once, in the order they came and before anything else is done
    for it, and alone if it takes it; each call that neither it nor an open input takes has
    its callback invoked once, in the order they came; and with no task left and the queues
    empty each call that is to be answered has been written one frame, which bears its id. -/
theorem dispatch_order (limits : SocketLimits) (texts : Texts) (now : Nat) (input : List Inbound)
    (plain : ∀ m ∈ input, m.isBatch = false) (moves : List (Move σ)) (d : Dispatched σ)
    (ran : (Dispatched.machine limits texts input now).run moves = some d)
    (lawful : (Dispatched.machine limits texts input now).Allows Lawful
      (Dispatched.new limits input now) moves) :
    d.ledger.messages.map (·.inbound) ++ d.ledger.unread = input ∧
    d.ledger.told Effect.seen? = d.ledger.asked Arrived.seen? ∧
    (∀ (k : Nat) (a : Arrived σ) hook data, d.ledger.messages[k]? = some a →
      a.router.hook = some hook → a.inbound.data? = some data →
      ∃ later, d.ledger.of k = .onFrame data (hook data) :: later ∧
        (hook data = true → later = [])) ∧
    d.ledger.told Effect.invoked? = d.ledger.asked Arrived.due? ∧
    ((∀ e, d.served.phase ≠ .ended e) → d.served.running = [] → d.served.out = [] →
      d.served.table = [] →
      d.served.handed.filterMap Taken.answer? = d.ledger.written.map (Written.shown texts) ∧
      d.served.handed.filterMap Taken.table? = d.ledger.table texts ∧
      ∀ k req, d.ledger.owed? k = some req →
        ∃ raw, d.ledger.frames texts k = [raw] ∧ Arrived.Bears texts req raw) := by
  obtain ⟨traced, accounts, coupled⟩ := Dispatched.run_follows plain ran lawful
  refine ⟨traced.read, traced.seen, ?_, traced.invoked, ?_⟩
  · intro k a hook data here hooks carries
    obtain ⟨later, whole, lasts⟩ := traced.front k a here
    obtain ⟨es, first⟩ := Arrived.hook_first hooks carries
    rw [first, List.cons_append] at whole
    refine ⟨_, whole, fun took => ?_⟩
    rw [took, if_pos rfl] at first ⊢
    obtain rfl | spawned | awaits := lasts
    · rfl
    · rw [first] at spawned
      exact absurd rfl spawned
    · rw [first] at awaits
      cases awaits
  · intro _ running out table
    have waiting := coupled.kept.waiting
    refine ⟨?_, ?_, ?_⟩
    · have answers := waiting.answers
      rw [out, List.filter_nil, List.append_nil] at answers
      exact answers.symm.trans coupled.answered
    · have sent := waiting.table
      rw [table, List.append_nil] at sent
      exact sent.symm.trans coupled.table
    · intro k req owed
      have none : d.ledger.tasks = [] := by
        rw [← List.length_eq_zero_iff, ← coupled.tasks, running, List.length_nil]
      exact accounts.settled none owed

section Runs

theorem reading_answering (size : Nat) (texts : List (List UInt8 × Json)) :
    (reading size texts).dispatch.Answering := by
  intro name cb registered id params s
  simp only [reading] at registered
  split at registered
  · obtain same | same := registered
    · cases same
      exact ⟨rfl, rfl⟩
    · cases same
  · obtain same | same := registered <;> cases same

/-- A loop sent this text, with a hook that takes only a lone brace. -/
def hooking (text : Bytes) (e : Json) : Router Unit :=
  { readingOne 35 text e with hook := some fun data => data == [0x7b] }

theorem hooking_answering (text : Bytes) (e : Json) : (hooking text e).dispatch.Answering :=
  reading_answering 35 [(text, e), (bracketed text, .arr [e])]

/-- One wakeup in which these messages are read, each answered at once. -/
def readingRun (r : Router Unit) (ms : List Inbound) : List (Move Unit) :=
  let pass : Pass := ⟨.ready, fun _ => ⟨[], false⟩, true⟩
  .loop (.wake ⟨0, false, false, false, false, false⟩) [] ::
    ms.flatMap fun m =>
      [.loop .accept [], .loop (.read ⟨0, r, (), 0, [], .message m⟩) [],
        .loop (.write [pass, pass] .ready) []]

theorem readingRun_lawful {r : Router Unit} (answering : r.dispatch.Answering) (ms : List Inbound) :
    ∀ m ∈ readingRun r ms, ∀ d, Lawful d m := by
  intro m mem d
  simp only [readingRun, List.mem_cons, List.mem_flatMap] at mem
  obtain rfl | ⟨_, -, rfl | rfl | rfl | mem⟩ := mem
  · trivial
  · trivial
  · exact answering
  · trivial
  · cases mem

/-- Where this run of one wakeup comes to. -/
def readEnd (r : Router Unit) (ms : List Inbound) : Dispatched Unit :=
  ((Dispatched.machine roomy blank ms 0).run (readingRun r ms)).getD (Dispatched.new roomy ms 0)

theorem readEnd_run (r : Router Unit) (ms : List Inbound)
    (reaches : ((Dispatched.machine roomy blank ms 0).run (readingRun r ms)).isSome = true) :
    (Dispatched.machine roomy blank ms 0).run (readingRun r ms) = some (readEnd r ms) := by
  obtain ⟨d, ran⟩ := Option.isSome_iff_exists.mp reaches
  rw [readEnd, ran, Option.getD_some]

/-- A message the hook takes, then a call. -/
def once : List Inbound := [.text [0x7b], .text callText]

def onceCall : Request := ⟨.number 5, "m", none⟩

theorem dispatch_order_once :
    let d := readEnd (hooking callText callJson) once
    (Dispatched.machine roomy blank once 0).run (readingRun (hooking callText callJson) once) =
        some d ∧
      d.ledger.of 0 = [.onFrame [0x7b] true] ∧
      d.ledger.told Effect.invoked? = [(1, .sync, onceCall)] ∧
      ∃ raw, d.ledger.frames blank 1 = [raw] ∧ Arrived.Bears blank onceCall raw := by
  intro d
  have ran := readEnd_run (hooking callText callJson) once (by decide +kernel)
  have answering := hooking_answering callText callJson
  obtain ⟨-, -, hooks, invoked, answered⟩ := dispatch_order roomy blank 0 once
    (by decide +kernel) _ d ran (Machine.allows_of_mem (readingRun_lawful answering once))
  have taken : d.ledger.messages[0]? =
      some ⟨.text [0x7b], hooking callText callJson, (), 1024⟩ := rfl
  have asked : d.ledger.asked Arrived.due? = [(1, .sync, onceCall)] := rfl
  have owed : d.ledger.owed? 1 = some onceCall := rfl
  refine ⟨ran, ?_, invoked.trans asked, ?_⟩
  · obtain ⟨later, whole, alone⟩ := hooks 0 _ _ _ taken rfl rfl
    rw [whole, alone rfl]
    rfl
  · have writes : d.served.phase = .accepting := by decide +kernel
    obtain ⟨-, -, frames⟩ := answered (by simp [writes]) (by decide +kernel) (by decide +kernel)
      (by decide +kernel)
    exact frames 1 _ owed

/-- A call that 128 blanks lead. -/
def far : List Inbound := [.text (List.replicate 128 32 ++ callText)]

/-- Its callback is not invoked. -/
theorem dispatch_far :
    ¬∀ (limits : SocketLimits) (texts : Texts) (now : Nat) (input : List Inbound),
      (∀ m ∈ input, m.isBatch = false) → ∀ (moves : List (Move Unit)) (d : Dispatched Unit),
      (Dispatched.machine limits texts input now).run moves = some d →
      (Dispatched.machine limits texts input now).Allows Lawful
        (Dispatched.new limits input now) moves →
      d.ledger.told Effect.invoked? =
        d.ledger.asked fun a => a.call?.bind (a.router.dispatch.callback? a.free) := by
  intro invoked
  have answering := hooking_answering callText callJson
  have ran := readEnd_run (hooking callText callJson) far (by decide +kernel)
  have same := invoked roomy blank 0 far (by decide +kernel) _ _ ran
    (Machine.allows_of_mem (readingRun_lawful answering far))
  have none : ((readEnd (hooking callText callJson) far).ledger.told
      Effect.invoked?).length = 0 := by decide +kernel
  have one : ((readEnd (hooking callText callJson) far).ledger.asked fun a =>
      a.call?.bind (a.router.dispatch.callback? a.free)).length = 1 := by decide +kernel
  rw [same, one] at none
  cases none

end Runs

end PlexusTransport.Ws.Conn
