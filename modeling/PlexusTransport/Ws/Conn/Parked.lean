import PlexusTransport.Ws.Conn.Wake

/-! # Nothing is left behind

Parked without having woken its own task, the loop waits for all that could move: what it
has not found empty has answered `Pending`.
-/

namespace PlexusTransport.Ws.Conn

/-- What the socket's write side answers. -/
def Heard.socket? : Heard → Option Polled
  | .ready p | .flush p => some p
  | _ => none

/-- The write side last answered `Pending`. -/
def Backed (heard : List Heard) : Prop :=
  (heard.filterMap Heard.socket?).getLast? = some .pending

theorem Backed.after {heard : List Heard} (backed : Backed heard) {before : List Heard} :
    Backed (before ++ heard) := by
  unfold Backed at *
  rw [List.filterMap_append, List.getLast?_append, backed]
  rfl

/-- Found empty, or this side's own with no one left to fill it. -/
def FoundEmpty (w : Writer) (heard : List Heard) (q : Queue) : Prop :=
  .queue q 0 ∈ heard ∨ q = .own ∧ w.ownOpen = false

/-- Nothing was there to write. -/
structure Emptied (w : Writer) (heard : List Heard) : Prop where
  out : .out 0 ∈ heard
  fenced : .fenced false ∈ heard
  queues : ∀ q, FoundEmpty w heard q
  closed : w.ownOpen = false → w.ownGone = true ∧ w.own = []
  flushed : w.unflushed = false

/-- Everything that could move is waited for. -/
structure Waits (c : Served) : Prop where
  accepting : ∀ a ∈ c.accepting, .acceptance a.name ∈ c.heard
  reading : .read ∈ c.heard ∨ outHigh ≤ c.out.length ∧ Backed c.heard
  writing : Emptied c.toWriter c.heard ∨ Backed c.heard

section Writing

variable {w w' : Writer}

theorem turns_all (k : Nat) (q : Queue) : ∃ i ∈ [0, 1, 2], Writer.turns (k + i) = q := by
  have small := Nat.mod_lt k (show 0 < 3 by omega)
  have cases3 : k % 3 = 0 ∨ k % 3 = 1 ∨ k % 3 = 2 := by omega
  unfold Writer.turns
  rcases cases3 with here | here | here <;> cases q <;> simp [Nat.add_mod, here]

theorem poll_turn (q : Queue) (spent : Bool) (w : Writer) :
    (Writer.poll q spent w).2.turn = w.turn := by
  have polled := w.polling q spent
  generalize Writer.poll q spent w = p at polled ⊢
  cases polled <;> rfl

/-- A poll within the budget that gives nothing found nothing. -/
theorem poll_nothing {q : Queue} (opened : q = .own → w.ownOpen = true)
    (polled : Writer.poll q false w = (.nothing, w')) : w.waiting q = 0 := by
  have came := w.polling q false
  rw [polled] at came
  cases came with
  | shut _ closed =>
      rw [opened rfl] at closed
      cases closed
  | ownEmpty _ empty | tableEmpty empty | framesEmpty empty => simp [Writer.waiting, empty]

theorem poll_closed (q : Queue) (spent : Bool) (closed : w.ownOpen = false) :
    (Writer.poll q spent w).2.ownOpen = false := by
  have polled := w.polling q spent
  generalize Writer.poll q spent w = p at polled ⊢
  cases polled with
  | ownEmpty opened =>
      rw [closed] at opened
      cases opened
  | _ => exact closed

theorem byTurns_closed (gaps : Nat → Gap) (is : List Nat) (closed : w.ownOpen = false) :
    (w.byTurns gaps is).2.ownOpen = false :=
  Writer.byTurns_keeps (I := fun u => u.ownOpen = false)
    (fun u a closed => (u.arrive_ownOpen a).trans closed) (fun q spent _ => poll_closed q spent)
    (fun _ _ closed => closed) gaps is closed

/-- A round within the budget that gives nothing found every queue empty. -/
theorem byTurns_emptied {gaps : Nat → Gap} {is : List Nat}
    (round : w.byTurns gaps is = (.nothing, w')) (awake : .spent ∉ w.byTurnsHeard gaps is) :
    ∀ i ∈ is, FoundEmpty w' (w.byTurnsHeard gaps is) (Writer.turns (w.turn + i)) := by
  induction is generalizing w with
  | nil => exact nofun
  | cons i is ih =>
      have turn := (poll_turn (Writer.turns (w.turn + i)) (gaps i).spent _).trans
        (w.meanwhile_turn (gaps i))
      unfold Writer.byTurns at round
      unfold Writer.byTurnsHeard at awake ⊢
      cases polled : Writer.poll (Writer.turns (w.turn + i)) (gaps i).spent (w.meanwhile (gaps i)) with
      | mk got w₁ =>
          rw [polled] at turn
          simp only [polled] at round awake ⊢
          cases got with
          | taken t | fence bytes => cases round
          | nothing =>
              dsimp only at *
              rw [List.mem_cons, not_or] at awake
              have later := ih round awake.2
              intro j mem
              rcases List.mem_cons.mp mem with rfl | mem
              · by_cases closed : Writer.turns (w.turn + j) = .own ∧ (w.meanwhile (gaps j)).ownOpen = false
                · have closed₁ := poll_closed (Writer.turns (w.turn + j)) (gaps j).spent closed.2
                  rw [polled] at closed₁
                  have closed₂ := byTurns_closed gaps is closed₁
                  rw [round] at closed₂
                  exact .inr ⟨closed.1, closed₂⟩
                · rw [if_neg closed] at awake ⊢
                  cases spent : (gaps j).spent with
                  | true => simp [spent] at awake
                  | false =>
                      rw [spent] at polled
                      have empty := poll_nothing (fun own => by simpa [own] using closed) polled
                      rw [if_neg Bool.false_ne_true, empty]
                      exact .inl (.head _)
              · rw [← turn]
                rcases later j mem with found | closed
                · exact .inl (.tail _ found)
                · exact .inr closed

/-- All that `next_out` finds when it gives nothing. -/
theorem nextOut_nothing {gaps : Nat → Gap} (next : w.nextOut gaps = (none, w'))
    (awake : .spent ∉ w.nextOutHeard gaps) :
    .out 0 ∈ w.nextOutHeard gaps ∧ .fenced false ∈ w.nextOutHeard gaps ∧
      ∀ q, FoundEmpty w' (w.nextOutHeard gaps) q := by
  unfold Writer.nextOut at next
  unfold Writer.nextOutHeard at awake ⊢
  cases out : w.out with
  | cons m rest => simp [out] at next
  | nil =>
      simp only [out] at next awake ⊢
      cases fenced : w.fenced with
      | some bytes =>
          simp only [fenced] at next
          cases congrArg Prod.fst next
      | none =>
          simp only [fenced] at next awake ⊢
          cases round : w.byTurns gaps [0, 1, 2] with
          | mk got w₁ =>
              rw [round] at next
              cases got with
              | taken t => cases next
              | fence bytes => cases next
              | nothing =>
                  cases next
                  have emptied := byTurns_emptied round (by simp_all)
                  refine ⟨.head _, .tail _ (.head _), fun q => ?_⟩
                  obtain ⟨i, mem, rfl⟩ := turns_all w.turn q
                  rcases emptied i mem with found | closed
                  · exact .inl (.tail _ (.tail _ found))
                  · exact .inr closed

/-- Once a frame has been handed, something moved. -/
theorem gathered_moved {passes : List Pass} {p : Option Bool × Writer}
    (gathered : Writer.Gathered passes true w p) : p.1 ≠ some false := by
  generalize moved : true = m at gathered
  induction gathered with
  | done | full | pending | nothing => simp [← moved]
  | failed | lost => simp
  | taken under ready next takes later ih => exact ih rfl

/-- Bytes handed and not flushed are known of. -/
def Level (w : Writer) : Prop := w.unflushed = false → w.gathered = 0

/-- What the passes leave when nothing moves. -/
inductive Still (w : Writer) : Writer → List Heard → Prop where
  | full (spent : w.budget ≤ w.gathered) : Still w w []
  | backed : Still w w [.ready .pending]
  | emptied {w' heard} (same : w'.unflushed = w.unflushed) (none : w.out = [])
      (out : .out 0 ∈ heard) (fenced : .fenced false ∈ heard)
      (queues : ∀ q, FoundEmpty w' heard q) : Still w w' (.ready .ready :: heard)

theorem gather_still {passes : List Pass} {heard : List Heard}
    (said : w.gatherHeard passes = some heard) (gathered : w.gather passes false = (some false, w'))
    (awake : .spent ∉ heard) : Still w w' heard := by
  have came := w.gathers passes false
  rw [gathered] at came
  cases came with
  | done =>
      unfold Writer.gatherHeard at said
      split at said
      · cases said
      · cases said
        exact .full (by omega)
  | full full =>
      simp only [Writer.gatherHeard, if_neg (Nat.not_lt_of_le full)] at said
      cases said
      exact .full full
  | pending under ready =>
      simp only [Writer.gatherHeard, if_pos under, ready] at said
      cases said
      exact .backed
  | @nothing pass _ _ _ _ under ready next =>
      simp only [Writer.gatherHeard, if_pos under, ready, next] at said
      cases said
      have same := w.nextOut_outer pass.gaps
      rw [next] at same
      rw [List.mem_cons, not_or] at awake
      obtain ⟨out, fenced, queues⟩ := nextOut_nothing next awake.2
      have none : w.out = [] := by
        cases out : w.out with
        | nil => rfl
        | cons m rest => simp [Writer.nextOut, out] at next
      exact .emptied (congrArg (·.2.2.1) same) none out fenced queues
  | taken under ready next takes later => exact absurd rfl (gathered_moved later)

/-- A write that moves nothing has the socket to wait for, or nothing to write. -/
theorem pollWrite_still {passes : List Pass} {flush : Polled} {heard : List Heard} (level : Level w)
    (budget : 0 < w.budget) (said : w.writeHeard passes flush = some heard)
    (wrote : w.pollWrite passes flush = (some false, w')) (awake : .spent ∉ heard) :
    Backed heard ∧ (w.out ≠ [] → w'.out = w.out) ∨
      w.out = [] ∧ w'.unflushed = false ∧ .out 0 ∈ heard ∧ .fenced false ∈ heard ∧
        ∀ q, FoundEmpty w' heard q := by
  unfold Writer.writeHeard at said
  obtain ⟨passed, gatherSaid, rfl⟩ := Option.map_eq_some_iff.mp said
  have settled := w.settles passes flush
  rw [wrote] at settled
  generalize gathered : w.gather passes false = p at settled awake ⊢
  cases settled with
  | level flushed =>
      simp only [flushed, Bool.false_eq_true, if_false, List.append_nil] at awake ⊢
      cases gather_still gatherSaid gathered awake with
      | full spent =>
          have none := level flushed
          omega
      | backed => exact .inl ⟨rfl, fun _ => rfl⟩
      | emptied same none out fenced queues =>
          refine .inr ⟨none, trivial, .tail _ out, .tail _ fenced, fun q => ?_⟩
          exact (queues q).imp_left (.tail _)
  | pending owed pending =>
      simp only [owed, if_true, pending, List.mem_append, not_or] at awake ⊢
      have still := gather_still gatherSaid gathered awake.1
      have backed : Backed (passed ++ [.flush .pending]) := by
        simp [Backed, Heard.socket?]
      cases still with
      | full | backed => exact .inl ⟨backed, fun _ => rfl⟩
      | emptied same none => exact .inl ⟨backed, fun filled => absurd none filled⟩

end Writing

section Levels

variable {w w' : Writer}

theorem level_outer (same : w'.outer = w.outer) (level : Level w) : Level w' := by
  have unflushed : w'.unflushed = w.unflushed := congrArg (·.2.2.1) same
  have gathered : w'.gathered = w.gathered := congrArg (·.2.1) same
  intro flushed
  rw [gathered]
  exact level (unflushed ▸ flushed)

theorem gathered_level {passes : List Pass} {moved : Bool} {p : Option Bool × Writer}
    (gathered : Writer.Gathered passes moved w p) (level : Level w) :
    p.1.isSome = true → Level p.2 ∧ p.2.budget = w.budget := by
  induction gathered with
  | done | full | pending => exact fun _ => ⟨level, rfl⟩
  | failed | lost => simp
  | @nothing pass _ _ w _ under ready next =>
      have same := w.nextOut_outer pass.gaps
      rw [next] at same
      exact fun _ => ⟨level_outer same level, congrArg (·.2.2.2) same⟩
  | @taken pass _ _ w _ _ _ under ready next takes later ih =>
      have same := w.nextOut_outer pass.gaps
      rw [next] at same
      intro going
      obtain ⟨level', budget⟩ := ih (by intro flushed; cases flushed) going
      exact ⟨level', budget.trans (congrArg (·.2.2.2) same)⟩

theorem gather_level (passes : List Pass) {moved m : Bool} (level : Level w)
    (gathered : w.gather passes moved = (some m, w')) : Level w' ∧ w'.budget = w.budget := by
  have came := gathered_level (w.gathers passes moved) level
  rw [gathered] at came
  exact came rfl

theorem pollWrite_level {passes : List Pass} {flush : Polled} {m : Bool} (level : Level w)
    (wrote : w.pollWrite passes flush = (some m, w')) : Level w' ∧ w'.budget = w.budget := by
  have settled := w.settles passes flush
  rw [wrote] at settled
  generalize gathered : w.gather passes false = p at settled
  cases settled with
  | level | pending => exact gather_level passes level gathered
  | flushed => exact ⟨fun _ => rfl, (gather_level passes level gathered).2⟩

end Levels

/-- What a wakeup keeps, phase by phase. -/
structure Awake (budget : Nat) (c : Served) : Prop where
  kept : Kept c.toWriter
  level : Level c.toWriter
  budget : c.budget = budget
  share : c.phase = .accepting ∨ c.phase = .reading → c.reads < readBudget
  accepted : c.phase = .reading ∨ c.phase = .writing → c.moved = false →
    ∀ a ∈ c.accepting, .acceptance a.name ∈ c.heard
  read : c.phase = .writing → c.moved = false → .read ∈ c.heard ∨ outHigh ≤ c.out.length
  parked : c.phase = .parked → c.woken = false → Waits c

namespace Served

variable {σ : Type} {limits : SocketLimits} {texts : Texts} {c c' : Served}

/-- What the wakeup is doing, and what it has heard. -/
def pass (c : Served) : Phase × Nat × Bool × Bool × List Heard :=
  (c.phase, c.reads, c.moved, c.woken, c.heard)

/-- Between the loop's own steps nothing it has heard goes out of date. -/
theorem awake_still {budget : Nat} (awake : Awake budget c) (kept : Kept c'.toWriter)
    (outer : c'.outer = c.outer) (pass : c'.pass = c.pass) (out : c'.out = c.out)
    (opened : c'.ownOpen = c.ownOpen)
    (names : ∀ a' ∈ c'.accepting, ∃ a ∈ c.accepting, a.name = a'.name) : Awake budget c' := by
  obtain ⟨phase, reads, moved, woken, heard⟩ : c'.phase = c.phase ∧ c'.reads = c.reads ∧
      c'.moved = c.moved ∧ c'.woken = c.woken ∧ c'.heard = c.heard := by
    simpa [Served.pass] using pass
  have flushed : c'.unflushed = c.unflushed := congrArg (·.2.2.1) outer
  refine ⟨kept, level_outer outer awake.level, (congrArg (·.2.2.2) outer).trans awake.budget,
    ?_, ?_, ?_, ?_⟩
  · rw [phase, reads]
    exact awake.share
  · rw [phase, moved, heard]
    intro later still a' mem
    obtain ⟨a, mem, same⟩ := names a' mem
    rw [← same]
    exact awake.accepted later still a mem
  · rw [phase, moved, heard, out]
    exact awake.read
  · rw [phase, woken]
    intro parked asleep
    have waits := awake.parked parked asleep
    refine ⟨?_, ?_, ?_⟩
    · intro a' mem
      obtain ⟨a, mem, same⟩ := names a' mem
      rw [← same, heard]
      exact waits.accepting a mem
    · rw [heard, out]
      exact waits.reading
    · rw [heard]
      refine waits.writing.imp_left fun emptied => ⟨emptied.out, emptied.fenced, ?_, kept.closed, ?_⟩
      · intro q
        exact (emptied.queues q).imp_right fun shut => ⟨shut.1, opened.trans shut.2⟩
      · exact flushed.trans emptied.flushed

theorem happen_awake {budget : Nat} {h : Happening} (awake : Awake budget c)
    (happened : c.happen limits h = some c') : Awake budget c' := by
  have names : ∀ a ∈ c.accepting, ∃ a' ∈ c.accepting, a'.name = a.name :=
    fun a mem => ⟨a, mem, rfl⟩
  cases h with
  | arrive a =>
      simp only [happen, Option.ite_none_right_eq_some, Option.some.injEq] at happened
      obtain ⟨-, rfl⟩ := happened
      exact awake_still awake (awake.kept.arrive a) (congrArg Prod.snd (Writer.arrive_rest _ a)) rfl
        (c.toWriter.arrive_out a) (c.toWriter.arrive_ownOpen a) names
  | resolve name rp =>
      cases happened
      refine awake_still awake awake.kept rfl rfl rfl rfl fun a' mem => ?_
      obtain ⟨a, known, rfl⟩ := List.mem_map.mp mem
      refine ⟨a, known, ?_⟩
      split <;> rfl
  | permitTaken | permitBack | finish i | frame time =>
      simp only [happen, Option.ite_none_right_eq_some, Option.some.injEq] at happened
      obtain ⟨-, rfl⟩ := happened
      exact awake_still awake awake.kept rfl rfl rfl rfl names

theorem respond_kept (texts : Texts) (called : Bool) (ws : List Written) (kept : Kept c.toWriter) :
    Kept (c.respond texts called ws).toWriter := by
  unfold respond
  dsimp only
  induction ws generalizing c with
  | nil => exact kept
  | cons answer ws ih =>
      exact ih (c := { c with toWriter := c.toWriter.respond (texts.encode answer.json) })
        (kept.respond _)

theorem respond_outer (texts : Texts) (called : Bool) (ws : List Written) (c : Served) :
    (c.respond texts called ws).outer = c.outer := by
  unfold respond
  dsimp only
  induction ws generalizing c with
  | nil => rfl
  | cons answer ws ih =>
      exact ih { c with toWriter := c.toWriter.respond (texts.encode answer.json) }

/-- A step of the loop's own that has parked nothing. -/
theorem awake_going {budget : Nat} (awake : Awake budget c) (kept : Kept c'.toWriter)
    (outer : c'.outer = c.outer) (going : c'.phase ≠ .parked)
    (share : c'.phase = .accepting ∨ c'.phase = .reading → c'.reads < readBudget)
    (accepted : c'.phase = .reading ∨ c'.phase = .writing → c'.moved = false →
      ∀ a ∈ c'.accepting, .acceptance a.name ∈ c'.heard)
    (read : c'.phase = .writing → c'.moved = false → .read ∈ c'.heard ∨ outHigh ≤ c'.out.length) :
    Awake budget c' :=
  ⟨kept, level_outer outer awake.level, (congrArg (·.2.2.2) outer).trans awake.budget, share,
    accepted, read, fun parked => absurd parked going⟩

theorem awake_ended {budget : Nat} (awake : Awake budget c) (kept : Kept c'.toWriter)
    (outer : c'.outer = c.outer) {e : Ending} (ended : c'.phase = .ended e) : Awake budget c' := by
  apply awake_going awake kept outer <;> simp [ended]

theorem wake_awake {budget : Nat} {w : Wakeup} (awake : Awake budget c) :
    Awake budget (c.wake limits w) := by
  have woke := wakes limits w c
  generalize c.wake limits w = d at woke ⊢
  cases woke with
  | stopped | closed | silent | idles => exact awake_ended awake awake.kept rfl rfl
  | goes lastBusy =>
      apply awake_going awake
      · dsimp only
        split
        · exact awake.kept.pushPing
        · exact awake.kept
      · dsimp only
        split <;> rfl
      · simp
      · exact fun _ => Nat.zero_lt_succ _
      · simp
      · simp

theorem pollAccepting_awake {budget : Nat} (awake : Awake budget c) (phase : c.phase = .accepting) :
    Awake budget { c.pollAccepting texts with phase := .reading } := by
  apply awake_going awake
  · exact respond_kept texts true _ awake.kept
  · exact respond_outer texts true _ c
  · exact nofun
  · exact fun _ => awake.share (.inl phase)
  · intro _ _ a mem
    exact List.mem_map.mpr ⟨a, mem, rfl⟩
  · simp

theorem message_writer {x : Reading σ} {m : Inbound} (messaged : c.message texts x m = .ok c')
    (kept : Kept c.toWriter) :
    Kept c'.toWriter ∧ c'.outer = c.outer ∧ c'.pass = c.pass := by
  cases Served.messaged texts messaged with
  | answers begun =>
      exact ⟨respond_kept (c := { c with lastIn := x.now, lastBusy := _ }) texts _ _ kept,
        respond_outer texts _ _ _, rfl⟩
  | accepting begun | task begun => exact ⟨kept, rfl, rfl⟩

theorem answerDrops_writer (limits : SocketLimits) (texts : Texts) (kept : Kept c.toWriter) :
    Kept (c.answerDrops limits texts).toWriter ∧ (c.answerDrops limits texts).outer = c.outer ∧
      (c.answerDrops limits texts).pass = c.pass :=
  ⟨respond_kept texts false _ kept, respond_outer texts false _ c, rfl⟩

theorem pollNext_awake {budget : Nat} {x : Reading σ} (awake : Awake budget c)
    (phase : c.phase = .reading) : Awake budget (c.pollNext limits texts x) := by
  have accepted := awake.accepted (.inl phase)
  have under := awake.share (.inr phase)
  have polled := polls limits texts x c
  generalize c.pollNext limits texts x = d at polled ⊢
  cases polled with
  | stopped closed =>
      refine awake_going awake awake.kept rfl (by simp) (by simp) (fun _ => accepted) ?_
      intro _ _
      right
      dsimp only
      omega
  | ends gate read messaged => exact awake_ended awake awake.kept rfl rfl
  | @takes m c₁ gate read messaged =>
      obtain ⟨kept₁, outer₁, pass₁⟩ := message_writer messaged awake.kept
      obtain ⟨kept₂, outer₂, pass₂⟩ := answerDrops_writer limits texts kept₁
      have moved : (c₁.answerDrops limits texts).moved = true :=
        (congrArg (·.2.2.1) pass₂).trans (congrArg (·.2.2.1) pass₁)
      refine awake_going awake kept₂ (outer₂.trans outer₁) (by simp) (by simp) ?_ ?_
      · simp [moved]
      · simp [moved]
  | failed gate read | gone gate read => exact awake_ended awake awake.kept rfl rfl
  | pending gate read =>
      obtain ⟨kept, outer, pass⟩ := answerDrops_writer limits texts
        (c := { c with clock := x.now, dropped := c.dropped + x.drops }) awake.kept
      refine awake_going awake kept outer (by simp) (by simp) ?_ ?_
      · intro _ still a mem
        exact List.mem_append_left _ (accepted still a mem)
      · exact fun _ _ => .inl (List.mem_append_right _ (.head _))

/-- The loop parks only once it waits for all that could move. -/
theorem write_awake {budget : Nat} {passes : List Pass} {flush : Polled} (some : 0 < budget)
    (awake : Awake budget c) (phase : c.phase = .writing)
    (written : c.write limits passes flush = .some c') : Awake budget c' := by
  have budget := awake.budget
  have keeps := pollWrite_wrote passes flush awake.kept
  cases writes limits written with
  | lost gone => exact awake_ended awake awake.kept rfl rfl
  | @rests heard w said wrote fits unmoved =>
      rw [wrote] at keeps
      have kept := keeps.kept
      obtain ⟨level, same⟩ := pollWrite_level awake.level wrote
      refine ⟨kept, level, same.trans awake.budget, by simp, by simp, by simp, ?_⟩
      intro _ asleep
      have quiet : .spent ∉ heard := by
        intro spent
        simp [spent] at asleep
      have accepted := awake.accepted (.inr phase) unmoved
      have reading := awake.read phase unmoved
      have filled : outHigh ≤ c.out.length → c.out ≠ [] := by
        intro high none
        simp [none, outHigh] at high
      have still := pollWrite_still awake.level (by omega) said wrote quiet
      refine ⟨fun a mem => List.mem_append_left _ (accepted a mem), ?_, ?_⟩
      · rcases reading with read | high
        · exact .inl (List.mem_append_left _ read)
        · rcases still with ⟨backed, same⟩ | ⟨none, -⟩
          · exact .inr ⟨by rwa [same (filled high)], backed.after⟩
          · exact absurd none (filled high)
      · rcases still with ⟨backed, -⟩ | ⟨-, flushed, out, fenced, queues⟩
        · exact .inr backed.after
        · refine .inl ⟨List.mem_append_right _ out, List.mem_append_right _ fenced,
            fun q => ?_, kept.closed, flushed⟩
          exact (queues q).imp_left (List.mem_append_right _)
  | shares said wrote fits share =>
      rw [wrote] at keeps
      obtain ⟨level, same⟩ := pollWrite_level awake.level wrote
      exact ⟨keeps.kept, level, same.trans awake.budget, by simp, by simp, by simp, by simp⟩
  | goes said wrote fits share =>
      rw [wrote] at keeps
      obtain ⟨level, same⟩ := pollWrite_level awake.level wrote
      exact ⟨keeps.kept, level, same.trans awake.budget, fun _ => share, by simp, by simp, by simp⟩

theorem step_awake {budget : Nat} {a : Act σ} (some : 0 < budget) (awake : Awake budget c)
    (stepped : c.step limits texts a = .some c') : Awake budget c' := by
  cases steps limits texts stepped with
  | happen going happened => exact happen_awake awake happened
  | wake phase later => exact wake_awake awake
  | accept phase => exact pollAccepting_awake awake phase
  | read phase made => exact pollNext_awake awake phase
  | write phase written => exact write_awake some awake phase written

theorem new_awake (limits : SocketLimits) (now : Nat) :
    Awake limits.writeBudget (new limits now) := by
  refine ⟨⟨rfl, rfl, rfl, ⟨[], rfl, rfl⟩, ?_, nofun⟩, fun _ => rfl, rfl, nofun, nofun, nofun, nofun⟩
  intro before after f same
  simp [new, Writer.new] at same

end Served

/-- Answering `Pending` without having woken its own task, `poll_run` has heard `Pending`
    of every acceptance; of the read side, unless `OUT_HIGH` answers wait on the write side;
    and of the write side, unless there is nothing to write and nothing to flush. -/
theorem parked_waits {σ : Type} (limits : SocketLimits) (texts : Texts) (now : Nat)
    (some : 0 < limits.writeBudget) (acts : List (Act σ)) (c : Served)
    (ran : (Served.machine limits texts now).run acts = .some c) (parked : c.phase = .parked)
    (asleep : c.woken = false) : Waits c := by
  have awake : Awake limits.writeBudget c :=
    Machine.run_keeps (Served.new_awake limits now) (fun _ _ _ => Served.step_awake some) ran
  exact awake.parked parked asleep

/-- A loop with no methods, no hook and no input open. -/
def bare : Router Unit where
  dispatch := ⟨fun _ => none, fun _ => none, fun _ => 0, fun _ => .ofCode .invalidRequest,
    fun _ => .ofCode .invalidRequest⟩
  hook := none
  inputsIdle := true
  takeFrame := fun _ => false
  takeBinary := fun _ => .other
  parse := fun _ => none

/-- An answer of the method table handed to a socket that then takes no more. -/
def backedRun : List (Act Unit) :=
  let still : Nat → Gap := fun _ => ⟨[], false⟩
  let nothing : Reading Unit := ⟨0, bare, (), 0, [], .pending⟩
  [.happen (.arrive (.table [1])), .wake ⟨0, false, false, false, false, false⟩,
    .accept, .read nothing, .write [⟨.ready, still, true⟩, ⟨.pending, still, true⟩] .pending,
    .accept, .read nothing, .write [⟨.pending, still, true⟩] .pending]

def small : SocketLimits := ⟨8, none, 0, none, 4, 8⟩

def blank : Texts := ⟨fun _ => [], fun _ => .ofCode .invalidRequest⟩

theorem parked_waits_backed :
    ∃ c, (Served.machine small blank 0).run backedRun = some c ∧ c.handed = [.table [1]] ∧
      c.unflushed = true ∧ Waits c :=
  ⟨_, rfl, rfl, rfl, parked_waits small blank 0 (Nat.succ_pos 7) backedRun _ rfl rfl rfl⟩

end PlexusTransport.Ws.Conn
