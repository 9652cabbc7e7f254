import PlexusTransport.Lib.Turns
import PlexusTransport.Ws.Conn.Order

/-! # No queue starves

The writer takes turns. What it does to its queues, poll by poll, is `moves`; a fenced
frame is an item set aside, the method table's queue its feed.
-/

namespace PlexusTransport.Ws.Conn

open Turns

def Queue.index : Queue → Fin 3
  | .own => 0
  | .table => 1
  | .frames => 2

/-- The queue a frame was taken from; the loop's own answers are on none. -/
def Taken.queue? : Taken → Option (Fin 3)
  | .out _ => none
  | .own _ => some Queue.own.index
  | .table _ => some Queue.table.index
  | .frames _ => some Queue.frames.index

namespace Writer

/-- The queues, and whose turn it is. -/
def merge (w : Writer) : Turns 3 where
  waits q := w.waiting (turns q)
  turn := Fin.ofNat 3 w.turn
  looked := 0
  aside := w.fenced.isSome

def arriveMoves (w : Writer) : Arrival → List (Move 3)
  | .table _ => [.arrive Queue.table.index]
  | .own _ => if w.ownGone then [] else [.arrive Queue.own.index]
  | .frames _ => [.arrive Queue.frames.index]
  | .ownGone => []

def meanwhileMoves : Writer → List Arrival → List (Move 3)
  | _, [] => []
  | w, a :: as => w.arriveMoves a ++ meanwhileMoves (w.arrive a) as

/-- What one poll of a round does. -/
def pollMoves (q : Queue) (spent : Bool) : Round → List (Move 3)
  | .nothing => if spent then [] else [.look]
  | .taken _ => [.take q.index]
  | .fence _ => [.setAside]

def byTurnsMoves (gaps : Nat → Gap) : List Nat → Writer → List (Move 3)
  | [], _ => [.rest]
  | i :: rest, w =>
      let q := turns (w.turn + i)
      let (got, w₁) := poll q (gaps i).spent (w.meanwhile (gaps i))
      meanwhileMoves w (gaps i).arrivals ++ pollMoves q (gaps i).spent got ++
        match got with
        | .nothing => byTurnsMoves gaps rest w₁
        | _ => []

def behindMoves (gap : Gap) (w : Writer) : List (Move 3) :=
  meanwhileMoves w gap.arrivals ++
    match (w.meanwhile gap).table with
    | _ :: _ => [.drain]
    | [] => [.release]

def nextOutMoves (gaps : Nat → Gap) (w : Writer) : List (Move 3) :=
  match w.out with
  | _ :: _ => []
  | [] =>
      match w.fenced with
      | some _ => behindMoves (gaps 0) w
      | none =>
          byTurnsMoves gaps [0, 1, 2] w ++
            match byTurns gaps [0, 1, 2] w with
            | (.fence _, w) => behindMoves (gaps 3) w
            | _ => []

def gatherMoves : List Pass → Writer → List (Move 3)
  | [], _ => []
  | pass :: rest, w =>
      if w.gathered < w.budget ∧ pass.ready = .ready then
        nextOutMoves pass.gaps w ++
          match nextOut pass.gaps w with
          | (some t, w) =>
              let w := { w with gathered := w.gathered + t.message.len }
              if pass.takes then
                gatherMoves rest { w with unflushed := true, handed := w.handed ++ [t] }
              else []
          | (none, _) => []
      else []

end Writer

def Event.moves (w : Writer) : Event → List (Move 3)
  | .arrive a => w.arriveMoves a
  | .respond _ | .ping => []
  | .write passes _ => w.gatherMoves passes

/-- All that becomes of the queues in a run. -/
def moves : Writer → List Event → List (Move 3)
  | _, [] => []
  | w, e :: es => e.moves w ++ (step w e).elim [] fun w => moves w es

/-- A poll that finds the task's budget spent is followed by none that does not, within
    one `next_out`. -/
def Coop : Event → Prop
  | .write passes _ => ∀ pass ∈ passes, ∀ i j, i ≤ j → (pass.gaps i).spent = true →
      (pass.gaps j).spent = true
  | _ => True

section Simulation

/-- The queues as a round that has looked at so many of them finds them. -/
def Writer.midway (w : Writer) (looked : Nat) : Turns 3 := { w.merge with looked := looked }

/-- Closed, a queue of this side's own is empty. -/
def Shut (w : Writer) : Prop := w.ownOpen = false → w.ownGone = true ∧ w.own = []

abbrev merging : Machine (Turns 3) (Move 3) :=
  Turns.machine Queue.table.index Queue.frames.index (Writer.merge (Writer.new 0))

theorem merging_one (v : Turns 3) (m : Move 3) :
    merging.runFrom v [m] = v.move Queue.table.index Queue.frames.index m :=
  Option.bind_fun_some _

variable {w : Writer}

theorem index_turns (k : Nat) : (Writer.turns k).index = Fin.ofNat 3 k := by
  have small := Nat.mod_lt k (show 0 < 3 by omega)
  rw [Fin.ext_iff, Fin.val_ofNat]
  unfold Writer.turns
  split <;> simp_all [Queue.index]
  omega

theorem turns_index (q : Queue) : Writer.turns q.index = q := by cases q <;> rfl

theorem index_val (q : Fin 3) : (Writer.turns q).index = q := by
  rw [index_turns, Fin.ofNat_val_eq_self]

theorem midway_put {v : Writer} (q : Queue) (looked k : Nat) (own : v.waiting q = k)
    (others : ∀ p, p ≠ q → v.waiting p = w.waiting p) (turn : v.turn = w.turn)
    (fenced : v.fenced = w.fenced) : v.midway looked = (w.midway looked).put q.index k := by
  ext p
  · by_cases same : p = q.index
    · subst same
      rw [put_waits_self]
      simpa [Writer.midway, Writer.merge, turns_index] using own
    · rw [put_waits_ne _ same]
      apply others
      intro here
      apply same
      rw [← here, index_val]
  · simp [Writer.midway, Writer.merge, put, turn]
  · rfl
  · simp [Writer.midway, Writer.merge, put, fenced]

theorem midway_waits (q : Queue) (looked : Nat) : (w.midway looked).waits q.index = w.waiting q := by
  simp [Writer.midway, Writer.merge, turns_index]

theorem arrive_merge (shut : Shut w) (looked : Nat) (a : Arrival) :
    merging.runFrom (w.midway looked) (w.arriveMoves a) = some ((w.arrive a).midway looked) ∧
      Shut (w.arrive a) := by
  have arrived : ∀ (q : Queue) {v : Writer}, v.waiting q = w.waiting q + 1 →
      (∀ p, p ≠ q → v.waiting p = w.waiting p) → v.turn = w.turn → v.fenced = w.fenced →
        merging.runFrom (w.midway looked) [.arrive q.index] = some (v.midway looked) := by
    intro q v own others turn fenced
    rw [midway_put q looked _ own others turn fenced, ← midway_waits q looked]
    rfl
  cases a with
  | table raw =>
      refine ⟨arrived .table ?_ ?_ rfl rfl, shut⟩
      · simp [Writer.arrive, Writer.waiting]
      · intro p other
        cases p <;> trivial
  | own f =>
      cases gone : w.ownGone with
      | true =>
          simp only [Writer.arriveMoves, Writer.arrive, gone, if_true]
          exact ⟨rfl, shut⟩
      | false =>
          simp only [Writer.arriveMoves, Writer.arrive, gone, Bool.false_eq_true, if_false]
          refine ⟨arrived .own ?_ ?_ rfl rfl, ?_⟩
          · simp [Writer.waiting]
          · intro p other
            cases p <;> trivial
          · intro closed
            rw [(shut closed).1] at gone
            cases gone
  | frames f =>
      refine ⟨arrived .frames ?_ ?_ rfl rfl, shut⟩
      · simp [Writer.arrive, Writer.waiting]
      · intro p other
        cases p <;> trivial
  | ownGone => exact ⟨rfl, fun closed => ⟨rfl, (shut closed).2⟩⟩

theorem arrivals_merge (shut : Shut w) (looked : Nat) (as : List Arrival) :
    merging.runFrom (w.midway looked) (w.meanwhileMoves as) =
        some ((as.foldl Writer.arrive w).midway looked) ∧ Shut (as.foldl Writer.arrive w) := by
  induction as generalizing w with
  | nil => exact ⟨rfl, shut⟩
  | cons a as ih =>
      obtain ⟨moved, shut⟩ := arrive_merge shut looked a
      rw [Writer.meanwhileMoves, Machine.runFrom_append, moved]
      exact ih shut

theorem meanwhile_merge (shut : Shut w) (looked : Nat) (gap : Gap) :
    merging.runFrom (w.midway looked) (w.meanwhileMoves gap.arrivals) =
        some ((w.meanwhile gap).midway looked) ∧ Shut (w.meanwhile gap) :=
  arrivals_merge shut looked gap.arrivals

theorem poll_spent (q : Queue) (w : Writer) : Writer.poll q true w = (.nothing, w) := by
  have polled := w.polling q true
  generalize Writer.poll q true w = p at polled ⊢
  cases polled <;> rfl

/-- A poll within the budget: the queue is empty, or its head is taken, or fenced. -/
inductive Polls (q : Queue) (w : Writer) : Round → Writer → Prop where
  | nothing {w'} (empty : w.waiting q = 0) (same : w'.waiting = w.waiting) (turn : w'.turn = w.turn)
      (fenced : w'.fenced = w.fenced) (shut : Shut w') : Polls q w .nothing w'
  | taken {w'} (t : Taken) (own : t.queue? = some q.index) (some : 0 < w.waiting q)
      (less : w'.waiting q = w.waiting q - 1) (others : ∀ p, p ≠ q → w'.waiting p = w.waiting p)
      (turn : w'.turn = w.turn) (fenced : w'.fenced = w.fenced) (shut : Shut w') :
      Polls q w (.taken t) w'
  | fence {w'} (bytes : Bytes) (gate : q = .frames) (some : 0 < w.waiting q)
      (less : w'.waiting q = w.waiting q - 1) (others : ∀ p, p ≠ q → w'.waiting p = w.waiting p)
      (turn : w'.turn = w.turn) (fenced : w'.fenced = .some bytes) (shut : Shut w') :
      Polls q w (.fence bytes) w'

theorem poll_polls (shut : Shut w) (q : Queue) :
    Polls q w (Writer.poll q false w).1 (Writer.poll q false w).2 := by
  have polled := w.polling q false
  generalize Writer.poll q false w = p at polled ⊢
  cases polled with
  | shut _ closed => exact .nothing (by simp [Writer.waiting, (shut closed).2]) rfl rfl rfl shut
  | ownEmpty opened empty =>
      refine .nothing (by simp [Writer.waiting, empty]) ?_ rfl rfl ?_
      · funext p
        cases p <;> rfl
      · intro closed
        exact ⟨by simpa using closed, empty⟩
  | own opened waits =>
      refine .taken _ rfl (by simp [Writer.waiting, waits]) (by simp [Writer.waiting, waits])
        ?_ rfl rfl ?_
      · intro p other
        cases p <;> trivial
      · intro closed
        rw [opened] at closed
        cases closed
  | tableEmpty empty => exact .nothing (by simp [Writer.waiting, empty]) rfl rfl rfl shut
  | table waits =>
      refine .taken _ rfl (by simp [Writer.waiting, waits]) (by simp [Writer.waiting, waits])
        ?_ rfl rfl shut
      intro p other
      cases p <;> trivial
  | framesEmpty empty => exact .nothing (by simp [Writer.waiting, empty]) rfl rfl rfl shut
  | frames waits plain =>
      refine .taken _ rfl (by simp [Writer.waiting, waits]) (by simp [Writer.waiting, waits])
        ?_ rfl rfl shut
      intro p other
      cases p <;> trivial
  | fence waits fenced =>
      refine .fence _ rfl (by simp [Writer.waiting, waits]) (by simp [Writer.waiting, waits])
        ?_ rfl rfl shut
      intro p other
      cases p <;> trivial

theorem dist_index {i : Nat} (small : i < 3) (looked : Nat) (q : Queue) :
    (w.midway looked).dist q.index = i ↔ q = Writer.turns (w.turn + i) := by
  have shift : Fin.ofNat 3 (w.turn + i) = Fin.ofNat 3 w.turn + Fin.ofNat 3 i := by
    ext
    simp [Fin.val_add]
  have place : (Fin.ofNat 3 i).val = i := by
    rw [Fin.val_ofNat]
    omega
  constructor
  · intro here
    have moved : q.index - Fin.ofNat 3 w.turn = Fin.ofNat 3 i := Fin.ext (here.trans place.symm)
    rw [sub_eq_iff_eq_add', ← shift, ← index_turns] at moved
    rw [← turns_index q, moved, turns_index]
  · rintro rfl
    have moved : (Writer.turns (w.turn + i)).index - Fin.ofNat 3 w.turn = Fin.ofNat 3 i := by
      rw [sub_eq_iff_eq_add', ← shift, index_turns]
    exact (congrArg Fin.val moved).trans place

/-- What the moves hand, by the queues the frames were taken from. -/
def handsOf (ms : List (Move 3)) : List (Fin 3) :=
  ms.filterMap (Move.hands Queue.table.index Queue.frames.index)

theorem handsOf_append (ms ms' : List (Move 3)) :
    handsOf (ms ++ ms') = handsOf ms ++ handsOf ms' := List.filterMap_append

theorem hands_arrivals (w : Writer) (as : List Arrival) : handsOf (w.meanwhileMoves as) = [] := by
  induction as generalizing w with
  | nil => rfl
  | cons a as ih =>
      have none : handsOf (w.arriveMoves a) = [] := by
        cases a with
        | own f => cases gone : w.ownGone <;> simp [Writer.arriveMoves, gone, handsOf, Move.hands]
        | table raw | frames f | ownGone => rfl
      rw [Writer.meanwhileMoves, handsOf_append, none, ih]
      rfl

/-- What a round's moves come to. -/
structure Rounds (v : Turns 3) (ms : List (Move 3)) (got : Round) (w : Writer) : Prop where
  ran : merging.runFrom v ms = some w.merge
  shut : Shut w
  fenced : w.fenced = match got with
    | .fence bytes => some bytes
    | _ => none
  hands : handsOf ms = match got with
    | .taken t => t.queue?.toList
    | _ => []

/-- Sends before a round's next poll. -/
theorem Rounds.before {looked : Nat} {gap : Gap} {ms : List (Move 3)} {got : Round} {w' : Writer}
    (shut : Shut w) (rounds : Rounds ((w.meanwhile gap).midway looked) ms got w') :
    Rounds (w.midway looked) (w.meanwhileMoves gap.arrivals ++ ms) got w' := by
  obtain ⟨ran, shut', fenced, hands⟩ := rounds
  refine ⟨?_, shut', fenced, ?_⟩
  · rw [Machine.runFrom_append, (meanwhile_merge shut looked gap).1]
    exact ran
  · rw [handsOf_append, hands_arrivals, List.nil_append, hands]

section Poll

variable {gaps : Nat → Gap} {i : Nat} (is : List Nat) {w₁ : Writer}

theorem byTurns_nothing
    (polled : Writer.poll (Writer.turns (w.turn + i)) (gaps i).spent (w.meanwhile (gaps i)) =
      (.nothing, w₁)) :
    w.byTurns gaps (i :: is) = w₁.byTurns gaps is ∧
      w.byTurnsMoves gaps (i :: is) = w.meanwhileMoves (gaps i).arrivals ++
        ((if (gaps i).spent then [] else [.look]) ++ w₁.byTurnsMoves gaps is) := by
  simp only [Writer.byTurns, Writer.byTurnsMoves, polled, Writer.pollMoves, List.append_assoc,
    and_self]

theorem byTurns_got {got : Round} (found : got ≠ .nothing)
    (polled : Writer.poll (Writer.turns (w.turn + i)) (gaps i).spent (w.meanwhile (gaps i)) =
      (got, w₁)) :
    w.byTurns gaps (i :: is) = (got, { w₁ with turn := (w₁.turn + i + 1) % 3 }) ∧
      w.byTurnsMoves gaps (i :: is) = w.meanwhileMoves (gaps i).arrivals ++
        Writer.pollMoves (Writer.turns (w.turn + i)) (gaps i).spent got := by
  cases got with
  | nothing => contradiction
  | taken t | fence bytes =>
      simp only [Writer.byTurns, Writer.byTurnsMoves, polled, List.append_nil, and_self]

end Poll

/-- With the budget spent, a round finds nothing. -/
theorem byTurns_spent (gaps : Nat → Gap) (is : List Nat) (spent : ∀ i ∈ is, (gaps i).spent = true)
    (shut : Shut w) (unfenced : w.fenced = none) (looked : Nat) :
    Rounds (w.midway looked) (w.byTurnsMoves gaps is) (w.byTurns gaps is).1 (w.byTurns gaps is).2 := by
  induction is generalizing w with
  | nil => exact ⟨rfl, shut, unfenced, rfl⟩
  | cons i is ih =>
      have here := spent i (.head _)
      have polled : Writer.poll (Writer.turns (w.turn + i)) (gaps i).spent (w.meanwhile (gaps i)) =
          (.nothing, w.meanwhile (gaps i)) := by
        rw [here]
        exact poll_spent _ _
      obtain ⟨got, moved⟩ := byTurns_nothing is polled
      rw [got, moved, if_pos here, List.nil_append]
      apply Rounds.before shut
      exact ih (fun j mem => spent j (.tail _ mem)) (meanwhile_merge shut looked (gaps i)).2
        ((w.meanwhile_fenced (gaps i)).trans unfenced)

theorem look_midway {i : Nat} (small : i < 3) (unfenced : w.fenced = none)
    (empty : w.waiting (Writer.turns (w.turn + i)) = 0) :
    merging.runFrom (w.midway i) [.look] = some (w.midway (i + 1)) := by
  have found : (w.midway i).move Queue.table.index Queue.frames.index .look =
      some (w.midway (i + 1)) := by
    refine if_pos ⟨by simp [Writer.midway, Writer.merge, unfenced], fun q here => ?_⟩
    rw [← index_val q] at here ⊢
    rw [midway_waits, (dist_index small i _).mp here]
    exact empty
  exact (merging_one _ _).trans found

/-- The queue whose turn it is has a frame. -/
theorem finds_midway {i : Nat} (small : i < 3) (unfenced : w.fenced = none)
    (some : 0 < w.waiting (Writer.turns (w.turn + i))) :
    (w.midway i).Finds (Writer.turns (w.turn + i)).index := by
  refine ⟨by simp [Writer.midway, Writer.merge, unfenced], (dist_index small i _).mpr rfl, ?_⟩
  rw [midway_waits]
  exact some

theorem taken_midway {w₁ : Writer} {i : Nat}
    (less : w₁.waiting (Writer.turns (w.turn + i)) = w.waiting (Writer.turns (w.turn + i)) - 1)
    (others : ∀ p, p ≠ Writer.turns (w.turn + i) → w₁.waiting p = w.waiting p)
    (turn : w₁.turn = w.turn) :
    { (w.midway i).taken (Writer.turns (w.turn + i)).index with aside := w₁.fenced.isSome } =
      Writer.merge { w₁ with turn := (w₁.turn + i + 1) % 3 } := by
  have waits : ∀ p : Queue, ((w.midway i).taken (Writer.turns (w.turn + i)).index).waits p.index =
      w₁.waiting p := by
    intro p
    by_cases same : p = Writer.turns (w.turn + i)
    · rw [same, taken, put_waits_self, midway_waits, less]
    · have apart : p.index ≠ (Writer.turns (w.turn + i)).index := by
        intro here
        apply same
        rw [← turns_index p, here, turns_index]
      rw [taken, put_waits_ne _ apart, midway_waits, others p same]
  ext q
  · have here := waits (Writer.turns q)
    rw [index_val] at here
    exact here
  · have next : (Writer.turns (w.turn + i)).index + 1 = Fin.ofNat 3 ((w₁.turn + i + 1) % 3) := by
      rw [index_turns, turn]
      ext
      simp [Fin.val_add]
    exact congrArg Fin.val next
  · rfl
  · rfl

/-- A round ends with the first frame it finds. -/
theorem polls_rounds {w₁ : Writer} {i : Nat} {got : Round} (small : i < 3)
    (unfenced : w.fenced = none) (polls : Polls (Writer.turns (w.turn + i)) w got w₁)
    (found : got ≠ .nothing) (spent : Bool) :
    Rounds (w.midway i) (Writer.pollMoves (Writer.turns (w.turn + i)) spent got) got
      { w₁ with turn := (w₁.turn + i + 1) % 3 } := by
  cases polls with
  | nothing => contradiction
  | taken t own some less others turn fenced shut =>
      have finds := finds_midway small unfenced some
      have ends := taken_midway less others turn
      refine ⟨?_, shut, fenced.trans unfenced, ?_⟩
      · have aside : w₁.fenced.isSome = false := by rw [fenced, unfenced]; rfl
        have same : (w.midway i).aside = false := finds.1
        rw [← ends, aside, ← same]
        exact (merging_one _ _).trans (if_pos finds)
      · dsimp only
        rw [own]
        rfl
  | fence bytes gate some less others turn fenced shut =>
      have finds := finds_midway small unfenced some
      have ends := taken_midway less others turn
      refine ⟨?_, shut, fenced, rfl⟩
      have aside : w₁.fenced.isSome = true := by rw [fenced]; rfl
      rw [← ends, aside]
      rw [gate] at finds ⊢
      exact (merging_one _ _).trans (if_pos finds)

/-- A round from its `i`th queue on. -/
theorem byTurns_merge (gaps : Nat → Gap)
    (coop : ∀ i j, i ≤ j → (gaps i).spent = true → (gaps j).spent = true) (k i : Nat)
    (round : i + k = 3) (shut : Shut w) (unfenced : w.fenced = none) :
    Rounds (w.midway i) (w.byTurnsMoves gaps (List.range' i k))
      (w.byTurns gaps (List.range' i k)).1 (w.byTurns gaps (List.range' i k)).2 := by
  induction k generalizing i w with
  | zero => exact ⟨rfl, shut, unfenced, rfl⟩
  | succ k ih =>
      rw [List.range'_succ]
      cases spent : (gaps i).spent with
      | true =>
          apply byTurns_spent gaps _ _ shut unfenced
          intro j mem
          apply coop i j _ spent
          grind
      | false =>
          have shut' := (meanwhile_merge shut i (gaps i)).2
          have unfenced' := (w.meanwhile_fenced (gaps i)).trans unfenced
          have turn' := w.meanwhile_turn (gaps i)
          have polls := poll_polls shut' (Writer.turns (w.turn + i))
          rw [← spent] at polls
          cases polled : Writer.poll (Writer.turns (w.turn + i)) (gaps i).spent (w.meanwhile (gaps i)) with
          | mk got w₁ =>
              rw [polled, ← turn'] at polls
              dsimp only at polls
              by_cases found : got = .nothing
              · subst found
                cases polls with
                | nothing empty same turn fenced shut₁ =>
                    obtain ⟨got, moved⟩ := byTurns_nothing (List.range' (i + 1) k) polled
                    have later := ih (i + 1) (by omega) shut₁ (fenced.trans unfenced')
                    have same : w₁.midway (i + 1) = (w.meanwhile (gaps i)).midway (i + 1) := by
                      simp only [Writer.midway, Writer.merge, same, turn, fenced]
                    rw [got, moved, if_neg (by simp [spent])]
                    apply Rounds.before shut
                    obtain ⟨ran, shut₂, fenced₂, hands⟩ := later
                    refine ⟨?_, shut₂, fenced₂, hands⟩
                    rw [Machine.runFrom_append, look_midway (by omega) unfenced' empty, ← same]
                    exact ran
              · obtain ⟨got, moved⟩ := byTurns_got (List.range' (i + 1) k) found polled
                rw [got, moved, ← turn']
                apply Rounds.before shut
                exact polls_rounds (by omega) unfenced' polls found _

/-- What these moves come to, and of which queues frames are handed. -/
structure Hands (v : Turns 3) (ms : List (Move 3)) (w : Writer) (qs : List (Fin 3)) : Prop where
  ran : merging.runFrom v ms = some w.merge
  shut : Shut w
  hands : handsOf ms = qs

theorem Hands.append {v : Turns 3} {ms ms' : List (Move 3)} {u w : Writer} {qs qs' : List (Fin 3)}
    (first : Hands v ms u qs) (later : Hands u.merge ms' w qs') :
    Hands v (ms ++ ms') w (qs ++ qs') := by
  refine ⟨?_, later.shut, ?_⟩
  · rw [Machine.runFrom_append, first.ran]
    exact later.ran
  · rw [handsOf_append, first.hands, later.hands]

theorem behindTable_hands (gap : Gap) {bytes : Bytes} (shut : Shut w)
    (fenced : w.fenced = some bytes) :
    Hands w.merge (w.behindMoves gap) (w.behindTable gap bytes).2
      (w.behindTable gap bytes).1.queue?.toList := by
  obtain ⟨arrived, shut'⟩ := meanwhile_merge shut 0 gap
  have fenced' := (w.meanwhile_fenced gap).trans fenced
  have first : Hands w.merge (w.meanwhileMoves gap.arrivals) (w.meanwhile gap) [] :=
    ⟨arrived, shut', hands_arrivals w gap.arrivals⟩
  have aside : (w.meanwhile gap).merge.aside = true := by simp [Writer.merge, fenced']
  apply first.append
  cases table : (w.meanwhile gap).table with
  | cons raw rest =>
      have served : w.behindTable gap bytes = (.table raw, { w.meanwhile gap with table := rest }) := by
        simp only [Writer.behindTable, table]
      have waits : (w.meanwhile gap).merge.waits Queue.table.index = rest.length + 1 :=
        (midway_waits .table 0).trans (congrArg List.length table)
      have others : ∀ p, p ≠ Queue.table →
          Writer.waiting { w.meanwhile gap with table := rest } p = (w.meanwhile gap).waiting p := by
        intro p other
        cases p <;> trivial
      have drained := midway_put .table 0 rest.length rfl others rfl rfl
      rw [served]
      refine ⟨(merging_one _ _).trans ((if_pos ⟨aside, by omega⟩).trans ?_), shut', rfl⟩
      rw [waits]
      exact congrArg some drained.symm
  | nil =>
      have served : w.behindTable gap bytes =
          (.frames bytes, { w.meanwhile gap with fenced := none }) := by
        simp only [Writer.behindTable, table]
      have waits : (w.meanwhile gap).merge.waits Queue.table.index = 0 :=
        (midway_waits .table 0).trans (congrArg List.length table)
      rw [served]
      exact ⟨(merging_one _ _).trans (if_pos ⟨aside, waits⟩), shut', rfl⟩

theorem nextOut_hands (gaps : Nat → Gap)
    (coop : ∀ i j, i ≤ j → (gaps i).spent = true → (gaps j).spent = true) (shut : Shut w) :
    Hands w.merge (w.nextOutMoves gaps) (w.nextOut gaps).2
      ((w.nextOut gaps).1.bind Taken.queue?).toList := by
  unfold Writer.nextOutMoves Writer.nextOut
  cases out : w.out with
  | cons m rest => exact ⟨rfl, shut, rfl⟩
  | nil =>
      cases fenced : w.fenced with
      | some bytes => exact behindTable_hands (gaps 0) shut fenced
      | none =>
          have rounds := byTurns_merge gaps coop 3 0 rfl shut fenced
          change Rounds _ (w.byTurnsMoves gaps [0, 1, 2]) (w.byTurns gaps [0, 1, 2]).1
            (w.byTurns gaps [0, 1, 2]).2 at rounds
          cases round : w.byTurns gaps [0, 1, 2] with
          | mk got w₁ =>
              rw [round] at rounds
              obtain ⟨ran, shut₁, fenced₁, hands⟩ := rounds
              dsimp only at *
              cases got with
              | nothing | taken t =>
                  rw [List.append_nil]
                  exact ⟨ran, shut₁, hands⟩
              | fence bytes =>
                  have first : Hands w.merge _ w₁ [] := ⟨ran, shut₁, hands⟩
                  exact first.append (behindTable_hands (gaps 3) shut₁ fenced₁)

/-- What a write hands, all of it to the socket unless that is gone. -/
def Gathers (w : Writer) (ms : List (Move 3)) (gone : Bool) (w' : Writer) : Prop :=
  ∃ qs, Hands w.merge ms w' qs ∧
    (gone = false → w'.handed.filterMap Taken.queue? = w.handed.filterMap Taken.queue? ++ qs)

theorem Gathers.nothing (shut : Shut w) (gone : Bool) : Gathers w [] gone w :=
  ⟨[], ⟨rfl, shut, rfl⟩, fun _ => (List.append_nil _).symm⟩

theorem gather_gathers (passes : List Pass) (moved : Bool)
    (coop : ∀ pass ∈ passes, ∀ i j, i ≤ j → (pass.gaps i).spent = true → (pass.gaps j).spent = true)
    (shut : Shut w) :
    Gathers w (w.gatherMoves passes) (w.gather passes moved).1.isNone (w.gather passes moved).2 := by
  have gathered := w.gathers passes moved
  generalize w.gather passes moved = p at gathered ⊢
  induction gathered with
  | done => exact .nothing shut _
  | full full =>
      rw [Writer.gatherMoves, if_neg fun both => absurd both.1 (Nat.not_lt_of_le full)]
      exact .nothing shut _
  | failed under ready | pending under ready =>
      rw [Writer.gatherMoves, if_neg (by simp [ready])]
      exact .nothing shut _
  | @nothing pass _ _ w w₁ under ready next =>
      have first := nextOut_hands pass.gaps (coop pass (.head _)) shut
      have same : (w.nextOut pass.gaps).2.handed = w.handed :=
        congrArg Prod.fst (w.nextOut_outer pass.gaps)
      rw [next] at first same
      rw [Writer.gatherMoves, if_pos ⟨under, ready⟩, next, List.append_nil]
      exact ⟨_, first, fun _ => by rw [same]; exact (List.append_nil _).symm⟩
  | @lost pass _ _ w w₁ t under ready next refused =>
      have first := nextOut_hands pass.gaps (coop pass (.head _)) shut
      rw [next] at first
      simp only [Writer.gatherMoves, if_pos (And.intro under ready), next, refused,
        Bool.false_eq_true, if_false, List.append_nil]
      exact ⟨_, ⟨first.ran, first.shut, first.hands⟩, by simp⟩
  | @taken pass _ _ w w₁ t _ under ready next takes later ih =>
      have first := nextOut_hands pass.gaps (coop pass (.head _)) shut
      have same : (w.nextOut pass.gaps).2.handed = w.handed :=
        congrArg Prod.fst (w.nextOut_outer pass.gaps)
      rw [next] at first same
      obtain ⟨qs, later, handed⟩ := ih (fun pass mem => coop pass (.tail _ mem)) first.shut
      simp only [Writer.gatherMoves, if_pos (And.intro under ready), next, takes, if_true]
      refine ⟨_, first.append later, fun going => ?_⟩
      rw [handed going, List.filterMap_append, ← same, List.append_assoc]
      cases queue : t.queue? <;> simp [queue]

theorem pollWrite_gathers (passes : List Pass) (flush : Polled)
    (coop : Coop (.write passes flush)) (shut : Shut w) :
    Gathers w (w.gatherMoves passes) (w.pollWrite passes flush).1.isNone
      (w.pollWrite passes flush).2 := by
  have written := gather_gathers passes false coop shut
  have settled := w.settles passes flush
  generalize w.gather passes false = p, w.pollWrite passes flush = p' at written settled ⊢
  obtain ⟨qs, hands, handed⟩ := written
  cases settled with
  | gone => exact ⟨qs, hands, handed⟩
  | level | pending => exact ⟨qs, hands, handed⟩
  | flushed => exact ⟨qs, ⟨hands.ran, hands.shut, hands.hands⟩, handed⟩
  | failed => exact ⟨qs, hands, nofun⟩

theorem step_gathers {w' : Writer} {e : Event} (coop : Coop e) (shut : Shut w)
    (stepped : step w e = some w') : w.ended = false ∧ Gathers w (e.moves w) w'.ended w' := by
  obtain ⟨going, happened⟩ := happens stepped
  refine ⟨going, ?_⟩
  cases happened with
  | arrive a =>
      obtain ⟨ran, shut'⟩ := arrive_merge shut 0 a
      have hands : handsOf (w.meanwhileMoves [a]) = [] := hands_arrivals w [a]
      rw [Writer.meanwhileMoves, Writer.meanwhileMoves, List.append_nil] at hands
      refine ⟨[], ⟨ran, shut', hands⟩, fun _ => ?_⟩
      have same : (w.arrive a).handed = w.handed := congrArg (·.2.1) (w.arrive_rest a)
      rw [same, List.append_nil]
  | respond json | ping => exact ⟨[], ⟨rfl, shut, rfl⟩, fun _ => (List.append_nil _).symm⟩
  | @write passes flush _ _ wrote =>
      have written := pollWrite_gathers passes flush coop shut
      rw [wrote] at written
      obtain ⟨qs, hands, handed⟩ := written
      exact ⟨qs, hands, fun _ => handed rfl⟩
  | @ends passes flush _ wrote =>
      have written := pollWrite_gathers passes flush coop shut
      rw [wrote] at written
      obtain ⟨qs, hands, -⟩ := written
      exact ⟨qs, ⟨hands.ran, hands.shut, hands.hands⟩, by simp⟩

/-- A run's moves lead where the run leads, and hand what it hands. -/
theorem run_gathers {budget : Nat} {w' : Writer} {events : List Event}
    (coop : ∀ e ∈ events, Coop e) (shut : Shut w)
    (ran : (machine budget).runFrom w events = some w') :
    Gathers w (moves w events) w'.ended w' := by
  induction events generalizing w with
  | nil =>
      cases ran
      exact .nothing shut _
  | cons e events ih =>
      obtain ⟨u, stepped, ran⟩ := Option.bind_eq_some_iff.mp ran
      have stepped : step w e = some u := stepped
      obtain ⟨-, qs, first, handed⟩ := step_gathers (coop e (.head _)) shut stepped
      obtain ⟨qs', later, handed'⟩ := ih (fun e mem => coop e (.tail _ mem)) first.shut ran
      simp only [moves, stepped, Option.elim]
      refine ⟨qs ++ qs', first.append later, fun going => ?_⟩
      have open' : u.ended = false := by
        cases events with
        | nil =>
            cases ran
            exact going
        | cons e' events =>
            obtain ⟨u', stepped', -⟩ := Option.bind_eq_some_iff.mp ran
            exact (step_gathers (coop e' (by simp)) first.shut stepped').1
      rw [handed' going, handed open', List.append_assoc]

end Simulation

/-- A frame set aside goes after no more of the table's frames than stand there. -/
def FenceWaits (v : Turns 3) (ms : List (Move 3)) : Prop :=
  v.aside = true → .release ∉ ms → ms.count .drain ≤ v.waits Queue.table.index

/-- Until the head of a queue is handed, frames of the others go before it no more than
    there are turns, and than stood on the table's queue as frames were set aside. -/
def HeadWaits (v : Turns 3) (q : Fin 3) (ms : List (Move 3)) : Prop :=
  0 < v.waits q →
    handed Queue.table.index Queue.frames.index q ms ≤ v.front Queue.frames.index q →
      others Queue.table.index Queue.frames.index q ms ≤
        3 + (if v.aside then v.waits Queue.table.index else 0) +
          stood Queue.table.index Queue.frames.index v ms

def Fair (ms : List (Move 3)) : Prop :=
  ∀ before during after v, ms = before ++ during ++ after → merging.run before = some v →
    FenceWaits v during ∧ ∀ q, HeadWaits v q during

/-- While no send on the method table's queue completes as a frame is fenced. -/
theorem writer_fair (budget : Nat) (events : List Event) (w : Writer)
    (coop : ∀ e ∈ events, Coop e) (ran : (machine budget).run events = some w)
    (calm : merging.Allows (Calm Queue.table.index) merging.start (moves (Writer.new budget) events)) :
    merging.run (moves (Writer.new budget) events) = some w.merge ∧
      (w.ended = false →
        w.handed.filterMap Taken.queue? = handsOf (moves (Writer.new budget) events)) ∧
      Fair (moves (Writer.new budget) events) := by
  have shut : Shut (Writer.new budget) := by
    intro closed
    cases closed
  obtain ⟨qs, hands, handed⟩ := run_gathers coop shut ran
  have followed : merging.run (moves (Writer.new budget) events) = some w.merge := hands.ran
  refine ⟨followed, fun going => ?_, ?_⟩
  · rw [handed going, hands.hands]
    rfl
  · intro before during after v split start
    rw [split, List.append_assoc] at followed calm
    have apart : Queue.table.index ≠ Queue.frames.index := by decide
    rw [Machine.run, Machine.runFrom_append, show merging.runFrom _ before = some v from start,
      Option.bind_some, Machine.runFrom_append] at followed
    obtain ⟨v', went, -⟩ := Option.bind_eq_some_iff.mp followed
    have calm' := (Machine.allows_append (Machine.allows_append calm start).2 went).1
    have fresh := fresh_aside (by intro aside; cases aside) start
    constructor
    · intro aside held
      have drained := drains went aside held
      have none := calm_aside went aside held calm'
      omega
    · intro q head waiting
      have line : Line Queue.frames.index v q false (v.front Queue.frames.index q) := ⟨head, rfl⟩
      have bound := overtaken apart line went calm' waiting
      exact bound.trans (Nat.add_le_add_right (lag_le fresh q) _)

theorem writer_fair_fenced :
    ∃ w, (machine 8).run fencedRun = some w ∧ Fair (moves (Writer.new 8) fencedRun) :=
  ⟨_, rfl, (writer_fair 8 fencedRun _ (by simp [fencedRun, Coop, apply_ite Gap.spent]) rfl
    (by decide)).2.2⟩

/-- A fenced frame, and a send on the method table's queue before each of its polls. -/
def pushedRun : List Event :=
  let pushes (i : Nat) : Nat → Gap := fun k => ⟨if k = i then [.table [1]] else [], false⟩
  [.arrive (.frames ⟨[0], true⟩),
    .write [⟨.ready, pushes 3, true⟩, ⟨.ready, pushes 0, true⟩, ⟨.ready, pushes 0, true⟩,
      ⟨.ready, fun _ => ⟨[], false⟩, true⟩] .ready]

/-- Nothing stood on the method table's queue as the frame was fenced. -/
theorem writer_fair_pushed :
    ∃ w before during after v, (∀ e ∈ pushedRun, Coop e) ∧ (machine 8).run pushedRun = some w ∧
      w.handed = [.table [1], .table [1], .table [1], .frames [0]] ∧
      moves (Writer.new 8) pushedRun = before ++ during ++ after ∧
      merging.run before = some v ∧ v.aside = true ∧ v.waits Queue.table.index = 0 ∧
      during.count .drain = 3 ∧ ¬FenceWaits v during := by
  refine ⟨_, [.arrive 2, .look, .look, .setAside],
    [.arrive 1, .drain, .arrive 1, .drain, .arrive 1, .drain], [.release], _,
    by simp [pushedRun, Coop], rfl, rfl, by decide, rfl, rfl, rfl, rfl, ?_⟩
  intro waits
  exact absurd (waits rfl (by decide)) (by decide)

end PlexusTransport.Ws.Conn
