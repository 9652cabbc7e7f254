import PlexusTransport.Ws.Conn.Effects

/-! # What a message asks for, and what it does

The hook is called first; a call that neither it nor an open input takes comes to the
method table, which invokes its callback once.
-/

namespace PlexusTransport.Ws.Conn

variable {σ : Type}

/-- A message read: what it was routed by, and the permits free then. -/
structure Arrived (σ : Type) where
  inbound : Inbound
  router : Router σ
  server : σ
  free : Nat

namespace Arrived

variable (a : Arrived σ)

def effects : List Effect := a.router.effects a.free a.inbound a.server

/-- What the hook is to see of it. -/
def seen? : Option Bytes := a.router.hook.bind fun _ => a.inbound.data?

/-- Taken neither by the hook nor by an open input. -/
def untaken (data : Bytes) : Bool :=
  !a.router.hooked data && (a.router.inputsIdle || !a.router.takeFrame data)

/-- The call it is that neither the hook nor an open input takes. -/
def call? : Option Request :=
  a.inbound.data?.bind fun data => if a.untaken data then a.router.call? data else none

/-- That call, if its object opens among the first 128 bytes. -/
def nearCall? : Option Request :=
  a.inbound.data?.bind fun data =>
    if near data && a.untaken data then a.router.call? data else none

/-- The callback to be invoked. -/
def due? : Option (Kind × Request) := a.nearCall?.bind (a.router.dispatch.callback? a.free)

/-- The call that is to be answered with one frame: of a method that is no subscription, or
    of none. -/
def owes? : Option Request :=
  a.nearCall?.bind fun req =>
    match a.router.dispatch.methodWithName req.method with
    | some (.subscription _) => none
    | _ => some req

end Arrived

namespace Arrived

open Router

variable {a : Arrived σ} {data : Bytes}

/-- The hook is called first, and alone if it takes the message. -/
theorem effects_cases (carries : a.inbound.data? = some data) :
    ∃ es, a.router.Left a.free data a.server es ∧ a.effects = a.router.onFrame data es := by
  obtain ⟨m, r, s, free⟩ := a
  cases m with
  | text t =>
      cases carries
      exact ⟨_, byShape_left false, rfl⟩
  | binary b =>
      cases carries
      unfold Arrived.effects Router.effects
      dsimp only
      split
      · rename_i tag
        refine ⟨_, ?_, rfl⟩
        split
        · exact .input tag _
        · exact .input tag []
      · exact ⟨_, byShape_left true, rfl⟩
  | ping | pong | frame | close => cases carries

theorem effects_none (carries : a.inbound.data? = none) : a.effects = [] := by
  obtain ⟨m, r, s, free⟩ := a
  cases m with
  | text t | binary b => cases carries
  | ping | pong | frame | close => rfl

theorem hook_first {hook : Bytes → Bool} (hooks : a.router.hook = some hook)
    (carries : a.inbound.data? = some data) :
    ∃ es, a.effects = .onFrame data (hook data) :: if hook data then [] else es := by
  obtain ⟨es, -, same⟩ := effects_cases carries
  refine ⟨es, ?_⟩
  rw [same, Router.onFrame, hooks]

theorem effects_seen : a.effects.filterMap Effect.seen? = a.seen?.toList := by
  unfold Arrived.seen?
  cases carries : a.inbound.data? with
  | none =>
      rw [effects_none carries]
      cases a.router.hook <;> rfl
  | some data =>
      obtain ⟨es, way, same⟩ := effects_cases carries
      have seen : es.filterMap Effect.seen? = [] := by
        rw [List.filterMap_eq_nil_iff]
        intro e mem
        have inside := left_inLoop way e mem
        cases e <;> first | rfl | cases inside
      rw [same, Router.onFrame]
      cases a.router.hook with
      | none => exact seen
      | some hook =>
          dsimp only
          cases hook data with
          | true => rfl
          | false => exact congrArg (data :: ·) seen

/-- What goes on the method table's queue the tasks and the subscriptions put there. -/
theorem effects_table (texts : Texts) : a.effects.filterMap (Effect.table? texts) = [] := by
  rw [List.filterMap_eq_nil_iff]
  intro e mem
  cases carries : a.inbound.data? with
  | none =>
      rw [effects_none carries] at mem
      cases mem
  | some data =>
      obtain ⟨es, way, same⟩ := effects_cases carries
      have inside : e.inLoop = true ∨ ∃ took, e = .onFrame data took := by
        rw [same] at mem
        obtain ⟨-, whole⟩ | ⟨-, whole | whole⟩ := onFrame_cases a.router data es
        · rw [whole] at mem
          exact .inr ⟨true, List.mem_singleton.mp mem⟩
        · rw [whole] at mem
          exact .inl (left_inLoop way e mem)
        · rw [whole] at mem
          obtain rfl | mem := List.mem_cons.mp mem
          · exact .inr ⟨false, rfl⟩
          · exact .inl (left_inLoop way e mem)
      obtain inside | ⟨took, rfl⟩ := inside
      · cases e <;> first | rfl | cases inside
      · rfl

theorem effects_invoked : a.effects.filterMap Effect.invoked? = a.due?.toList := by
  unfold Arrived.due? Arrived.nearCall? Arrived.untaken
  cases carries : a.inbound.data? with
  | none =>
      rw [effects_none carries]
      rfl
  | some data =>
      obtain ⟨es, way, same⟩ := effects_cases carries
      have invoked := left_invoked way
      rw [same, Option.bind_some]
      obtain ⟨hooked, alone⟩ | ⟨hooked, same | after⟩ := onFrame_cases a.router data es
      · rw [alone]
        simp only [hooked, Bool.not_true, Bool.false_and, Bool.and_false, Bool.false_eq_true,
          if_false]
        rfl
      · rw [same]
        simpa only [hooked, Bool.not_false, Bool.true_and] using invoked
      · rw [after]
        simp only [hooked, Bool.not_false, Bool.true_and]
        exact invoked

/-- What leads a call to the method table: the hook and the open inputs leave it. -/
def passing (data : Bytes) : List Effect := [.onFrame data false, .takeFrame data false]

theorem near_effects {req : Request} (called : a.nearCall? = some req) :
    ∃ data front, front ⊆ passing data ∧
      a.effects = front ++ a.router.dispatch.effects a.free req a.server := by
  obtain ⟨data, carries, held⟩ := Option.bind_eq_some_iff.mp called
  obtain ⟨untaken, held⟩ := Option.ite_none_right_eq_some.mp held
  obtain ⟨leads, untaken⟩ := Bool.and_eq_true_iff.mp untaken
  obtain ⟨unhooked, unheld⟩ := Bool.and_eq_true_iff.mp untaken
  obtain ⟨es, way, same⟩ := effects_cases carries
  have brace : (data.dropWhile isAsciiWhitespace).head? = some 0x7b := by
    unfold Router.call? at held
    exact (Option.ite_none_right_eq_some.mp held).1
  have onward : ∀ es, a.router.Onward a.free data a.server es →
      es = a.router.dispatch.effects a.free req a.server := by
    intro es on
    cases on with
    | single near brace =>
        unfold Router.call? at held
        obtain ⟨-, request⟩ := Option.ite_none_right_eq_some.mp held
        unfold Router.effectsSingle
        rw [request]
    | batch bracket =>
        rw [brace] at bracket
        cases bracket
    | refused ws other => exact absurd brace (other (of_decide_eq_true leads))
  have passes : ∃ front, front ⊆ [.takeFrame data false] ∧
      es = front ++ a.router.dispatch.effects a.free req a.server := by
    cases way with
    | input tag ws =>
        rw [Router.call_none tag] at held
        cases held
    | taken opened took => simp [opened, took] at unheld
    | passed offered on => exact ⟨[_], List.Subset.refl _, congrArg (_ :: ·) (onward _ on)⟩
    | unoffered untouched on => exact ⟨[], List.nil_subset _, onward _ on⟩
  obtain ⟨front, within, rfl⟩ := passes
  obtain ⟨hooked, -⟩ | ⟨-, whole | whole⟩ := onFrame_cases a.router data
    (front ++ a.router.dispatch.effects a.free req a.server)
  · simp [hooked] at unhooked
  · exact ⟨data, front, List.Subset.trans within (List.subset_cons_self _ _), same.trans whole⟩
  · exact ⟨data, _ :: front, List.cons_subset_cons _ within, same.trans whole⟩

/-- A frame that answers this call. -/
def Bears (texts : Texts) (req : Request) (raw : Bytes) : Prop :=
  ∃ rp : MethodResponse, rp.kind = .methodCall ∧ rp.id = req.id ∧
    raw = texts.encode (Written.answer rp).json

/-- One frame, or a task that is to make it. -/
structure Owes (texts : Texts) (req : Request) (es : List Effect) : Prop where
  one : (es.filterMap (Effect.frame? texts)).length + (es.filterMap Effect.spawned?).length = 1
  bears : ∀ raw ∈ es.filterMap (Effect.frame? texts), Bears texts req raw
  task : ∀ t ∈ es.filterMap Effect.spawned?, t = some req
  still : es.countP Effect.awaits = 0

theorem owes_answer (texts : Texts) {req : Request} {rp : MethodResponse}
    (kind : rp.kind = .methodCall) (id : rp.id = req.id) :
    Owes texts req ((Conn.respond rp).map .respond) := by
  have ws : Conn.respond rp = [.answer rp] := by simp [Conn.respond, kind]
  rw [ws]
  refine ⟨rfl, fun raw mem => ?_, fun t mem => ?_, rfl⟩
  · exact ⟨rp, kind, id, List.mem_singleton.mp mem⟩
  · cases mem

theorem owes_front {texts : Texts} {req : Request} {data : Bytes} {front es : List Effect}
    (within : front ⊆ passing data) (owes : Owes texts req es) : Owes texts req (front ++ es) := by
  have quiet : ∀ e ∈ front, e = .onFrame data false ∨ e = .takeFrame data false := fun e mem => by
    simpa [passing] using within mem
  have frames : front.filterMap (Effect.frame? texts) = [] := by
    rw [List.filterMap_eq_nil_iff]
    intro e mem
    obtain rfl | rfl := quiet e mem <;> rfl
  have spawned : front.filterMap Effect.spawned? = [] := by
    rw [List.filterMap_eq_nil_iff]
    intro e mem
    obtain rfl | rfl := quiet e mem <;> rfl
  have awaits : front.countP Effect.awaits = 0 := by
    rw [List.countP_eq_zero]
    intro e mem
    obtain rfl | rfl := quiet e mem <;> simp [Effect.awaits]
  refine ⟨?_, ?_, ?_, ?_⟩
  · rw [List.filterMap_append, List.filterMap_append, frames, spawned]
    exact owes.one
  · rw [List.filterMap_append, frames]
    exact owes.bears
  · rw [List.filterMap_append, spawned]
    exact owes.task
  · rw [List.countP_append, awaits, owes.still]

/-- A call of a method that is no subscription makes its answer, or a task to make it. -/
theorem effects_owes (texts : Texts) {req : Request} (answering : a.router.dispatch.Answering)
    (owed : a.owes? = some req) : Owes texts req a.effects := by
  obtain ⟨called, near, method⟩ := Option.bind_eq_some_iff.mp owed
  obtain ⟨data, front, within, same⟩ := near_effects near
  rw [same]
  apply owes_front within
  unfold Dispatch.effects Loop.call
  cases callback : a.router.dispatch.methodWithName called.method with
  | none =>
      rw [callback] at method
      cases method
      exact owes_answer texts rfl rfl
  | some callback' =>
      rw [callback] at method
      cases callback' with
      | sync cb =>
          cases method
          obtain ⟨kind, id⟩ := answering _ cb (.inl callback) req.id req.params a.server
          exact { owes_answer texts kind id with }
      | unsubscription cb =>
          cases method
          obtain ⟨kind, id⟩ := answering _ cb (.inr callback) req.id req.params a.server
          exact { owes_answer texts kind id with }
      | async cb =>
          cases method
          refine ⟨rfl, fun raw mem => ?_, fun t mem => List.mem_singleton.mp mem, rfl⟩
          cases mem
      | subscription cb => cases method

theorem call_spawned (d : Dispatch σ) (free : Nat) (req : Request) (s : σ) :
    none ∉ (d.effects free req s).filterMap Effect.spawned? := by
  have answered : ∀ ws : List Written, none ∉ (ws.map Effect.respond).filterMap Effect.spawned? := by
    intro ws
    rw [respond_spawned]
    exact List.not_mem_nil
  unfold Dispatch.effects
  cases Loop.call d (permit free s) req s with
  | refused rp | returned kind rp => exact answered _
  | spawned fut | accepting fut => simp [Called.effects, Effect.spawned?]

/-- Only a batch starts a task that is for no one call. -/
theorem spawned_batch (spawned : none ∈ a.effects.filterMap Effect.spawned?) :
    a.inbound.isBatch = true := by
  cases carries : a.inbound.data? with
  | none =>
      rw [effects_none carries] at spawned
      cases spawned
  | some data =>
      obtain ⟨es, way, same⟩ := effects_cases carries
      have onward : ∀ es, a.router.Onward a.free data a.server es →
          none ∈ es.filterMap Effect.spawned? → a.inbound.isBatch = true := by
        intro es on spawned
        cases on with
        | single near brace =>
            obtain ⟨req, -, single⟩ | ⟨-, ws, single⟩ :=
              a.router.single_cases a.free (data.dropWhile isAsciiWhitespace) a.server
            · rw [single] at spawned
              exact absurd spawned (call_spawned _ _ _ _)
            · rw [single, respond_spawned] at spawned
              cases spawned
        | batch bracket => simp [Inbound.isBatch, carries, bracket]
        | refused ws other =>
            rw [respond_spawned] at spawned
            cases spawned
      have left : none ∈ es.filterMap Effect.spawned? := by
        rw [same] at spawned
        obtain ⟨-, whole⟩ | ⟨-, whole | whole⟩ := onFrame_cases a.router data es
        · rw [whole] at spawned
          cases spawned
        · rwa [whole] at spawned
        · rw [whole] at spawned
          exact spawned
      cases way with
      | input tag ws =>
          rw [List.filterMap_cons_none rfl, respond_spawned] at left
          cases left
      | taken opened took => cases left
      | passed offered on => exact onward _ on left
      | unoffered untouched on => exact onward es on left

end Arrived

end PlexusTransport.Ws.Conn
