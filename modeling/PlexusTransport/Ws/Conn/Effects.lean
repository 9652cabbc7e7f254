import PlexusTransport.Ws.Conn.Wake

/-! # What a message does

`Loop::message` as the things it does, one after another: the hook called, the open
inputs offered the message, a callback invoked, a task started, a frame queued.
-/

namespace PlexusTransport.Ws.Conn

open Json

deriving instance DecidableEq for Inbound

/-- `spawn`: a call of an async method, or a batch (`none`), gets a task of its own;
    `send`: that task's answer on the method table's queue, and `sink` a subscription's. -/
inductive Effect where
  | onFrame (data : Bytes) (took : Bool)
  | takeFrame (data : Bytes) (took : Bool)
  | takeBinary (data : Bytes)
  | invoke (kind : Kind) (req : Request)
  | spawn (req : Option Request)
  | await
  | respond (w : Written)
  | send (w : Written)
  | sink (raw : Bytes)

namespace Effect

def seen? : Effect → Option Bytes
  | .onFrame data _ => some data
  | _ => none

/-- Done by the loop once the hook has left the message. -/
def inLoop : Effect → Bool
  | .onFrame _ _ | .send _ | .sink _ => false
  | _ => true

def invoked? : Effect → Option (Kind × Request)
  | .invoke kind req => some (kind, req)
  | _ => none

def spawned? : Effect → Option (Option Request)
  | .spawn req => some req
  | _ => none

def awaits : Effect → Bool
  | .await => true
  | _ => false

def written? : Effect → Option Written
  | .respond w => some w
  | _ => none

/-- What goes on the method table's queue. -/
def table? (texts : Texts) : Effect → Option Bytes
  | .send w => some (texts.encode w.json)
  | .sink raw => some raw
  | _ => none

/-- What is to be written to the peer. -/
def frame? (texts : Texts) : Effect → Option Bytes
  | .respond w | .send w => some (texts.encode w.json)
  | .sink raw => some raw
  | _ => none

end Effect

variable {σ : Type}

def Called.effects (req : Request) : Called σ → List Effect
  | .refused rp _ => (respond rp).map .respond
  | .returned kind rp _ => .invoke kind req :: (respond rp).map .respond
  | .spawned _ => [.invoke .async req, .spawn (some req)]
  | .accepting _ => [.invoke .subscription req, .await]

/-- A call, with so many subscription permits free. -/
def Dispatch.effects (d : Dispatch σ) (free : Nat) (req : Request) (s : σ) : List Effect :=
  (Loop.call d (permit free s) req s).effects req

namespace Router

variable (r : Router σ)

def effectsSingle (free : Nat) (data : Bytes) (s : σ) : List Effect :=
  match (r.parse data).bind Request.ofJson with
  | some req => r.dispatch.effects free req s
  | none =>
      if ((r.parse data).bind Notification.ofJson).isSome then []
      else if isAnswer (r.parse data) then []
      else
        let (id, code) := prepareError (r.parse data)
        (respond (.error id (.ofCode code))).map .respond

/-- Past the inputs, by the first byte that is no blank. -/
def effectsByByte (free : Nat) (binary : Bool) (data : Bytes) (from? : Option Bytes) (s : σ) :
    List Effect :=
  match from?.bind List.head? with
  | some 0x7b => r.effectsSingle free (from?.getD []) s
  | some 0x5b => [.spawn none]
  | _ =>
      (if binary then malformed (unreadable data)
        else respond (.error .null (.ofCode .parseError))).map .respond

def effectsByShape (free : Nat) (binary : Bool) (data : Bytes) (s : σ) : List Effect :=
  let first := (data.take 128).findIdx? fun b => !isAsciiWhitespace b
  let onward := r.effectsByByte free binary data (first.map data.drop) s
  if first.isSome && !r.inputsIdle then
    .takeFrame data (r.takeFrame data) :: if r.takeFrame data then [] else onward
  else onward

/-- The hook first; what it takes nothing else sees. -/
def onFrame (data : Bytes) (onward : List Effect) : List Effect :=
  match r.hook with
  | none => onward
  | some hook => .onFrame data (hook data) :: if hook data then [] else onward

def effects (free : Nat) (m : Inbound) (s : σ) : List Effect :=
  match m with
  | .text t => r.onFrame t (r.effectsByShape free false t s)
  | .binary b =>
      if b.head? = some binaryInput then
        r.onFrame b (.takeBinary b ::
          if r.takeBinary b = .malformed then
            (malformed "a binary input frame is 17 bytes of header and its payload").map .respond
          else [])
      else r.onFrame b (r.effectsByShape free true b s)
  | .ping | .pong | .frame | .close => []

end Router

/-- The payload the hook is called with. -/
def Inbound.data? : Inbound → Option Bytes
  | .text t => some t
  | .binary b => some b
  | .ping | .pong | .frame | .close => none

/-- An array, its leading blanks passed over. -/
def Inbound.isBatch (m : Inbound) : Bool :=
  m.data?.any fun data => (data.dropWhile isAsciiWhitespace).head? == some 0x5b

/-- The callback a call is for: a subscription's only with a permit free. -/
def Dispatch.callback? (d : Dispatch σ) (free : Nat) (req : Request) : Option (Kind × Request) :=
  match d.methodWithName req.method with
  | none => none
  | some (.sync _) => some (.sync, req)
  | some (.async _) => some (.async, req)
  | some (.subscription _) => if 0 < free then some (.subscription, req) else none
  | some (.unsubscription _) => some (.unsubscription, req)

/-- The callbacks that answer do it with a method call's response, which bears the call's id. -/
def Dispatch.Answering (d : Dispatch σ) : Prop :=
  ∀ name cb, d.methodWithName name = some (.sync cb) ∨
    d.methodWithName name = some (.unsubscription cb) →
    ∀ id params s, (cb id params s).1.kind = .methodCall ∧ (cb id params s).1.id = id

/-- The call a text is: an object, its leading blanks passed over. -/
def Router.call? (r : Router σ) (data : Bytes) : Option Request :=
  let text := data.dropWhile isAsciiWhitespace
  if text.head? = some 0x7b then (r.parse text).bind Request.ofJson else none

/-- Fewer than 128 blanks lead it. -/
def near (data : Bytes) : Bool := decide ((data.takeWhile isAsciiWhitespace).length < 128)

section Written

variable (ws : List Written)

theorem respond_invoked : (ws.map Effect.respond).filterMap Effect.invoked? = [] := by
  simp [List.filterMap_eq_nil_iff, Effect.invoked?]

theorem respond_spawned : (ws.map Effect.respond).filterMap Effect.spawned? = [] := by
  simp [List.filterMap_eq_nil_iff, Effect.spawned?]

theorem respond_awaits : (ws.map Effect.respond).countP Effect.awaits = 0 := by
  simp [List.countP_eq_zero, Effect.awaits]

theorem respond_written : (ws.map Effect.respond).filterMap Effect.written? = ws := by
  induction ws with
  | nil => rfl
  | cons w ws ih => simp [Effect.written?, ih]

end Written

/-- What follows the first element that is not one of the passed over, if it is among the
    first `n`. -/
theorem drop_findIdx {α : Type} (p : α → Bool) (l : List α) (n : Nat) :
    ((l.take n).findIdx? fun b => !p b).map l.drop =
      if (l.takeWhile p).length < n ∧ l.dropWhile p ≠ [] then some (l.dropWhile p) else none := by
  induction l generalizing n with
  | nil => simp
  | cons x l ih =>
      cases n with
      | zero => simp
      | succ n =>
          rw [List.take_succ_cons, List.findIdx?_cons]
          cases passed : p x with
          | true =>
              rw [List.takeWhile_cons_of_pos passed, List.dropWhile_cons_of_pos passed]
              simp only [Bool.not_true, Bool.false_eq_true, if_false, Option.map_map,
                List.length_cons, Nat.add_lt_add_iff_right]
              exact ih n
          | false =>
              simp [passed]

namespace Router

variable (r : Router σ) (free : Nat) (binary : Bool) (data : Bytes) (s : σ)

/-- The three ways on, past the inputs. -/
inductive Onward (r : Router σ) (free : Nat) (data : Bytes) (s : σ) : List Effect → Prop where
  | single (near : (data.takeWhile isAsciiWhitespace).length < 128)
      (brace : (data.dropWhile isAsciiWhitespace).head? = some 0x7b) :
      Onward r free data s (r.effectsSingle free (data.dropWhile isAsciiWhitespace) s)
  | batch (bracket : (data.dropWhile isAsciiWhitespace).head? = some 0x5b) :
      Onward r free data s [.spawn none]
  | refused (ws : List Written)
      (other : (data.takeWhile isAsciiWhitespace).length < 128 →
        (data.dropWhile isAsciiWhitespace).head? ≠ some 0x7b) :
      Onward r free data s (ws.map .respond)

/-- What becomes of a message that the hook leaves. -/
inductive Left (r : Router σ) (free : Nat) (data : Bytes) (s : σ) : List Effect → Prop where
  | input (tag : data.head? = some binaryInput) (ws : List Written) :
      Left r free data s (.takeBinary data :: ws.map .respond)
  | taken (opened : r.inputsIdle = false) (took : r.takeFrame data = true) :
      Left r free data s [.takeFrame data true]
  | passed {es : List Effect} (offered : r.takeFrame data = false) (on : r.Onward free data s es) :
      Left r free data s (.takeFrame data false :: es)
  | unoffered {es : List Effect} (untouched : r.inputsIdle = true ∨ r.call? data = none ∨ near data = false)
      (on : r.Onward free data s es) : Left r free data s es

theorem onward :
    r.Onward free data s (r.effectsByByte free binary data
      (((data.take 128).findIdx? fun b => !isAsciiWhitespace b).map data.drop) s) := by
  rw [drop_findIdx]
  unfold effectsByByte
  by_cases near : (data.takeWhile isAsciiWhitespace).length < 128
  · cases text : data.dropWhile isAsciiWhitespace with
    | nil =>
        simp only [ne_eq, not_true_eq_false, and_false, if_false, Option.bind_none]
        exact .refused _ fun _ => by simp [text]
    | cons b rest =>
        simp only [near, ne_eq, reduceCtorEq, not_false_eq_true, and_self, if_true,
          Option.bind_some, List.head?_cons, Option.getD_some]
        by_cases brace : b = 0x7b
        · subst brace
          have single : r.Onward free data s _ := .single near (by rw [text]; rfl)
          rwa [text] at single
        · by_cases bracket : b = 0x5b
          · subst bracket
            exact .batch (by rw [text]; rfl)
          · split
            · rename_i same
              exact absurd (Option.some.inj same) brace
            · rename_i same
              exact absurd (Option.some.inj same) bracket
            · refine .refused _ fun _ => ?_
              rw [text, List.head?_cons]
              exact fun same => brace (Option.some.inj same)
  · simp only [near, false_and, if_false, Option.bind_none]
    exact .refused _ fun near' => absurd near' near

variable {r free binary data s} {es : List Effect}

theorem call_inLoop (d : Dispatch σ) (free : Nat) (req : Request) (s : σ) :
    ∀ e ∈ d.effects free req s, e.inLoop = true := by
  unfold Dispatch.effects
  cases Loop.call d (permit free s) req s with
  | refused | returned | spawned | accepting => simp [Called.effects, Effect.inLoop]

theorem call_invoked (d : Dispatch σ) (req : Request) :
    (d.effects free req s).filterMap Effect.invoked? = (d.callback? free req).toList := by
  unfold Dispatch.effects Loop.call Dispatch.callback? permit
  cases d.methodWithName req.method with
  | none => exact respond_invoked _
  | some callback =>
      cases callback with
      | sync cb => exact congrArg ((Kind.sync, req) :: ·) (respond_invoked _)
      | async cb => rfl
      | subscription cb =>
          by_cases some : 0 < free
          · simp only [if_pos some]
            rfl
          · simp only [if_neg some]
            exact respond_invoked _
      | unsubscription cb => exact congrArg ((Kind.unsubscription, req) :: ·) (respond_invoked _)

theorem single_cases (r : Router σ) (free : Nat) (data : Bytes) (s : σ) :
    (∃ req, (r.parse data).bind Request.ofJson = some req ∧
      r.effectsSingle free data s = r.dispatch.effects free req s) ∨
    ((r.parse data).bind Request.ofJson = none ∧
      ∃ ws : List Written, r.effectsSingle free data s = ws.map .respond) := by
  unfold effectsSingle
  cases request : (r.parse data).bind Request.ofJson with
  | some req => exact .inl ⟨req, rfl, rfl⟩
  | none =>
      refine .inr ⟨rfl, ?_⟩
      dsimp only
      split
      · exact ⟨[], rfl⟩
      · split
        · exact ⟨[], rfl⟩
        · exact ⟨_, rfl⟩

theorem onward_inLoop (on : r.Onward free data s es) : ∀ e ∈ es, e.inLoop = true := by
  cases on with
  | single near brace =>
      obtain ⟨req, -, same⟩ | ⟨-, ws, same⟩ :=
        r.single_cases free (data.dropWhile isAsciiWhitespace) s
      · rw [same]
        exact call_inLoop _ _ req s
      · rw [same]
        simp [Effect.inLoop]
  | batch bracket => simp [Effect.inLoop]
  | refused ws other => simp [Effect.inLoop]

theorem onward_invoked (on : r.Onward free data s es) :
    es.filterMap Effect.invoked? =
      ((if near data then r.call? data else none).bind (r.dispatch.callback? free)).toList := by
  unfold near call?
  cases on with
  | single near brace =>
      simp only [near, decide_true, if_true, brace]
      obtain ⟨req, request, same⟩ | ⟨request, ws, same⟩ :=
        r.single_cases free (data.dropWhile isAsciiWhitespace) s
      · rw [same, request]
        exact call_invoked _ req
      · rw [same, request]
        exact respond_invoked ws
  | batch bracket =>
      simp only [bracket]
      split <;> rfl
  | refused ws other =>
      rw [respond_invoked]
      split
      · rename_i near
        rw [if_neg (other (of_decide_eq_true near))]
        rfl
      · rfl

theorem byShape_left (binary : Bool) :
    r.Left free data s (r.effectsByShape free binary data s) := by
  have on := r.onward free binary data s
  have first := drop_findIdx isAsciiWhitespace data 128
  unfold effectsByShape
  dsimp only
  split
  · rename_i offered
    obtain ⟨-, opened⟩ := Bool.and_eq_true_iff.mp offered
    cases took : r.takeFrame data with
    | true => exact .taken (by simpa using opened) took
    | false => exact .passed took on
  · rename_i untouched
    refine .unoffered ?_ on
    cases idle : r.inputsIdle with
    | true => exact .inl rfl
    | false =>
        refine .inr ?_
        cases found : (data.take 128).findIdx? fun b => !isAsciiWhitespace b with
        | some i => simp [found, idle] at untouched
        | none =>
            rw [found] at first
            by_cases leads : (data.takeWhile isAsciiWhitespace).length < 128
            · left
              have empty : data.dropWhile isAsciiWhitespace = [] := by
                by_contra filled
                rw [if_pos ⟨leads, filled⟩] at first
                cases first
              simp [call?, empty]
            · exact .inr (decide_eq_false leads)

theorem left_inLoop (way : r.Left free data s es) : ∀ e ∈ es, e.inLoop = true := by
  cases way with
  | input tag ws => simp [Effect.inLoop]
  | taken opened took => simp [Effect.inLoop]
  | passed offered on =>
      intro e mem
      obtain rfl | mem := List.mem_cons.mp mem
      · rfl
      · exact onward_inLoop on e mem
  | unoffered untouched on => exact onward_inLoop on

theorem call_none (tag : data.head? = some binaryInput) : r.call? data = none := by
  cases data with
  | nil => cases tag
  | cons b data =>
      cases tag
      simp [call?, binaryInput, isAsciiWhitespace]

theorem left_invoked (way : r.Left free data s es) :
    es.filterMap Effect.invoked? =
      ((if near data && (r.inputsIdle || !r.takeFrame data) then r.call? data else none).bind
        (r.dispatch.callback? free)).toList := by
  cases way with
  | input tag ws =>
      rw [call_none tag, ite_self]
      exact respond_invoked ws
  | taken opened took =>
      simp only [opened, took, Bool.not_true, Bool.or_self, Bool.and_false, Bool.false_eq_true,
        if_false]
      rfl
  | passed offered on =>
      simp only [offered, Bool.not_false, Bool.or_true, Bool.and_true]
      exact (onward_invoked on :)
  | unoffered untouched on =>
      rw [onward_invoked on]
      obtain idle | none | far := untouched
      · simp [idle]
      · simp [none]
      · simp [far]

theorem onFrame_cases (r : Router σ) (data : Bytes) (es : List Effect) :
    (r.hooked data = true ∧ r.onFrame data es = [.onFrame data true]) ∨
    (r.hooked data = false ∧
      (r.onFrame data es = es ∨ r.onFrame data es = .onFrame data false :: es)) := by
  unfold hooked onFrame
  cases r.hook with
  | none => exact .inr ⟨rfl, .inl rfl⟩
  | some hook =>
      cases took : hook data with
      | true => exact .inl ⟨took, by simp [took]⟩
      | false => exact .inr ⟨took, .inr (by simp [took])⟩

end Router

/-- The answers made at once, the tasks started and the acceptances awaited. -/
def tally (es : List Effect) : List Written × Nat × Nat :=
  (es.filterMap Effect.written?, (es.filterMap Effect.spawned?).length, es.countP Effect.awaits)

def Begun.tally : Begun → List Written × Nat × Nat
  | .answers _ ws => (ws, 0, 0)
  | .accepting => ([], 0, 1)
  | .task _ => ([], 1, 0)

namespace Router

variable {r : Router σ} {free : Nat} {s : σ} {b : Begun}

theorem tally_respond (ws : List Written) : tally (ws.map .respond) = (ws, 0, 0) := by
  rw [tally, respond_written, respond_spawned, respond_awaits]
  rfl

theorem tally_call (d : Dispatch σ) (free : Nat) (req : Request) (s : σ) :
    tally (d.effects free req s) = (d.begin free req s).tally := by
  unfold Dispatch.effects Dispatch.begin
  cases Loop.call d (permit free s) req s with
  | refused rp s' | returned kind rp s' => exact (tally_respond _ :)
  | spawned fut | accepting fut => rfl

theorem tally_single (r : Router σ) (free : Nat) (data : Bytes) (s : σ) :
    tally (r.effectsSingle free data s) = (r.beginSingle free data s).tally := by
  unfold effectsSingle beginSingle
  cases (r.parse data).bind Request.ofJson with
  | some req => exact tally_call _ free req s
  | none =>
      dsimp only
      split
      · rfl
      · split
        · rfl
        · exact tally_respond _

theorem tally_byShape (r : Router σ) (free : Nat) (binary : Bool) (data : Bytes) (s : σ) :
    tally (r.effectsByShape free binary data s) = (r.beginByShape free binary data s).tally := by
  unfold effectsByShape beginByShape
  dsimp only
  generalize (data.take 128).findIdx? (fun b => !isAsciiWhitespace b) = first
  have onward : tally (r.effectsByByte free binary data (first.map data.drop) s) =
      (match (first.map data.drop).bind List.head? with
        | some 0x7b => r.beginSingle free ((first.map data.drop).getD []) s
        | some 0x5b => .task (batchCalls (r.parse ((first.map data.drop).getD [])))
        | _ =>
            if binary then .answers false (malformed (unreadable data))
            else .answers false (Conn.respond (.error .null (.ofCode .parseError)))).tally := by
    unfold effectsByByte
    generalize (first.map data.drop).bind List.head? = byte
    split
    · exact tally_single r free _ s
    · rfl
    · cases binary <;> exact tally_respond _
  cases offered : first.isSome && !r.inputsIdle with
  | false =>
      simp only [Bool.false_and, Bool.false_eq_true, if_false]
      exact onward
  | true =>
      cases r.takeFrame data with
      | true => rfl
      | false =>
          simp only [Bool.and_false, Bool.false_eq_true, if_false, if_true]
          exact onward

theorem tally_onFrame (r : Router σ) (data : Bytes) (es : List Effect) :
    tally (r.onFrame data es) = if r.hooked data then ([], 0, 0) else tally es := by
  obtain ⟨hooked, alone⟩ | ⟨hooked, same | after⟩ := onFrame_cases r data es
  · rw [alone, if_pos hooked]
    rfl
  · rw [same, hooked]
    rfl
  · rw [after, hooked]
    rfl

/-- Only a close ends the loop. -/
theorem begin_error {m : Inbound} {e : End} (begun : r.begin free m s = .error e) :
    m = .close := by
  cases m with
  | close => rfl
  | text t | ping | pong | frame => cases begun
  | binary data =>
      simp only [begin] at begun
      split at begun
      · cases begun
      · split at begun
        · split at begun <;> cases begun
        · cases begun

/-- The loop's answers, tasks and acceptances are those of the message's effects. -/
theorem effects_begin {m : Inbound} (begun : r.begin free m s = .ok b) :
    tally (r.effects free m s) = b.tally := by
  cases m with
  | text t =>
      cases begun
      refine (tally_onFrame ..).trans ?_
      rw [tally_byShape]
      cases r.hooked t <;> rfl
  | binary data =>
      unfold effects
      simp only [begin] at begun ⊢
      rw [apply_ite tally, tally_onFrame, tally_onFrame, tally_byShape]
      cases hooked : r.hooked data with
      | true =>
          rw [hooked, if_pos rfl] at begun
          cases begun
          exact ite_self _
      | false =>
          simp only [hooked, Bool.false_eq_true, if_false] at begun ⊢
          split at begun
          · rename_i tag
            rw [if_pos tag]
            split at begun
            · rename_i malformed
              cases begun
              rw [if_pos malformed]
              exact (tally_respond _ :)
            · rename_i delivered
              cases begun
              rw [if_neg delivered]
              rfl
          · rename_i other
            cases begun
            exact if_neg other
  | ping | pong | frame =>
      cases begun
      rfl
  | close => cases begun

end Router

end PlexusTransport.Ws.Conn
