import Srnp.MetaTracker
import Srnp.Lib.Transition

/-! A process with its node and its trackers. Both are global to the process,
but the node comes and goes with `initialize` and `shutdown` while the table of
trackers stays. A change of a pair is followed, later and on another thread, by
the calls of `onMetaPairChanged` that were collected for it. Beside the state of
the program a process carries what happened to it: whom each handle was given
to, and what the user asked for and cancelled. -/
namespace Srnp
open Std LastWrite Transition HandleTable

/-- The node and `g_trackers`. -/
structure Kernel (U : Type) where
  node : Option (Component (Watcher U))
  trackers : ExtTreeMap PairKey (MetaTracker U)

abbrev KernelM (U : Type) := EStateM Unit (Kernel U)

namespace Kernel
variable {U : Type}

def onTracker (key : PairKey) (tracker : MetaTracker U) (m : HeldM U Unit) : KernelM U Unit :=
  fun kernel =>
    match m ⟨kernel.node, tracker⟩ with
    | .ok _ held => .ok () ⟨held.node, kernel.trackers.insert key held.tracker⟩
    | .error _ held => .error () ⟨held.node, kernel.trackers.insert key held.tracker⟩

/-- Runs whenever a tracked meta-pair changes value. -/
def onMetaPairChanged (metapair : Pair) (now : TimePoint) : KernelM U Unit := do
  match (← get).trackers[metapair.pairKey]? with
  | none => pure ()
  | some tracker => onTracker metapair.pairKey tracker (Held.repoint metapair.value now)

/-- A tracker that could not be filled in is dropped. -/
def registerTracker (key : PairKey) (fn : Option U) (now : TimePoint) : KernelM U Unit :=
  fun kernel =>
    match kernel.trackers[key]? with
    | some tracker =>
        .ok () { kernel with trackers := kernel.trackers.insert key { tracker with fn } }
    | none =>
        match Held.acquireMeta key now ⟨kernel.node, { fn }⟩ with
        | .ok _ held => .ok () ⟨held.node, kernel.trackers.insert key held.tracker⟩
        | .error _ held => .error () ⟨held.node, kernel.trackers⟩

def cancelMetaCallback (key : PairKey) : KernelM U Unit := do
  match (← get).trackers[key]? with
  | none => pure ()
  | some tracker =>
      onTracker key tracker Held.releaseAll
      modify fun kernel => { kernel with trackers := kernel.trackers.erase key }

end Kernel

def stateOf {σ : Type} : EStateM.Result Unit σ Unit → σ
  | .ok _ s => s
  | .error _ s => s

inductive Slot where
  | metaPair
  | target
deriving DecidableEq

structure Agent where
  key : PairKey
  slot : Slot
deriving DecidableEq

/-- Calls of `onMetaPairChanged` that are still to come for one change of a pair:
one, and `further` ones. They are made on the callback strand, or by the handler
that applied the change. -/
structure Notice where
  strand : Bool
  snapshot : Pair
  further : Nat

def Watcher.isMeta {U : Type} : Watcher U → Bool
  | .user _ => false
  | .onMetaPairChanged => true

/-- The calls of `onMetaPairChanged` among the callbacks of one change. -/
def noticeOf {U : Type} (strand : Bool) (snapshot : Pair) (callbacks : List (Watcher U)) :
    Option Notice :=
  match callbacks.countP Watcher.isMeta with
  | 0 => none
  | further + 1 => some ⟨strand, snapshot, further⟩

def notices {U : Type} (todo : List (Action (Watcher U))) : List Notice :=
  (Srnp.pending todo).filterMap (fun work => noticeOf true work.1 work.2) ++
    match todo.filterMap Action.callback with
    | [] => []
    | (callback, snapshot) :: rest =>
        (noticeOf false snapshot (callback :: rest.map (·.1))).toList

structure Process (U : Type) where
  kernel : Kernel U
  pending : List Notice
  /-- The tracker that a handle was given to, if it was one, and what for. -/
  subscriptionMaker : SubscriptionHandle → Option (Option Agent × SubscriptionRecord)
  callbackMaker : CallbackHandle → Option (Option Agent × (Option PairKey × Watcher U))
  /-- The user asked for the subscription, and did not cancel it. -/
  asked : SubscriptionRecord → Bool
  /-- The user cancelled the subscription, and nobody registered it again. -/
  cancelled : SubscriptionRecord → Bool

inductive ProcessAction (U : Type) where
  | initializeNode (welcome : MasterMessage)
  | shutdown
  /-- A call of the user, or one that arrives at the node. -/
  | call (call : Call (Watcher U)) (now : TimePoint)
  /-- `registerMetaCallback`, and `registerMetaSubscription`, which has no callback. -/
  | registerTracker (key : PairKey) (fn : Option U) (now : TimePoint)
  /-- `cancelMetaCallback` and `cancelMetaSubscription`. -/
  | cancelMetaCallback (key : PairKey)
  | notify (index : Nat) (now : TimePoint)

/-- Only the trackers register `onMetaPairChanged`. -/
def Call.byUser {U : Type} : Call (Watcher U) → Bool
  | .registerCallback _ _ callback => !callback.isMeta
  | _ => true

def Call.asks {F : Type} : Call F → Option SubscriptionRecord
  | .registerSubscription owner key => some ⟨owner, key⟩
  | _ => none

def Component.cancels {F : Type} (c : Component F) : Call F → Option SubscriptionRecord
  | .cancelSubscription owner key => if c.subscribed ⟨owner, key⟩ then some ⟨owner, key⟩ else none
  | .cancelSubscriptionHandle handle => c.subscriptions[handle]?
  | _ => none

def mark (table : SubscriptionRecord → Bool) (record : Option SubscriptionRecord) (value : Bool) :
    SubscriptionRecord → Bool :=
  match record with
  | none => table
  | some record => Function.update table record value

/-- Note what a handle was given out for, where the counter of the handles moved. -/
def note {ρ : Type} (maker : Option Agent) (before after : UInt64) (named : Option ρ)
    (table : UInt64 → Option (Option Agent × ρ)) : UInt64 → Option (Option Agent × ρ) :=
  if after = before then table else Function.update table after (named.map (maker, ·))

namespace Process
variable {U : Type}

def start : Process U :=
  ⟨⟨none, ∅⟩, [], fun _ => none, fun _ => none, fun _ => false, fun _ => false⟩

def filed (before after : Component (Watcher U)) : Option SubscriptionRecord :=
  if after.nextSubscriptionHandle = before.nextSubscriptionHandle then none
  else after.subscriptions[after.nextSubscriptionHandle]?

def advance (p : Process U) (maker : Option Agent) (kernel : Kernel U) : Process U :=
  match p.kernel.node, kernel.node with
  | some before, some after =>
      { p with
        kernel
        subscriptionMaker := note maker before.nextSubscriptionHandle after.nextSubscriptionHandle
          after.subscriptions[after.nextSubscriptionHandle]? p.subscriptionMaker
        callbackMaker := note maker before.space.nextCallbackHandle after.space.nextCallbackHandle
          (after.space.callbackAt after.space.nextCallbackHandle) p.callbackMaker
        cancelled := mark p.cancelled (filed before after) false }
  | _, _ => { p with kernel }

def called (pending : List Notice) (index : Nat) (notice : Notice) : List Notice :=
  match notice.further with
  | 0 => pending.eraseIdx index
  | further + 1 => pending.set index { notice with further }

/-- An exception on the callback strand ends the process. In a handler it ends the
connection, and with it the calls that were still to come. -/
def step (p : Process U) : ProcessAction U → Option (Process U)
  | .initializeNode welcome =>
      match p.kernel.node with
      | some _ => some p
      | none => some { p with
          kernel := { p.kernel with node := some (Component.constructed.onWelcome welcome).component } }
  | .shutdown => some { start with kernel := { p.kernel with node := none } }
  | .call call now =>
      if call.byUser then
        match p.kernel.node with
        | none => some p
        | some c =>
            let entered := c.enter call now
            let after := p.advance none { p.kernel with node := some entered.component }
            some { after with
              pending := p.pending ++ notices entered.todo
              asked := mark (mark p.asked (c.cancels call) false) call.asks true
              cancelled := mark after.cancelled (c.cancels call) true }
      else none
  | .registerTracker key fn now =>
      some (p.advance (some ⟨key, .metaPair⟩) (stateOf (Kernel.registerTracker key fn now p.kernel)))
  | .cancelMetaCallback key =>
      some (p.advance none (stateOf (Kernel.cancelMetaCallback key p.kernel)))
  | .notify index now =>
      match p.pending[index]? with
      | none => none
      | some notice =>
          let maker : Agent := ⟨notice.snapshot.pairKey, .target⟩
          match Kernel.onMetaPairChanged notice.snapshot now p.kernel with
          | .ok _ kernel => some { p.advance (some maker) kernel with
              pending := called p.pending index notice }
          | .error _ kernel =>
              if notice.strand then none
              else some { p.advance (some maker) kernel with pending := p.pending.eraseIdx index }

end Process

end Srnp
