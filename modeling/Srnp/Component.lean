import Srnp.PairSpaceView
import Srnp.MasterMessages

/-! A component: the pair space its two halves share, the sessions and the
subscriptions of its client, and the calls that reach it. A call is entered by
running it to the end of its first critical section; what it still has to do
then is a list of actions, one for each later step that other threads may fall
between. `setPair` and `removePair` keep the pair space locked while they fan
out. The handlers of the server release the lock first. -/
namespace Srnp
open Std LastWrite

structure SubscriptionRecord where
  owner : OwnerId
  key : Bytes
deriving DecidableEq, Repr

/-- What remains of a call. A session named by a number is a pointer the call
already holds; a session named by its owner is looked up when it is used. -/
inductive Action (F : Type) where
  | send (subscriber : OwnerId) (message : Message)
  | sendOn (owner : OwnerId) (session : Nat) (message : Subscription)
  | sendAll (key : Bytes) (registering : Bool)
  | call (callback : F) (snapshot : Pair)
  | post (snapshot : Pair) (callbacks : List F)
  | unlock

/-- The public calls of a client, the master's updates, the replay a session
starts once it is connected, and a frame read by the server. -/
inductive Call (F : Type) where
  | setPair (key value : Bytes) (type : PairType)
  | setRemotePair (owner : OwnerId) (key value : Bytes) (type : PairType)
  | removePair (key : Bytes)
  | removeRemotePair (owner : OwnerId) (key : Bytes)
  | registerCallback (owner : OwnerId) (key : Bytes) (callback : F)
  | cancelCallback (handle : CallbackHandle)
  | registerSubscription (owner : OwnerId) (key : Bytes)
  | cancelSubscription (owner : OwnerId) (key : Bytes)
  | cancelSubscriptionHandle (handle : SubscriptionHandle)
  | addSession (component : ComponentInfo)
  | removeSession (owner : OwnerId)
  | sendSubscriptionsFor (owner : OwnerId) (session : Nat)
  | handle (message : Message)

structure Component (F : Type) where
  owner : OwnerId
  ready : Bool
  space : PairSpace F
  sessions : ExtTreeMap OwnerId Nat
  nextSession : Nat
  components : ExtTreeMap OwnerId ComponentInfo
  subscriptions : ExtTreeMap SubscriptionHandle SubscriptionRecord
  nextSubscriptionHandle : SubscriptionHandle

/-- A call after its first critical section. `change` is the frame that
announces what the call did to the pair space, if it did anything. -/
structure Entered (F : Type) where
  component : Component F
  todo : List (Action F)
  locked : Bool := false
  change : Option Message := none

namespace Component
variable {F : Type}

def initial (owner : OwnerId) : Component F :=
  ⟨owner, true, .empty, ∅, 0, ∅, ∅, kInvalidSubscriptionHandle⟩

def idle (c : Component F) : Entered F := { component := c, todo := [] }

/-- `fanOutPair` and `fanOutRemoval` build the frame before the loop, so a
frame that is too large stops the call before anything is sent. -/
def fanOut (message : Message) (subscribers : List OwnerId) :
    Except Wire.DecodeError (List (Action F)) := do
  let _ ← message.frameOf
  pure (subscribers.map fun subscriber => .send subscriber message)

def fanOutUnlessEmpty (message : Message) (subscribers : SubscriberList) :
    Except Wire.DecodeError (List (Action F)) :=
  if subscribers.ids.isEmpty then pure [] else fanOut message subscribers.ids

/-- Fan out, then go on with `rest`. Where the frame cannot be built the call
is left by an exception, with only `unwind` still to do. -/
def fanOutThen (message : Message) (subscribers : SubscriberList)
    (unwind rest : List (Action F)) : List (Action F) :=
  match fanOutUnlessEmpty message subscribers with
  | .error _ => unwind
  | .ok sends => sends ++ rest

def notifyLocal (snapshot : Pair) (callbacks : List F) : List (Action F) :=
  if callbacks.isEmpty then [] else [.post snapshot callbacks]

def setPair (c : Component F) (key value : Bytes) (type : PairType) (now : TimePoint) :
    Entered F :=
  if c.ready then
    let (space, entry) := c.space.addPair { owner := c.owner, key, value, type } now
    { component := { c with space },
      todo := fanOutThen (.pairUpdate entry.pair) entry.subscribers [.unlock]
        (.unlock :: notifyLocal entry.pair (space.callbacksFor entry)),
      locked := true, change := some (.pairUpdate entry.pair) }
  else c.idle

def removePair (c : Component F) (key : Bytes) : Entered F :=
  if c.ready then
    let request : RemovePairRequest := ⟨c.owner, key⟩
    match c.space.find request.pairKey with
    | none => c.idle
    | some entry =>
        { component := { c with space := c.space.removePair request.pairKey },
          todo := fanOutThen (.pairRemoved request) entry.subscribers [.unlock] [.unlock],
          locked := true, change := some (.pairRemoved request) }
  else c.idle

/-- Framing throws before the frame reaches the session. -/
def sendTo (c : Component F) (owner : OwnerId) (message : Message) : Entered F :=
  { component := c, todo := if message.fits then [.send owner message] else [] }

def setRemotePair (c : Component F) (owner : OwnerId) (key value : Bytes) (type : PairType) :
    Entered F :=
  c.sendTo owner (.pair { owner, key, value, type })

def removeRemotePair (c : Component F) (owner : OwnerId) (key : Bytes) : Entered F :=
  if owner = c.owner then c.removePair key else c.sendTo owner (.removePair ⟨owner, key⟩)

def registerCallback (c : Component F) (owner : OwnerId) (key : Bytes) (callback : F)
    (now : TimePoint) : Entered F :=
  if key = kWildcardKey then
    { c.idle with component := { c with space := (c.space.addCallbackToAll callback).1 } }
  else
    { c.idle with
      component := { c with space := (c.space.addCallback ⟨owner, key⟩ callback now).1 } }

def cancelCallback (c : Component F) (handle : CallbackHandle) : Entered F :=
  { c.idle with component := { c with space := c.space.removeCallback handle } }

def sendSubscription (c : Component F) (owner : OwnerId) (key : Bytes) (registering : Bool) :
    Entered F :=
  if owner ≠ kAnyOwner then c.sendTo owner (.subscription ⟨key, owner, c.owner, registering⟩)
  else { component := c, todo := [.sendAll key registering] }

def registerSubscription (c : Component F) (owner : OwnerId) (key : Bytes) : Entered F :=
  if c.subscriptions.toList.any (fun entry => entry.2 = ⟨owner, key⟩) then c.idle
  else
    let handle := c.nextSubscriptionHandle + 1
    sendSubscription
      { c with
        subscriptions := c.subscriptions.insertIfNew handle ⟨owner, key⟩
        nextSubscriptionHandle := handle }
      owner key true

def cancelSubscription (c : Component F) (owner : OwnerId) (key : Bytes) : Entered F :=
  match c.subscriptions.toList.find? (fun entry => entry.2 = ⟨owner, key⟩) with
  | none => c.idle
  | some (handle, _) =>
      sendSubscription { c with subscriptions := c.subscriptions.erase handle } owner key false

def cancelSubscriptionHandle (c : Component F) (handle : SubscriptionHandle) : Entered F :=
  match c.subscriptions[handle]? with
  | none => c.idle
  | some record =>
      sendSubscription { c with subscriptions := c.subscriptions.erase handle }
        record.owner record.key false

def addSession (c : Component F) (info : ComponentInfo) : Entered F :=
  { c.idle with
    component := { c with
      sessions := c.sessions.insert info.owner c.nextSession
      nextSession := c.nextSession + 1
      components := c.components.insert info.owner info } }

def removeSession (c : Component F) (owner : OwnerId) : Entered F :=
  { c.idle with
    component := { c with
      sessions := c.sessions.erase owner
      components := c.components.erase owner } }

def onWelcome (c : Component F) (welcome : MasterMessage) : Entered F :=
  let renamed := { c with owner := welcome.owner }
  let joined := welcome.allComponents.foldl (fun c info => (c.addSession info).component) renamed
  { c.idle with component := { joined with ready := true } }

def onComponentUpdate (c : Component F) (update : UpdateComponents) : Entered F :=
  match update.operation with
  | .add => c.addSession update.component
  | .remove => c.removeSession update.component.owner

def subscriptionsFor (c : Component F) (owner : OwnerId) : List SubscriptionRecord :=
  (c.subscriptions.toList.map (·.2)).filter fun record =>
    record.owner = kAnyOwner ∨ record.owner = owner

/-- A record too long to frame ends the replay with an exception. -/
def sendSubscriptionsFor (c : Component F) (owner : OwnerId) (session : Nat) : Entered F :=
  let messages := (c.subscriptionsFor owner).map fun record =>
    (⟨record.key, if record.owner = kAnyOwner then owner else record.owner, c.owner, true⟩ :
      Subscription)
  { component := c,
    todo := (messages.takeWhile fun message => (Message.subscription message).fits).map
      (.sendOn owner session) }

def sendsToAll (c : Component F) (key : Bytes) (registering : Bool) : List (Action F) :=
  let addressed (owner : OwnerId) : Subscription := ⟨key, owner, c.owner, registering⟩
  let sessions := c.sessions.toList.takeWhile fun session =>
    (Message.subscription (addressed session.1)).fits
  sessions.map fun session => .sendOn session.1 session.2 (addressed session.1)

/-! ### The server's handlers -/

def applyAndNotify (c : Component F) (pair : Pair) (now : TimePoint) : Entered F :=
  let (space, entry) := c.space.addPair pair now
  let calls := (space.callbacksFor entry).map fun callback => .call callback entry.pair
  { component := { c with space },
    todo := calls ++ fanOutThen (.pairUpdate entry.pair) entry.subscribers [] [],
    change := some (.pairUpdate entry.pair) }

def handleIncomingPair (c : Component F) (pair : Pair) (now : TimePoint) : Entered F :=
  c.applyAndNotify { pair with owner := c.owner } now

def handlePairUpdate (c : Component F) (pair : Pair) (now : TimePoint) : Entered F :=
  c.applyAndNotify pair now

def ownPairs (c : Component F) (space : PairSpace F) : List Pair :=
  (space.pairs.toList.map (·.2.pair)).filter fun pair =>
    pair.owner = c.owner ∧ pair.type ≠ .invalid

def currentPair (space : PairSpace F) (key : PairKey) : List Pair :=
  ((space.copyOf key).toList).filter fun pair => pair.type ≠ .invalid

/-- A pair too large to frame ends the handler with an exception. -/
def sendEach (pairs : List Pair) (subscriber : OwnerId) : List (Action F) :=
  (pairs.takeWhile fun pair => (Message.pairUpdate pair).fits).map fun pair =>
    .send subscriber (.pairUpdate pair)

def handleSubscription (c : Component F) (message : Subscription) (now : TimePoint) :
    Entered F :=
  if message.key ≠ kWildcardKey ∧ message.ownerId ≠ c.owner then c.idle
  else if message.subscriber = c.owner then c.idle
  else if message.registering then
    if message.key = kWildcardKey then
      let space := c.space.addSubscriptionToAll message.subscriber
      { component := { c with space },
        todo := sendEach (c.ownPairs space) message.subscriber }
    else
      let space := c.space.addSubscription ⟨message.ownerId, message.key⟩ message.subscriber now
      { component := { c with space },
        todo := sendEach (currentPair space ⟨message.ownerId, message.key⟩) message.subscriber }
  else if message.key = kWildcardKey then
    { c.idle with
      component := { c with space := c.space.removeSubscriptionToAll message.subscriber } }
  else
    { c.idle with
      component := { c with
        space := c.space.removeSubscription ⟨message.ownerId, message.key⟩ message.subscriber } }

def handleRemovePair (c : Component F) (request : RemovePairRequest) : Entered F :=
  if request.owner ≠ c.owner then c.idle
  else
    match c.space.find request.pairKey with
    | none => c.idle
    | some entry =>
        { component := { c with space := c.space.removePair request.pairKey },
          todo := fanOutThen (.pairRemoved request) entry.subscribers [] [],
          change := some (.pairRemoved request) }

def handlePairRemoved (c : Component F) (request : RemovePairRequest) : Entered F :=
  { component := { c with space := c.space.removePair request.pairKey }, todo := [],
    change := some (.pairRemoved request) }

/-- `ServerSession::handle`, on a frame whose payload has been decoded. -/
def handle (c : Component F) (message : Message) (now : TimePoint) : Entered F :=
  match message with
  | .pair pair => c.handleIncomingPair pair now
  | .pairUpdate pair => c.handlePairUpdate pair now
  | .subscription message => c.handleSubscription message now
  | .removePair request => c.handleRemovePair request
  | .pairRemoved request => c.handlePairRemoved request

def enter (c : Component F) (call : Call F) (now : TimePoint) : Entered F :=
  match call with
  | .setPair key value type => c.setPair key value type now
  | .setRemotePair owner key value type => c.setRemotePair owner key value type
  | .removePair key => c.removePair key
  | .removeRemotePair owner key => c.removeRemotePair owner key
  | .registerCallback owner key callback => c.registerCallback owner key callback now
  | .cancelCallback handle => c.cancelCallback handle
  | .registerSubscription owner key => c.registerSubscription owner key
  | .cancelSubscription owner key => c.cancelSubscription owner key
  | .cancelSubscriptionHandle handle => c.cancelSubscriptionHandle handle
  | .addSession component => c.addSession component
  | .removeSession owner => c.removeSession owner
  | .sendSubscriptionsFor owner session => c.sendSubscriptionsFor owner session
  | .handle message => c.handle message now

def getPair (c : Component F) (key : PairKey) : Option Pair :=
  (c.space.copyOf key).filter fun pair => pair.type ≠ .invalid

def hands (c : Component F) : Action F → List (OwnerId × Message)
  | .send subscriber message =>
      if c.sessions.contains subscriber then [(subscriber, message)] else []
  | .sendOn owner session message =>
      if c.sessions[owner]? = some session then [(owner, .subscription message)] else []
  | _ => []

end Component

end Srnp
