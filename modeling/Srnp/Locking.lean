import Srnp.Lib.LockOrder

/-! The mutexes of a process and every scope in which one is held. Each function
stands for the locks it takes, the callbacks it runs and the places where it
waits; a coroutine that is spawned and a handler that is posted are threads of
their own. Several scopes lie within others, all of them in one order: the
trackers, the pair space, the state of the client, the channel of a session, the
outbox of a channel, the log. -/
namespace Srnp.Locking
open LockOrder Transition

inductive Mutex where
  /-- `g_mutex` of the meta-pair trackers. -/
  | trackers
  /-- `PairSpace::mutex`. -/
  | pairSpace
  /-- `Client::state_mutex_`. -/
  | state
  /-- `Client::ready_mutex_`. -/
  | ready
  /-- `ClientSession::channel_mutex_`, one for each session. -/
  | channel (session : Nat)
  /-- `FrameChannel::outbox_mutex_`, one for each channel. -/
  | outbox (channel : Nat)
  /-- `MasterHub::mutex_`. -/
  | hub
  /-- `SrnpLink::mutex_`. -/
  | link
  /-- `g_write_mutex` of the log. -/
  | write
deriving DecidableEq

/-- `logAt`: a line below the level is dropped. -/
def log : Code Mutex := .optional (.locked .write .done)

namespace FrameChannel

def read : Code Mutex := .block [.await, .optional .await]

def makeRoomLocked : Code Mutex := .optional log

def close (channel : Nat) : Code Mutex := .optional (.locked (.outbox channel) .done)

/-- The drain is spawned, not run, once the outbox is unlocked. -/
def send (channel : Nat) : Code Mutex :=
  .either log (.block [.locked (.outbox channel) makeRoomLocked, .optional (close channel)])

def drainOutbox (channel : Nat) : Code Mutex :=
  .block [.many (.block [.locked (.outbox channel) .done, .await]),
    .optional (.block [log, .locked (.outbox channel) .done])]

def outboxSize (channel : Nat) : Code Mutex := .locked (.outbox channel) .done

end FrameChannel

namespace ClientSession

/-- A session that is closing closes the new channel with its own lock held. -/
def connect (session : Nat) : Code Mutex :=
  .pick fun channel => .block [.await, log, .await, log,
    .locked (.channel session) (.optional (FrameChannel.close channel)),
    .many (FrameChannel.send channel)]

def send (session : Nat) : Code Mutex :=
  .optional (.locked (.channel session)
    (.either (.pick FrameChannel.send) (.optional log)))

def close (session : Nat) : Code Mutex :=
  .block [.locked (.channel session) .done, .optional (.pick FrameChannel.close)]

end ClientSession

namespace Client

def sessionFor : Code Mutex := .locked .state .done
def allSessions : Code Mutex := .locked .state .done
def subscriptionsFor : Code Mutex := .locked .state .done
def components : Code Mutex := .locked .state .done

def close : Code Mutex := .block [.locked .state .done, .many (.pick ClientSession.close)]

/-- The condition variable unlocks while it waits. -/
def waitUntilReady : Code Mutex := .many (.block [.locked .ready .done, .await])

/-- The session's `run` is spawned. -/
def addSession : Code Mutex := .locked .state .done

def removeSession : Code Mutex :=
  .block [.locked .state .done, .optional (.pick ClientSession.close)]

def onWelcome : Code Mutex := .block [.many addSession, .locked .ready .done]

def onComponentUpdate : Code Mutex := .block [log, .either addSession removeSession]

def fanOut : Code Mutex :=
  .many (.block [sessionFor, .either (.pick ClientSession.send) log])

def fanOutPair : Code Mutex := fanOut
def fanOutRemoval : Code Mutex := fanOut

/-- What `notifyLocal` posts to `callback_strand_`. -/
def notifyPosted : Code Mutex := .many .callback

def setPair : Code Mutex := .optional (.locked .pairSpace (.optional fanOutPair))

def setRemotePair : Code Mutex :=
  .block [sessionFor, .either log (.pick ClientSession.send)]

def removePair : Code Mutex :=
  .optional (.locked .pairSpace (.either log (.optional fanOutRemoval)))

def removeRemotePair : Code Mutex :=
  .either removePair (.block [sessionFor, .either log (.pick ClientSession.send)])

def getPair : Code Mutex := .locked .pairSpace .done

def getPairIndirectly : Code Mutex := .block [getPair, .either log getPair]

def setPairIndirectly : Code Mutex :=
  .block [getPair, .either log (.either setPair setRemotePair)]

def setMetaPair : Code Mutex := .either setPair setRemotePair
def initMetaPair : Code Mutex := .either setPair setRemotePair

def registerCallback : Code Mutex := .locked .pairSpace (.optional log)
def cancelCallback : Code Mutex := .locked .pairSpace (.optional log)

def sendSubscription : Code Mutex :=
  .either (.block [sessionFor, .optional (.pick ClientSession.send)])
    (.block [allSessions, .many (.pick ClientSession.send)])

def registerSubscription : Code Mutex :=
  .block [.locked .state (.optional log), .optional sendSubscription]

def cancelSubscription : Code Mutex :=
  .block [.locked .state (.optional log), .optional sendSubscription]

end Client

namespace ClientSession

def sendSubscriptionsFor (session : Nat) : Code Mutex :=
  .block [Client.subscriptionsFor, .many (send session)]

def run (session : Nat) : Code Mutex :=
  .block [.many (.block [connect session, .await]), log, sendSubscriptionsFor session]

end ClientSession

namespace ServerSession

/-- The callbacks run, and the frames go out, after the lock is released. -/
def applyAndNotify : Code Mutex :=
  .block [.locked .pairSpace .done, .many .callback, .optional Client.fanOutPair]

def handleIncomingPair : Code Mutex := applyAndNotify
def handlePairUpdate : Code Mutex := applyAndNotify

def sendPairUpdate : Code Mutex := Client.fanOutPair

def handleSubscription : Code Mutex :=
  .either log (.block [.locked .pairSpace (.optional log), .many sendPairUpdate])

def handleRemovePair : Code Mutex :=
  .either log (.block [.locked .pairSpace (.optional log), .optional Client.fanOutRemoval])

def handlePairRemoved : Code Mutex := .locked .pairSpace .done

def handle : Code Mutex :=
  .either handleIncomingPair (.either handlePairUpdate (.either handleSubscription
    (.either handleRemovePair handlePairRemoved)))

def run (channel : Nat) : Code Mutex :=
  .block [.many (.block [FrameChannel.read, handle]), log, FrameChannel.close channel]

end ServerSession

namespace MasterLink

def registerWithMaster : Code Mutex := .block [.await, .await, .await]

def run : Code Mutex :=
  .block [.many (.block [FrameChannel.read, Client.onComponentUpdate]), log]

def close : Code Mutex := .pick FrameChannel.close

end MasterLink

namespace Server

/-- The constructor; the accept loop and `MasterLink::run` are spawned. -/
def start : Code Mutex :=
  .block [.await, MasterLink.registerWithMaster, log, Client.onWelcome]

def acceptLoop : Code Mutex := .block [.many .await, .optional log]

def printPairSpace : Code Mutex := .locked .pairSpace .done

/-- The worker threads are joined. -/
def stop : Code Mutex := .optional (.block [.optional MasterLink.close, .await])

end Server

namespace Kernel

def shutdown : Code Mutex := .block [.optional Client.close, .optional Server.stop]

def initializeNode : Code Mutex :=
  .optional (.block [Server.start, .either shutdown
    (.block [Client.waitUntilReady, .either shutdown log])])

def snapshotPairs : Code Mutex := .locked .pairSpace .done

end Kernel

namespace MetaTracker

def releaseTarget : Code Mutex :=
  .block [.optional Client.cancelCallback, .optional Client.cancelSubscription]

def acquireTarget : Code Mutex :=
  .block [Client.registerSubscription, .optional Client.registerCallback]

def onMetaPairChanged : Code Mutex :=
  .locked .trackers (.optional (.block [releaseTarget, .optional acquireTarget]))

def registerTracker : Code Mutex :=
  .locked .trackers (.optional (.block [Client.registerSubscription, Client.registerCallback]))

def cancelMetaCallback : Code Mutex :=
  .locked .trackers (.either log
    (.block [releaseTarget, Client.cancelSubscription, Client.cancelCallback]))

end MetaTracker

namespace MasterHub

def registerComponent : Code Mutex := .locked .hub (.optional log)

def removeComponent : Code Mutex := .locked .hub .done

def sendToAll : Code Mutex := .block [.locked .hub .done, .many (.pick FrameChannel.send)]

def acceptLoop : Code Mutex := .block [.many .await, log]

end MasterHub

/-- `MasterHubSession::run`. Whatever is thrown skips what is left of the `try`. -/
def MasterHubSession.run (channel : Nat) : Code Mutex :=
  .block [.optional (.block [FrameChannel.read, MasterHub.registerComponent,
      FrameChannel.send channel, log, MasterHub.sendToAll, FrameChannel.read]), log,
    .optional (.block [MasterHub.removeComponent, MasterHub.sendToAll, log]),
    FrameChannel.close channel]

namespace SrnpLink

def state : Code Mutex := .locked .link .done
def lastError : Code Mutex := .locked .link .done

def subscribeToAll : Code Mutex := Client.registerSubscription

def connectLoop : Code Mutex :=
  .many (.block [.locked .link .done,
    .either (.block [Kernel.initializeNode, subscribeToAll, .locked .link log])
      (.block [Kernel.initializeNode, .optional subscribeToAll, .locked .link .done]), .await])

def setSubscribedToAll : Code Mutex :=
  .block [state, .optional (.either subscribeToAll Client.cancelSubscription)]

end SrnpLink

/-- The calls of the library and of its window, which a callback may make too,
and the callback of the trackers. -/
def api : List (Code Mutex) :=
  [Kernel.initializeNode, Kernel.shutdown, Kernel.snapshotPairs, Client.setPair, Client.setRemotePair,
    Client.removePair, Client.removeRemotePair, Client.getPair, Client.getPairIndirectly,
    Client.setPairIndirectly, Client.setMetaPair, Client.initMetaPair, Client.registerCallback,
    Client.cancelCallback, Client.registerSubscription, Client.cancelSubscription,
    Client.components, Client.waitUntilReady, Server.printPairSpace,
    MetaTracker.registerTracker, MetaTracker.cancelMetaCallback, MetaTracker.onMetaPairChanged,
    SrnpLink.state, SrnpLink.lastError, SrnpLink.setSubscribedToAll, SrnpLink.connectLoop]

/-- The coroutines and posted handlers, each about some connection. -/
def coroutines (number : Nat) : List (Code Mutex) :=
  [FrameChannel.drainOutbox number, FrameChannel.outboxSize number, ClientSession.run number,
    ServerSession.run number, MasterHubSession.run number, MasterLink.run, Server.acceptLoop,
    MasterHub.acceptLoop, Client.notifyPosted]

def Makes (code : Code Mutex) : Prop := code ∈ api ∨ ∃ number, code ∈ coroutines number

/-! ### One order -/

def Mutex.rank : Mutex → Nat
  | .trackers => 1
  | .pairSpace => 2
  | .state => 3
  | .ready => 3
  | .channel _ => 4
  | .outbox _ => 5
  | .hub => 1
  | .link => 1
  | .write => 6

theorem Mutex.rank_pos (mutex : Mutex) : 0 < mutex.rank := by
  cases mutex <;> simp [rank]

theorem Mutex.rank_le (mutex : Mutex) : mutex.rank ≤ 6 := by
  cases mutex <;> simp [rank]

section
variable {low : Nat}

theorem log_ordered (h : low < 6) : log.Ordered Mutex.rank low := by
  simp [log, Code.optional, Code.Ordered, Mutex.rank, h]

namespace FrameChannel

theorem read_ordered : read.Ordered Mutex.rank 0 := by
  simp [read, Code.optional, Code.Ordered]

theorem close_ordered (channel : Nat) (h : low < 5) :
    (close channel).Ordered Mutex.rank low := by
  simp [close, Code.optional, Code.Ordered, Mutex.rank, h]

theorem send_ordered (channel : Nat) (h : low < 5) : (send channel).Ordered Mutex.rank low := by
  have hroom : makeRoomLocked.Ordered Mutex.rank 5 := ⟨trivial, log_ordered (by decide)⟩
  refine ⟨log_ordered (by omega), ?_⟩
  rw [Code.ordered_block]
  simp only [List.forall_mem_cons, List.not_mem_nil, false_implies, implies_true, and_true]
  exact ⟨⟨h, hroom⟩, trivial, close_ordered channel h⟩

theorem drainOutbox_ordered (channel : Nat) : (drainOutbox channel).Ordered Mutex.rank 0 := by
  simp [drainOutbox, Code.optional, Code.Ordered, Mutex.rank, log_ordered]

end FrameChannel

namespace ClientSession

theorem connect_ordered (session : Nat) : (connect session).Ordered Mutex.rank 0 := by
  intro channel
  have hclose := @FrameChannel.close_ordered 4 channel (by decide)
  have hsend := @FrameChannel.send_ordered 0 channel (by decide)
  simp [Code.optional, Code.Ordered, Mutex.rank, log_ordered, hclose, hsend]

theorem send_ordered (session : Nat) (h : low < 4) : (send session).Ordered Mutex.rank low := by
  have hsend : ∀ channel, (FrameChannel.send channel).Ordered Mutex.rank 4 :=
    fun channel => FrameChannel.send_ordered channel (by decide)
  have hlog : log.Ordered Mutex.rank 4 := log_ordered (by decide)
  exact ⟨trivial, h, hsend, trivial, hlog⟩

theorem close_ordered (session : Nat) (h : low < 4) : (close session).Ordered Mutex.rank low := by
  have hclose : ∀ channel, (FrameChannel.close channel).Ordered Mutex.rank low :=
    fun channel => FrameChannel.close_ordered channel (by omega)
  simp [close, Code.optional, Code.Ordered, Mutex.rank, h, hclose]

end ClientSession

namespace Client

theorem sessionFor_ordered (h : low < 3) : sessionFor.Ordered Mutex.rank low := ⟨h, trivial⟩

theorem send_ordered (h : low < 4) (session : Nat) :
    (ClientSession.send session).Ordered Mutex.rank low :=
  ClientSession.send_ordered session h

theorem fanOut_ordered (h : low < 3) : fanOut.Ordered Mutex.rank low := by
  have hsend := @send_ordered low (by omega)
  have hlog := @log_ordered low (by omega)
  change (Code.block _).Ordered Mutex.rank low
  simp [Code.Ordered, sessionFor_ordered h, hsend, hlog]

theorem setPair_ordered (h : low < 2) : setPair.Ordered Mutex.rank low :=
  ⟨trivial, h, trivial, fanOut_ordered (by decide)⟩

theorem removePair_ordered (h : low < 2) : removePair.Ordered Mutex.rank low :=
  ⟨trivial, h, log_ordered (by decide), trivial, fanOut_ordered (by decide)⟩

theorem setRemotePair_ordered (h : low < 3) : setRemotePair.Ordered Mutex.rank low := by
  have hsend := @send_ordered low (by omega)
  have hlog := @log_ordered low (by omega)
  simp [setRemotePair, Code.Ordered, sessionFor_ordered h, hsend, hlog]

theorem removeRemotePair_ordered (h : low < 2) : removeRemotePair.Ordered Mutex.rank low :=
  ⟨removePair_ordered h, setRemotePair_ordered (by omega)⟩

theorem registerCallback_ordered (h : low < 2) : registerCallback.Ordered Mutex.rank low :=
  ⟨h, trivial, log_ordered (by decide)⟩

theorem cancelCallback_ordered (h : low < 2) : cancelCallback.Ordered Mutex.rank low :=
  ⟨h, trivial, log_ordered (by decide)⟩

theorem sendSubscription_ordered (h : low < 3) : sendSubscription.Ordered Mutex.rank low := by
  have hsend := @send_ordered low (by omega)
  constructor
  · simp [Code.optional, Code.Ordered, sessionFor_ordered h, hsend]
  · simp [allSessions, Code.Ordered, Mutex.rank, h, hsend]

theorem registerSubscription_ordered (h : low < 3) :
    registerSubscription.Ordered Mutex.rank low := by
  have hlog := @log_ordered 3 (by decide)
  simp [registerSubscription, Code.optional, Code.Ordered, Mutex.rank, h, hlog,
    sendSubscription_ordered h]

theorem cancelSubscription_ordered (h : low < 3) : cancelSubscription.Ordered Mutex.rank low :=
  registerSubscription_ordered h

theorem close_ordered (h : low < 3) : close.Ordered Mutex.rank low := by
  have hclose : ∀ session, (ClientSession.close session).Ordered Mutex.rank low :=
    fun session => ClientSession.close_ordered session (by omega)
  simp [close, Code.Ordered, Mutex.rank, h, hclose]

theorem onWelcome_ordered (h : low < 3) : onWelcome.Ordered Mutex.rank low := by
  simp [onWelcome, addSession, Code.Ordered, Mutex.rank, h]

theorem onComponentUpdate_ordered (h : low < 3) : onComponentUpdate.Ordered Mutex.rank low := by
  have hclose : ∀ session, (ClientSession.close session).Ordered Mutex.rank low :=
    fun session => ClientSession.close_ordered session (by omega)
  have hlog := @log_ordered low (by omega)
  simp [onComponentUpdate, addSession, removeSession, Code.optional, Code.Ordered, Mutex.rank, h,
    hclose, hlog]

end Client

theorem ClientSession.run_ordered (session : Nat) : (run session).Ordered Mutex.rank 0 := by
  have hsend := @send_ordered 0 session (by decide)
  have hrecords : Client.subscriptionsFor.Ordered Mutex.rank 0 :=
    Client.sessionFor_ordered (by decide)
  simp [run, sendSubscriptionsFor, Code.Ordered, log_ordered, connect_ordered, hsend, hrecords]

namespace ServerSession

theorem applyAndNotify_ordered : applyAndNotify.Ordered Mutex.rank 0 := by
  have hfan : Client.fanOutPair.Ordered Mutex.rank 0 := Client.fanOut_ordered (by decide)
  simp [applyAndNotify, Code.optional, Code.Ordered, Mutex.rank, hfan]

theorem handle_ordered : handle.Ordered Mutex.rank 0 := by
  have hfan : Client.fanOut.Ordered Mutex.rank 0 := Client.fanOut_ordered (by decide)
  refine ⟨applyAndNotify_ordered, applyAndNotify_ordered, ⟨log_ordered (by decide), ?_⟩,
    ⟨log_ordered (by decide), ?_⟩, by decide, trivial⟩
  · simp [sendPairUpdate, Client.fanOutPair, Code.optional, Code.Ordered, Mutex.rank, log_ordered,
      hfan]
  · simp [Client.fanOutRemoval, Code.optional, Code.Ordered, Mutex.rank, log_ordered, hfan]

theorem run_ordered (channel : Nat) : (run channel).Ordered Mutex.rank 0 := by
  have hclose := @FrameChannel.close_ordered 0 channel (by decide)
  simp [run, Code.Ordered, log_ordered, FrameChannel.read_ordered, handle_ordered, hclose]

end ServerSession

namespace Kernel

theorem shutdown_ordered : shutdown.Ordered Mutex.rank 0 := by
  have hclient := @Client.close_ordered 0 (by decide)
  have hlink : MasterLink.close.Ordered Mutex.rank 0 :=
    fun channel => FrameChannel.close_ordered channel (by decide)
  simp [shutdown, Server.stop, Code.optional, Code.Ordered, hclient, hlink]

theorem initializeNode_ordered : initializeNode.Ordered Mutex.rank 0 := by
  have hwelcome := @Client.onWelcome_ordered 0 (by decide)
  simp [initializeNode, Server.start, MasterLink.registerWithMaster, Client.waitUntilReady,
    Code.optional, Code.Ordered, Mutex.rank, log_ordered, shutdown_ordered, hwelcome]

end Kernel

namespace MetaTracker

theorem releaseTarget_ordered : releaseTarget.Ordered Mutex.rank 1 := by
  have hcallback := @Client.cancelCallback_ordered 1 (by decide)
  have hsubscription := @Client.cancelSubscription_ordered 1 (by decide)
  simp [releaseTarget, Code.optional, Code.Ordered, hcallback, hsubscription]

theorem onMetaPairChanged_ordered : onMetaPairChanged.Ordered Mutex.rank 0 := by
  have hcallback := @Client.registerCallback_ordered 1 (by decide)
  have hsubscription := @Client.registerSubscription_ordered 1 (by decide)
  simp [onMetaPairChanged, acquireTarget, Code.optional, Code.Ordered, Mutex.rank,
    releaseTarget_ordered, hcallback, hsubscription]

theorem registerTracker_ordered : registerTracker.Ordered Mutex.rank 0 := by
  have hcallback := @Client.registerCallback_ordered 1 (by decide)
  have hsubscription := @Client.registerSubscription_ordered 1 (by decide)
  simp [registerTracker, Code.optional, Code.Ordered, Mutex.rank, hcallback, hsubscription]

theorem cancelMetaCallback_ordered : cancelMetaCallback.Ordered Mutex.rank 0 := by
  have hcallback := @Client.cancelCallback_ordered 1 (by decide)
  have hsubscription := @Client.cancelSubscription_ordered 1 (by decide)
  simp [cancelMetaCallback, Code.Ordered, Mutex.rank, log_ordered, releaseTarget_ordered,
    hcallback, hsubscription]

end MetaTracker

theorem MasterHubSession.run_ordered (channel : Nat) : (run channel).Ordered Mutex.rank 0 := by
  have hsend : ∀ channel, (FrameChannel.send channel).Ordered Mutex.rank 0 :=
    fun channel => FrameChannel.send_ordered channel (by decide)
  have hclose := @FrameChannel.close_ordered 0 channel (by decide)
  simp [run, MasterHub.registerComponent, MasterHub.sendToAll, MasterHub.removeComponent,
    Code.optional, Code.Ordered, Mutex.rank, log_ordered, FrameChannel.read_ordered, hsend, hclose]

namespace SrnpLink

theorem connectLoop_ordered : connectLoop.Ordered Mutex.rank 0 := by
  have hsubscribe : subscribeToAll.Ordered Mutex.rank 0 :=
    Client.registerSubscription_ordered (by decide)
  simp [connectLoop, Code.optional, Code.Ordered, Mutex.rank, log_ordered,
    Kernel.initializeNode_ordered, hsubscribe]

theorem setSubscribedToAll_ordered : setSubscribedToAll.Ordered Mutex.rank 0 := by
  have hsubscribe : subscribeToAll.Ordered Mutex.rank 0 :=
    Client.registerSubscription_ordered (by decide)
  have hcancel := @Client.cancelSubscription_ordered 0 (by decide)
  simp [setSubscribedToAll, state, Code.optional, Code.Ordered, Mutex.rank, hsubscribe, hcancel]

end SrnpLink

end

theorem api_ordered : ∀ code ∈ api, code.Ordered Mutex.rank 0 := by
  simp only [api, List.forall_mem_cons]
  refine ⟨Kernel.initializeNode_ordered, Kernel.shutdown_ordered, ⟨by decide, trivial⟩,
    Client.setPair_ordered (by decide), Client.setRemotePair_ordered (by decide),
    Client.removePair_ordered (by decide), Client.removeRemotePair_ordered (by decide),
    ⟨by decide, trivial⟩, ?_, ?_, ?_, ?_, Client.registerCallback_ordered (by decide),
    Client.cancelCallback_ordered (by decide), Client.registerSubscription_ordered (by decide),
    Client.cancelSubscription_ordered (by decide), ⟨by decide, trivial⟩, ?_,
    ⟨by decide, trivial⟩, MetaTracker.registerTracker_ordered,
    MetaTracker.cancelMetaCallback_ordered, MetaTracker.onMetaPairChanged_ordered,
    ⟨by decide, trivial⟩, ⟨by decide, trivial⟩, SrnpLink.setSubscribedToAll_ordered,
    SrnpLink.connectLoop_ordered, nofun⟩
  · simp [Client.getPairIndirectly, Client.getPair, Code.Ordered, Mutex.rank, log_ordered]
  · simp [Client.setPairIndirectly, Client.getPair, Code.Ordered, Mutex.rank, log_ordered,
      Client.setPair_ordered, Client.setRemotePair_ordered]
  · exact ⟨Client.setPair_ordered (by decide), Client.setRemotePair_ordered (by decide)⟩
  · exact ⟨Client.setPair_ordered (by decide), Client.setRemotePair_ordered (by decide)⟩
  · simp [Client.waitUntilReady, Code.Ordered, Mutex.rank]

theorem coroutines_ordered (number : Nat) :
    ∀ code ∈ coroutines number, code.Ordered Mutex.rank 0 := by
  simp only [coroutines, List.forall_mem_cons]
  refine ⟨FrameChannel.drainOutbox_ordered number, ⟨Mutex.rank_pos _, trivial⟩,
    ClientSession.run_ordered number, ServerSession.run_ordered number,
    MasterHubSession.run_ordered number, ?_, ?_, ?_, rfl, nofun⟩
  · have hupdate := @Client.onComponentUpdate_ordered 0 (by decide)
    simp [MasterLink.run, Code.Ordered, log_ordered, FrameChannel.read_ordered, hupdate]
  · simp [Server.acceptLoop, Code.optional, Code.Ordered, log_ordered]
  · simp [MasterHub.acceptLoop, Code.Ordered, log_ordered]

theorem makes_ordered (code : Code Mutex) (h : Makes code) : code.Ordered Mutex.rank 0 := by
  rcases h with hcall | ⟨number, hcoroutine⟩
  · exact api_ordered code hcall
  · exact coroutines_ordered number code hcoroutine

variable {s : State Mutex} {thread : ThreadId}

/-- Whatever calls, handlers and callbacks any number of threads are in, some
thread can go on as long as one of them has something left to do. -/
theorem never_deadlocked (h : Reach State.step (Making Makes) State.idle s)
    (hbusy : s.stack thread ≠ []) : ∃ other, (s.advance other 0).isSome := by
  have horderly := Orderly.of_reach makes_ordered h
  exact horderly.progress Mutex.rank_le hbusy

/-- One thread publishes with the pair space locked while another waits for it. -/
theorem never_deadlocked_publishing : ∃ s : State Mutex,
    Reach State.step (Making Makes) State.idle s ∧ s.stack 2 ≠ [] ∧ s.advance 2 0 = none ∧
      ∃ other, (s.advance other 0).isSome := by
  have hrun : ∃ s : State Mutex, Reach State.step (Making Makes) State.idle s ∧
      s.stack 2 ≠ [] ∧ s.advance 2 0 = none := by
    refine ⟨_, Reach.of_run [.begin 1 Client.setPair, .begin 2 Client.getPair, .advance 1 1,
      .advance 1 0] ?_ rfl, ?_, rfl⟩
    · simp [Making, Makes, api]
    · exact List.cons_ne_nil (Item.run Client.getPair) []
  obtain ⟨s, hreach, hbusy, hwaits⟩ := hrun
  exact ⟨s, hreach, hbusy, hwaits, never_deadlocked hreach hbusy⟩

/-- No callback runs, and no coroutine is suspended, with a mutex held. -/
theorem unlocked_outside (h : Reach State.step (Making Makes) State.idle s) {code : Code Mutex}
    {rest : List (Item Mutex)} (htop : s.stack thread = .run code :: rest)
    (hcode : code = .callback ∨ code = .await) (mutex : Mutex) :
    s.holder mutex ≠ some thread := by
  have horderly := Orderly.of_reach makes_ordered h
  exact horderly.unlocked Mutex.rank_pos htop hcode mutex

/-- A posted callback publishes in turn: its call takes the lock of the pair space and
has let it go when control is back in the callback. -/
theorem unlocked_outside_handling : ∃ (s : State Mutex) (rest : List (Item Mutex)),
    Reach State.step (Making Makes) State.idle s ∧ s.stack 1 = .run .callback :: rest ∧
      ∀ mutex, s.holder mutex ≠ some 1 := by
  have hrun : ∃ (s : State Mutex) (rest : List (Item Mutex)),
      Reach State.step (Making Makes) State.idle s ∧ s.stack 1 = .run .callback :: rest := by
    refine ⟨_, _, Reach.of_run [.begin 1 Client.notifyPosted, .advance 1 1,
      .reenter 1 Client.setPair, .advance 1 1, .advance 1 0, .advance 1 0, .advance 1 0,
      .advance 1 0] ?_ rfl, rfl⟩
    simp [Making, Makes, api, coroutines]
  obtain ⟨s, rest, hreach, htop⟩ := hrun
  exact ⟨s, rest, hreach, htop, unlocked_outside hreach htop (Or.inl rfl)⟩

end Srnp.Locking
