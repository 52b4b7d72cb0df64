/-
What the handlers of messages leave alone. A relation `R` between worlds that their statements keep, and
that changes of a queue in `P` keep, is kept by every one of them, whatever the environment decides. What
settles messages needs more of `R` and `P` than what only adds, marks and sends them.
-/
import Gimmm.Flow.Simulation

namespace Gimmm

open Prog

/-- What is left of an environment in `E` is in `E`. -/
structure Env.Closed (E : Env → Prop) : Prop where
  popFault : ∀ env, E env → E env.popFault.2
  popDraw : ∀ env, E env → E env.popDraw.2

theorem Env.Rest.closed (env₀ : Env) (fs : List Fault) : Env.Closed (env₀.Rest fs) :=
  ⟨fun _ h => h.popFault.widen, fun _ h => h.popDraw⟩

theorem Env.closed_all : Env.Closed fun _ => True := ⟨fun _ _ => trivial, fun _ _ => trivial⟩

/-- A queue gets a message, or the retry state or the state of one changes, or one more is counted. -/
structure QueueFrame (P : MessageManager → MessageManager → Prop) : Prop where
  refl : ∀ m, P m m
  add : ∀ (m : MessageManager) (n : Int) (msg : Message), P m (m.addMessage n msg)
  touch : ∀ (m : MessageManager) (n : Int) (f : Message → Message), (∀ msg, (f msg).fixed = msg.fixed) →
    P m (m.modifyMessage n f)
  increment : ∀ m : MessageManager, P m m.incrementPendingAckCount

/-- The statements that serve a session: no message that they save is a downstream one. -/
structure SessionFrame (P : MessageManager → MessageManager → Prop) (R : World → World → Prop) : Prop
    extends QueueFrame P where
  counter : ∀ (w : World) (n : Int), R w (w.mapApp ({ · with sequenceId := n }))
  insert : ∀ (w : World) (msg : Message) (db : Database), msg.type ≠ .downstream →
    w.db.insert (.ofMessage msg) = some db → R w { w with db := db }
  mark : ∀ (w : World) (n : Int), R w { w with db := w.db.update n .pendingAck }
  putBal : ∀ (w : World) (sid : SessionId) (m m' : MessageManager), w.app.balManager sid = some m → P m m' →
    R w (w.putBal sid m')
  balWrite : ∀ (w : World) (sid : SessionId) (sock : SocketId) (doc : Json), R w (w.record (.balWrite sid sock doc))

/-- The statements that serve messages, as long as they settle and retry none. -/
structure MessageFrame (P : MessageManager → MessageManager → Prop) (R : World → World → Prop) : Prop
    extends SessionFrame P R where
  putFcm : ∀ (w : World) (m : MessageManager), P w.app.fcmMsgManager m → R w (w.putFcm m)
  record : ∀ (w : World) (what : Happening), R w (w.record what)

/-- All statements that serve messages: they may settle one, remove one or start a retry timer. -/
structure SettlementFrame (R : World → World → Prop) : Prop extends MessageFrame (fun _ _ => True) R where
  update : ∀ (w : World) (n : Int) (s : MessageState), R w { w with db := w.db.update n s }
  retry : ∀ (w : World) (t : Timer), t.isRetry = true → R w (w.mapApp fun app => { app with timers := app.timers ++ [t] })

/-- The statements that serve connections: timers that are no retries come and go. -/
structure ConnectionFrame (R : World → World → Prop) : Prop where
  change : ∀ (w : World) (f : Application → Application), (f w.app).fcmMsgManager = w.app.fcmMsgManager →
    (f w.app).balManager = w.app.balManager → (f w.app).sequenceId = w.app.sequenceId →
    ((f w.app).timers.filter (·.isRetry)).Sublist (w.app.timers.filter (·.isRetry)) → R w (w.mapApp f)
  logon : ∀ (w : World) (sid : SessionId) (sock : SocketId), R w (w.record (.balWrite sid sock (logonResponse sid)))

section
variable {E : Env → Prop} {P : MessageManager → MessageManager → Prop} {R : World → World → Prop}

theorem keeps_guarded {x : Handler Unit} (h : Keeps E R x) : Keeps E R (guarded x) := Keeps.attempt h

/-! ## Queues -/

/-- A call that changes its queue within `P`. -/
def Allowed (P : MessageManager → MessageManager → Prop) {α : Type} (x : EStateM Stop MessageManager α) : Prop :=
  ∀ m, Ends (fun _ m' => P m m') (fun _ m' => P m m') (x m)

namespace QueueFrame

theorem ask (h : QueueFrame P) {α : Type} (f : MessageManager → Except Stop α) : Allowed P (MessageManager.ask f) := by
  intro m
  unfold MessageManager.ask
  cases f m with
  | ok a => exact h.refl m
  | error e => exact h.refl m

theorem pure (h : QueueFrame P) : Allowed P (Pure.pure () : EStateM Stop MessageManager Unit) := fun m => h.refl m

end QueueFrame

theorem allowed_modify {f : MessageManager → MessageManager} (h : ∀ m, P m (f m)) :
    Allowed P (modify f : EStateM Stop MessageManager Unit) := fun m => h m

theorem allowed_all {α : Type} (x : EStateM Stop MessageManager α) : Allowed (fun _ _ => True) x := by
  intro m
  cases x m <;> trivial

theorem MessageFrame.onFcm (h : MessageFrame P R) {α : Type} {x : EStateM Stop MessageManager α} (hx : Allowed P x) :
    Keeps E R (onFcm x) := by
  intro w
  unfold Gimmm.onFcm
  exact Wp.onPart ((hx w.app.fcmMsgManager).mono (fun _ m hm => h.putFcm w m hm) fun _ m hm => h.putFcm w m hm)

theorem MessageFrame.askFcm (h : MessageFrame P R) {α : Type} {f : MessageManager → Except Stop α} :
    Keeps E R (askFcm f) := h.onFcm (h.ask f)

theorem MessageFrame.modifyFcm (h : MessageFrame P R) {f : MessageManager → MessageManager} (hf : ∀ m, P m (f m)) :
    Keeps E R (modifyFcm f) := h.onFcm (allowed_modify hf)

variable [IsPreorder World R]

theorem SessionFrame.onBal (h : SessionFrame P R) {sid : SessionId} {α : Type} {x : EStateM Stop MessageManager α}
    (hx : Allowed P x) : Keeps E R (onBal sid x) := by
  unfold Gimmm.onBal
  refine Keeps.read fun w => ?_
  cases hm : w.app.balManager sid with
  | none => exact Keeps.throw _ w
  | some m =>
    exact Wp.onPart ((hx m).mono (fun _ m' hm' => h.putBal w sid m m' hm hm') fun _ m' hm' => h.putBal w sid m m' hm hm')

theorem SessionFrame.askBal (h : SessionFrame P R) {sid : SessionId} {α : Type} {f : MessageManager → Except Stop α} :
    Keeps E R (askBal sid f) := h.onBal (h.ask f)

theorem SessionFrame.modifyBal (h : SessionFrame P R) {sid : SessionId} {f : MessageManager → MessageManager}
    (hf : ∀ m, P m (f m)) : Keeps E R (modifyBal sid f) := h.onBal (allowed_modify hf)

theorem SessionFrame.findBalMessageManager (h : SessionFrame P R) {sid : SessionId} :
    Keeps E R (findBalMessageManager sid) := h.onBal h.toQueueFrame.pure

/-! ## Statements and outputs -/

theorem keeps_output (hE : Env.Closed E) {what : Happening} (h : ∀ w : World, R w (w.record what)) :
    Keeps E R (output what) := by
  unfold output
  refine Keeps.bind (Keeps.decision hE.popFault) fun f => ?_
  split
  · exact Keeps.bind (Keeps.throw _) fun _ => Keeps.update h
  · exact Keeps.update h

theorem keeps_saveMsg (hE : Env.Closed E) {msg : Message}
    (h : ∀ (w : World) (db : Database), w.db.insert (.ofMessage msg) = some db → R w { w with db := db }) :
    Keeps E R (saveMsg msg) := by
  unfold saveMsg
  refine Keeps.bind (Keeps.decision hE.popFault) fun f => ?_
  cases f with
  | ok =>
    refine Keeps.read fun w => ?_
    cases hdb : w.db.insert (.ofMessage msg) with
    | none => exact Keeps.throw _ w
    | some db => exact Wp.update (h w db hdb)
  | fail rc => exact Keeps.throw _
  | crash => exact Keeps.throw _

theorem keeps_updateMsgState (hE : Env.Closed E) {msg : Message} {s : MessageState}
    (h : ∀ w : World, R w { w with db := w.db.update msg.sequenceId s }) : Keeps E R (updateMsgState msg s) := by
  unfold updateMsgState
  refine Keeps.bind (Keeps.decision hE.popFault) fun f => ?_
  cases f with
  | ok => exact Keeps.update h
  | fail rc => exact Keeps.throw _
  | crash => exact Keeps.throw _

theorem keeps_findBalSession {sid : SessionId} : Keeps E R (findBalSession sid) := by
  unfold findBalSession
  refine Keeps.read fun w => ?_
  split
  · exact Keeps.pure _ w
  · exact Keeps.throw _ w

theorem keeps_writeMessage (hE : Env.Closed E) {sid : SessionId} {sess : BALSession} {doc : Json}
    (h : ∀ (w : World) (sock : SocketId), R w (w.record (.balWrite sid sock doc))) :
    Keeps E R (writeMessage sid sess doc) := by
  unfold writeMessage
  split
  · split
    · exact Keeps.throw _
    · refine Keeps.read fun w => ?_
      split
      · exact Keeps.throw _ w
      · split
        · exact keeps_output hE (fun w => h w _) w
        · exact Keeps.throw _ w
  · exact Keeps.throw _

theorem keeps_forwardMsg (hE : Env.Closed E) {sid : SessionId} {msg : Message}
    (h : ∀ (w : World) (sock : SocketId), R w (w.record (.balWrite sid sock msg.payload))) :
    Keeps E R (forwardMsg sid msg) := by
  unfold forwardMsg
  refine Keeps.bind keeps_findBalSession fun sess => ?_
  split
  · exact Keeps.pure _
  · exact Keeps.attempt (keeps_writeMessage hE h)

/-! ## Sessions -/

namespace SessionFrame

variable {sid : SessionId} {sess : BALSession} {msg : Message} {doc : Json}

theorem getNextSequenceId (h : SessionFrame P R) : Keeps E R getNextSequenceId :=
  Keeps.bind (Keeps.update fun w => h.counter w _) fun _ => Keeps.read fun w => Keeps.pure _ w

theorem writeMessage (h : SessionFrame P R) (hE : Env.Closed E) : Keeps E R (writeMessage sid sess doc) :=
  keeps_writeMessage hE fun w sock => h.balWrite w _ sock _

theorem forwardMsg (h : SessionFrame P R) (hE : Env.Closed E) : Keeps E R (forwardMsg sid msg) :=
  keeps_forwardMsg hE fun w sock => h.balWrite w _ sock _

theorem forwardMsgToBalsession (h : SessionFrame P R) (hE : Env.Closed E) :
    Keeps E R (forwardMsgToBalsession sid msg) := by
  unfold Gimmm.forwardMsgToBalsession
  refine Keeps.bind h.findBalMessageManager fun _ => Keeps.bind (h.modifyBal fun m => h.add m _ _) fun _ => ?_
  refine Keeps.bind h.askBal fun rcode => ?_
  split
  · refine Keeps.bind (keeps_updateMsgState hE fun w => h.mark w _) fun _ => ?_
    refine Keeps.bind (h.modifyBal fun m => h.touch m _ _ fun _ => rfl) fun _ => ?_
    exact Keeps.bind (h.modifyBal h.increment) fun _ => h.forwardMsg hE
  · exact Keeps.pure _

theorem sendNextPendingUpstreamMessage (h : SessionFrame P R) (hE : Env.Closed E) :
    Keeps E R (sendNextPendingUpstreamMessage sid) := by
  unfold Gimmm.sendNextPendingUpstreamMessage
  refine Keeps.bind h.askBal fun next => ?_
  cases next with
  | none => exact Keeps.pure _
  | some msg => exact Keeps.bind keeps_findBalSession fun sess => h.writeMessage hE

theorem notifyDownstreamUploadFailure (h : SessionFrame P R) (hE : Env.Closed E) :
    Keeps E R (notifyDownstreamUploadFailure msg) := by
  unfold Gimmm.notifyDownstreamUploadFailure
  refine Keeps.attempt (Keeps.bind h.getNextSequenceId fun n => Keeps.bind (Keeps.decision fun _ he => he) fun junk => ?_)
  refine Keeps.bind (keeps_saveMsg hE fun w db => h.insert w _ db (by simp)) fun _ => ?_
  exact Keeps.bind keeps_findBalSession fun sess => h.writeMessage hE

/-- The notice that a message is delivered. -/
theorem notify (h : SessionFrame P R) (hE : Env.Closed E) {f : Int → Message} (hf : ∀ n, (f n).type ≠ .downstream) :
    Keeps E R (do
      let n ← Gimmm.getNextSequenceId
      saveMsg (f n)
      Gimmm.forwardMsgToBalsession sid (f n)) :=
  Keeps.bind h.getNextSequenceId fun n =>
    Keeps.bind (keeps_saveMsg hE fun w db => h.insert w _ db (hf n)) fun _ => h.forwardMsgToBalsession hE

theorem handleFcmReceiptMessage (h : SessionFrame P R) (hE : Env.Closed E) :
    Keeps E R (handleFcmReceiptMessage doc) := by
  unfold Gimmm.handleFcmReceiptMessage
  refine keeps_guarded (Keeps.bind h.getNextSequenceId fun n => Keeps.bind (Keeps.decision fun _ he => he) fun junk => ?_)
  refine Keeps.bind (keeps_saveMsg hE fun w db => h.insert w _ db (by simp)) fun _ => h.forwardMsgToBalsession hE

theorem expire_retryUpstream (h : SessionFrame P R) (hE : Env.Closed E) : Keeps E R (expire (.retryUpstream msg)) :=
  Keeps.bind (h.forwardMsg hE) fun _ => h.modifyBal fun m => h.touch m _ _ fun _ => rfl

end SessionFrame

/-! ## Messages -/

namespace MessageFrame

variable {sid : SessionId} {msg : Message} {doc : Json}

theorem uploadToFcm (h : MessageFrame P R) (hE : Env.Closed E) : Keeps E R (uploadToFcm msg) :=
  keeps_output hE fun w => h.record w _

theorem sendNextPendingDownstreamMessage (h : MessageFrame P R) (hE : Env.Closed E) :
    Keeps E R sendNextPendingDownstreamMessage := by
  unfold Gimmm.sendNextPendingDownstreamMessage
  refine Keeps.bind h.askFcm fun next => ?_
  cases next with
  | none => exact Keeps.pure _
  | some msg => exact h.uploadToFcm hE

theorem handleFcmNewUpstreamMessage (h : MessageFrame P R) (hE : Env.Closed E) :
    Keeps E R (handleFcmNewUpstreamMessage doc) := by
  unfold Gimmm.handleFcmNewUpstreamMessage
  refine keeps_guarded (Keeps.bind h.getNextSequenceId fun n => ?_)
  refine Keeps.bind (keeps_saveMsg hE fun w db => h.insert w _ db (by simp [Message.new])) fun _ => ?_
  exact Keeps.bind (keeps_output hE fun w => h.record w _) fun _ => h.forwardMsgToBalsession hE

theorem handleBalDownstreamUploadRequest (h : MessageFrame P R) (hE : Env.Closed E)
    (accept : ∀ (w : World) (msg : Message) (db : Database), msg.sourceSessionId = sid →
      w.db.insert (.ofMessage msg) = some db → R w { w with db := db }) :
    Keeps E R (handleBalDownstreamUploadRequest sid doc) := by
  unfold Gimmm.handleBalDownstreamUploadRequest
  refine Keeps.bind h.getNextSequenceId fun n => Keeps.bind (keeps_saveMsg hE fun w db => accept w _ db rfl) fun _ => ?_
  refine Keeps.bind (h.modifyFcm fun m => h.add m _ _) fun _ => Keeps.bind h.askFcm fun rcode => ?_
  split
  · refine Keeps.bind (keeps_updateMsgState hE fun w => h.mark w _) fun _ => ?_
    refine Keeps.bind (h.modifyFcm fun m => h.touch m _ _ fun _ => rfl) fun _ => ?_
    exact Keeps.bind (h.modifyFcm h.increment) fun _ => h.uploadToFcm hE
  · exact Keeps.pure _

theorem expire_retryDownstream (h : MessageFrame P R) (hE : Env.Closed E) : Keeps E R (expire (.retryDownstream msg)) :=
  Keeps.bind (h.uploadToFcm hE) fun _ => h.modifyFcm fun m => h.touch m _ _ fun _ => rfl

end MessageFrame

/-! ## Settlements and retries -/

theorem keeps_forEachMessage {queue : World → Option MessageManager} {body : Message → Handler Unit}
    (hb : ∀ msg, Keeps E R (body msg)) : Keeps E R (forEachMessage queue body) := by
  unfold forEachMessage
  refine Keeps.read fun w => ?_
  split
  · exact Keeps.pure _ w
  · refine Keeps.forM (fun n => Keeps.read fun w => ?_) _ w
    cases (queue w).bind (·.messages[n]?) with
    | none => exact Keeps.pure _ w
    | some msg =>
      refine Keeps.bind (hb msg) (fun _ => Keeps.read fun w => ?_) w
      split
      · exact Keeps.throw _ w
      · exact Keeps.pure _ w

namespace SettlementFrame

variable {sid : SessionId} {msg : Message} {doc : Json}

theorem singleShot (h : SettlementFrame R) {msec : Int} {t : Timer} (ht : t.isRetry = true) :
    Keeps E R (singleShot msec t) := by
  unfold Gimmm.singleShot
  split
  · exact Keeps.pure _
  · exact Keeps.update fun w => h.retry w t ht

theorem updateMsgState (h : SettlementFrame R) (hE : Env.Closed E) {s : MessageState} : Keeps E R (updateMsgState msg s) :=
  keeps_updateMsgState hE fun w => h.update w _ s

theorem handleBalAckMsg (h : SettlementFrame R) (hE : Env.Closed E) {n : Int} : Keeps E R (handleBalAckMsg sid n) := by
  unfold Gimmm.handleBalAckMsg
  refine keeps_guarded (Keeps.bind h.findBalMessageManager fun _ => Keeps.bind h.askBal fun msg => ?_)
  refine Keeps.bind (h.updateMsgState hE) fun _ => Keeps.bind (h.onBal (allowed_all _)) fun _ => ?_
  exact h.sendNextPendingUpstreamMessage hE

theorem retryDownstreamWithExponentialBackoff (h : SettlementFrame R) (hE : Env.Closed E) :
    Keeps E R (retryDownstreamWithExponentialBackoff msg) := by
  unfold Gimmm.retryDownstreamWithExponentialBackoff
  refine Keeps.bind (Keeps.decision hE.popDraw) fun d => Keeps.bind (h.modifyFcm fun _ => trivial) fun _ => ?_
  dsimp only
  split
  · exact Keeps.bind (h.modifyFcm fun _ => trivial) fun _ => h.singleShot rfl
  · refine Keeps.bind (h.updateMsgState hE) fun _ => Keeps.bind (h.onFcm (allowed_all _)) fun _ => ?_
    exact h.notifyDownstreamUploadFailure hE

theorem retryUpstreamWithExponentialBackoff (h : SettlementFrame R) (hE : Env.Closed E) :
    Keeps E R (retryUpstreamWithExponentialBackoff sid msg) := by
  unfold Gimmm.retryUpstreamWithExponentialBackoff
  refine Keeps.bind (Keeps.decision hE.popDraw) fun d => Keeps.bind (h.modifyBal fun _ => trivial) fun _ => ?_
  dsimp only
  split
  · exact Keeps.bind (h.modifyBal fun _ => trivial) fun _ => h.singleShot rfl
  · exact Keeps.bind (h.updateMsgState hE) fun _ => h.onBal (allowed_all _)

theorem resendPendingUpstreamMessages (h : SettlementFrame R) (hE : Env.Closed E) :
    Keeps E R (resendPendingUpstreamMessages sid) := by
  refine keeps_forEachMessage fun msg => ?_
  split
  · refine Keeps.bind h.askBal fun rcode => ?_
    split
    · split
      · exact Keeps.bind (h.updateMsgState hE) fun _ => Keeps.bind (h.modifyBal fun _ => trivial) fun _ =>
          h.forwardMsg hE
      · exact h.forwardMsg hE
    · split
      · exact h.retryUpstreamWithExponentialBackoff hE
      · split
        · exact Keeps.pure _
        · exact h.onBal (allowed_all _)
  · exact Keeps.pure _

theorem resendAllPendingDownstreamMessages (h : SettlementFrame R) (hE : Env.Closed E) :
    Keeps E R resendAllPendingDownstreamMessages := by
  refine keeps_forEachMessage fun msg => ?_
  split
  · refine Keeps.bind h.askFcm fun rcode => ?_
    split
    · exact h.uploadToFcm hE
    · split
      · exact h.retryDownstreamWithExponentialBackoff hE
      · exact Keeps.pure _
  · exact Keeps.pure _

theorem handleFcmAckMessage (h : SettlementFrame R) (hE : Env.Closed E) : Keeps E R (handleFcmAckMessage doc) := by
  unfold Gimmm.handleFcmAckMessage
  refine Keeps.bind (Keeps.update fun w => h.record w _) fun _ => keeps_guarded (Keeps.bind h.askFcm fun msg => ?_)
  refine Keeps.bind (h.updateMsgState hE) fun _ => Keeps.bind (h.onFcm (allowed_all _)) fun _ => ?_
  exact Keeps.bind (h.sendNextPendingDownstreamMessage hE) fun _ => h.notify hE fun n => by simp [Message.new]

theorem handleFcmNackMessage (h : SettlementFrame R) (hE : Env.Closed E) : Keeps E R (handleFcmNackMessage doc) := by
  unfold Gimmm.handleFcmNackMessage
  refine Keeps.bind (Keeps.update fun w => h.record w _) fun _ => keeps_guarded (Keeps.bind h.askFcm fun msg => ?_)
  split
  · exact h.retryDownstreamWithExponentialBackoff hE
  · refine Keeps.bind (h.updateMsgState hE) fun _ => Keeps.bind (h.onFcm (allowed_all _)) fun _ => ?_
    exact Keeps.bind (h.sendNextPendingDownstreamMessage hE) fun _ => h.notifyDownstreamUploadFailure hE

theorem handleFcmSessionEstablished (h : SettlementFrame R) (hE : Env.Closed E) :
    Keeps E R handleFcmSessionEstablished :=
  Keeps.bind (Keeps.update fun w => h.record w _) fun _ => h.resendAllPendingDownstreamMessages hE

end SettlementFrame

/-! ## Connections -/

theorem retries_append {ts : List Timer} {t : Timer} (ht : t.isRetry = false) :
    ((ts ++ [t]).filter (·.isRetry)).Sublist (ts.filter (·.isRetry)) := by
  rw [List.filter_append, List.filter_cons_of_neg (by rw [ht]; decide), List.filter_nil, List.append_nil]

namespace ConnectionFrame

variable {sock : SocketId} {socket : Socket} {id : Int}

omit [IsPreorder World R] in
theorem deleteTimerContext (h : ConnectionFrame R) : Keeps E R (deleteTimerContext sock) :=
  Keeps.update fun w => h.change w _ rfl rfl rfl (List.filter_sublist.filter _)

omit [IsPreorder World R] in
theorem eraseUnauthenticated (h : ConnectionFrame R) : Keeps E R (eraseUnauthenticated id) :=
  Keeps.update fun w => h.change w _ rfl rfl rfl (List.Sublist.refl _)

omit [IsPreorder World R] in
theorem onFcmConnection (h : ConnectionFrame R) {f : FcmConnection → FcmConnection} :
    Keeps E R (onFcmConnection id f) :=
  Keeps.update fun w => h.change w _ rfl rfl rfl (List.Sublist.refl _)

theorem singleShot (h : ConnectionFrame R) {msec : Int} {t : Timer} (ht : t.isRetry = false) :
    Keeps E R (singleShot msec t) := by
  unfold Gimmm.singleShot
  split
  · exact Keeps.pure _
  · exact Keeps.update fun w => h.change w _ rfl rfl rfl (retries_append ht)

theorem handleBALSocketDisconnected (h : ConnectionFrame R) : Keeps E R (handleBALSocketDisconnected socket) := by
  unfold Gimmm.handleBALSocketDisconnected
  refine Keeps.read fun w => ?_
  split
  · exact Keeps.bind h.deleteTimerContext (fun _ => h.eraseUnauthenticated) w
  · exact Wp.update (h.change w _ rfl (balManager_modify rfl fun _ => rfl) rfl (List.Sublist.refl _))

theorem disconnectSocket (h : ConnectionFrame R) : Keeps E R (disconnectSocket sock) := by
  unfold Gimmm.disconnectSocket
  refine Keeps.read fun w => ?_
  split
  · split
    · refine Keeps.bind (Keeps.update fun w => h.change w _ rfl rfl rfl (List.Sublist.refl _)) (fun _ => ?_) w
      split
      · exact h.handleBALSocketDisconnected
      · exact Keeps.pure _
    · exact Keeps.pure _ w
  · exact Keeps.pure _ w

theorem handleNewBALConnection (h : ConnectionFrame R) : Keeps E R (handleNewBALConnection id) := by
  unfold Gimmm.handleNewBALConnection
  refine Keeps.read fun w => ?_
  split
  · exact Keeps.pure _ w
  · exact Wp.update (h.change w _ rfl rfl rfl (retries_append rfl))

theorem handleBalAuthenticationTimeout (h : ConnectionFrame R) : Keeps E R (handleBalAuthenticationTimeout sock) := by
  unfold Gimmm.handleBalAuthenticationTimeout
  refine Keeps.read fun w => ?_
  split
  · exact Keeps.throw _ w
  · exact Keeps.bind (Keeps.update fun w => h.change w _ rfl rfl rfl (List.Sublist.refl _))
      (fun _ => h.eraseUnauthenticated) w

theorem handleFcmConnectionDrainingStarted (h : ConnectionFrame R) :
    Keeps E R handleFcmConnectionDrainingStarted := by
  unfold Gimmm.handleFcmConnectionDrainingStarted
  refine Keeps.read fun w => ?_
  split
  · exact Keeps.throw _ w
  · exact Wp.update (h.change w _ rfl rfl rfl (List.Sublist.refl _))

theorem handleDisconnected (h : ConnectionFrame R) (hE : Env.Closed E) : Keeps E R (handleDisconnected id) := by
  unfold Gimmm.handleDisconnected
  refine Keeps.read fun w => ?_
  split
  · refine Keeps.bind h.onFcmConnection (fun _ => ?_) w
    split
    · refine Keeps.bind (Keeps.decision hE.popDraw) fun d => Keeps.bind h.onFcmConnection fun _ => ?_
      exact h.singleShot rfl
    · exact Keeps.pure _
  · exact Keeps.pure _ w

omit [IsPreorder World R] in
theorem acceptConn (h : ConnectionFrame R) {sid : SessionId} : Keeps E R (acceptConn sid sock) :=
  Keeps.update fun w => h.change w _ rfl
    (balManager_modify (f := fun s => { s with balConn := some sock, state := .authenticated }) rfl fun _ => rfl) rfl
    (List.Sublist.refl _)

theorem handleBalLogonRequest (h : ConnectionFrame R) (hE : Env.Closed E) {sid : SessionId} :
    Keeps E R (handleBalLogonRequest socket sid) := by
  unfold Gimmm.handleBalLogonRequest
  refine Keeps.read fun w => ?_
  split
  · exact Keeps.pure _ w
  · refine Keeps.bind h.deleteTimerContext (fun _ => Keeps.bind h.eraseUnauthenticated fun _ => Keeps.read fun w => ?_) w
    split
    · exact Keeps.pure _ w
    · refine Keeps.bind h.acceptConn (fun _ => ?_) w
      refine Keeps.bind keeps_findBalSession fun sess => Keeps.bind (keeps_writeMessage hE fun w sock => h.logon w _ sock) fun _ => ?_
      exact h.singleShot rfl

theorem expire_deleteSocket (h : ConnectionFrame R) : Keeps E R (expire (.deleteSocket sock)) :=
  Keeps.bind h.disconnectSocket fun _ => Keeps.update fun w => h.change w _ rfl rfl rfl (List.Sublist.refl _)

omit [IsPreorder World R] in
theorem destroyConns (h : ConnectionFrame R) (w : World) : R w (w.mapApp (·.destroyConns)) := by
  obtain ⟨fcm, bal, counter, -⟩ := destroyConns_fields w.app
  refine h.change w (·.destroyConns) fcm bal counter ?_
  unfold Application.destroyConns
  generalize (w.app.sockets.toList.filter fun p => p.2.wrapped && !w.app.referenced p.1).map (·.1) = l
  generalize w.app = app
  induction l generalizing app with
  | nil => exact List.Sublist.refl _
  | cons sock l ih => exact (ih (app.destroyConn sock)).trans (retries_append rfl)

end ConnectionFrame

end

/-! ## Events -/

section
variable {E : Env → Prop} {R : World → World → Prop} [IsPreorder World R] {w : World}

/-- A relation that the statements keep which serve messages and connections is kept by the handler of every event
but the request of a BAL to upload a message, for which `accept` is left to show. -/
theorem wp_handle_frame (hE : Env.Closed E) (hs : SettlementFrame R) (hc : ConnectionFrame R) (e : Event)
    (accept : ∀ sock doc s, e = .balFrame sock doc → w.app.sockets[sock]? = some s → s.connected = true →
      s.signalsBlocked = false → Json.toString (doc.value gimmmfieldnames.messageType) = "DOWNSTREAM" →
      Wp E (handleBalDownstreamUploadRequest s.sessionId doc) (fun _ => R w) (fun _ => R w) w) :
    Wp E (handle e) (fun _ => R w) (fun _ => R w) w := by
  cases e with
  | newBALConnection d => exact hc.handleNewBALConnection w
  | balFrame sock doc =>
    refine Wp.bind (Wp.read ?_)
    cases hsock : w.app.sockets[sock]? with
    | none => exact Wp.pure (refl w)
    | some s =>
      dsimp only
      split
      · rename_i hopen
        simp only [Bool.and_eq_true, Bool.not_eq_true'] at hopen
        refine Wp.attempt (Wp.mono ?_ (fun _ _ h => h) fun e w' (h : R w w') => by split <;> exact h)
        unfold handleBALmsg
        dsimp only
        split
        · exact hc.handleBalLogonRequest hE w
        · split
          · rename_i htype
            exact accept sock doc s rfl hsock hopen.1 hopen.2 htype
          · split
            · exact hs.handleBalAckMsg hE w
            · exact Wp.throw (refl w)
      · exact Wp.pure (refl w)
  | balDisconnected sock => exact hc.disconnectSocket w
  | fcmUpstream doc => exact hs.handleFcmNewUpstreamMessage hE w
  | fcmAck doc => exact hs.handleFcmAckMessage hE w
  | fcmNack doc => exact hs.handleFcmNackMessage hE w
  | fcmReceipt doc => exact hs.handleFcmReceiptMessage hE w
  | fcmSessionEstablished id =>
    exact Keeps.bind hc.onFcmConnection (fun _ => keeps_guarded (hs.handleFcmSessionEstablished hE)) w
  | fcmConnectionDrainingStarted id =>
    exact Keeps.bind hc.onFcmConnection (fun _ => keeps_guarded hc.handleFcmConnectionDrainingStarted) w
  | fcmDisconnected id => exact hc.handleDisconnected hE w
  | timer k =>
    refine Wp.bind (Wp.read ?_)
    cases ht : w.app.timers[k]? with
    | none => exact Wp.pure (refl w)
    | some t =>
      refine Keeps.bind (Keeps.update fun w => ?_) (fun _ => ?_) w
      · exact hc.change w _ rfl rfl rfl ((List.eraseIdx_sublist ..).filter _)
      · cases t with
        | retryDownstream msg => exact hs.expire_retryDownstream hE
        | retryUpstream msg => exact hs.expire_retryUpstream hE
        | resend sid => exact hs.resendPendingUpstreamMessages hE
        | authentication sock => exact hc.handleBalAuthenticationTimeout
        | reconnect id => exact Keeps.pure _
        | deleteSocket sock => exact hc.expire_deleteSocket
  | restart => exact Wp.throw (refl w)

end

/-! ## Steps -/

/-- What the handler of a step ends with is what the step ends with, but for the connections it destroys or
the process it starts. -/
theorem step_cases (cfg : List SessionId) {i : Input} {w : World} {E : Env → Prop} {Q : World → Prop}
    {X : Stop → World → Prop} (hE : E i.env) (h : Wp E (handle i.event) (fun _ => Q) X w) :
    (survives w i = true ∧ ∃ w', Q w' ∧ step cfg w i = w'.mapApp (·.destroyConns)) ∨
      survives w i = false ∧ ∃ stop w' env, X stop w' ∧ step cfg w i = restarted cfg env w' := by
  have h := h i.env hE
  unfold survives step
  cases hh : handle i.event (w, i.env) with
  | ok a s => rw [hh] at h; exact Or.inl ⟨rfl, s.1, h.2, rfl⟩
  | error e s => rw [hh] at h; exact Or.inr ⟨rfl, e, s.1, s.2, h.2, rfl⟩

end Gimmm
