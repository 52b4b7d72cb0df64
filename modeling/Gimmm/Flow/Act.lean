/-
The flow of messages: the acts a handler is made of, each with what makes it possible. `Reach i b₀`
are the books that acts can lead to while the input `i` is handled from the books `b₀`; a debt is
what the handler still owes: the notice of a settled message, or the forwarding of a saved one.
-/
import Gimmm.Flow.Books

namespace Gimmm

open Std CString

/-! ## What an event asks for -/

/-- The FCM message id that an ack or a permanent nack settles, and the state it gives. -/
def Event.settles : Event → Option (FcmMessageId × MessageState)
  | .fcmAck doc => some (Json.toString (doc.value fcmfieldnames.messageId), .delivered)
  | .fcmNack doc =>
    if isTransient (Json.toString (doc.value fcmfieldnames.error)) then none
    else some (Json.toString (doc.value fcmfieldnames.messageId), .deliveryFailed)
  | _ => none

/-- The FCM message id of a transient nack. -/
def Event.transientNack : Event → Option FcmMessageId
  | .fcmNack doc =>
    if isTransient (Json.toString (doc.value fcmfieldnames.error)) then
      some (Json.toString (doc.value fcmfieldnames.messageId))
    else none
  | _ => none

/-- The FCM message of a request to upload. -/
def Event.uploads : Event → Option Json
  | .balFrame _ doc =>
    if Json.toString (doc.value gimmmfieldnames.messageType) = "DOWNSTREAM" then
      some (Json.toObject (doc.value gimmmfieldnames.fcmData))
    else none
  | _ => none

/-- The session that a message or a receipt from FCM is for. -/
def Event.delivers : Event → Option SessionId
  | .fcmUpstream doc => some (Json.toString (doc.value fcmfieldnames.category))
  | .fcmReceipt doc => some (Json.toString (doc.value fcmfieldnames.category))
  | _ => none

theorem Event.settles_settled {e : Event} {mid : FcmMessageId} {s : MessageState} (h : e.settles = some (mid, s)) :
    s.pending = false := by
  unfold Event.settles at h
  split at h
  · cases h; rfl
  · split at h
    · cases h
    · cases h; rfl
  · cases h

section
variable (i : Input) (b₀ : Stores)

/-- The event settles the held message `msg`. -/
def Settles (msg : Message) (s : MessageState) : Prop :=
  ∃ mid, i.event.settles = some (mid, s) ∧ b₀.fcm.findMessageWithFcmMsgId mid = .ok msg

/-- The event is a transient nack of the held message `msg`. -/
def Nacked (msg : Message) : Prop :=
  ∃ mid, i.event.transientNack = some mid ∧ b₀.fcm.findMessageWithFcmMsgId mid = .ok msg

/-- The event is the expiry of the timer `t`. -/
def Expires (t : Timer) : Prop := ∃ k, i.event = .timer k ∧ b₀.timers[k]? = some t

/-- The event establishes an FCM session. -/
def Establishes : Prop := ∃ id, i.event = .fcmSessionEstablished id

/-- The event is a request to upload a message of the group `gid` that can be sent at once: the window has room, and no
message of the group is held. -/
structure Asks (gid : GroupId) : Prop where
  request : ∃ sock doc, i.event = .balFrame sock doc ∧ Json.toString (doc.value gimmmfieldnames.messageType) = "DOWNSTREAM" ∧
    Json.toString (doc.value gimmmfieldnames.groupId) = gid
  room : b₀.fcm.pendingAckCount < maxPendingMessages
  alone : gid ≠ "" → ∀ (n : Int) (msg : Message), b₀.fcm.messages[n]? = some msg → msg.groupId ≠ gid

/-- No message of the queue is out of retries: `getNextRetryTimeout` does not return -1. -/
def Patient (m : MessageManager) : Prop :=
  ∀ (n : Int) (msg : Message), m.messages[n]? = some msg →
    ∀ d : Draw, (d ∈ i.env.draws ∨ d = default) → (msg.getNextRetryTimeout d).1 ≠ -1

/-- No message of any queue is out of retries. -/
structure NoneExhausted (b : Stores) : Prop where
  fcm : Patient i b.fcm
  bal : ∀ {sid : SessionId} {m : MessageManager}, b.bal sid = some m → Patient i m

/-- A statement or an output fails. -/
def Faulty : Prop := ∃ f ∈ i.env.faults, f ≠ .ok

/-- A session is established with a full window, and a message is out of retries. -/
structure GivesUp : Prop where
  established : Establishes i
  full : maxPendingMessages ≤ b₀.fcm.pendingAckCount
  exhausted : ¬ Patient i b₀.fcm

/-- A downstream message fails: a permanent nack settles it, or it is retried for a transient one, or for a session
that is established with a full window, and a message is out of retries. -/
inductive Failed (msg : Message) : Prop where
  | nack (settles : Settles i b₀ msg .deliveryFailed)
  | spent (old : Message) (nacked : Nacked i b₀ old) (seq : msg.sequenceId = old.sequenceId) (out : ¬ Patient i b₀.fcm)
  | gaveUp (gives : GivesUp i b₀)

end

/-! ## Acts -/

/-- The record of an ack or a nack that names `msg`. -/
def Obs.Names (o : Obs) (msg : Message) : Prop :=
  ∃ mid, (o.what = .acked mid ∨ o.what = .nacked mid) ∧ o.server.app.fcmMsgManager.findMessageWithFcmMsgId mid = .ok msg

inductive Debt where
  | none
  /-- `msg` is settled in state `s`; its source is not told yet. -/
  | owed (msg : Message) (s : MessageState)
  /-- `msg` is saved; its session does not have it yet. -/
  | saved (msg : Message)

/-- A message for a BAL session: without a group, its payload an envelope with its sequence id. -/
structure Envelope (n : Int) (msg : Message) : Prop where
  sequenceId : msg.sequenceId = n
  source : NoNul msg.sourceSessionId
  groupId : msg.groupId = ""
  payload : msg.payload.value gimmmfieldnames.sequenceId = some (.ofInt64 n)

/-- What makes a handler save a message for a BAL session. -/
inductive Receives (i : Input) (msg : Message) : Debt → Prop where
  | upstream (doc : Json) (he : i.event = .fcmUpstream doc) (type : msg.type = .upstream)
      (data : msg.payload.value gimmmfieldnames.fcmData = some doc.asObject)
      (target : msg.targetSessionId = Json.toString (doc.value fcmfieldnames.category)) : Receives i msg .none
  | receipt (doc : Json) (he : i.event = .fcmReceipt doc) (type : msg.type = .downstreamReceipt)
      (target : msg.targetSessionId = Json.toString (doc.value fcmfieldnames.category)) : Receives i msg .none
  | ack (old : Message) (type : msg.type = .downstreamAck) (fcmMessageId : msg.fcmMessageId = old.fcmMessageId)
      (target : msg.targetSessionId = old.sourceSessionId) : Receives i msg (.owed old .delivered)

theorem Receives.balBound {i : Input} {msg : Message} {d : Debt} (h : Receives i msg d) : msg.type.balBound = true := by
  cases h with
  | upstream doc he type => rw [type]; rfl
  | receipt doc he type => rw [type]; rfl
  | ack old type => rw [type]; rfl

/-- What makes a handler upload a message. -/
inductive Upload (i : Input) (b₀ b : Books) (msg : Message) : Prop where
  | first (new : b₀.counter < msg.sequenceId)
      (held : b.fcm.messages[msg.sequenceId]? = some (msg.setState .pendingAck)) (front : b.fcm.Front msg)
      (log : b.log = b₀.log) (asks : Asks i b₀.toStores msg.groupId)
  | next (old : Message) (s : MessageState) (o : Obs) (settles : Settles i b₀.toStores old s)
      (fcm : b.fcm = b₀.fcm.without old) (next : b.fcm.getNext = .ok (some msg)) (log : b.log = o :: b₀.log)
      (names : o.Names old)
  | resend (est : Establishes i) (within : b₀.fcm.Within b.fcm) (held : b.fcm.Holds msg)
      (count : b.fcm.pendingAckCount < maxPendingMessages) (front : b.fcm.Front msg)
      (patient : (maxPendingMessages ≤ b₀.fcm.pendingAckCount → Patient i b₀.fcm) →
      b.fcm.Within b₀.fcm ∧ b.fcm.pendingAckCount = b₀.fcm.pendingAckCount)
  | fire (expires : Expires i b₀.toStores (.retryDownstream msg)) (fcm : b.fcm = b₀.fcm) (log : b.log = b₀.log)

/-- What makes a handler start a retry timer for a downstream message. -/
inductive ArmDown (i : Input) (b₀ b : Books) (msg : Message) : Prop where
  | nack (nacked : Nacked i b₀.toStores msg) (within : b₀.fcm.Within b.fcm)
  | reconnect (est : Establishes i) (within : b₀.fcm.Within b.fcm)
      (count : maxPendingMessages ≤ b₀.fcm.pendingAckCount)

/-- What makes a handler drop a downstream message that is out of retries. -/
inductive DropDown (i : Input) (b₀ b : Books) (msg : Message) : Prop where
  | nack (old : Message) (o : Obs) (nacked : Nacked i b₀.toStores old) (seq : msg.sequenceId = old.sequenceId)
      (log : b.log = o :: b₀.log) (names : o.Names old)
  | reconnect (est : Establishes i) (count : maxPendingMessages ≤ b₀.fcm.pendingAckCount)

theorem DropDown.failed {i : Input} {b₀ b : Books} {msg : Message} (h : DropDown i b₀ b msg) (out : ¬ Patient i b₀.fcm) :
    Failed i b₀.toStores msg := by
  cases h with
  | nack old o nacked seq => exact .spent old nacked seq out
  | reconnect est count => exact .gaveUp ⟨est, count, out⟩

/-- While no message is out of retries, only a permanent nack makes one fail. -/
theorem Failed.settles {i : Input} {b₀ : Stores} {msg : Message} (h : Failed i b₀ msg) (hp : Patient i b₀.fcm) :
    Settles i b₀ msg .deliveryFailed := by
  cases h with
  | nack settles => exact settles
  | spent old nacked seq out => exact absurd hp out
  | gaveUp gives => exact absurd hp gives.exhausted

/-- What makes a handler write to a BAL session. -/
inductive Write (i : Input) (b₀ b : Books) (sid : SessionId) (doc : Json) : Prop where
  | logon (doc : doc = logonResponse sid)
  | held (m : MessageManager) (msg : Message) (bal : b.bal sid = some m) (held : m.Holds msg)
      (doc : doc = msg.payload)
  | fire (msg : Message) (expires : Expires i b₀.toStores (.retryUpstream msg)) (target : sid = msg.targetSessionId)
      (doc : doc = msg.payload) (bal : b.bal = b₀.bal) (writable : b₀.writable sid = true)
  | failed (msg : Message) (row : Row) (failed : Failed i b₀.toStores msg)
      (saved : b.rows msg.sequenceId = some row) (saves : row.Saves msg) (source : sid = msg.sourceSessionId)
      (doc : doc = msg.payload) (writable : b₀.writable sid = true)

/-- What makes a delayed resend find the message `msg` in the queue of `sid`. -/
structure Resend (i : Input) (b₀ b : Books) (sid : SessionId) (m : MessageManager) (msg : Message) : Prop where
  expires : Expires i b₀.toStores (.resend sid)
  bal : b.bal sid = some m
  held : m.Holds msg
  within : ∃ m₀, b₀.bal sid = some m₀ ∧ m₀.Within m ∧
    (Patient i m₀ → m₀.pendingAckCount ≤ m.pendingAckCount)

def Timer.isRetry : Timer → Bool
  | .retryDownstream _ => true
  | .retryUpstream _ => true
  | _ => false

inductive Act (i : Input) (b₀ : Books) : Books → Debt → Books → Debt → Prop where
  | draw {b d} : Act i b₀ b d b.draw d
  /-- A downstream message is saved and queued. -/
  | accept {b} (mid : FcmMessageId) (gid : GroupId) (sid : SessionId) (data : Json) {msg}
      (hm : msg = Message.new (b.counter + 1) .downstream mid gid sid fcmSessionId data) (source : NoNul sid)
      (request : i.event.uploads = some data) (id : mid = Json.toString (data.value fcmfieldnames.messageId)) :
      Act i b₀ b .none ((b.draw.insertRow (.ofMessage msg)).setFcm (b.fcm.addMessage msg.sequenceId msg)) .none
  | mark {b msg} (held : b.fcm.messages[msg.sequenceId]? = some msg) (sendable : b.fcm.Sendable msg) :
      Act i b₀ b .none ((b.setState msg.sequenceId .pendingAck).setFcm (b.fcm.mark msg.sequenceId)) .none
  | upload {b d msg o} (cause : Upload i b₀ b msg) (what : o.what = .upload msg)
      (server : stores o.server = b.toStores) : Act i b₀ b d (b.observe o) d
  | settle {b msg s o} (settles : Settles i b₀.toStores msg s) (fcm : b.fcm = b₀.fcm) (log : b.log = o :: b₀.log)
      (names : o.Names msg) :
      Act i b₀ b .none ((b.setState msg.sequenceId s).setFcm (b.fcm.without msg)) (.owed msg s)
  | exhaust {b msg} (held : b.fcm.Holds msg) (out : ¬ Patient i b₀.fcm) (within : b₀.fcm.Within b.fcm)
      (cause : DropDown i b₀ b msg) :
      Act i b₀ b .none (b.setState msg.sequenceId .deliveryFailed) (.owed msg .deliveryFailed)
  | drop {b d msg} (held : b.fcm.messages[msg.sequenceId]? = some msg) (out : ¬ Patient i b₀.fcm)
      (cause : DropDown i b₀ b msg) :
      Act i b₀ b d (b.setFcm (b.fcm.without msg)) d
  | touchDown {b d} (n : Int) (f : Message → Message) (hf : ∀ msg, (f msg).fixed = msg.fixed ∧ (f msg).state = msg.state) :
      Act i b₀ b d (b.setFcm (b.fcm.modifyMessage n f)) d
  | armDown {b msg} (cause : ArmDown i b₀ b msg) (held : b.fcm.Holds msg) :
      Act i b₀ b .none (b.addTimer (.retryDownstream msg)) .none
  /-- A message for a BAL session is saved. -/
  | save {b d msg} (envelope : Envelope (b.counter + 1) msg) (state : msg.state = .new) (cause : Receives i msg d) :
      Act i b₀ b d (b.draw.insertRow (.ofMessage msg)) (.saved msg)
  /-- The notice of a failed message is saved, but not queued. -/
  | reject {b old msg} (envelope : Envelope (b.counter + 1) msg) (state : msg.state = .pendingAck)
      (type : msg.type = .downstreamReject) (fcmMessageId : msg.fcmMessageId = old.fcmMessageId)
      (target : msg.targetSessionId = old.sourceSessionId)
      (failed : Failed i b₀.toStores old) :
      Act i b₀ b (.owed old .deliveryFailed) (b.draw.insertRow (.ofMessage msg)) .none
  | fcmAck {b msg o doc ack} (data : msg.payload.value gimmmfieldnames.fcmData = some doc.asObject)
      (type : msg.type = .upstream) (what : o.what = .fcmAck doc ack) (server : stores o.server = b.toStores)
      (counter : msg.sequenceId = b.counter) : Act i b₀ b (.saved msg) (b.observe o) (.saved msg)
  | deliver {b msg m} (bal : b.bal msg.targetSessionId = some m) :
      Act i b₀ b (.saved msg) (b.setBal msg.targetSessionId (m.addMessage msg.sequenceId msg)) .none
  | undeliverable {b msg} (bal : b.bal msg.targetSessionId = none) : Act i b₀ b (.saved msg) b .none
  | markBal {b sid m msg} (bal : b.bal sid = some m) (held : m.messages[msg.sequenceId]? = some msg)
      (sendable : m.Sendable msg) (type : msg.type.balBound = true) :
      Act i b₀ b .none ((b.setState msg.sequenceId .pendingAck).setBal sid (m.mark msg.sequenceId)) .none
  /-- The delayed resend marks a new message in the table and counts it, but does not write to it. -/
  | remark {b sid m msg} (resend : Resend i b₀ b sid m msg) (state : msg.state ≠ .pendingAck)
      (type : msg.type.balBound = true) (count : m.pendingAckCount < maxPendingMessages) :
      Act i b₀ b .none
        ((b.setState msg.sequenceId .pendingAck).setBal sid m.incrementPendingAckCount) .none
  | write {b sid sock doc o} (cause : Write i b₀ b sid doc) (what : o.what = .balWrite sid sock doc)
      (server : stores o.server = b.toStores) : Act i b₀ b .none (b.observe o) .none
  | settleBal {b sid m msg} (bal : b.bal sid = some m) (held : m.messages[msg.sequenceId]? = some msg) :
      Act i b₀ b .none ((b.setState msg.sequenceId .delivered).setBal sid (m.without msg)) .none
  | exhaustBal {b sid m m₀ msg} (resend : Resend i b₀ b sid m msg) (first : b₀.bal sid = some m₀)
      (out : ¬ Patient i m₀) :
      Act i b₀ b .none (b.setState msg.sequenceId .deliveryFailed) .none
  | dropBal {b sid m m₀ msg} (bal : b.bal sid = some m) (held : m.messages[msg.sequenceId]? = some msg)
      (first : b₀.bal sid = some m₀) (out : ¬ Patient i m₀) : Act i b₀ b .none (b.setBal sid (m.without msg)) .none
  | touchBal {b d sid m} (n : Int) (f : Message → Message) (bal : b.bal sid = some m)
      (hf : ∀ msg, (f msg).fixed = msg.fixed ∧ (f msg).state = msg.state) :
      Act i b₀ b d (b.setBal sid (m.modifyMessage n f)) d
  | armUp {b sid m msg} (resend : Resend i b₀ b sid m msg) :
      Act i b₀ b .none (b.addTimer (.retryUpstream msg)) .none
  /-- Connections and timers that are no retries change; a retry timer may go. -/
  | connections {b d} (ts : List Timer) (wr : SessionId → Bool)
      (ht : ∀ t ∈ ts, t ∈ b.timers ∨ t.isRetry = false) :
      Act i b₀ b d { b with timers := ts, writable := wr } d
  | record {b d o} (server : stores o.server = b.toStores)
      (what : (o.what = .established ∧ Establishes i) ∨ (∃ mid, o.what = .acked mid) ∨ ∃ mid, o.what = .nacked mid) :
      Act i b₀ b d (b.observe o) d
  /-- The handler ends without paying its debt. -/
  | lose {b d} (cause : Faulty i ∨ GivesUp i b₀.toStores) : Act i b₀ b d b .none

/-- A process starts: the managers are loaded, the counter is the largest sequence id. -/
structure Restarted (cfg : List SessionId) (env : Env) (b b' : Books) : Prop where
  fresh : ∃ db : Database, (∀ n, db.rows[n]? = b.rows n) ∧ b'.counter = db.maxSequenceId ∧
    Database.Fresh db (env.scan fcmSessionId) env.junk fcmSessionId b'.fcm ∧
    ∀ sid m, b'.bal sid = some m → Database.Fresh db (env.scan sid) env.junk sid m
  known : ∀ sid, (∃ m, b'.bal sid = some m) ↔ sid ∈ cfg
  rows : b'.rows = b.rows
  timers : b'.timers = []
  log : b'.log = b.log

/-- The books and the debts that acts lead to while `i` is handled from `b₀`. -/
inductive Reach (i : Input) (b₀ : Books) : Books → Debt → Prop where
  | start : Reach i b₀ b₀ .none
  | act {b d b' d'} (h : Reach i b₀ b d) (act : Act i b₀ b d b' d') : Reach i b₀ b' d'

/-- A property that holds at the start and that every act keeps holds of all that is reached. -/
theorem Reach.invariant {i : Input} {b₀ : Books} {P : Books → Debt → Prop}
    (start : P b₀ .none) (act : ∀ {b d b' d'}, P b d → Act i b₀ b d b' d' → P b' d') {b : Books} {d : Debt}
    (h : Reach i b₀ b d) : P b d := by
  induction h with
  | start => exact start
  | act _ ha ih => exact act ih ha

end Gimmm
