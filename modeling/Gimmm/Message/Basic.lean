/-
`Message`: one message on its way through the server, with its retry state.
-/
import Gimmm.Message.Backoff
import Gimmm.Message.Json

namespace Gimmm

abbrev FcmMessageId := String
abbrev GroupId := String
abbrev SessionId := String

/-- `MAX_PENDING_MESSAGES`. -/
def maxPendingMessages : Nat := 100

/-- `MessageType`. `LOGON_RESPONSE` and `ACK` have the same value, so they are one case here. -/
inductive MessageType where
  | unknown
  | logon
  | ack
  | upstream
  | downstream
  | downstreamAck
  | downstreamReceipt
  | downstreamReject
deriving DecidableEq, Repr

inductive MessageState where
  | unknown
  | new
  | pendingAck
  | delivered
  | deliveryFailed
deriving DecidableEq, Repr

/-- The states of a message that is still to be settled. -/
def MessageState.pending (s : MessageState) : Bool := s = .new ∨ s = .pendingAck

/-- The types of the messages the server sends to a BAL session. -/
def MessageType.balBound (t : MessageType) : Bool :=
  t = .upstream ∨ t = .downstreamAck ∨ t = .downstreamReject ∨ t = .downstreamReceipt

/-- A sequence id (`SequenceId_t`) is an `Int`. -/
structure Message where
  sequenceId : Int
  sourceSessionId : SessionId
  targetSessionId : SessionId
  type : MessageType
  fcmMessageId : FcmMessageId
  groupId : GroupId
  state : MessageState
  payload : Json
  exboff : ExponentialBackoff
  nRetry : Int
  maxRetry : Int
  retryInProgress : Bool

namespace Message

/-- The constructor with all fields. -/
def new (seqid : Int) (type : MessageType) (msgid : FcmMessageId) (gid : GroupId)
    (source target : SessionId) (payload : Json) : Message where
  sequenceId := seqid
  sourceSessionId := source
  targetSessionId := target
  type := type
  fcmMessageId := msgid
  groupId := gid
  state := .new
  payload := payload
  exboff := .new noMaxRetry
  nRetry := 0
  maxRetry := -1
  retryInProgress := false

/-- The default constructor. It leaves `__nRetry` and `__maxRetry` uninitialised: `junk` is what
they hold. -/
def blank (junk : Int × Int) : Message where
  sequenceId := 0
  sourceSessionId := ""
  targetSessionId := ""
  type := .unknown
  fcmMessageId := ""
  groupId := ""
  state := .unknown
  payload := .null
  exboff := .new noMaxRetry
  nRetry := junk.1
  maxRetry := junk.2
  retryInProgress := false

/-- `operator=`. It copies the backoff, but not `__nRetry`, `__maxRetry` and `__retryInProgress`. -/
def assign (msg rhs : Message) : Message :=
  { rhs with nRetry := msg.nRetry, maxRetry := msg.maxRetry, retryInProgress := msg.retryInProgress }

/-- The copy constructor, which is `operator=` on a message whose other fields are uninitialised. -/
def copy (rhs : Message) (junk : Int × Int) (inProgress : Bool) : Message :=
  assign { blank junk with retryInProgress := inProgress } rhs

def setMaxRetry (msg : Message) (maxRetry : Int) : Message := { msg with maxRetry := maxRetry }

def setState (msg : Message) (state : MessageState) : Message := { msg with state := state }

def setRetryInProgress (msg : Message) (val : Bool) : Message := { msg with retryInProgress := val }

/-- `getMessageIdentifier()`. -/
def identifier (msg : Message) : String :=
  "fcmmsgid: " ++ msg.fcmMessageId ++ ", sequenceid: " ++ toString msg.sequenceId

/-- `getNextRetryTimeout()`: -1 once the retry limit, if there is one, is exceeded. -/
def getNextRetryTimeout (msg : Message) (d : Draw) : Int × Message :=
  let msg := { msg with nRetry := msg.nRetry + 1 }
  if msg.maxRetry ≠ -1 ∧ msg.nRetry > msg.maxRetry then (-1, msg)
  else ((msg.exboff.next d).1, { msg with exboff := (msg.exboff.next d).2 })

/-- What of a message never changes while it is in the server. -/
structure Fixed where
  sequenceId : Int
  sourceSessionId : SessionId
  targetSessionId : SessionId
  type : MessageType
  fcmMessageId : FcmMessageId
  groupId : GroupId
  payload : Json

def fixed (msg : Message) : Fixed :=
  ⟨msg.sequenceId, msg.sourceSessionId, msg.targetSessionId, msg.type, msg.fcmMessageId, msg.groupId, msg.payload⟩

@[simp] theorem setState_state (msg : Message) (s : MessageState) : (msg.setState s).state = s := rfl
@[simp] theorem setState_fixed (msg : Message) (s : MessageState) : (msg.setState s).fixed = msg.fixed := rfl
@[simp] theorem setRetryInProgress_state (msg : Message) (b : Bool) :
    (msg.setRetryInProgress b).state = msg.state := rfl
@[simp] theorem setRetryInProgress_fixed (msg : Message) (b : Bool) :
    (msg.setRetryInProgress b).fixed = msg.fixed := rfl

@[simp] theorem getNextRetryTimeout_state (msg : Message) (d : Draw) :
    (msg.getNextRetryTimeout d).2.state = msg.state := by
  unfold getNextRetryTimeout; simp only; split <;> rfl

@[simp] theorem getNextRetryTimeout_fixed (msg : Message) (d : Draw) :
    (msg.getNextRetryTimeout d).2.fixed = msg.fixed := by
  unfold getNextRetryTimeout; simp only; split <;> rfl

end Message

end Gimmm
