/-
`MessageManager`: the queue of the messages a session has not acknowledged yet, with its index of
FCM message ids, its group queues and the count of messages pending an ack.
-/
import Std.Data.ExtTreeSet
import Gimmm.Lib.MapCount
import Gimmm.Lib.Prog
import Gimmm.Message.Basic

namespace Gimmm

open Std

/-- How a function that does not return ends: it throws, its behaviour is undefined, or the
process ends under it. -/
inductive Stop where
  | exception (what : String)
  | undefined
  | killed
deriving DecidableEq, Repr

/-- What a `catch (std::exception&)` or a `catch (...)` sees. -/
def Stop.catchable : Stop → Bool
  | .exception _ => true
  | _ => false

/-! ## Groups -/

/-- The messages of one group, by sequence id. The shared pointers of its queue are those of the
main queue, so only their keys are kept here. -/
structure Group where
  groupId : GroupId
  nonblank : groupId ≠ ""
  msgQueue : ExtTreeSet Int

namespace Group

def new (gid : GroupId) (h : gid ≠ "") : Group := ⟨gid, h, ∅⟩

def add (grp : Group) (msg : Message) : Group :=
  if msg.groupId = grp.groupId then { grp with msgQueue := grp.msgQueue.insert msg.sequenceId } else grp

def remove (grp : Group) (seqid : Int) : Group := { grp with msgQueue := grp.msgQueue.erase seqid }

/-- `canSend`: is `msg` the first of the queue? The first of an empty queue is undefined. -/
def canSend (grp : Group) (msg : Message) : Except Stop Bool :=
  match grp.msgQueue.toList.head? with
  | some front => .ok (msg.sequenceId = front)
  | none => .error .undefined

end Group

/-! ## The manager -/

structure MessageManager where
  sessionId : SessionId
  maxPendingAllowed : Nat
  pendingAckCount : Nat
  sequenceIdMap : ExtTreeMap FcmMessageId Int
  messages : ExtTreeMap Int Message
  groups : ExtTreeMap GroupId Group

namespace MessageManager

def new (sessionid : SessionId) (maxPendingAllowed : Nat := maxPendingMessages) : MessageManager :=
  ⟨sessionid, maxPendingAllowed, 0, ∅, ∅, ∅⟩

/-- Call a const function of the manager. -/
def ask {α : Type} (f : MessageManager → Except Stop α) : EStateM Stop MessageManager α := fun m =>
  match f m with
  | .ok a => .ok a m
  | .error e => .error e m

def incrementPendingAckCount (m : MessageManager) : MessageManager :=
  { m with pendingAckCount := m.pendingAckCount + 1 }

def decrementPendingAckCount (m : MessageManager) : MessageManager :=
  if m.pendingAckCount ≠ 0 then { m with pendingAckCount := m.pendingAckCount - 1 } else m

/-- Write through the shared pointer of the message with sequence id `seqid`. -/
def modifyMessage (m : MessageManager) (seqid : Int) (f : Message → Message) : MessageManager :=
  { m with messages := m.messages.modify seqid f }

def findMessage (m : MessageManager) (seqid : Int) : Except Stop Message :=
  match m.messages[seqid]? with
  | some msg => .ok msg
  | none => .error (.exception ("Cannot find message for seqid[" ++ toString seqid ++ "]"))

def findGroup (m : MessageManager) (gid : GroupId) : Except Stop Group :=
  match m.groups[gid]? with
  | some grp => .ok grp
  | none => .error (.exception ("Cannot find groupd with group id [" ++ gid ++ "]"))

def findSequenceId (m : MessageManager) (msgid : FcmMessageId) : Except Stop Int :=
  match m.sequenceIdMap[msgid]? with
  | some seqid => .ok seqid
  | none => .error (.exception ("Cannot find sequenceid for msgid[" ++ msgid ++ "]"))

def findMessageWithFcmMsgId (m : MessageManager) (fcmMsgid : FcmMessageId) : Except Stop Message := do
  let seqid ← m.findSequenceId fcmMsgid
  m.findMessage seqid

def addToGroups (m : MessageManager) (msg : Message) : MessageManager :=
  if h : msg.groupId ≠ "" then
    match m.groups[msg.groupId]? with
    | some _ => { m with groups := m.groups.modify msg.groupId (·.add msg) }
    | none => { m with groups := m.groups.insertIfNew msg.groupId ((Group.new msg.groupId h).add msg) }
  else m

def addMessage (m : MessageManager) (seqid : Int) (msg : Message) : MessageManager :=
  -- `emplace` keeps an entry that is there already
  let m := { m with sequenceIdMap := m.sequenceIdMap.insertIfNew msg.fcmMessageId seqid }
  let m := { m with messages := m.messages.insertIfNew seqid msg }
  m.addToGroups msg

def removeFromGroups (gid : GroupId) (seqid : Int) : EStateM Stop MessageManager Unit := do
  if gid = "" then return
  let group ← ask (·.findGroup gid)
  let group := group.remove seqid
  modify fun m => { m with groups := m.groups.modify gid fun _ => group }
  if group.msgQueue.isEmpty then
    modify fun m => { m with groups := m.groups.erase gid }

def removeMessage (seqid : Int) : EStateM Stop MessageManager Unit := do
  let msg ← ask (·.findMessage seqid)
  modify fun m => { m with messages := m.messages.erase seqid }
  removeFromGroups msg.groupId seqid
  modify fun m => { m with sequenceIdMap := m.sequenceIdMap.erase msg.fcmMessageId }
  if msg.state = .pendingAck then
    modify decrementPendingAckCount

def removeMessageWithFcmMsgId (fcmMsgid : FcmMessageId) : EStateM Stop MessageManager Unit := do
  let seqid ← ask (·.findSequenceId fcmMsgid)
  removeMessage seqid

/-- The group rule, shared by both send rules. -/
def groupRule (m : MessageManager) (msg : Message) : Except Stop Nat := do
  if msg.groupId ≠ "" then
    let grp ← m.findGroup msg.groupId
    if (← grp.canSend msg) = false then
      return 3
  return 0

/-- 0 success, 1 bad state, 2 too many messages pending an ack, 3 behind its group. -/
def canSendMessage (m : MessageManager) (msg : Message) : Except Stop Nat :=
  if msg.state ≠ .new then return 1
  else if m.pendingAckCount ≥ maxPendingMessages then return 2
  else m.groupRule msg

def canSendMessageOnReconnect (m : MessageManager) (msg : Message) : Except Stop Nat :=
  if msg.state ≠ .new ∧ msg.state ≠ .pendingAck then return 1
  else if m.pendingAckCount ≥ maxPendingMessages then return 2
  else m.groupRule msg

/-- The first message of `queue`, in the order of the sequence ids, that can be sent. -/
def firstSendable (m : MessageManager) : List (Int × Message) → Except Stop (Option Message)
  | [] => .ok none
  | (_, msg) :: rest => do
    if (← m.canSendMessage msg) = 0 then return some msg
    m.firstSendable rest

def getNext (m : MessageManager) : Except Stop (Option Message) := m.firstSendable m.messages.toList

end MessageManager

end Gimmm
