/-
The functions of `DbConnection`, `BALSession` and `Application`, as programs on the server and its
log. A statement or an output takes a fault from the environment first; an exception ends a
function with everything it did before kept.
-/
import Gimmm.Server.Basic

namespace Gimmm

abbrev Handler (α : Type) := Prog Env Stop World α

namespace World

def mapApp (f : Application → Application) (w : World) : World := { w with app := f w.app }

def putFcm (m : MessageManager) (w : World) : World := { w with app := { w.app with fcmMsgManager := m } }

def putBal (sid : SessionId) (m : MessageManager) (w : World) : World :=
  { w with app := { w.app with balSessionMap := w.app.balSessionMap.modify sid ({ · with msgManager := m }) } }

def record (what : Happening) (w : World) : World := { w with log := ⟨what, w.toServer⟩ :: w.log }

end World

open Prog CString
open MessageManager (ask removeMessage removeMessageWithFcmMsgId)

/-- `THROW_INVALID_ARGUMENT_EXCEPTION`. -/
def throwInvalidArgument {α : Type} (what : String) : Handler α := throw (.exception what)

def onFcm {α : Type} (x : EStateM Stop MessageManager α) : Handler α := onPart (·.app.fcmMsgManager) .putFcm x

def askFcm {α : Type} (f : MessageManager → Except Stop α) : Handler α := onFcm (ask f)

def modifyFcm (f : MessageManager → MessageManager) : Handler Unit := onFcm (modify f)

/-- Run `x` on the manager that `findBalMessageManager` finds. -/
def onBal {α : Type} (sid : SessionId) (x : EStateM Stop MessageManager α) : Handler α := do
  match (← read).app.balManager sid with
  | some m => onPart (fun _ => m) (.putBal sid) x
  | none => throwInvalidArgument ("Cannot find message manager for session id[" ++ sid ++ "]")

def askBal {α : Type} (sid : SessionId) (f : MessageManager → Except Stop α) : Handler α := onBal sid (ask f)

def modifyBal (sid : SessionId) (f : MessageManager → MessageManager) : Handler Unit := onBal sid (modify f)

/-- Throws when the session is not configured. -/
def findBalMessageManager (sid : SessionId) : Handler Unit := onBal sid (pure ())

def findBalSession (sid : SessionId) : Handler BALSession := do
  match (← read).app.balSessionMap[sid]? with
  | some sess => return sess
  | none => throwInvalidArgument ("ERROR: Unknown BAL session[" ++ sid ++ "]")

def singleShot (msec : Int) (t : Timer) : Handler Unit :=
  -- a negative timeout starts no timer
  if msec < 0 then return else update (.mapApp fun app => { app with timers := app.timers ++ [t] })

/-! ## Statements and outputs -/

def getNextSequenceId : Handler Int := do
  update (.mapApp fun app => { app with sequenceId := app.sequenceId + 1 })
  return (← read).app.sequenceId

def insertFailed (msg : Message) (rc : Int) : Handler Unit :=
  throwInvalidArgument ("Inserting message with[" ++ msg.identifier ++ "] failed. rcode[" ++ toString rc ++ "].")

/-- `SQLITE_CONSTRAINT`. -/
def sqliteConstraint : Int := 19

def saveMsg (msg : Message) : Handler Unit := do
  match ← decision Env.popFault with
  | .ok =>
    match (← read).db.insert (.ofMessage msg) with
    | some db => update ({ · with db := db })
    | none => insertFailed msg sqliteConstraint
  | .fail rc => insertFailed msg rc
  | .crash => throw .killed

def updateMsgState (msg : Message) (newState : MessageState) : Handler Unit := do
  match ← decision Env.popFault with
  | .ok => update fun w => { w with db := w.db.update msg.sequenceId newState }
  | .fail rc =>
    throwInvalidArgument ("Updating message with[" ++ msg.identifier ++ "] failed. rcode[" ++ toString rc ++ "].")
  | .crash => throw .killed

/-- Send something, unless the process ends before. -/
def output (what : Happening) : Handler Unit := do
  if (← decision Env.popFault) = .crash then throw .killed
  update (.record what)

def writeMessage (sid : SessionId) (sess : BALSession) (jsonmsg : Json) : Handler Unit := do
  if sess.state = .authenticated then
    match sess.balConn with
    -- authenticated, and no connection set
    | none => throw .undefined
    | some sock =>
      match (← read).app.sockets[sock]? with
      -- the session still points to a socket that is gone
      | none => throw .undefined
      | some s =>
        if s.connected then output (.balWrite sid sock jsonmsg)
        else throwInvalidArgument ("ERROR: Failed t write to session id:" ++ sid)
  else
    throwInvalidArgument
      ("Failed t write to session id:" ++ sid ++ ", Invalid session state:" ++ sess.state.char)

/-! ## Documents

The ids in them are assigned as `c_str()`. -/

def gimmmMessage (seqid : Int) (type : String) (sid : SessionId) (fcmData : Json) : Json :=
  .object [(gimmmfieldnames.sequenceId, .ofInt64 seqid), (gimmmfieldnames.messageType, .string type),
    (gimmmfieldnames.sessionId, .string (cString sid)), (gimmmfieldnames.fcmData, fcmData)]

def rejectMessage (seqid : Int) (sid : SessionId) (fcmData : Json) : Json :=
  .object [(gimmmfieldnames.sequenceId, .ofInt64 seqid), (gimmmfieldnames.messageType, .string "DOWNSTREAM_REJECT"),
    (gimmmfieldnames.sessionId, .string (cString sid)), (gimmmfieldnames.errorDesc, .string "Max retry reached."),
    (gimmmfieldnames.fcmData, fcmData)]

def logonResponse (sid : SessionId) : Json :=
  .object [("message_type", .string "LOGON_RESPONSE"), ("session_id", .string (cString sid)),
    ("status", .string "SUCCESS")]

def fcmAckMessage (originalMsg : Json) : Json :=
  .object [(fcmfieldnames.to_, .string (cString (Json.toString (originalMsg.value "from")))),
    (fcmfieldnames.messageId, .string (cString (Json.toString (originalMsg.value "message_id")))),
    (fcmfieldnames.messageType, .string "ack")]

/-! ## Sending -/

def uploadToFcm (msg : Message) : Handler Unit := output (.upload msg)

def sendFcmAckMessage (originalMsg : Json) : Handler Unit :=
  output (.fcmAck originalMsg (fcmAckMessage originalMsg))

def sendNextPendingDownstreamMessage : Handler Unit := do
  if let some nextmsg := ← askFcm (·.getNext) then
    -- the message stays new, and it is not counted
    uploadToFcm nextmsg

def sendNextPendingUpstreamMessage (sid : SessionId) : Handler Unit := do
  if let some nextmsg := ← askBal sid (·.getNext) then
    let sess ← findBalSession nextmsg.targetSessionId
    writeMessage nextmsg.targetSessionId sess nextmsg.payload

def forwardMsg (sid : SessionId) (msg : Message) : Handler Unit := do
  let sess ← findBalSession sid
  if sess.state = .unauthenticated then return
  -- a write that fails is caught here; the message is pending an ack all the same
  attempt Stop.catchable (writeMessage sid sess msg.payload)

def forwardMsgToBalsession (sid : SessionId) (msg : Message) : Handler Unit := do
  findBalMessageManager sid
  modifyBal sid (·.addMessage msg.sequenceId msg)
  let rcode ← askBal sid (·.canSendMessage msg)
  if rcode = 0 then
    updateMsgState msg .pendingAck
    modifyBal sid (·.modifyMessage msg.sequenceId (·.setState .pendingAck))
    modifyBal sid (·.incrementPendingAckCount)
    forwardMsg sid msg

def notifyDownstreamUploadFailure (msg : Message) : Handler Unit :=
  attempt Stop.catchable do
    let nextseqid ← getNextSequenceId
    let junk ← decision (Env.getJunk nextseqid)
    let sessid := msg.sourceSessionId
    let msgptr := { Message.blank junk with
      sequenceId := nextseqid
      type := .downstreamReject
      fcmMessageId := msg.fcmMessageId
      targetSessionId := sessid
      state := .pendingAck
      payload := rejectMessage nextseqid sessid msg.payload.asObject }
    saveMsg msgptr
    let sess ← findBalSession sessid
    -- the original payload, not that of `msgptr`
    writeMessage sessid sess msg.payload

def retryDownstreamWithExponentialBackoff (msg : Message) : Handler Unit := do
  let d ← decision Env.popDraw
  modifyFcm (·.modifyMessage msg.sequenceId fun m => (m.getNextRetryTimeout d).2)
  let msec := (msg.getNextRetryTimeout d).1
  if msec ≠ -1 then
    modifyFcm (·.modifyMessage msg.sequenceId (·.setRetryInProgress true))
    singleShot msec (.retryDownstream msg)
  else
    updateMsgState msg .deliveryFailed
    -- by its FCM message id, which may be that of another message
    onFcm (removeMessageWithFcmMsgId msg.fcmMessageId)
    notifyDownstreamUploadFailure msg

/-- `sid` is the session in whose queue the shared message is. -/
def retryUpstreamWithExponentialBackoff (sid : SessionId) (msg : Message) : Handler Unit := do
  let d ← decision Env.popDraw
  modifyBal sid (·.modifyMessage msg.sequenceId fun m => (m.getNextRetryTimeout d).2)
  let msec := (msg.getNextRetryTimeout d).1
  if msec ≠ -1 then
    modifyBal sid (·.modifyMessage msg.sequenceId (·.setRetryInProgress true))
    singleShot msec (.retryUpstream msg)
  else
    updateMsgState msg .deliveryFailed
    onBal msg.targetSessionId (removeMessageWithFcmMsgId msg.fcmMessageId)

/-- Run `body` on each message of the queue that `queue` reads, over the keys it has at the start:
the queue does not grow under the loop. Going on from a message that the body has erased is
undefined. -/
def forEachMessage (queue : World → Option MessageManager) (body : Message → Handler Unit) : Handler Unit := do
  match queue (← read) with
  | none => return
  | some m =>
    m.messages.keys.forM fun seqid => do
      if let some msg := (queue (← read)).bind (·.messages[seqid]?) then
        body msg
        if ((queue (← read)).bind (·.messages[seqid]?)).isNone then throw .undefined

def resendPendingUpstreamMessages (sid : SessionId) : Handler Unit :=
  forEachMessage (·.app.balManager sid) fun msg => do
    if msg.type.balBound then
      let rcode ← askBal sid (·.canSendMessageOnReconnect msg)
      if rcode = 0 then
        if msg.state ≠ .pendingAck then
          -- marked in the table only
          updateMsgState msg .pendingAck
          modifyBal sid (·.incrementPendingAckCount)
        forwardMsg sid msg
      else if rcode = 2 then retryUpstreamWithExponentialBackoff sid msg
      else if rcode = 3 then return
      else onBal sid (removeMessage msg.sequenceId)

def resendAllPendingDownstreamMessages : Handler Unit :=
  forEachMessage (some ·.app.fcmMsgManager) fun msg => do
    if msg.type = .downstream then
      let rcode ← askFcm (·.canSendMessageOnReconnect msg)
      if rcode = 0 then uploadToFcm msg
      else if rcode = 2 then retryDownstreamWithExponentialBackoff msg

/-! ## Messages from FCM -/

/-- `catch (std::exception&)` and `catch (...)` around a handler. -/
def guarded (x : Handler Unit) : Handler Unit := attempt Stop.catchable x

def handleFcmNewUpstreamMessage (clientMsg : Json) : Handler Unit := guarded do
  let sessionid := Json.toString (clientMsg.value fcmfieldnames.category)
  let fcmMid := Json.toString (clientMsg.value fcmfieldnames.messageId)
  let nextseqid ← getNextSequenceId
  let msgptr := Message.new nextseqid .upstream fcmMid "" fcmSessionId sessionid
    (gimmmMessage nextseqid "UPSTREAM" sessionid clientMsg.asObject)
  saveMsg msgptr
  sendFcmAckMessage clientMsg
  forwardMsgToBalsession sessionid msgptr

def handleFcmAckMessage (ackMsg : Json) : Handler Unit := do
  let mid := Json.toString (ackMsg.value fcmfieldnames.messageId)
  update (.record (.acked mid))
  guarded do
    let msg ← askFcm (·.findMessageWithFcmMsgId mid)
    let sessid := msg.sourceSessionId
    updateMsgState msg .delivered
    onFcm (removeMessageWithFcmMsgId mid)
    sendNextPendingDownstreamMessage
    let newseqid ← getNextSequenceId
    let balack := Message.new newseqid .downstreamAck mid "" fcmSessionId sessid
      (gimmmMessage newseqid "DOWNSTREAM_ACK" sessid ackMsg.asObject)
    saveMsg balack
    forwardMsgToBalsession sessid balack

/-- The errors after which an upload is retried. -/
def isTransient (error : String) : Bool :=
  error = "SERVICE_UNAVAILABLE" ∨ error = "INTERNAL_SERVER_ERROR" ∨ error = "DEVICE_MESSAGE_RATE_EXCEEDED" ∨
    error = "TOPICS_MESSAGE_RATE_EXCEEDED" ∨ error = "CONNECTION_DRAINING"

def handleFcmNackMessage (nackMsg : Json) : Handler Unit := do
  let msgId := Json.toString (nackMsg.value fcmfieldnames.messageId)
  let error := Json.toString (nackMsg.value fcmfieldnames.error)
  update (.record (.nacked msgId))
  guarded do
    let origmsg ← askFcm (·.findMessageWithFcmMsgId msgId)
    if isTransient error then retryDownstreamWithExponentialBackoff origmsg
    else
      updateMsgState origmsg .deliveryFailed
      onFcm (removeMessageWithFcmMsgId msgId)
      -- the next message goes before the source is told
      sendNextPendingDownstreamMessage
      notifyDownstreamUploadFailure origmsg

def handleFcmReceiptMessage (recptMsg : Json) : Handler Unit := do
  let sessionid := Json.toString (recptMsg.value fcmfieldnames.category)
  let fcmMid := Json.toString (recptMsg.value fcmfieldnames.messageId)
  guarded do
    let nextseqid ← getNextSequenceId
    -- the default constructor leaves the retry state uninitialized
    let junk ← decision (Env.getJunk nextseqid)
    let msgptr := { Message.blank junk with
      sequenceId := nextseqid
      type := .downstreamReceipt
      fcmMessageId := fcmMid
      sourceSessionId := fcmSessionId
      targetSessionId := sessionid
      payload := gimmmMessage nextseqid "DOWNSTREAM_RECEIPT" sessionid recptMsg.asObject
      state := .new }
    saveMsg msgptr
    forwardMsgToBalsession sessionid msgptr

def handleFcmSessionEstablished : Handler Unit := do
  update (.record .established)
  resendAllPendingDownstreamMessages

/-- Unsubscribe the last FCM connection of the map and open a new one. -/
def handleFcmConnectionDrainingStarted : Handler Unit := do
  match (← read).app.fcmConnectionsMap.keys.getLast? with
  | none => throw .undefined
  | some last =>
    update (.mapApp fun app =>
      let fcmConns := app.fcmConnectionsMap.modify last ({ · with subscribed := false })
      { app with
        fcmConnCount := app.fcmConnCount + 1
        fcmConnectionsMap := fcmConns.insertIfNew (app.fcmConnCount + 1) .new })

/-! ## Messages from BAL sessions -/

/-- `deleteTimerContext()`: the authentication timer is cancelled. -/
def deleteTimerContext (sock : SocketId) : Handler Unit :=
  update (.mapApp fun app =>
    { app with timers := app.timers.filter fun | .authentication s => s ≠ sock | _ => true })

def eraseUnauthenticated (descriptor : Int) : Handler Unit :=
  update (.mapApp fun app => { app with balSessionMapU := app.balSessionMapU.erase descriptor })

def handleBalAuthenticationTimeout (sock : SocketId) : Handler Unit := do
  match (← read).app.sockets[sock]? with
  | none => throw .undefined
  | some s =>
    update (.mapApp fun app => { app with sockets := app.sockets.modify sock ({ · with signalsBlocked := true }) })
    eraseUnauthenticated s.descriptor

/-- `setConn`, `setProperty` and `setState` of an accepted logon. -/
def acceptConn (sid : SessionId) (conn : SocketId) : Handler Unit :=
  update (.mapApp fun app =>
    { app with
      balSessionMap := app.balSessionMap.modify sid ({ · with balConn := some conn, state := .authenticated })
      sockets := app.sockets.modify conn (·.named sid) })

def handleBalLogonRequest (socket : Socket) (sid : SessionId) : Handler Unit := do
  match (← read).app.balSessionMapU[socket.descriptor]? with
  | none => return
  | some conn =>
    deleteTimerContext conn
    eraseUnauthenticated socket.descriptor
    match (← read).app.balSessionMap[sid]? with
    | none => return
    | some _ =>
      acceptConn sid conn
      let sess ← findBalSession sid
      writeMessage sid sess (logonResponse sid)
      singleShot 1000 (.resend sid)

def handleBalDownstreamUploadRequest (sid : SessionId) (balDownstreamMsg : Json) : Handler Unit := do
  let gid := Json.toString (balDownstreamMsg.value gimmmfieldnames.groupId)
  let data := Json.toObject (balDownstreamMsg.value gimmmfieldnames.fcmData)
  let fcmMid := Json.toString (data.value fcmfieldnames.messageId)
  let nextseqid ← getNextSequenceId
  let msg := Message.new nextseqid .downstream fcmMid gid sid fcmSessionId data
  saveMsg msg
  modifyFcm (·.addMessage nextseqid msg)
  let rcode ← askFcm (·.canSendMessage msg)
  if rcode = 0 then
    updateMsgState msg .pendingAck
    modifyFcm (·.modifyMessage nextseqid (·.setState .pendingAck))
    modifyFcm (·.incrementPendingAckCount)
    uploadToFcm msg

def handleBalAckMsg (sid : SessionId) (seqid : Int) : Handler Unit := guarded do
  findBalMessageManager sid
  let msg ← askBal sid (·.findMessage seqid)
  updateMsgState msg .delivered
  onBal sid (removeMessage seqid)
  sendNextPendingUpstreamMessage sid

def handleBALmsg (socket : Socket) (balmsg : Json) : Handler Unit := do
  let type := Json.toString (balmsg.value gimmmfieldnames.messageType)
  if type = "LOGON" then
    handleBalLogonRequest socket (Json.toString (balmsg.value gimmmfieldnames.sessionId))
  else if type = "DOWNSTREAM" then handleBalDownstreamUploadRequest socket.sessionId balmsg
  else if type = "ACK" then
    handleBalAckMsg socket.sessionId (Json.toInt (balmsg.value gimmmfieldnames.sequenceId))
  else throwInvalidArgument ("Unknown message type<" ++ type ++ "> recieved")

/-- `socket` is the sender, whose descriptor is -1 by now. -/
def handleBALSocketDisconnected (socket : Socket) : Handler Unit := do
  match (← read).app.balSessionMapU[socket.descriptor]? with
  | some conn =>
    deleteTimerContext conn
    eraseUnauthenticated socket.descriptor
  | none =>
    -- `getConn().reset()` resets a copy of the session's pointer
    update (.mapApp fun app =>
      { app with
        balSessionMap := app.balSessionMap.modify socket.sessionId ({ · with state := .unauthenticated }) })

end Gimmm
