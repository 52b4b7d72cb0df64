/-
The server as a machine: one step handles one event, and a process that ends is started again on
its database.
-/
import Gimmm.Lib.Run
import Gimmm.Server.Handlers

namespace Gimmm

open Std Prog

/-- What the event loop delivers. `timer i` is the expiry of the `i`-th timer; `restart` ends the
process between two handlers and starts it again. -/
inductive Event where
  | newBALConnection (descriptor : Int)
  | balFrame (sock : SocketId) (doc : Json)
  | balDisconnected (sock : SocketId)
  | fcmUpstream (doc : Json)
  | fcmAck (doc : Json)
  | fcmNack (doc : Json)
  | fcmReceipt (doc : Json)
  | fcmSessionEstablished (id : Int)
  | fcmConnectionDrainingStarted (id : Int)
  | fcmDisconnected (id : Int)
  | timer (i : Nat)
  | restart

/-- An event and what the environment decides while it is handled. -/
structure Input where
  event : Event
  env : Env

/-- The function of an FCM connection. -/
def onFcmConnection (id : Int) (f : FcmConnection → FcmConnection) : Handler Unit :=
  update (.mapApp fun app => { app with fcmConnectionsMap := app.fcmConnectionsMap.modify id f })

/-- `handleNewBALConnection`. The descriptor of a connection is that of no other open socket. -/
def handleNewBALConnection (descriptor : Int) : Handler Unit := do
  let w ← read
  if descriptor < 0 ∨ w.app.sockets.toList.any (·.2.descriptor = descriptor) then return
  let sock := w.app.nextSocket
  update (.mapApp fun app =>
    { app with
      sockets := app.sockets.insertIfNew sock (.new descriptor)
      nextSocket := sock + 1
      balSessionMapU := app.balSessionMapU.insertIfNew descriptor sock
      timers := app.timers ++ [.authentication sock] })

/-- The socket is not connected any more; its slot runs unless its signals are blocked. -/
def disconnectSocket (sock : SocketId) : Handler Unit := do
  if let some s := (← read).app.sockets[sock]? then
    if s.connected then
      update (.mapApp fun app => { app with sockets := app.sockets.modify sock ({ · with descriptor := -1 }) })
      if !s.signalsBlocked then handleBALSocketDisconnected { s with descriptor := -1 }

/-- `handleDisconnected` of an FCM connection: it connects again after a backoff, unless it drains. -/
def handleDisconnected (id : Int) : Handler Unit := do
  if let some conn := (← read).app.fcmConnectionsMap[id]? then
    onFcmConnection id ({ · with state := .unknown })
    if conn.connectionDrainingInProgress = false then
      let d ← decision Env.popDraw
      onFcmConnection id fun c => { c with expBoff := (c.expBoff.next d).2 }
      singleShot (conn.expBoff.next d).1 (.reconnect id)

/-- The callback of a timer. -/
def expire : Timer → Handler Unit
  | .retryDownstream msg => do
    uploadToFcm msg
    modifyFcm (·.modifyMessage msg.sequenceId (·.setRetryInProgress false))
  | .retryUpstream msg => do
    forwardMsg msg.targetSessionId msg
    modifyBal msg.targetSessionId (·.modifyMessage msg.sequenceId (·.setRetryInProgress false))
  | .resend sid => resendPendingUpstreamMessages sid
  | .authentication sock => handleBalAuthenticationTimeout sock
  | .reconnect _ => return
  | .deleteSocket sock => do
    disconnectSocket sock
    update (.mapApp fun app => { app with sockets := app.sockets.erase sock })

/-- The handler of an event, inside the `catch` of `handleReadyRead` or `handleBALSocketReadyRead`
where there is one. -/
def handle : Event → Handler Unit
  | .newBALConnection descriptor => handleNewBALConnection descriptor
  | .balFrame sock doc => do
    if let some s := (← read).app.sockets[sock]? then
      if s.connected && !s.signalsBlocked then guarded (handleBALmsg s doc)
  | .balDisconnected sock => disconnectSocket sock
  | .fcmUpstream doc => handleFcmNewUpstreamMessage doc
  | .fcmAck doc => handleFcmAckMessage doc
  | .fcmNack doc => handleFcmNackMessage doc
  | .fcmReceipt doc => handleFcmReceiptMessage doc
  | .fcmSessionEstablished id => do
    onFcmConnection id fun c => { c with state := .authenticated, expBoff := c.expBoff.reset }
    guarded handleFcmSessionEstablished
  | .fcmConnectionDrainingStarted id => do
    onFcmConnection id ({ · with connectionDrainingInProgress := true })
    guarded handleFcmConnectionDrainingStarted
  | .fcmDisconnected id => handleDisconnected id
  | .timer i => do
    if let some t := (← read).app.timers[i]? then
      update (.mapApp fun app => { app with timers := app.timers.eraseIdx i })
      expire t
  | .restart => throw .killed

/-- A process starts on the database that is there. -/
def restarted (cfg : List SessionId) (env : Env) (w : World) : World := { w with app := .start cfg env w.db }

def step (cfg : List SessionId) (w : World) (i : Input) : World :=
  match handle i.event (w, i.env) with
  | .ok _ (w', _) => w'.mapApp (·.destroyConns)
  -- an exception that reaches the event loop ends the process like a crash does
  | .error _ (w', env) => restarted cfg env w'

/-- The process does not end in the step. -/
def survives (w : World) (i : Input) : Bool :=
  match handle i.event (w, i.env) with
  | .ok _ _ => true
  | .error _ _ => false

/-- The first start on a database. -/
def boot (cfg : List SessionId) (env : Env) (db : Database) : World := ⟨⟨.start cfg env db, db⟩, []⟩

abbrev run (cfg : List SessionId) (w : World) (is : List Input) : World := Run.run (step cfg) w is

/-- No step of the run ends the process. -/
def Live (cfg : List SessionId) (w : World) (is : List Input) : Prop :=
  Run.Along (step cfg) (fun w i => survives w i = true) w is

/-! ## What comes from outside -/

/-- An event in whose handler nothing fails. -/
def Input.quiet (event : Event) : Input := ⟨event, .quiet⟩

def balLogon (sid : SessionId) : Json :=
  .object [(gimmmfieldnames.messageType, .string "LOGON"), (gimmmfieldnames.sessionId, .string sid)]

def balDownstream (mid : FcmMessageId) (gid : GroupId) : Json :=
  .object [(gimmmfieldnames.messageType, .string "DOWNSTREAM"), (gimmmfieldnames.groupId, .string gid),
    (gimmmfieldnames.fcmData, .object [(fcmfieldnames.messageId, .string mid)])]

def balAck (seqid : Int) : Json :=
  .object [(gimmmfieldnames.messageType, .string "ACK"), (gimmmfieldnames.sequenceId, .ofInt64 seqid)]

def fcmMessage (mid : FcmMessageId) (sid : SessionId) : Json :=
  .object [(fcmfieldnames.messageId, .string mid), (fcmfieldnames.category, .string sid)]

def fcmAck (mid : FcmMessageId) : Json :=
  .object [(fcmfieldnames.messageType, .string "ack"), (fcmfieldnames.messageId, .string mid)]

def fcmNack (mid : FcmMessageId) (error : String) : Json :=
  .object [(fcmfieldnames.messageType, .string "nack"), (fcmfieldnames.messageId, .string mid),
    (fcmfieldnames.error, .string error)]

/-- The inputs after which the BAL of `sid` is logged on, over the socket 0, and its resend waits. -/
def loggedOn (sid : SessionId) : List Input :=
  [.quiet (.newBALConnection 5), .quiet (.balFrame 0 (balLogon sid))]

/-- One downstream message, and its ack. -/
def acked : List Input :=
  loggedOn "bal" ++ [.quiet (.balFrame 0 (balDownstream "a" "")), .quiet (.fcmAck (fcmAck "a"))]

/-- One downstream message, and a permanent nack. -/
def rejected : List Input :=
  loggedOn "bal" ++ [.quiet (.balFrame 0 (balDownstream "a" "")), .quiet (.fcmNack (fcmNack "a" "BAD_REGISTRATION"))]

end Gimmm
