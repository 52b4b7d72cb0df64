/-
The state of the server: `Application` with its managers, sessions, sockets, FCM connections and
timers, the database under it, and what the environment of a handler decides. `log` records what
the server sends and what FCM tells it, each with the server at that moment.
-/
import Gimmm.Store.Database

namespace Gimmm

open Std CString

/-! ## The environment -/

/-- The outcome of a statement: it succeeds, `sqlite3_step` returns `rcode`, or the process ends
before it. -/
inductive Fault where
  | ok
  | fail (rcode : Int)
  | crash
deriving DecidableEq, Repr

/-- What the environment decides: a fault for each statement and each output, in their order, a
draw for each backoff, what uninitialised fields hold, and the scans of the next load. -/
structure Env where
  faults : List Fault
  draws : List Draw
  junk : Int → Int × Int
  scan : SessionId → Database.Scan

namespace Env

/-- The environment in which nothing fails. -/
def quiet : Env := ⟨[], [], fun _ => (0, -1), fun _ => .inOrder⟩

def popFault (env : Env) : Fault × Env := (env.faults.headD .ok, { env with faults := env.faults.tail })

def popDraw (env : Env) : Draw × Env := (env.draws.headD default, { env with draws := env.draws.tail })

def getJunk (seqid : Int) (env : Env) : (Int × Int) × Env := (env.junk seqid, env)

end Env

/-! ## The BAL side -/

abbrev SocketId := Nat

/-- A `QTcpSocket`: its descriptor, -1 once it is not connected, its property `session_id`, which is
set from a C string, and whether a `BALConn` wraps it. -/
structure Socket where
  descriptor : Int
  sessionId : SessionId
  signalsBlocked : Bool
  wrapped : Bool
  noNul : NoNul sessionId

def Socket.connected (s : Socket) : Bool := s.descriptor ≠ -1

/-- A socket that is accepted. -/
def Socket.new (descriptor : Int) : Socket := ⟨descriptor, "", false, true, noNul_empty⟩

/-- `setProperty("session_id", ..)` with the `c_str()` of an id. -/
def Socket.named (s : Socket) (sid : SessionId) : Socket :=
  { s with sessionId := cString sid, noNul := noNul_cString sid }

inductive SessionState where
  | unauthenticated
  | authenticated
deriving DecidableEq, Repr

def SessionState.char : SessionState → String
  | .unauthenticated => "U"
  | .authenticated => "A"

/-- A session is named by its id, its key in `__balSessionMap`; a `BALConn` by the socket it wraps. -/
structure BALSession where
  balConn : Option SocketId
  state : SessionState
  msgManager : MessageManager

/-! ## The FCM side -/

inductive FcmSessionState where
  | unknown
  | authenticated
deriving DecidableEq, Repr

/-- `subscribed`: its `handleSendMessage` is connected to the signal `sendMessage`. -/
structure FcmConnection where
  state : FcmSessionState
  expBoff : ExponentialBackoff
  connectionDrainingInProgress : Bool
  subscribed : Bool

def FcmConnection.new : FcmConnection := ⟨.unknown, .new noMaxRetry, false, true⟩

/-! ## The application -/

/-- What waits in the event loop, with what its callback captures. -/
inductive Timer where
  | retryDownstream (msg : Message)
  | retryUpstream (msg : Message)
  | resend (sid : SessionId)
  | authentication (sock : SocketId)
  | reconnect (id : Int)
  | deleteSocket (sock : SocketId)

/-- `sequenceId` is that of `__dbConn`; `nextSocket` names the next new socket. -/
structure Application where
  fcmConnCount : Int
  fcmConnectionsMap : ExtTreeMap Int FcmConnection
  fcmMsgManager : MessageManager
  balSessionMap : ExtTreeMap SessionId BALSession
  balSessionMapU : ExtTreeMap Int SocketId
  sequenceId : Int
  sockets : ExtTreeMap SocketId Socket
  nextSocket : SocketId
  timers : List Timer

structure Server where
  app : Application
  db : Database

/-- What the log records. -/
inductive Happening where
  /-- `sendMessage(*msg->getPayload())`. -/
  | upload (msg : Message)
  /-- `sendMessage` of the ack of the upstream message `original`. -/
  | fcmAck (original doc : Json)
  /-- `write` on the socket of a session. -/
  | balWrite (sid : SessionId) (sock : SocketId) (doc : Json)
  /-- `handleFcmSessionEstablished` begins. -/
  | established
  /-- FCM acks the message id. -/
  | acked (mid : FcmMessageId)
  /-- FCM nacks the message id. -/
  | nacked (mid : FcmMessageId)

structure Obs where
  what : Happening
  server : Server

/-- The server and its log, newest first. -/
structure World extends Server where
  log : List Obs

namespace Application

/-- The manager of a configured session. -/
def balManager (app : Application) (sid : SessionId) : Option MessageManager :=
  app.balSessionMap[sid]?.map (·.msgManager)

/-- Does a shared pointer to the `BALConn` of `sock` exist? -/
def referenced (app : Application) (sock : SocketId) : Bool :=
  app.balSessionMapU.toList.any (·.2 = sock) ||
  app.balSessionMap.toList.any (·.2.balConn = some sock) ||
  app.timers.any fun | .authentication s => s = sock | _ => false

/-- `~BALConn()`: the socket is deleted later. -/
def destroyConn (app : Application) (sock : SocketId) : Application :=
  { app with
    sockets := app.sockets.modify sock ({ · with wrapped := false })
    timers := app.timers ++ [.deleteSocket sock] }

/-- Destroy every `BALConn` whose last shared pointer is gone. -/
def destroyConns (app : Application) : Application :=
  ((app.sockets.toList.filter fun p => p.2.wrapped && !app.referenced p.1).map (·.1)).foldl destroyConn app

/-- `Application()` and `start()`: load the managers, open the first FCM connection. -/
def start (cfg : List SessionId) (env : Env) (db : Database) : Application where
  fcmConnCount := 1
  fcmConnectionsMap := (∅ : ExtTreeMap Int FcmConnection).insertIfNew 1 .new
  fcmMsgManager := db.loadPendingMessages (env.scan fcmSessionId) env.junk (.new fcmSessionId)
  balSessionMap := cfg.foldl (fun sessions sid => sessions.insertIfNew sid
    ⟨none, .unauthenticated, db.loadPendingMessages (env.scan sid) env.junk (.new sid)⟩) ∅
  balSessionMapU := ∅
  sequenceId := db.maxSequenceId
  sockets := ∅
  nextSocket := 0
  timers := []

end Application

end Gimmm
