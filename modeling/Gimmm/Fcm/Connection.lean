/-
`FcmConnection`: the XMPP stream that FCM sends over a TLS connection, read by one `QXmlStreamReader` for
all the sockets that the connection opens in its life. The tokenizer of the reader and the JSON parser are
parameters.
-/
import Gimmm.Lib.Xml
import Gimmm.Server.Step

namespace Gimmm

open Xml

def streamNspaceUri : String := "http://etherx.jabber.org/streams"
def defaultNspaceUri : String := "jabber:client"
def saslNspaceUri : String := "urn:ietf:params:xml:ns:xmpp-sasl"
def bindNspaceUri : String := "urn:ietf:params:xml:ns:xmpp-bind"
def sessionNspaceUri : String := "urn:ietf:params:xml:ns:xmpp-session"
def gcmNspaceUri : String := "google:mobile:data"

/-- The signals of the connection, without its id. -/
inductive FcmSignal where
  | connectionEstablished
  | connectionLost
  | connectionError (error : String)
  | connectionDrainingStarted
  | connectionDrainingCompleted
  | xmppHandshakeStarted
  | saslSucess
  | streamClosed
  | sessionEstablished
  | heartbeatRecieved
  | newMessage (msg : Json)
  | newAckMessage (msg : Json)
  | newNackMessage (msg : Json)
  | newReceiptMessage (msg : Json)

/-- What a `singleShot` of the connection calls. -/
inductive FcmCall where
  | sendAuthenticationInfo
  | sendIQBind
  | startNewStream
  | connectToFirebase
deriving DecidableEq

/-- What the connection does outside itself. -/
inductive FcmOutput where
  | emit (signal : FcmSignal)
  | singleShot (msec : Int) (call : FcmCall)
  /-- The closing tag of the stream is written. -/
  | endStream

/-- The connection, with what it has done so far, oldest first. `readyReads` is how often `readyRead()` of
the socket is connected to `handleReadyRead`. -/
structure FcmStream (Λ : Type) where
  reader : Reader Λ
  conn : FcmConnection
  authMethods : List String
  readyReads : Nat
  out : List FcmOutput

/-- `QJsonDocument::fromJson`: a document, or the error string. -/
abbrev FromJson := String → Except String Json

namespace FcmStream

variable {Λ : Type}

/-- A function of the connection; an exception carries its text. -/
abbrev Handler (Λ α : Type) := EStateM String (FcmStream Λ) α

def new (L : Lexer UInt8 Λ) : FcmStream Λ := ⟨.new L, .new, [], 0, []⟩

def perform (o : FcmOutput) : Handler Λ Unit := modify fun c => { c with out := c.out ++ [o] }

def emit (s : FcmSignal) : Handler Λ Unit := perform (.emit s)

def onConn (f : FcmConnection → FcmConnection) : Handler Λ Unit := modify fun c => { c with conn := f c.conn }

/-! ## The reader -/

def onReader {α : Type} (f : Reader Λ → α × Reader Λ) : Handler Λ α :=
  modifyGet fun c => ((f c.reader).1, { c with reader := (f c.reader).2 })

def readNextStartElement : Handler Λ Bool := onReader (·.readNextStartElement)

def readElementText : Handler Λ String := onReader (·.readElementText)

def skipCurrentElement : Handler Λ Unit := onReader fun r => ((), r.skipCurrentElement)

/-- The name of the current token, empty if it has none. -/
def currentName (c : FcmStream Λ) : String :=
  match c.reader.current with
  | some (.startElement name _ _) => name
  | some (.endElement name) => name
  | _ => ""

/-- The current token starts the element `name` of the namespace. -/
def isElement (name namespaceUri : String) (c : FcmStream Λ) : Bool :=
  match c.reader.current with
  | some (.startElement n u _) => n = name ∧ u = namespaceUri
  | _ => false

def attributeValue (key : String) (c : FcmStream Λ) : String :=
  match c.reader.current with
  | some (.startElement _ _ attributes) => (attributes.lookup key).getD ""
  | _ => ""

/-- `while (readNextStartElement())`; every round takes a token, so `fuel` rounds are enough. -/
def whileStartElement (body : Handler Λ Unit) : (fuel : Nat) → Handler Λ Unit
  | 0 => pure ()
  | fuel + 1 => do
    if ← readNextStartElement then
      body
      whileStartElement body fuel

def forEachElement (body : Handler Λ Unit) : Handler Λ Unit := do
  whileStartElement body ((← get).reader.queue.length + 1)

/-! ## The handshake -/

def readMechanism : Handler Λ Unit := do
  let method ← readElementText
  modify fun c => { c with authMethods := c.authMethods ++ [method] }

def readMechanisms : Handler Λ Unit := do
  forEachElement do
    if (← get).currentName = "mechanism" then readMechanism else skipCurrentElement
  perform (.singleShot 10 .sendAuthenticationInfo)

def readBind : Handler Λ Unit := do
  discard readElementText
  perform (.singleShot 10 .sendIQBind)

def readSession : Handler Λ Unit := discard readElementText

def handleFeatures : Handler Λ Unit := forEachElement do
  if (← get).isElement "mechanisms" saslNspaceUri then readMechanisms
  else if (← get).isElement "bind" bindNspaceUri then readBind
  else if (← get).isElement "session" sessionNspaceUri then readSession
  else skipCurrentElement

def handleSaslSuccess : Handler Λ Unit := do
  discard readElementText
  emit .saslSucess
  perform (.singleShot 10 .startNewStream)

def handleSaslFailure : Handler Λ Unit := do
  discard readNextStartElement
  let failureReason := (← get).currentName
  emit (.connectionError ("Recieved xmpp-sasl FAILURE from FCM server. Reason:" ++ failureReason ++ "\n"))

/-- The text of the element is not read. -/
def readJid : Handler Λ Unit := do
  onConn fun c => { c with state := .authenticated, expBoff := c.expBoff.reset }
  emit .sessionEstablished

def readIQBindResult : Handler Λ Unit := forEachElement do
  if (← get).currentName = "jid" then readJid else skipCurrentElement

def handleIq : Handler Λ Unit := forEachElement do
  if (← get).isElement "bind" bindNspaceUri then readIQBindResult else skipCurrentElement

/-! ## Messages -/

def handleControlMessage (msg : Json) : Handler Λ Unit := do
  if Json.toString (msg.value fcmfieldnames.controlType) = "CONNECTION_DRAINING" then
    onConn ({ · with connectionDrainingInProgress := true })
    emit .connectionDrainingStarted
  else emit (.connectionError "Unknown control message recieved from FCM.")

def handleReceiptMessage (msg : Json) : Handler Λ Unit := emit (.newReceiptMessage msg)

def handleFcmMessage (fromJson : FromJson) (json : String) : Handler Λ Unit := do
  match fromJson json with
  | .error e => emit (.connectionError ("ERROR: Failed to parse recieved msg, error[" ++ e ++ "]"))
  | .ok jdoc =>
    if (jdoc.value "message_type").isSome then
      let type := Json.toString (jdoc.value fcmfieldnames.messageType)
      if type = "ack" then emit (.newAckMessage jdoc)
      else if type = "nack" then emit (.newNackMessage jdoc)
      else if type = "control" then handleControlMessage jdoc
      else if type = "receipt" then handleReceiptMessage jdoc
      else throw ("Unknown message type<" ++ type ++ "> found.")
    else emit (.newMessage jdoc)

def handleMessage (fromJson : FromJson) : Handler Λ Unit := forEachElement do
  if (← get).isElement "gcm" gcmNspaceUri then
    let json ← readElementText
    handleFcmMessage fromJson json
  else skipCurrentElement

/-! ## The stream -/

/-- `handleStartStream` does nothing. -/
def handleStartElement (fromJson : FromJson) : Handler Λ Unit := do
  let c ← get
  if c.isElement "stream" streamNspaceUri then return
  else if c.isElement "features" streamNspaceUri then handleFeatures
  else if c.isElement "iq" defaultNspaceUri && c.attributeValue "type" = "result" then handleIq
  else if c.isElement "success" saslNspaceUri then handleSaslSuccess
  else if c.isElement "failure" saslNspaceUri then handleSaslFailure
  else if c.isElement "message" defaultNspaceUri then handleMessage fromJson
  else throw ("ERROR:Unknown stanza recieved from FCM, name:[" ++ c.currentName ++ "]")

def handleEndOfStream : Handler Λ Unit := do
  perform .endStream
  emit .streamClosed

/-- `while (!atEnd())`; every round takes a token or comes to the end. -/
def drain : (fuel : Nat) → Handler Λ Unit
  | 0 => pure ()
  | fuel + 1 => do
    if (← get).reader.atEnd then return
    onReader fun r => ((), r.readNext)
    if (← get).reader.current = some .endDocument then handleEndOfStream
    drain fuel

/-- Read whatever is left; only the end of the document is looked at. -/
def handleOtherElement : Handler Λ Unit := do
  drain ((← get).reader.queue.length + 2)

/-- `errorString()`. -/
def errorString : Xml.Error → String
  | .prematureEndOfDocument => "Premature end of document."
  | .notWellFormed what => what
  | .unexpectedElement => "Expected character data."

def parseXml (fromJson : FromJson) : Handler Λ Unit := do
  forEachElement (handleStartElement fromJson)
  handleOtherElement
  match (← get).reader.error with
  | none => return
  | some e => if e ≠ .prematureEndOfDocument then emit (.connectionError (errorString e))

/-- `isspace`. -/
def isspace (b : UInt8) : Bool := b = 32 ∨ 9 ≤ b ∧ b ≤ 13

/-- The data is a keepalive. -/
def keepalive (bytes : List UInt8) : Bool :=
  match bytes with
  | [b] => isspace b
  | _ => false

/-- A function inside `try` and `catch`: an exception is reported. -/
def reported (x : Handler Λ Unit) : Handler Λ Unit := fun c =>
  match x c with
  | .ok a c' => .ok a c'
  | .error what c' => emit (.connectionError what) c'

def handleReadyRead (L : Lexer UInt8 Λ) (fromJson : FromJson) (bytes : List UInt8) : Handler Λ Unit := do
  if keepalive bytes then emit .heartbeatRecieved
  else
    onReader fun r => ((), r.addData L bytes)
    reported (parseXml fromJson)

/-! ## The socket -/

/-- `socketEncrypted`: the slot of `readyRead()` is connected once more. -/
def socketEncrypted : Handler Λ Unit := do
  emit .connectionEstablished
  modify fun c => { c with readyReads := c.readyReads + 1 }
  emit .xmppHandshakeStarted

/-- `handleDisconnected`: the reader stays as it is. -/
def handleDisconnected (d : Draw) : Handler Λ Unit := do
  let c ← get
  onConn ({ · with state := .unknown })
  if c.conn.connectionDrainingInProgress = false then
    emit .connectionLost
    onConn fun conn => { conn with expBoff := (conn.expBoff.next d).2 }
    perform (.singleShot (c.conn.expBoff.next d).1 .connectToFirebase)
  else emit .connectionDrainingCompleted

inductive Event where
  | encrypted
  | readyRead (bytes : List UInt8)
  | disconnected (d : Draw)

/-- The slot runs once for each of its connections; the first run reads all that there is. -/
def readyRead (L : Lexer UInt8 Λ) (fromJson : FromJson) (bytes : List UInt8) : Nat → Handler Λ Unit
  | 0 => pure ()
  | n + 1 => do
    handleReadyRead L fromJson bytes
    readyRead L fromJson [] n

def handle (L : Lexer UInt8 Λ) (fromJson : FromJson) : Event → Handler Λ Unit
  | .encrypted => socketEncrypted
  | .readyRead bytes => do readyRead L fromJson bytes (← get).readyReads
  | .disconnected d => handleDisconnected d

/-- The connection after an event. No exception leaves a slot of the socket. -/
def step (L : Lexer UInt8 Λ) (fromJson : FromJson) (c : FcmStream Λ) (e : Event) : FcmStream Λ :=
  match handle L fromJson e c with
  | .ok _ c' => c'
  | .error _ c' => c'

end FcmStream

end Gimmm
