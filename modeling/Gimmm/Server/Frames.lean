/-
`handleBALSocketReadyRead`: the loop that reads the frames of a BAL from its socket and hands each one to
`handleBALmsg`. `QDataStream` writes a `QByteArray` as its length, four bytes big-endian, and its bytes.
-/
import Gimmm.Lib.Framing
import Gimmm.Server.Step

namespace Gimmm

open Std Prog

/-- A `QByteArray`: the null one, or bytes. The largest length stands for the null one. -/
inductive QByteArray where
  | null
  | ofBytes (bytes : List UInt8) (size : bytes.length < 2 ^ 32 - 1)

namespace QDataStream

/-- A `quint32`. -/
def writeUInt32 (n : Nat) : List UInt8 :=
  [UInt8.ofNat (n / 2 ^ 24), UInt8.ofNat (n / 2 ^ 16), UInt8.ofNat (n / 2 ^ 8), UInt8.ofNat n]

def readUInt32 : List UInt8 → Option (Nat × List UInt8)
  | a :: b :: c :: d :: rest => some (a.toNat * 2 ^ 24 + b.toNat * 2 ^ 16 + c.toNat * 2 ^ 8 + d.toNat, rest)
  | _ => none

/-- `out << bytes`. -/
def write : QByteArray → List UInt8
  | .null => writeUInt32 (2 ^ 32 - 1)
  | .ofBytes bytes _ => writeUInt32 bytes.length ++ bytes

/-- `in >> bytes` in a transaction: what it reads and what is left, or `none` if it is rolled back. -/
def read (buffer : List UInt8) : Option (QByteArray × List UInt8) :=
  match readUInt32 buffer with
  | none => none
  | some (size, rest) =>
    if hsize : size < 2 ^ 32 - 1 then
      if size ≤ rest.length then
        some (.ofBytes (rest.take size) (Nat.lt_of_le_of_lt (List.length_take_le ..) hsize), rest.drop size)
      else none
    else some (.null, rest)

theorem ofNat_eq {a : UInt8} {n : Nat} (h : n % 2 ^ 8 = a.toNat) : UInt8.ofNat n = a := by
  apply UInt8.toNat_inj.1
  rw [UInt8.toNat_ofNat', h]

theorem readUInt32_write {n : Nat} (h : n < 2 ^ 32) (rest : List UInt8) :
    readUInt32 (writeUInt32 n ++ rest) = some (n, rest) := by
  show some (_, rest) = some (n, rest)
  simp only [UInt8.toNat_ofNat']
  congr 2
  omega

theorem write_of_readUInt32 {s rest : List UInt8} {n : Nat} (h : readUInt32 s = some (n, rest)) :
    n < 2 ^ 32 ∧ s = writeUInt32 n ++ rest := by
  unfold readUInt32 at h
  split at h
  · rename_i a b c d tail
    cases h
    have hbytes : a.toNat < 2 ^ 8 ∧ b.toNat < 2 ^ 8 ∧ c.toNat < 2 ^ 8 ∧ d.toNat < 2 ^ 8 :=
      ⟨a.toNat_lt, b.toNat_lt, c.toNat_lt, d.toNat_lt⟩
    refine ⟨by omega, ?_⟩
    unfold writeUInt32
    rw [ofNat_eq (a := a) (by omega), ofNat_eq (a := b) (by omega), ofNat_eq (a := c) (by omega), ofNat_eq (a := d) (by omega)]
    rfl
  · cases h

theorem write_ne_nil (b : QByteArray) : write b ≠ [] := by
  cases b with
  | null => exact List.cons_ne_nil _ _
  | ofBytes bytes size => exact List.cons_ne_nil _ _

theorem read_write (b : QByteArray) (rest : List UInt8) : read (write b ++ rest) = some (b, rest) := by
  unfold read
  cases b with
  | null =>
    have hmax : readUInt32 (write .null ++ rest) = some (2 ^ 32 - 1, rest) := readUInt32_write (by decide) rest
    rw [hmax]
    rfl
  | ofBytes bytes size =>
    have hlength : readUInt32 (write (.ofBytes bytes size) ++ rest) = some (bytes.length, bytes ++ rest) := by
      show readUInt32 (writeUInt32 bytes.length ++ bytes ++ rest) = _
      rw [List.append_assoc]
      exact readUInt32_write (by omega) _
    have hall : bytes.length ≤ (bytes ++ rest).length := by
      rw [List.length_append]
      exact Nat.le_add_right ..
    rw [hlength]
    dsimp only
    rw [dif_pos size, if_pos hall]
    simp

theorem write_of_read {s rest : List UInt8} {b : QByteArray} (h : read s = some (b, rest)) : s = write b ++ rest := by
  unfold read at h
  split at h
  · cases h
  · rename_i size rest' hread
    obtain ⟨hmax, rfl⟩ := write_of_readUInt32 hread
    split at h
    · split at h
      · rename_i hsize hall
        cases h
        show _ = writeUInt32 (rest'.take size).length ++ rest'.take size ++ rest'.drop size
        rw [List.length_take_of_le hall, List.append_assoc, List.take_append_drop]
      · cases h
    · rename_i hsize
      have hnull : size = 2 ^ 32 - 1 := by omega
      cases h
      rw [hnull]
      rfl

/-- The frames of a `QDataStream`. -/
def framing : Framing UInt8 QByteArray := ⟨write, read, write_ne_nil, read_write, write_of_read⟩

end QDataStream

/-! ## The slot -/

/-- The server, and the documents that were handed to `handleBALmsg`, in their order. -/
structure Reading where
  world : World
  handed : List Json

/-- Run a handler on the server. -/
def onWorld (x : Handler Unit) : Prog Env Stop Reading Unit := fun s =>
  match x (s.1.world, s.2) with
  | .ok a (w, env) => .ok a ({ s.1 with world := w }, env)
  | .error e (w, env) => .error e ({ s.1 with world := w }, env)

/-- The `try` in the loop; the sender of a signal exists while its slot runs. -/
def tryHandleBALmsg (sock : SocketId) (balmsg : Json) : Handler Unit := do
  match (← read).app.sockets[sock]? with
  | none => throw .undefined
  | some socket => guarded (handleBALmsg socket balmsg)

section
variable (fromBinaryData : QByteArray → Json) (sock : SocketId)

/-- The body of the loop. -/
def handOver (bytes : QByteArray) : Prog Env Stop Reading Unit := do
  let balmsg := fromBinaryData bytes
  update fun r => { r with handed := r.handed ++ [balmsg] }
  onWorld (tryHandleBALmsg sock balmsg)
  update fun r => { r with world := r.world.mapApp (·.destroyConns) }

/-- While a frame is available, take it from the socket and hand it over; what is left stays in the socket. -/
def handleBALSocketReadyRead (bytesAvailable : List UInt8) : Prog Env Stop Reading (List UInt8) :=
  QDataStream.framing.drain (handOver fromBinaryData sock) bytesAvailable

end

/-- What the event loop delivers while a BAL is connected: bytes for its socket, and anything else. -/
inductive BalEvent where
  | readyRead (bytes : List UInt8) (env : Env)
  | other (i : Input)

/-- The bytes that arrive for the socket. -/
def BalEvent.bytes : BalEvent → List UInt8
  | readyRead bytes _ => bytes
  | other _ => []

/-- The server with the bytes that wait in a socket, and what ended the process, if it did end. -/
structure BalStream where
  reading : Reading
  buffer : List UInt8
  ended : Option Stop

namespace BalStream

/-- A socket from which nothing was read yet. -/
def opened (w : World) : BalStream := ⟨⟨w, []⟩, [], none⟩

def step (cfg : List SessionId) (fromBinaryData : QByteArray → Json) (sock : SocketId) (c : BalStream) (e : BalEvent) : BalStream :=
  if c.ended.isSome then c
  else match e with
    | .readyRead bytes env =>
      match handleBALSocketReadyRead fromBinaryData sock (c.buffer ++ bytes) (c.reading, env) with
      | .ok rest (r, _) => { c with reading := r, buffer := rest }
      | .error what (r, _) => { c with reading := r, ended := some what }
    | .other i =>
      match handle i.event (c.reading.world, i.env) with
      | .ok _ _ => { c with reading.world := Gimmm.step cfg c.reading.world i }
      | .error what _ => { c with reading.world := Gimmm.step cfg c.reading.world i, ended := some what }

end BalStream

end Gimmm
