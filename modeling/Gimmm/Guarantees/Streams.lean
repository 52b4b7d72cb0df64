/-
What a BAL sends is handed over frame by frame. However the bytes of its frames are cut into
`readyRead` events, and whatever happens between these, the documents of the frames are handed to `handleBALmsg` each
once and in their order, and the start of a frame waits in the socket.
-/
import Gimmm.Server.Frames
import Gimmm.Flow.Exact

namespace Gimmm

open Std Prog QDataStream

section
variable {fromBinaryData : QByteArray → Json} {sock : SocketId}

/-! ## One frame -/

/-- No exception leaves the `try`. -/
theorem tryHandleBALmsg_stops {balmsg : Json} {s s' : World × Env} {what : Stop}
    (h : tryHandleBALmsg sock balmsg s = .error what s') : what.catchable = false := by
  have hstops : Wp (fun _ => True) (tryHandleBALmsg sock balmsg) (fun _ _ => True) (fun what _ => what.catchable = false) s.1 := by
    refine Wp.bind (Wp.read ?_)
    split
    · exact Wp.throw rfl
    · refine Wp.attempt fun env henv => ?_
      cases handleBALmsg _ balmsg (s.1, env) with
      | ok a s'' => exact ⟨trivial, trivial⟩
      | error what s'' => cases what <;> exact ⟨trivial, by trivial⟩
  have hends := hstops s.2 trivial
  rw [show (s.1, s.2) = s from rfl, h] at hends
  exact hends.2

/-- A document counts as handed over also when its handler throws. -/
theorem handOver_does (bytes : QByteArray) (s : Reading × Env) :
    Does (handOver fromBinaryData sock bytes) (fun _ s' => s'.1.handed = s.1.handed ++ [fromBinaryData bytes])
      (fun what s' => s'.1.handed = s.1.handed ++ [fromBinaryData bytes] ∧ what.catchable = false) s := by
  refine Does.bind ?_
  show Does (onWorld _ >>= _) _ _ ({ s.1 with handed := s.1.handed ++ [fromBinaryData bytes] }, s.2)
  refine Does.bind ?_
  unfold Does onWorld
  dsimp only
  cases htry : tryHandleBALmsg sock (fromBinaryData bytes) (s.1.world, s.2) with
  | ok a s' => exact rfl
  | error what s' => exact ⟨rfl, tryHandleBALmsg_stops htry⟩

/-- The loop hands over the documents of its frames in their order; a process that ends has handed over the first ones. -/
theorem forM_handOver_does : ∀ (frames : List QByteArray) (s : Reading × Env),
    Does (frames.forM (handOver fromBinaryData sock)) (fun _ s' => s'.1.handed = s.1.handed ++ frames.map fromBinaryData)
      (fun what s' => s'.1.handed <+: s.1.handed ++ frames.map fromBinaryData ∧ what.catchable = false) s
  | [], s => Does.pure (List.append_nil _).symm
  | bytes :: frames, s => by
    have hrest : ∀ s' : Reading × Env, s'.1.handed = s.1.handed ++ [fromBinaryData bytes] →
        s'.1.handed ++ frames.map fromBinaryData = s.1.handed ++ (bytes :: frames).map fromBinaryData := by
      intro s' h
      rw [h, List.append_assoc]
      rfl
    refine Does.bind (x := handOver fromBinaryData sock bytes) (f := fun _ => frames.forM (handOver fromBinaryData sock)) ?_
    refine (handOver_does bytes s).mono (fun _ s' h => ?_) fun what s' h => ⟨?_, h.2⟩
    · rw [← hrest s' h]
      exact forM_handOver_does frames s'
    · rw [← hrest s' h.1]
      exact List.prefix_append ..

/-- The loop on what has arrived: its frames are handed over, and the incomplete one is left. -/
theorem handleBALSocketReadyRead_does (frames : List QByteArray) {tail : List UInt8} (htail : framing.Incomplete tail)
    (s : Reading × Env) : Does (handleBALSocketReadyRead fromBinaryData sock (framing.stream frames ++ tail))
      (fun rest s' => s'.1.handed = s.1.handed ++ frames.map fromBinaryData ∧ rest = tail)
      (fun what s' => s'.1.handed <+: s.1.handed ++ frames.map fromBinaryData ∧ what.catchable = false) s := by
  unfold handleBALSocketReadyRead
  rw [Framing.drain_stream htail]
  exact Does.bind ((forM_handOver_does frames s).mono (fun _ s' h => Does.pure ⟨h, rfl⟩) fun _ _ h => h)

variable {cfg : List SessionId} {c : BalStream} {bytes : List UInt8}

/-- A `readyRead` event: its frames are handed over, and no exception ends the process. -/
theorem step_readyRead {frames : List QByteArray} {tail : List UInt8} {env : Env} (hc : c.ended = none)
    (htail : framing.Incomplete tail) (harrived : c.buffer ++ bytes = framing.stream frames ++ tail) {c' : BalStream}
    (hc' : c' = c.step cfg fromBinaryData sock (.readyRead bytes env)) :
    c'.reading.handed <+: c.reading.handed ++ frames.map fromBinaryData ∧
    (c'.ended = none → c'.reading.handed = c.reading.handed ++ frames.map fromBinaryData ∧ c'.buffer = tail) ∧
    ∀ what, c'.ended = some what → what.catchable = false := by
  have hloop : Does (handleBALSocketReadyRead fromBinaryData sock (framing.stream frames ++ tail)) _ _ (c.reading, env) :=
    handleBALSocketReadyRead_does frames htail (c.reading, env)
  have hopen : ¬ c.ended.isSome = true := by
    rw [hc]
    exact Bool.false_ne_true
  unfold BalStream.step at hc'
  rw [if_neg hopen] at hc'
  dsimp only at hc'
  rw [harrived] at hc'
  unfold Does at hloop
  cases hrun : handleBALSocketReadyRead fromBinaryData sock (framing.stream frames ++ tail) (c.reading, env) with
  | ok rest s' =>
    rw [hrun] at hloop hc'
    subst hc'
    refine ⟨?_, fun _ => hloop, fun what h => ?_⟩
    · refine ⟨[], ?_⟩
      rw [List.append_nil]
      exact hloop.1
    · have hnone : c.ended = some what := h
      rw [hc] at hnone
      cases hnone
  | error what s' =>
    rw [hrun] at hloop hc'
    subst hc'
    refine ⟨hloop.1, fun h => ?_, fun what' h => ?_⟩
    · cases h
    · cases h
      exact hloop.2

/-! ## Runs -/

/-- The bytes that arrive in a run. -/
def received (es : List BalEvent) : List UInt8 := es.flatMap BalEvent.bytes

/-- After `bytes`, what was handed over are the documents of the frames in them, and the rest is in the socket; a process
that has ended has handed over the first documents. -/
def HandsOver (fromBinaryData : QByteArray → Json) (bytes : List UInt8) (c : BalStream) : Prop :=
  ∃ frames tail, framing.Incomplete tail ∧ bytes = framing.stream frames ++ tail ∧
    c.reading.handed <+: frames.map fromBinaryData ∧
    (c.ended = none → c.reading.handed = frames.map fromBinaryData ∧ c.buffer = tail)

theorem handsOver_opened (w : World) : HandsOver fromBinaryData [] (.opened w) :=
  ⟨[], [], Framing.incomplete_nil, rfl, List.prefix_refl _, fun _ => ⟨rfl, rfl⟩⟩

/-- One event. -/
theorem HandsOver.step (h : HandsOver fromBinaryData bytes c) (e : BalEvent) :
    HandsOver fromBinaryData (bytes ++ e.bytes) (c.step cfg fromBinaryData sock e) := by
  obtain ⟨frames, tail, htail, rfl, hhanded, hlive⟩ := h
  obtain ⟨done, tail', htail', hnext⟩ := Framing.exists_split (F := framing) (tail ++ e.bytes)
  have hbytes : framing.stream frames ++ tail ++ e.bytes = framing.stream (frames ++ done) ++ tail' := by
    rw [List.append_assoc, hnext, Framing.stream_append, List.append_assoc]
  refine ⟨frames ++ done, tail', htail', hbytes, ?_⟩
  rw [List.map_append]
  by_cases hended : c.ended.isSome = true
  · unfold BalStream.step
    rw [if_pos hended]
    exact ⟨List.prefix_append_of_prefix hhanded, fun hnone => absurd hended (by rw [hnone]; exact Bool.false_ne_true)⟩
  · have hopen := Option.not_isSome_iff_eq_none.1 hended
    obtain ⟨hall, hbuffer⟩ := hlive hopen
    cases e with
    | readyRead bytes env =>
      have harrived : c.buffer ++ bytes = framing.stream done ++ tail' := by
        rw [hbuffer]
        exact hnext
      obtain ⟨h1, h2, -⟩ := step_readyRead hopen htail' harrived
        (rfl : c.step cfg fromBinaryData sock (.readyRead bytes env) = _)
      rw [← hall]
      exact ⟨h1, h2⟩
    | other i =>
      -- nothing arrives, so the frames are those that were there
      have hnone : framing.stream [] ++ tail = framing.stream done ++ tail' := by
        rw [← hnext]
        exact (List.append_nil tail).symm
      obtain ⟨rfl, rfl⟩ := Framing.stream_unique htail htail' hnone
      rw [List.map_nil, List.append_nil]
      unfold BalStream.step
      rw [if_neg hended]
      dsimp only
      split
      · exact ⟨hhanded, fun _ => ⟨hall, hbuffer⟩⟩
      · exact ⟨hhanded, fun hnone => by cases hnone⟩

/-- A whole run. -/
theorem HandsOver.run (h : HandsOver fromBinaryData bytes c) (es : List BalEvent) :
    HandsOver fromBinaryData (bytes ++ received es) (Run.run (BalStream.step cfg fromBinaryData sock) c es) := by
  induction es generalizing bytes c with
  | nil =>
    show HandsOver fromBinaryData (bytes ++ []) c
    rw [List.append_nil]
    exact h
  | cons e es ih =>
    have hrest : HandsOver fromBinaryData (bytes ++ e.bytes ++ received es)
        (Run.run (BalStream.step cfg fromBinaryData sock) (c.step cfg fromBinaryData sock e) es) := ih (h.step e)
    rw [List.append_assoc] at hrest
    exact hrest

end

/-- However the bytes of frames are cut into `readyRead` events, and whatever else happens between them, the documents
of the frames are handed to `handleBALmsg` each once and in their order, and what follows them stays in the socket as
it is. A process that ends has handed over the first of them, and what its handlers throw does not end it. -/
theorem documents_handed (cfg : List SessionId) (fromBinaryData : QByteArray → Json) (sock : SocketId) (w : World)
    (es : List BalEvent) (frames : List QByteArray) (tail : List UInt8) (htail : framing.Incomplete tail)
    (hreceived : received es = framing.stream frames ++ tail) :
    let c := Run.run (BalStream.step cfg fromBinaryData sock) (.opened w) es
    (c.ended = none → c.reading.handed = frames.map fromBinaryData ∧ c.buffer = tail) ∧
    c.reading.handed <+: frames.map fromBinaryData ∧
    ∀ bytes env what, c.ended = none → (c.step cfg fromBinaryData sock (.readyRead bytes env)).ended = some what →
      what.catchable = false := by
  intro c
  obtain ⟨frames', tail', htail', hbytes, hhanded, hlive⟩ : HandsOver fromBinaryData (received es) c :=
    (handsOver_opened w).run es
  obtain ⟨rfl, rfl⟩ := Framing.stream_unique htail htail' (hreceived.symm.trans hbytes)
  refine ⟨hlive, hhanded, fun bytes env what hc h => ?_⟩
  obtain ⟨done, rest, hrest, harrived⟩ := Framing.exists_split (F := framing) (c.buffer ++ bytes)
  exact (step_readyRead hc hrest harrived rfl).2.2 what h

/-- A binary document that is a logon; every other one has no fields. -/
def oneLogon : QByteArray → Json
  | .ofBytes [65] _ => balLogon "bal"
  | _ => .object []

/-- A logon, two frames without bytes, whose documents make `handleBALmsg` throw, and the start of a frame; two lengths
are cut, and the authentication timer is long gone when it expires. -/
def cutFrames : List BalEvent :=
  [.other (.quiet (.newBALConnection 5)), .readyRead [0, 0] .quiet, .readyRead [0, 1, 65, 0, 0, 0, 0, 255, 255] .quiet,
    .other (.quiet (.timer 7)), .readyRead [255, 255, 0, 0, 0, 9, 7] .quiet]

theorem cutFrames_handed :
    let c := Run.run (BalStream.step ["bal"] oneLogon 0) (.opened (boot ["bal"] .quiet .empty)) cutFrames
    c.ended = none ∧ c.reading.handed = [balLogon "bal", .object [], .object []] ∧ c.buffer = [0, 0, 0, 9, 7] := by
  intro c
  have hended : c.ended = none := by decide +kernel
  have htail : framing.Incomplete [0, 0, 0, 9, 7] :=
    Framing.incomplete_of_missing (b := .ofBytes (7 :: List.replicate 8 0) (by decide)) (by decide : List.replicate 8 (0 : UInt8) ≠ []) rfl
  obtain ⟨hlive, -⟩ := documents_handed ["bal"] oneLogon 0 (boot ["bal"] .quiet .empty) cutFrames
    [.ofBytes [65] (by decide), .ofBytes [] (by decide), .null] [0, 0, 0, 9, 7] htail (by decide)
  exact ⟨hended, hlive hended⟩

/-- Slots that run in a row do to the server what handling one document after the other does, however the bytes are cut. -/
theorem readyReads_eq (fromBinaryData : QByteArray → Json) (sock : SocketId) (frames : List QByteArray) {tail : List UInt8}
    (htail : framing.Incomplete tail) (pieces : List (List UInt8)) (h : pieces.flatten = framing.stream frames ++ tail) :
    pieces.foldlM (fun rest piece => handleBALSocketReadyRead fromBinaryData sock (rest ++ piece)) [] =
      frames.forM (handOver fromBinaryData sock) >>= fun _ => pure tail := by
  refine (Framing.drain_pieces (F := framing) [] Framing.incomplete_nil pieces).trans ?_
  rw [List.nil_append, h]
  exact Framing.drain_stream htail frames

/-! ## One frame in an event -/

theorem handOver_ok {fromBinaryData : QByteArray → Json} {sock : SocketId} {bytes : QByteArray} {r : Reading} {env : Env}
    {s' : World × Env} (h : tryHandleBALmsg sock (fromBinaryData bytes) (r.world, env) = .ok () s') :
    handOver fromBinaryData sock bytes (r, env) =
      .ok () (⟨s'.1.mapApp (·.destroyConns), r.handed ++ [fromBinaryData bytes]⟩, s'.2) := by
  have hworld : onWorld (tryHandleBALmsg sock (fromBinaryData bytes)) ({ r with handed := r.handed ++ [fromBinaryData bytes] }, env) =
      .ok () (⟨s'.1, r.handed ++ [fromBinaryData bytes]⟩, s'.2) := by
    unfold onWorld
    rw [h]
  exact (bind_ok rfl).trans (bind_ok hworld)

/-- While the socket is open, a `readyRead` event with one frame in it is the step of the server that takes its document. -/
theorem readyRead_frame (cfg : List SessionId) (fromBinaryData : QByteArray → Json) (sock : SocketId) (c : BalStream)
    (frame : QByteArray) (env : Env) {socket : Socket} (hc : c.ended = none) (hbuffer : c.buffer = [])
    (hsocket : c.reading.world.app.sockets[sock]? = some socket) (hopen : (socket.connected && !socket.signalsBlocked) = true)
    (hsurvives : survives c.reading.world ⟨.balFrame sock (fromBinaryData frame), env⟩ = true) :
    (c.step cfg fromBinaryData sock (.readyRead (write frame) env)).reading.world =
      step cfg c.reading.world ⟨.balFrame sock (fromBinaryData frame), env⟩ := by
  have htry : tryHandleBALmsg sock (fromBinaryData frame) (c.reading.world, env) =
      handle (.balFrame sock (fromBinaryData frame)) (c.reading.world, env) := by
    rw [handle_balFrame hsocket hopen]
    refine (bind_ok read_ok).trans ?_
    simp only [hsocket]
  have hbytes : c.buffer ++ write frame = framing.stream [frame] ++ [] := by
    rw [hbuffer, Framing.stream_cons, List.append_nil]
    exact (List.append_nil _).symm
  have hnot : ¬ c.ended.isSome = true := by
    rw [hc]
    exact Bool.false_ne_true
  unfold survives at hsurvives
  unfold BalStream.step step handleBALSocketReadyRead
  rw [if_neg hnot]
  dsimp only
  rw [hbytes, Framing.drain_stream Framing.incomplete_nil]
  cases hrun : handle (.balFrame sock (fromBinaryData frame)) (c.reading.world, env) with
  | error what s' =>
    rw [hrun] at hsurvives
    cases hsurvives
  | ok a s' =>
    rw [hrun] at htry
    rw [bind_ok (x := [frame].forM (handOver fromBinaryData sock)) (bind_ok (handOver_ok htry))]
    rfl

end Gimmm
