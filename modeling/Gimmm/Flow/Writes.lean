/-
What a handler writes to one session, as the sequence ids that the documents carry: nothing, the id of the message
that it has just saved, or that of a message of the queue. Only a failed downstream message goes to its source as it
came, with whatever sequence id its BAL has put into it.
-/
import Gimmm.Flow.Exact

namespace Gimmm

open Std Prog
open MessageManager (removeMessage)

/-! ## Sequence ids -/

/-- The sequence id in the document that `o` writes to the session. -/
def Obs.writes (o : Obs) (sid : SessionId) : Option Rat :=
  match o.what with
  | .balWrite s _ doc => if s = sid then doc.sequenceId else none
  | _ => none

/-- The sequence ids that were written to the session, the last one first. -/
def written (sid : SessionId) (log : List Obs) : List Rat := log.filterMap (·.writes sid)

theorem written_append (sid : SessionId) (log log' : List Obs) :
    written sid (log ++ log') = written sid log ++ written sid log' := List.filterMap_append

/-- Nothing is written to the session, and no sequence id is drawn. -/
structure Hushed (sid : SessionId) (w w' : World) : Prop where
  same : written sid w'.log = written sid w.log
  counter : w'.app.sequenceId = w.app.sequenceId

/-- Nothing is written to the session. -/
def Mute (sid : SessionId) (w w' : World) : Prop := written sid w'.log = written sid w.log

/-- At most `doc` is written to the session, and no sequence id is drawn. -/
structure Said (sid : SessionId) (doc : Json) (w w' : World) : Prop where
  written : written sid w'.log = written sid w.log ∨
    ∃ x, doc.sequenceId = some x ∧ written sid w'.log = x :: written sid w.log
  counter : w'.app.sequenceId = w.app.sequenceId

instance (sid : SessionId) : IsPreorder World (Hushed sid) where
  refl _ := ⟨rfl, rfl⟩
  trans _ _ _ h h' := ⟨h'.same.trans h.same, h'.counter.trans h.counter⟩

instance (sid : SessionId) : IsPreorder World (Mute sid) where
  refl _ := rfl
  trans _ _ _ h h' := h'.trans h

section
variable {sid s : SessionId} {w w' w'' : World} {doc : Json}

theorem Hushed.said (h : Hushed sid w w') : Said sid doc w w' := ⟨Or.inl h.same, h.counter⟩

theorem Hushed.trans_said (h : Hushed sid w w') (h' : Said sid doc w' w'') : Said sid doc w w'' := by
  refine ⟨?_, h'.counter.trans h.counter⟩
  rw [← h.same]
  exact h'.written

theorem written_record_none {what : Happening} (h : Obs.writes ⟨what, w.toServer⟩ sid = none) :
    written sid (w.record what).log = written sid w.log := List.filterMap_cons_none h

/-- A document that is for another session, or has no sequence id. -/
theorem writes_none {sock : SocketId} (h : s = sid → doc.sequenceId = none) (server : Server) :
    Obs.writes ⟨.balWrite s sock doc, server⟩ sid = none := by
  show (if s = sid then doc.sequenceId else none) = none
  split
  · rename_i hs
    exact h hs
  · rfl

end

/-! ## Statements -/

section
variable {E : Env → Prop} {sid s : SessionId} {α β : Type}

theorem mute_of_hush {x : Handler α} (h : Keeps E (Hushed sid) x) : Keeps E (Mute sid) x :=
  fun _ => h.wp (fun _ _ h => h.same) fun _ _ h => h.same

/-- Statements that write nothing, before others. -/
theorem hush_bind {R : World → World → Prop} (hsame : ∀ {w w' : World}, Hushed sid w w' → R w w')
    (htrans : ∀ {w w' w'' : World}, Hushed sid w w' → R w' w'' → R w w'') {x : Handler α} {f : α → Handler β}
    (hx : Keeps E (Hushed sid) x) (hf : ∀ a, Keeps E R (f a)) : Keeps E R (x >>= f) := by
  intro w
  refine Wp.bind (hx.wp (fun a w₁ h => ?_) fun _ _ h => hsame h)
  exact (hf a).wp (fun _ _ h' => htrans h h') fun _ _ h' => htrans h h'

theorem hush_onFcm {x : EStateM Stop MessageManager α} : Keeps E (Hushed sid) (onFcm x) :=
  Keeps.onPart fun _ _ => ⟨rfl, rfl⟩

theorem hush_onBal {x : EStateM Stop MessageManager α} : Keeps E (Hushed sid) (onBal s x) := by
  unfold onBal
  refine Keeps.read fun w => ?_
  split
  · exact Keeps.onPart (fun _ _ => ⟨rfl, rfl⟩) w
  · exact Keeps.throw _ w

theorem hush_updateMsgState (hE : Env.Closed E) {msg : Message} {state : MessageState} :
    Keeps E (Hushed sid) (updateMsgState msg state) := keeps_updateMsgState hE fun _ => ⟨rfl, rfl⟩

theorem hush_saveMsg (hE : Env.Closed E) {msg : Message} : Keeps E (Hushed sid) (saveMsg msg) :=
  keeps_saveMsg hE fun _ _ _ => ⟨rfl, rfl⟩

theorem hush_output (hE : Env.Closed E) {what : Happening} (h : ∀ server, Obs.writes ⟨what, server⟩ sid = none) :
    Keeps E (Hushed sid) (output what) := keeps_output hE fun _ => ⟨written_record_none (h _), rfl⟩

theorem hush_uploadToFcm (hE : Env.Closed E) {msg : Message} : Keeps E (Hushed sid) (uploadToFcm msg) :=
  hush_output hE fun _ => rfl

theorem mute_singleShot {msec : Int} {t : Timer} : Keeps E (Mute sid) (singleShot msec t) := by
  unfold singleShot
  split
  · exact Keeps.pure _
  · exact Keeps.update fun _ => rfl

/-- What serves connections writes the answer to a LOGON only. -/
theorem mute_connections : ConnectionFrame (Mute sid) where
  change _ _ _ _ _ _ := rfl
  logon _ _ _ := written_record_none (writes_none (fun _ => rfl) _)

/-! ## Writing -/

theorem said_output (hE : Env.Closed E) {sock : SocketId} {doc : Json} :
    Keeps E (Said sid doc) (output (.balWrite s sock doc)) := by
  intro w
  have hrecord : Said sid doc w (w.record (.balWrite s sock doc)) := by
    refine ⟨?_, rfl⟩
    cases hx : Obs.writes ⟨.balWrite s sock doc, w.toServer⟩ sid with
    | none => exact Or.inl (written_record_none hx)
    | some x =>
      refine Or.inr ⟨x, ?_, List.filterMap_cons_some hx⟩
      have hx : (if s = sid then doc.sequenceId else none) = some x := hx
      split at hx
      · exact hx
      · cases hx
  unfold output
  refine Wp.bind (Wp.decision hE.popFault fun _ _ => ?_)
  split
  · exact Wp.bind (Wp.throw ⟨Or.inl rfl, rfl⟩)
  · exact Wp.update hrecord

theorem said_writeMessage (hE : Env.Closed E) {sess : BALSession} {doc : Json} :
    Keeps E (Said sid doc) (writeMessage s sess doc) := by
  intro w
  have hsame : Said sid doc w w := ⟨Or.inl rfl, rfl⟩
  unfold writeMessage
  split
  · split
    · exact Wp.throw hsame
    · refine Wp.bind (Wp.read ?_)
      split
      · exact Wp.throw hsame
      · split
        · exact said_output hE w
        · exact Wp.throw hsame
  · exact Wp.throw hsame

theorem said_forwardMsg (hE : Env.Closed E) {msg : Message} : Keeps E (Said sid msg.payload) (forwardMsg s msg) := by
  intro w
  have hsame : Said sid msg.payload w w := ⟨Or.inl rfl, rfl⟩
  unfold forwardMsg
  refine Wp.bind (wp_findBalSession (fun sess _ => ?_) fun _ _ => hsame)
  split
  · exact Wp.pure hsame
  · refine Wp.attempt ((said_writeMessage hE w).mono (fun _ _ h => h) fun e w' h => ?_)
    split <;> exact h

/-- A document that is for another session, or has no sequence id. -/
theorem hush_writeMessage (hE : Env.Closed E) {sess : BALSession} {doc : Json} (h : s = sid → doc.sequenceId = none) :
    Keeps E (Hushed sid) (writeMessage s sess doc) :=
  keeps_writeMessage hE fun _ _ => ⟨written_record_none (writes_none h _), rfl⟩

theorem hush_forwardMsg (hE : Env.Closed E) {msg : Message} (h : s = sid → msg.payload.sequenceId = none) :
    Keeps E (Hushed sid) (forwardMsg s msg) :=
  keeps_forwardMsg hE fun _ _ => ⟨written_record_none (writes_none h _), rfl⟩

/-! ## New messages -/

theorem said_bind {doc : Json} {x : Handler α} {f : α → Handler β} (hx : Keeps E (Hushed sid) x)
    (hf : ∀ a, Keeps E (Said sid doc) (f a)) : Keeps E (Said sid doc) (x >>= f) :=
  hush_bind Hushed.said Hushed.trans_said hx hf

theorem said_forwardMsgToBalsession (hE : Env.Closed E) {msg : Message} :
    Keeps E (Said sid msg.payload) (forwardMsgToBalsession s msg) := by
  unfold forwardMsgToBalsession
  refine said_bind hush_onBal fun _ => said_bind hush_onBal fun _ => said_bind hush_onBal fun rcode => ?_
  split
  · refine said_bind (hush_updateMsgState hE) fun _ => said_bind hush_onBal fun _ => ?_
    exact said_bind hush_onBal fun _ => said_forwardMsg hE
  · exact fun w => Wp.pure ⟨Or.inl rfl, rfl⟩

/-- At most the next sequence id is written, and drawn then. -/
def Introduced (sid : SessionId) (w w' : World) : Prop :=
  Mute sid w w' ∨ w'.app.sequenceId = w.app.sequenceId + 1 ∧
    written sid w'.log = ((Json.nearestDouble (w.app.sequenceId + 1) : Int) : Rat) :: written sid w.log

theorem introduced_bind {x : Handler α} {f : α → Handler β} (hx : Keeps E (Hushed sid) x)
    (hf : ∀ a, Keeps E (Introduced sid) (f a)) : Keeps E (Introduced sid) (x >>= f) := by
  refine hush_bind (fun h => Or.inl h.same) (fun h h' => ?_) hx hf
  rw [← h.same, ← h.counter]
  exact h'

/-- A message that is saved under the next sequence id and sent with it. -/
theorem introduced_getNextSequenceId {g : Int → Json} (hg : ∀ n, (g n).sequenceId = some (Json.nearestDouble n : Int))
    {k : Int → Handler Unit} (hk : ∀ n, Keeps E (Said sid (g n)) (k n)) :
    Keeps E (Introduced sid) (getNextSequenceId >>= k) := by
  intro w
  have hsaid : ∀ {w' : World}, Said sid (g (w.app.sequenceId + 1))
      (w.mapApp ({ · with sequenceId := w.app.sequenceId + 1 })) w' → Introduced sid w w' := by
    intro w' h
    rcases h.written with hsame | ⟨x, hx, hwritten⟩
    · exact Or.inl hsame
    · rw [hg] at hx
      cases hx
      exact Or.inr ⟨h.counter, hwritten⟩
  unfold getNextSequenceId
  refine Wp.bind (Wp.bind (Wp.update (Wp.bind (Wp.read (Wp.pure ?_)))))
  exact (hk _).wp (fun _ _ h => hsaid h) fun _ _ h => hsaid h

theorem introduced_handleFcmNewUpstreamMessage (hE : Env.Closed E) {doc : Json} :
    Keeps E (Introduced sid) (handleFcmNewUpstreamMessage doc) := by
  unfold handleFcmNewUpstreamMessage
  refine keeps_guarded (introduced_getNextSequenceId (g := fun n => gimmmMessage n "UPSTREAM"
    (Json.toString (doc.value fcmfieldnames.category)) doc.asObject) (fun _ => rfl) fun n => ?_)
  refine said_bind (hush_saveMsg hE) fun _ => said_bind (hush_output hE fun _ => rfl) fun _ => ?_
  exact said_forwardMsgToBalsession hE

theorem introduced_handleFcmReceiptMessage (hE : Env.Closed E) {doc : Json} :
    Keeps E (Introduced sid) (handleFcmReceiptMessage doc) := by
  unfold handleFcmReceiptMessage
  refine keeps_guarded (introduced_getNextSequenceId (g := fun n => gimmmMessage n "DOWNSTREAM_RECEIPT"
    (Json.toString (doc.value fcmfieldnames.category)) doc.asObject) (fun _ => rfl) fun n => ?_)
  refine said_bind (Keeps.decision fun _ he => he) fun junk => said_bind (hush_saveMsg hE) fun _ => ?_
  exact said_forwardMsgToBalsession hE

theorem hush_sendNextPendingDownstreamMessage (hE : Env.Closed E) :
    Keeps E (Hushed sid) sendNextPendingDownstreamMessage := by
  unfold sendNextPendingDownstreamMessage
  refine Keeps.bind hush_onFcm fun next => ?_
  cases next with
  | none => exact Keeps.pure _
  | some msg => exact hush_uploadToFcm hE

theorem introduced_handleFcmAckMessage (hE : Env.Closed E) {doc : Json} :
    Keeps E (Introduced sid) (handleFcmAckMessage doc) := by
  unfold handleFcmAckMessage
  refine introduced_bind (Keeps.update fun _ => ⟨written_record_none rfl, rfl⟩) fun _ => keeps_guarded ?_
  refine introduced_bind hush_onFcm fun msg => introduced_bind (hush_updateMsgState hE) fun _ => ?_
  refine introduced_bind hush_onFcm fun _ => introduced_bind (hush_sendNextPendingDownstreamMessage hE) fun _ => ?_
  refine introduced_getNextSequenceId (g := fun n => gimmmMessage n "DOWNSTREAM_ACK" msg.sourceSessionId doc.asObject)
    (fun _ => rfl) fun n => ?_
  exact said_bind (hush_saveMsg hE) fun _ => said_forwardMsgToBalsession hE

/-! ## Messages for FCM -/

theorem mute_getNextSequenceId : Keeps E (Mute sid) getNextSequenceId :=
  Keeps.bind (Keeps.update fun _ => rfl) fun _ => Keeps.read fun w => Keeps.pure _ w

theorem mute_handleBalDownstreamUploadRequest (hE : Env.Closed E) {doc : Json} :
    Keeps E (Mute sid) (handleBalDownstreamUploadRequest s doc) := by
  unfold handleBalDownstreamUploadRequest
  refine Keeps.bind mute_getNextSequenceId fun n => mute_of_hush ?_
  refine Keeps.bind (hush_saveMsg hE) fun _ => Keeps.bind hush_onFcm fun _ => Keeps.bind hush_onFcm fun rcode => ?_
  split
  · refine Keeps.bind (hush_updateMsgState hE) fun _ => Keeps.bind hush_onFcm fun _ => ?_
    exact Keeps.bind hush_onFcm fun _ => hush_uploadToFcm hE
  · exact Keeps.pure _

/-- A failed message whose source is another session, or that has no sequence id. -/
theorem mute_notifyDownstreamUploadFailure (hE : Env.Closed E) {msg : Message}
    (h : msg.sourceSessionId = sid → msg.payload.sequenceId = none) :
    Keeps E (Mute sid) (notifyDownstreamUploadFailure msg) := by
  unfold notifyDownstreamUploadFailure
  refine Keeps.attempt (Keeps.bind mute_getNextSequenceId fun n => mute_of_hush ?_)
  refine Keeps.bind (Keeps.decision fun _ he => he) fun junk => Keeps.bind (hush_saveMsg hE) fun _ => ?_
  exact Keeps.bind keeps_findBalSession fun sess => hush_writeMessage hE h

end

end Gimmm
