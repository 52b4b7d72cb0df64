/-
What a BAL gets while it is logged on. The immediate forward, the ACK that lets a message go and the delayed resend
write the messages of one queue, and only the first of them marks there what it writes; so a message that is still
in the queue can be written again. It is written once if no ACK and no resend comes to it after it was written.
-/
import Gimmm.Flow.Writes
import Gimmm.Guarantees.Ids
import Gimmm.Guarantees.Repeats
import Gimmm.Guarantees.Timers

namespace Gimmm

open Std Prog
open MessageManager (removeMessage)

/-! ## What may be written -/

/-- The message `n` is new, and only a full window would keep a resend from sending it. -/
def MessageManager.waits (m : MessageManager) (n : Int) : Bool :=
  (m.messages[n]?).any fun msg => msg.state = .new ∧ msg.groupId = "" ∧ msg.type.balBound

/-- The window has room after the messages `done`, of which a resend counts those that wait. -/
def MessageManager.HasRoom (m : MessageManager) (done : List Int) : Prop :=
  m.pendingAckCount + done.countP m.waits < maxPendingMessages

/-- The ACK of the message `n` lets `msg` go. -/
def LetsGo (b : Stores) (env : Env) (sid : SessionId) (n : Int) (msg : Message) : Prop :=
  env.faults.headD .ok = .ok ∧ ∃ m acked, b.bal sid = some m ∧ m.messages[n]? = some acked ∧
    (m.without acked).getNext = .ok (some msg)

/-- A permanent nack settles the message, or it is out of retries when it is retried. -/
def Fails (i : Input) (b : Stores) (msg : Message) : Prop :=
  Settles i b msg .deliveryFailed ∨
    (Nacked i b msg ∨ Establishes i ∧ maxPendingMessages ≤ b.fcm.pendingAckCount ∧
      b.fcm.messages[msg.sequenceId]? = some msg) ∧ Exhausted i msg

/-- Since the log was `old`, the sequence id was not written to the session. -/
def Unwritten (sid : SessionId) (old log : List Obs) (n : Int) : Prop :=
  ∀ new, log = new ++ old → (n : Rat) ∉ written sid new

/-- No retry timer of an upstream message fires, sequence ids are exact as JSON numbers, neither an ACK nor the
delayed resend comes to a message that was written already, and no failed message has a sequence id. -/
structure Unrepeated (sid : SessionId) (old : List Obs) (w : World) (i : Input) : Prop where
  timer : ∀ msg, ¬ Expires i (stores w.toServer) (.retryUpstream msg)
  ids : w.app.sequenceId < 2 ^ 53
  next : ∀ sock doc s msg, i.event = .balFrame sock doc → w.app.sockets[sock]? = some s → s.connected = true →
    s.signalsBlocked = false → Json.toString (doc.value gimmmfieldnames.messageType) = "ACK" → s.sessionId = sid →
    LetsGo (stores w.toServer) i.env sid (Json.toInt (doc.value gimmmfieldnames.sequenceId)) msg →
    Unwritten sid old w.log msg.sequenceId
  resend : ∀ m n msg, Expires i (stores w.toServer) (.resend sid) → w.app.balManager sid = some m →
    m.messages[n]? = some msg → msg.type.balBound = true → (m.Rings m.HasRoom n ∨ ¬ Patient i m) →
    Unwritten sid old w.log n
  failed : ∀ msg, Fails i (stores w.toServer) msg → msg.sourceSessionId = sid → msg.payload.sequenceId = none

/-! ## Sequence ids of the messages -/

/-- The rows are numbered, and no session but one named like FCM has a downstream message. -/
structure Tagged (b : Books) : Prop extends Numbered b where
  directed : Directed b.toStores

section
variable {cfg : List SessionId} {i : Input}

namespace Tagged

theorem step {w : World} (hb : Base cfg (books w) .none) (h : Tagged (books w)) (i : Input) : Tagged (books (step cfg w i)) :=
  ⟨h.toNumbered.step hb i, h.directed.step hb i⟩

theorem boot (cfg : List SessionId) (env : Env) : Tagged (books (boot cfg env .empty)) :=
  ⟨.boot cfg env fun _ _ hrow => (by cases hrow), .boot cfg env fun _ _ hrow => (by cases hrow)⟩

/-- What the payload of a message in the queue of a session says. -/
theorem held {w : World} (h : Tagged (books w)) (hb : Base cfg (books w) .none) {sid : SessionId}
    (hsid : sid ≠ fcmSessionId) (hids : w.app.sequenceId < 2 ^ 53) {m : MessageManager} {n : Int} {msg : Message}
    (hm : w.app.balManager sid = some m) (hn : m.messages[n]? = some msg) :
    msg.payload.sequenceId = some (n : Rat) ∧ n ≤ w.app.sequenceId := by
  obtain ⟨-, ⟨row, hrow, hsaves⟩, -⟩ := hb.balHeld hm hn
  rw [(hb.bal hm).key hn] at hrow
  have hle : n ≤ w.app.sequenceId := (hb.rows hrow).2
  obtain ⟨hpos, hpayload⟩ := h.rows n row hrow
  have hvalue := hpayload (by rw [hsaves.type]; exact h.directed.bal hsid hm hn)
  refine ⟨?_, hle⟩
  rw [hsaves.payload] at hvalue
  unfold Json.sequenceId
  rw [hvalue]
  unfold Json.ofInt64
  rw [Json.nearestDouble_of_le (by omega)]

end Tagged

/-- In a step that the process survives the counter does not go back. -/
theorem counter_le {w : World} (hb : Base cfg (books w) .none) (hlive : survives w i = true) :
    w.app.sequenceId ≤ (Gimmm.step cfg w i).app.sequenceId := by
  refine (step_live hb hlive).invariant (P := fun b _ => w.app.sequenceId ≤ b.counter) (Int.le_refl _) fun hP ha => ?_
  cases ha with
  | draw => exact Int.le_trans hP (Int.le_of_lt (Int.lt_succ _))
  | accept => exact Int.le_trans hP (Int.le_of_lt (Int.lt_succ _))
  | save => exact Int.le_trans hP (Int.le_of_lt (Int.lt_succ _))
  | reject => exact Int.le_trans hP (Int.le_of_lt (Int.lt_succ _))
  | _ => exact hP

end

/-! ## Failed messages -/

section
variable {cfg : List SessionId} {i : Input} {w₀ w : World} {fs : List Fault} {sid s : SessionId} {msg : Message}

/-- A retry of a message that is not out of retries, or that would be sent back without a sequence id. -/
theorem mute_retryDownstream (h : Exhausted i msg → msg.sourceSessionId = sid → msg.payload.sequenceId = none) :
    Wp (i.env.Rest fs) (retryDownstreamWithExponentialBackoff msg) (fun _ => Mute sid w) (fun _ => Mute sid w) w := by
  have hE := Env.Rest.closed i.env fs
  unfold retryDownstreamWithExponentialBackoff
  refine wp_popDraw fun d hd => ?_
  dsimp only
  split
  · exact Keeps.bind (mute_of_hush hush_onFcm) (fun _ => Keeps.bind (mute_of_hush hush_onFcm) fun _ => mute_singleShot) w
  · rename_i hout
    have hfail := h ⟨d, hd, not_not.1 hout⟩
    refine Keeps.bind (mute_of_hush hush_onFcm) (fun _ => Keeps.bind (mute_of_hush (hush_updateMsgState hE)) fun _ => ?_) w
    exact Keeps.bind (mute_of_hush hush_onFcm) fun _ => mute_notifyDownstreamUploadFailure hE hfail

/-- A nack of a message that does not fail, or that would be sent back without a sequence id. -/
theorem mute_handleFcmNackMessage {doc : Json} (he : i.event = .fcmNack doc)
    (hC : ∀ msg, Fails i (stores w.toServer) msg → msg.sourceSessionId = sid → msg.payload.sequenceId = none) :
    Wp (i.env.Rest i.env.faults) (handleFcmNackMessage doc) (fun _ => Mute sid w) (fun _ => Mute sid w) w := by
  have hE := Env.Rest.closed i.env i.env.faults
  unfold handleFcmNackMessage
  refine Wp.bind (Wp.update ?_)
  have hrecord : Mute sid w (w.record (.nacked (Json.toString (doc.value fcmfieldnames.messageId)))) := written_record_none rfl
  refine wp_guarded (Wp.bind (wp_askFcm (fun msg hfind => ?_) fun _ _ => hrecord))
  have hfind : (stores w.toServer).fcm.findMessageWithFcmMsgId (Json.toString (doc.value fcmfieldnames.messageId)) = .ok msg := hfind
  split
  · rename_i htransient
    have hnacked : Nacked i (stores w.toServer) msg := by
      refine ⟨_, ?_, hfind⟩
      rw [he]
      exact if_pos htransient
    exact (mute_retryDownstream fun hout => hC msg (Or.inr ⟨Or.inl hnacked, hout⟩)).mono
      (fun _ _ h => h.trans hrecord) fun _ _ h => h.trans hrecord
  · rename_i hpermanent
    have hsettles : Settles i (stores w.toServer) msg .deliveryFailed := by
      refine ⟨_, ?_, hfind⟩
      rw [he]
      exact if_neg hpermanent
    have hmute : Keeps (i.env.Rest i.env.faults) (Mute sid) (do
        updateMsgState msg .deliveryFailed
        onFcm (MessageManager.removeMessageWithFcmMsgId (Json.toString (doc.value fcmfieldnames.messageId)))
        sendNextPendingDownstreamMessage
        notifyDownstreamUploadFailure msg) := by
      refine Keeps.bind (mute_of_hush (hush_updateMsgState hE)) fun _ => Keeps.bind (mute_of_hush hush_onFcm) fun _ => ?_
      refine Keeps.bind (mute_of_hush (hush_sendNextPendingDownstreamMessage hE)) fun _ => ?_
      exact mute_notifyDownstreamUploadFailure hE (hC msg (Or.inl hsettles))
    exact hmute.wp (fun _ _ h => h.trans hrecord) fun _ _ h => h.trans hrecord

/-- A new session of FCM, if no message that is out of retries would be sent back with a sequence id. -/
theorem mute_handleFcmSessionEstablished (h₀ : Base cfg (books w₀) .none) (est : Establishes i)
    (hr : Reached i w₀ w .none) (fcm : (books w).fcm = (books w₀).fcm)
    (writable : (books w).writable = (books w₀).writable)
    (hC : ∀ msg, Fails i (stores w₀.toServer) msg → msg.sourceSessionId = sid → msg.payload.sequenceId = none) :
    Wp (i.env.Rest fs) handleFcmSessionEstablished (fun _ => Mute sid w) (fun _ => Mute sid w) w := by
  have hE := Env.Rest.closed i.env fs
  unfold handleFcmSessionEstablished resendAllPendingDownstreamMessages
  refine Wp.bind (wp_record fun w₁ h₁ => ?_)
  have hr₁ : Reached i w₀ w₁ .none := by unfold Reached; rw [h₁]; exact hr.act (.record rfl (Or.inl ⟨rfl, est⟩))
  have hmute₁ : Mute sid w w₁ := by
    have hlog : w₁.log = ⟨.established, w.toServer⟩ :: w.log := congrArg Books.log h₁
    unfold Mute
    rw [hlog]
    exact List.filterMap_cons_none rfl
  refine (wp_forEachMessage (I := fun l w' => Uploading i w₀ (maxPendingMessages ≤ (books w₀).fcm.pendingAckCount →
    Patient i (books w₀).fcm) l w' ∧ Mute sid w w') (X := fun _ => Mute sid w) ?_ ?_ ?_ ?_ ?_).mono
    (fun _ _ h => h.2) fun _ _ h => h
  · rintro n l w' m msg ⟨hI, hmute⟩ hm hheld
    obtain rfl : (books w').fcm = m := Option.some.inj hm
    have hwf := (hI.reached.base h₀).1.fcm
    obtain rfl := hwf.key hheld
    refine ((wp_resendDownstream h₀ est hI hheld).and
      (?_ : Wp _ _ (fun _ => Mute sid w) (fun _ => Mute sid w) w')).mono (fun _ _ h => h) fun _ _ h => h.2
    split
    · obtain ⟨c, hc, hcase⟩ := MessageManager.canSendMessageOnReconnect_eq hwf hheld rfl rfl
        ((hI.reached.base h₀).1.fcmHeld hheld).pending
      refine Wp.bind (wp_askFcm (fun rc hrc => ?_) fun _ _ => hmute)
      rw [hc] at hrc
      cases hrc
      rcases hcase with ⟨rfl, -⟩ | ⟨rfl, full⟩ | ⟨rfl, -⟩
      · exact (mute_of_hush (hush_uploadToFcm hE)).wp (fun _ _ h => h.trans hmute) fun _ _ h => h.trans hmute
      · have hfails : Exhausted i msg → Fails i (stores w₀.toServer) msg := fun hout =>
          Or.inr ⟨Or.inr ⟨est, Nat.le_trans full hI.count, hI.scanned.left _ (List.mem_cons_self ..) msg hheld⟩, hout⟩
        exact (mute_retryDownstream fun hout => hC msg (hfails hout)).mono (fun _ _ h => h.trans hmute)
          fun _ _ h => h.trans hmute
      · exact Wp.pure hmute
    · exact Wp.pure hmute
  · rintro n l w' ⟨hI, hmute⟩
    exact ⟨hI.skip, hmute⟩
  · exact fun l w' h => h.2
  · intro h
    cases h
  · intro m h
    obtain rfl : (books w₁).fcm = m := Option.some.inj h
    exact ⟨Uploading.start hr₁ (by rw [h₁]; exact fcm) (by rw [h₁]; exact writable), hmute₁⟩

/-! ## The next message -/

/-- At most the message that the ACK of `n` lets go is written to `sid`, if it is from a socket of `sid`. -/
def Next (sid s : SessionId) (n : Int) (env : Env) (w w' : World) : Prop :=
  Mute sid w w' ∨ s = sid ∧ ∃ msg x, LetsGo (stores w.toServer) env sid n msg ∧ msg.payload.sequenceId = some x ∧
    written sid w'.log = x :: written sid w.log

theorem wp_sendNextPendingUpstreamMessage_next {m : MessageManager} {n : Int} {acked : Message} {env : Env} {w₁ : World}
    (hb : Base cfg (books w) .none) (hm : w.app.balManager s = some m) (hn : m.messages[n]? = some acked)
    (hok : env.faults.headD .ok = .ok) (hm₁ : (books w₁).bal s = some (m.without acked)) (hlog : w₁.log = w.log) :
    Wp (fun _ => True) (sendNextPendingUpstreamMessage s) (fun _ => Next sid s n env w) (fun _ => Next sid s n env w) w₁ := by
  have hsame : Next sid s n env w w₁ := Or.inl (congrArg (written sid) hlog)
  unfold sendNextPendingUpstreamMessage
  refine Wp.bind (wp_askBal hm₁ (fun next hnext => ?_) fun _ _ => hsame)
  cases next with
  | none => exact Wp.pure hsame
  | some msg =>
    have htarget : msg.targetSessionId = s := by
      rcases MessageManager.getNext_eq ((hb.bal hm).without hn) with ⟨hnone, -⟩ | ⟨msg', hsome, hmsg, -⟩
      · rw [hnone] at hnext
        cases hnext
      · rw [hsome] at hnext
        cases hnext
        exact (hb.balHeld hm (MessageManager.of_without hmsg).1).target
    dsimp only
    rw [htarget]
    refine Wp.bind (wp_findBalSession (fun sess _ => ?_) fun _ _ => hsame)
    by_cases hs : s = sid
    · subst hs
      have hnextOf : ∀ {w' : World}, Said s msg.payload w₁ w' → Next s s n env w w' := by
        intro w' h
        have hwritten := h.written
        rw [hlog] at hwritten
        exact hwritten.imp_right fun ⟨x, hx, hlogged⟩ => ⟨rfl, msg, x, ⟨hok, m, acked, hm, hn, hnext⟩, hx, hlogged⟩
      exact (said_writeMessage Env.closed_all).wp (fun _ _ h => hnextOf h) fun _ _ h => hnextOf h
    · have hnextOf : ∀ {w' : World}, Hushed sid w₁ w' → Next sid s n env w w' :=
        fun h => Or.inl (h.same.trans (congrArg (written sid) hlog))
      exact (hush_writeMessage Env.closed_all fun h => absurd h hs).wp (fun _ _ h => hnextOf h) fun _ _ h => hnextOf h

/-- An ACK on a socket of `s` writes to `sid` at most the message that it lets go. -/
theorem handleBalAckMsg_next (hb : Base cfg (books w) .none) (n : Int) (env : Env) :
    Ends (fun _ r => Next sid s n env w r.1) (fun _ r => Next sid s n env w r.1) (handleBalAckMsg s n (w, env)) := by
  by_cases hheld : ∃ m msg, w.app.balManager s = some m ∧ m.messages[n]? = some msg
  · obtain ⟨m, acked, hm, hn⟩ := hheld
    have hwf : m.WF := hb.bal hm
    have hfind : m.findMessage n = .ok acked := by
      unfold MessageManager.findMessage
      rw [hn]
    unfold handleBalAckMsg
    rw [guarded_same (bind_ok (findBalMessageManager_ok hm)), guarded_same (bind_ok (askBal_ok hm hfind))]
    by_cases hok : env.faults.headD .ok = .ok
    · have hremove : ∀ db env', onBal s (removeMessage n) ({ w with db := db }, env') =
          .ok () (({ w with db := db } : World).putBal s (m.without acked), env') := fun db env' => removeBal_ok hm hwf hn
      rw [guarded_same (bind_ok (updateMsgState_ok hok)), guarded_same (bind_ok (hremove _ _))]
      have hnext : Wp (fun _ => True) (sendNextPendingUpstreamMessage s) (fun _ => Next sid s n env w)
          (fun _ => Next sid s n env w)
          (({ w with db := w.db.update acked.sequenceId .delivered } : World).putBal s (m.without acked)) :=
        wp_sendNextPendingUpstreamMessage_next hb hm hn hok (bal_of_setBal (books_putBal hm)) rfl
      exact (wp_guarded hnext env.popFault.2 trivial).mono (fun _ _ h => h.2) fun _ _ h => h.2
    · rcases @updateMsgState_fails w env acked .delivered hok with ⟨what, h⟩ | h
      · rw [guarded_error (bind_error h)]
        exact Or.inl rfl
      · rw [guarded_killed (bind_error h)]
        exact Or.inl rfl
  · rw [balAck_lacking fun m hm => Option.eq_none_iff_forall_ne_some.2 fun msg hn => hheld ⟨m, msg, hm, hn⟩]
    exact Or.inl rfl

/-! ## The delayed resend -/

section
variable {m₀ m : MessageManager} {l : List Int}

/-- With the keys `l` left the loop has written sequence ids of messages before them, each once, for which there
was room. -/
def Resent (i : Input) (sid : SessionId) (m₀ : MessageManager) (w₀ : World) (l : List Int) (w : World) : Prop :=
  ∃ ids : List Int, written sid w.log = ids.map (fun n : Int => (n : Rat)) ++ written sid w₀.log ∧ ids.Nodup ∧
    ∀ n ∈ ids, n ∉ l ∧ ∃ msg, m₀.messages[n]? = some msg ∧ msg.type.balBound = true ∧
      (m₀.Rings m₀.HasRoom n ∨ ¬ Patient i m₀)

theorem Resent.sublist {l' : List Int} (h : Resent i sid m₀ w₀ l w) (hl : l' ⊆ l) : Resent i sid m₀ w₀ l' w := by
  obtain ⟨ids, hwritten, hnodup, hids⟩ := h
  exact ⟨ids, hwritten, hnodup, fun n hn => ⟨fun hmem => (hids n hn).1 (hl hmem), (hids n hn).2⟩⟩

theorem Resent.hushed {w' : World} (h : Resent i sid m₀ w₀ l w) (h' : Mute sid w w') : Resent i sid m₀ w₀ l w' := by
  obtain ⟨ids, hwritten, hrest⟩ := h
  exact ⟨ids, h'.trans hwritten, hrest⟩

/-- As long as its window has room, the queue counts the messages that waited before the keys `l`. -/
def Counting (i : Input) (sid : SessionId) (m₀ : MessageManager) (l : List Int) (w : World) : Prop :=
  Patient i m₀ → ∃ done m, done ++ l = m₀.messages.keys ∧ w.app.balManager sid = some m ∧
    (m.pendingAckCount < maxPendingMessages → m₀.pendingAckCount + done.countP m₀.waits ≤ m.pendingAckCount)

/-- The loop leaves the message `n` behind. -/
theorem Counting.next {n : Int} {w' : World} {m' : MessageManager} (h : Counting i sid m₀ (n :: l) w)
    (hm : w.app.balManager sid = some m) (hm' : Patient i m₀ → w'.app.balManager sid = some m')
    (hle : Patient i m₀ → m'.pendingAckCount < maxPendingMessages → m.pendingAckCount < maxPendingMessages ∧
      m.pendingAckCount + (if m₀.waits n then 1 else 0) ≤ m'.pendingAckCount) : Counting i sid m₀ l w' := by
  intro hpatient
  obtain ⟨done, m₁, hdone, hm₁, hcount⟩ := h hpatient
  rw [hm] at hm₁
  cases hm₁
  refine ⟨done ++ [n], m', by rw [← hdone]; simp, hm' hpatient, fun hroom => ?_⟩
  obtain ⟨hbefore, hadded⟩ := hle hpatient hroom
  have hcounted := hcount hbefore
  rw [List.countP_append, List.countP_singleton]
  omega

/-- The window of the queue has room for the message that the loop comes to. -/
theorem Counting.hasRoom {n : Int} (h : Counting i sid m₀ (n :: l) w) (hm : w.app.balManager sid = some m)
    (hroom : m.pendingAckCount < maxPendingMessages) : m₀.Rings m₀.HasRoom n ∨ ¬ Patient i m₀ := by
  by_cases hpatient : Patient i m₀
  · obtain ⟨done, m₁, hdone, hm₁, hcount⟩ := h hpatient
    rw [hm] at hm₁
    cases hm₁
    exact Or.inl ⟨done, l, hdone.symm, Nat.lt_of_le_of_lt (hcount hroom) hroom⟩
  · exact Or.inr hpatient

theorem mute_retryUpstream {E : Env → Prop} (hE : Env.Closed E) :
    Keeps E (Mute sid) (retryUpstreamWithExponentialBackoff s msg) := by
  unfold retryUpstreamWithExponentialBackoff
  refine Keeps.bind (Keeps.decision hE.popDraw) fun d => Keeps.bind (mute_of_hush hush_onBal) fun _ => ?_
  dsimp only
  split
  · exact Keeps.bind (mute_of_hush hush_onBal) fun _ => mute_singleShot
  · exact Keeps.bind (mute_of_hush (hush_updateMsgState hE)) fun _ => mute_of_hush hush_onBal

/-- A retry leaves the count alone, unless the message is out of retries. -/
theorem wp_retryUpstream_count (hm : (books w).bal s = some m) (hout : ¬ Exhausted i msg) :
    Wp (i.env.Rest fs) (retryUpstreamWithExponentialBackoff s msg)
      (fun _ w' => ∃ m', w'.app.balManager s = some m' ∧ m'.pendingAckCount = m.pendingAckCount) (fun _ _ => True) w := by
  unfold retryUpstreamWithExponentialBackoff
  refine wp_popDraw fun d hd => Wp.bind (wp_modifyBal hm fun w₁ h₁ => ?_)
  dsimp only
  rw [if_pos fun h => hout ⟨d, hd, h⟩]
  refine Wp.bind (wp_modifyBal (bal_of_setBal h₁) fun w₂ h₂ => ?_)
  have hm₂ := bal_of_setBal h₂
  refine wp_singleShot ⟨_, hm₂, rfl⟩ fun w₃ h₃ => ?_
  have hm₃ := (congrFun (congrArg Stores.bal (congrArg Books.toStores h₃)) s).trans hm₂
  exact ⟨_, hm₃, rfl⟩

/-- The delayed resend of another session. -/
theorem mute_resendPendingUpstreamMessages {E : Env → Prop} (hE : Env.Closed E) (hs : s ≠ sid) :
    Keeps E (Mute sid) (resendPendingUpstreamMessages s) := by
  have hforward : ∀ {msg : Message}, Keeps E (Mute sid) (forwardMsg s msg) :=
    mute_of_hush (hush_forwardMsg hE fun h => absurd h hs)
  refine keeps_forEachMessage fun msg => ?_
  split
  · refine Keeps.bind (mute_of_hush hush_onBal) fun rcode => ?_
    split
    · split
      · exact Keeps.bind (mute_of_hush (hush_updateMsgState hE)) fun _ => Keeps.bind (mute_of_hush hush_onBal) fun _ => hforward
      · exact hforward
    · split
      · exact mute_retryUpstream hE
      · split
        · exact Keeps.pure _
        · exact mute_of_hush hush_onBal
  · exact Keeps.pure _

/-- The message is sent while the window has room. -/
theorem wp_resend_written (hx : msg.payload.sequenceId = some (msg.sequenceId : Rat))
    (hheld : m₀.messages[msg.sequenceId]? = some msg) (htype : msg.type.balBound = true)
    (hl : msg.sequenceId ∉ l) (hR : Resent i sid m₀ w₀ (msg.sequenceId :: l) w)
    (hC : Counting i sid m₀ (msg.sequenceId :: l) w) (hm : (books w).bal sid = some m)
    (hroom : m.pendingAckCount < maxPendingMessages) :
    Wp (i.env.Rest fs)
      (do if msg.state ≠ .pendingAck then
            updateMsgState msg .pendingAck
            modifyBal sid (·.incrementPendingAckCount)
          forwardMsg sid msg)
      (fun _ w' => Resent i sid m₀ w₀ l w' ∧ Counting i sid m₀ l w') (fun _ => Resent i sid m₀ w₀ []) w := by
  -- at most this message is written, and it is not among those before it
  have hwrite : ∀ {w₁ w' : World}, Mute sid w w₁ → Said sid msg.payload w₁ w' → Resent i sid m₀ w₀ l w' := by
    intro w₁ w' hmute hsaid
    rcases hsaid.written with hsame | ⟨x, hx', hwritten⟩
    · exact (hR.sublist (List.subset_cons_self ..)).hushed (hsame.trans hmute)
    · rw [hx] at hx'
      cases hx'
      obtain ⟨ids, hbefore, hnodup, hids⟩ := hR
      refine ⟨msg.sequenceId :: ids, ?_, List.nodup_cons.2 ⟨fun hmem => ?_, hnodup⟩, fun n hn => ?_⟩
      · rw [hwritten, hmute, hbefore]
        rfl
      · exact (hids _ hmem).1 (List.mem_cons_self ..)
      · rcases List.mem_cons.1 hn with rfl | hn
        · exact ⟨hl, msg, hheld, htype, hC.hasRoom hm hroom⟩
        · exact ⟨fun hmem => (hids n hn).1 (List.mem_cons_of_mem _ hmem), (hids n hn).2⟩
  have hsend : ∀ {w₁ : World} {m₁ : MessageManager} (fs' : List Fault), Mute sid w w₁ → (books w₁).bal sid = some m₁ →
      m.pendingAckCount + (if m₀.waits msg.sequenceId then 1 else 0) ≤ m₁.pendingAckCount →
      Wp (i.env.Rest fs') (forwardMsg sid msg) (fun _ w' => Resent i sid m₀ w₀ l w' ∧ Counting i sid m₀ l w')
        (fun _ => Resent i sid m₀ w₀ []) w₁ := by
    intro w₁ m₁ fs' hmute hm₁ hle
    refine ((said_forwardMsg (Env.Rest.closed _ _) w₁).and wp_forwardMsg_stores).mono (fun _ w' h => ⟨hwrite hmute h.1, ?_⟩)
      fun _ w' h => (hwrite hmute h.1).sublist (List.nil_subset _)
    have hm' : w'.app.balManager sid = some m₁ := (congrFun (congrArg Stores.bal h.2) sid).trans hm₁
    exact hC.next hm (fun _ => hm') fun _ _ => ⟨hroom, hle⟩
  by_cases hst : msg.state ≠ .pendingAck
  · rw [if_pos hst]
    refine wp_updateMsgState (fun w₁ h₁ => ?_) fun _ _ => hR.sublist (List.nil_subset _)
    have hm₁ : (books w₁).bal sid = some m := by rw [h₁]; exact hm
    refine Wp.bind (wp_modifyBal hm₁ fun w₂ h₂ => hsend _ ?_ (bal_of_setBal h₂) ?_)
    · have hlog : w₂.log = w₁.log := congrArg Books.log h₂
      have hlog₁ : w₁.log = w.log := congrArg Books.log h₁
      exact congrArg (written sid) (hlog.trans hlog₁)
    · show m.pendingAckCount + _ ≤ m.pendingAckCount + 1
      split <;> omega
  · rw [if_neg hst]
    refine hsend _ rfl hm ?_
    -- one that is pending already is not counted again
    have hwaits : m₀.waits msg.sequenceId = false := by
      unfold MessageManager.waits
      rw [hheld]
      simp [not_not.1 hst]
    rw [hwaits]
    exact Nat.le_refl _

/-- What the delayed resend does with a message. -/
theorem wp_resendUpstream_written (h₀ : Base cfg (books w₀) .none) (hN : Tagged (books w₀)) (hsid : sid ≠ fcmSessionId)
    (hids : w₀.app.sequenceId < 2 ^ 53) (hm₀ : (books w₀).bal sid = some m₀)
    (hI : Resending i w₀ sid m₀ (msg.sequenceId :: l) w) (hR : Resent i sid m₀ w₀ (msg.sequenceId :: l) w)
    (hC : Counting i sid m₀ (msg.sequenceId :: l) w) (hm : (books w).bal sid = some m)
    (hheld : m.messages[msg.sequenceId]? = some msg) :
    Wp (i.env.Rest fs)
      (if msg.type.balBound then do
        let rcode ← askBal sid (·.canSendMessageOnReconnect msg)
        if rcode = 0 then
          if msg.state ≠ .pendingAck then
            updateMsgState msg .pendingAck
            modifyBal sid (·.incrementPendingAckCount)
          forwardMsg sid msg
        else if rcode = 2 then retryUpstreamWithExponentialBackoff sid msg
        else if rcode = 3 then return
        else onBal sid (removeMessage msg.sequenceId)
      else pure ())
      (fun _ w' => Resent i sid m₀ w₀ l w' ∧ Counting i sid m₀ l w') (fun _ => Resent i sid m₀ w₀ []) w := by
  obtain ⟨hr, hnodup, m', hm', hs⟩ := hI
  rw [hm] at hm'
  cases hm'
  have hb := (hr.base h₀).1
  have hheld₀ := hs.left _ (List.mem_cons_self ..) msg hheld
  have hskip : m₀.waits msg.sequenceId = false → Resent i sid m₀ w₀ l w ∧ Counting i sid m₀ l w := by
    intro hwaits
    refine ⟨hR.sublist (List.subset_cons_self ..), hC.next hm (fun _ => hm) fun _ hroom => ⟨hroom, ?_⟩⟩
    rw [hwaits]
    exact Nat.le_refl _
  split
  · rename_i htype
    obtain ⟨c, hc, hcase⟩ := MessageManager.canSendMessageOnReconnect_eq (hb.bal hm) hheld rfl rfl (hb.balHeld hm hheld).pending
    refine Wp.bind (wp_askBal hm (fun rc hrc => ?_) fun _ _ => hR.sublist (List.nil_subset _))
    rw [hc] at hrc
    cases hrc
    rcases hcase with ⟨rfl, hroom, -⟩ | ⟨rfl, hfull⟩ | ⟨rfl, -, hbehind⟩
    · exact wp_resend_written (hN.held h₀ hsid hids hm₀ hheld₀).1 hheld₀ htype (List.nodup_cons.1 hnodup).1 hR hC hm hroom
    · have hmute : Wp (i.env.Rest fs) (retryUpstreamWithExponentialBackoff sid msg) (fun _ => Mute sid w)
          (fun _ => Mute sid w) w := mute_retryUpstream (Env.Rest.closed i.env fs) w
      by_cases hout : Exhausted i msg
      · have himpatient : ¬ Patient i m₀ := fun hpatient => by
          obtain ⟨d, hd, h⟩ := hout
          exact hpatient _ msg hheld₀ d hd h
        exact hmute.mono (fun _ _ h => ⟨(hR.sublist (List.subset_cons_self ..)).hushed h, fun h => absurd h himpatient⟩)
          fun _ _ h => (hR.sublist (List.nil_subset _)).hushed h
      · refine (hmute.and (wp_retryUpstream_count hm hout)).mono (fun _ w' h => ?_)
          fun _ _ h => (hR.sublist (List.nil_subset _)).hushed h.1
        obtain ⟨m', hm', hcount⟩ := h.2
        exact ⟨(hR.sublist (List.subset_cons_self ..)).hushed h.1, hC.next hm (fun _ => hm') fun _ hroom => by omega⟩
    · refine Wp.pure (hskip ?_)
      -- only a message of a group can be behind it
      have hgroup : msg.groupId ≠ "" := fun hblank => hbehind fun hg => absurd hblank hg
      unfold MessageManager.waits
      rw [hheld₀]
      simp [hgroup]
  · rename_i htype
    refine Wp.pure (hskip ?_)
    unfold MessageManager.waits
    rw [hheld₀]
    simp [htype]

/-- What the delayed resend of `sid` writes to it. -/
theorem wp_resendPendingUpstreamMessages_written (h₀ : Base cfg (books w₀) .none) (hN : Tagged (books w₀))
    (hsid : sid ≠ fcmSessionId) (hids : w₀.app.sequenceId < 2 ^ 53)
    (hexp : Expires i (books w₀).toStores (.resend sid)) (hr : Reached i w₀ w .none)
    (hbal : (books w).bal = (books w₀).bal) (hlog : w.log = w₀.log) :
    Wp (i.env.Rest fs) (resendPendingUpstreamMessages sid)
      (fun _ w' => Mute sid w₀ w' ∨ ∃ m₀, w₀.app.balManager sid = some m₀ ∧ Resent i sid m₀ w₀ [] w')
      (fun _ w' => Mute sid w₀ w' ∨ ∃ m₀, w₀.app.balManager sid = some m₀ ∧ Resent i sid m₀ w₀ [] w') w := by
  cases hm₀ : (books w₀).bal sid with
  | none =>
    have hnone : w.app.balManager sid = none := by rw [← books_bal, hbal]; exact hm₀
    unfold resendPendingUpstreamMessages forEachMessage
    refine Wp.bind (Wp.read ?_)
    simp only [hnone]
    exact Wp.pure (Or.inl (congrArg (written sid) hlog))
  | some m₀ =>
    have hm₀' : w₀.app.balManager sid = some m₀ := hm₀
    refine (wp_forEachMessage_exact (I := fun l w' => Resending i w₀ sid m₀ l w' ∧ Resent i sid m₀ w₀ l w' ∧
      Counting i sid m₀ l w') (X := fun _ w' => Resent i sid m₀ w₀ [] w') ?_ ?_ ?_ ?_).mono
      (fun _ _ h => Or.inr ⟨m₀, hm₀', h.2.1⟩) fun _ _ h => Or.inr ⟨m₀, hm₀', h⟩
    · rintro n l w' m msg ⟨hI, hR, hC⟩ hm hheld
      have hm : (books w').bal sid = some m := hm
      obtain rfl := ((hI.reached.base h₀).1.bal hm).key hheld
      refine ((wp_resendUpstream h₀ hexp hm₀ hI hm hheld).and
        (wp_resendUpstream_written h₀ hN hsid hids hm₀ hI hR hC hm hheld)).mono (fun _ _ h => ⟨h, fun _ => ?_⟩) fun _ _ h => h.2
      exact h.2.1.sublist (List.nil_subset _)
    · rintro n l w' ⟨hI, hR, hC⟩ habsent
      refine ⟨hI.skip, hR.sublist (List.subset_cons_self ..), ?_⟩
      obtain ⟨-, -, m, hm, hs⟩ := hI
      have hm' : w'.app.balManager sid = some m := hm
      refine hC.next hm' (fun _ => hm') fun hpatient hroom => ⟨hroom, ?_⟩
      -- a message that waits at the start is still there
      have hwaits : m₀.waits n = false := by
        unfold MessageManager.waits
        cases hn : m₀.messages[n]? with
        | none => rfl
        | some msg =>
          obtain ⟨held, hheld, -⟩ := hs.kept hpatient n msg hn
          simp only [hm', Option.bind_some, hheld] at habsent
          cases habsent
      rw [hwaits]
      exact Nat.le_refl _
    · intro h
      have hnone : (books w).bal sid = none := h
      rw [hbal, hm₀] at hnone
      cases hnone
    · intro m h
      have hm : (books w).bal sid = some m := h
      rw [hbal, hm₀] at hm
      cases hm
      exact ⟨.start hr hm₀ hbal, ⟨[], congrArg (written sid) hlog, List.nodup_nil, by simp⟩,
        fun _ => ⟨[], m₀, rfl, h, fun _ => Nat.le_refl _⟩⟩

end

/-! ## Steps -/

/-- What a step writes to the session are sequence ids, each once, that were not written since the log was `old`,
or the next one. -/
def Adds (sid : SessionId) (old : List Obs) (w w' : World) : Prop :=
  ∃ ids : List Int, written sid w'.log = ids.map (fun n : Int => (n : Rat)) ++ written sid w.log ∧ ids.Nodup ∧
    ∀ n ∈ ids, (n ≤ w.app.sequenceId ∧ Unwritten sid old w.log n) ∨ (n = w.app.sequenceId + 1 ∧ w'.app.sequenceId = n)

section
variable {old : List Obs} {w' : World}

theorem Mute.adds (h : Mute sid w w') : Adds sid old w w' := ⟨[], h, List.nodup_nil, by simp⟩

theorem Introduced.adds (h : Introduced sid w w') (hN : Tagged (books w)) (hids : w.app.sequenceId < 2 ^ 53) :
    Adds sid old w w' := by
  rcases h with hmute | ⟨hcounter, hwritten⟩
  · exact hmute.adds
  · have hpos : 0 ≤ w.app.sequenceId := hN.counter
    rw [Json.nearestDouble_of_le (by omega)] at hwritten
    refine ⟨[w.app.sequenceId + 1], hwritten, List.pairwise_singleton _ _, fun n hn => Or.inr ?_⟩
    obtain rfl := List.mem_singleton.1 hn
    exact ⟨rfl, hcounter⟩

theorem Next.adds {n : Int} {env : Env} (h : Next sid s n env w w') (hb : Base cfg (books w) .none)
    (hN : Tagged (books w)) (hsid : sid ≠ fcmSessionId) (hids : w.app.sequenceId < 2 ^ 53)
    (hC : s = sid → ∀ msg, LetsGo (stores w.toServer) env sid n msg → Unwritten sid old w.log msg.sequenceId) :
    Adds sid old w w' := by
  rcases h with hmute | ⟨hs, msg, x, hgo, hx, hwritten⟩
  · exact hmute.adds
  · obtain ⟨-, m, acked, hm, hacked, hnext⟩ := id hgo
    have hheld : m.messages[msg.sequenceId]? = some msg := by
      rcases MessageManager.getNext_eq ((hb.bal hm).without hacked) with ⟨hnone, -⟩ | ⟨msg', hsome, hmsg, -⟩
      · rw [hnone] at hnext
        cases hnext
      · rw [hsome] at hnext
        cases hnext
        exact (MessageManager.of_without hmsg).1
    obtain ⟨hnumber, hle⟩ := hN.held hb hsid hids hm hheld
    rw [hnumber] at hx
    cases hx
    refine ⟨[msg.sequenceId], hwritten, List.pairwise_singleton _ _, fun k hk => Or.inl ?_⟩
    obtain rfl := List.mem_singleton.1 hk
    exact ⟨hle, hC hs msg hgo⟩

theorem Resent.adds {m₀ : MessageManager} (h : Resent i sid m₀ w [] w') (hb : Base cfg (books w) .none)
    (hm₀ : w.app.balManager sid = some m₀) (hC : ∀ n msg, m₀.messages[n]? = some msg → msg.type.balBound = true →
      (m₀.Rings m₀.HasRoom n ∨ ¬ Patient i m₀) → Unwritten sid old w.log n) : Adds sid old w w' := by
  obtain ⟨ids, hwritten, hnodup, hids⟩ := h
  refine ⟨ids, hwritten, hnodup, fun n hn => Or.inl ?_⟩
  obtain ⟨-, msg, hmsg, htype, hroom⟩ := hids n hn
  exact ⟨hb.balHeld_le hm₀ hmsg, hC n msg hmsg htype hroom⟩

/-- What the expiry of a timer writes, if it is not that of a retry. -/
theorem wp_expire_adds (hb : Base cfg (books w) .none) (hN : Tagged (books w)) (hsid : sid ≠ fcmSessionId)
    (hC : Unrepeated sid old w i) {t : Timer} {w₁ : World} (hexp : Expires i (books w).toStores t)
    (hr : Reached i w w₁ .none) (hbal : (books w₁).bal = (books w).bal) (hlog : w₁.log = w.log) :
    Wp (i.env.Rest fs) (expire t) (fun _ => Adds sid old w) (fun _ => Adds sid old w) w₁ := by
  have hE := Env.Rest.closed i.env fs
  have hsame : Mute sid w w₁ := congrArg (written sid) hlog
  have hmute : ∀ {x : Handler Unit}, Keeps (i.env.Rest fs) (Mute sid) x →
      Wp (i.env.Rest fs) x (fun _ => Adds sid old w) (fun _ => Adds sid old w) w₁ :=
    fun h => h.wp (fun _ _ h => Mute.adds (h.trans hsame)) fun _ _ h => Mute.adds (h.trans hsame)
  cases t with
  | retryDownstream msg => exact hmute (Keeps.bind (mute_of_hush (hush_uploadToFcm hE)) fun _ => mute_of_hush hush_onFcm)
  | retryUpstream msg => exact absurd hexp (hC.timer msg)
  | resend s =>
    by_cases hs : s = sid
    · subst hs
      have hadds : ∀ {w' : World}, (Mute s w w' ∨ ∃ m₀, w.app.balManager s = some m₀ ∧ Resent i s m₀ w [] w') →
          Adds s old w w' := by
        rintro w' (h | ⟨m₀, hm₀, h⟩)
        · exact h.adds
        · exact h.adds hb hm₀ fun n msg hmsg htype hroom => hC.resend m₀ n msg hexp hm₀ hmsg htype hroom
      exact (wp_resendPendingUpstreamMessages_written hb hN hsid hC.ids hexp hr hbal hlog).mono (fun _ _ h => hadds h)
        fun _ _ h => hadds h
    · exact hmute (mute_resendPendingUpstreamMessages hE hs)
  | authentication sock => exact hmute mute_connections.handleBalAuthenticationTimeout
  | reconnect n => exact hmute (Keeps.pure _)
  | deleteSocket sock => exact hmute mute_connections.expire_deleteSocket

/-- What a frame of a BAL writes. -/
theorem handleBALmsg_adds (hb : Base cfg (books w) .none) (hN : Tagged (books w)) (hsid : sid ≠ fcmSessionId)
    (hC : Unrepeated sid old w i) {sock : SocketId} {doc : Json} {socket : Socket} (he : i.event = .balFrame sock doc)
    (hsock : w.app.sockets[sock]? = some socket) (hconn : socket.connected = true)
    (hopen : socket.signalsBlocked = false) :
    Ends (fun _ r => Adds sid old w r.1) (fun _ r => Adds sid old w r.1) (handleBALmsg socket doc (w, i.env)) := by
  have hE := Env.Rest.closed i.env i.env.faults
  have hmute : ∀ {x : Handler Unit}, Keeps (i.env.Rest i.env.faults) (Mute sid) x →
      Ends (fun _ r => Adds sid old w r.1) (fun _ r => Adds sid old w r.1) (x (w, i.env)) :=
    fun h => (h w i.env (.refl _)).mono (fun _ _ h => Mute.adds h.2) fun _ _ h => Mute.adds h.2
  by_cases hlogon : Json.toString (doc.value gimmmfieldnames.messageType) = "LOGON"
  · rw [show handleBALmsg socket doc = _ from if_pos hlogon]
    exact hmute (mute_connections.handleBalLogonRequest hE)
  by_cases hdown : Json.toString (doc.value gimmmfieldnames.messageType) = "DOWNSTREAM"
  · rw [show handleBALmsg socket doc = _ from (if_neg hlogon).trans (if_pos hdown)]
    exact hmute (mute_handleBalDownstreamUploadRequest hE)
  by_cases htype : Json.toString (doc.value gimmmfieldnames.messageType) = "ACK"
  · rw [show handleBALmsg socket doc = _ from (if_neg hlogon).trans ((if_neg hdown).trans (if_pos htype))]
    have hadds : ∀ {w' : World}, Next sid socket.sessionId (Json.toInt (doc.value gimmmfieldnames.sequenceId)) i.env w w' →
        Adds sid old w w' :=
      fun h => h.adds hb hN hsid hC.ids fun hs msg hgo => hC.next sock doc socket msg he hsock hconn hopen htype hs hgo
    exact (handleBalAckMsg_next hb _ _).mono (fun _ _ h => hadds h) fun _ _ h => hadds h
  · rw [show handleBALmsg socket doc = _ from (if_neg hlogon).trans ((if_neg hdown).trans (if_neg htype))]
    exact hmute (Keeps.throw _)

theorem handle_adds (hb : Base cfg (books w) .none) (hN : Tagged (books w)) (hsid : sid ≠ fcmSessionId)
    (hC : Unrepeated sid old w i) :
    Ends (fun _ r => Adds sid old w r.1) (fun _ r => Adds sid old w r.1) (handle i.event (w, i.env)) := by
  have hE := Env.Rest.closed i.env i.env.faults
  have hends : ∀ {x : Handler Unit},
      Wp (i.env.Rest i.env.faults) x (fun _ => Adds sid old w) (fun _ => Adds sid old w) w →
      Ends (fun _ r => Adds sid old w r.1) (fun _ r => Adds sid old w r.1) (x (w, i.env)) :=
    fun h => (h i.env (.refl _)).mono (fun _ _ h => h.2) fun _ _ h => h.2
  have hmute : ∀ {x : Handler Unit}, Wp (i.env.Rest i.env.faults) x (fun _ => Mute sid w) (fun _ => Mute sid w) w →
      Ends (fun _ r => Adds sid old w r.1) (fun _ r => Adds sid old w r.1) (x (w, i.env)) :=
    fun h => hends (h.mono (fun _ _ h => Mute.adds h) fun _ _ h => Mute.adds h)
  have hintroduced : ∀ {x : Handler Unit}, Keeps (i.env.Rest i.env.faults) (Introduced sid) x →
      Ends (fun _ r => Adds sid old w r.1) (fun _ r => Adds sid old w r.1) (x (w, i.env)) :=
    fun h => hends (h.wp (fun _ _ h => h.adds hN hC.ids) fun _ _ h => h.adds hN hC.ids)
  -- most events write nothing to the session, or a message that is new
  cases he : i.event with
  | newBALConnection d => exact hmute (mute_connections.handleNewBALConnection w)
  | balFrame sock doc =>
    by_cases hopen : ∃ s, w.app.sockets[sock]? = some s ∧ (s.connected && !s.signalsBlocked) = true
    · obtain ⟨s, hsock, hopen⟩ := hopen
      rw [handle_balFrame hsock hopen]
      rw [Bool.and_eq_true, Bool.not_eq_true'] at hopen
      exact guarded_ends (handleBALmsg_adds hb hN hsid hC he hsock hopen.1 hopen.2)
    · rw [handle_balFrame_ignored fun s hsock => Bool.not_eq_true _ ▸ fun h => hopen ⟨s, hsock, h⟩]
      exact Mute.adds rfl
  | balDisconnected sock => exact hmute (mute_connections.disconnectSocket w)
  | fcmUpstream doc => exact hintroduced (introduced_handleFcmNewUpstreamMessage hE)
  | fcmAck doc => exact hintroduced (introduced_handleFcmAckMessage hE)
  | fcmNack doc => exact hmute (mute_handleFcmNackMessage he hC.failed)
  | fcmReceipt doc => exact hintroduced (introduced_handleFcmReceiptMessage hE)
  | fcmSessionEstablished id =>
    refine hmute (Wp.bind (wp_mapApp (Reach.start : Reached i w w .none) rfl rfl rfl (fun _ ht => Or.inl ht)
      fun w₁ h₁ hr₁ => wp_guarded ?_))
    have hsame : Mute sid w w₁ := by rw [h₁]; rfl
    exact (mute_handleFcmSessionEstablished hb ⟨id, he⟩ hr₁ (by rw [h₁]; rfl) (by rw [h₁]; rfl) hC.failed).mono
      (fun _ _ h => h.trans hsame) fun _ _ h => h.trans hsame
  | fcmConnectionDrainingStarted id =>
    refine hmute (Keeps.bind mute_connections.onFcmConnection (fun _ => ?_) w)
    exact keeps_guarded mute_connections.handleFcmConnectionDrainingStarted
  | fcmDisconnected id => exact hmute (mute_connections.handleDisconnected hE w)
  | timer k =>
    refine hends (Wp.bind (Wp.read ?_))
    cases ht : w.app.timers[k]? with
    | none => exact Wp.pure (Mute.adds rfl)
    | some t =>
      refine Wp.bind (wp_mapApp (Reach.start : Reached i w w .none) rfl rfl rfl
        (fun t' ht' => Or.inl (List.mem_of_mem_eraseIdx ht')) fun w₁ h₁ hr₁ => ?_)
      have hlog : w₁.log = w.log := by rw [h₁]; rfl
      exact wp_expire_adds hb hN hsid hC ⟨k, he, ht⟩ hr₁ (by rw [h₁]; rfl) hlog
  | restart => exact Mute.adds rfl

/-- What a step writes; if the process survives it, its counter is that of the handler. -/
theorem step_adds (hb : Base cfg (books w) .none) (hN : Tagged (books w)) (hsid : sid ≠ fcmSessionId)
    (hC : Unrepeated sid old w i) : ∃ w', Adds sid old w w' ∧ (step cfg w i).log = w'.log ∧
      (survives w i = true → (step cfg w i).app.sequenceId = w'.app.sequenceId) := by
  have h := handle_adds hb hN hsid hC
  unfold step survives
  cases hh : handle i.event (w, i.env) with
  | ok a r =>
    rw [hh] at h
    exact ⟨r.1, h, rfl, fun _ => (destroyConns_fields r.1.app).2.2.1⟩
  | error e r =>
    rw [hh] at h
    exact ⟨r.1, h, rfl, fun hlive => by cases hlive⟩

variable {new new' : List Obs}

theorem Adds.written_eq (h : ∃ w'', Adds sid old w w'' ∧ w'.log = w''.log) (hlog : w.log = new ++ old)
    (hlog' : w'.log = new' ++ old) :
    ∃ ids : List Int, written sid new' = ids.map (fun n : Int => (n : Rat)) ++ written sid new ∧ ids.Nodup ∧
      ∀ n ∈ ids, Unwritten sid old w.log n ∨ n = w.app.sequenceId + 1 := by
  obtain ⟨w'', ⟨ids, hwritten, hnodup, hids⟩, hsame⟩ := h
  refine ⟨ids, ?_, hnodup, fun n hn => (hids n hn).imp And.right And.left⟩
  rw [← hsame, hlog', hlog, written_append, written_append, ← List.append_assoc] at hwritten
  exact List.append_cancel_right hwritten

/-- What was written stays without repetition, since the next sequence id was not drawn yet. -/
theorem Adds.nodup (h : ∃ w'', Adds sid old w w'' ∧ w'.log = w''.log) (hlog : w.log = new ++ old)
    (hlog' : w'.log = new' ++ old) (hnodup : (written sid new).Nodup)
    (hdrawn : ∀ x ∈ written sid new, ∃ n : Int, x = n ∧ n ≤ w.app.sequenceId) : (written sid new').Nodup := by
  obtain ⟨ids, hwritten, hids, hfresh⟩ := Adds.written_eq h hlog hlog'
  rw [hwritten]
  have hcast : (ids.map fun n : Int => (n : Rat)).Nodup :=
    List.Pairwise.map _ (fun a b hne hab => hne (Rat.intCast_inj.1 hab)) hids
  refine List.nodup_append.2 ⟨hcast, hnodup, ?_⟩
  rintro x hx y hy rfl
  obtain ⟨n, hn, rfl⟩ := List.mem_map.1 hx
  rcases hfresh n hn with hunwritten | hnext
  · exact hunwritten new hlog hy
  · obtain ⟨k, hk, hle⟩ := hdrawn _ hy
    have hnk : n = k := Rat.intCast_inj.1 hk
    omega

/-- In a run that the process survives, what is written are drawn sequence ids, each once. -/
theorem run_written (hsid : sid ≠ fcmSessionId) (js : List Input) (hb : Base cfg (books w) .none)
    (hN : Tagged (books w)) (hlive : Live cfg w js) (hC : Run.Along (step cfg) (Unrepeated sid old) w js)
    (hlog : w.log = new ++ old) (hnodup : (written sid new).Nodup)
    (hdrawn : ∀ x ∈ written sid new, ∃ n : Int, x = n ∧ n ≤ w.app.sequenceId) :
    ∃ new', (run cfg w js).log = new' ++ old ∧ (written sid new').Nodup ∧
      ∀ x ∈ written sid new', ∃ n : Int, x = n ∧ n ≤ (run cfg w js).app.sequenceId := by
  induction js generalizing w new with
  | nil => exact ⟨new, hlog, hnodup, hdrawn⟩
  | cons i js ih =>
    obtain ⟨w', hadds, hsame, hcounter⟩ := step_adds hb hN hsid hC.1
    have hcounter := hcounter hlive.1
    have hgrown : old <:+ (step cfg w i).log := (hlog ▸ List.suffix_append new old).trans (step_log_suffix hb i)
    obtain ⟨new', hnew'⟩ := hgrown
    refine ih (step_base hb i) (hN.step hb i) hlive.2 hC.2 hnew'.symm
      (Adds.nodup ⟨w', hadds, hsame⟩ hlog hnew'.symm hnodup hdrawn) fun x hx => ?_
    obtain ⟨ids, hwritten, -, hids⟩ := hadds
    rw [← hsame, ← hnew', hlog, written_append, written_append, ← List.append_assoc] at hwritten
    rw [List.append_cancel_right hwritten] at hx
    have hle : w.app.sequenceId ≤ (step cfg w i).app.sequenceId := counter_le hb hlive.1
    rcases List.mem_append.1 hx with hx | hx
    · obtain ⟨n, hn, rfl⟩ := List.mem_map.1 hx
      refine ⟨n, rfl, ?_⟩
      rcases hids n hn with ⟨hold, -⟩ | ⟨-, hdrawn'⟩
      · exact Int.le_trans hold hle
      · exact Int.le_of_eq (hdrawn'.symm.trans hcounter.symm)
    · obtain ⟨n, rfl, hn⟩ := hdrawn x hx
      exact ⟨n, rfl, Int.le_trans hn hle⟩

end

end

/-- In every segment of a run that the process survives, all but perhaps the last step of it, and in which no retry
timer fires and nothing comes to a message of the session that was written before in the segment, no sequence id is
written to the session twice. -/
theorem delivered_once (cfg : List SessionId) (sid : SessionId) (hsid : sid ≠ fcmSessionId) (env : Env)
    (is js : List Input) (i : Input) (w : World) (hw : w = run cfg (boot cfg env .empty) is) (hlive : Live cfg w js)
    (hcond : Run.Along (step cfg) (Unrepeated sid w.log) w (js ++ [i])) (new : List Obs)
    (hnew : (run cfg w (js ++ [i])).log = new ++ w.log) : (written sid new).Nodup := by
  subst hw
  obtain ⟨hcond, hlast⟩ := (Run.along_append js).1 hcond
  obtain ⟨hb, hN⟩ : Base cfg (books (run cfg (boot cfg env .empty) is)) .none ∧
      Tagged (books (run cfg (boot cfg env .empty) is)) :=
    Run.invariant_all (I := fun w => Base cfg (books w) .none ∧ Tagged (books w))
      (fun w i h => ⟨step_base h.1 i, h.2.step h.1 i⟩) is ⟨boot_base cfg env .empty, .boot cfg env⟩
  generalize run cfg (boot cfg env .empty) is = w at *
  have hnone : w.log = [] ++ w.log := rfl
  obtain ⟨new₁, hlog, hnodup, hdrawn⟩ := run_written hsid js hb hN hlive hcond hnone List.nodup_nil
    fun x hx => (by cases hx)
  obtain ⟨hb', hN'⟩ : Base cfg (books (run cfg w js)) .none ∧ Tagged (books (run cfg w js)) :=
    Run.invariant_all (I := fun w => Base cfg (books w) .none ∧ Tagged (books w))
      (fun w i h => ⟨step_base h.1 i, h.2.step h.1 i⟩) js ⟨hb, hN⟩
  rw [run, Run.run_append] at hnew
  obtain ⟨w', hadds, hsame, -⟩ := step_adds hb' hN' hsid hlast.1
  exact Adds.nodup ⟨w', hadds, hsame⟩ hlog hnew hnodup hdrawn

/-- The message that the ACK of the message `n` lets go. -/
def MessageManager.nextAfter (m : MessageManager) (n : Int) : Option Message :=
  match m.messages[n]? with
  | some acked =>
    match (m.without acked).getNext with
    | .ok next => next
    | .error _ => none
  | none => none

/-- A check of `Unrepeated` for an event: the message that an ACK lets go, or those of the queue when a timer fires, were
never written to the session; no timer is a retry, and no message is nacked or resent to FCM. -/
def World.unrepeated (sid : SessionId) (w : World) : Event → Bool
  | .balFrame _ doc => (w.app.balManager sid).all fun m =>
      (m.nextAfter (Json.toInt (doc.value gimmmfieldnames.sequenceId))).all fun msg => (msg.sequenceId : Rat) ∉ written sid w.log
  | .timer k => (w.app.timers[k]?).all fun t => !t.isRetry &&
      (w.app.balManager sid).all fun m => m.messages.toList.all fun p => (p.1 : Rat) ∉ written sid w.log
  | .fcmNack _ => false
  | .fcmSessionEstablished _ => false
  | _ => true

theorem unwritten_of_notMem {sid : SessionId} {old log : List Obs} {n : Int} (h : (n : Rat) ∉ written sid log) :
    Unwritten sid old log n := by
  rintro new rfl hn
  rw [written_append] at h
  exact h (List.mem_append_left _ hn)

theorem unrepeated_of_check {sid : SessionId} {old : List Obs} {w : World} {i : Input} (hids : w.app.sequenceId < 2 ^ 53)
    (h : w.unrepeated sid i.event = true) : Unrepeated sid old w i := by
  constructor
  · rintro msg ⟨k, hk, htimer⟩
    have htimer : w.app.timers[k]? = some (.retryUpstream msg) := htimer
    simp [World.unrepeated, hk, htimer, Timer.isRetry] at h
  · exact hids
  · rintro sock doc s msg he - - - - - ⟨-, m, acked, hm, hacked, hnext⟩
    have hm : w.app.balManager sid = some m := hm
    have hgo : m.nextAfter (Json.toInt (doc.value gimmmfieldnames.sequenceId)) = some msg := by
      simp only [MessageManager.nextAfter, hacked, hnext]
    simp only [World.unrepeated, he, hm, hgo, Option.all_some, decide_eq_true_eq] at h
    exact unwritten_of_notMem h
  · rintro m n msg ⟨k, hk, htimer⟩ hm hn - -
    have htimer : w.app.timers[k]? = some (.resend sid) := htimer
    simp only [World.unrepeated, hk, htimer, hm, Option.all_some, Bool.and_eq_true, List.all_eq_true, decide_eq_true_eq] at h
    exact unwritten_of_notMem (h.2 (n, msg) (ExtTreeMap.mem_toList_iff_getElem?_eq_some.2 hn))
  · rintro msg (⟨mid, hsettles, -⟩ | ⟨⟨mid, htransient, -⟩ | ⟨⟨n, hn⟩, -⟩, -⟩)
    · cases he : i.event with
      | fcmNack doc => rw [he] at h; cases h
      | fcmAck doc =>
        rw [he] at hsettles
        have hstate := congrArg Prod.snd (Option.some.inj hsettles)
        cases hstate
      | _ => rw [he] at hsettles; cases hsettles
    · cases he : i.event with
      | fcmNack doc => rw [he] at h; cases h
      | _ => rw [he] at htransient; cases htransient
    · rw [hn] at h
      cases h

/-- An upstream message whose forward fails, so that it waits in the queue. -/
def unforwarded (mid : FcmMessageId) : Input :=
  ⟨.fcmUpstream (fcmMessage mid "bal"), { Env.quiet with faults := [.ok, .ok, .fail 5] }⟩

/-- After a LOGON one message is forwarded and another is not; the ACK of the first lets the second go. A third one
that is not forwarded is left to the delayed resend. -/
def deliveredInTurn : List Input :=
  [.quiet (.balFrame 0 (balLogon "bal")), .quiet (.fcmUpstream (fcmMessage "u" "bal")), unforwarded "v",
    .quiet (.balFrame 0 (balAck 1)), .quiet (.balFrame 0 (balAck 2)), unforwarded "w"]

theorem delivered_once_each : ∃ new,
    (run ["bal"] (run ["bal"] (boot ["bal"] .quiet .empty) [.quiet (.newBALConnection 5)])
      (deliveredInTurn ++ [.quiet (.timer 0)])).log =
      new ++ (run ["bal"] (boot ["bal"] .quiet .empty) [.quiet (.newBALConnection 5)]).log ∧
    written "bal" new = [3, 2, 1] ∧ (written "bal" new).Nodup := by
  obtain ⟨new, hnew⟩ := run_log_suffix (run_base ["bal"] .quiet .empty [.quiet (.newBALConnection 5)])
    (deliveredInTurn ++ [.quiet (.timer 0)])
  have hold : written "bal" (run ["bal"] (boot ["bal"] .quiet .empty) [.quiet (.newBALConnection 5)]).log = [] := by
    decide +kernel
  have hcheck : Run.Along (step ["bal"]) (fun w i => w.app.sequenceId < 2 ^ 53 ∧ w.unrepeated "bal" i.event = true)
      (run ["bal"] (boot ["bal"] .quiet .empty) [.quiet (.newBALConnection 5)]) (deliveredInTurn ++ [.quiet (.timer 0)]) := by
    decide +kernel
  refine ⟨new, hnew.symm, ?_, delivered_once ["bal"] "bal" (by decide) .quiet [.quiet (.newBALConnection 5)] deliveredInTurn
    (.quiet (.timer 0)) _ rfl (by unfold Live; decide +kernel) ?_ new hnew.symm⟩
  · have hall : written "bal" (run ["bal"] (run ["bal"] (boot ["bal"] .quiet .empty) [.quiet (.newBALConnection 5)])
        (deliveredInTurn ++ [.quiet (.timer 0)])).log = [3, 2, 1] := by decide +kernel
    rw [← hnew, written_append, hold, List.append_nil] at hall
    exact hall
  · exact hcheck.mono fun _ _ h => unrepeated_of_check h.1 h.2

/-- A LOGON, a message that is forwarded within a second of it, and the delayed resend. -/
def forwardedTwice : List Input :=
  [.quiet (.balFrame 0 (balLogon "bal")), .quiet (.fcmUpstream (fcmMessage "u" "bal")), .quiet (.timer 0)]

/-- The resend writes the message again that waits for its ACK, without any retry timer. -/
theorem delivered_repeatedly :
    Live ["bal"] (run ["bal"] (boot ["bal"] .quiet .empty) [.quiet (.newBALConnection 5)]) forwardedTwice ∧
    Run.Along (step ["bal"]) (fun w _ => retried w.app.timers = [])
      (run ["bal"] (boot ["bal"] .quiet .empty) [.quiet (.newBALConnection 5)]) forwardedTwice ∧
    written "bal" (run ["bal"] (boot ["bal"] .quiet .empty) [.quiet (.newBALConnection 5)]).log = [] ∧
    ¬ (written "bal" (run ["bal"] (run ["bal"] (boot ["bal"] .quiet .empty) [.quiet (.newBALConnection 5)])
      forwardedTwice).log).Nodup := by
  unfold Live
  decide +kernel

end Gimmm
