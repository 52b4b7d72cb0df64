/-
The functions that serve the BAL sessions, as acts: writing to a session, forwarding a message to
it, the delayed resend and its retries.
-/
import Gimmm.Flow.Rules

namespace Gimmm

open Std Prog
open MessageManager (ask removeMessage removeMessageWithFcmMsgId Holds Within)

/-- The books of `w` are reached with the debt `d`. -/
abbrev Reached (i : Input) (w₀ w : World) (d : Debt) : Prop :=
  Reach i (books w₀) (books w) d

section
variable {cfg : List SessionId} {i : Input} {w₀ w : World} {fs : List Fault}

/-- Connections and timers that are no retries change. -/
theorem Reach.connections {w' : World} {d : Debt} (h : Reached i w₀ w d)
    (fcm : w'.app.fcmMsgManager = w.app.fcmMsgManager) (bal : w'.app.balManager = w.app.balManager)
    (counter : w'.app.sequenceId = w.app.sequenceId) (db : w'.db = w.db) (log : w'.log = w.log)
    (timers : ∀ t ∈ w'.app.timers, t ∈ w.app.timers ∨ t.isRetry = false) : Reached i w₀ w' d := by
  have he : books w' = { books w with timers := w'.app.timers, writable := w'.app.writable } := by
    show Books.mk ⟨_, _, _, _, _, _⟩ _ = Books.mk ⟨_, _, _, _, _, _⟩ _
    rw [Books.mk.injEq, Stores.mk.injEq]
    exact ⟨⟨fcm, bal, by funext n; show w'.db.rows[n]? = _; rw [db]; rfl, counter, rfl, rfl⟩, log⟩
  show Reach _ _ (books w') d
  rw [he]
  exact h.act (.connections _ _ timers)

/-! ## Writing -/

/-- `writeMessage` writes to a session that can be written to, and changes nothing else. -/
theorem wp_writeMessage {sid : SessionId} {sess : BALSession} {doc : Json} (hr : Reached i w₀ w .none)
    (hs : w.app.balSessionMap[sid]? = some sess)
    (cause : (books w).writable sid = true → Write i (books w₀) (books w) sid doc) :
    Wp (i.env.Rest fs) (writeMessage sid sess doc)
      (fun _ w' => Reached i w₀ w' .none ∧ (books w').toStores = (books w).toStores)
      (fun _ w' => Reached i w₀ w' .none ∧ (books w').toStores = (books w).toStores) w := by
  unfold writeMessage
  by_cases hst : sess.state = .authenticated
  · rw [if_pos hst]
    cases hc : sess.balConn with
    | none => exact Wp.throw ⟨hr, rfl⟩
    | some sock =>
      refine Wp.bind (Wp.read ?_)
      cases hk : w.app.sockets[sock]? with
      | none => exact Wp.throw ⟨hr, rfl⟩
      | some s =>
        simp only
        split
        · rename_i hcon
          have hw : w.app.writable sid = true := by
            unfold Application.writable; rw [hs]; simp [hst, hc, hk, hcon]
          refine wp_output (fun w' hw' => ?_) fun _ => ⟨hr, rfl⟩
          unfold Reached
          rw [hw']; exact ⟨hr.act (.write (cause hw) rfl rfl), rfl⟩
        · exact Wp.throw ⟨hr, rfl⟩
  · rw [if_neg hst]; exact Wp.throw ⟨hr, rfl⟩

theorem wp_forwardMsg {sid : SessionId} {msg : Message} (hr : Reached i w₀ w .none)
    (cause : (books w).writable sid = true → Write i (books w₀) (books w) sid msg.payload) :
    Wp (i.env.Rest fs) (forwardMsg sid msg)
      (fun _ w' => Reached i w₀ w' .none ∧ (books w').toStores = (books w).toStores)
      (fun _ w' => Reached i w₀ w' .none ∧ (books w').toStores = (books w).toStores) w := by
  unfold forwardMsg
  refine Wp.bind (wp_findBalSession (fun sess hs => ?_) fun _ _ => ⟨hr, rfl⟩)
  split
  · exact Wp.pure ⟨hr, rfl⟩
  · refine Wp.attempt ((wp_writeMessage hr hs cause).mono (fun _ _ h => h) fun e w' h => ?_)
    split <;> exact h

/-! ## Forwarding -/

/-- Marking a message that its session can be sent, and sending it. -/
theorem wp_markAndForward {sid : SessionId} {m : MessageManager} {msg : Message} (hr : Reached i w₀ w .none)
    (hm : (books w).bal sid = some m) (held : m.messages[msg.sequenceId]? = some msg) (sendable : m.Sendable msg)
    (type : msg.type.balBound = true) :
    Wp (i.env.Rest fs)
      (do updateMsgState msg .pendingAck
          modifyBal sid (·.modifyMessage msg.sequenceId (·.setState .pendingAck))
          modifyBal sid (·.incrementPendingAckCount)
          forwardMsg sid msg)
      (fun _ w' => Reached i w₀ w' .none) (fun _ w' => Reached i w₀ w' .none) w := by
  refine wp_updateMsgState (fun w₁ h₁ => ?_) fun _ _ => hr
  have hm₁ : (books w₁).bal sid = some m := by rw [h₁]; exact hm
  refine Wp.bind (wp_modifyBal hm₁ fun w₂ h₂ => ?_)
  refine Wp.bind (wp_modifyBal (bal_of_setBal h₂) fun w₃ h₃ => ?_)
  have hb₃ : books w₃ = ((books w).setState msg.sequenceId .pendingAck).setBal sid (m.mark msg.sequenceId) := by
    rw [h₃, h₂, h₁, setBal_setBal]; rfl
  have hr₃ : Reached i w₀ w₃ .none := by
    unfold Reached; rw [hb₃]; exact hr.act (.markBal hm held sendable type)
  have hheld : (m.mark msg.sequenceId).Holds (msg.setState .pendingAck) :=
    ⟨msg.setState .pendingAck, by
      show (m.mark msg.sequenceId).messages[msg.sequenceId]? = _
      rw [MessageManager.mark_getElem?, if_pos rfl, held]; rfl, rfl, rfl⟩
  exact (wp_forwardMsg hr₃ fun _ => .held _ _ (bal_of_setBal hb₃) hheld rfl).mono
    (fun _ _ h => h.1) (fun _ _ h => h.1)

/-- A saved message is forwarded to its session. -/
theorem wp_forwardMsgToBalsession (h₀ : Base cfg (books w₀) .none) {sid : SessionId} {msg : Message}
    (hr : Reached i w₀ w (.saved msg)) (target : msg.targetSessionId = sid) (type : msg.type.balBound = true) :
    Wp (i.env.Rest fs) (forwardMsgToBalsession sid msg) (fun _ w' => Reached i w₀ w' .none)
      (fun _ w' => Reached i w₀ w' .none) w := by
  subst target
  unfold forwardMsgToBalsession
  refine Wp.bind (wp_findBalMessageManager (fun m hm => ?_) fun hm _ => hr.act (.undeliverable hm))
  refine Wp.bind (wp_modifyBal hm fun w₁ h₁ => ?_)
  have hr₁ : Reached i w₀ w₁ .none := by unfold Reached; rw [h₁]; exact hr.act (.deliver hm)
  have hm₁ := bal_of_setBal h₁
  have hwait : Waiting (books w).toStores msg := (hr.base h₀).1.debt
  have hheld : (m.addMessage msg.sequenceId msg).messages[msg.sequenceId]? = some msg := by
    rw [MessageManager.addMessage_getElem? _ (hwait.bal hm), if_pos rfl]
  obtain ⟨c, hc, hiff⟩ := MessageManager.canSendMessage_eq ((hr₁.base h₀).1.bal hm₁) hheld rfl rfl
  refine Wp.bind (wp_askBal hm₁ (fun rc hrc => ?_) fun e he => ?_)
  · rw [hc] at hrc
    cases hrc
    split
    · rename_i h0
      exact wp_markAndForward hr₁ hm₁ hheld (hiff.1 h0) type
    · exact Wp.pure hr₁
  · rw [hc] at he; cases he

theorem wp_sendNextPendingUpstreamMessage (h₀ : Base cfg (books w₀) .none) {sid : SessionId} {m : MessageManager}
    (hr : Reached i w₀ w .none) (hm : (books w).bal sid = some m) :
    Wp (i.env.Rest fs) (sendNextPendingUpstreamMessage sid)
      (fun _ w' => Reached i w₀ w' .none ∧ (books w').toStores = (books w).toStores)
      (fun _ w' => Reached i w₀ w' .none ∧ (books w').toStores = (books w).toStores) w := by
  have hb := (hr.base h₀).1
  unfold sendNextPendingUpstreamMessage
  refine Wp.bind (wp_askBal hm (fun next hn => ?_) fun _ _ => ⟨hr, rfl⟩)
  rcases MessageManager.getNext_eq (hb.bal hm) with ⟨h1, -⟩ | ⟨msg, h1, h2, -⟩
  · rw [h1] at hn; cases hn; exact Wp.pure ⟨hr, rfl⟩
  · rw [h1] at hn
    cases hn
    refine Wp.bind (wp_findBalSession (fun sess hs => ?_) fun _ _ => ⟨hr, rfl⟩)
    have ht : msg.targetSessionId = sid := (hb.balHeld hm h2).target
    refine wp_writeMessage hr hs fun _ => ?_
    exact .held m msg (by rw [ht]; exact hm) ⟨msg, h2, rfl, rfl⟩ rfl

theorem wp_guarded {E : Env → Prop} {x : Handler Unit} {P : World → Prop}
    (h : Wp E x (fun _ => P) (fun _ => P) w) : Wp E (guarded x) (fun _ => P) (fun _ => P) w := by
  unfold guarded
  refine Wp.attempt (h.mono (fun _ _ h => h) fun e w' h => ?_)
  split <;> exact h

theorem wp_handleBalAckMsg (h₀ : Base cfg (books w₀) .none) {sid : SessionId} {seqid : Int}
    (hr : Reached i w₀ w .none) :
    Wp (i.env.Rest fs) (handleBalAckMsg sid seqid) (fun _ w' => Reached i w₀ w' .none)
      (fun _ w' => Reached i w₀ w' .none) w := by
  unfold handleBalAckMsg
  refine wp_guarded (Wp.bind (wp_findBalMessageManager (fun m hm => ?_) fun _ _ => hr))
  refine Wp.bind (wp_askBal hm (fun msg hmsg => ?_) fun _ _ => hr)
  have hwf := (hr.base h₀).1.bal hm
  have hheld : m.messages[seqid]? = some msg := by
    unfold MessageManager.findMessage at hmsg
    cases hk : m.messages[seqid]? with
    | none => rw [hk] at hmsg; cases hmsg
    | some msg' => rw [hk] at hmsg; cases hmsg; rfl
  have hseq : msg.sequenceId = seqid := hwf.key hheld
  refine wp_updateMsgState (fun w₁ h₁ => ?_) fun _ _ => hr
  have hm₁ : (books w₁).bal sid = some m := by rw [h₁]; exact hm
  refine Wp.bind (wp_onBal hm₁ ?_)
  rw [MessageManager.removeMessage_eq hwf hheld]
  intro w₂ h₂
  have hr₂ : Reached i w₀ w₂ .none := by
    unfold Reached; rw [h₂, h₁]; exact hr.act (.settleBal hm (hseq ▸ hheld))
  exact (wp_sendNextPendingUpstreamMessage h₀ hr₂ (bal_of_setBal h₂)).mono (fun _ _ h => h.1) (fun _ _ h => h.1)

/-! ## Messages for a session -/

/-- Saving the next message for a session, and what comes after it. -/
theorem wp_drawAndSave (h₀ : Base cfg (books w₀) .none) {d : Debt} {α : Type} {msg : Message} {w₁ : World}
    {k : Unit → Handler α} (hr : Reached i w₀ w d) (h₁ : books w₁ = (books w).draw)
    (envelope : Envelope ((books w).counter + 1) msg) (state : msg.state = .new) (cause : Receives i msg d)
    (ok : ∀ w₂, Reached i w₀ w₂ (.saved msg) → (books w₂).counter = msg.sequenceId →
      Wp (i.env.Rest fs.tail) (k ()) (fun _ w' => Reached i w₀ w' .none) (fun _ w' => Reached i w₀ w' .none) w₂)
    (fail : Bad fs → Reached i w₀ w₁ d → Reached i w₀ w₁ .none) :
    Wp (i.env.Rest fs) (saveMsg msg >>= k) (fun _ w' => Reached i w₀ w' .none)
      (fun _ w' => Reached i w₀ w' .none) w₁ := by
  refine wp_saveMsg ?_ (fun w₂ h₂ => ok w₂ ?_ ?_) fun hbad _ => fail hbad ?_
  · rw [h₁, envelope.sequenceId]; exact (hr.base h₀).1.freshRow
  · unfold Reached; rw [h₂, h₁]; exact hr.act (.save envelope state cause)
  · rw [h₂, h₁, envelope.sequenceId]; rfl
  · unfold Reached; rw [h₁]; exact hr.act .draw

theorem wp_handleFcmNewUpstreamMessage (h₀ : Base cfg (books w₀) .none) {doc : Json}
    (he : i.event = .fcmUpstream doc) (hr : Reached i w₀ w .none) (hfs : fs <:+ i.env.faults) :
    Wp (i.env.Rest fs) (handleFcmNewUpstreamMessage doc) (fun _ w' => Reached i w₀ w' .none)
      (fun _ w' => Reached i w₀ w' .none) w := by
  unfold handleFcmNewUpstreamMessage
  refine wp_guarded (wp_getNextSequenceId fun w₁ h₁ => ?_)
  refine wp_drawAndSave h₀ hr h₁ ⟨rfl, noNul_fcmSessionId, rfl, rfl⟩ rfl (.upstream doc he rfl rfl rfl) (fun w₂ hr₂ hc₂ => ?_)
    fun _ h => h
  have hfs' : fs.tail <:+ i.env.faults := (List.tail_suffix fs).trans hfs
  refine Wp.bind (wp_output (fun w₃ h₃ => ?_) fun hbad => hr₂.act (.lose (Or.inl (hbad.of_suffix hfs'))))
  refine wp_forwardMsgToBalsession h₀ ?_ rfl rfl
  unfold Reached; rw [h₃]; exact hr₂.act (.fcmAck rfl rfl rfl rfl hc₂.symm)

theorem wp_handleFcmReceiptMessage (h₀ : Base cfg (books w₀) .none) {doc : Json}
    (he : i.event = .fcmReceipt doc) (hr : Reached i w₀ w .none) :
    Wp (i.env.Rest fs) (handleFcmReceiptMessage doc) (fun _ w' => Reached i w₀ w' .none)
      (fun _ w' => Reached i w₀ w' .none) w := by
  unfold handleFcmReceiptMessage
  refine wp_guarded (wp_getNextSequenceId fun w₁ h₁ => wp_getJunk fun junk => ?_)
  refine wp_drawAndSave h₀ hr h₁ ⟨rfl, noNul_fcmSessionId, rfl, rfl⟩ rfl (.receipt doc he rfl rfl) (fun w₂ hr₂ _ => ?_)
    fun _ h => h
  exact wp_forwardMsgToBalsession h₀ hr₂ rfl rfl

/-! ## The delayed resend -/

/-- The delayed resend of `sid` with the keys `l` left. -/
structure Resending (i : Input) (w₀ : World) (sid : SessionId) (m₀ : MessageManager)
    (l : List Int) (w : World) : Prop where
  reached : Reached i w₀ w .none
  nodup : l.Nodup
  scanned : ∃ m, (books w).bal sid = some m ∧ Scanned (Patient i m₀) l m₀ m

section
variable {sid : SessionId} {m₀ m : MessageManager} {msg : Message} {l : List Int}

/-- The retry of a message that the delayed resend finds while the window is full. -/
theorem wp_retryUpstreamWithExponentialBackoff (h₀ : Base cfg (books w₀) .none)
    (hexp : Expires i (books w₀).toStores (.resend sid)) (hm₀ : (books w₀).bal sid = some m₀)
    (hr : Reached i w₀ w .none) (hm : (books w).bal sid = some m) (hl : (msg.sequenceId :: l).Nodup)
    (hs : Scanned (Patient i m₀) (msg.sequenceId :: l) m₀ m)
    (hheld : m.messages[msg.sequenceId]? = some msg) :
    Wp (i.env.Rest fs) (retryUpstreamWithExponentialBackoff sid msg) (fun _ => Resending i w₀ sid m₀ l)
      (fun _ w' => Reached i w₀ w' .none) w := by
  obtain ⟨hn, hl⟩ := List.nodup_cons.1 hl
  have hback : ∀ (d : Draw) (msg : Message), (msg.getNextRetryTimeout d).2.fixed = msg.fixed ∧
      (msg.getNextRetryTimeout d).2.state = msg.state := fun d msg => by simp
  have hflag : ∀ msg : Message, (msg.setRetryInProgress true).fixed = msg.fixed ∧
      (msg.setRetryInProgress true).state = msg.state := fun msg => by simp
  unfold retryUpstreamWithExponentialBackoff
  refine wp_popDraw fun d hd => Wp.bind (wp_modifyBal hm fun w₁ h₁ => ?_)
  have hm₁ := bal_of_setBal h₁
  have hr₁ : Reached i w₀ w₁ .none := by unfold Reached; rw [h₁]; exact hr.act (.touchBal _ _ hm (hback d))
  have hs₁ := hs.skip.modify hn (hback d)
  have hh₁ := holds_modify (n := msg.sequenceId) ⟨msg, hheld, rfl, rfl⟩ (hback d)
  dsimp only
  split
  · refine Wp.bind (wp_modifyBal hm₁ fun w₂ h₂ => ?_)
    have hr₂ : Reached i w₀ w₂ .none := by unfold Reached; rw [h₂]; exact hr₁.act (.touchBal _ _ hm₁ hflag)
    have hm₂ := bal_of_setBal h₂
    have hs₂ := hs₁.modify hn hflag
    refine wp_singleShot ⟨hr₂, hl, _, hm₂, hs₂⟩ fun w₃ h₃ => ⟨?_, hl, _, by rw [h₃]; exact hm₂, hs₂⟩
    unfold Reached; rw [h₃]
    exact hr₂.act (.armUp ⟨hexp, hm₂, holds_modify hh₁ hflag, m₀, hm₀, hs₂.within, hs₂.count⟩)
  · rename_i hout
    -- the message is as it was when the loop began, and out of retries
    have hpat : ¬ Patient i m₀ := fun hp => hout
      (hp _ msg (hs.left _ (List.mem_cons_self ..) msg hheld) d hd)
    refine wp_updateMsgState (fun w₂ h₂ => ?_) fun _ _ => hr₁
    have hr₂ : Reached i w₀ w₂ .none := by
      unfold Reached; rw [h₂]
      exact hr₁.act (.exhaustBal ⟨hexp, hm₁, hh₁, m₀, hm₀, hs₁.within, hs₁.count⟩ hm₀ hpat)
    have hm₂ : (books w₂).bal sid = (books w₁).bal sid := by rw [h₂]; rfl
    rw [hm₁] at hm₂
    have ht : msg.targetSessionId = sid := ((hr.base h₀).1.balHeld hm hheld).target
    have hwf := (hr₂.base h₀).1.bal hm₂
    rw [ht]
    refine wp_onBal hm₂ ?_
    rcases MessageManager.removeMessageWithFcmMsgId_cases hwf msg.fcmMessageId with ⟨-, what, h⟩ | ⟨msg', -, hmsg', h⟩
    · rw [h]
      intro w₃ h₃
      unfold Reached; rw [h₃, setBal_self hm₂]; exact hr₂
    · rw [h]
      intro w₃ h₃
      refine ⟨?_, hl, _, bal_of_setBal h₃, hs₁.without hpat msg'⟩
      unfold Reached; rw [h₃]; exact hr₂.act (.dropBal hm₂ hmsg' hm₀ hpat)

/-- The delayed resend of one message while the window is not full. -/
theorem wp_resend (hexp : Expires i (books w₀).toStores (.resend sid)) (hm₀ : (books w₀).bal sid = some m₀)
    (hr : Reached i w₀ w .none) (hm : (books w).bal sid = some m) (hl : l.Nodup)
    (hs : Scanned (Patient i m₀) l m₀ m) (hheld : m.messages[msg.sequenceId]? = some msg)
    (type : msg.type.balBound = true) (count : m.pendingAckCount < maxPendingMessages) :
    Wp (i.env.Rest fs)
      (do if msg.state ≠ .pendingAck then
            updateMsgState msg .pendingAck
            modifyBal sid (·.incrementPendingAckCount)
          forwardMsg sid msg)
      (fun _ => Resending i w₀ sid m₀ l) (fun _ w' => Reached i w₀ w' .none) w := by
  have hsend : ∀ {w' : World} {m' : MessageManager}, Reached i w₀ w' .none → (books w').bal sid = some m' →
      m'.Holds msg → Scanned (Patient i m₀) l m₀ m' →
      ∀ fs', Wp (i.env.Rest fs') (forwardMsg sid msg) (fun _ => Resending i w₀ sid m₀ l)
        (fun _ w' => Reached i w₀ w' .none) w' := fun {w' m'} hr' hm' hh' hs' _ =>
    (wp_forwardMsg hr' fun _ => .held m' msg hm' hh' rfl).mono
      (fun _ _ h => ⟨h.1, hl, m', by rw [h.2]; exact hm', hs'⟩) (fun _ _ h => h.1)
  by_cases hst : msg.state ≠ .pendingAck
  · rw [if_pos hst]
    refine wp_updateMsgState (fun w₁ h₁ => ?_) fun _ _ => hr
    have hm₁ : (books w₁).bal sid = some m := by rw [h₁]; exact hm
    refine Wp.bind (wp_modifyBal hm₁ fun w₂ h₂ => ?_)
    refine hsend ?_ (bal_of_setBal h₂) ⟨msg, hheld, rfl, rfl⟩ hs.increment _
    unfold Reached; rw [h₂, h₁]
    exact hr.act (.remark ⟨hexp, hm, ⟨msg, hheld, rfl, rfl⟩, m₀, hm₀, hs.within, hs.count⟩ hst type count)
  · rw [if_neg hst]
    exact hsend hr hm ⟨msg, hheld, rfl, rfl⟩ hs _

theorem Resending.skip {n : Int} (h : Resending i w₀ sid m₀ (n :: l) w) : Resending i w₀ sid m₀ l w := by
  obtain ⟨hr, hl, m, hm, hs⟩ := h
  exact ⟨hr, (List.nodup_cons.1 hl).2, m, hm, hs.skip⟩

theorem Resending.start (hr : Reached i w₀ w .none) (hm₀ : (books w₀).bal sid = some m₀)
    (hbal : (books w).bal = (books w₀).bal) : Resending i w₀ sid m₀ m₀.messages.keys w :=
  ⟨hr, ExtTreeMap.nodup_keys, m₀, by rw [hbal]; exact hm₀, Scanned.start ..⟩

/-- What the delayed resend does with a message. -/
theorem wp_resendUpstream (h₀ : Base cfg (books w₀) .none) (hexp : Expires i (books w₀).toStores (.resend sid))
    (hm₀ : (books w₀).bal sid = some m₀) (hI : Resending i w₀ sid m₀ (msg.sequenceId :: l) w)
    (hm : (books w).bal sid = some m) (hheld : m.messages[msg.sequenceId]? = some msg) :
    Wp (i.env.Rest fs)
      (if msg.type.balBound then do
        let rcode ← askBal sid (·.canSendMessageOnReconnect msg)
        if rcode = 0 then
          if msg.state ≠ .pendingAck then
            updateMsgState msg .pendingAck
            modifyBal sid (·.incrementPendingAckCount)
          forwardMsg sid msg
        else if rcode = 2 then retryUpstreamWithExponentialBackoff sid msg
        else if rcode = 3 then return
        else onBal sid (removeMessage msg.sequenceId)
      else pure ())
      (fun _ => Resending i w₀ sid m₀ l) (fun _ w' => Reached i w₀ w' .none) w := by
  have hskip := hI.skip
  obtain ⟨hr, hl, m', hm', hs⟩ := hI
  rw [hm] at hm'
  cases hm'
  have hl' := (List.nodup_cons.1 hl).2
  have hwf := (hr.base h₀).1.bal hm
  have hpend := ((hr.base h₀).1.balHeld hm hheld).pending
  split
  · rename_i type
    obtain ⟨c, hc, hcase⟩ := MessageManager.canSendMessageOnReconnect_eq hwf hheld rfl rfl hpend
    refine Wp.bind (wp_askBal hm (fun rc hrc => ?_) fun e he => ?_)
    · rw [hc] at hrc
      cases hrc
      rcases hcase with ⟨rfl, count, -⟩ | ⟨rfl, -⟩ | ⟨rfl, -⟩
      · exact wp_resend hexp hm₀ hr hm hl' hs.skip hheld type count
      · exact wp_retryUpstreamWithExponentialBackoff h₀ hexp hm₀ hr hm hl hs hheld
      · exact Wp.pure hskip
    · rw [hc] at he; cases he
  · exact Wp.pure hskip

theorem wp_resendPendingUpstreamMessages (h₀ : Base cfg (books w₀) .none)
    (hexp : Expires i (books w₀).toStores (.resend sid)) (hr : Reached i w₀ w .none)
    (hbal : (books w).bal = (books w₀).bal) :
    Wp (i.env.Rest fs) (resendPendingUpstreamMessages sid) (fun _ w' => Reached i w₀ w' .none)
      (fun _ w' => Reached i w₀ w' .none) w := by
  cases hm₀ : (books w₀).bal sid with
  | none =>
    refine wp_forEachMessage (I := fun _ w' => Reached i w₀ w' .none ∧ (books w').bal sid = none) ?_ ?_ ?_ ?_ ?_
      |>.mono (fun _ _ h => h.1) (fun _ _ h => h)
    · intro n l w' m msg hI hm; rw [show (books w').bal sid = some m from hm] at hI; cases hI.2
    · intro n l w' h; exact h
    · intro l w' h; exact h.1
    · intro _; exact ⟨hr, by rw [hbal]; exact hm₀⟩
    · intro m _; exact ⟨hr, by rw [hbal]; exact hm₀⟩
  | some m₀ =>
    refine wp_forEachMessage (I := Resending i w₀ sid m₀) ?_ ?_ ?_ ?_ ?_
      |>.mono (fun _ _ h => h.reached) (fun _ _ h => h)
    · rintro n l w' m msg hI hm hheld
      have hm : (books w').bal sid = some m := hm
      obtain rfl := ((hI.reached.base h₀).1.bal hm).key hheld
      exact wp_resendUpstream h₀ hexp hm₀ hI hm hheld
    · intro n l w' h; exact h.skip
    · intro l w' h; exact h.reached
    · intro h
      have hnone : (books w).bal sid = none := h
      rw [hbal, hm₀] at hnone; cases hnone
    · intro m h
      have hm : (books w).bal sid = some m := h
      rw [hbal, hm₀] at hm; cases hm
      exact .start hr hm₀ hbal

/-- The expiry of the retry timer of an upstream message. -/
theorem wp_expire_retryUpstream (hexp : Expires i (books w₀).toStores (.retryUpstream msg))
    (hr : Reached i w₀ w .none) (hbal : (books w).bal = (books w₀).bal)
    (writable : (books w).writable = (books w₀).writable) :
    Wp (i.env.Rest fs) (expire (.retryUpstream msg)) (fun _ w' => Reached i w₀ w' .none)
      (fun _ w' => Reached i w₀ w' .none) w := by
  refine Wp.bind ((wp_forwardMsg hr fun hw => .fire msg hexp rfl rfl hbal (writable ▸ hw)).mono (fun _ w₁ h => ?_) fun _ _ h => h.1)
  obtain ⟨hr₁, -⟩ := h
  cases hm : (books w₁).bal msg.targetSessionId with
  | none => exact wp_onBal_none hm fun _ => hr₁
  | some m =>
    refine wp_modifyBal hm fun w₂ h₂ => ?_
    unfold Reached; rw [h₂]
    exact hr₁.act (.touchBal _ _ hm fun msg => by simp)

end

end

end Gimmm
