/-
The functions of the FCM side, as acts: uploading, retrying and resending downstream messages, and
what an ack or a nack settles.
-/
import Gimmm.Flow.Sessions

namespace Gimmm

open Std Prog
open MessageManager (ask removeMessageWithFcmMsgId Holds Within)

section
variable {cfg : List SessionId} {i : Input} {w₀ w : World} {fs : List Fault}

/-- A failure of a statement or an output of `fs` lets the handler end without paying its debt. -/
abbrev Forgiven (i : Input) (b₀ : Stores) (fs : List Fault) : Prop :=
  Bad fs → Faulty i ∨ GivesUp i b₀

/-! ## Uploading -/

theorem wp_uploadToFcm {msg : Message} {d : Debt} (hr : Reached i w₀ w d)
    (cause : Upload i (books w₀) (books w) msg) (hlose : Bad fs → Reached i w₀ w .none) :
    Wp (i.env.Rest fs) (uploadToFcm msg)
      (fun _ w' => Reached i w₀ w' d ∧ (books w').toStores = (books w).toStores)
      (fun _ w' => Reached i w₀ w' .none) w := by
  unfold uploadToFcm
  refine wp_output (fun w' h' => ?_) hlose
  unfold Reached
  rw [h']
  exact ⟨hr.act (.upload cause rfl rfl), rfl⟩

/-- After a message is settled, the next one goes. -/
theorem wp_sendNextPendingDownstreamMessage (h₀ : Base cfg (books w₀) .none) {old : Message} {s : MessageState}
    {o : Obs} (hr : Reached i w₀ w (.owed old s)) (settles : Settles i (books w₀).toStores old s)
    (fcm : (books w).fcm = (books w₀).fcm.without old) (log : (books w).log = o :: (books w₀).log)
    (names : o.Names old) (hfs : Forgiven i (books w₀).toStores fs) :
    Wp (i.env.Rest fs) sendNextPendingDownstreamMessage
      (fun _ w' => Reached i w₀ w' (.owed old s) ∧ (books w').toStores = (books w).toStores)
      (fun _ w' => Reached i w₀ w' .none) w := by
  unfold sendNextPendingDownstreamMessage
  have hwf := (hr.base h₀).1.fcm
  refine Wp.bind (wp_askFcm (fun next hn => ?_) fun e he => ?_)
  · cases next with
    | none => exact Wp.pure ⟨hr, rfl⟩
    | some msg => exact wp_uploadToFcm hr (.next old s o settles fcm hn log names) fun hbad => hr.act (.lose (hfs hbad))
  · rcases MessageManager.getNext_eq hwf with ⟨h, -⟩ | ⟨msg, h, -⟩ <;> rw [h] at he <;> cases he

/-! ## Failures -/

/-- The source of a failed message gets its notice saved, and the failed payload written to it. -/
theorem wp_notifyDownstreamUploadFailure (h₀ : Base cfg (books w₀) .none) {msg : Message}
    (hr : Reached i w₀ w (.owed msg .deliveryFailed))
    (failed : Failed i (books w₀).toStores msg)
    (writable : (books w).writable = (books w₀).writable) (hfs : Forgiven i (books w₀).toStores fs) :
    Wp (i.env.Rest fs) (notifyDownstreamUploadFailure msg)
      (fun _ w' => Reached i w₀ w' .none ∧ (books w').fcm = (books w).fcm ∧
        (books w').writable = (books w).writable)
      (fun _ w' => Reached i w₀ w' .none) w := by
  unfold notifyDownstreamUploadFailure
  refine Wp.attempt (Wp.mono (X := fun _ w' => Reached i w₀ w' .none ∧ (books w').fcm = (books w).fcm ∧
    (books w').writable = (books w).writable) ?_ (fun _ _ h => h) fun e w' h => ?_)
  · refine wp_getNextSequenceId fun w₁ h₁ => wp_getJunk fun junk => wp_saveMsg ?_ (fun w₂ h₂ => ?_) fun hbad _ => ?_
    · rw [h₁]; exact (hr.base h₀).1.freshRow
    · have hr₂ : Reached i w₀ w₂ .none := by
        unfold Reached; rw [h₂, h₁]
        exact hr.act (.reject ⟨rfl, CString.noNul_empty, rfl, rfl⟩ rfl rfl rfl rfl failed)
      have hw₂ : (books w₂).fcm = (books w).fcm ∧ (books w₂).writable = (books w).writable := by
        rw [h₂, h₁]; exact ⟨rfl, rfl⟩
      have hrows : RowsStay (books w).toStores (books w₂).toStores := by
        rw [h₂, h₁]; exact RowsStay.insertRow (b := books w) _ (hr.base h₀).1.freshRow rfl
      obtain ⟨⟨row, h3, h4, -⟩, -⟩ := (hr.base h₀).1.debt
      obtain ⟨s', h5⟩ := hrows _ _ h3
      refine Wp.bind (wp_findBalSession (fun sess hs => ?_) fun _ _ => ⟨hr₂, hw₂⟩)
      refine (wp_writeMessage hr₂ hs fun hwr => ?_).mono (fun _ _ h => ⟨h.1, ?_⟩) (fun _ _ h => ⟨h.1, ?_⟩)
      · exact .failed msg _ failed h5 (h4.state s') rfl rfl (by rw [← writable, ← hw₂.2]; exact hwr)
      all_goals rw [h.2]; exact hw₂
    · have hr₁ : Reached i w₀ w₁ (.owed msg .deliveryFailed) := by unfold Reached; rw [h₁]; exact hr.act .draw
      exact ⟨hr₁.act (.lose (hfs hbad)), by rw [h₁]; exact ⟨rfl, rfl⟩⟩
  · split
    · exact h
    · exact h.1

/-! ## Retrying -/

/-- A loop over the downstream messages with the keys `l` left; if `patient` it drops no message. -/
structure Uploading (i : Input) (w₀ : World) (patient : Prop) (l : List Int) (w : World) : Prop where
  reached : Reached i w₀ w .none
  nodup : l.Nodup
  scanned : Scanned patient l (books w₀).fcm (books w).fcm
  count : (books w).fcm.pendingAckCount ≤ (books w₀).fcm.pendingAckCount
  writable : (books w).writable = (books w₀).writable

theorem Uploading.start {P : Prop} (hr : Reached i w₀ w .none) (fcm : (books w).fcm = (books w₀).fcm)
    (writable : (books w).writable = (books w₀).writable) : Uploading i w₀ P (books w).fcm.messages.keys w :=
  ⟨hr, ExtTreeMap.nodup_keys, by rw [fcm]; exact Scanned.start .., by rw [fcm], writable⟩

theorem Uploading.skip {P : Prop} {n : Int} {l : List Int} (h : Uploading i w₀ P (n :: l) w) : Uploading i w₀ P l w :=
  ⟨h.reached, (List.nodup_cons.1 h.nodup).2, h.scanned.skip, h.count, h.writable⟩

theorem without_count_le (m : MessageManager) (msg : Message) : (m.without msg).pendingAckCount ≤ m.pendingAckCount := by
  unfold MessageManager.without; simp only; split <;> omega

/-- Why a downstream message is retried. -/
inductive Retried (i : Input) (w₀ w : World) (msg : Message) : Prop where
  | nack (o : Obs) (nacked : Nacked i (books w₀).toStores msg)
      (find : (books w).fcm.findMessageWithFcmMsgId msg.fcmMessageId = .ok msg)
      (log : (books w).log = o :: (books w₀).log) (names : o.Names msg)
  | reconnect (est : Establishes i) (full : maxPendingMessages ≤ (books w₀).fcm.pendingAckCount)

/-- A message that the queue holds is retried, or it fails when it is out of retries. -/
theorem wp_retryDownstreamWithExponentialBackoff (h₀ : Base cfg (books w₀) .none) {P : Prop} {l : List Int} {msg : Message}
    (hI : Uploading i w₀ P (msg.sequenceId :: l) w) (hheld : (books w).fcm.messages[msg.sequenceId]? = some msg)
    (cause : Retried i w₀ w msg) (hP : ¬ Patient i (books w₀).fcm → ¬ P)
    (hfs : ¬ Patient i (books w₀).fcm → Forgiven i (books w₀).toStores fs.tail) :
    Wp (i.env.Rest fs) (retryDownstreamWithExponentialBackoff msg) (fun _ => Uploading i w₀ P l)
      (fun _ w' => Reached i w₀ w' .none) w := by
  obtain ⟨hr, hnd, hs, hc, hw⟩ := hI
  obtain ⟨hn, hl⟩ := List.nodup_cons.1 hnd
  have hback : ∀ (d : Draw) (msg : Message), (msg.getNextRetryTimeout d).2.fixed = msg.fixed ∧
      (msg.getNextRetryTimeout d).2.state = msg.state := fun d msg => by simp
  have hflag : ∀ msg : Message, (msg.setRetryInProgress true).fixed = msg.fixed ∧
      (msg.setRetryInProgress true).state = msg.state := fun msg => by simp
  unfold retryDownstreamWithExponentialBackoff
  refine wp_popDraw fun d hd => Wp.bind (wp_modifyFcm fun w₁ h₁ => ?_)
  have hr₁ : Reached i w₀ w₁ .none := by unfold Reached; rw [h₁]; exact hr.act (.touchDown _ _ (hback d))
  have hf₁ : (books w₁).fcm = (books w).fcm.modifyMessage msg.sequenceId fun m => (m.getNextRetryTimeout d).2 := by
    rw [h₁]; rfl
  have hs₁ := hs.skip.modify hn (hback d)
  have hh₁ := holds_modify (n := msg.sequenceId) ⟨msg, hheld, rfl, rfl⟩ (hback d)
  rw [← hf₁] at hs₁ hh₁
  have hc₁ : (books w₁).fcm.pendingAckCount ≤ (books w₀).fcm.pendingAckCount := by rw [h₁]; exact hc
  have hw₁ : (books w₁).writable = (books w₀).writable := by rw [h₁]; exact hw
  dsimp only
  split
  · refine Wp.bind (wp_modifyFcm fun w₂ h₂ => ?_)
    have hI₂ : Uploading i w₀ P l w₂ := by
      refine ⟨?_, hl, ?_, by rw [h₂]; exact hc₁, by rw [h₂]; exact hw₁⟩
      · unfold Reached; rw [h₂]; exact hr₁.act (.touchDown _ _ hflag)
      · rw [h₂]; exact hs₁.modify hn hflag
    refine wp_singleShot hI₂ fun w₃ h₃ => ?_
    have hh₂ : (books w₂).fcm.Holds msg := by rw [h₂]; exact holds_modify hh₁ hflag
    have hcause : ArmDown i (books w₀) (books w₂) msg := by
      cases cause with
      | nack o nacked => exact .nack nacked hI₂.scanned.within
      | reconnect est full => exact .reconnect est hI₂.scanned.within full
    refine ⟨?_, hl, ?_, ?_, ?_⟩
    · unfold Reached; rw [h₃]; exact hI₂.reached.act (.armDown hcause hh₂)
    · rw [h₃]; exact hI₂.scanned
    · rw [h₃]; exact hI₂.count
    · rw [h₃]; exact hI₂.writable
  · rename_i hout
    have hpat : ¬ Patient i (books w₀).fcm := fun hp => hout
      (hp _ msg (hs.left _ (List.mem_cons_self ..) msg hheld) d hd)
    have hdropped : DropDown i (books w₀) (books w₁) msg := by
      cases cause with
      | nack o nacked find log names => exact .nack msg o nacked rfl (by rw [h₁]; exact log) names
      | reconnect est full => exact .reconnect est full
    refine wp_updateMsgState (fun w₂ h₂ => ?_) fun _ _ => hr₁
    have hr₂ : Reached i w₀ w₂ (.owed msg .deliveryFailed) := by
      unfold Reached; rw [h₂]; exact hr₁.act (.exhaust hh₁ hpat hs₁.within hdropped)
    have hf₂ : (books w₂).fcm = (books w₁).fcm := by rw [h₂]; rfl
    have hwf := (hr₂.base h₀).1.fcm
    refine Wp.bind (wp_onFcm ?_)
    -- the index may name another message with this id, or none: then the exception ends the handler
    rcases MessageManager.removeMessageWithFcmMsgId_cases hwf msg.fcmMessageId with
      ⟨hnone, what, h⟩ | ⟨msg', hfind', hmsg', h⟩
    · rw [h]
      intro w₃ h₃
      have hr₃ : Reached i w₀ w₃ (.owed msg .deliveryFailed) := by unfold Reached; rw [h₃]; exact hr₂
      refine hr₃.act (.lose ?_)
      cases cause with
      | nack o nacked find =>
        have hsome := ((hr.base h₀).1.fcm.find find).1
        have hnone : (books w).fcm.sequenceIdMap[msg.fcmMessageId]? = none := by
          rw [hf₂, hf₁] at hnone; exact hnone
        unfold MessageManager.findSequenceId at hsome
        rw [hnone] at hsome; cases hsome
      | reconnect est full => exact Or.inr ⟨est, full, hpat⟩
    · rw [h]
      intro w₃ h₃
      have hdrop : DropDown i (books w₀) (books w₂) msg' := by
        cases cause with
        | nack o nacked find log names =>
          have hsame := (hwf.find hfind').1.symm.trans
            ((congrArg (·.findSequenceId msg.fcmMessageId) (hf₂.trans hf₁)).trans ((hr.base h₀).1.fcm.find find).1)
          exact .nack msg o nacked (Except.ok.inj hsame) (by rw [h₂, h₁]; exact log) names
        | reconnect est full => exact .reconnect est full
      have hr₃ : Reached i w₀ w₃ (.owed msg .deliveryFailed) := by
        unfold Reached; rw [h₃]; exact hr₂.act (.drop hmsg' hpat hdrop)
      have hw₃ : (books w₃).writable = (books w₀).writable := by rw [h₃, h₂]; exact hw₁
      refine (wp_notifyDownstreamUploadFailure h₀ hr₃ (hdropped.failed hpat) hw₃ (hfs hpat)).mono (fun _ w₄ h₄ => ?_) fun _ _ h => h
      refine ⟨h₄.1, hl, ?_, ?_, h₄.2.2.trans hw₃⟩
      · rw [h₄.2.1, h₃]; exact hf₂ ▸ hs₁.without (hP hpat) msg'
      · rw [h₄.2.1, h₃]; exact Nat.le_trans (without_count_le _ _) (hf₂ ▸ hc₁)

/-! ## Session established -/

/-- What `resendAllPendingDownstreamMessages` does with a message. -/
theorem wp_resendDownstream (h₀ : Base cfg (books w₀) .none) (est : Establishes i) {l : List Int} {msg : Message}
    (hI : Uploading i w₀ (maxPendingMessages ≤ (books w₀).fcm.pendingAckCount → Patient i (books w₀).fcm)
      (msg.sequenceId :: l) w)
    (hheld : (books w).fcm.messages[msg.sequenceId]? = some msg) :
    Wp (i.env.Rest fs)
      (if msg.type = .downstream then do
        let rcode ← askFcm (·.canSendMessageOnReconnect msg)
        if rcode = 0 then uploadToFcm msg
        else if rcode = 2 then retryDownstreamWithExponentialBackoff msg
      else pure ())
      (fun _ => Uploading i w₀ (maxPendingMessages ≤ (books w₀).fcm.pendingAckCount → Patient i (books w₀).fcm) l)
      (fun _ w' => Reached i w₀ w' .none) w := by
  have hwf := (hI.reached.base h₀).1.fcm
  have hpend := ((hI.reached.base h₀).1.fcmHeld hheld).pending
  have hskip : Uploading i w₀ _ l w := hI.skip
  split
  · obtain ⟨c, hc, hcase⟩ := MessageManager.canSendMessageOnReconnect_eq hwf hheld rfl rfl hpend
    refine Wp.bind (wp_askFcm (fun rc hrc => ?_) fun e he => ?_)
    · rw [hc] at hrc
      cases hrc
      rcases hcase with ⟨rfl, count, front⟩ | ⟨rfl, full⟩ | ⟨rfl, -⟩
      · have hcause : Upload i (books w₀) (books w) msg := .resend est hI.scanned.within ⟨msg, hheld, rfl, rfl⟩
          count front fun hp => ⟨hI.scanned.kept hp, Nat.le_antisymm hI.count (hI.scanned.count hp)⟩
        refine (wp_uploadToFcm hI.reached hcause fun _ => hI.reached).mono (fun _ w'' h => ?_) fun _ _ h => h
        exact ⟨h.1, hskip.nodup, by rw [h.2]; exact hskip.scanned, by rw [h.2]; exact hskip.count,
          by rw [h.2]; exact hskip.writable⟩
      · have hfull : maxPendingMessages ≤ (books w₀).fcm.pendingAckCount := Nat.le_trans full hI.count
        exact wp_retryDownstreamWithExponentialBackoff h₀ hI hheld (.reconnect est hfull) (fun hp h => hp (h hfull))
          fun hp _ => Or.inr ⟨est, hfull, hp⟩
      · exact Wp.pure hskip
    · rw [hc] at he; cases he
  · exact Wp.pure hskip

theorem wp_resendAllPendingDownstreamMessages (h₀ : Base cfg (books w₀) .none) (est : Establishes i)
    (hr : Reached i w₀ w .none) (fcm : (books w).fcm = (books w₀).fcm)
    (writable : (books w).writable = (books w₀).writable) :
    Wp (i.env.Rest fs) resendAllPendingDownstreamMessages (fun _ w' => Reached i w₀ w' .none)
      (fun _ w' => Reached i w₀ w' .none) w := by
  refine wp_forEachMessage (I := Uploading i w₀ (maxPendingMessages ≤ (books w₀).fcm.pendingAckCount →
    Patient i (books w₀).fcm)) ?_ ?_ ?_ ?_ ?_ |>.mono (fun _ _ h => h.reached) (fun _ _ h => h)
  · rintro n l w' m msg hI hm hheld
    obtain rfl : (books w').fcm = m := Option.some.inj hm
    obtain rfl := (hI.reached.base h₀).1.fcm.key hheld
    exact wp_resendDownstream h₀ est hI hheld
  · rintro n l w' hI; exact hI.skip
  · intro l w' h; exact h.reached
  · intro h; cases h
  · intro m h
    obtain rfl : (books w).fcm = m := Option.some.inj h
    exact Uploading.start hr fcm writable

theorem wp_handleFcmSessionEstablished (h₀ : Base cfg (books w₀) .none) (est : Establishes i)
    (hr : Reached i w₀ w .none) (fcm : (books w).fcm = (books w₀).fcm)
    (writable : (books w).writable = (books w₀).writable) :
    Wp (i.env.Rest fs) handleFcmSessionEstablished (fun _ w' => Reached i w₀ w' .none)
      (fun _ w' => Reached i w₀ w' .none) w := by
  unfold handleFcmSessionEstablished
  refine Wp.bind (wp_record fun w₁ h₁ => ?_)
  refine wp_resendAllPendingDownstreamMessages h₀ est ?_ (by rw [h₁]; exact fcm) (by rw [h₁]; exact writable)
  unfold Reached; rw [h₁]; exact hr.act (.record rfl (Or.inl ⟨rfl, est⟩))

/-- The expiry of the retry timer of a downstream message. -/
theorem wp_expire_retryDownstream {msg : Message} (hexp : Expires i (books w₀).toStores (.retryDownstream msg))
    (hr : Reached i w₀ w .none) (fcm : (books w).fcm = (books w₀).fcm) (log : (books w).log = (books w₀).log) :
    Wp (i.env.Rest fs) (expire (.retryDownstream msg)) (fun _ w' => Reached i w₀ w' .none)
      (fun _ w' => Reached i w₀ w' .none) w := by
  refine Wp.bind ((wp_uploadToFcm hr (.fire hexp fcm log) fun _ => hr).mono (fun _ w₁ h => ?_) fun _ _ h => h)
  refine wp_modifyFcm fun w₂ h₂ => ?_
  unfold Reached; rw [h₂]
  exact h.1.act (.touchDown _ _ fun msg => by simp)

/-! ## Upload requests -/

theorem front_mark {m : MessageManager} {n : Int} {msg : Message} (h : m.Front msg) : (m.mark n).Front msg := by
  intro hg k msg' hk hgm
  rw [MessageManager.mark_getElem?] at hk
  split at hk
  · obtain ⟨msg₁, h1, rfl⟩ := Option.map_eq_some_iff.1 hk
    exact h hg k msg₁ h1 hgm
  · exact h hg k msg' hk hgm

/-- A new message in the queue is uploaded if it can be sent. -/
theorem wp_uploadAccepted (h₀ : Base cfg (books w₀) .none) {msg : Message} (hr : Reached i w₀ w .none)
    (held : (books w).fcm.messages[msg.sequenceId]? = some msg) (new : (books w₀).counter < msg.sequenceId)
    (log : (books w).log = (books w₀).log)
    (asks : (books w).fcm.Sendable msg → Asks i (books w₀).toStores msg.groupId) :
    Wp (i.env.Rest fs)
      (do let rcode ← askFcm (·.canSendMessage msg)
          if rcode = 0 then
            updateMsgState msg .pendingAck
            modifyFcm (·.modifyMessage msg.sequenceId (·.setState .pendingAck))
            modifyFcm (·.incrementPendingAckCount)
            uploadToFcm msg)
      (fun _ w' => Reached i w₀ w' .none) (fun _ w' => Reached i w₀ w' .none) w := by
  obtain ⟨c, hc, hiff⟩ := MessageManager.canSendMessage_eq (hr.base h₀).1.fcm held rfl rfl
  refine Wp.bind (wp_askFcm (fun rc hrc => ?_) fun e he => ?_)
  · rw [hc] at hrc
    cases hrc
    split
    · rename_i h0
      have sendable := hiff.1 h0
      refine wp_updateMsgState (fun w₁ h₁ => ?_) fun _ _ => hr
      refine Wp.bind (wp_modifyFcm fun w₂ h₂ => Wp.bind (wp_modifyFcm fun w₃ h₃ => ?_))
      have hb₃ : books w₃ =
          ((books w).setState msg.sequenceId .pendingAck).setFcm ((books w).fcm.mark msg.sequenceId) := by
        rw [h₃, h₂, h₁]; rfl
      have hr₃ : Reached i w₀ w₃ .none := by unfold Reached; rw [hb₃]; exact hr.act (.mark held sendable)
      refine (wp_uploadToFcm hr₃ (.first new ?_ ?_ ?_ (asks sendable)) fun _ => hr₃).mono (fun _ _ h => h.1) fun _ _ h => h
      · rw [hb₃]
        show ((books w).fcm.mark msg.sequenceId).messages[msg.sequenceId]? = _
        rw [MessageManager.mark_getElem?, if_pos rfl, held]; rfl
      · rw [hb₃]; exact front_mark sendable.2.2
      · rw [hb₃]; exact log
    · exact Wp.pure hr
  · rw [hc] at he; cases he

/-- A request whose message can be sent when it is queued. -/
theorem asks_of_sendable (h₀ : Base cfg (books w₀) .none) {sock : SocketId} {doc : Json} {msg : Message}
    (he : i.event = .balFrame sock doc) (htype : Json.toString (doc.value gimmmfieldnames.messageType) = "DOWNSTREAM")
    (hgid : Json.toString (doc.value gimmmfieldnames.groupId) = msg.groupId)
    (hseq : msg.sequenceId = (books w₀).counter + 1)
    (h : ((books w₀).fcm.addMessage msg.sequenceId msg).Sendable msg) : Asks i (books w₀).toStores msg.groupId := by
  obtain ⟨-, hcount, hfront⟩ := h
  rw [MessageManager.addMessage_pendingAckCount] at hcount
  refine ⟨⟨sock, doc, he, htype, hgid⟩, hcount, fun hg n old hn hold => ?_⟩
  have hle := h₀.held_le hn
  have hfresh : (books w₀).fcm.messages[msg.sequenceId]? = none := by
    rw [hseq]
    exact h₀.fresh
  have hget := MessageManager.addMessage_getElem? msg hfresh n
  rw [if_neg (by omega), hn] at hget
  have := hfront hg n old hget hold
  omega

theorem wp_handleBalDownstreamUploadRequest (h₀ : Base cfg (books w₀) .none) {sock : SocketId} {sid : SessionId}
    {doc : Json} (he : i.event = .balFrame sock doc)
    (htype : Json.toString (doc.value gimmmfieldnames.messageType) = "DOWNSTREAM") (hsid : CString.NoNul sid)
    (hw : books w = books w₀) :
    Wp (i.env.Rest fs) (handleBalDownstreamUploadRequest sid doc) (fun _ w' => Reached i w₀ w' .none)
      (fun _ w' => Reached i w₀ w' .none) w := by
  have hr : Reached i w₀ w .none := by unfold Reached; rw [hw]; exact .start
  unfold handleBalDownstreamUploadRequest
  dsimp only
  refine wp_getNextSequenceId fun w₁ h₁ => wp_saveMsg ?_ (fun w₂ h₂ => Wp.bind (wp_modifyFcm fun w₃ h₃ => ?_))
    fun _ _ => ?_
  · rw [h₁]; exact (hr.base h₀).1.freshRow
  · refine wp_uploadAccepted h₀ ?_ ?_ ?_ ?_ fun h => ?_
    · unfold Reached; rw [h₃, h₂, h₁]; exact hr.act (.accept _ _ _ _ rfl hsid (by rw [he]; exact if_pos htype) rfl)
    · rw [h₃, h₂, h₁]
      show ((books w).fcm.addMessage _ _).messages[_]? = _
      rw [MessageManager.addMessage_getElem? _ (hr.base h₀).1.fresh]
      exact if_pos rfl
    · rw [hw]; exact Int.lt_succ _
    · rw [h₃, h₂, h₁]; show (books w).log = _; rw [hw]
    · refine asks_of_sendable h₀ he htype rfl ?_ ?_
      · show (books w).counter + 1 = _; rw [hw]
      · rw [h₃, h₂, h₁] at h; rw [← hw]; exact h
  · unfold Reached; rw [h₁]; exact hr.act .draw

/-! ## Acks and nacks -/

/-- A held message is settled: its row, its removal, and the next upload. -/
theorem wp_settle (h₀ : Base cfg (books w₀) .none) {old : Message} {mid : FcmMessageId} {s : MessageState} {o : Obs}
    {α : Type} {k : Handler α} {Q : α → World → Prop} (hr : Reached i w₀ w .none) (fcm : (books w).fcm = (books w₀).fcm)
    (writable : (books w).writable = (books w₀).writable) (log : (books w).log = o :: (books w₀).log)
    (what : o.what = .acked mid ∨ o.what = .nacked mid) (server : o.server.app.fcmMsgManager = (books w).fcm)
    (settles : i.event.settles = some (mid, s))
    (find : (books w).fcm.findMessageWithFcmMsgId mid = .ok old) (hfs : Forgiven i (books w₀).toStores fs.tail)
    (next : ∀ w', Reached i w₀ w' (.owed old s) → (books w').writable = (books w₀).writable →
      Settles i (books w₀).toStores old s →
      Wp (i.env.Rest fs.tail) k Q (fun _ w' => Reached i w₀ w' .none) w') :
    Wp (i.env.Rest fs)
      (do updateMsgState old s
          onFcm (removeMessageWithFcmMsgId mid)
          sendNextPendingDownstreamMessage
          k) Q (fun _ w' => Reached i w₀ w' .none) w := by
  have hsettles : Settles i (books w₀).toStores old s := ⟨mid, settles, by rw [← fcm]; exact find⟩
  have hnames : o.Names old := ⟨mid, what, by rw [server]; exact find⟩
  refine wp_updateMsgState (fun w₁ h₁ => ?_) fun _ _ => hr
  refine Wp.bind (wp_onFcm ?_)
  have hf₁ : (books w₁).fcm = (books w).fcm := by rw [h₁]; rfl
  rw [hf₁, MessageManager.removeMessageWithFcmMsgId_eq (hr.base h₀).1.fcm find]
  intro w₂ h₂
  have hr₂ : Reached i w₀ w₂ (.owed old s) := by
    unfold Reached; rw [h₂, h₁]; exact hr.act (.settle hsettles fcm log hnames)
  have hf₂ : (books w₂).fcm = (books w₀).fcm.without old := by rw [h₂, ← fcm]; rfl
  have hl₂ : (books w₂).log = o :: (books w₀).log := by rw [h₂, h₁]; exact log
  have hw₂ : (books w₂).writable = (books w₀).writable := by rw [h₂, h₁]; exact writable
  refine Wp.bind ((wp_sendNextPendingDownstreamMessage h₀ hr₂ hsettles hf₂ hl₂ hnames hfs).mono (fun _ w₃ h₃ => ?_)
    fun _ _ h => h)
  exact next w₃ h₃.1 (by rw [h₃.2]; exact hw₂) hsettles

theorem wp_handleFcmAckMessage (h₀ : Base cfg (books w₀) .none) {doc : Json} (he : i.event = .fcmAck doc)
    (hw : books w = books w₀) :
    Wp (i.env.Rest i.env.faults) (handleFcmAckMessage doc) (fun _ w' => Reached i w₀ w' .none)
      (fun _ w' => Reached i w₀ w' .none) w := by
  have hlate : Forgiven i (books w₀).toStores i.env.faults.tail :=
    fun hbad => Or.inl (hbad.of_suffix (List.tail_suffix _))
  unfold handleFcmAckMessage
  refine Wp.bind (wp_record fun w₁ h₁ => wp_guarded ?_)
  have hr₁ : Reached i w₀ w₁ .none := by
    unfold Reached; rw [h₁, hw]; exact Reach.start.act (.record (by rw [← hw]; rfl) (Or.inr (Or.inl ⟨_, rfl⟩)))
  refine Wp.bind (wp_askFcm (fun old find => ?_) fun _ _ => hr₁)
  refine wp_settle h₀ hr₁ (by rw [h₁, hw]; rfl) (by rw [h₁, hw]; rfl) (by rw [h₁, hw]; rfl) (Or.inl rfl)
    (by rw [h₁]; rfl) (by rw [he]; rfl) find hlate fun w₂ hr₂ _ _ => ?_
  refine wp_getNextSequenceId fun w₃ h₃ => ?_
  refine wp_drawAndSave h₀ hr₂ h₃ ⟨rfl, noNul_fcmSessionId, rfl, rfl⟩ rfl ?_ (fun w₄ hr₄ _ => ?_) fun hbad h => ?_
  · exact .ack old rfl ((hr₁.base h₀).1.fcm.find find).2.2.symm rfl
  · exact wp_forwardMsgToBalsession h₀ hr₄ rfl rfl
  · exact h.act (.lose (hlate hbad))

theorem wp_handleFcmNackMessage (h₀ : Base cfg (books w₀) .none) {doc : Json} (he : i.event = .fcmNack doc)
    (hw : books w = books w₀) :
    Wp (i.env.Rest i.env.faults) (handleFcmNackMessage doc) (fun _ w' => Reached i w₀ w' .none)
      (fun _ w' => Reached i w₀ w' .none) w := by
  have hlate : Forgiven i (books w₀).toStores i.env.faults.tail :=
    fun hbad => Or.inl (hbad.of_suffix (List.tail_suffix _))
  unfold handleFcmNackMessage
  refine Wp.bind (wp_record fun w₁ h₁ => wp_guarded ?_)
  have hr₁ : Reached i w₀ w₁ .none := by
    unfold Reached; rw [h₁, hw]; exact Reach.start.act (.record (by rw [← hw]; rfl) (Or.inr (Or.inr ⟨_, rfl⟩)))
  have hfcm : (books w₁).fcm = (books w₀).fcm := by rw [h₁, hw]; rfl
  have hwr : (books w₁).writable = (books w₀).writable := by rw [h₁, hw]; rfl
  refine Wp.bind (wp_askFcm (fun old find => ?_) fun _ _ => hr₁)
  obtain ⟨-, hheld, hid⟩ := (hr₁.base h₀).1.fcm.find find
  split
  · rename_i transient
    have hnacked : Nacked i (books w₀).toStores old := ⟨_, by rw [he]; exact if_pos transient, by rw [← hfcm]; exact find⟩
    have hnames : (⟨.nacked (Json.toString (doc.value fcmfieldnames.messageId)), w.toServer⟩ : Obs).Names old :=
      ⟨_, Or.inr rfl, by rw [h₁] at find; exact find⟩
    have hretried : Retried i w₀ w₁ old :=
      .nack _ hnacked (by rw [hid]; exact find) (by rw [h₁, hw]; rfl) hnames
    refine (wp_retryDownstreamWithExponentialBackoff (P := Patient i (books w₀).fcm) (l := []) h₀
      ⟨hr₁, by simp, ?_, ?_, hwr⟩ hheld hretried id fun _ => hlate).mono (fun _ _ h => h.reached) fun _ _ h => h
    · rw [hfcm]; exact Scanned.start ..
    · rw [hfcm]
  · rename_i permanent
    refine wp_settle h₀ hr₁ hfcm hwr (by rw [h₁, hw]; rfl) (Or.inr rfl)
      (by rw [h₁]; rfl) (by rw [he]; exact if_neg permanent) find hlate fun w₂ hr₂ hw₂ hset => ?_
    exact (wp_notifyDownstreamUploadFailure h₀ hr₂ (.nack hset) hw₂ hlate).mono (fun _ _ h => h.1) fun _ _ h => h

end

end Gimmm
