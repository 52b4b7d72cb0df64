/-
The retry timers of a whole run: what the two loops over a queue leave of them, and what every event does.
-/
import Gimmm.Guarantees.Timely

namespace Gimmm

open Std Prog
open MessageManager (removeMessage)

section
variable {cfg : List SessionId} {i : Input} {w₀ w : World} {fs : List Fault} {msg : Message} {sid : SessionId}
  {l : List Int}

/-! ## Loops -/

/-- A loop over the queue of `m₀` with the keys `l` left, none of which has a timer if the loop retries it. -/
structure Ringing (m₀ : MessageManager) (full : List Int → Prop) (l : List Int) (w : World) : Prop where
  timely : Timely (stores w.toServer)
  rest : l <:+ m₀.messages.keys
  idle : ∀ n ∈ l, m₀.Rings full n → n ∉ retried w.app.timers

namespace Ringing

variable {m₀ : MessageManager} {full : List Int → Prop} {n : Int} {w' : World}

theorem skip (h : Ringing m₀ full (n :: l) w) : Ringing m₀ full l w :=
  ⟨h.timely, (List.suffix_cons n l).trans h.rest, fun k hk => h.idle k (List.mem_cons_of_mem _ hk)⟩

theorem holds (h : Ringing m₀ full l w) (h' : Holds w w') : Ringing m₀ full l w' :=
  ⟨h.timely.holding h', h.rest, fun k hk hf hr => h.idle k hk hf (h'.retried.subset hr)⟩

theorem armed (h : Ringing m₀ full (n :: l) w) (h' : Armed n w w') : Ringing m₀ full l w' := by
  have hnd : (n :: l).Nodup := h.rest.sublist.nodup ExtTreeMap.nodup_keys
  refine ⟨h'.1, h.skip.rest, fun k hk hf hr => ?_⟩
  rcases h'.2 k hr with rfl | hr
  · exact (List.nodup_cons.1 hnd).1 hk
  · exact h.idle k (List.mem_cons_of_mem _ hk) hf hr

/-- At the start of the loop no message that it retries has a timer. -/
theorem start {ts : List Timer} (ht : Timely (stores w.toServer)) (hC : Retriable i ts m₀ full)
    (hts : (retried w.app.timers).Sublist (retried ts)) : Ringing m₀ full m₀.messages.keys w :=
  ⟨ht, List.suffix_rfl, fun n _ hf hr => hC.idle n hf (hts.subset hr)⟩

end Ringing

/-- The message that goes when `msg` is out of retries is `msg` itself. -/
theorem Retriable.drops_itself {full : List Int → Prop} {P : Prop} {m₀ m : MessageManager} {ts : List Timer}
    (h : Retriable i ts m₀ full) (hf : m₀.Rings full msg.sequenceId) (hwf : m.WF)
    (hs : Scanned P (msg.sequenceId :: l) m₀ m) (hheld : m.messages[msg.sequenceId]? = some msg)
    (hout : Exhausted i msg) {k : Int} (hk : m.sequenceIdMap[msg.fcmMessageId]? = some k) : k = msg.sequenceId := by
  have hheld₀ := hs.left _ (List.mem_cons_self ..) msg hheld
  obtain ⟨msg', hmsg', hid⟩ := hwf.index hk
  obtain ⟨old, hold, hfixed, -⟩ := hs.within _ _ hmsg'
  exact h.alone _ msg hf hheld₀ hout k old hold ((congrArg (·.fcmMessageId) hfixed).symm.trans hid)

/-- What `resendAllPendingDownstreamMessages` does with a message, if none that it retries has a timer. -/
theorem wp_resendDownstream_ringing (h₀ : Base cfg (books w₀) .none) {P : Prop}
    (hC : Retriable i w₀.app.timers w₀.app.fcmMsgManager w₀.app.fcmMsgManager.Full)
    (hI : Uploading i w₀ P (msg.sequenceId :: l) w)
    (hT : Ringing w₀.app.fcmMsgManager w₀.app.fcmMsgManager.Full (msg.sequenceId :: l) w)
    (hheld : w.app.fcmMsgManager.messages[msg.sequenceId]? = some msg) :
    Wp (i.env.Rest fs)
      (if msg.type = .downstream then do
        let rcode ← askFcm (·.canSendMessageOnReconnect msg)
        if rcode = 0 then uploadToFcm msg
        else if rcode = 2 then retryDownstreamWithExponentialBackoff msg
      else pure ())
      (fun _ => Ringing w₀.app.fcmMsgManager w₀.app.fcmMsgManager.Full l)
      (fun _ w' => Timely (stores w'.toServer)) w := by
  have hwf := (hI.reached.base h₀).1.fcm
  have hpend := ((hI.reached.base h₀).1.fcmHeld hheld).pending
  split
  · obtain ⟨c, hc, hcase⟩ := MessageManager.canSendMessageOnReconnect_eq hwf hheld rfl rfl hpend
    refine Wp.bind (wp_askFcm (fun rc hrc => ?_) fun _ _ => hT.timely)
    rw [hc] at hrc
    cases hrc
    rcases hcase with ⟨rfl, -⟩ | ⟨rfl, count⟩ | ⟨rfl, -⟩
    · exact (holds_frame.uploadToFcm (Env.Rest.closed _ _)).wp (fun _ _ h => hT.skip.holds h)
        fun _ _ h => hT.timely.holding h
    · obtain ⟨done, hdone⟩ := hT.rest
      have hf : w₀.app.fcmMsgManager.Rings w₀.app.fcmMsgManager.Full msg.sequenceId := ⟨done, l, hdone.symm, Nat.le_trans count hI.count⟩
      have hidle := hT.idle _ (List.mem_cons_self ..) hf
      refine (wp_retryDown_armed hwf hT.timely hidle hheld fun hout k hk => ?_).mono
        (fun _ _ h => hT.armed h) fun _ _ h => h.1
      rw [hC.drops_itself hf hwf hI.scanned hheld hout hk]
      exact hidle
    · exact Wp.pure hT.skip
  · exact Wp.pure hT.skip

theorem wp_handleFcmSessionEstablished_timely (h₀ : Base cfg (books w₀) .none) (est : Establishes i)
    (hr : Reached i w₀ w .none) (fcm : (books w).fcm = (books w₀).fcm)
    (writable : (books w).writable = (books w₀).writable) (ht : Timely (stores w.toServer))
    (htimers : w.app.timers = w₀.app.timers) (hC : Untimed w₀.toServer i) :
    Wp (i.env.Rest fs) handleFcmSessionEstablished (fun _ w' => Timely (stores w'.toServer))
      (fun _ w' => Timely (stores w'.toServer)) w := by
  unfold handleFcmSessionEstablished resendAllPendingDownstreamMessages
  refine Wp.bind (wp_record fun w₁ h₁ => ?_)
  have hr₁ : Reached i w₀ w₁ .none := by unfold Reached; rw [h₁]; exact hr.act (.record rfl (Or.inl ⟨rfl, est⟩))
  have hf₁ : (books w₁).fcm = (books w₀).fcm := by rw [h₁]; exact fcm
  have ht₁ : Timely (books w₁).toStores := by rw [h₁]; exact ht
  have hts₁ : w₁.app.timers = w₀.app.timers := by rw [← books_timers w₁, h₁]; exact htimers
  refine (wp_forEachMessage (I := fun l w' => Uploading i w₀ (maxPendingMessages ≤ (books w₀).fcm.pendingAckCount →
    Patient i (books w₀).fcm) l w' ∧ Ringing (books w₀).fcm (books w₀).fcm.Full l w')
    (X := fun _ w' => Timely (stores w'.toServer)) ?_ ?_ ?_ ?_ ?_).mono (fun _ _ h => h.2.timely) fun _ _ h => h
  · rintro n l w' m msg ⟨hI, hT⟩ hm hheld
    obtain rfl : (books w').fcm = m := Option.some.inj hm
    obtain rfl := (hI.reached.base h₀).1.fcm.key hheld
    exact ((wp_resendDownstream h₀ est hI hheld).and
      (wp_resendDownstream_ringing h₀ (hC.established est) hI hT hheld)).mono (fun _ _ h => h) fun _ _ h => h.2
  · rintro n l w' ⟨hI, hT⟩; exact ⟨hI.skip, hT.skip⟩
  · intro l w' h; exact h.2.timely
  · intro h; cases h
  · intro m h
    obtain rfl : (books w₁).fcm = m := Option.some.inj h
    refine ⟨Uploading.start hr₁ hf₁ (by rw [h₁]; exact writable), ?_⟩
    rw [hf₁]
    exact .start ht₁ (hC.established est) (by rw [hts₁])

/-- The delayed resend of `sid` with the keys `l` left: it counts each new message of `m₀` at most once. -/
structure RingingUp (sid : SessionId) (m₀ : MessageManager) (l : List Int) (w : World) : Prop
    extends Ringing m₀ m₀.Filled l w where
  count : ∃ done m, done ++ l = m₀.messages.keys ∧ w.app.balManager sid = some m ∧
    m.pendingAckCount ≤ m₀.pendingAckCount + done.countP m₀.isNew

section
variable {m₀ m : MessageManager}

/-- The session's queue counts as many messages as before the loop came to `n`, or one more if `n` is new. -/
theorem RingingUp.count_next {n : Int} {w' : World} {m' : MessageManager} (h : RingingUp sid m₀ (n :: l) w)
    (hm : w.app.balManager sid = some m) (hm' : w'.app.balManager sid = some m')
    (hle : m'.pendingAckCount ≤ m.pendingAckCount + if m₀.isNew n then 1 else 0) :
    ∃ done m, done ++ l = m₀.messages.keys ∧ w'.app.balManager sid = some m ∧
      m.pendingAckCount ≤ m₀.pendingAckCount + done.countP m₀.isNew := by
  obtain ⟨done, m₁, hdone, hm₁, hc⟩ := h.count
  rw [hm] at hm₁
  cases hm₁
  refine ⟨done ++ [n], m', by rw [← hdone]; simp, hm', ?_⟩
  rw [List.countP_append, List.countP_singleton]
  omega

theorem RingingUp.skip {n : Int} (h : RingingUp sid m₀ (n :: l) w) : RingingUp sid m₀ l w := by
  obtain ⟨done, m, -, hm, -⟩ := h.count
  exact ⟨h.toRinging.skip, h.count_next hm hm (by omega)⟩

theorem RingingUp.holds {w' : World} (h : RingingUp sid m₀ l w) (h' : Holds w w')
    (hm : w'.app.balManager sid = w.app.balManager sid) : RingingUp sid m₀ l w' :=
  ⟨h.toRinging.holds h', by rw [hm]; exact h.count⟩

theorem stores_preorder : IsPreorder World fun w w' => stores w'.toServer = stores w.toServer where
  refl _ := rfl
  trans _ _ _ h h' := h'.trans h

/-- Forwarding changes no store. -/
theorem wp_forwardMsg_stores {w : World} :
    Wp (i.env.Rest fs) (forwardMsg sid msg) (fun _ w' => stores w'.toServer = stores w.toServer)
      (fun _ w' => stores w'.toServer = stores w.toServer) w :=
  have := stores_preorder
  keeps_forwardMsg (R := fun w w' => stores w'.toServer = stores w.toServer) (Env.Rest.closed _ _)
    (fun _ _ => rfl) w

theorem holds_of_stores {w w' : World} (h : stores w'.toServer = stores w.toServer) : Holds w w' :=
  Holding.mk_same (congrArg Stores.timers h) (congrArg Stores.fcm h) (congrArg Stores.bal h)

/-- The delayed resend of one message while the window is not full. -/
theorem wp_resend_ringing (hT : RingingUp sid m₀ (msg.sequenceId :: l) w) (hm : w.app.balManager sid = some m)
    (hm₀ : m₀.messages[msg.sequenceId]? = some msg) (hpend : msg.state.pending = true) :
    Wp (i.env.Rest fs)
      (do if msg.state ≠ .pendingAck then
            updateMsgState msg .pendingAck
            modifyBal sid (·.incrementPendingAckCount)
          forwardMsg sid msg)
      (fun _ => RingingUp sid m₀ l) (fun _ w' => Timely (stores w'.toServer)) w := by
  have hsend : ∀ {w' : World} fs', RingingUp sid m₀ l w' →
      Wp (i.env.Rest fs') (forwardMsg sid msg) (fun _ => RingingUp sid m₀ l)
        (fun _ w' => Timely (stores w'.toServer)) w' := fun fs' hT' =>
    wp_forwardMsg_stores.mono (fun _ _ h => hT'.holds (holds_of_stores h) (congrFun (congrArg Stores.bal h) sid))
      fun _ _ h => hT'.timely.holding (holds_of_stores h)
  have hm : (books w).bal sid = some m := hm
  by_cases hst : msg.state ≠ .pendingAck
  · rw [if_pos hst]
    -- the message is new, so the loop counts it as it marks it
    have hnew : m₀.isNew msg.sequenceId = true := by
      have hs : msg.state = .new := by
        cases h : msg.state with
        | new => rfl
        | pendingAck => exact absurd h hst
        | _ => rw [h] at hpend; cases hpend
      unfold MessageManager.isNew
      rw [hm₀]
      simp [hs]
    refine wp_updateMsgState (fun w₁ h₁ => ?_) fun _ _ => hT.timely
    have hm₁ : (books w₁).bal sid = some m := by rw [h₁]; exact hm
    refine Wp.bind (wp_modifyBal hm₁ fun w₂ h₂ => hsend _ ⟨hT.toRinging.skip.holds ?_, ?_⟩)
    · show Holding (books w).toStores (books w₂).toStores
      rw [h₂, h₁]
      refine ⟨List.Sublist.refl _, fun _ h => h, fun s m₁ hs => ?_⟩
      rw [Books.setBal_bal]
      by_cases he : s = sid
      · rw [if_pos he]
        rw [he, hm] at hs
        cases hs
        exact ⟨_, rfl, fun _ h => h⟩
      · rw [if_neg he]; exact ⟨m₁, hs, fun _ h => h⟩
    · exact hT.count_next hm (bal_of_setBal h₂) (by rw [if_pos hnew]; exact Nat.le_refl _)
  · rw [if_neg hst]
    exact hsend _ hT.skip

/-- What the delayed resend does with a message, if none of the queue has a timer. -/
theorem wp_resendUpstream_ringing (h₀ : Base cfg (books w₀) .none) {ts : List Timer}
    (hC : Retriable i ts m₀ m₀.Filled)
    (hI : Resending i w₀ sid m₀ (msg.sequenceId :: l) w) (hT : RingingUp sid m₀ (msg.sequenceId :: l) w)
    (hm : (books w).bal sid = some m) (hheld : m.messages[msg.sequenceId]? = some msg) :
    Wp (i.env.Rest fs)
      (if msg.type.balBound then do
        let rcode ← askBal sid (·.canSendMessageOnReconnect msg)
        if rcode = 0 then
          if msg.state ≠ .pendingAck then
            updateMsgState msg .pendingAck
            modifyBal sid (·.incrementPendingAckCount)
          forwardMsg sid msg
        else if rcode = 2 then retryUpstreamWithExponentialBackoff sid msg
        else if rcode = 3 then return
        else onBal sid (removeMessage msg.sequenceId)
      else pure ())
      (fun _ => RingingUp sid m₀ l) (fun _ w' => Timely (stores w'.toServer)) w := by
  obtain ⟨hr, hnd, m', hm', hs⟩ := hI
  rw [hm] at hm'
  cases hm'
  have hwf := (hr.base h₀).1.bal hm
  have hheld₀ := (hr.base h₀).1.balHeld hm hheld
  split
  · obtain ⟨c, hc, hcase⟩ := MessageManager.canSendMessageOnReconnect_eq hwf hheld rfl rfl hheld₀.pending
    refine Wp.bind (wp_askBal hm (fun rc hrc => ?_) fun _ _ => hT.timely)
    rw [hc] at hrc
    cases hrc
    rcases hcase with ⟨rfl, -⟩ | ⟨rfl, full⟩ | ⟨rfl, -⟩
    · exact wp_resend_ringing hT hm (hs.left _ (List.mem_cons_self ..) msg hheld) hheld₀.pending
    · obtain ⟨done, m', hdone, hm', hcount⟩ := hT.count
      rw [show w.app.balManager sid = some m from hm] at hm'
      cases hm'
      -- the window is full, so the loop comes to the message as one that it retries
      have hf : m₀.Rings m₀.Filled msg.sequenceId := ⟨done, l, hdone.symm, Nat.le_trans full hcount⟩
      have hidle := hT.idle _ (List.mem_cons_self ..) hf
      refine (wp_retryUp_armed hm hwf hT.timely hidle hheld hheld₀.target fun hout k hk => ?_).mono
        (fun _ w' h => ⟨hT.toRinging.armed h.1, ?_⟩) fun _ _ h => h.1
      · rw [hC.drops_itself hf hwf hs hheld hout hk]
        exact hidle
      · obtain ⟨m', hm', hle⟩ := h.2
        exact hT.count_next hm hm' (by omega)
    · exact Wp.pure hT.skip
  · exact Wp.pure hT.skip

end

theorem wp_resendPendingUpstreamMessages_timely (h₀ : Base cfg (books w₀) .none)
    (hexp : Expires i (books w₀).toStores (.resend sid)) (hr : Reached i w₀ w .none)
    (hbal : (books w).bal = (books w₀).bal) (ht : Timely (stores w.toServer))
    (htimers : (retried w.app.timers).Sublist (retried w₀.app.timers)) (hC : Untimed w₀.toServer i) :
    Wp (i.env.Rest fs) (resendPendingUpstreamMessages sid) (fun _ w' => Timely (stores w'.toServer))
      (fun _ w' => Timely (stores w'.toServer)) w := by
  cases hm₀ : (books w₀).bal sid with
  | none =>
    have hnone : w.app.balManager sid = none := by rw [← books_bal, hbal]; exact hm₀
    unfold resendPendingUpstreamMessages forEachMessage
    refine Wp.bind (Wp.read ?_)
    simp only [hnone]
    exact Wp.pure ht
  | some m₀ =>
    refine (wp_forEachMessage (I := fun l w' => Resending i w₀ sid m₀ l w' ∧ RingingUp sid m₀ l w')
      (X := fun _ w' => Timely (stores w'.toServer)) ?_ ?_ ?_ ?_ ?_).mono (fun _ _ h => h.2.timely) fun _ _ h => h
    · rintro n l w' m msg ⟨hI, hT⟩ hm hheld
      have hm : (books w').bal sid = some m := hm
      obtain rfl := ((hI.reached.base h₀).1.bal hm).key hheld
      exact ((wp_resendUpstream h₀ hexp hm₀ hI hm hheld).and
        (wp_resendUpstream_ringing h₀ (hC.resend sid m₀ hexp hm₀) hI hT hm hheld)).mono (fun _ _ h => h)
        fun _ _ h => h.2
    · rintro n l w' ⟨hI, hT⟩; exact ⟨hI.skip, hT.skip⟩
    · intro l w' h; exact h.2.timely
    · intro h
      have hnone : (books w).bal sid = none := h
      rw [hbal, hm₀] at hnone; cases hnone
    · intro m h
      have hm : (books w).bal sid = some m := h
      rw [hbal, hm₀] at hm
      cases hm
      exact ⟨.start hr hm₀ hbal, .start ht (hC.resend sid m₀ hexp hm₀) htimers, [], m₀, rfl, h, Nat.le_refl _⟩

/-! ## Steps -/

theorem keeps_timely {α : Type} {E : Env → Prop} {x : Handler α} (h : Keeps E Holds x)
    (ht : Timely (stores w.toServer)) :
    Wp E x (fun _ w' => Timely (stores w'.toServer)) (fun _ w' => Timely (stores w'.toServer)) w :=
  h.wp (fun _ _ h => ht.holding h) fun _ _ h => ht.holding h

theorem wp_expire_timely (h₀ : Base cfg (books w₀) .none) {t : Timer} (hexp : Expires i (books w₀).toStores t)
    (hr : Reached i w₀ w .none) (hbal : (books w).bal = (books w₀).bal) (ht : Timely (stores w.toServer))
    (htimers : (retried w.app.timers).Sublist (retried w₀.app.timers)) (hC : Untimed w₀.toServer i) :
    Wp (i.env.Rest fs) (expire t) (fun _ w' => Timely (stores w'.toServer))
      (fun _ w' => Timely (stores w'.toServer)) w := by
  have hE := Env.Rest.closed i.env fs
  cases t with
  | retryDownstream msg => exact keeps_timely (holds_frame.expire_retryDownstream hE) ht
  | retryUpstream msg => exact keeps_timely (holds_frame.expire_retryUpstream hE) ht
  | resend sid => exact wp_resendPendingUpstreamMessages_timely h₀ hexp hr hbal ht htimers hC
  | authentication sock => exact keeps_timely holds_connections.handleBalAuthenticationTimeout ht
  | reconnect n => exact Wp.pure ht
  | deleteSocket sock => exact keeps_timely holds_connections.expire_deleteSocket ht

/-- The handler of every event keeps the timers timely, if no message that it settles or retries has one. -/
theorem wp_handle_timely (h₀ : Base cfg (books w) .none) (ht : Timely (stores w.toServer))
    (hC : Untimed w.toServer i) :
    Wp (i.env.Rest i.env.faults) (handle i.event) (fun _ w' => Timely (stores w'.toServer))
      (fun _ w' => Timely (stores w'.toServer)) w := by
  have hE := Env.Rest.closed i.env i.env.faults
  have hr : Reached i w w .none := .start
  cases he : i.event with
  | newBALConnection descriptor => exact keeps_timely holds_connections.handleNewBALConnection ht
  | balFrame sock doc =>
    refine Wp.bind (Wp.read ?_)
    split
    · rename_i s hs
      split
      · refine wp_guarded ?_
        unfold handleBALmsg
        dsimp only
        split
        · exact keeps_timely (holds_connections.handleBalLogonRequest hE) ht
        · split
          · exact keeps_timely (holds_frame.handleBalDownstreamUploadRequest hE fun _ _ _ _ _ => .mk_same rfl rfl rfl) ht
          · split
            · rename_i hack
              exact wp_handleBalAckMsg_timely h₀ ht fun m msg hm hmsg =>
                hC.acked sock doc s m msg he hs hack hm hmsg
            · exact Wp.throw ht
      · exact Wp.pure ht
    · exact Wp.pure ht
  | balDisconnected sock => exact keeps_timely holds_connections.disconnectSocket ht
  | fcmUpstream doc => exact keeps_timely (holds_frame.handleFcmNewUpstreamMessage hE) ht
  | fcmAck doc => exact wp_handleFcmAckMessage_timely h₀ ht he hC
  | fcmNack doc => exact wp_handleFcmNackMessage_timely h₀ ht he hC
  | fcmReceipt doc => exact keeps_timely (holds_frame.handleFcmReceiptMessage hE) ht
  -- the loops over the queues are the two places where many messages are retried at once
  | fcmSessionEstablished n =>
    refine Wp.bind (wp_mapApp hr rfl rfl rfl (fun _ ht => Or.inl ht) fun w₁ h₁ hr₁ => wp_guarded ?_)
    have hh₁ : Holds w w₁ := by rw [h₁]; exact .mk_same rfl rfl rfl
    exact wp_handleFcmSessionEstablished_timely h₀ ⟨n, he⟩ hr₁ (by rw [h₁]; rfl) (by rw [h₁]; rfl) (ht.holding hh₁)
      (by rw [h₁]; rfl) hC
  | fcmConnectionDrainingStarted n =>
    exact keeps_timely (Keeps.bind holds_connections.onFcmConnection fun _ =>
      keeps_guarded holds_connections.handleFcmConnectionDrainingStarted) ht
  | fcmDisconnected n => exact keeps_timely (holds_connections.handleDisconnected hE) ht
  | timer k =>
    refine Wp.bind (Wp.read ?_)
    split
    · rename_i t hk
      refine Wp.bind (wp_mapApp hr rfl rfl rfl (fun t' ht' => Or.inl (List.mem_of_mem_eraseIdx ht')) fun w₁ h₁ hr₁ => ?_)
      have hh₁ : Holds w w₁ := by
        rw [h₁]
        exact ⟨(List.eraseIdx_sublist _ k).filter _, fun _ h => h, fun sid m hm => ⟨m, hm, fun _ h => h⟩⟩
      exact wp_expire_timely h₀ ⟨k, he, hk⟩ hr₁ (by rw [h₁]; rfl) (ht.holding hh₁) hh₁.retried hC
    · exact Wp.pure ht
  | restart => exact Wp.throw ht

theorem timely_start {b : Stores} (h : b.timers = []) : Timely b := by
  refine ⟨?_, fun msg hm => ?_, fun msg hm => ?_⟩
  · rw [h]; exact List.nodup_nil
  · rw [h] at hm; cases hm
  · rw [h] at hm; cases hm

theorem step_timely (h₀ : Base cfg (books w) .none) (ht : Timely (stores w.toServer)) (hC : Untimed w.toServer i) :
    Timely (stores (step cfg w i).toServer) := by
  rcases @step_cases cfg _ _ _ _ _ (Env.Rest.refl i.env) (wp_handle_timely h₀ ht hC) with
    ⟨-, w', hw', he⟩ | ⟨-, _, w', env, -, he⟩
  · rw [he]; exact Timely.holding hw' (holds_connections.destroyConns w')
  · rw [he]; exact timely_start rfl

/-- The message of a timely timer is pending when the timer fires. -/
theorem Timely.firesHeld (h₀ : Base cfg (books w) .none) (ht : Timely (stores w.toServer)) :
    FiresHeld (stores w.toServer) i := by
  constructor
  · rintro msg ⟨k, -, hk⟩
    obtain ⟨held, h1, h2⟩ := ht.down msg (List.mem_of_getElem? hk)
    exact ⟨held, h1, h2, (h₀.fcmHeld h1).pending⟩
  · rintro msg ⟨k, -, hk⟩
    obtain ⟨m, hm, held, h1, h2⟩ := ht.up msg (List.mem_of_getElem? hk)
    exact ⟨m, held, hm, h1, h2, (h₀.balHeld hm h1).pending⟩

theorem along_timely (is : List Input) (h₀ : Base cfg (books w) .none) (ht : Timely (stores w.toServer))
    (hC : Run.Along (step cfg) (fun w i => Untimed w.toServer i) w is) :
    Run.Along (step cfg)
      (fun w i => FiresHeld (stores w.toServer) i ∧ Timely (stores (step cfg w i).toServer)) w is := by
  induction is generalizing w with
  | nil => trivial
  | cons i is ih =>
    have hstep := step_timely h₀ ht hC.1
    exact ⟨⟨ht.firesHeld h₀, hstep⟩, ih (step_base h₀ i) hstep hC.2⟩

/-! ## Events that settle and retry nothing -/

/-- Without retry timers only the loops can retry a message twice. -/
theorem untimed_idle {s : Server} {event : Event} (h : retried s.app.timers = [])
    (est : ∀ n, event ≠ .fcmSessionEstablished n) (exp : ∀ k, event ≠ .timer k) : Untimed s (.quiet event) := by
  constructor
  · intro msg st _; rw [h]; simp
  · intro msg _; rw [h]; simp
  · intro sock doc socket m msg _ _ _ _ _; rw [h]; simp
  · rintro ⟨n, he⟩; exact absurd he (est n)
  · rintro sid m ⟨k, he, -⟩ _; exact absurd he (exp k)

/-- The expiry of a retry timer settles and retries nothing. -/
theorem untimed_fires {s : Server} {k : Nat} (h : (s.app.timers[k]?).any (·.isRetry) = true) :
    Untimed s (.quiet (.timer k)) := by
  constructor
  · rintro msg st ⟨mid, he, -⟩; cases he
  · rintro msg ⟨mid, he, -⟩; cases he
  · intro sock doc socket m msg he; cases he
  · rintro ⟨n, he⟩; cases he
  · rintro sid m ⟨k', he, hk'⟩ _
    cases he
    rw [show s.app.timers[k]? = some (.resend sid) from hk'] at h
    cases h

end

/-- In every run in which no event settles or retries a message whose timer is outstanding, no message ever
has two retry timers, and whenever one fires its message is in its queue, new or pending an ack. -/
theorem retry_timers_follow (cfg : List SessionId) (env : Env) (db : Database) (is : List Input)
    (huntimed : Run.Along (step cfg) (fun w i => Untimed w.toServer i) (boot cfg env db) is) :
    Run.Along (step cfg) (fun w i => FiresHeld (stores w.toServer) i ∧ Timely (stores (step cfg w i).toServer))
      (boot cfg env db) is :=
  along_timely is (boot_base cfg env db) (timely_start rfl) huntimed

/-- A message is nacked, uploaded again by its timer, and acked. -/
def uploadedAgain : List Input :=
  loggedOn "bal" ++ [.quiet (.balFrame 0 (balDownstream "a" "")), .quiet (.fcmNack (fcmNack "a" "SERVICE_UNAVAILABLE")),
    .quiet (.timer 1), .quiet (.fcmAck (fcmAck "a"))]

theorem retry_timers_again : Run.Along (step ["bal"])
    (fun w i => FiresHeld (stores w.toServer) i ∧ Timely (stores (step ["bal"] w i).toServer))
    (boot ["bal"] .quiet .empty) uploadedAgain := by
  have hidle : ∀ (w : World) (e : Event), (retried w.app.timers).isEmpty = true →
      (∀ n, e ≠ .fcmSessionEstablished n) → (∀ k, e ≠ .timer k) → Untimed w.toServer (.quiet e) :=
    fun w e h => untimed_idle (List.isEmpty_iff.1 h)
  refine retry_timers_follow ["bal"] .quiet .empty uploadedAgain ⟨?_, ?_, ?_, ?_, ?_, ?_, trivial⟩
  · exact hidle _ _ (by decide +kernel) (fun _ h => by cases h) (fun _ h => by cases h)
  · exact hidle _ _ (by decide +kernel) (fun _ h => by cases h) (fun _ h => by cases h)
  · exact hidle _ _ (by decide +kernel) (fun _ h => by cases h) (fun _ h => by cases h)
  · exact hidle _ _ (by decide +kernel) (fun _ h => by cases h) (fun _ h => by cases h)
  · exact untimed_fires (by decide +kernel)
  · exact hidle _ _ (by decide +kernel) (fun _ h => by cases h) (fun _ h => by cases h)

/-- A message is nacked twice. -/
def nackedTwice : List Input :=
  loggedOn "bal" ++ [.quiet (.balFrame 0 (balDownstream "a" "")), .quiet (.fcmNack (fcmNack "a" "SERVICE_UNAVAILABLE")),
    .quiet (.fcmNack (fcmNack "a" "SERVICE_UNAVAILABLE"))]

/-- The second nack starts a second timer, and after the ack the first one uploads a message that is gone. -/
theorem retry_timers_stray :
    ¬ Timely (stores (run ["bal"] (boot ["bal"] .quiet .empty) nackedTwice).toServer) ∧
      ¬ FiresHeld (stores (run ["bal"] (boot ["bal"] .quiet .empty)
        (nackedTwice ++ [.quiet (.fcmAck (fcmAck "a"))])).toServer) (.quiet (.timer 1)) := by
  constructor
  · intro h
    have htwo : retried (run ["bal"] (boot ["bal"] .quiet .empty) nackedTwice).app.timers = [1, 1] := by
      decide +kernel
    have hdup : ¬ ([1, 1] : List Int).Nodup := by decide
    exact hdup (htwo ▸ h.once)
  · generalize hend : run ["bal"] (boot ["bal"] .quiet .empty) (nackedTwice ++ [.quiet (.fcmAck (fcmAck "a"))]) = w
    have hempty : w.app.fcmMsgManager.messages.isEmpty = true := by rw [← hend]; decide +kernel
    have hbal : (w.app.balManager fcmSessionId).isNone = true := by rw [← hend]; decide +kernel
    have htarget : ((w.app.timers[1]?).bind Timer.retries).map (·.targetSessionId) = some fcmSessionId := by
      rw [← hend]; decide +kernel
    intro h
    cases ht : w.app.timers[1]? with
    | none => rw [ht] at htarget; cases htarget
    | some t =>
      rw [ht] at htarget
      cases t with
      | retryDownstream msg =>
        obtain ⟨held, hheld, -⟩ := h.down msg ⟨1, rfl, ht⟩
        have hheld : w.app.fcmMsgManager.messages[msg.sequenceId]? = some held := hheld
        rw [ExtTreeMap.isEmpty_iff.1 hempty, ExtTreeMap.getElem?_empty] at hheld
        cases hheld
      | retryUpstream msg =>
        -- no session is named as the target of the timer's message
        obtain ⟨m, held, hm, -⟩ := h.up msg ⟨1, rfl, ht⟩
        have hm : w.app.balManager msg.targetSessionId = some m := hm
        rw [show msg.targetSessionId = fcmSessionId from Option.some.inj htarget, Option.isNone_iff_eq_none.1 hbal] at hm
        cases hm
      | _ => cases htarget

end Gimmm
