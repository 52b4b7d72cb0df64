/-
How the functions of a handler stop. No group queue is ever empty when they look for its first message, and no
session is authenticated without a socket when they write to it: so they stop only with exceptions, unless the
process is killed under them, and the `catch` of a handler sees those.
-/
import Gimmm.Guarantees.Walks

namespace Gimmm

open Std Prog
open MessageManager (ask removeFromGroups removeMessage removeMessageWithFcmMsgId)

/-! ## The managers -/

/-- A `catch` sees how it ends, if it does not return. -/
def Catchable {α : Type} (r : Except Stop α) : Prop := ∀ e, r = .error e → e.catchable = true

theorem Catchable.ok {α : Type} (a : α) : Catchable (.ok a) := fun _ h => by cases h

theorem Catchable.exception {α : Type} (what : String) : Catchable (.error (.exception what) : Except Stop α) := by
  rintro e ⟨⟩
  rfl

theorem Catchable.bind {α β : Type} {r : Except Stop α} {f : α → Except Stop β} (hr : Catchable r)
    (hf : ∀ a, r = .ok a → Catchable (f a)) : Catchable (r >>= f) := by
  cases r with
  | ok a => exact hf a rfl
  | error err =>
    rintro e ⟨⟩
    exact hr err rfl

namespace MessageManager

/-- No group queue is empty. -/
def Peopled (m : MessageManager) : Prop :=
  ∀ (g : GroupId) (grp : Group), m.groups[g]? = some grp → ∃ n, n ∈ grp.msgQueue

variable {m : MessageManager}

theorem findMessage_catchable (m : MessageManager) (seqid : Int) : Catchable (m.findMessage seqid) := by
  unfold findMessage
  split
  · exact .ok _
  · exact .exception _

theorem findSequenceId_catchable (m : MessageManager) (mid : FcmMessageId) : Catchable (m.findSequenceId mid) := by
  unfold findSequenceId
  split
  · exact .ok _
  · exact .exception _

theorem findMessageWithFcmMsgId_catchable (m : MessageManager) (mid : FcmMessageId) :
    Catchable (m.findMessageWithFcmMsgId mid) :=
  (m.findSequenceId_catchable mid).bind fun _ _ => m.findMessage_catchable _

theorem findGroup_catchable (m : MessageManager) (gid : GroupId) : Catchable (m.findGroup gid) := by
  unfold findGroup
  split
  · exact .ok _
  · exact .exception _

theorem of_findGroup {gid : GroupId} {grp : Group} (h : m.findGroup gid = .ok grp) : m.groups[gid]? = some grp := by
  unfold findGroup at h
  split at h
  · rename_i grp' hgrp
    rw [hgrp, Except.ok.inj h]
  · cases h

theorem canSend_catchable {grp : Group} (h : ∃ n, n ∈ grp.msgQueue) (msg : Message) : Catchable (grp.canSend msg) := by
  obtain ⟨n, hn⟩ := h
  unfold Group.canSend
  split
  · exact .ok _
  · rename_i hnone
    rw [List.head?_eq_none_iff] at hnone
    have hmem : n ∈ grp.msgQueue.toList := ExtTreeSet.mem_toList.2 hn
    rw [hnone] at hmem
    cases hmem

theorem Peopled.groupRule (h : m.Peopled) (msg : Message) : Catchable (m.groupRule msg) := by
  unfold MessageManager.groupRule
  split
  · refine Catchable.bind (m.findGroup_catchable _) fun grp hgrp => ?_
    refine Catchable.bind (canSend_catchable (h _ grp (of_findGroup hgrp)) msg) fun can _ => ?_
    split
    · exact .ok _
    · exact .ok _
  · exact .ok _

theorem Peopled.canSendMessage (h : m.Peopled) (msg : Message) : Catchable (m.canSendMessage msg) := by
  unfold MessageManager.canSendMessage
  split
  · exact .ok _
  · split
    · exact .ok _
    · exact h.groupRule msg

theorem Peopled.canSendMessageOnReconnect (h : m.Peopled) (msg : Message) :
    Catchable (m.canSendMessageOnReconnect msg) := by
  unfold MessageManager.canSendMessageOnReconnect
  split
  · exact .ok _
  · split
    · exact .ok _
    · exact h.groupRule msg

theorem Peopled.getNext (h : m.Peopled) : Catchable m.getNext := by
  unfold MessageManager.getNext
  induction m.messages.toList with
  | nil => exact .ok _
  | cons p rest ih =>
    refine Catchable.bind (h.canSendMessage p.2) fun rcode _ => ?_
    split
    · exact .ok _
    · exact ih

theorem Peopled.addMessage (h : m.Peopled) (seqid : Int) (msg : Message) : (m.addMessage seqid msg).Peopled := by
  have hadd : ∀ grp : Group, grp.groupId = msg.groupId ∨ (∃ n, n ∈ grp.msgQueue) → ∃ n, n ∈ (grp.add msg).msgQueue := by
    intro grp hgrp
    unfold Group.add
    split
    · exact ⟨msg.sequenceId, ExtTreeSet.mem_insert_self⟩
    · rename_i hne
      exact hgrp.resolve_left fun heq => hne heq.symm
  unfold MessageManager.addMessage addToGroups
  dsimp only
  split
  · split
    · intro g grp hgrp
      rw [ExtTreeMap.getElem?_modify] at hgrp
      split at hgrp
      · obtain ⟨old, hold, rfl⟩ := Option.map_eq_some_iff.1 hgrp
        exact hadd old (Or.inr (h _ old hold))
      · exact h g grp hgrp
    · intro g grp hgrp
      rw [ExtTreeMap.getElem?_insertIfNew] at hgrp
      split at hgrp
      · rw [← Option.some.inj hgrp]
        exact hadd _ (Or.inl rfl)
      · exact h g grp hgrp
  · exact h

/-- `x` keeps every group queue that is there filled, and stops only with an exception. -/
abbrev Careful {α : Type} (x : EStateM Stop MessageManager α) : Prop :=
  Safe Peopled (fun stop => stop.catchable = true) x

theorem careful_ask {α : Type} {f : MessageManager → Except Stop α}
    (h : ∀ m : MessageManager, m.Peopled → Catchable (f m)) :
    Careful (ask f) := by
  intro m hm
  unfold Lands Does ask
  cases hf : f m with
  | ok a => exact hm
  | error e => exact ⟨h m hm e hf, hm⟩

theorem careful_removeFromGroups (gid : GroupId) (seqid : Int) : Careful (removeFromGroups gid seqid) := by
  intro m hm
  unfold removeFromGroups
  split
  · exact hm
  · cases hfind : m.findGroup gid with
    | error e =>
      have hask : ask (·.findGroup gid) m = .error e m := by
        unfold ask
        dsimp only
        rw [hfind]
      refine Does.bind ?_
      unfold Does
      rw [hask]
      exact ⟨m.findGroup_catchable gid e hfind, hm⟩
    | ok grp =>
      refine Does.bind ?_
      unfold Does
      rw [ask_ok hfind]
      -- the queue of the group may be empty between the two writes
      have hother : ∀ (g : GroupId) (grp' : Group), gid ≠ g →
          (m.groups.modify gid fun _ => grp.remove seqid)[g]? = some grp' →
          ∃ n, n ∈ grp'.msgQueue := by
        intro g grp' hne hgrp
        rw [ExtTreeMap.getElem?_modify, if_neg (by rwa [Std.compare_eq_iff_eq])] at hgrp
        exact hm g grp' hgrp
      refine Does.bind (x := modify _) (?_ : Does _ _ _ _)
      split
      · intro g grp' hgrp
        have hgrp : ((m.groups.modify gid fun _ => grp.remove seqid).erase gid)[g]? = some grp' := hgrp
        rw [ExtTreeMap.getElem?_erase] at hgrp
        split at hgrp
        · cases hgrp
        · rename_i hne
          rw [Std.compare_eq_iff_eq] at hne
          exact hother g grp' hne hgrp
      · rename_i hleft
        intro g grp' hgrp
        have hgrp : (m.groups.modify gid fun _ => grp.remove seqid)[g]? = some grp' := hgrp
        by_cases hg : gid = g
        · rw [ExtTreeMap.getElem?_modify, if_pos (Std.compare_eq_iff_eq.2 hg)] at hgrp
          obtain ⟨old, -, rfl⟩ := Option.map_eq_some_iff.1 hgrp
          by_contra hno
          exact hleft (ExtTreeSet.isEmpty_iff.2 (ExtTreeSet.eq_empty_iff_forall_not_mem.2 fun n hn => hno ⟨n, hn⟩))
        · exact hother g grp' hg hgrp

theorem careful_removeMessage (seqid : Int) : Careful (removeMessage seqid) := by
  unfold removeMessage
  refine Safe.bind (careful_ask fun m _ => m.findMessage_catchable seqid) fun msg => ?_
  refine Safe.bind (Safe.modify fun m hm => hm) fun _ => ?_
  refine Safe.bind (careful_removeFromGroups _ _) fun _ => ?_
  refine Safe.bind (Safe.modify fun m hm => hm) fun _ => ?_
  split
  · refine Safe.modify fun m hm => ?_
    unfold decrementPendingAckCount
    split
    · exact hm
    · exact hm
  · exact Safe.pure _

theorem careful_removeMessageWithFcmMsgId (mid : FcmMessageId) : Careful (removeMessageWithFcmMsgId mid) := by
  unfold removeMessageWithFcmMsgId
  exact Safe.bind (careful_ask fun m _ => m.findSequenceId_catchable mid) fun seqid => careful_removeMessage seqid

end MessageManager

open MessageManager

/-! ## Statements -/

/-- What the handlers rely on. -/
structure Fit (app : Application) : Prop where
  fcm : app.fcmMsgManager.Peopled
  bal : ∀ sid m, app.balManager sid = some m → m.Peopled
  live : ∀ sid, (links app).Live sid
  waiting : ∀ (d : Int) (conn : SocketId), app.balSessionMapU[d]? = some conn → ∃ s, app.sockets[conn]? = some s

/-- The application is `app`, and the process is not told to crash. -/
def Still (app : Application) (s : World × Env) : Prop := s.1.app = app ∧ .crash ∉ s.2.faults

/-- The application is fit, and the process is not told to crash. -/
def Unharmed (s : World × Env) : Prop := Fit s.1.app ∧ .crash ∉ s.2.faults

theorem Unharmed.of_still {s s' : World × Env} (h : Unharmed s) (hstill : Still s.1.app s') : Unharmed s' :=
  ⟨hstill.1 ▸ h.1, hstill.2⟩

/-- What stops `x` is caught around it. -/
abbrev Tame {α : Type} (x : Handler α) : Prop := Safe Unharmed (fun stop => stop.catchable = true) x

/-- Nothing stops `x`. -/
abbrev Lasting (x : Handler Unit) : Prop := Safe Unharmed (fun _ => False) x

theorem lasting_guarded {x : Handler Unit} (h : Tame x) : Lasting (guarded x) := fun s hs => (h s hs).caught

section
variable {α : Type} {s : World × Env} {sid : SessionId} {msg : Message}

theorem popFault_unharmed {env : Env} (h : .crash ∉ env.faults) :
    env.popFault.1 ≠ .crash ∧ .crash ∉ env.popFault.2.faults := by
  constructor
  · show env.faults.headD .ok ≠ .crash
    cases hf : env.faults with
    | nil => simp
    | cons f fs =>
      rintro rfl
      exact h (hf ▸ List.mem_cons_self ..)
  · exact fun hmem => h (List.mem_of_mem_tail hmem)

theorem tame_fault {f : Fault → Handler α} (h : ∀ fault, fault ≠ .crash → Tame (f fault)) :
    Tame (decision Env.popFault >>= f) :=
  Safe.decision (P := (· ≠ .crash)) (fun _ _ hs => ⟨(popFault_unharmed hs.2).1, hs.1, (popFault_unharmed hs.2).2⟩) h

/-- A decision that takes no fault. -/
theorem tame_decision {β : Type} {take : Env → β × Env} (htake : ∀ env, (take env).2.faults = env.faults)
    {f : β → Handler α} (h : ∀ b, Tame (f b)) : Tame (decision take >>= f) :=
  Safe.decision (P := fun _ => True) (fun _ env hs => ⟨trivial, hs.1, (htake env).symm ▸ hs.2⟩) fun b _ => h b

theorem tame_throw (what : String) : Tame (throwInvalidArgument what : Handler α) := Safe.throw rfl

theorem tame_update {f : Application → Application} (h : ∀ app, Fit app → Fit (f app)) : Tame (update (.mapApp f)) :=
  Safe.update fun _ _ hs => ⟨h _ hs.1, hs.2⟩

theorem lasting_record (what : Happening) : Lasting (update (.record what)) := Safe.update fun _ _ hs => hs

theorem tame_singleShot (msec : Int) (t : Timer) : Tame (singleShot msec t) := by
  unfold singleShot
  split
  · exact Safe.pure ()
  · exact tame_update fun _ h => ⟨h.fcm, h.bal, h.live, h.waiting⟩

theorem tame_getNextSequenceId : Tame getNextSequenceId := by
  unfold getNextSequenceId
  refine Safe.bind (tame_update fun _ h => ⟨h.fcm, h.bal, h.live, h.waiting⟩) fun _ => ?_
  exact Safe.read fun _ _ hs => hs

theorem tame_onFcm {x : EStateM Stop MessageManager α} (h : Careful x) : Tame (onFcm x) :=
  Safe.onPart (fun _ _ hs => hs.1.fcm) (fun _ _ _ hs hm => ⟨⟨hm, hs.1.bal, hs.1.live, hs.1.waiting⟩, hs.2⟩) h

theorem Fit.putBal {w : World} (h : Fit w.app) {m : MessageManager} (hm : m.Peopled) : Fit (w.putBal sid m).app := by
  refine ⟨h.fcm, fun sid' m' hm' => ?_, fun sid' => ?_, h.waiting⟩
  · have hm' : ((w.app.balSessionMap.modify sid ({ · with msgManager := m }))[sid']?).map (·.msgManager) = some m' :=
      hm'
    rw [ExtTreeMap.getElem?_modify] at hm'
    split at hm'
    · rw [Option.map_map] at hm'
      obtain ⟨sess, -, rfl⟩ := Option.map_eq_some_iff.1 hm'
      exact hm
    · exact h.bal sid' m' hm'
  · rw [links_putBal]
    exact h.live sid'

theorem tame_onBal {x : EStateM Stop MessageManager α} (h : Careful x) : Tame (onBal sid x) := by
  unfold onBal
  refine Safe.read fun w env hs => ?_
  cases hm : w.app.balManager sid with
  | none => exact tame_throw _ _ hs
  | some m =>
    have hpeopled : m.Peopled := hs.1.bal sid m hm
    exact Safe.onPart (fun _ _ _ => hpeopled) (fun _ _ _ hs hm => ⟨hs.1.putBal hm, hs.2⟩) h _ hs

theorem tame_askFcm {f : MessageManager → Except Stop α} (h : ∀ m : MessageManager, m.Peopled → Catchable (f m)) :
    Tame (askFcm f) := tame_onFcm (careful_ask h)

theorem tame_askBal {f : MessageManager → Except Stop α} (h : ∀ m : MessageManager, m.Peopled → Catchable (f m)) :
    Tame (askBal sid f) := tame_onBal (careful_ask h)

theorem tame_modifyFcm {f : MessageManager → MessageManager} (h : ∀ m, m.Peopled → (f m).Peopled) :
    Tame (modifyFcm f) :=
  tame_onFcm (Safe.modify h)

theorem tame_modifyBal {f : MessageManager → MessageManager} (h : ∀ m, m.Peopled → (f m).Peopled) :
    Tame (modifyBal sid f) := tame_onBal (Safe.modify h)

theorem tame_saveMsg (msg : Message) : Tame (saveMsg msg) := by
  unfold saveMsg
  refine tame_fault fun fault hfault => ?_
  cases fault with
  | ok =>
    refine Safe.read fun w env hs => ?_
    cases w.db.insert (.ofMessage msg) with
    | none => exact tame_throw _ _ hs
    | some db => exact hs
  | fail rc => exact tame_throw _
  | crash => exact absurd rfl hfault

theorem tame_updateMsgState (msg : Message) (newState : MessageState) : Tame (updateMsgState msg newState) := by
  unfold updateMsgState
  refine tame_fault fun fault hfault => ?_
  cases fault with
  | ok => exact Safe.update fun _ _ hs => hs
  | fail rc => exact tame_throw _
  | crash => exact absurd rfl hfault

/-- An output changes nothing of the application, and does not stop. -/
theorem output_still (what : Happening) {app : Application} : Safe (Still app) (fun _ => False) (output what) := by
  unfold output
  refine Safe.decision (P := (· ≠ .crash)) (fun w env hs =>
    ⟨(popFault_unharmed hs.2).1, hs.1, (popFault_unharmed hs.2).2⟩)
    fun fault hfault => ?_
  rw [if_neg hfault]
  exact fun s hs => hs

theorem tame_output (what : Happening) : Tame (output what) := fun _ hs =>
  (output_still what _ ⟨rfl, hs.2⟩).weaken fun _ h => hs.of_still h

/-- Writing over the session that is found: the socket of an authenticated one is there. -/
theorem writeMessage_still (hs : Unharmed s) {sess : BALSession} (hsess : s.1.app.balSessionMap[sid]? = some sess)
    (doc : Json) :
    Lands (Still s.1.app) (fun stop => stop.catchable = true) (writeMessage sid sess doc) s := by
  have hstill : Still s.1.app s := ⟨rfl, hs.2⟩
  unfold writeMessage
  split
  · rename_i hauth
    have hsession : (links s.1.app).session sid = some (sess.balConn, .authenticated) := by
      show s.1.app.balSessionMap[sid]?.map _ = _
      rw [hsess, ← hauth]
      rfl
    obtain ⟨sock, socket, hconn, hsock⟩ := hs.1.live sid _ hsession
    have hsock : s.1.app.sockets[sock]? = some socket := hsock
    rw [hconn]
    refine Does.bind (Does.read ?_)
    rw [hsock]
    dsimp only
    split
    · exact (output_still _ _ hstill).weaken fun _ h => h
    · exact ⟨rfl, hstill⟩
  · exact ⟨rfl, hstill⟩

theorem findBalSession_ok {sess : BALSession} (h : s.1.app.balSessionMap[sid]? = some sess) :
    findBalSession sid s = .ok sess s := by
  unfold findBalSession
  refine (bind_ok (x := (Prog.read : Handler World)) rfl).trans ?_
  rw [h]
  rfl

theorem findBalSession_error (h : s.1.app.balSessionMap[sid]? = none) :
    findBalSession sid s = .error (.exception ("ERROR: Unknown BAL session[" ++ sid ++ "]")) s := by
  unfold findBalSession
  refine (bind_ok (x := (Prog.read : Handler World)) rfl).trans ?_
  rw [h]
  rfl

theorem tame_findBalSession {f : BALSession → Handler α}
    (h : ∀ s sess, Unharmed s → s.1.app.balSessionMap[sid]? = some sess →
      Lands Unharmed (fun stop => stop.catchable = true) (f sess) s) :
    Tame (findBalSession sid >>= f) := by
  intro s hs
  refine Does.bind ?_
  unfold Does
  cases hsess : s.1.app.balSessionMap[sid]? with
  | none =>
    rw [findBalSession_error hsess]
    exact ⟨rfl, hs⟩
  | some sess =>
    rw [findBalSession_ok hsess]
    exact h s sess hs hsess

theorem writeMessage_unharmed (hs : Unharmed s) {sess : BALSession} (hsess : s.1.app.balSessionMap[sid]? = some sess)
    (doc : Json) :
    Lands Unharmed (fun stop => stop.catchable = true) (writeMessage sid sess doc) s :=
  (writeMessage_still hs hsess doc).mono (fun _ _ h => hs.of_still h) fun _ _ h => ⟨h.1, hs.of_still h.2⟩

theorem tame_write (doc : Json) : Tame (findBalSession sid >>= fun sess => writeMessage sid sess doc) :=
  tame_findBalSession fun _ _ hs hsess => writeMessage_unharmed hs hsess doc

/-- Forwarding to a configured session changes nothing of the application, and does not stop. -/
theorem forwardMsg_still (hs : Unharmed s) {sess : BALSession} (hsess : s.1.app.balSessionMap[sid]? = some sess)
    (msg : Message) :
    Lands (Still s.1.app) (fun _ => False) (forwardMsg sid msg) s := by
  unfold forwardMsg Lands Does
  rw [bind_ok (findBalSession_ok hsess)]
  split
  · exact ⟨rfl, hs.2⟩
  · exact (writeMessage_still hs hsess msg.payload).caught

theorem tame_forwardMsg (sid : SessionId) (msg : Message) : Tame (forwardMsg sid msg) := by
  unfold forwardMsg
  refine tame_findBalSession fun s sess hs hsess => ?_
  split
  · exact hs
  · exact (writeMessage_still hs hsess msg.payload).caught.weaken fun _ h => hs.of_still h

/-! ## The functions -/

theorem tame_sendNextPendingDownstreamMessage : Tame sendNextPendingDownstreamMessage := by
  unfold sendNextPendingDownstreamMessage
  refine Safe.bind (tame_askFcm fun _ h => h.getNext) fun next => ?_
  split
  · exact tame_output _
  · exact Safe.pure _

theorem tame_sendNextPendingUpstreamMessage : Tame (sendNextPendingUpstreamMessage sid) := by
  unfold sendNextPendingUpstreamMessage
  refine Safe.bind (tame_askBal fun _ h => h.getNext) fun next => ?_
  split
  · exact tame_write _
  · exact Safe.pure _

theorem tame_forwardMsgToBalsession : Tame (forwardMsgToBalsession sid msg) := by
  unfold forwardMsgToBalsession
  refine Safe.bind (tame_onBal (Safe.pure ())) fun _ => ?_
  refine Safe.bind (tame_modifyBal fun m h => h.addMessage _ msg) fun _ => ?_
  refine Safe.bind (tame_askBal fun _ h => h.canSendMessage msg) fun rcode => ?_
  split
  · refine Safe.bind (tame_updateMsgState msg _) fun _ => ?_
    refine Safe.bind (tame_modifyBal fun m h => h) fun _ => ?_
    refine Safe.bind (tame_modifyBal fun m h => h) fun _ => ?_
    exact tame_forwardMsg sid msg
  · exact Safe.pure _

theorem tame_notifyDownstreamUploadFailure : Tame (notifyDownstreamUploadFailure msg) := by
  unfold notifyDownstreamUploadFailure
  refine Safe.weaken (lasting_guarded ?_)
  refine Safe.bind tame_getNextSequenceId fun n => ?_
  refine tame_decision (fun _ => rfl) fun junk => ?_
  exact Safe.bind (tame_saveMsg _) fun _ => tame_write _

theorem tame_retryDownstreamWithExponentialBackoff : Tame (retryDownstreamWithExponentialBackoff msg) := by
  unfold retryDownstreamWithExponentialBackoff
  refine tame_decision (fun _ => rfl) fun d => ?_
  refine Safe.bind (tame_modifyFcm fun m h => h) fun _ => ?_
  dsimp only
  split
  · exact Safe.bind (tame_modifyFcm fun m h => h) fun _ => tame_singleShot _ _
  · refine Safe.bind (tame_updateMsgState msg _) fun _ => ?_
    refine Safe.bind (tame_onFcm (careful_removeMessageWithFcmMsgId _)) fun _ => ?_
    exact tame_notifyDownstreamUploadFailure

theorem lasting_handleFcmNewUpstreamMessage (doc : Json) : Lasting (handleFcmNewUpstreamMessage doc) := by
  unfold handleFcmNewUpstreamMessage
  refine lasting_guarded (Safe.bind tame_getNextSequenceId fun n => ?_)
  refine Safe.bind (tame_saveMsg _) fun _ => ?_
  exact Safe.bind (tame_output _) fun _ => tame_forwardMsgToBalsession

theorem lasting_handleFcmAckMessage (doc : Json) : Lasting (handleFcmAckMessage doc) := by
  unfold handleFcmAckMessage
  refine Safe.bind (lasting_record _) fun _ => lasting_guarded ?_
  refine Safe.bind (tame_askFcm fun m _ => m.findMessageWithFcmMsgId_catchable _) fun msg => ?_
  refine Safe.bind (tame_updateMsgState msg _) fun _ => ?_
  refine Safe.bind (tame_onFcm (careful_removeMessageWithFcmMsgId _)) fun _ => ?_
  refine Safe.bind tame_sendNextPendingDownstreamMessage fun _ => ?_
  refine Safe.bind tame_getNextSequenceId fun n => ?_
  exact Safe.bind (tame_saveMsg _) fun _ => tame_forwardMsgToBalsession

theorem lasting_handleFcmNackMessage (doc : Json) : Lasting (handleFcmNackMessage doc) := by
  unfold handleFcmNackMessage
  refine Safe.bind (lasting_record _) fun _ => lasting_guarded ?_
  refine Safe.bind (tame_askFcm fun m _ => m.findMessageWithFcmMsgId_catchable _) fun msg => ?_
  split
  · exact tame_retryDownstreamWithExponentialBackoff
  · refine Safe.bind (tame_updateMsgState msg _) fun _ => ?_
    refine Safe.bind (tame_onFcm (careful_removeMessageWithFcmMsgId _)) fun _ => ?_
    exact Safe.bind tame_sendNextPendingDownstreamMessage fun _ => tame_notifyDownstreamUploadFailure

theorem lasting_handleFcmReceiptMessage (doc : Json) : Lasting (handleFcmReceiptMessage doc) := by
  unfold handleFcmReceiptMessage
  refine lasting_guarded (Safe.bind tame_getNextSequenceId fun n => ?_)
  refine tame_decision (fun _ => rfl) fun junk => ?_
  exact Safe.bind (tame_saveMsg _) fun _ => tame_forwardMsgToBalsession

theorem tame_handleBalDownstreamUploadRequest (doc : Json) : Tame (handleBalDownstreamUploadRequest sid doc) := by
  unfold handleBalDownstreamUploadRequest
  refine Safe.bind tame_getNextSequenceId fun n => ?_
  refine Safe.bind (tame_saveMsg _) fun _ => ?_
  refine Safe.bind (tame_modifyFcm fun m h => h.addMessage n _) fun _ => ?_
  refine Safe.bind (tame_askFcm fun _ h => h.canSendMessage _) fun rcode => ?_
  split
  · refine Safe.bind (tame_updateMsgState _ _) fun _ => ?_
    refine Safe.bind (tame_modifyFcm fun m h => h) fun _ => ?_
    exact Safe.bind (tame_modifyFcm fun m h => h) fun _ => tame_output _
  · exact Safe.pure _

theorem tame_handleBalAckMsg (seqid : Int) : Tame (handleBalAckMsg sid seqid) := by
  unfold handleBalAckMsg
  refine Safe.weaken (lasting_guarded (Safe.bind (tame_onBal (Safe.pure ())) fun _ => ?_))
  refine Safe.bind (tame_askBal fun m _ => m.findMessage_catchable seqid) fun msg => ?_
  refine Safe.bind (tame_updateMsgState msg _) fun _ => ?_
  exact Safe.bind (tame_onBal (careful_removeMessage seqid)) fun _ => tame_sendNextPendingUpstreamMessage

/-- A session gets the connection of an entry, whose socket is there. -/
theorem Fit.accept {app : Application} (h : Fit app) {conn : SocketId} {socket : Socket}
    (hconn : app.sockets[conn]? = some socket) :
    Fit { app with
      balSessionMap := app.balSessionMap.modify sid ({ · with balConn := some conn, state := .authenticated })
      sockets := app.sockets.modify conn (·.named sid) } := by
  have hsocket : ∀ {c : SocketId} {s : Socket}, app.sockets[c]? = some s →
      ∃ s', (app.sockets.modify conn (·.named sid))[c]? = some s' := by
    intro c s hs
    rw [ExtTreeMap.getElem?_modify]
    split
    · rename_i heq
      rw [Std.compare_eq_iff_eq] at heq
      subst heq
      exact ⟨_, by rw [hs]; rfl⟩
    · exact ⟨s, hs⟩
  refine ⟨h.fcm, fun sid' m hm => ?_, fun sid' conn' hsess => ?_, fun d c hc => ?_⟩
  · have hget : (((app.balSessionMap.modify sid _)[sid']?).map (·.msgManager) : Option MessageManager) = some m := hm
    rw [ExtTreeMap.getElem?_modify] at hget
    split at hget
    · rename_i heq
      rw [Std.compare_eq_iff_eq] at heq
      rw [heq, Option.map_map] at hget
      exact h.bal sid' m hget
    · exact h.bal sid' m hget
  · have hsess : (((app.balSessionMap.modify sid _)[sid']?).map fun sess => (sess.balConn, sess.state)) =
      some (conn', .authenticated) := hsess
    rw [ExtTreeMap.getElem?_modify] at hsess
    split at hsess
    · rw [Option.map_map] at hsess
      obtain ⟨sess, -, hpair⟩ := Option.map_eq_some_iff.1 hsess
      obtain ⟨s', hs'⟩ := hsocket hconn
      exact ⟨conn, s', (Prod.mk.inj hpair).1.symm, hs'⟩
    · obtain ⟨sock, s, hconn', hs⟩ := h.live sid' conn' hsess
      obtain ⟨s', hs'⟩ := hsocket hs
      exact ⟨sock, s', hconn', hs'⟩
  · obtain ⟨s, hs⟩ := h.waiting d c hc
    exact hsocket hs

theorem acceptConn_unharmed (hs : Unharmed s) {conn : SocketId} {socket : Socket}
    (hconn : s.1.app.sockets[conn]? = some socket) :
    Lands Unharmed (fun _ => False) (acceptConn sid conn) s := by
  unfold acceptConn
  exact Does.update ⟨hs.1.accept hconn, hs.2⟩

theorem Fit.erase {app : Application} (h : Fit app) (d : Int) :
    Fit { app with balSessionMapU := app.balSessionMapU.erase d } := by
  refine ⟨h.fcm, h.bal, h.live, fun d' c hc => ?_⟩
  have hc : (app.balSessionMapU.erase d)[d']? = some c := hc
  rw [ExtTreeMap.getElem?_erase] at hc
  split at hc
  · cases hc
  · exact h.waiting d' c hc

theorem tame_handleBalLogonRequest (socket : Socket) : Tame (handleBalLogonRequest socket sid) := by
  unfold handleBalLogonRequest
  refine Safe.read fun w env hs => ?_
  cases hentry : w.app.balSessionMapU[socket.descriptor]? with
  | none => exact hs
  | some conn =>
    -- the entry is erased, the socket of its connection stays
    let I : World × Env → Prop := fun s => Unharmed s ∧ ∃ socket, s.1.app.sockets[conn]? = some socket
    have hdelete : Safe I (fun _ => False) (deleteTimerContext conn) :=
      Safe.update fun _ _ h => ⟨⟨⟨h.1.1.fcm, h.1.1.bal, h.1.1.live, h.1.1.waiting⟩, h.1.2⟩, h.2⟩
    have herase : Safe I (fun _ => False) (eraseUnauthenticated socket.descriptor) :=
      Safe.update fun _ _ h => ⟨⟨h.1.1.erase _, h.1.2⟩, h.2⟩
    refine Does.bind ((hdelete (w, env) ⟨hs, hs.1.waiting _ conn hentry⟩).mono (fun _ s₁ h₁ => ?_) fun _ _ h =>
      h.1.elim)
    refine Does.bind ((herase s₁ h₁).mono ?_ fun _ _ h => h.1.elim)
    rintro - s₂ ⟨hs₂, s, hconn⟩
    refine Does.bind (Does.read ?_)
    split
    · exact hs₂
    · refine Safe.after ((acceptConn_unharmed hs₂ hconn).weaken fun _ h => h) fun _ => ?_
      refine tame_findBalSession fun s₃ sess hs₃ hsess => ?_
      exact Safe.after (writeMessage_unharmed hs₃ hsess _) fun _ => tame_singleShot _ _

theorem tame_handleBALmsg (socket : Socket) (doc : Json) : Tame (handleBALmsg socket doc) := by
  unfold handleBALmsg
  dsimp only
  split
  · exact tame_handleBalLogonRequest socket
  · split
    · exact tame_handleBalDownstreamUploadRequest doc
    · split
      · exact tame_handleBalAckMsg _
      · exact tame_throw _

theorem tame_downstreamLoop (msg : Message) : Tame (downstreamLoop.body msg) := by
  show Tame (if msg.type = .downstream then _ else _)
  split
  · refine Safe.bind (tame_askFcm fun _ h => h.canSendMessageOnReconnect msg) fun rcode => ?_
    split
    · exact tame_output _
    · split
      · exact tame_retryDownstreamWithExponentialBackoff
      · exact Safe.pure _
  · exact Safe.pure _

end

end Gimmm
