/-
A message that can go, but does not. A settlement lets one message go, the first that can be sent; that
is enough as long as it frees no more than one, and none that went before stands before it. A message
that went as the next one stays new, so it can be chosen again in the place of one that never went.
-/
import Gimmm.Flow.Frame
import Gimmm.Guarantees.Once

namespace Gimmm

open Std Prog
open MessageManager (Front Sendable)

/-- Every message of the FCM queue that can be sent has been handed to `sendMessage`. -/
def NoneStranded (w : World) : Prop :=
  ∀ (n : Int) (msg : Message), w.app.fcmMsgManager.messages[n]? = some msg →
    w.app.fcmMsgManager.canSendMessage msg = .ok 0 → 0 < uploads n w.log

/-- A downstream request, an ack or a permanent nack, while nothing fails. -/
structure Traffic (i : Input) : Prop where
  faults : ∀ f ∈ i.env.faults, f = .ok
  event : (∃ sock doc, i.event = .balFrame sock doc ∧
    Json.toString (doc.value gimmmfieldnames.messageType) = "DOWNSTREAM") ∨ i.event.settles ≠ none

/-- If the event settles a message, then of the messages that can be sent without it, one that never went is
the first: no other one that never went is before it, and none that went and is new still. -/
def FreesFirst (w : World) (i : Input) : Prop :=
  ∀ old s, Settles i (stores w.toServer) old s → ∀ (n : Int) (msg : Message),
    (w.app.fcmMsgManager.without old).messages[n]? = some msg →
    (w.app.fcmMsgManager.without old).canSendMessage msg = .ok 0 → uploads n w.log = 0 →
    ∀ (k : Int) (other : Message), (w.app.fcmMsgManager.without old).messages[k]? = some other →
      (w.app.fcmMsgManager.without old).canSendMessage other = .ok 0 → n ≤ k

/-! ## Queues -/

section
variable {m m' : MessageManager} {msg : Message} {n : Int}

theorem MessageManager.WF.canSend_iff (h : m.WF) (hn : m.messages[n]? = some msg) :
    m.canSendMessage msg = .ok 0 ↔ m.Sendable msg := by
  obtain ⟨c, hc, hiff⟩ := MessageManager.canSendMessage_eq h hn (h.key hn) rfl
  rw [hc, ← hiff]
  constructor
  · intro h0; cases h0; rfl
  · intro h0; rw [h0]

/-- What can be sent from a queue can be sent from one with fewer messages, of the same groups, and no more
of them pending an ack. -/
theorem sendable_of_more (hsub : ∀ (k : Int) (msg : Message), m.messages[k]? = some msg →
    ∃ msg', m'.messages[k]? = some msg' ∧ msg'.groupId = msg.groupId) (hcount : m.pendingAckCount ≤ m'.pendingAckCount)
    (h : m'.Sendable msg) : m.Sendable msg := by
  refine ⟨h.1, Nat.lt_of_le_of_lt hcount h.2.1, fun hg k msg₁ hk hgm => ?_⟩
  obtain ⟨msg', hk', hg'⟩ := hsub k msg₁ hk
  exact h.2.2 hg k msg' hk' (hg'.trans hgm)

theorem sendable_of_addMessage {new : Message} (hn : m.messages[n]? = none) (h : (m.addMessage n new).Sendable msg) :
    m.Sendable msg := by
  refine sendable_of_more (fun k msg hk => ⟨msg, ?_, rfl⟩) ?_ h
  · rw [MessageManager.addMessage_getElem? new hn, if_neg, hk]
    rintro rfl; rw [hn] at hk; cases hk
  · rw [MessageManager.addMessage_pendingAckCount]

theorem sendable_of_mark (h : (m.mark n).Sendable msg) : m.Sendable msg := by
  refine sendable_of_more (fun k msg hk => ?_) (Nat.le_succ _) h
  rw [MessageManager.mark_getElem?, hk]
  split
  · exact ⟨_, rfl, rfl⟩
  · exact ⟨_, rfl, rfl⟩

end

/-! ## What leaves the downstream side alone -/

/-- The FCM queue is the same, and the uploads are. -/
structure SameDown (w w' : World) : Prop where
  fcm : w'.app.fcmMsgManager = w.app.fcmMsgManager
  uploads : ∀ n, uploads n w'.log = uploads n w.log

instance : IsPreorder World SameDown where
  refl _ := ⟨rfl, fun _ => rfl⟩
  trans _ _ _ h h' := ⟨h'.fcm.trans h.fcm, fun n => (h'.uploads n).trans (h.uploads n)⟩

theorem sameDown_frame : SessionFrame (fun _ _ => True) SameDown where
  refl _ := trivial
  add _ _ _ := trivial
  touch _ _ _ _ := trivial
  increment _ := trivial
  counter _ _ := ⟨rfl, fun _ => rfl⟩
  insert _ _ _ _ _ := ⟨rfl, fun _ => rfl⟩
  mark _ _ := ⟨rfl, fun _ => rfl⟩
  putBal _ _ _ _ _ _ := ⟨rfl, fun _ => rfl⟩
  balWrite _ _ _ _ := ⟨rfl, fun _ => uploads_cons_quiet (fun _ h => by cases h) _ _⟩

/-- The next message goes: `next` is what `getNext` finds. -/
structure Goes (next : Option Message) (w w' : World) : Prop where
  fcm : w'.app.fcmMsgManager = w.app.fcmMsgManager
  chosen : w.app.fcmMsgManager.getNext = .ok next
  uploads : ∀ n, uploads n w'.log = uploads n w.log + if next.any (·.sequenceId = n) then 1 else 0

section
variable {cfg : List SessionId} {i : Input} {w : World} {fs : List Fault}

theorem uploads_record (msg : Message) (w : World) (n : Int) :
    uploads n (w.record (.upload msg)).log = uploads n w.log + if msg.sequenceId = n then 1 else 0 := by
  show List.countP _ (_ :: w.log) = _
  rw [List.countP_cons]
  simp only [Obs.uploads, decide_eq_true_eq]
  rfl

theorem wp_goes (hwf : w.app.fcmMsgManager.WF) (hquiet : ¬ Bad fs) {X : Stop → World → Prop} :
    Wp (i.env.Rest fs) sendNextPendingDownstreamMessage (fun _ w' => ∃ next, Goes next w w') X w := by
  unfold sendNextPendingDownstreamMessage
  refine Wp.bind (wp_askFcm (fun next hn => ?_) fun e he => ?_)
  · cases next with
    | none => exact Wp.pure ⟨none, rfl, hn, fun n => rfl⟩
    | some msg =>
      refine wp_output (fun w' h' => ⟨some msg, ?_, hn, fun n => ?_⟩) fun hbad => absurd hbad hquiet
      · rw [← books_fcm w', h']; rfl
      · rw [← books_log w', h']; exact (uploads_record msg w n).trans (by simp)
  · rcases MessageManager.getNext_eq hwf with ⟨h, -⟩ | ⟨msg, h, -⟩
    · rw [show (books w).fcm.getNext = _ from h] at he; cases he
    · rw [show (books w).fcm.getNext = _ from h] at he; cases he

/-! ## Settlements -/

/-- The message that `mid` names, if there is one, is settled, and the next one goes. -/
structure SettlesOne (mid : FcmMessageId) (w w' : World) : Prop where
  found : ∀ old, w.app.fcmMsgManager.findMessageWithFcmMsgId mid = .ok old →
    w'.app.fcmMsgManager = w.app.fcmMsgManager.without old ∧
      ∃ next, (w.app.fcmMsgManager.without old).getNext = .ok next ∧
        ∀ n, uploads n w'.log = uploads n w.log + if next.any (·.sequenceId = n) then 1 else 0
  lost : (∀ old, w.app.fcmMsgManager.findMessageWithFcmMsgId mid ≠ .ok old) → SameDown w w'

/-- The settlement of a held message, and a rest that leaves the downstream side alone. -/
theorem wp_settlesOne (hwf : w.app.fcmMsgManager.WF) (hquiet : ¬ Bad fs) {mid : FcmMessageId} {old : Message}
    {s : MessageState} {rest : Handler Unit} (hrest : ∀ fs, Keeps (i.env.Rest fs) SameDown rest)
    (find : w.app.fcmMsgManager.findMessageWithFcmMsgId mid = .ok old) :
    Wp (i.env.Rest fs)
      (do updateMsgState old s
          onFcm (MessageManager.removeMessageWithFcmMsgId mid)
          sendNextPendingDownstreamMessage
          rest)
      (fun _ => SettlesOne mid w) (fun _ => SettlesOne mid w) w := by
  refine wp_updateMsgState (fun w₁ h₁ => ?_) fun hbad => absurd hbad hquiet
  have hf₁ : (books w₁).fcm = (books w).fcm := by rw [h₁]; rfl
  have hl₁ : (books w₁).log = (books w).log := by rw [h₁]; rfl
  have hremove : MessageManager.removeMessageWithFcmMsgId mid (books w).fcm = .ok () ((books w).fcm.without old) :=
    MessageManager.removeMessageWithFcmMsgId_eq hwf find
  refine Wp.bind (wp_onFcm ?_)
  rw [hf₁, hremove]
  intro w₂ h₂
  have hf₂ : w₂.app.fcmMsgManager = w.app.fcmMsgManager.without old := by rw [← books_fcm w₂, h₂]; rfl
  have hl₂ : w₂.log = w.log := by rw [← books_log w₂, h₂]; exact hl₁
  have hwf₂ : w₂.app.fcmMsgManager.WF := by rw [hf₂]; exact hwf.without (hwf.find find).2.1
  have hquiet₂ : ¬ Bad fs.tail := fun hbad => hquiet (hbad.of_suffix (List.tail_suffix fs))
  refine Wp.bind ((wp_goes hwf₂ hquiet₂ (X := fun _ => SettlesOne mid w)).mono (fun _ w₃ h₃ => ?_) fun _ _ h => h)
  obtain ⟨next, hgoes⟩ := h₃
  have hdone : ∀ w', SameDown w₃ w' → SettlesOne mid w w' := by
    intro w' hsame
    refine ⟨fun old' find' => ?_, fun hlost => absurd find (hlost old)⟩
    rw [find] at find'
    cases find'
    refine ⟨by rw [hsame.fcm, hgoes.fcm, hf₂], next, by rw [← hf₂]; exact hgoes.chosen, fun n => ?_⟩
    rw [hsame.uploads, hgoes.uploads, hl₂]
  exact (hrest _).wp (fun _ w' h => hdone w' h) (fun _ w' h => hdone w' h)

theorem SettlesOne.of_lost {mid : FcmMessageId} {e : Stop} {w' : World}
    (he : w.app.fcmMsgManager.findMessageWithFcmMsgId mid = .error e) (h : SameDown w w') : SettlesOne mid w w' :=
  ⟨fun old find => (by rw [he] at find; cases find), fun _ => h⟩

/-- An ack or a permanent nack settles one message. -/
theorem wp_handle_settles (h₀ : Base cfg (books w) .none) {mid : FcmMessageId} {s : MessageState}
    (hs : i.event.settles = some (mid, s)) (hquiet : ¬ Bad i.env.faults) :
    Wp (i.env.Rest i.env.faults) (handle i.event) (fun _ => SettlesOne mid w) (fun _ => SettlesOne mid w) w := by
  have hrec : ∀ {w₁ : World} {what : Happening}, books w₁ = (books w).observe ⟨what, w.toServer⟩ →
      (∀ msg, what ≠ .upload msg) → SameDown w w₁ := fun {w₁ what} h₁ hne =>
    ⟨by rw [← books_fcm w₁, h₁]; rfl, fun n => by
      rw [← books_log w₁, h₁]; exact uploads_cons_quiet (fun msg hm => hne msg hm) n w.log⟩
  -- the record of the event comes before the settlement and changes no queue
  have htrans : ∀ {w₁ w₂ : World}, SameDown w w₁ → SettlesOne mid w₁ w₂ → SettlesOne mid w w₂ := by
    intro w₁ w₂ h₁ h₂
    refine ⟨fun old find => ?_, fun hlost => ?_⟩
    · obtain ⟨h3, next, h4, h5⟩ := h₂.found old (by rw [h₁.fcm]; exact find)
      rw [h₁.fcm] at h3 h4
      exact ⟨h3, next, h4, fun n => by rw [h5, h₁.uploads]⟩
    · exact IsTrans.trans _ _ _ h₁ (h₂.lost fun old => by rw [h₁.fcm]; exact hlost old)
  have hself : ∀ w₁, SameDown w w₁ → ∀ {e : Stop}, (books w₁).fcm.findMessageWithFcmMsgId mid = .error e →
      SettlesOne mid w w₁ := fun w₁ h₁ e he => .of_lost (by rw [← h₁.fcm]; exact he) h₁
  have hwf : ∀ {w₁}, SameDown w w₁ → w₁.app.fcmMsgManager.WF := fun h₁ => by rw [h₁.fcm]; exact h₀.fcm
  unfold Event.settles at hs
  split at hs
  · rename_i doc he
    cases hs
    rw [he]
    show Wp _ (handleFcmAckMessage doc) _ _ w
    unfold handleFcmAckMessage
    refine Wp.bind (wp_record fun w₁ h₁ => wp_guarded ?_)
    have hsame := hrec h₁ (fun msg h => by cases h)
    refine Wp.bind (wp_askFcm (fun old find => ?_) fun e he => hself w₁ hsame he)
    refine (wp_settlesOne (hwf hsame) hquiet (fun fs => ?_) find).mono (fun _ _ h => htrans hsame h)
      fun _ _ h => htrans hsame h
    exact sameDown_frame.notify (Env.Rest.closed _ _) fun n => by simp [Message.new]
  · rename_i doc he
    split at hs
    · cases hs
    · rename_i permanent
      cases hs
      rw [he]
      show Wp _ (handleFcmNackMessage doc) _ _ w
      unfold handleFcmNackMessage
      refine Wp.bind (wp_record fun w₁ h₁ => wp_guarded ?_)
      have hsame := hrec h₁ (fun msg h => by cases h)
      refine Wp.bind (wp_askFcm (fun old find => ?_) fun e he => hself w₁ hsame he)
      rw [if_neg permanent]
      refine (wp_settlesOne (hwf hsame) hquiet (fun fs => ?_) find).mono (fun _ _ h => htrans hsame h)
        fun _ _ h => htrans hsame h
      exact sameDown_frame.notifyDownstreamUploadFailure (Env.Rest.closed _ _)
  · cases hs

/-! ## Requests -/

/-- Whatever was not stranded is not stranded after a request. -/
theorem wp_handleBalDownstreamUploadRequest_none (h₀ : Base cfg (books w) .none) {sid : SessionId} {doc : Json}
    (h : NoneStranded w) (hquiet : ¬ Bad fs) :
    Wp (i.env.Rest fs) (handleBalDownstreamUploadRequest sid doc) (fun _ => NoneStranded) (fun _ => NoneStranded) w := by
  unfold handleBalDownstreamUploadRequest
  dsimp only
  refine wp_getNextSequenceId fun w₁ h₁ => wp_saveMsg ?_ (fun w₂ h₂ => Wp.bind (wp_modifyFcm fun w₃ h₃ => ?_))
    fun hbad => absurd hbad hquiet
  · rw [h₁]; exact h₀.freshRow
  · generalize hmsg : Message.new _ _ _ _ _ _ _ = msg at *
    have hseq : msg.sequenceId = (books w).counter + 1 := by rw [← hmsg]; rfl
    rw [← hseq] at h₃ ⊢
    have hfresh : (books w).fcm.messages[msg.sequenceId]? = none := by rw [hseq]; exact h₀.fresh
    have hf₃ : (books w₃).fcm = (books w).fcm.addMessage msg.sequenceId msg := by rw [h₃, h₂, h₁]; rfl
    have hl₃ : (books w₃).log = (books w).log := by rw [h₃, h₂, h₁]; rfl
    have hwf₃ : (books w₃).fcm.WF := by rw [hf₃]; exact h₀.fcm.addMessage msg hfresh rfl
    have hheld : (books w₃).fcm.messages[msg.sequenceId]? = some msg := by
      rw [hf₃, MessageManager.addMessage_getElem? msg hfresh, if_pos rfl]
    -- a message other than the new one could be sent before the request
    have hold : ∀ (n : Int) (msg₁ : Message), n ≠ msg.sequenceId → (books w₃).fcm.messages[n]? = some msg₁ →
        (books w₃).fcm.Sendable msg₁ → 0 < uploads n w.log := by
      intro n msg₁ hne hn hsend
      rw [hf₃, MessageManager.addMessage_getElem? msg hfresh, if_neg hne] at hn
      rw [hf₃] at hsend
      exact h n msg₁ hn ((h₀.fcm.canSend_iff hn).2 (sendable_of_addMessage hfresh hsend))
    obtain ⟨c, hc, hiff⟩ := MessageManager.canSendMessage_eq hwf₃ hheld rfl rfl
    refine Wp.bind (wp_askFcm (fun rc hrc => ?_) fun e he => by rw [hc] at he; cases he)
    rw [hc] at hrc
    cases hrc
    split
    · refine wp_updateMsgState (fun w₄ h₄ => Wp.bind (wp_modifyFcm fun w₅ h₅ => Wp.bind (wp_modifyFcm fun w₆ h₆ => ?_)))
        fun hbad => absurd (hbad.of_suffix (List.tail_suffix fs)) hquiet
      have hf₆ : (books w₆).fcm = (books w₃).fcm.mark msg.sequenceId := by rw [h₆, h₅, h₄]; rfl
      have hl₆ : w₆.log = w.log := by rw [← books_log w₆, h₆, h₅, h₄]; exact hl₃
      refine wp_output (fun w₇ h₇ => fun n msg₁ hn hsend => ?_) fun hbad => absurd
        (hbad.of_suffix ((List.tail_suffix _).trans (List.tail_suffix fs))) hquiet
      have hf₇ : w₇.app.fcmMsgManager = (books w₃).fcm.mark msg.sequenceId := by rw [← books_fcm w₇, h₇, ← hf₆]; rfl
      have hl₇ : uploads n w₇.log = uploads n w.log + if msg.sequenceId = n then 1 else 0 := by
        rw [← books_log w₇, h₇, ← hl₆]; exact uploads_record msg w₆ n
      rw [hl₇]
      by_cases hnew : n = msg.sequenceId
      · rw [if_pos hnew.symm]; exact Nat.succ_pos _
      · rw [hf₇] at hn hsend
        have hsend' := sendable_of_mark (((hwf₃.mark _).canSend_iff hn).1 hsend)
        rw [MessageManager.mark_getElem?, if_neg hnew] at hn
        exact Nat.lt_of_lt_of_le (hold n msg₁ hnew hn hsend') (Nat.le_add_right _ _)
    · rename_i hne
      refine Wp.pure fun n msg₁ hn hsend => ?_
      have hsend' := (hwf₃.canSend_iff hn).1 hsend
      rw [← books_log w₃, hl₃]
      by_cases hnew : n = msg.sequenceId
      · subst hnew
        have hn : (books w₃).fcm.messages[msg.sequenceId]? = some msg₁ := hn
        rw [hheld] at hn
        cases hn
        exact absurd (hiff.2 hsend') hne
      · exact hold n msg₁ hnew hn hsend'

theorem wp_handle_request (h₀ : Base cfg (books w) .none) {sock : SocketId} {doc : Json}
    (he : i.event = .balFrame sock doc) (ht : Json.toString (doc.value gimmmfieldnames.messageType) = "DOWNSTREAM")
    (h : NoneStranded w) (hquiet : ¬ Bad i.env.faults) :
    Wp (i.env.Rest i.env.faults) (handle i.event) (fun _ => NoneStranded) (fun _ => NoneStranded) w := by
  rw [he]
  refine Wp.bind (Wp.read ?_)
  split
  · split
    · refine wp_guarded ?_
      unfold handleBALmsg
      dsimp only
      rw [if_neg (by rw [ht]; decide), if_pos ht]
      exact wp_handleBalDownstreamUploadRequest_none h₀ h hquiet
    · exact Wp.pure h
  · exact Wp.pure h

/-! ## Steps and runs -/

/-- A step of the traffic strands no message exactly when it frees the first one. -/
theorem step_noneStranded (h₀ : Base cfg (books w) .none) (ht : Traffic i) (hlive : survives w i = true)
    (h : NoneStranded w) : NoneStranded (step cfg w i) ↔ FreesFirst w i := by
  have hquiet : ¬ Bad i.env.faults := fun ⟨f, hf, hne⟩ => hne (ht.faults f hf)
  have hkeep : ∀ w' : World, NoneStranded (w'.mapApp (·.destroyConns)) ↔ NoneStranded w' := by
    intro w'
    unfold NoneStranded
    rw [show (w'.mapApp (·.destroyConns)).app.fcmMsgManager = _ from (destroyConns_fields w'.app).1]
    rfl
  have hends : ∀ {Q : World → Prop}, Wp (i.env.Rest i.env.faults) (handle i.event) (fun _ => Q) (fun _ => Q) w →
      ∃ w', Q w' ∧ step cfg w i = w'.mapApp (·.destroyConns) := by
    intro Q h
    rcases step_cases _ (Env.Rest.refl i.env) h with ⟨-, h⟩ | ⟨hdead, -⟩
    · exact h
    · rw [hlive] at hdead; cases hdead
  -- a request settles nothing, so it frees nothing; an ack or a permanent nack settles a message if it finds one
  rcases ht.event with ⟨sock, doc, he, hd⟩ | hset
  · obtain ⟨w', hw', hstep⟩ := hends (wp_handle_request h₀ he hd h hquiet)
    rw [hstep, hkeep]
    refine ⟨fun _ old s ⟨mid, hs, _⟩ => ?_, fun _ => hw'⟩
    rw [he] at hs; cases hs
  · obtain ⟨⟨mid, s⟩, hs⟩ := Option.ne_none_iff_exists'.1 hset
    obtain ⟨w', hw', hstep⟩ := hends (wp_handle_settles h₀ hs hquiet)
    rw [hstep, hkeep]
    constructor
    · intro hnone old s' ⟨mid', hs', find⟩ n msg hn hsend h0 k other hk hsend'
      rw [hs] at hs'
      cases hs'
      obtain ⟨hf, next, hnext, hup⟩ := hw'.found old find
      -- the step has uploaded this one, so it is the message that `getNext` returns
      have hpos : 0 < uploads n w'.log := hnone n msg (by rw [hf]; exact hn) (by rw [hf]; exact hsend)
      rw [hup, h0] at hpos
      have hwf := h₀.fcm.without (h₀.fcm.find find).2.1
      rcases MessageManager.getNext_eq hwf with ⟨h1, -⟩ | ⟨first, h1, -, -, h2⟩
      · rw [show (w.app.fcmMsgManager.without old).getNext = _ from h1] at hnext
        cases hnext
        simp at hpos
      · rw [show (w.app.fcmMsgManager.without old).getNext = _ from h1] at hnext
        cases hnext
        have hid : first.sequenceId = n := by
          by_contra hne
          simp [hne] at hpos
        by_contra hlt
        exact h2 k other hk (by omega) ((hwf.canSend_iff hk).1 hsend')
    · intro hfree n msg hn hsend
      by_cases hfind : ∃ old, w.app.fcmMsgManager.findMessageWithFcmMsgId mid = .ok old
      · obtain ⟨old, find⟩ := hfind
        obtain ⟨hf, next, hnext, hup⟩ := hw'.found old find
        rw [hf] at hn hsend
        rw [hup]
        -- a message that was handed out before is not stranded
        by_cases h0 : uploads n w.log = 0
        · have hfirst := hfree old s ⟨mid, hs, find⟩ n msg hn hsend h0
          have hwf := h₀.fcm.without (h₀.fcm.find find).2.1
          rcases MessageManager.getNext_eq hwf with ⟨-, h1⟩ | ⟨first, h1, h2, h3, h4⟩
          · exact absurd ((hwf.canSend_iff hn).1 hsend) (h1 n msg hn)
          · have hle := hfirst _ first h2 ((hwf.canSend_iff h2).2 h3)
            have hge : ¬ n < first.sequenceId := fun hlt => h4 n msg hn hlt ((hwf.canSend_iff hn).1 hsend)
            have hid : first.sequenceId = n := by omega
            rw [show (w.app.fcmMsgManager.without old).getNext = _ from h1] at hnext
            cases hnext
            simp [hid]
        · omega
      · -- the id finds no message: the handler does nothing
        have hsame := hw'.lost fun old hold => hfind ⟨old, hold⟩
        rw [hsame.fcm] at hn hsend
        rw [hsame.uploads]
        exact h n msg hn hsend

theorem along_noneStranded (is : List Input) (h₀ : Base cfg (books w) .none) (ht : ∀ i ∈ is, Traffic i)
    (hlive : Live cfg w is) (h : NoneStranded w) :
    Run.Along (step cfg) (fun w i => NoneStranded (step cfg w i)) w is ↔ Run.Along (step cfg) FreesFirst w is := by
  induction is generalizing w with
  | nil => exact Iff.rfl
  | cons i is ih =>
    obtain ⟨hi, his⟩ := hlive
    have hstep := step_noneStranded h₀ (ht i (List.mem_cons_self ..)) hi h
    have hrest := ih (step_base h₀ i) (fun j hj => ht j (List.mem_cons_of_mem _ hj)) his
    constructor
    · rintro ⟨h1, h2⟩; exact ⟨hstep.1 h1, (hrest h1).1 h2⟩
    · rintro ⟨h1, h2⟩; exact ⟨hstep.2 h1, (hrest (hstep.2 h1)).2 h2⟩

end

/-- In every live run of requests, acks and permanent nacks from an empty FCM queue, after the inputs `pre`,
in which nothing fails, no message is ever stranded exactly when every settlement frees the first one. -/
theorem none_stranded_iff (cfg : List SessionId) (env : Env) (db : Database) (pre is : List Input) (w : World)
    (hw : w = run cfg (boot cfg env db) pre) (hempty : w.app.fcmMsgManager.messages.isEmpty = true)
    (htraffic : ∀ i ∈ is, Traffic i) (hlive : Live cfg w is) :
    Run.Along (step cfg) (fun w i => NoneStranded (step cfg w i)) w is ↔ Run.Along (step cfg) FreesFirst w is := by
  refine along_noneStranded is (hw ▸ run_base cfg env db pre) htraffic hlive fun n msg hn => ?_
  rw [ExtTreeMap.isEmpty_iff.1 hempty, ExtTreeMap.getElem?_empty] at hn
  cases hn

theorem traffic_request (sock : SocketId) (mid : FcmMessageId) (gid : GroupId) :
    Traffic (.quiet (.balFrame sock (balDownstream mid gid))) :=
  ⟨fun _ h => (by cases h), Or.inl ⟨_, _, rfl, rfl⟩⟩

theorem traffic_ack (mid : FcmMessageId) : Traffic (.quiet (.fcmAck (fcmAck mid))) :=
  ⟨fun _ h => (by cases h), Or.inr fun h => by cases h⟩

theorem none_stranded_chained : Run.Along (step ["bal"]) (fun w i => NoneStranded (step ["bal"] w i))
    (run ["bal"] (boot ["bal"] .quiet .empty) (loggedOn "bal")) chained := by
  have hidle : ∀ (w : World) (e : Event), e.settles = none → FreesFirst w (.quiet e) :=
    fun w e he old s ⟨mid, hs, _⟩ => by
      have hs : e.settles = some (mid, s) := hs
      rw [he] at hs; cases hs
  -- no two messages are left by these acks
  have hack : ∀ (w : World) (mid : FcmMessageId), (w.app.fcmMsgManager.findMessageWithFcmMsgId mid).toOption.all
      (fun old => (w.app.fcmMsgManager.without old).messages.toList.all fun p =>
        (w.app.fcmMsgManager.without old).messages.toList.all fun q => p.1 ≤ q.1) = true →
      FreesFirst w (.quiet (.fcmAck (fcmAck mid))) := by
    rintro w mid heval old s ⟨mid', he, hf⟩ n msg hn - - k other hk -
    have he : some (mid, MessageState.delivered) = some (mid', s) := he
    cases he
    have hf : w.app.fcmMsgManager.findMessageWithFcmMsgId mid = .ok old := hf
    rw [hf] at heval
    have hall := List.all_eq_true.1 heval _ (ExtTreeMap.mem_toList_iff_getElem?_eq_some.2 hn)
    simpa using List.all_eq_true.1 hall _ (ExtTreeMap.mem_toList_iff_getElem?_eq_some.2 hk)
  refine (none_stranded_iff ["bal"] .quiet .empty (loggedOn "bal") chained _ rfl (by decide +kernel) ?_
    (by unfold Live; decide +kernel)).2 ⟨hidle _ _ rfl, hidle _ _ rfl, hack _ "A" (by decide +kernel),
      hack _ "B" (by decide +kernel), trivial⟩
  unfold chained
  simp only [List.mem_cons, List.not_mem_nil, or_false, forall_eq_or_imp, forall_eq]
  exact ⟨traffic_request .., traffic_request .., traffic_ack _, traffic_ack _⟩

/-- `B` goes when `A` is acked, and again when `C` is, in the place of `D`. -/
def passedOver : List Input :=
  [.quiet (.balFrame 0 (balDownstream "A" "g")), .quiet (.balFrame 0 (balDownstream "B" "g")),
    .quiet (.balFrame 0 (balDownstream "C" "h")), .quiet (.balFrame 0 (balDownstream "D" "h")),
    .quiet (.fcmAck (fcmAck "A")), .quiet (.fcmAck (fcmAck "C"))]

/-- `D` is new and can be sent, but it was never handed to `sendMessage`. -/
theorem stranded :
    (run ["bal"] (boot ["bal"] .quiet .empty) (loggedOn "bal")).app.fcmMsgManager.messages.isEmpty = true ∧
      (∀ i ∈ passedOver, Traffic i) ∧ Live ["bal"] (run ["bal"] (boot ["bal"] .quiet .empty) (loggedOn "bal")) passedOver ∧
      ¬ NoneStranded (run ["bal"] (run ["bal"] (boot ["bal"] .quiet .empty) (loggedOn "bal")) passedOver) := by
  refine ⟨by decide +kernel, ?_, by unfold Live; decide +kernel, fun h => ?_⟩
  · unfold passedOver
    simp only [List.mem_cons, List.not_mem_nil, or_false, forall_eq_or_imp, forall_eq]
    exact ⟨traffic_request .., traffic_request .., traffic_request .., traffic_request .., traffic_ack _, traffic_ack _⟩
  · generalize hend : run ["bal"] (run ["bal"] (boot ["bal"] .quiet .empty) (loggedOn "bal")) passedOver = w at h
    have hsend : (w.app.fcmMsgManager.messages[(4 : Int)]?).map (fun msg =>
        (w.app.fcmMsgManager.canSendMessage msg).toOption) = some (some 0) := by rw [← hend]; decide +kernel
    have hnever : uploads 4 w.log = 0 := by rw [← hend]; decide +kernel
    obtain ⟨msg, hmsg, hcan⟩ := Option.map_eq_some_iff.1 hsend
    have hzero : w.app.fcmMsgManager.canSendMessage msg = .ok 0 := by
      cases hc : w.app.fcmMsgManager.canSendMessage msg with
      | error e => rw [hc] at hcan; cases hcan
      | ok c => rw [hc] at hcan; cases hcan; rfl
    have hpos := h 4 msg hmsg hzero
    omega

end Gimmm
