/-
What a new FCM session does with the messages that the old one left pending. In every state that the handlers
reach, a message pending an ack is the first of its group: only a sendable message is marked, later ones get
larger sequence ids, and a load drops the groups. So the resend skips none of them: while the window is open it
uploads each, and while it is full it starts the retry of each.
-/
import Gimmm.Flow.Simulation

namespace Gimmm

open Std Prog

/-- Every message of `__fcmMsgManager` that is pending an ack is the first of its group. -/
def PendingFirst (b : Stores) : Prop :=
  ∀ (n : Int) (msg : Message), b.fcm.messages[n]? = some msg → msg.state = .pendingAck → b.fcm.Front msg

/-- The messages of `m'` are in `m`, with the same group ids. -/
def GroupsWithin (m m' : MessageManager) : Prop :=
  ∀ (n : Int) (msg' : Message), m'.messages[n]? = some msg' →
    ∃ msg, m.messages[n]? = some msg ∧ msg'.groupId = msg.groupId

theorem MessageManager.Front.of_within {m m' : MessageManager} {msg : Message} (h : m.Front msg)
    (hw : GroupsWithin m m') : m'.Front msg := by
  intro hb n msg' hn hg
  obtain ⟨msg₀, h₀, hg₀⟩ := hw n msg' hn
  exact h hb n msg₀ h₀ (hg₀.symm.trans hg)

theorem groupsWithin_without (m : MessageManager) (msg : Message) : GroupsWithin m (m.without msg) :=
  fun _ msg' hn => ⟨msg', (MessageManager.of_without hn).1, rfl⟩

theorem groupsWithin_modify (m : MessageManager) (n : Int) {f : Message → Message} (hf : ∀ msg, (f msg).fixed = msg.fixed) :
    GroupsWithin m (m.modifyMessage n f) := by
  intro k msg' hk
  rw [MessageManager.modifyMessage_getElem?] at hk
  split at hk
  · obtain ⟨msg, hmsg, rfl⟩ := Option.map_eq_some_iff.1 hk
    exact ⟨msg, hmsg, congrArg Message.Fixed.groupId (hf msg)⟩
  · exact ⟨msg', hk, rfl⟩

theorem MessageManager.Within.groups {m m' : MessageManager} (h : m.Within m') : GroupsWithin m m' := by
  intro n msg' hn
  obtain ⟨msg, hmsg, hf, -⟩ := h n msg' hn
  exact ⟨msg, hmsg, congrArg Message.Fixed.groupId hf⟩

section
variable {cfg : List SessionId} {i : Input} {b₀ b : Books} {d : Debt}

namespace PendingFirst

theorem without (h : PendingFirst b.toStores) (msg : Message) : PendingFirst (b.setFcm (b.fcm.without msg)).toStores := by
  intro n msg' hn hp
  have hn : (b.fcm.without msg).messages[n]? = some msg' := hn
  exact (h n msg' (MessageManager.of_without hn).1 hp).of_within (groupsWithin_without _ msg)

/-- A write to the message under `k` after which it may be pending only if it was, or comes first. -/
theorem modify (h : PendingFirst b.toStores) (k : Int) {f : Message → Message} (hf : ∀ msg, (f msg).fixed = msg.fixed)
    (hs : ∀ msg, b.fcm.messages[k]? = some msg → (f msg).state = msg.state ∨ b.fcm.Front msg) :
    PendingFirst (b.setFcm (b.fcm.modifyMessage k f)).toStores := by
  intro n msg' hn hp
  have hheld : (b.fcm.modifyMessage k f).messages[n]? = some msg' := hn
  refine MessageManager.Front.of_within ?_ (groupsWithin_modify _ k hf)
  rw [MessageManager.modifyMessage_getElem?] at hheld
  split at hheld
  · rename_i hnk
    subst hnk
    obtain ⟨msg, hmsg, rfl⟩ := Option.map_eq_some_iff.1 hheld
    have hfront : b.fcm.Front msg := by
      rcases hs msg hmsg with hst | hfront
      · exact h n msg hmsg (hst ▸ hp)
      · exact hfront
    intro hb j other hj hg
    have hgid : (f msg).groupId = msg.groupId := congrArg Message.Fixed.groupId (hf msg)
    have hseq : (f msg).sequenceId = msg.sequenceId := congrArg Message.Fixed.sequenceId (hf msg)
    rw [hgid] at hb hg
    rw [hseq]
    exact hfront hb j other hj hg
  · exact h n msg' hheld hp

theorem act (hb : Base cfg b d) (h : PendingFirst b.toStores) {b' : Books} {d' : Debt} (ha : Act i b₀ b d b' d') :
    PendingFirst b'.toStores := by
  cases ha with
  | accept mid gid sid data hm source request id =>
    rename_i msg
    have hseq : msg.sequenceId = b.counter + 1 := by rw [hm]; rfl
    have hq := MessageManager.addMessage_getElem? (m := b.fcm) msg (hseq ▸ hb.fresh)
    intro n msg' hn hp
    have hn : (b.fcm.addMessage msg.sequenceId msg).messages[n]? = some msg' := hn
    rw [hq] at hn
    split at hn
    · cases hn
      rw [hm] at hp
      cases hp
    · intro hgb k other hk hg
      have hk : (b.fcm.addMessage msg.sequenceId msg).messages[k]? = some other := hk
      rw [hq] at hk
      split at hk
      · -- the new message comes after all others
        rename_i hkn
        have hle := hb.held_le hn
        rw [hb.fcm.key hn, hkn, hseq]
        omega
      · exact h n msg' hn hp hgb k other hk hg
  | mark held sendable =>
    refine h.modify _ (fun _ => rfl) fun msg' hm => Or.inr ?_
    rw [held] at hm
    cases hm
    exact sendable.2.2
  | settle => exact h.without _
  | drop => exact h.without _
  | touchDown n f hf => exact h.modify n (fun msg => (hf msg).1) fun msg _ => Or.inl (hf msg).2
  | _ => exact h

/-- A message that a process loads has no group. -/
theorem restart {env : Env} {b' : Books} (hr : Restarted cfg env b b') : PendingFirst b'.toStores := by
  obtain ⟨db, -, -, hf, -⟩ := hr.fresh
  intro n msg hn _ hb
  obtain ⟨row, -, -, -, rfl⟩ := hf.held n msg hn
  exact absurd rfl hb

theorem step {w : World} (h₀ : Base cfg (books w) .none) (h : PendingFirst (books w).toStores) (i : Input) :
    PendingFirst (books (step cfg w i)).toStores := by
  obtain ⟨b, hr, hend⟩ := step_reach h₀ i
  have hb : PendingFirst b.toStores :=
    hr.invariant_base (P := fun b _ => PendingFirst b.toStores) h₀ h fun hb _ _ hP ha => hP.act hb ha
  rcases hend with ⟨-, he⟩ | ⟨-, he⟩
  · rw [he]; exact hb
  · exact restart he

theorem run (cfg : List SessionId) (env : Env) (db : Database) (is : List Input) :
    Base cfg (books (run cfg (boot cfg env db) is)) .none ∧ PendingFirst (books (Gimmm.run cfg (boot cfg env db) is)).toStores := by
  refine run_invariant_all (P := fun b => PendingFirst b.toStores) (fun _ i hb h => step hb h i) is
    (boot_base cfg env db) ?_
  exact restart (b := books (boot cfg env db)) (start_restarted rfl rfl rfl rfl rfl)

end PendingFirst

end

/-! ## The resend -/

/-- Between `w` and `w'` the message `msg` was handed to `sendMessage`, or it began another retry. -/
def HandedOver (w w' : World) (msg : Message) : Prop :=
  (∃ new, w'.log = new ++ w.log ∧ ∃ o ∈ new, ∃ sent : Message, o.what = .upload sent ∧ sent.fixed = msg.fixed) ∨
  ∃ held : Message, w'.app.fcmMsgManager.messages[msg.sequenceId]? = some held ∧ held.fixed = msg.fixed ∧
    held.nRetry = msg.nRetry + 1

/-- The loop of the resend with the keys `l` left: the messages are as they were but for their retries, and every
pending one that it has come to is handed over. -/
structure Handing (w₀ : World) (l : List Int) (w : World) : Prop where
  nodup : l.Nodup
  wf : w.app.fcmMsgManager.WF
  scanned : Scanned True l w₀.app.fcmMsgManager w.app.fcmMsgManager
  count : w.app.fcmMsgManager.pendingAckCount = w₀.app.fcmMsgManager.pendingAckCount
  log : w₀.log <:+ w.log
  handed : ∀ (n : Int) (msg : Message), n ∉ l → w₀.app.fcmMsgManager.messages[n]? = some msg → msg.type = .downstream →
    msg.state = .pendingAck → HandedOver w₀ w msg

section
variable {w₀ w w' : World} {i : Input} {fs : List Fault} {l : List Int} {msg : Message}

theorem HandedOver.observe (new : List Obs) (h : HandedOver w₀ w msg) (hlog : w'.log = new ++ w.log)
    (hfcm : w'.app.fcmMsgManager = w.app.fcmMsgManager) : HandedOver w₀ w' msg := by
  rcases h with ⟨new', h1, o, ho, h2⟩ | h
  · exact Or.inl ⟨new ++ new', by rw [hlog, h1, List.append_assoc], o, List.mem_append_right _ ho, h2⟩
  · exact Or.inr (by rw [hfcm]; exact h)

/-- A write to another message. -/
theorem HandedOver.touch {n : Int} {f : Message → Message} (h : HandedOver w₀ w msg) (hn : msg.sequenceId ≠ n)
    (hlog : w'.log = w.log) (hfcm : w'.app.fcmMsgManager = w.app.fcmMsgManager.modifyMessage n f) :
    HandedOver w₀ w' msg := by
  rcases h with ⟨new, h1, h2⟩ | ⟨held, h1, h2⟩
  · exact Or.inl ⟨new, hlog.trans h1, h2⟩
  · refine Or.inr ⟨held, ?_, h2⟩
    rw [hfcm, MessageManager.modifyMessage_getElem?, if_neg hn, h1]

namespace Handing

theorem start (hwf : w₀.app.fcmMsgManager.WF) : Handing w₀ w₀.app.fcmMsgManager.messages.keys w₀ := by
  refine ⟨ExtTreeMap.nodup_keys, hwf, Scanned.start .., rfl, List.suffix_rfl, fun n msg hn hmsg => ?_⟩
  refine absurd (ExtTreeMap.mem_keys.2 ?_) hn
  rw [← ExtTreeMap.isSome_getElem?_iff_mem, hmsg]
  rfl

/-- No message that was in the queue is gone. -/
theorem present (h : Handing w₀ l w) {n : Int} (hn : w.app.fcmMsgManager.messages[n]? = none) :
    w₀.app.fcmMsgManager.messages[n]? = none := by
  cases h₀ : w₀.app.fcmMsgManager.messages[n]? with
  | none => rfl
  | some msg₀ =>
    obtain ⟨held, hheld, -⟩ := h.scanned.kept trivial n msg₀ h₀
    rw [hn] at hheld
    cases hheld

/-- The message that the loop comes to, if it is not a pending downstream one. -/
theorem skip {k : Int} (h : Handing w₀ (k :: l) w) (hno : ∀ msg₀, w₀.app.fcmMsgManager.messages[k]? = some msg₀ →
      msg₀.type = .downstream → msg₀.state ≠ .pendingAck) : Handing w₀ l w := by
  refine ⟨(List.nodup_cons.1 h.nodup).2, h.wf, h.scanned.skip, h.count, h.log, fun n msg₀ hn h₀ ht hp => ?_⟩
  by_cases hnm : n = k
  · exact absurd hp (hno msg₀ (hnm ▸ h₀) ht)
  · exact h.handed n msg₀ (fun hmem => (List.mem_cons.1 hmem).elim hnm hn) h₀ ht hp

/-- It is uploaded. -/
theorem uploaded (h : Handing w₀ (msg.sequenceId :: l) w) {o : Obs} (hwhat : o.what = .upload msg)
    (hheld : w₀.app.fcmMsgManager.messages[msg.sequenceId]? = some msg) (hlog : w'.log = o :: w.log)
    (hfcm : w'.app.fcmMsgManager = w.app.fcmMsgManager) : Handing w₀ l w' := by
  refine ⟨(List.nodup_cons.1 h.nodup).2, hfcm ▸ h.wf, hfcm ▸ h.scanned.skip, hfcm ▸ h.count,
    hlog ▸ h.log.trans (List.suffix_cons ..), fun n msg₀ hn h₀ ht hp => ?_⟩
  by_cases hnm : n = msg.sequenceId
  · rw [hnm, hheld] at h₀
    cases h₀
    obtain ⟨new, hnew⟩ := h.log
    refine Or.inl ⟨o :: new, ?_, o, List.mem_cons_self .., msg, hwhat, rfl⟩
    rw [hlog, ← hnew]
    rfl
  · exact (h.handed n msg₀ (fun hmem => (List.mem_cons.1 hmem).elim hnm hn) h₀ ht hp).observe [o] hlog hfcm

/-- Its retry begins. -/
theorem retried (h : Handing w₀ (msg.sequenceId :: l) w) {d : Draw}
    (hheld : w₀.app.fcmMsgManager.messages[msg.sequenceId]? = some msg)
    (hw : w.app.fcmMsgManager.messages[msg.sequenceId]? = some msg) (hlog : w'.log = w.log)
    (hfcm : w'.app.fcmMsgManager = (w.app.fcmMsgManager.modifyMessage msg.sequenceId
      fun m => (m.getNextRetryTimeout d).2).modifyMessage msg.sequenceId (·.setRetryInProgress true)) :
    Handing w₀ l w' := by
  obtain ⟨hn, hl⟩ := List.nodup_cons.1 h.nodup
  have hback : ∀ msg : Message, (msg.getNextRetryTimeout d).2.fixed = msg.fixed ∧
      (msg.getNextRetryTimeout d).2.state = msg.state := fun msg => by simp
  have hflag : ∀ msg : Message, (msg.setRetryInProgress true).fixed = msg.fixed ∧
      (msg.setRetryInProgress true).state = msg.state := fun msg => by simp
  refine ⟨hl, ?_, ?_, ?_, hlog ▸ h.log, fun n msg₀ hnl h₀ ht hp => ?_⟩
  · rw [hfcm]
    exact (h.wf.modifyMessage fun msg => (hback msg).1).modifyMessage fun msg => (hflag msg).1
  · rw [hfcm]
    exact (h.scanned.skip.modify hn hback).modify hn hflag
  · rw [hfcm]
    exact h.count
  · by_cases hnm : n = msg.sequenceId
    · rw [hnm, hheld] at h₀
      cases h₀
      refine Or.inr ⟨((msg.getNextRetryTimeout d).2).setRetryInProgress true, ?_, ?_, ?_⟩
      · rw [hfcm, MessageManager.modifyMessage_getElem?, if_pos rfl, MessageManager.modifyMessage_getElem?, if_pos rfl, hw]
        rfl
      · exact (hflag _).1.trans (hback msg).1
      · unfold Message.getNextRetryTimeout
        dsimp only
        split <;> rfl
    · have hseq : msg₀.sequenceId ≠ msg.sequenceId := by
        obtain ⟨held, hheld', hfix, -⟩ := h.scanned.kept trivial n msg₀ h₀
        have hid : held.sequenceId = msg₀.sequenceId := (congrArg Message.Fixed.sequenceId hfix).symm
        rw [← hid, h.wf.key hheld']
        exact hnm
      have h₁ := h.handed n msg₀ (fun hmem => (List.mem_cons.1 hmem).elim hnm hnl) h₀ ht hp
      let w₁ : World := w.putFcm (w.app.fcmMsgManager.modifyMessage msg.sequenceId fun m => (m.getNextRetryTimeout d).2)
      have h₂ : HandedOver w₀ w₁ msg₀ := h₁.touch hseq rfl rfl
      exact h₂.touch hseq hlog hfcm

end Handing

/-- The resend of one message. -/
theorem wp_handOver (hfirst : PendingFirst (stores w₀.toServer)) (hpend : ∀ (n : Int) (msg : Message),
      w₀.app.fcmMsgManager.messages[n]? = some msg → msg.state.pending = true)
    (hret : Patient i w₀.app.fcmMsgManager) (hI : Handing w₀ (msg.sequenceId :: l) w)
    (hheld : w.app.fcmMsgManager.messages[msg.sequenceId]? = some msg) :
    Wp (i.env.Rest fs)
      (if msg.type = .downstream then do
        let rcode ← askFcm (·.canSendMessageOnReconnect msg)
        if rcode = 0 then uploadToFcm msg
        else if rcode = 2 then retryDownstreamWithExponentialBackoff msg
      else pure ())
      (fun _ => Handing w₀ l) (fun e _ => e = .killed) w := by
  have hmsg₀ := hI.scanned.left _ (List.mem_cons_self ..) msg hheld
  split
  · obtain ⟨c, hc, hcase⟩ := MessageManager.canSendMessageOnReconnect_eq hI.wf hheld rfl rfl (hpend _ _ hmsg₀)
    refine Wp.bind (wp_askFcm (fun rc hrc => ?_) fun e he => ?_)
    · have hrc : w.app.fcmMsgManager.canSendMessageOnReconnect msg = .ok rc := hrc
      rw [hc] at hrc
      cases hrc
      rcases hcase with ⟨rfl, -, -⟩ | ⟨rfl, -⟩ | ⟨rfl, -, hbehind⟩
      · unfold uploadToFcm
        refine wp_output (fun w' h' => ?_) fun _ => rfl
        exact hI.uploaded rfl hmsg₀ (congrArg Books.log h') (congrArg (·.fcm) h')
      · -- with a full window the message gets a timer
        unfold retryDownstreamWithExponentialBackoff
        refine wp_popDraw fun d hd => Wp.bind (wp_modifyFcm fun w₁ h₁ => ?_)
        have hfcm₁ : w₁.app.fcmMsgManager = w.app.fcmMsgManager.modifyMessage msg.sequenceId
            fun m => (m.getNextRetryTimeout d).2 := congrArg (·.fcm) h₁
        have hlog₁ : w₁.log = w.log := congrArg Books.log h₁
        dsimp only
        rw [if_pos (hret _ msg hmsg₀ d hd)]
        refine Wp.bind (wp_modifyFcm fun w₂ h₂ => ?_)
        have hfcm₂ : w₂.app.fcmMsgManager =
            w₁.app.fcmMsgManager.modifyMessage msg.sequenceId (·.setRetryInProgress true) := congrArg (·.fcm) h₂
        have hlog₂ : w₂.log = w₁.log := congrArg Books.log h₂
        have hI₂ : Handing w₀ l w₂ := hI.retried hmsg₀ hheld (hlog₂.trans hlog₁) (by rw [hfcm₂, hfcm₁])
        refine wp_singleShot hI₂ fun w₃ h₃ => ?_
        refine hI.retried (d := d) hmsg₀ hheld ?_ ?_
        · exact (congrArg Books.log h₃ : w₃.log = w₂.log).trans (hlog₂.trans hlog₁)
        · have hfcm₃ : w₃.app.fcmMsgManager = w₂.app.fcmMsgManager := congrArg (·.fcm) h₃
          rw [hfcm₃, hfcm₂, hfcm₁]
      · -- a message behind its group is not pending an ack
        refine Wp.pure (hI.skip fun msg₀ h₀ _ hp => hbehind ?_)
        rw [hmsg₀] at h₀
        cases h₀
        exact (hfirst _ msg hmsg₀ hp).of_within hI.scanned.within.groups
    · have he : w.app.fcmMsgManager.canSendMessageOnReconnect msg = .error e := he
      rw [hc] at he
      cases he
  · rename_i htype
    refine Wp.pure (hI.skip fun msg₀ h₀ ht => absurd ?_ htype)
    rw [hmsg₀] at h₀
    cases h₀
    exact ht

/-- In every state that the handlers reach, whatever fails and however often the process ends, the send rule of
a reconnect skips no downstream message that is pending an ack, and if none is out of retries the resend hands
each over, unless the process ends under it. -/
theorem resend_skips_none (cfg : List SessionId) (env : Env) (db : Database) (is : List Input) (i : Input)
    (hret : Patient i (run cfg (boot cfg env db) is).app.fcmMsgManager) (n : Int) (msg : Message)
    (hheld : (run cfg (boot cfg env db) is).app.fcmMsgManager.messages[n]? = some msg) (htype : msg.type = .downstream)
    (hstate : msg.state = .pendingAck) :
    (∃ c, (run cfg (boot cfg env db) is).app.fcmMsgManager.canSendMessageOnReconnect msg = .ok c ∧ c ≠ 1 ∧ c ≠ 3) ∧
    match resendAllPendingDownstreamMessages (run cfg (boot cfg env db) is, i.env) with
    | .ok _ (w', _) => HandedOver (run cfg (boot cfg env db) is) w' msg
    | .error e _ => e = .killed := by
  obtain ⟨hb, hfirst⟩ := PendingFirst.run cfg env db is
  generalize run cfg (boot cfg env db) is = w at hret hheld hb hfirst
  have hpend : ∀ (n : Int) (msg : Message), w.app.fcmMsgManager.messages[n]? = some msg → msg.state.pending = true :=
    fun n msg hn => (hb.fcmHeld hn).pending
  constructor
  · obtain ⟨c, hc, hcase⟩ := MessageManager.canSendMessageOnReconnect_eq hb.fcm hheld (hb.fcm.key hheld) rfl
      (hpend n msg hheld)
    refine ⟨c, hc, ?_⟩
    rcases hcase with ⟨rfl, -⟩ | ⟨rfl, -⟩ | ⟨-, -, hbehind⟩
    · exact ⟨by decide, by decide⟩
    · exact ⟨by decide, by decide⟩
    · -- a message that is pending an ack is the front of its group
      exact absurd (hfirst n msg hheld hstate) hbehind
  · -- the loop hands over what it has passed, and never loses the message it is at
    have hloop : Wp (i.env.Rest i.env.faults) resendAllPendingDownstreamMessages (fun _ w' => Handing w [] w')
        (fun e _ => e = .killed) w := by
      refine wp_forEachMessage_exact (I := Handing w) ?_ ?_ ?_ ?_
      · rintro k l w₁ m msg₁ hI hm hmsg
        obtain rfl : w₁.app.fcmMsgManager = m := Option.some.inj hm
        obtain rfl := hI.wf.key hmsg
        have hmsg₀ := hI.scanned.left _ (List.mem_cons_self ..) msg₁ hmsg
        refine (wp_handOver hfirst hpend hret hI hmsg).mono (fun _ w₂ hI₂ => ⟨hI₂, fun hgone => ?_⟩) fun _ _ h => h
        have hgone : w₂.app.fcmMsgManager.messages[msg₁.sequenceId]? = none := hgone
        rw [hI₂.present hgone] at hmsg₀
        cases hmsg₀
      · rintro k l w₁ hI hgone
        have hgone : w₁.app.fcmMsgManager.messages[k]? = none := hgone
        refine hI.skip fun msg₀ h₀ => ?_
        rw [hI.present hgone] at h₀
        cases h₀
      · rintro hnone
        cases hnone
      · rintro m hm
        obtain rfl : w.app.fcmMsgManager = m := Option.some.inj hm
        exact .start hb.fcm
    have hend := hloop i.env (.refl _)
    cases hres : resendAllPendingDownstreamMessages (w, i.env) with
    | ok a s =>
      rw [hres] at hend
      exact hend.2.handed n msg List.not_mem_nil hheld htype hstate
    | error e s =>
      rw [hres] at hend
      exact hend.2

/-- One message that was uploaded, and a new session. -/
theorem resend_skips_none_uploaded : ∃ msg : Message,
    (run ["bal"] (boot ["bal"] .quiet .empty) (acked.take 3)).app.fcmMsgManager.messages[(1 : Int)]? = some msg ∧
    match resendAllPendingDownstreamMessages (run ["bal"] (boot ["bal"] .quiet .empty) (acked.take 3), .quiet) with
    | .ok _ (w', _) => HandedOver (run ["bal"] (boot ["bal"] .quiet .empty) (acked.take 3)) w' msg
    | .error e _ => e = .killed := by
  have hmsg : ((run ["bal"] (boot ["bal"] .quiet .empty) (acked.take 3)).app.fcmMsgManager.messages[(1 : Int)]?).map
      (fun msg => (msg.type, msg.state)) = some (.downstream, .pendingAck) := by decide +kernel
  have hret : Patient (.quiet (.fcmSessionEstablished 1))
      (run ["bal"] (boot ["bal"] .quiet .empty) (acked.take 3)).app.fcmMsgManager :=
    patient_of_retriesLeft rfl (by decide +kernel)
  obtain ⟨msg, hheld, hs⟩ := Option.map_eq_some_iff.1 hmsg
  obtain ⟨htype, hstate⟩ := Prod.mk.inj hs
  exact ⟨msg, hheld, (resend_skips_none ["bal"] .quiet .empty (acked.take 3) (.quiet (.fcmSessionEstablished 1)) hret 1 msg
    hheld htype hstate).2⟩

end

end Gimmm
