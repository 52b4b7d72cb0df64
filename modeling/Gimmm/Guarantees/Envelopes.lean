/-
What the server writes to a BAL can be acknowledged: it is the payload of a message that the session
holds, and carries its sequence id, so an ack with that sequence id settles the message. A failed
downstream message and a retry of a message that was settled meanwhile are the exceptions, and a session whose
id has a NUL: the property of its socket names another one.
-/
import Gimmm.Guarantees.Lifecycle
import Gimmm.Guarantees.Persist

namespace Gimmm

open Std Prog CString
open MessageManager (removeMessage)

/-- The ack of a BAL that echoes the sequence id of `doc`. -/
def echo (doc : Json) : Json :=
  .object [(gimmmfieldnames.messageType, .string "ACK"),
    (gimmmfieldnames.sequenceId, (doc.value gimmmfieldnames.sequenceId).getD .null)]

/-- The row of the message `n` is delivered, and its session does not hold it any more. -/
def AckedIn (b : Stores) (sid : SessionId) (n : Int) : Prop :=
  (∃ row, b.rows n = some row ∧ row.state = .delivered) ∧ ∃ m, b.bal sid = some m ∧ m.messages[n]? = none

/-- The echo of `doc` on a socket that is logged on as the session settles the message `n`, when nothing fails. -/
def EchoSettles (s : Server) (sid : SessionId) (doc : Json) (n : Int) : Prop :=
  ∀ (socket : Socket) (env : Env), socket.sessionId = cString sid → (∀ f ∈ env.faults, f = .ok) →
    Ends (fun _ s' => AckedIn (stores s'.1.toServer) sid n) (fun _ s' => AckedIn (stores s'.1.toServer) sid n)
      (handleBALmsg socket (echo doc) (⟨s, []⟩, env))

/-- What is written to a session is its logon response, or the payload of a message that it holds at that
moment, with its sequence id, so that the echo settles it as long as the sequence id is a 32-bit int. -/
def Answerable (o : Obs) : Prop :=
  match o.what with
  | .balWrite sid _ doc => doc = logonResponse sid ∨ ∃ (n : Int) (m : MessageManager) (msg : Message),
      doc.value gimmmfieldnames.sequenceId = some (.ofInt64 n) ∧ o.server.app.balManager sid = some m ∧
      m.messages[n]? = some msg ∧ msg.sequenceId = n ∧ msg.payload = doc ∧
      (-2 ^ 31 ≤ n ∧ n < 2 ^ 31 → EchoSettles o.server sid doc n)
  | _ => True

/-- No permanent nack is about a message whose source can be written to, a retry timer that can write finds its
message still held, and no downstream message is out of retries when one is nacked for a transient error, or a
session is established with a full window. -/
structure Quotes (b : Stores) (i : Input) : Prop where
  nack : ∀ msg, Settles i b msg .deliveryFailed → b.writable msg.sourceSessionId = false
  retry : ∀ msg, Expires i b (.retryUpstream msg) → b.writable msg.targetSessionId = true →
    ∃ m held, b.bal msg.targetSessionId = some m ∧ m.messages[msg.sequenceId]? = some held
  retries : ∀ msg, Nacked i b msg → Patient i b.fcm
  full : Establishes i → maxPendingMessages ≤ b.fcm.pendingAckCount → Patient i b.fcm

/-! ## The echo -/

section
variable {cfg : List SessionId} {i : Input} {w : World}

/-- The ack of a held message settles it when nothing fails. -/
theorem wp_handleBalAckMsg_held (hb : Base cfg (books w) .none) {sid : SessionId} {m : MessageManager} {n : Int}
    {msg : Message} (hm : (books w).bal sid = some m) (hn : m.messages[n]? = some msg)
    (hquiet : ∀ f ∈ i.env.faults, f = .ok) :
    Wp (i.env.Rest i.env.faults) (handleBalAckMsg sid n) (fun _ w' => AckedIn (books w').toStores sid n)
      (fun _ w' => AckedIn (books w').toStores sid n) w := by
  have hwf := hb.bal hm
  have hseq : msg.sequenceId = n := hwf.key hn
  have hnobad : ¬ Bad i.env.faults := fun ⟨f, hf, hne⟩ => hne (hquiet f hf)
  unfold handleBalAckMsg
  refine wp_guarded (Wp.bind (wp_findBalMessageManager (fun m' hm' => ?_) fun hnone _ => ?_))
  · refine Wp.bind (wp_askBal hm (fun msg' hmsg' => ?_) fun e he => ?_)
    · obtain rfl : msg = msg' := by unfold MessageManager.findMessage at hmsg'; rw [hn] at hmsg'; cases hmsg'; rfl
      refine wp_updateMsgState (fun w₁ h₁ => ?_) fun hbad => absurd hbad hnobad
      have hm₁ : (books w₁).bal sid = some m := by rw [h₁]; exact hm
      refine Wp.bind (wp_onBal hm₁ ?_)
      rw [MessageManager.removeMessage_eq hwf hn]
      intro w₂ h₂
      have hr₂ : Reached i w w₂ .none := by
        unfold Reached; rw [h₂, h₁]; exact Reach.start.act (.settleBal hm (hseq ▸ hn))
      have hacked : AckedIn (books w₂).toStores sid n := by
        obtain ⟨row, hr, -, hst⟩ := Base.saved_row (hb.balHeld hm hn).saved .delivered
        rw [hseq] at hr
        refine ⟨⟨row, by rw [h₂, h₁, hseq]; exact hr, hst⟩, _, bal_of_setBal h₂, ?_⟩
        rw [MessageManager.without_getElem?, if_pos hseq.symm]
      exact (wp_sendNextPendingUpstreamMessage hb hr₂ (bal_of_setBal h₂)).mono
        (fun _ _ h => by rw [h.2]; exact hacked) (fun _ _ h => by rw [h.2]; exact hacked)
    · unfold MessageManager.findMessage at he; rw [hn] at he; cases he
  · rw [hm] at hnone; cases hnone

theorem echoSettles {b : Books} {d : Debt} (hb : Base cfg b d) {s : Server} (server : stores s = b.toStores)
    {sid : SessionId} {m : MessageManager} {n : Int} {msg : Message} {doc : Json} (hnul : NoNul sid)
    (hm : b.bal sid = some m) (hn : m.messages[n]? = some msg) (hdoc : doc.value gimmmfieldnames.sequenceId = some (.ofInt64 n))
    (hlow : -2 ^ 31 ≤ n) (hhigh : n < 2 ^ 31) : EchoSettles s sid doc n := by
  intro socket env hsid hquiet
  have hbooks : books ⟨s, []⟩ = { b with log := [] } := by
    show Books.mk (stores s) [] = _; rw [server]
  have hb' : Base cfg (books ⟨s, []⟩) .none := by
    rw [hbooks]
    exact { hb with uploads := fun ho => (by cases ho), debt := trivial }
  have hm' : (books ⟨s, []⟩).bal sid = some m := by rw [hbooks]; exact hm
  have hack : handleBALmsg socket (echo doc) = handleBalAckMsg sid n := by
    have hval : (echo doc).value gimmmfieldnames.sequenceId = some (.ofInt64 n) := by
      unfold echo; rw [hdoc]; rfl
    have htype : (echo doc).value gimmmfieldnames.messageType = some (.string "ACK") := rfl
    unfold handleBALmsg
    rw [htype, hval, hsid, cString_of_noNul hnul, Json.toInt_ofInt64 hlow hhigh]
    rfl
  rw [hack]
  exact (wp_handleBalAckMsg_held (i := ⟨.restart, env⟩) hb' hm' hn hquiet env (.refl env)).mono (fun _ _ h => h.2)
    (fun _ _ h => h.2)

end

/-! ## Acts -/

/-- The rows are enveloped, downstream messages are FCM's, and the log is answerable. -/
structure Echoed (b : Books) : Prop where
  persistent : Persistent .empty b
  directed : Directed b.toStores
  log : ∀ o ∈ b.log, Answerable o

section
variable {cfg : List SessionId} {i : Input} {b₀ b : Books} {d : Debt}

/-- What a session holds can be written to it. -/
theorem Echoed.answerable (hcfg : fcmSessionId ∉ cfg) (hnul : ∀ sid ∈ cfg, NoNul sid) (hb : Base cfg b d) (h : Echoed b) {sid : SessionId}
    {sock : SocketId} {doc : Json} {o : Obs} {m : MessageManager} {n : Int} {msg : Message} (bal : b.bal sid = some m)
    (hn : m.messages[n]? = some msg) (hdoc : doc = msg.payload) (what : o.what = .balWrite sid sock doc)
    (server : stores o.server = b.toStores) : Answerable o := by
  obtain ⟨-, ⟨row, hr, hs⟩, -⟩ := hb.balHeld bal hn
  rw [(hb.bal bal).key hn] at hr
  have hval : doc.value gimmmfieldnames.sequenceId = some (.ofInt64 n) := by
    rcases h.persistent.rows hr with h1 | h1 | h1
    · simp [Database.empty] at h1
    · exact absurd h1 (h.directed.not_downstream hb hcfg bal hn hr)
    · rw [hdoc, ← hs.payload]; exact h1
  have hm : o.server.app.balManager sid = some m := (congrFun (congrArg Stores.bal server) sid).trans bal
  unfold Answerable
  rw [what]
  exact Or.inr ⟨n, m, msg, hval, hm, hn, (hb.bal bal).key hn, hdoc.symm,
    fun hr => echoSettles hb server (hnul sid ((hb.known sid).1 ⟨m, bal⟩)) bal hn hval hr.1 hr.2⟩

theorem Echoed.write (hcfg : fcmSessionId ∉ cfg) (hnul : ∀ sid ∈ cfg, NoNul sid) (hC : Quotes b₀.toStores i) (h₀ : Base cfg b₀ .none)
    (hrows : RowsStay b₀.toStores b.toStores) (hb : Base cfg b d) (h : Echoed b) {sid : SessionId} {sock : SocketId}
    {doc : Json} {o : Obs} (cause : Write i b₀ b sid doc) (what : o.what = .balWrite sid sock doc)
    (server : stores o.server = b.toStores) : Answerable o := by
  cases cause with
  | logon doc =>
    unfold Answerable
    rw [what]; exact Or.inl doc
  | held m msg bal held hdoc =>
    obtain ⟨first, hn, hfix, -⟩ := held
    exact h.answerable hcfg hnul hb bal hn (hdoc.trans (congrArg Message.Fixed.payload hfix).symm) what server
  | fire msg expires target hdoc bal writable =>
    subst target
    obtain ⟨m, held, hm, hn⟩ := hC.retry msg expires writable
    have hm' : b.bal msg.targetSessionId = some m := by rw [bal]; exact hm
    obtain ⟨k, -, hk⟩ := expires
    -- the timer and the queue have the same message: its row is there once
    obtain ⟨row, hr, hs⟩ := hrows.saved (h₀.up (List.mem_of_getElem? hk)).1
    obtain ⟨-, ⟨row', hr', hs'⟩, -⟩ := hb.balHeld hm' hn
    rw [(hb.bal hm').key hn] at hr'
    obtain rfl : row = row' := Option.some.inj (hr.symm.trans hr')
    exact h.answerable hcfg hnul hb hm' hn (hdoc.trans (hs.payload.symm.trans hs'.payload)) what server
  | failed msg row failed saved saves source hdoc writable =>
    subst source
    cases failed with
    | nack settles => rw [hC.nack msg settles] at writable; cases writable
    | spent old nacked seq out => exact absurd (hC.retries old nacked) out
    | gaveUp gives => exact absurd (hC.full gives.established gives.full) gives.exhausted

theorem Echoed.act (hcfg : fcmSessionId ∉ cfg) (hnul : ∀ sid ∈ cfg, NoNul sid) (hC : Quotes b₀.toStores i) (h₀ : Base cfg b₀ .none)
    (hrows : RowsStay b₀.toStores b.toStores) (hb : Base cfg b d) (h : Echoed b) {b' : Books} {d' : Debt}
    (ha : Act i b₀ b d b' d') : Echoed b' := by
  refine ⟨h.persistent.act h₀ hrows hb ha, h.directed.act hb ha, fun o ho => ?_⟩
  cases ha with
  | write cause what server =>
    rcases List.mem_cons.1 ho with rfl | ho
    · exact h.write hcfg hnul hC h₀ hrows hb cause what server
    · exact h.log o ho
  | upload cause what server =>
    rcases List.mem_cons.1 ho with rfl | ho
    · unfold Answerable; rw [what]; trivial
    · exact h.log o ho
  | fcmAck data type what server counter =>
    rcases List.mem_cons.1 ho with rfl | ho
    · unfold Answerable; rw [what]; trivial
    · exact h.log o ho
  | record server what =>
    rcases List.mem_cons.1 ho with rfl | ho
    · unfold Answerable
      rcases what with ⟨hw, -⟩ | ⟨_, hw⟩ | ⟨_, hw⟩ <;> rw [hw] <;> trivial
    · exact h.log o ho
  | _ => exact h.log o ho

theorem Echoed.step {w : World} (hcfg : fcmSessionId ∉ cfg) (hnul : ∀ sid ∈ cfg, NoNul sid) (h₀ : Base cfg (books w) .none)
    (hC : Quotes (stores w.toServer) i) (h : Echoed (books w)) : Echoed (books (step cfg w i)) := by
  obtain ⟨b, hr, hend⟩ := step_reach h₀ i
  have hb : Echoed b := hr.invariant_base (P := fun b _ => Echoed b) h₀ h
    fun hb hrows _ hP ha => hP.act hcfg hnul hC h₀ hrows hb ha
  rcases hend with ⟨-, he⟩ | ⟨-, he⟩
  · rw [he]; exact hb
  · exact ⟨⟨fun hn => hb.persistent.rows (he.rows ▸ hn), fun ho => hb.persistent.log (he.log ▸ ho)⟩,
      .restart hb.directed.rows he, fun o ho => hb.log o (he.log ▸ ho)⟩

end

/-- In every run from an empty table whose events quote held messages only, everything written to a BAL but
the logon response can be acknowledged. No session is configured as `fcm`, or under an id with a NUL. -/
theorem written_answerable (cfg : List SessionId) (env : Env) (is : List Input) (hcfg : fcmSessionId ∉ cfg)
    (hnul : ∀ sid ∈ cfg, NoNul sid)
    (hquotes : Run.Along (step cfg) (fun w i => Quotes (stores w.toServer) i) (boot cfg env .empty) is) {o : Obs}
    (ho : o ∈ (run cfg (boot cfg env .empty) is).log) : Answerable o := by
  have hrow : ∀ n : Int, (books (boot cfg env .empty)).rows n = none := fun n => ExtTreeMap.getElem?_empty
  have hstart : Echoed (books (boot cfg env .empty)) :=
    ⟨⟨fun hn => absurd (hn.symm.trans (hrow _)) (by simp), fun ho => absurd ho List.not_mem_nil⟩,
      .boot cfg env (fun n row hn => absurd (hn.symm.trans (hrow n)) (by simp)), fun o ho => absurd ho List.not_mem_nil⟩
  exact (run_invariant (P := Echoed) (fun w i hb hC hP => hP.step hcfg hnul hb hC) (boot_base cfg env .empty) hquotes
    hstart).2.log o ho

theorem written_answerable_acked :
    ∃ o ∈ (run ["bal"] (boot ["bal"] .quiet .empty) acked).log, Answerable o := by
  have hret : Run.Along (step ["bal"]) (fun w i => NoneExhausted i (stores w.toServer)) (boot ["bal"] .quiet .empty)
      acked := along_noneExhausted (boot_base _ _ _) (by decide +kernel)
  have hquotes : ∀ (w : World) (e : Event), (∀ k, e ≠ .timer k) → (∀ mid, e.settles ≠ some (mid, .deliveryFailed)) →
      NoneExhausted (.quiet e) (stores w.toServer) → Quotes (stores w.toServer) (.quiet e) :=
    fun w e ht hs hr => ⟨fun msg ⟨mid, h, _⟩ => absurd h (hs mid), fun msg ⟨k, h, _⟩ => absurd h (ht k),
      fun _ _ => hr.fcm, fun _ _ => hr.fcm⟩
  have hlog : 0 < (run ["bal"] (boot ["bal"] .quiet .empty) acked).log.length := by decide +kernel
  exact ⟨_, List.getElem_mem hlog, written_answerable ["bal"] .quiet acked (by decide) (by decide)
    ⟨hquotes _ _ (by simp) (by simp [Event.settles]) hret.1, hquotes _ _ (by simp) (by simp [Event.settles]) hret.2.1,
      hquotes _ _ (by simp) (by simp [Event.settles]) hret.2.2.1,
      hquotes _ _ (by simp) (by simp [Event.settles]) hret.2.2.2.1, trivial⟩ (List.getElem_mem hlog)⟩

/-- What the source of a failed message gets is the message itself, without a sequence id. -/
theorem written_unanswerable :
    ∃ o ∈ (run ["bal"] (boot ["bal"] .quiet .empty) rejected).log, ¬ Answerable o := by
  have hwritten : ((run ["bal"] (boot ["bal"] .quiet .empty) rejected).log.head?).map (fun o =>
      match o.what with
      | .balWrite _ _ doc => (doc.value gimmmfieldnames.messageType).isNone && (doc.value gimmmfieldnames.sequenceId).isNone
      | _ => false) = some true := by decide +kernel
  obtain ⟨o, ho, hw⟩ := Option.map_eq_some_iff.1 hwritten
  refine ⟨o, List.mem_of_head? ho, fun h => ?_⟩
  unfold Answerable at h
  split at hw
  · rename_i sid sock doc hwhat
    rw [hwhat] at h
    obtain ⟨ht, hs⟩ := Bool.and_eq_true_iff.1 hw
    rcases h with rfl | ⟨n, m, msg, h, -⟩
    · simp [logonResponse, Json.value, Json.members, gimmmfieldnames.messageType] at ht
    · rw [h] at hs; cases hs
  · cases hw

end Gimmm
