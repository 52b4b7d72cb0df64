/-
The count of messages pending an ack. Every act keeps it exact but one: the delayed resend counts a new
message that it finds without writing the new state to it. So it stays exact in a run whose delayed
resends find no new message, or find the window full.
-/
import Gimmm.Flow.Simulation

namespace Gimmm

open Std

/-- The counts of all managers are exact. -/
structure SlotsExact (b : Stores) : Prop where
  fcm : b.fcm.CountExact
  bal : ∀ {sid : SessionId} {m : MessageManager}, b.bal sid = some m → m.CountExact

/-- A delayed resend finds no new message in its queue, or it finds the window full and no message out of
retries. -/
def MarksNothing (b : Stores) (i : Input) : Prop :=
  ∀ (sid : SessionId) (m : MessageManager), Expires i b (.resend sid) → b.bal sid = some m →
    (∀ (n : Int) (msg : Message), m.messages[n]? = some msg → msg.state ≠ .new) ∨
      maxPendingMessages ≤ m.pendingAckCount ∧ Patient i m

/-- What the queue of a delayed resend shows of that. -/
theorem marksNothing_of_queue {b : Stores} {i : Input}
    (h : ∀ k sid m, i.event = .timer k → b.timers[k]? = some (.resend sid) → b.bal sid = some m →
      m.messages.toList.all (fun p => p.2.state ≠ .new) = true) : MarksNothing b i := by
  rintro sid m ⟨k, hk, ht⟩ hm
  refine Or.inl fun n msg hn => ?_
  have := List.all_eq_true.1 (h k sid m hk ht hm) (n, msg) (ExtTreeMap.mem_toList_iff_getElem?_eq_some.2 hn)
  simpa using this

theorem marksNothing_of_event {b : Stores} {e : Event} (h : ∀ k, e ≠ .timer k) : MarksNothing b (.quiet e) :=
  marksNothing_of_queue fun k _ _ hk => absurd hk (h k)

/-- Every act keeps the count of the FCM queue exact. -/
theorem countExact_act {cfg : List SessionId} {i : Input} {b₀ b b' : Books} {d d' : Debt} (hb : Base cfg b d)
    (h : b.fcm.CountExact) (ha : Act i b₀ b d b' d') : b'.fcm.CountExact := by
  cases ha with
  | accept mid gid sid data hm source request id =>
    rename_i msg
    have hs : msg.sequenceId = b.counter + 1 := by rw [hm]; rfl
    exact h.addMessage (hs ▸ hb.fresh) (by rw [hm]; intro h; cases h)
  | mark held sendable => exact h.mark held (by rw [sendable.1]; intro h; cases h)
  | settle settles fcm log names =>
    rename_i msg s o
    obtain ⟨mid, -, hf⟩ := settles
    exact h.without rfl (hb.fcm.find (fcm ▸ hf)).2.1
  | drop held out cause => exact h.without rfl held
  | touchDown n f hf => exact h.modifyMessage fun msg => (hf msg).2
  | _ => exact h

namespace SlotsExact

variable {cfg : List SessionId} {i : Input} {b₀ b : Books} {d : Debt}

theorem setBal (h : SlotsExact b.toStores) {sid : SessionId} {m : MessageManager} (hm : m.CountExact) :
    SlotsExact (b.setBal sid m).toStores := by
  refine ⟨h.fcm, fun {s m'} hs => ?_⟩
  rcases bal_setBal hs with ⟨-, rfl⟩ | ⟨-, hs⟩
  · exact hm
  · exact h.bal hs

/-- The delayed resend does not count a new message. -/
theorem no_remark (hC : MarksNothing b₀.toStores i) (hb : Base cfg b d) {sid : SessionId} {m : MessageManager}
    {msg : Message} (resend : Resend i b₀ b sid m msg) (state : msg.state ≠ .pendingAck)
    (count : m.pendingAckCount < maxPendingMessages) : False := by
  obtain ⟨m₀, hm₀, within, hcount⟩ := resend.within
  obtain ⟨held, hheld, -, hs⟩ := resend.held
  rcases hC sid m₀ resend.expires hm₀ with hnew | ⟨hfull, hpat⟩
  · obtain ⟨first, hfirst, -, hst⟩ := within _ held hheld
    have hpend := (hb.balHeld resend.bal hheld).pending
    have hfn := hnew _ first hfirst
    rw [← hst] at hfn
    rw [← hs] at state
    simp only [MessageState.pending, decide_eq_true_eq] at hpend
    tauto
  · exact absurd (Nat.lt_of_le_of_lt (Nat.le_trans hfull (hcount hpat)) count) (Nat.lt_irrefl _)

theorem act (hC : MarksNothing b₀.toStores i) (hb : Base cfg b d) (h : SlotsExact b.toStores) {b' : Books} {d' : Debt}
    (ha : Act i b₀ b d b' d') : SlotsExact b'.toStores := by
  refine ⟨countExact_act hb h.fcm ha, ?_⟩
  cases ha with
  | deliver bal =>
    rename_i msg m
    have hwait : Waiting b.toStores msg := hb.debt
    have hcount := (h.bal bal).addMessage (hwait.bal bal) (by rw [hwait.state]; intro h; cases h)
    exact fun {sid m'} hs => (h.setBal hcount).bal hs
  | markBal bal held sendable type =>
    exact (h.setBal ((h.bal bal).mark held (by rw [sendable.1]; intro h; cases h))).bal
  | remark resend state type count => exact absurd (no_remark hC hb resend state count) not_false
  | settleBal bal held => exact (h.setBal ((h.bal bal).without rfl held)).bal
  | dropBal bal held first out => exact (h.setBal ((h.bal bal).without rfl held)).bal
  | touchBal n f bal hf => exact (h.setBal ((h.bal bal).modifyMessage fun msg => (hf msg).2)).bal
  | _ => exact h.bal

/-- A step that the process survives, and in which the delayed resend marks nothing, keeps the counts exact. -/
theorem step {w : World} {i : Input} (h₀ : Base cfg (books w) .none) (hlive : survives w i = true)
    (hC : MarksNothing (stores w.toServer) i) (h : SlotsExact (stores w.toServer)) :
    SlotsExact (stores (step cfg w i).toServer) :=
  (step_live h₀ hlive).invariant_base (P := fun b _ => SlotsExact b.toStores) h₀ h
    fun hb _ _ hP ha => act hC hb hP ha

theorem boot (cfg : List SessionId) (env : Env) : SlotsExact (stores (boot cfg env .empty).toServer) := by
  have hempty : ∀ {sid : SessionId} {m : MessageManager}, Database.Fresh .empty (env.scan sid) env.junk sid m →
      m.CountExact := by
    intro sid m hf
    refine hf.pendingAckCount.trans (MessageManager.pendingCount_eq_zero fun n msg hn => ?_).symm
    obtain ⟨row, hrow, -⟩ := hf.held n msg hn
    have hrow : (∅ : ExtTreeMap Int Row)[n]? = some row := hrow
    simp at hrow
  refine ⟨hempty (Database.loadPendingMessages_fresh ..), fun {sid m} hm => ?_⟩
  have hm : (Application.start cfg env .empty).balManager sid = some m := hm
  rw [start_balManager] at hm
  split at hm
  · cases hm; exact hempty (Database.loadPendingMessages_fresh ..)
  · cases hm

end SlotsExact

/-- In every live run from an empty table whose delayed resends mark nothing, the count of every manager is
the number of its messages pending an ack, and 0 when there is none. -/
theorem pendingAckCount_exact (cfg : List SessionId) (env : Env) (is : List Input)
    (hlive : Live cfg (boot cfg env .empty) is)
    (hmarks : Run.Along (step cfg) (fun w i => MarksNothing (stores w.toServer) i) (boot cfg env .empty) is)
    (m : MessageManager)
    (hm : m = (run cfg (boot cfg env .empty) is).app.fcmMsgManager ∨
      ∃ sid, (run cfg (boot cfg env .empty) is).app.balManager sid = some m) :
    m.pendingAckCount = m.pendingCount ∧
      ((∀ (n : Int) (msg : Message), m.messages[n]? = some msg → msg.state ≠ .pendingAck) → m.pendingAckCount = 0) := by
  have h := (run_invariant (P := fun b => SlotsExact b.toStores)
    (fun w i hb hC hP => SlotsExact.step hb hC.1 hC.2 hP) (boot_base cfg env .empty) (Run.Along.and is hlive hmarks)
    (SlotsExact.boot cfg env)).2
  rcases hm with rfl | ⟨sid, hm⟩
  · exact ⟨h.fcm, fun hnone => h.fcm.trans (MessageManager.pendingCount_eq_zero hnone)⟩
  · exact ⟨h.bal hm, fun hnone => (h.bal hm).trans (MessageManager.pendingCount_eq_zero hnone)⟩

/-- One upstream message, and the delayed resend. -/
def resent : List Input :=
  loggedOn "bal" ++ [.quiet (.fcmUpstream (fcmMessage "m" "bal")), .quiet (.timer 0)]

theorem pendingAckCount_exact_resent :
    (run ["bal"] (boot ["bal"] .quiet .empty) resent).app.fcmMsgManager.pendingAckCount =
      (run ["bal"] (boot ["bal"] .quiet .empty) resent).app.fcmMsgManager.pendingCount := by
  refine (pendingAckCount_exact ["bal"] .quiet resent (by unfold Live; decide +kernel)
    ⟨marksNothing_of_event (by simp), marksNothing_of_event (by simp), marksNothing_of_event (by simp),
      marksNothing_of_queue fun k sid m hk ht hm => ?_, trivial⟩ _ (Or.inl rfl)).1
  cases hk
  obtain rfl : sid = "bal" := by
    simpa using ((run_base ["bal"] .quiet .empty (resent.take 3)).known sid).1 ⟨m, hm⟩
  have hall : ((run ["bal"] (boot ["bal"] .quiet .empty) (resent.take 3)).app.balManager "bal").all
      (fun m => m.messages.toList.all fun p => p.2.state ≠ .new) = true := by decide +kernel
  have hm : (run ["bal"] (boot ["bal"] .quiet .empty) (resent.take 3)).app.balManager "bal" = some m := hm
  rw [hm] at hall; exact hall

/-- 101 messages fill the window and leave one new; after an ack the delayed resend finds it. -/
def leaking : List Input :=
  loggedOn "bal" ++ ((List.range 101).map fun k => .quiet (.fcmUpstream (fcmMessage (toString k) "bal"))) ++
    [.quiet (.balFrame 0 (balAck 1)), .quiet (.timer 0)]

set_option maxRecDepth 100000 in
theorem pendingAckCount_leaks : Live ["bal"] (boot ["bal"] .quiet .empty) leaking ∧
    ((run ["bal"] (boot ["bal"] .quiet .empty) leaking).app.balManager "bal").map
      (fun m => (m.pendingAckCount, m.pendingCount)) = some (100, 99) :=
  ⟨by unfold Live; decide +kernel, by decide +kernel⟩

end Gimmm
