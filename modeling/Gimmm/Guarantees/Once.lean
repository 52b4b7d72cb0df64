/-
Uploads between two establishments of a session. A message that `getNext` has chosen stays new, so the next
ack can choose it again. A message is uploaded once when no ack does so.
-/
import Gimmm.Flow.Simulation

namespace Gimmm

open Std

def Obs.uploads (o : Obs) (n : Int) : Bool :=
  match o.what with
  | .upload msg => msg.sequenceId = n
  | _ => false

/-- How often the message `n` is uploaded. -/
def uploads (n : Int) (log : List Obs) : Nat := log.countP (·.uploads n)

/-- No session is established, no nack arrives and no retry timer of a downstream message fires. -/
structure Calm (b : Stores) (i : Input) : Prop where
  established : ¬ Establishes i
  nacked : ∀ doc, i.event ≠ .fcmNack doc
  fired : ∀ msg, ¬ Expires i b (.retryDownstream msg)

theorem calm_of_event {b : Stores} {e : Event} (hest : ∀ id, e ≠ .fcmSessionEstablished id)
    (hnack : ∀ doc, e ≠ .fcmNack doc) (ht : ∀ k, e ≠ .timer k) : Calm b (.quiet e) where
  established := fun ⟨id, h⟩ => hest id h
  nacked := hnack
  fired _ := fun ⟨k, h, _⟩ => ht k h

/-- The message that an ack lets go next is not uploaded yet, if it was accepted after the table was `rows`. -/
def NextFresh (rows : Int → Option Row) (b : Books) (i : Input) : Prop :=
  ∀ old s msg, Settles i b.toStores old s → (b.fcm.without old).getNext = .ok (some msg) →
    rows msg.sequenceId = none → uploads msg.sequenceId b.log = 0

theorem uploads_cons_quiet {o : Obs} (ho : ∀ msg, o.what ≠ .upload msg) (n : Int) (log : List Obs) :
    uploads n (o :: log) = uploads n log := by
  refine List.countP_cons_of_neg fun h => ?_
  unfold Obs.uploads at h
  split at h
  · rename_i msg hw; exact ho msg hw
  · cases h

theorem uploads_cons_other {o : Obs} {msg : Message} (ho : o.what = .upload msg) {n : Int} (hn : msg.sequenceId ≠ n)
    (log : List Obs) : uploads n (o :: log) = uploads n log := by
  refine List.countP_cons_of_neg fun h => ?_
  simp only [Obs.uploads, ho, decide_eq_true_eq] at h
  exact hn h

theorem uploads_cons_le (o : Obs) (n : Int) (log : List Obs) : uploads n (o :: log) ≤ uploads n log + 1 := by
  unfold uploads
  rw [List.countP_cons]
  split <;> omega

section
variable {cfg : List SessionId} {i : Input} {b₀ b b' : Books} {d d' : Debt}

/-- A message without a row is not uploaded yet. -/
theorem Base.uploads_unsaved (h : Base cfg b d) {n : Int} (hn : b.rows n = none) : Gimmm.uploads n b.log = 0 := by
  refine List.countP_eq_zero.2 fun o ho hu => ?_
  unfold Obs.uploads at hu
  split at hu
  · rename_i msg hw
    obtain ⟨row, hr, -⟩ := h.uploads ho hw
    rw [of_decide_eq_true hu, hn] at hr
    cases hr
  · cases hu

/-- An upload in a calm event is the first one of its message. -/
theorem Upload.first_time {rows : Int → Option Row} (hC : Calm b₀.toStores i) (hN : NextFresh rows b₀ i)
    (h₀ : Base cfg b₀ .none) {msg : Message} (h : Upload i b₀ b msg) (hn : rows msg.sequenceId = none) :
    uploads msg.sequenceId b.log = 0 := by
  cases h with
  | first new held front log =>
    rw [log]
    refine h₀.uploads_unsaved ?_
    cases hr : b₀.rows msg.sequenceId with
    | none => rfl
    | some row => have := (h₀.rows hr).2; omega
  | next old s o settles fcm next log names =>
    obtain ⟨mid, hw, -⟩ := names
    rw [log, uploads_cons_quiet fun msg' hw' => by rcases hw with hw | hw <;> rw [hw] at hw' <;> cases hw']
    rw [fcm] at next
    exact hN old s msg settles next hn
  | resend est => exact absurd est hC.established
  | fire expires => exact absurd expires (hC.fired msg)

/-- A calm step uploads no message for the second time. -/
theorem step_uploads_once {rows : Int → Option Row} {w : World} (h₀ : Base cfg (books w) .none)
    (hC : Calm (books w).toStores i) (hN : NextFresh rows (books w) i)
    (h : ∀ n, rows n = none → uploads n w.log ≤ 1) : ∀ n, rows n = none → uploads n (step cfg w i).log ≤ 1 := by
  obtain ⟨b, hr, hend⟩ := step_reach h₀ i
  have hb : ∀ n, rows n = none → uploads n b.log ≤ 1 := by
    refine hr.invariant (P := fun b _ => ∀ n, rows n = none → uploads n b.log ≤ 1) h fun hP ha n hn => ?_
    have hquiet : ∀ {o : Obs} {log : List Obs}, uploads n log ≤ 1 → (∀ msg, o.what ≠ .upload msg) →
        uploads n (o :: log) ≤ 1 := fun h ho => by rw [uploads_cons_quiet ho]; exact h
    cases ha with
    | upload cause what server =>
      rename_i b₁ _ msg o
      show uploads n (o :: b₁.log) ≤ 1
      by_cases hmsg : msg.sequenceId = n
      · subst hmsg
        have h0 := cause.first_time hC hN h₀ hn
        have hle := uploads_cons_le o msg.sequenceId b₁.log
        omega
      · rw [uploads_cons_other what hmsg]; exact hP n hn
    | fcmAck data type what => exact hquiet (hP n hn) fun msg hw => by rw [what] at hw; cases hw
    | write cause what => exact hquiet (hP n hn) fun msg hw => by rw [what] at hw; cases hw
    | record server what =>
      refine hquiet (hP n hn) fun msg hw => ?_
      rcases what with ⟨hw', -⟩ | ⟨_, hw'⟩ | ⟨_, hw'⟩ <;> rw [hw'] at hw <;> cases hw
    | _ => exact hP n hn
  rcases hend with ⟨-, he⟩ | ⟨-, he⟩
  · rw [← he] at hb; exact hb
  · rw [← he.log] at hb; exact hb

end

/-- In every segment of a run, after the inputs `is`, in which no session is established, no nack arrives, no
retry timer fires and no ack lets go a message again, every message accepted in it is uploaded at most once. -/
theorem uploads_once (cfg : List SessionId) (env : Env) (db : Database) (is js : List Input) (w : World)
    (hw : w = run cfg (boot cfg env db) is)
    (hcalm : Run.Along (step cfg) (fun w i => Calm (stores w.toServer) i) w js)
    (hfresh : Run.Along (step cfg) (fun w' i => NextFresh (books w).rows (books w') i) w js)
    (n : Int) (hn : w.db.rows[n]? = none) : uploads n (run cfg w js).log ≤ 1 := by
  have hb : Base cfg (books w) .none := hw ▸ run_base cfg env db is
  have hstart : ∀ n, (books w).rows n = none → uploads n w.log ≤ 1 :=
    fun n hn => (hb.uploads_unsaved hn).trans_le (Nat.zero_le 1)
  exact (run_invariant (P := fun b => ∀ n, (books w).rows n = none → uploads n b.log ≤ 1)
    (fun _ _ hb hC hP => step_uploads_once hb hC.1 hC.2 hP) hb (Run.Along.and js hcalm hfresh) hstart).2 n hn

/-- `A` is acked and `B` of its group goes next; then `B` is acked. -/
def chained : List Input :=
  [.quiet (.balFrame 0 (balDownstream "A" "g")), .quiet (.balFrame 0 (balDownstream "B" "g")),
    .quiet (.fcmAck (fcmAck "A")), .quiet (.fcmAck (fcmAck "B"))]

theorem uploads_once_chained : uploads 2 (run ["bal"] (run ["bal"] (boot ["bal"] .quiet .empty) (loggedOn "bal"))
    chained).log ≤ 1 := by
  have hidle : ∀ (rows : Int → Option Row) (b : Books) (e : Event), e.settles = none → NextFresh rows b (.quiet e) :=
    fun rows b e he old s msg ⟨mid, hs, _⟩ => by
      have hs : e.settles = some (mid, s) := hs
      rw [he] at hs; cases hs
  have hack : ∀ (rows : Int → Option Row) (b : Books) (mid : FcmMessageId), (b.fcm.findMessageWithFcmMsgId mid).toOption.map
      (fun old => (b.fcm.without old).getNext.toOption.map fun next => next.all fun msg =>
        uploads msg.sequenceId b.log = 0) = some (some true) → NextFresh rows b (.quiet (.fcmAck (fcmAck mid))) := by
    rintro rows b mid heval old s msg ⟨mid', he, hf⟩ hnext -
    have he : some (mid, MessageState.delivered) = some (mid', s) := he
    cases he
    obtain ⟨next, hn, hP⟩ := MessageManager.getNext_of_removed heval hf
    rw [hn] at hnext
    cases hnext
    simpa using hP
  refine uploads_once ["bal"] .quiet .empty (loggedOn "bal") chained _ rfl
    ⟨calm_of_event (by simp) (by simp) (by simp), calm_of_event (by simp) (by simp) (by simp),
      calm_of_event (by simp) (by simp) (by simp), calm_of_event (by simp) (by simp) (by simp), trivial⟩
    ⟨hidle _ _ _ rfl, hidle _ _ _ rfl, hack _ _ "A" (by decide +kernel), hack _ _ "B" (by decide +kernel), trivial⟩
    2 (by decide +kernel)

/-- The BAL of "bal" is logged on and a first session is established. -/
def ready : List Input := loggedOn "bal" ++ [.quiet (.fcmSessionEstablished 1)]

/-- `B` goes when `A` is acked, and again when `C` is. -/
def repeated : List Input :=
  [.quiet (.balFrame 0 (balDownstream "A" "g")), .quiet (.balFrame 0 (balDownstream "B" "g")),
    .quiet (.balFrame 0 (balDownstream "C" "")), .quiet (.fcmAck (fcmAck "A")), .quiet (.fcmAck (fcmAck "C"))]

/-- Between two sessions `B` is accepted and uploaded twice. -/
theorem uploads_twice :
    Live ["bal"] (boot ["bal"] .quiet .empty) (ready ++ repeated ++ [.quiet (.fcmSessionEstablished 1)]) ∧
      Run.Along (step ["bal"]) (fun w i => Calm (stores w.toServer) i) (run ["bal"] (boot ["bal"] .quiet .empty) ready)
        repeated ∧
      (run ["bal"] (boot ["bal"] .quiet .empty) ready).db.rows[(2 : Int)]? = none ∧
      uploads 2 (run ["bal"] (run ["bal"] (boot ["bal"] .quiet .empty) ready) repeated).log = 2 := by
  refine ⟨by unfold Live; decide +kernel, ?_, by decide +kernel, by decide +kernel⟩
  exact ⟨calm_of_event (by simp) (by simp) (by simp), calm_of_event (by simp) (by simp) (by simp),
    calm_of_event (by simp) (by simp) (by simp), calm_of_event (by simp) (by simp) (by simp),
    calm_of_event (by simp) (by simp) (by simp), trivial⟩

end Gimmm
