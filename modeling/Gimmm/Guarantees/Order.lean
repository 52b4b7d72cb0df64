/-
The order of the messages of a group. First uploads, next uploads and resends check the group rule, and a
retry timer does not: messages of a group go in order exactly when every retry timer fires for a message that
is not behind its group.
-/
import Gimmm.Flow.Simulation

namespace Gimmm

open Std Prog

/-- When a message is uploaded, no earlier message of its group is held. -/
def InOrder (o : Obs) : Prop :=
  match o.what with
  | .upload msg => o.server.app.fcmMsgManager.Front msg
  | _ => True

/-- A retry timer of a downstream message fires when no earlier message of its group is held. -/
def FiresInOrder (b : Stores) (i : Input) : Prop := ∀ msg, Expires i b (.retryDownstream msg) → b.fcm.Front msg

section
variable {cfg : List SessionId} {i : Input} {w : World}

theorem Upload.front {b₀ b : Books} {d : Debt} {msg : Message} (hC : FiresInOrder b₀.toStores i) (hb : Base cfg b d)
    (h : Upload i b₀ b msg) : b.fcm.Front msg := by
  cases h with
  | first new held front => exact front
  | next old s o settles fcm next =>
    rcases MessageManager.getNext_eq hb.fcm with ⟨h1, -⟩ | ⟨msg', h1, -, h3, -⟩
    · rw [h1] at next; cases next
    · rw [h1] at next; cases next; exact h3.2.2
  | resend est within held count front => exact front
  | fire expires fcm => rw [fcm]; exact hC msg expires

/-- A step whose retry timer fires in order uploads in order. -/
theorem step_in_order (h₀ : Base cfg (books w) .none) (hC : FiresInOrder (books w).toStores i)
    (h : ∀ o ∈ w.log, InOrder o) : ∀ o ∈ (step cfg w i).log, InOrder o := by
  obtain ⟨b, hr, hend⟩ := step_reach h₀ i
  have hb : ∀ o ∈ b.log, InOrder o := by
    refine hr.invariant_base (P := fun b _ => ∀ o ∈ b.log, InOrder o) h₀ h fun hb _ _ hP ha => ?_
    -- only uploads have an order to keep
    cases ha with
    | upload cause what server =>
      intro o ho
      rcases List.mem_cons.1 ho with rfl | ho
      · have hfcm := congrArg Stores.fcm server
        have hfront := cause.front hC hb
        unfold InOrder; rw [what, show o.server.app.fcmMsgManager = _ from hfcm]; exact hfront
      · exact hP o ho
    | fcmAck data type what =>
      intro o ho
      rcases List.mem_cons.1 ho with rfl | ho
      · unfold InOrder; rw [what]; trivial
      · exact hP o ho
    | write cause what =>
      intro o ho
      rcases List.mem_cons.1 ho with rfl | ho
      · unfold InOrder; rw [what]; trivial
      · exact hP o ho
    | record server what =>
      intro o ho
      rcases List.mem_cons.1 ho with rfl | ho
      · unfold InOrder
        rcases what with ⟨hw, -⟩ | ⟨_, hw⟩ | ⟨_, hw⟩ <;> rw [hw] <;> trivial
      · exact hP o ho
    | _ => exact hP
  rcases hend with ⟨-, he⟩ | ⟨-, he⟩
  · rw [← he] at hb; exact hb
  · rw [← he.log] at hb; exact hb

/-- A retry timer that fires uploads its message as it is, when nothing fails. -/
theorem step_fires (cfg : List SessionId) {msg : Message} (hexp : Expires i (stores w.toServer) (.retryDownstream msg))
    (hquiet : ∀ f ∈ i.env.faults, f = .ok) :
    ∃ o ∈ (step cfg w i).log, o.what = .upload msg ∧ o.server.app.fcmMsgManager = w.app.fcmMsgManager := by
  obtain ⟨k, hk, ht⟩ := hexp
  have hwp : Wp (i.env.Rest i.env.faults) (handle i.event)
      (fun _ w' => ∃ o ∈ w'.log, o.what = .upload msg ∧ o.server.app.fcmMsgManager = w.app.fcmMsgManager)
      (fun _ _ => False) w := by
    rw [hk]
    refine Wp.bind (Wp.read ?_)
    rw [show w.app.timers[k]? = some (.retryDownstream msg) from ht]
    refine Wp.bind (Wp.update (Wp.bind (wp_output (fun w₁ h₁ => ?_) fun ⟨f, hf, hne⟩ => hne (hquiet f hf))))
    refine wp_modifyFcm fun w₂ h₂ => ?_
    have hlog : w₂.log = (books w₁).log := by rw [← books_log, h₂]; rfl
    rw [hlog, h₁]
    exact ⟨_, List.mem_cons_self .., rfl, rfl⟩
  have h := hwp i.env (.refl _)
  unfold step
  cases hh : handle i.event (w, i.env) with
  | ok a s => rw [hh] at h; exact h.2
  | error e s => rw [hh] at h; exact absurd h.2 not_false

end

/-- In every run whose retry timers fire in order, messages of a group are uploaded in order; and in a run in
which nothing fails they are uploaded in order only if the retry timers fire in order. -/
theorem uploads_in_order (cfg : List SessionId) (env : Env) (db : Database) (is : List Input) :
    (Run.Along (step cfg) (fun w i => FiresInOrder (stores w.toServer) i) (boot cfg env db) is →
      ∀ o ∈ (run cfg (boot cfg env db) is).log, InOrder o) ∧
    ((∀ i ∈ is, ∀ f ∈ i.env.faults, f = .ok) → (∀ o ∈ (run cfg (boot cfg env db) is).log, InOrder o) →
      Run.Along (step cfg) (fun w i => FiresInOrder (stores w.toServer) i) (boot cfg env db) is) := by
  constructor
  · intro hfires
    exact (run_invariant (P := fun b => ∀ o ∈ b.log, InOrder o) (fun w i hb hC hP => step_in_order hb hC hP)
      (boot_base cfg env db) hfires (fun o ho => by cases ho)).2
  · intro hquiet hlog
    have hb := boot_base cfg env db
    generalize boot cfg env db = w at hb hlog ⊢
    induction is generalizing w with
    | nil => trivial
    | cons i is ih =>
      have hb' := step_base hb i
      refine ⟨fun msg hexp => ?_, ih (fun i' hi => hquiet i' (List.mem_cons_of_mem _ hi)) _ hb' hlog⟩
      obtain ⟨o, ho, hwhat, hfcm⟩ := step_fires cfg hexp (hquiet i (List.mem_cons_self ..))
      have := hlog o ((run_log_suffix hb' is).subset ho)
      unfold InOrder at this
      rw [hwhat, hfcm] at this
      exact this

/-- A check of `FiresInOrder`. -/
def World.firesInOrder (w : World) (i : Input) : Bool :=
  match i.event with
  | .timer k =>
    match w.app.timers[k]? with
    | some (.retryDownstream msg) =>
      w.app.fcmMsgManager.messages.toList.all fun p => p.2.groupId ≠ msg.groupId ∨ msg.sequenceId ≤ p.1
    | _ => true
  | _ => true

theorem firesInOrder_of_check {w : World} {i : Input} (h : w.firesInOrder i = true) : FiresInOrder (stores w.toServer) i := by
  rintro msg ⟨k, hk, htimer⟩ - n msg' hn hgroup
  have htimer : w.app.timers[k]? = some (.retryDownstream msg) := htimer
  unfold World.firesInOrder at h
  simp only [hk, htimer, List.all_eq_true] at h
  have hp := of_decide_eq_true (h (n, msg') (ExtTreeMap.mem_toList_iff_getElem?_eq_some.2 hn))
  exact hp.resolve_left fun hne => hne hgroup

/-- Two messages of a group, of which the first one is nacked, uploaded again by its timer, and acked. -/
def retriedInOrder : List Input :=
  loggedOn "bal" ++ [.quiet (.balFrame 0 (balDownstream "A" "g")), .quiet (.balFrame 0 (balDownstream "B" "g")),
    .quiet (.fcmNack (fcmNack "A" "SERVICE_UNAVAILABLE")), .quiet (.timer 1), .quiet (.fcmAck (fcmAck "A"))]

/-- The sequence id and the group of the message that is uploaded. -/
def Obs.uploaded (o : Obs) : Option (Int × GroupId) :=
  match o.what with
  | .upload msg => some (msg.sequenceId, msg.groupId)
  | _ => none

theorem uploads_in_order_retried :
    (∀ o ∈ (run ["bal"] (boot ["bal"] .quiet .empty) retriedInOrder).log, InOrder o) ∧
    (run ["bal"] (boot ["bal"] .quiet .empty) retriedInOrder).log.filterMap (·.uploaded) =
      [(2, "g"), (1, "g"), (1, "g")] := by
  have hcheck : Run.Along (step ["bal"]) (fun w i => w.firesInOrder i = true) (boot ["bal"] .quiet .empty) retriedInOrder := by
    decide +kernel
  refine ⟨(uploads_in_order ["bal"] .quiet .empty retriedInOrder).1 ?_, by decide +kernel⟩
  exact hcheck.mono fun _ _ h => firesInOrder_of_check h

/-- The message `A` and 99 others fill the window and `B` waits behind `A`; when a session is established all of
them get a timer, and that of `B` fires first. -/
def overtaking : List Input :=
  loggedOn "bal" ++ [.quiet (.balFrame 0 (balDownstream "A" "g"))] ++
    ((List.range 99).map fun k => .quiet (.balFrame 0 (balDownstream (toString k) ""))) ++
    [.quiet (.balFrame 0 (balDownstream "B" "g")), .quiet (.fcmSessionEstablished 1), .quiet (.timer 101)]

set_option maxRecDepth 100000 in
/-- `B` is uploaded while `A` is held. -/
theorem uploads_out_of_order : Live ["bal"] (boot ["bal"] .quiet .empty) overtaking ∧
    ∃ o ∈ (run ["bal"] (boot ["bal"] .quiet .empty) overtaking).log, ¬ InOrder o := by
  refine ⟨by unfold Live; decide +kernel, ?_⟩
  have hhead : ((run ["bal"] (boot ["bal"] .quiet .empty) overtaking).log.head?).map (fun o =>
      match o.what with
      | .upload msg => (msg.sequenceId, msg.groupId, (o.server.app.fcmMsgManager.messages[(1 : Int)]?).map (·.groupId))
      | _ => (0, "", none)) = some (101, "g", some "g") := by decide +kernel
  obtain ⟨o, ho, hw⟩ := Option.map_eq_some_iff.1 hhead
  refine ⟨o, List.mem_of_head? ho, fun h => ?_⟩
  unfold InOrder at h
  split at hw
  · rename_i msg hwhat
    rw [hwhat] at h
    simp only [Prod.mk.injEq] at hw
    obtain ⟨hseq, hgid, hfirst⟩ := hw
    obtain ⟨first, hheld, hg⟩ := Option.map_eq_some_iff.1 hfirst
    have hle := h (by rw [hgid]; decide) 1 first hheld (hg.trans hgid.symm)
    rw [hseq] at hle
    exact absurd hle (by decide)
  · cases hw

end Gimmm
