/-
The limit that a manager is constructed with. `canSendMessage` compares the count with `MAX_PENDING_MESSAGES` and not
with this limit, so a manager honours its limit if it is at least that, and no smaller one.
-/
import Gimmm.Guarantees.Queues

namespace Gimmm

open Std Prog

/-- What is done with a manager. -/
inductive LimitStep where
  | addMessage (msg : Message)
  | removeMessage (seqid : Int)
  /-- A message of the queue is marked and counted, if `canSendMessage` returns 0 for it. -/
  | send (seqid : Int)

namespace LimitStep

/-- The calls of a send. -/
def sendOps (m : MessageManager) (seqid : Int) : List QueueOp :=
  match m.messages[seqid]? with
  | some msg =>
    if (m.canSendMessage msg).toOption = some 0 then [.setState seqid .pendingAck, .incrementPendingAckCount] else []
  | none => []

/-- The calls of a step. -/
def ops (m : MessageManager) : LimitStep → List QueueOp
  | addMessage msg => [.addMessage msg.sequenceId msg]
  | removeMessage seqid => [.removeMessage seqid]
  | send seqid => sendOps m seqid

def apply (m : MessageManager) (step : LimitStep) : MessageManager := history m (step.ops m)

/-- Messages are new when they are added, and their sequence ids fresh. -/
def Allowed (m : MessageManager) : LimitStep → Prop
  | addMessage msg => msg.state = .new ∧ m.messages[msg.sequenceId]? = none
  | _ => True

end LimitStep

/-- The count is the number of messages that wait for an ack, and within the limit. -/
structure Honours (m : MessageManager) : Prop where
  exact : m.CountExact
  within : m.pendingAckCount ≤ m.maxPendingAllowed

/-- What every step keeps: the count is right, and within the limit that `canSendMessage` knows. -/
structure Metered (k : Nat) (m : MessageManager) : Prop where
  wf : m.WF
  exact : m.CountExact
  within : m.pendingAckCount ≤ maxPendingMessages
  allowed : m.maxPendingAllowed = k

section
variable {m : MessageManager} {k n : Nat}

theorem addMessage_maxPendingAllowed (seqid : Int) (msg : Message) :
    (m.addMessage seqid msg).maxPendingAllowed = m.maxPendingAllowed := by
  unfold MessageManager.addMessage
  obtain ⟨gs, hgs⟩ := MessageManager.addToGroups_eq { m with
    sequenceIdMap := m.sequenceIdMap.insertIfNew msg.fcmMessageId seqid
    messages := m.messages.insertIfNew seqid msg } msg
  rw [hgs]

namespace LimitStep

/-- A send marks a message that can be sent, or does nothing. -/
theorem send_cases (h : m.WF) (seqid : Int) : (send seqid).apply m = m ∨
    ∃ msg : Message, m.messages[seqid]? = some msg ∧ m.Sendable msg ∧ (send seqid).apply m = m.mark seqid := by
  show history m (sendOps m seqid) = m ∨ ∃ msg : Message, _ ∧ _ ∧ history m (sendOps m seqid) = _
  unfold sendOps
  cases hn : m.messages[seqid]? with
  | none => exact Or.inl rfl
  | some msg =>
    obtain ⟨c, hc, hiff⟩ := MessageManager.canSendMessage_eq h hn (h.key hn) rfl
    dsimp only
    rw [hc]
    split
    · rename_i h0
      exact Or.inr ⟨msg, rfl, hiff.1 (Option.some.inj h0), rfl⟩
    · exact Or.inl rfl

theorem send_sendable (h : m.WF) {seqid : Int} {msg : Message} (hn : m.messages[seqid]? = some msg)
    (hs : m.Sendable msg) : (send seqid).apply m = m.mark seqid := by
  obtain ⟨c, hc, hiff⟩ := MessageManager.canSendMessage_eq h hn (h.key hn) rfl
  show history m (sendOps m seqid) = _
  unfold sendOps
  rw [hn]
  dsimp only
  rw [hc, hiff.2 hs, Except.toOption, if_pos rfl]
  rfl

end LimitStep

theorem metered_new (sid : SessionId) (k : Nat) : Metered k (.new sid k) where
  wf := MessageManager.wf_new sid k
  exact := (MessageManager.pendingCount_eq_zero fun n msg hn => by simp [MessageManager.new] at hn).symm
  within := Nat.zero_le _
  allowed := rfl

theorem Metered.apply (h : Metered k m) {step : LimitStep} (hallowed : step.Allowed m) : Metered k (step.apply m) := by
  cases step with
  | addMessage msg =>
    obtain ⟨hnew, hfresh⟩ := hallowed
    have hstate : msg.state ≠ .pendingAck := by
      rw [hnew]
      decide
    refine ⟨h.wf.addMessage msg hfresh rfl, h.exact.addMessage hfresh hstate, ?_, ?_⟩
    · exact MessageManager.addMessage_pendingAckCount.trans_le h.within
    · exact (addMessage_maxPendingAllowed msg.sequenceId msg).trans h.allowed
  | removeMessage seqid =>
    rcases QueueOp.removed_cases h.wf seqid with ⟨-, he⟩ | ⟨msg, hn, he⟩
    · rw [show (LimitStep.removeMessage seqid).apply m = _ from he]
      exact h
    · rw [show (LimitStep.removeMessage seqid).apply m = _ from he]
      refine ⟨h.wf.without hn, h.exact.without (h.wf.key hn) hn, ?_, h.allowed⟩
      have hle : (m.without msg).pendingAckCount ≤ m.pendingAckCount := by
        show (if msg.state = .pendingAck then m.pendingAckCount - 1 else m.pendingAckCount) ≤ _
        split
        · exact Nat.sub_le ..
        · exact Nat.le_refl _
      exact hle.trans h.within
  | send seqid =>
    rcases LimitStep.send_cases h.wf seqid with he | ⟨msg, hn, ⟨hnew, hcount, -⟩, he⟩
    · rw [he]
      exact h
    · rw [he]
      have hstate : msg.state ≠ .pendingAck := by
        rw [hnew]
        decide
      exact ⟨h.wf.mark seqid, h.exact.mark hn hstate, hcount, h.allowed⟩

/-! ## A run that fills the window -/

/-- The message `j` of those that fill the window. -/
def filler (j : Nat) : Message := .new j .downstream "" "" "" fcmSessionId .null

/-- `n` messages are added, and each is sent at once. -/
def fill (n : Nat) : List LimitStep := (List.range n).flatMap fun j => [.addMessage (filler j), .send j]

/-- The first `n` of them wait for their acks. -/
structure Filled (k n : Nat) (m : MessageManager) : Prop extends Metered k m where
  count : m.pendingAckCount = n
  fresh : ∀ j : Int, n ≤ j → m.messages[j]? = none

theorem Filled.next (h : Filled k n m) (hn : n < maxPendingMessages) :
    LimitStep.Allowed m (.addMessage (filler n)) ∧
      Filled k (n + 1) ((LimitStep.send n).apply ((LimitStep.addMessage (filler n)).apply m)) := by
  have hallowed : LimitStep.Allowed m (.addMessage (filler n)) := ⟨rfl, h.fresh n (Int.le_refl _)⟩
  refine ⟨hallowed, ?_⟩
  have hadded : Metered k (m.addMessage n (filler n)) := h.toMetered.apply hallowed
  have hget := MessageManager.addMessage_getElem? (filler n) (h.fresh n (Int.le_refl _))
  have hheld : (m.addMessage n (filler n)).messages[(n : Int)]? = some (filler n) := (hget n).trans (if_pos rfl)
  have hcount : (m.addMessage n (filler n)).pendingAckCount = n := MessageManager.addMessage_pendingAckCount.trans h.count
  have hsend := LimitStep.send_sendable hadded.wf hheld ⟨rfl, by omega, fun hg => absurd rfl hg⟩
  have hsent : Metered k ((LimitStep.send n).apply (m.addMessage n (filler n))) := hadded.apply trivial
  show Filled k (n + 1) ((LimitStep.send n).apply (m.addMessage n (filler n)))
  rw [hsend] at hsent ⊢
  refine ⟨hsent, congrArg (· + 1) hcount, fun j hj => ?_⟩
  rw [MessageManager.mark_getElem?, if_neg (by omega), hget, if_neg (by omega)]
  exact h.fresh j (by omega)

theorem fill_filled (sid : SessionId) (k : Nat) : ∀ n : Nat, n ≤ maxPendingMessages →
    Run.Along LimitStep.apply LimitStep.Allowed (.new sid k) (fill n) ∧
      Filled k n (Run.run LimitStep.apply (.new sid k) (fill n))
  | 0, _ => ⟨trivial, metered_new sid k, rfl, fun j _ => by simp [fill, MessageManager.new]⟩
  | n + 1, hn => by
    obtain ⟨halong, hfilled⟩ := fill_filled sid k n (by omega)
    obtain ⟨hallowed, hnext⟩ := hfilled.next (by omega)
    have hfill : fill (n + 1) = fill n ++ [.addMessage (filler n), .send n] := by
      unfold fill
      rw [List.range_succ, List.flatMap_append]
      rfl
    rw [hfill, Run.run_append]
    exact ⟨(Run.along_append (fill n)).2 ⟨halong, hallowed, trivial, trivial⟩, hnext⟩

end

/-- After every step of every run in which messages are new when they are added and have fresh sequence ids, the count is
right and within the limit, if and only if the limit is not smaller than `MAX_PENDING_MESSAGES`. -/
theorem limit_honoured_iff (sid : SessionId) (maxPendingAllowed : Nat) :
    (∀ steps, Run.Along LimitStep.apply LimitStep.Allowed (.new sid maxPendingAllowed) steps →
      ∀ done, done <+: steps → Honours (Run.run LimitStep.apply (.new sid maxPendingAllowed) done)) ↔
    maxPendingMessages ≤ maxPendingAllowed := by
  constructor
  · intro hall
    by_contra hsmall
    obtain ⟨halong, hfilled⟩ := fill_filled sid maxPendingAllowed (maxPendingAllowed + 1) (by omega)
    have hwithin := (hall _ halong _ List.prefix_rfl).within
    rw [hfilled.count, hfilled.allowed] at hwithin
    omega
  · rintro hle steps halong done ⟨rest, rfl⟩
    have h : Metered maxPendingAllowed (Run.run LimitStep.apply (.new sid maxPendingAllowed) done) :=
      Run.invariant (fun _ _ hallowed h => h.apply hallowed) done ((Run.along_append done).1 halong).1
        (metered_new sid maxPendingAllowed)
    exact ⟨h.exact, by rw [h.allowed]; exact h.within.trans hle⟩

/-- Two messages are sent through a manager that is to allow one. -/
theorem limit_exceeded :
    ¬ (∀ steps, Run.Along LimitStep.apply LimitStep.Allowed (.new fcmSessionId 1) steps →
      ∀ done, done <+: steps → Honours (Run.run LimitStep.apply (.new fcmSessionId 1) done)) ∧
    (Run.run LimitStep.apply (.new fcmSessionId 1) (fill 2)).pendingAckCount = 2 := by
  refine ⟨fun hall => ?_, by decide +kernel⟩
  have halong : Run.Along LimitStep.apply LimitStep.Allowed (.new fcmSessionId 1) (fill 2) :=
    ⟨⟨rfl, by decide +kernel⟩, trivial, ⟨rfl, by decide +kernel⟩, trivial, trivial⟩
  have hwithin := (hall _ halong _ List.prefix_rfl).within
  have hcount : (Run.run LimitStep.apply (.new fcmSessionId 1) (fill 2)).pendingAckCount = 2 := by decide +kernel
  have hallowed : (Run.run LimitStep.apply (.new fcmSessionId 1) (fill 2)).maxPendingAllowed = 1 := by decide +kernel
  rw [hcount, hallowed] at hwithin
  exact absurd hwithin (by decide)

end Gimmm
