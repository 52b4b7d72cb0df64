/-
Statements on a given environment: what each one ends with when the faults that it takes are known, for
the results that follow one handler from its start.
-/
import Gimmm.Flow.Frame

namespace Gimmm

open Std Prog

section
variable {w : World} {env : Env} {α : Type}

theorem read_ok : (Prog.read : Handler World) (w, env) = .ok w (w, env) := rfl

theorem record_ok (what : Happening) : (update (.record what) : Handler Unit) (w, env) = .ok () (w.record what, env) :=
  rfl

theorem popFault_ok : (decision Env.popFault : Handler Fault) (w, env) = .ok (env.faults.headD .ok) (w, env.popFault.2) := rfl

/-! ## Catching -/

theorem guarded_same {x y : Handler Unit} {s s' : World × Env} (h : x s = y s') : guarded x s = guarded y s' := by
  unfold guarded attempt
  rw [h]

theorem guarded_error {x : Handler Unit} {what : String} {s s' : World × Env} (h : x s = .error (.exception what) s') :
    guarded x s = .ok () s' := by
  unfold guarded attempt
  rw [h]
  rfl

theorem guarded_killed {x : Handler Unit} {s s' : World × Env} (h : x s = .error .killed s') :
    guarded x s = .error .killed s' := by
  unfold guarded attempt
  rw [h]
  rfl

theorem guarded_ends {P : World × Env → Prop} {x : Handler Unit} {s : World × Env}
    (h : Ends (fun _ => P) (fun _ => P) (x s)) : Ends (fun _ => P) (fun _ => P) (guarded x s) := by
  unfold guarded attempt
  cases hx : x s with
  | ok a s' => rw [hx] at h; exact h
  | error e s' =>
    rw [hx] at h
    dsimp only
    split <;> exact h

theorem guarded_keeps {R : World → World → Prop} {x : Handler Unit} (hx : Keeps (fun _ => True) R x) {w' : World}
    {env' : Env} (h : guarded x (w, env) = .ok () (w', env')) : R w w' := by
  have hend := keeps_guarded hx w env trivial
  rw [h] at hend
  exact hend.2

/-! ## Statements -/

theorem getNextSequenceId_ok : getNextSequenceId (w, env) =
    .ok (w.app.sequenceId + 1) (w.mapApp ({ · with sequenceId := w.app.sequenceId + 1 }), env) := rfl

theorem updateMsgState_ok {msg : Message} {s : MessageState} (h : env.faults.headD .ok = .ok) :
    updateMsgState msg s (w, env) = .ok () ({ w with db := w.db.update msg.sequenceId s }, env.popFault.2) := by
  unfold updateMsgState
  rw [bind_ok popFault_ok, h]
  rfl

theorem updateMsgState_fails {msg : Message} {s : MessageState} (h : env.faults.headD .ok ≠ .ok) :
    (∃ what, updateMsgState msg s (w, env) = .error (.exception what) (w, env.popFault.2)) ∨
      updateMsgState msg s (w, env) = .error .killed (w, env.popFault.2) := by
  unfold updateMsgState
  rw [bind_ok popFault_ok]
  cases hf : env.faults.headD .ok with
  | ok => exact absurd hf h
  | fail rc => exact Or.inl ⟨_, rfl⟩
  | crash => exact Or.inr rfl

theorem saveMsg_ok (msg : Message) (hfresh : w.db.rows[msg.sequenceId]? = none) (h : env.faults.headD .ok = .ok) :
    ∃ db, w.db.insert (.ofMessage msg) = some db ∧ saveMsg msg (w, env) = .ok () ({ w with db := db }, env.popFault.2) := by
  obtain ⟨db, hdb⟩ := Database.insert_fresh (.ofMessage msg) hfresh
  refine ⟨db, hdb, ?_⟩
  unfold saveMsg
  rw [bind_ok popFault_ok, h]
  dsimp only
  rw [bind_ok read_ok, hdb]
  rfl

theorem saveMsg_fails (msg : Message) (h : env.faults.headD .ok ≠ .ok) :
    (∃ what, saveMsg msg (w, env) = .error (.exception what) (w, env.popFault.2)) ∨
      saveMsg msg (w, env) = .error .killed (w, env.popFault.2) := by
  unfold saveMsg
  rw [bind_ok popFault_ok]
  cases hf : env.faults.headD .ok with
  | ok => exact absurd hf h
  | fail rc => exact Or.inl ⟨_, rfl⟩
  | crash => exact Or.inr rfl

theorem output_ok {what : Happening} (h : env.faults.headD .ok ≠ .crash) :
    output what (w, env) = .ok () (w.record what, env.popFault.2) := by
  unfold output
  rw [bind_ok popFault_ok, if_neg h]
  rfl

theorem output_killed {what : Happening} (h : env.faults.headD .ok = .crash) :
    output what (w, env) = .error .killed (w, env.popFault.2) := by
  unfold output
  rw [bind_ok popFault_ok, if_pos h]
  rfl

/-! ## Managers -/

theorem askFcm_ok {f : MessageManager → Except Stop α} {a : α} (h : f w.app.fcmMsgManager = .ok a) :
    askFcm f (w, env) = .ok a (w, env) := by
  unfold askFcm onFcm onPart MessageManager.ask
  simp only [h]
  rfl

theorem askFcm_error {f : MessageManager → Except Stop α} {e : Stop} (h : f w.app.fcmMsgManager = .error e) :
    askFcm f (w, env) = .error e (w, env) := by
  unfold askFcm onFcm onPart MessageManager.ask
  simp only [h]
  rfl

theorem removeFcm_ok {x : FcmMessageId} {m : MessageManager} {msg : Message} (hw : w.app.fcmMsgManager = m) (hwf : m.WF)
    (h : m.findMessageWithFcmMsgId x = .ok msg) :
    onFcm (MessageManager.removeMessageWithFcmMsgId x) (w, env) = .ok () (w.putFcm (m.without msg), env) := by
  subst hw
  unfold onFcm onPart
  simp only [MessageManager.removeMessageWithFcmMsgId_eq hwf h]

theorem onBal_unknown {sid : SessionId} {x : EStateM Stop MessageManager α} (h : w.app.balManager sid = none) :
    ∃ what, onBal sid x (w, env) = .error (.exception what) (w, env) := by
  unfold onBal
  rw [bind_ok read_ok, h]
  exact ⟨_, rfl⟩

theorem onBal_known {sid : SessionId} {m : MessageManager} {x : EStateM Stop MessageManager α}
    (h : w.app.balManager sid = some m) :
    onBal sid x (w, env) = onPart (fun _ => m) (World.putBal sid) x (w, env) := by
  unfold onBal
  rw [bind_ok read_ok, h]

theorem findBalMessageManager_ok {sid : SessionId} {m : MessageManager} (h : w.app.balManager sid = some m) :
    findBalMessageManager sid (w, env) = .ok () (w, env) := by
  unfold findBalMessageManager
  rw [onBal_known h]
  show EStateM.Result.ok () (w.putBal sid m, env) = _
  rw [putBal_self h]

theorem askBal_ok {sid : SessionId} {m : MessageManager} {f : MessageManager → Except Stop α} {a : α}
    (h : w.app.balManager sid = some m) (hf : f m = .ok a) : askBal sid f (w, env) = .ok a (w, env) := by
  unfold askBal
  rw [onBal_known h]
  unfold onPart MessageManager.ask
  simp only [hf, putBal_self h]

theorem askBal_error {sid : SessionId} {m : MessageManager} {f : MessageManager → Except Stop α} {e : Stop}
    (h : w.app.balManager sid = some m) (hf : f m = .error e) : askBal sid f (w, env) = .error e (w, env) := by
  unfold askBal
  rw [onBal_known h]
  unfold onPart MessageManager.ask
  simp only [hf, putBal_self h]

theorem removeBal_ok {sid : SessionId} {m : MessageManager} {n : Int} {msg : Message} (h : w.app.balManager sid = some m)
    (hwf : m.WF) (hn : m.messages[n]? = some msg) : onBal sid (MessageManager.removeMessage n) (w, env) =
      .ok () (w.putBal sid (m.without msg), env) := by
  rw [onBal_known h]
  unfold onPart
  simp only [MessageManager.removeMessage_eq hwf hn]

/-! ## Frames -/

theorem handle_balFrame {sock : SocketId} {doc : Json} {s : Socket} (h : w.app.sockets[sock]? = some s)
    (hopen : (s.connected && !s.signalsBlocked) = true) :
    handle (.balFrame sock doc) (w, env) = guarded (handleBALmsg s doc) (w, env) := by
  refine (bind_ok read_ok).trans ?_
  simp only [h, hopen, if_true]

theorem handle_balFrame_ignored {sock : SocketId} {doc : Json}
    (h : ∀ s, w.app.sockets[sock]? = some s → (s.connected && !s.signalsBlocked) = false) :
    handle (.balFrame sock doc) (w, env) = .ok () (w, env) := by
  refine (bind_ok read_ok).trans ?_
  cases hs : w.app.sockets[sock]? with
  | none => rfl
  | some s => simp only [h s hs, Bool.false_eq_true, if_false]; rfl

end

end Gimmm
