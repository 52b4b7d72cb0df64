/-
The sequence id of an envelope on its way to a BAL and back. It is written as a double and read with `toInt()`, which
knows 32-bit ints only: an id from 2 ^ 31 on comes back as 0, and the ACK does not settle its message.
-/
import Gimmm.Flow.Exact
import Gimmm.Guarantees.Repeats

namespace Gimmm

open Std Prog

/-! ## Numbers -/

namespace Json

/-- An integer from 2 ^ 31 on is not read back. -/
theorem toInt_ofInt64_large {n : Int} (h : 2 ^ 31 ≤ n) : toInt (some (ofInt64 n)) = 0 := by
  have hlarge : 2 ^ 31 ≤ nearestDouble n := by
    by_cases hexact : n ≤ 2 ^ 53
    · rw [nearestDouble_of_le (by omega)]
      exact h
    · have := nearestDouble_large (n := n) (by omega)
      omega
  unfold toInt ofInt64
  exact if_neg fun hint => absurd hint.2.2 (Int.not_lt.2 hlarge)

end Json

/-! ## What an ACK does -/

/-- The message `n`, and no other one, leaves the queue of `sid`, and its row alone is written. -/
structure Acks (sid : SessionId) (n : Int) (w w' : World) : Prop where
  queue : ∃ m m', w.app.balManager sid = some m ∧ w'.app.balManager sid = some m' ∧ m.messages[n]? ≠ none ∧
    ∀ k : Int, m'.messages[k]? = if k = n then none else m.messages[k]?
  others : ∀ sid', sid' ≠ sid → w'.app.balManager sid' = w.app.balManager sid'
  fcm : w'.app.fcmMsgManager = w.app.fcmMsgManager
  rows : ∀ k : Int, w'.db.rows[k]? = if k = n then w.db.rows[k]?.map ({ · with state := .delivered }) else w.db.rows[k]?

section
variable {cfg : List SessionId} {w : World} {env : Env} {sid : SessionId} {m : MessageManager} {n : Int} {msg : Message}

instance : IsPreorder World fun w w' : World => w'.toServer = w.toServer where
  refl _ := rfl
  trans _ _ _ h h' := h'.trans h

/-- The next message is written, and nothing changes. -/
theorem sendNext_sameServer : Keeps (fun _ => True) (fun w w' : World => w'.toServer = w.toServer)
    (sendNextPendingUpstreamMessage sid) := by
  unfold sendNextPendingUpstreamMessage
  refine Keeps.bind (fun w => ?_) fun next => ?_
  · cases hm : w.app.balManager sid with
    | some m => exact wp_askBal hm (fun _ _ => rfl) fun _ _ => rfl
    | none =>
      intro env _
      obtain ⟨what, he⟩ : ∃ what, askBal sid (·.getNext) (w, env) = .error (.exception what) (w, env) := onBal_unknown hm
      rw [he]
      exact ⟨trivial, rfl⟩
  · cases next with
    | none => exact Keeps.pure _
    | some msg => exact Keeps.bind keeps_findBalSession fun sess => keeps_writeMessage Env.closed_all fun _ _ => rfl

/-- An ACK with the sequence id of a message of the queue settles it. -/
theorem handleBalAckMsg_acks (hb : Base cfg (books w) .none) (hm : w.app.balManager sid = some m)
    (hn : m.messages[n]? = some msg) (hok : env.faults.headD .ok = .ok) :
    Ends (fun _ r => Acks sid n w r.1) (fun _ r => Acks sid n w r.1) (handleBalAckMsg sid n (w, env)) := by
  have hwf : m.WF := hb.bal hm
  have hkey := hwf.key hn
  have hfind : m.findMessage n = .ok msg := by
    unfold MessageManager.findMessage
    rw [hn]
  have hremove : ∀ db env', onBal sid (MessageManager.removeMessage n) ({ w with db := db }, env') =
      .ok () (({ w with db := db } : World).putBal sid (m.without msg), env') := fun db env' => removeBal_ok hm hwf hn
  unfold handleBalAckMsg
  rw [guarded_same (bind_ok (findBalMessageManager_ok hm)), guarded_same (bind_ok (askBal_ok hm hfind)),
    guarded_same (bind_ok (updateMsgState_ok hok)), guarded_same (bind_ok (hremove _ _))]
  have hbal : (({ w with db := w.db.update msg.sequenceId .delivered } : World).putBal sid (m.without msg)).app.balManager =
      Function.update w.app.balManager sid (some (m.without msg)) :=
    congrArg (fun b : Books => b.bal) (books_putBal (w := { w with db := w.db.update msg.sequenceId .delivered }) hm)
  have hacks : Acks sid n w (({ w with db := w.db.update msg.sequenceId .delivered } : World).putBal sid (m.without msg)) := by
    refine ⟨⟨m, m.without msg, hm, ?_, ?_, fun k => ?_⟩, fun sid' hne => ?_, rfl, fun k => ?_⟩
    · rw [hbal, Function.update_self]
    · rw [hn]
      exact Option.some_ne_none _
    · rw [MessageManager.without_getElem?, hkey]
    · rw [hbal, Function.update_of_ne hne]
    · show (w.db.update msg.sequenceId .delivered).rows[k]? = _
      rw [Database.update_getElem?, hkey]
  have hsame : ∀ {w₁ w₂ : World}, w₂.toServer = w₁.toServer → Acks sid n w w₁ → Acks sid n w w₂ := by
    intro w₁ w₂ hserver h
    refine ⟨?_, ?_, ?_, ?_⟩
    · rw [hserver]
      exact h.queue
    · rw [hserver]
      exact h.others
    · rw [hserver]
      exact h.fcm
    · rw [hserver]
      exact h.rows
  exact (keeps_guarded sendNext_sameServer _ _ trivial).mono (fun _ _ h => hsame h.2 hacks) fun _ _ h => hsame h.2 hacks

/-- An ACK with another sequence id does not settle the message. -/
theorem handleBalAckMsg_other (hb : Base cfg (books w) .none) (hm : w.app.balManager sid = some m)
    (hok : env.faults.headD .ok = .ok) {k : Int} (hk : n ≠ k) :
    ¬ Ends (fun _ r => Acks sid n w r.1) (fun _ r => Acks sid n w r.1) (handleBalAckMsg sid k (w, env)) := by
  -- afterwards the queue still has the message
  have hkept : Ends (fun _ r => ¬ Acks sid n w r.1) (fun _ r => ¬ Acks sid n w r.1) (handleBalAckMsg sid k (w, env)) := by
    cases hheld : m.messages[k]? with
    | none =>
      rw [balAck_lacking fun m' hm' => by rw [hm] at hm'; cases hm'; exact hheld]
      rintro ⟨⟨m₁, m₂, h₁, h₂, hsome, hqueue⟩, -, -, -⟩
      rw [h₁] at h₂
      cases h₂
      exact hsome ((hqueue n).trans (if_pos rfl))
    | some other =>
      have hnot : ∀ w' : World, Acks sid k w w' → ¬ Acks sid n w w' := by
        rintro w' ⟨⟨m₁, m₂, h₁, h₂, -, hqueue⟩, -, -, -⟩ ⟨⟨m₁', m₂', h₁', h₂', hsome, hqueue'⟩, -, -, -⟩
        rw [h₁] at h₁'
        rw [h₂] at h₂'
        cases h₁'
        cases h₂'
        exact hsome (((hqueue n).trans (if_neg hk)).symm.trans ((hqueue' n).trans (if_pos rfl)))
      exact (handleBalAckMsg_acks hb hm hheld hok).mono (fun _ r h => hnot r.1 h) fun _ r h => hnot r.1 h
  intro hends
  cases hres : handleBalAckMsg sid k (w, env) with
  | ok a r =>
    rw [hres] at hkept hends
    exact hkept hends
  | error e r =>
    rw [hres] at hkept hends
    exact hkept hends

end

/-- After every run, for a message in the queue of a session whose envelope has its sequence id: an ACK that echoes the id of
the envelope is decoded to the id of the message, and settles this message and no other, if and only if the id is less
than 2 ^ 31, provided that the UPDATE of the row does not fail. -/
theorem acks_settle_iff (cfg : List SessionId) (env : Env) (db : Database) (is : List Input) (sid : SessionId)
    (m : MessageManager) (n : Int) (msg : Message) (hm : (run cfg (boot cfg env db) is).app.balManager sid = some m)
    (hheld : m.messages[n]? = some msg) (hn : 1 ≤ n ∧ n ≤ 2 ^ 63 - 1)
    (henvelope : msg.payload.value gimmmfieldnames.sequenceId = some (.ofInt64 n)) (s : Socket) (hs : s.sessionId = sid)
    (ack : Json) (htype : Json.toString (ack.value gimmmfieldnames.messageType) = "ACK")
    (hecho : ack.value gimmmfieldnames.sequenceId = msg.payload.value gimmmfieldnames.sequenceId) :
    (Json.toInt (ack.value gimmmfieldnames.sequenceId) = n ↔ n < 2 ^ 31) ∧
    ∀ env' : Env, env'.faults.headD .ok = .ok →
      (Ends (fun _ r => Acks sid n (run cfg (boot cfg env db) is) r.1) (fun _ r => Acks sid n (run cfg (boot cfg env db) is) r.1)
        (handleBALmsg s ack (run cfg (boot cfg env db) is, env')) ↔ n < 2 ^ 31) := by
  have hb := run_base cfg env db is
  generalize run cfg (boot cfg env db) is = w at hm hb ⊢
  have hack : handleBALmsg s ack = handleBalAckMsg sid (Json.toInt (ack.value gimmmfieldnames.sequenceId)) := by
    unfold handleBALmsg
    dsimp only
    rw [if_neg (by rw [htype]; decide), if_neg (by rw [htype]; decide), if_pos htype, hs]
  rw [hack, hecho, henvelope]
  by_cases hsmall : n < 2 ^ 31
  · rw [Json.toInt_ofInt64 (by omega) hsmall]
    exact ⟨iff_of_true rfl hsmall, fun env' hok => iff_of_true (handleBalAckMsg_acks hb hm hheld hok) hsmall⟩
  · rw [Json.toInt_ofInt64_large (by omega)]
    exact ⟨iff_of_false (by omega) hsmall, fun env' hok => iff_of_false (handleBalAckMsg_other hb hm hok (by omega)) hsmall⟩

/-- An upstream message for a BAL that is logged on. -/
def upstreamed : List Input := loggedOn "bal" ++ [.quiet (.fcmUpstream (fcmMessage "u" "bal"))]

theorem acks_settle_first : ∃ m msg, (run ["bal"] (boot ["bal"] .quiet .empty) upstreamed).app.balManager "bal" = some m ∧
    m.messages[(1 : Int)]? = some msg ∧ Json.toInt ((balAck 1).value gimmmfieldnames.sequenceId) = 1 := by
  have hheld : ((run ["bal"] (boot ["bal"] .quiet .empty) upstreamed).app.balManager "bal").map (fun m =>
      m.messages[(1 : Int)]?.map fun msg => msg.payload.value gimmmfieldnames.sequenceId) = some (some (some (.ofInt64 1))) := by
    rfl
  obtain ⟨m, hm, hmsg⟩ := Option.map_eq_some_iff.1 hheld
  obtain ⟨msg, hmsg, henvelope⟩ := Option.map_eq_some_iff.1 hmsg
  refine ⟨m, msg, hm, hmsg, ?_⟩
  refine (acks_settle_iff ["bal"] .quiet .empty upstreamed "bal" m 1 msg hm hmsg (by decide) henvelope
    ⟨5, "bal", false, true, by decide⟩ rfl (balAck 1) rfl henvelope.symm).1.2 (by decide)

/-- A table whose last message has the largest id that is an int. -/
def fullOfInts : Database :=
  (Database.empty.insert ⟨2 ^ 31 - 1, fcmSessionId, "bal", .upstream, "t", "", .delivered, .null, by decide⟩).getD .empty

/-- The next message is sent to the BAL; the id that it acks is decoded to 0, and the message stays in the queue. -/
theorem acks_lost :
    ((run ["bal"] (boot ["bal"] .quiet fullOfInts) upstreamed).log.filterMap fun o => match o.what with
      | .balWrite _ _ doc => some (Json.toString (doc.value gimmmfieldnames.messageType))
      | _ => none) = ["UPSTREAM", "LOGON_RESPONSE"] ∧
    Json.toInt ((balAck (2 ^ 31)).value gimmmfieldnames.sequenceId) = 0 ∧
    ((run ["bal"] (boot ["bal"] .quiet fullOfInts) (upstreamed ++ [.quiet (.balFrame 0 (balAck (2 ^ 31)))])).app.balManager
      "bal").map (fun m => m.messages[(2 ^ 31 : Int)]?.map (·.state)) = some (some .pendingAck) := by
  decide +kernel

end Gimmm
