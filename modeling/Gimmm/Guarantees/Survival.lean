/-
What can end a process: beside a crash, only a resend. What the other handlers throw is caught around them, and the
handlers of the connections find what they look for.
-/
import Gimmm.Guarantees.Routes
import Gimmm.Guarantees.Stops

namespace Gimmm

open Std Prog

/-! ## The loops -/

namespace QueueLoop

variable {L : QueueLoop} {s : World × Env}

/-- A loop stops with an exception, or at a message that is gone. -/
theorem stops (hbody : ∀ msg, Tame (L.body msg)) (l : List Int) (hs : Unharmed s) :
    Does (l.forM L.iterate) (fun _ => Unharmed)
      (fun e s' => e.catchable = true ∨ ∃ n ∈ l, ((L.queue s'.1).bind (·.messages[n]?)).isNone = true) s := by
  induction l generalizing s with
  | nil => exact hs
  | cons n l ih =>
    have hiterate : Does (L.iterate n) (fun _ => Unharmed)
        (fun e s' => e.catchable = true ∨ ((L.queue s'.1).bind (·.messages[n]?)).isNone = true) s := by
      unfold iterate
      refine Does.bind (Does.read ?_)
      split
      · refine Does.bind ((hbody _ s hs).mono (fun _ s₁ hs₁ => ?_) fun _ _ h => Or.inl h.1)
        refine Does.bind (Does.read ?_)
        split
        · rename_i hgone
          exact Or.inr hgone
        · exact hs₁
      · exact hs
    refine Does.bind (x := L.iterate n) (hiterate.mono (fun _ s₁ hs₁ => ?_) fun e s' h => ?_)
    · refine (ih hs₁).mono (fun _ _ h => h) fun e s' h => h.imp_right ?_
      rintro ⟨k, hk, hgone⟩
      exact ⟨k, List.mem_cons_of_mem _ hk, hgone⟩
    · exact h.imp_right fun hgone => ⟨n, List.mem_cons_self .., hgone⟩

theorem Whole.held {m : MessageManager} {w : World} (h : L.Whole m w) {n : Int} (hn : n ∈ m.messages.keys) :
    ((L.queue w).bind (·.messages[n]?)).isNone = false := by
  obtain ⟨m', hq, hsame⟩ := h
  rw [hq, ← Option.not_isSome]
  show (!(m'.messages[n]?).isSome) = false
  rw [hsame, ExtTreeMap.isSome_getElem?_iff_mem.2 (ExtTreeMap.mem_keys.1 hn)]
  rfl

/-- A loop whose messages can be retried as it comes to them ends, or it stops where something fails, with its queue whole. -/
theorem Steps.run_ends {I : World → Prop} {m : MessageManager} {w : World} (h : L.Steps I m) (hwf : m.WF)
    (hq : L.queue w = some m) (hI : I w) (hretries : L.RetriesLeft w) (env : Env) :
    Does (m.messages.keys.forM L.iterate) (fun _ _ => True) (fun _ s' => Bad env.faults ∧ L.Whole m s'.1) (w, env) := by
  have hkeys : m.messages.keys = m.messages.keys ++ [] := (List.append_nil _).symm
  have hretried : L.Retried m m.messages.keys := by
    intro pre n post msg hdone hfull hmsg hkind
    exact hretries m n msg hq ⟨pre, post, hdone, hfull⟩ hmsg hkind
  exact (h.walk hkeys hretried hwf hq hI env (.refl env)).mono (fun _ _ _ => trivial) fun _ _ h => h.2

end QueueLoop

/-! ## The connections -/

/-- Nothing stops `x`, whatever it finds. -/
abbrev Total (x : Handler Unit) : Prop := Safe (fun _ => True) (fun _ => False) x

theorem total_update (f : World → World) : Total (update f) := Safe.update fun _ _ _ => trivial

theorem total_singleShot (msec : Int) (t : Timer) : Total (singleShot msec t) := by
  unfold singleShot
  split
  · exact Safe.pure ()
  · exact total_update _

theorem total_handleNewBALConnection (d : Int) : Total (handleNewBALConnection d) := by
  unfold handleNewBALConnection
  refine Safe.read fun w env hs => ?_
  dsimp only
  split
  · exact hs
  · exact total_update _ _ hs

theorem total_handleBALSocketDisconnected (socket : Socket) : Total (handleBALSocketDisconnected socket) := by
  unfold handleBALSocketDisconnected
  refine Safe.read fun w env hs => ?_
  split
  · exact Safe.bind (total_update _) (fun _ => total_update _) _ hs
  · exact total_update _ _ hs

theorem total_disconnectSocket (sock : SocketId) : Total (disconnectSocket sock) := by
  unfold disconnectSocket
  refine Safe.read fun w env hs => ?_
  split
  · split
    · refine Safe.bind (total_update _) (fun _ => ?_) _ hs
      split
      · exact total_handleBALSocketDisconnected _
      · exact Safe.pure _
    · exact hs
  · exact hs

theorem total_handleDisconnected (id : Int) : Total (handleDisconnected id) := by
  unfold handleDisconnected
  refine Safe.read fun w env hs => ?_
  split
  · refine Safe.bind (total_update _) (fun _ => ?_) _ hs
    split
    · refine Safe.decision (P := fun _ => True) (fun _ _ _ => ⟨trivial, trivial⟩) fun d _ => ?_
      exact Safe.bind (total_update _) fun _ => total_singleShot _ _
    · exact Safe.pure _
  · exact hs

theorem last_of_connection {app : Application} {k : Int} {conn : FcmConnection}
    (h : app.fcmConnectionsMap[k]? = some conn) :
    ∃ last, app.fcmConnectionsMap.keys.getLast? = some last := by
  have hmem : k ∈ app.fcmConnectionsMap.keys :=
    ExtTreeMap.mem_keys.2 (ExtTreeMap.isSome_getElem?_iff_mem.1 (by rw [h]; rfl))
  exact ⟨_, List.getLast?_eq_some_getLast (List.ne_nil_of_mem hmem)⟩

/-- A notice finds a connection. -/
theorem drainingStarted_total {s : World × Env} {k : Int} {conn : FcmConnection}
    (h : s.1.app.fcmConnectionsMap[k]? = some conn) :
    Lands (fun _ => True) (fun _ => False) handleFcmConnectionDrainingStarted s := by
  obtain ⟨last, hlast⟩ := last_of_connection h
  unfold handleFcmConnectionDrainingStarted
  refine Does.bind (Does.read ?_)
  rw [hlast]
  exact total_update _ s trivial

/-! ## The events -/

/-- What can end a process. -/
inductive Fatal (w : World) (i : Input) : Prop where
  | restart (event : i.event = .restart)
  | crash (crash : .crash ∈ i.env.faults)
  /-- `resendPendingUpstreamMessages` runs in a timer, under no `catch`. -/
  | uncaught {k : Nat} {sid : SessionId} (event : i.event = .timer k) (timer : w.app.timers[k]? = some (.resend sid))
      (bad : Bad i.env.faults)
  /-- A resend erases a message of the map that it iterates over. -/
  | erased {L : QueueLoop} {w' : World} (loop : loopOf w i.event = some (L, w')) (retry : ¬ L.RetriesLeft w')

section
variable {cfg : List SessionId} {w : World} {i : Input}

theorem fit_of_base (hbase : Base cfg (books w) .none) (hwalk : Walkable w) : Fit w.app where
  fcm _ _ hg := hbase.fcm.nonempty hg
  bal _ _ hm _ _ hg := (hbase.bal hm).nonempty hg
  live := hwalk.bound.live hwalk.alive
  waiting d _ hc := by
    obtain ⟨s, hs, -⟩ := hwalk.alive.socket (Or.inl ⟨d, hc⟩)
    exact ⟨s, hs⟩

/-- The resend to FCM is caught, unless it erases a message. -/
theorem downstreamLoop_caught {w : World} {env : Env} (hstates : w.app.fcmMsgManager.Unsettled)
    (hwf : w.app.fcmMsgManager.WF) (hs : Unharmed (w, env)) (hretries : downstreamLoop.RetriesLeft w) :
    Lands (fun _ => True) (fun _ => False) (guarded downstreamLoop.run) (w, env) := by
  refine Lands.caught ?_
  have hloop := QueueLoop.stops (L := downstreamLoop) tame_downstreamLoop w.app.fcmMsgManager.messages.keys hs
  have hwhole := (downstreamLoop_steps hstates).run_ends hwf rfl trivial hretries env
  unfold QueueLoop.run
  refine Does.bind (Does.read ?_)
  show Lands _ _ (w.app.fcmMsgManager.messages.keys.forM downstreamLoop.iterate) (w, env)
  unfold Lands Does at hloop hwhole ⊢
  cases hrun : w.app.fcmMsgManager.messages.keys.forM downstreamLoop.iterate (w, env) with
  | ok a s => trivial
  | error e s =>
    rw [hrun] at hloop hwhole
    refine ⟨?_, trivial⟩
    rcases hloop with h | ⟨n, hn, hgone⟩
    · exact h
    · cases hgone.symm.trans (hwhole.2.held hn)

/-- The delayed resend of a session ends, if nothing fails and it erases no message. -/
theorem upstreamLoop_ends {w' : World} {env : Env} {sid : SessionId}
    (hsteps : ∀ m, w'.app.balManager sid = some m → m.Unsettled ∧ m.Ungrouped ∧ m.WF) (hlive : (links w'.app).Live sid)
    (hretries : (upstreamLoop sid).RetriesLeft w') (hfine : ¬ Bad env.faults) :
    Lands (fun _ => True) (fun _ => False) (upstreamLoop sid).run (w', env) := by
  unfold QueueLoop.run
  refine Does.bind (Does.read ?_)
  cases hm : w'.app.balManager sid with
  | none =>
    rw [show (upstreamLoop sid).queue w' = none from hm]
    trivial
  | some m =>
    rw [show (upstreamLoop sid).queue w' = some m from hm]
    obtain ⟨hstates, hgroups, hwf⟩ := hsteps m hm
    have hends := (upstreamLoop_steps hstates hgroups).run_ends hwf hm hlive hretries env
    exact hends.mono (fun _ _ h => h) fun _ _ h => absurd h.1 hfine

theorem completes_timer (hbase : Base cfg (books w) .none) (hwalk : Walkable w) {k : Nat} (hevent : i.event = .timer k)
    (hnot : ¬ Fatal w i) : Lands (fun _ => True) (fun _ => False) (handle (.timer k)) (w, i.env) := by
  have hfit : Fit w.app := fit_of_base hbase hwalk
  have hcrash : .crash ∉ i.env.faults := fun h => hnot (.crash h)
  show Lands _ _ (Prog.read >>= _) _
  refine Does.bind (Does.read ?_)
  cases ht : w.app.timers[k]? with
  | none => trivial
  | some t =>
    refine Does.bind (Does.update ?_)
    have hunharmed : Unharmed (w.mapApp fun app => { app with timers := app.timers.eraseIdx k }, i.env) :=
      ⟨⟨hfit.fcm, hfit.bal, hfit.live, hfit.waiting⟩, hcrash⟩
    have hmem : t ∈ w.app.timers := List.mem_of_getElem? ht
    cases t with
    | retryDownstream msg =>
      refine Does.bind ((output_still _ _ ⟨rfl, hcrash⟩).mono (fun _ s _ => ?_) fun _ _ h => h.1.elim)
      trivial
    | retryUpstream msg =>
      -- its session is configured, so its manager is found
      obtain ⟨m, hm⟩ := (hbase.known _).2 (hbase.up hmem).2
      obtain ⟨sess, hsess, -⟩ := Option.map_eq_some_iff.1 (hm : w.app.balManager msg.targetSessionId = some m)
      refine Does.bind ((forwardMsg_still hunharmed hsess msg).mono (fun _ s hs => ?_) fun _ _ h => h.1.elim)
      have hm' : s.1.app.balManager msg.targetSessionId = some m := by
        rw [hs.1]
        exact hm
      unfold modifyBal Does
      rw [onBal_known hm']
      trivial
    | resend sid =>
      have hloop : loopOf w i.event =
          some (upstreamLoop sid, w.mapApp fun app => { app with timers := app.timers.eraseIdx k }) := by
        rw [hevent]
        unfold loopOf
        dsimp only
        rw [ht]
      refine upstreamLoop_ends (fun m hm => ⟨fun n msg hmsg => ?_, hwalk.ungrouped sid m hm, hbase.bal hm⟩)
        (hfit.live sid) ?_ ?_
      · exact of_decide_eq_true (hbase.balHeld hm hmsg).pending
      · by_contra hretry
        exact hnot (.erased hloop hretry)
      · exact fun hbad => hnot (.uncaught hevent ht hbad)
    | authentication sock =>
      have htimer : .authentication sock ∈ (links w.app).timers := List.mem_filter.2 ⟨hmem, rfl⟩
      obtain ⟨s, hs, -⟩ := hwalk.alive.socket (Or.inr (Or.inr htimer))
      have hsock : w.app.sockets[sock]? = some s := hs
      refine Does.bind (Does.read ?_)
      split
      · rename_i hnone
        cases hnone.symm.trans hsock
      · exact Safe.bind (total_update _) (fun _ => total_update _) _ trivial
    | reconnect id => trivial
    | deleteSocket sock => exact Safe.bind (total_disconnectSocket sock) (fun _ => total_update _) _ trivial

theorem completes (hbase : Base cfg (books w) .none) (hwalk : Walkable w) (hrouted : Routed (links w.app))
    (hnot : ¬ Fatal w i) : Lands (fun _ => True) (fun _ => False) (handle i.event) (w, i.env) := by
  have hfit : Fit w.app := fit_of_base hbase hwalk
  have hunharmed : Unharmed (w, i.env) := ⟨hfit, fun h => hnot (.crash h)⟩
  have hlasting : ∀ {x : Handler Unit}, Lasting x → Lands (fun _ => True) (fun _ => False) x (w, i.env) :=
    fun h => (h _ hunharmed).weaken fun _ _ => trivial
  cases hevent : i.event with
  | newBALConnection d => exact total_handleNewBALConnection d _ trivial
  | balFrame sock doc =>
    refine Does.bind (Does.read ?_)
    split
    · split
      · exact hlasting (lasting_guarded (tame_handleBALmsg _ doc))
      · trivial
    · trivial
  | balDisconnected sock => exact total_disconnectSocket sock _ trivial
  | fcmUpstream doc => exact hlasting (lasting_handleFcmNewUpstreamMessage doc)
  | fcmAck doc => exact hlasting (lasting_handleFcmAckMessage doc)
  | fcmNack doc => exact hlasting (lasting_handleFcmNackMessage doc)
  | fcmReceipt doc => exact hlasting (lasting_handleFcmReceiptMessage doc)
  | fcmSessionEstablished id =>
    have hloop : loopOf w i.event = some (downstreamLoop, w.established id) := by
      rw [hevent]
      rfl
    refine downstreamLoop_caught (w := w.established id) (fun n msg hmsg => ?_) hbase.fcm
      ⟨⟨hfit.fcm, hfit.bal, hfit.live, hfit.waiting⟩, hunharmed.2⟩ ?_
    · exact of_decide_eq_true (hbase.fcmHeld hmsg).pending
    · -- the loop erases the message it is at only by a retry, which is fatal
      by_contra hretry
      exact hnot (.erased hloop hretry)
  | fcmConnectionDrainingStarted id =>
    refine Does.bind (Does.update (Lands.caught ?_))
    -- the map of connections is never empty
    obtain ⟨conn, hconn, -⟩ := hrouted.newest
    have hconn : w.app.fcmConnectionsMap[w.app.fcmConnCount]? = some conn := hconn
    obtain ⟨conn', hconn'⟩ : ∃ conn', (w.app.fcmConnectionsMap.modify id
        ({ · with connectionDrainingInProgress := true }))[w.app.fcmConnCount]? = some conn' := by
      rw [ExtTreeMap.getElem?_modify]
      split
      · rename_i heq
        rw [Std.compare_eq_iff_eq] at heq
        rw [heq, hconn]
        exact ⟨_, rfl⟩
      · exact ⟨conn, hconn⟩
    exact (drainingStarted_total hconn').weaken fun _ h => h
  | fcmDisconnected id => exact total_handleDisconnected id _ trivial
  | timer k => exact completes_timer hbase hwalk hevent hnot
  | restart => exact absurd (.restart hevent) hnot

end

theorem survives_of_harmless {cfg : List SessionId} {env : Env} {db : Database} {is : List Input} {i : Input}
    (hnot : ¬ Fatal (run cfg (boot cfg env db) is) i) : survives (run cfg (boot cfg env db) is) i = true := by
  have hruns := completes (run_base cfg env db is) (run_walkable cfg env db is) (Routed.run cfg env db is) hnot
  unfold survives
  unfold Lands Does at hruns
  split
  · rfl
  · rename_i hrun
    rw [hrun] at hruns
    exact absurd hruns.1 id

end Gimmm
