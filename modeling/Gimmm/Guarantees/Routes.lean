/-
Where messages to FCM go. Of all connections exactly the newest is subscribed, and it was not told to drain:
so each message is written on one connection. But a notice unsubscribes the newest connection, whichever it
is from, and the ack of an upstream message goes to the newest connection too.
-/
import Gimmm.Flow.Exact
import Gimmm.Flow.Links

namespace Gimmm

open Std Prog

/-- The connections have the ids up to their number; the newest, and only it, is subscribed, and it was not told to
drain. -/
structure Routed (l : Links) : Prop where
  ids : ∀ k, l.fcmConn k ≠ none ↔ 1 ≤ k ∧ k ≤ l.fcmConnCount
  newest : ∃ conn, l.fcmConn l.fcmConnCount = some conn ∧ conn.subscribed = true ∧
    conn.connectionDrainingInProgress = false
  others : ∀ {k : Int} {conn : FcmConnection}, l.fcmConn k = some conn → k ≠ l.fcmConnCount → conn.subscribed = false

namespace Routed

variable {l l' : Links}

theorem of_fcm (h : Routed l) (hfcm : l'.fcm = l.fcm) : Routed l' := by
  obtain ⟨hcount, hconn⟩ := Prod.mk.inj hfcm
  refine ⟨fun k => ?_, ?_, fun {k conn} hk hne => ?_⟩
  · rw [hconn, hcount]
    exact h.ids k
  · rw [hconn, hcount]
    exact h.newest
  · rw [hconn] at hk
    rw [hcount] at hne
    exact h.others hk hne

/-- A change that tells no connection to drain and unsubscribes none. -/
theorem setFcm (h : Routed l) (id : Int) {f : FcmConnection → FcmConnection}
    (hf : ∀ c, (f c).subscribed = c.subscribed ∧ (f c).connectionDrainingInProgress = c.connectionDrainingInProgress) :
    Routed (l.setFcm id f) := by
  have hget : ∀ k, (l.setFcm id f).fcmConn k = if k = id then (l.fcmConn k).map f else l.fcmConn k := fun _ => rfl
  have hcount : (l.setFcm id f).fcmConnCount = l.fcmConnCount := rfl
  refine ⟨fun k => ?_, ?_, fun {k conn} hk hne => ?_⟩
  · rw [hget, hcount, ← h.ids k]
    split
    · cases l.fcmConn k <;> simp
    · exact Iff.rfl
  · obtain ⟨conn, hc, hs, hd⟩ := h.newest
    rw [hcount, hget, hc]
    split
    · exact ⟨f conn, rfl, (hf conn).1.trans hs, (hf conn).2.trans hd⟩
    · exact ⟨conn, rfl, hs, hd⟩
  · rw [hget] at hk
    split at hk
    · obtain ⟨c, hc, rfl⟩ := Option.map_eq_some_iff.1 hk
      exact (hf c).1.trans (h.others hc hne)
    · exact h.others hk hne

theorem last_eq (h : Routed l) {last : Int} (hopen : l.fcmConn last ≠ none) (hmax : ∀ k, l.fcmConn k ≠ none → k ≤ last) :
    last = l.fcmConnCount := by
  obtain ⟨conn, hc, -⟩ := h.newest
  have h1 := ((h.ids last).1 hopen).2
  have h2 := hmax l.fcmConnCount (by rw [hc]; exact Option.some_ne_none _)
  omega

/-- The connections after a notice. -/
theorem drained_get (h : Routed l) (id k : Int) : (l.drained id l.fcmConnCount).fcmConn k =
    if k = l.fcmConnCount + 1 then some .new
    else (l.fcmConn k).map fun c =>
      { c with
        connectionDrainingInProgress := if k = id then true else c.connectionDrainingInProgress
        subscribed := if k = l.fcmConnCount then false else c.subscribed } := by
  show ((if k = l.fcmConnCount then Option.map _ (if k = id then _ else _) else if k = id then _ else _) : Option FcmConnection).or _ = _
  by_cases hk : k = l.fcmConnCount + 1
  · have hnone : l.fcmConn k = none := by
      by_contra hne
      have := ((h.ids k).1 hne).2
      omega
    rw [if_pos hk, if_neg (by omega), if_pos hk]
    split
    · rw [hnone]; rfl
    · rw [hnone]; rfl
  · rw [if_neg hk, if_neg hk, Option.or_none]
    by_cases hid : k = id
    · by_cases hlast : k = l.fcmConnCount
      · simp only [if_pos hid, if_pos hlast, Option.map_map]
        rfl
      · simp only [if_pos hid, if_neg hlast]
    · by_cases hlast : k = l.fcmConnCount
      · simp only [if_neg hid, if_pos hlast]
      · simp only [if_neg hid, if_neg hlast, Option.map_id_fun', id_eq]

theorem drained (h : Routed l) (id : Int) : Routed (l.drained id l.fcmConnCount) := by
  have hcount : (l.drained id l.fcmConnCount).fcmConnCount = l.fcmConnCount + 1 := rfl
  obtain ⟨conn, hc, -⟩ := h.newest
  have hpos : 1 ≤ l.fcmConnCount := ((h.ids _).1 (by rw [hc]; exact Option.some_ne_none _)).1
  refine ⟨fun k => ?_, ⟨.new, ?_, rfl, rfl⟩, fun {k conn} hk hne => ?_⟩
  · rw [h.drained_get, hcount]
    split
    · rename_i hk
      exact iff_of_true (Option.some_ne_none _) (by omega)
    · rw [Ne, Option.map_eq_none_iff, ← Ne, h.ids]
      omega
  · rw [hcount, h.drained_get, if_pos rfl]
  · rw [hcount] at hne
    rw [h.drained_get, if_neg hne] at hk
    obtain ⟨c, hck, rfl⟩ := Option.map_eq_some_iff.1 hk
    dsimp only
    split
    · rfl
    · rename_i hlast
      exact h.others hck hlast

/-- No event makes a connection other than the newest subscribed. -/
theorem relink {i : Input} {b : Stores} (h : Routed l) (hr : Relink i b l l') : Routed l' := by
  cases hr with
  | @lost id back ts =>
    exact (h.setFcm id (f := fun c => { c with state := .unknown, expBoff := back c }) fun _ => ⟨rfl, rfl⟩).of_fcm rfl
  | established => exact h.setFcm _ fun _ => ⟨rfl, rfl⟩
  | drained he hopen hmax =>
    rw [h.last_eq hopen hmax]
    exact h.drained _
  | disconnected => exact h.of_fcm (Links.disconnected_fcm _ _)
  | deleted => exact h.of_fcm (Links.disconnected_fcm _ _)
  | _ => exact h.of_fcm rfl

theorem tidied (h : Routed l) (ht : l.Tidied l') : Routed l' := h.of_fcm (Prod.ext ht.fcmConnCount ht.fcmConn)

theorem start (cfg : List SessionId) (env : Env) (db : Database) : Routed (links (.start cfg env db)) := by
  have hget : ∀ k, (links (.start cfg env db)).fcmConn k = if k = 1 then some .new else none := by
    intro k
    refine (insertIfNew_getElem? (∅ : ExtTreeMap Int FcmConnection) 1 FcmConnection.new k).trans ?_
    rw [ExtTreeMap.getElem?_empty, Option.none_or]
  have hcount : (links (.start cfg env db)).fcmConnCount = 1 := rfl
  refine ⟨fun k => ?_, ⟨.new, by rw [hcount, hget, if_pos rfl], rfl, rfl⟩, fun {k conn} hk hne => ?_⟩
  · rw [hget, hcount]
    by_cases hk : k = 1
    · rw [if_pos hk]
      exact iff_of_true (Option.some_ne_none _) (by omega)
    · rw [if_neg hk]
      exact iff_of_false (fun h => h rfl) (by omega)
  · rw [hget, if_neg (by rw [hcount] at hne; exact hne)] at hk
    cases hk

theorem step (cfg : List SessionId) {w : World} (h : Routed (links w.app)) (i : Input) :
    Routed (links (step cfg w i).app) := by
  obtain ⟨-, ⟨-, l, hrelink, htidied⟩ | ⟨-, env, db, happ⟩⟩ := step_links cfg w i
  · exact (h.relink hrelink).tidied htidied
  · rw [happ]
    exact .start cfg env db

theorem run (cfg : List SessionId) (env : Env) (db : Database) (is : List Input) :
    Routed (links (Gimmm.run cfg (boot cfg env db) is).app) :=
  Run.invariant_all (I := fun w : World => Routed (links w.app)) (fun _ i h => h.step cfg i) is (start cfg env db)

theorem heard (h : Routed l) (e : Event) : Routed (l.heard e) := by
  cases e with
  | fcmSessionEstablished id => exact h.setFcm _ fun _ => ⟨rfl, rfl⟩
  | _ => exact h

/-- What is sent finds routed connections. -/
theorem run_log (cfg : List SessionId) (env : Env) (db : Database) (is : List Input) :
    ∀ o ∈ (Gimmm.run cfg (boot cfg env db) is).log, Routed (links o.server.app) := by
  refine (Run.invariant_all (I := fun w : World => Routed (links w.app) ∧ ∀ o ∈ w.log, Routed (links o.server.app))
    (fun w i h => ⟨h.1.step cfg i, fun o ho => ?_⟩) is ⟨start cfg env db, fun _ h => (by cases h)⟩).2
  obtain ⟨⟨new, hnew, hfcm⟩, -⟩ := step_links cfg w i
  rw [hnew] at ho
  rcases List.mem_append.1 ho with ho | ho
  · exact (h.1.heard i.event).of_fcm (hfcm o ho)
  · exact h.2 o ho

end Routed

/-! ## Each message goes to one connection -/

/-- The connections that are subscribed to `sendMessage`: each of them writes what is sent. -/
def Application.subscribers (app : Application) : List Int :=
  (app.fcmConnectionsMap.toList.filter (·.2.subscribed)).map (·.1)

/-- The connections that were not told to drain. -/
def Application.untold (app : Application) : List Int :=
  (app.fcmConnectionsMap.toList.filter fun p => !p.2.connectionDrainingInProgress).map (·.1)

section
variable {app : Application}

theorem mem_connections {p : FcmConnection → Bool} {k : Int} :
    k ∈ (app.fcmConnectionsMap.toList.filter fun q => p q.2).map (·.1) ↔
      ∃ conn, (links app).fcmConn k = some conn ∧ p conn = true := by
  rw [List.mem_map]
  constructor
  · rintro ⟨q, hq, rfl⟩
    obtain ⟨hq, hp⟩ := List.mem_filter.1 hq
    exact ⟨q.2, ExtTreeMap.mem_toList_iff_getElem?_eq_some.1 hq, hp⟩
  · rintro ⟨conn, hk, hp⟩
    exact ⟨(k, conn), List.mem_filter.2 ⟨ExtTreeMap.mem_toList_iff_getElem?_eq_some.2 hk, hp⟩, rfl⟩

theorem connections_nodup (p : FcmConnection → Bool) :
    ((app.fcmConnectionsMap.toList.filter fun q => p q.2).map (·.1)).Nodup := by
  have hk : app.fcmConnectionsMap.toList.Pairwise fun a b => a.1 ≠ b.1 :=
    ExtTreeMap.distinct_keys_toList.imp fun {a b} hab (h : a.1 = b.1) => hab (by rw [h]; exact ReflCmp.compare_self)
  rw [List.Nodup, List.pairwise_map]
  exact hk.filter _

/-- The ids with a property are one if there is one at most that has it. -/
theorem connections_eq {p : FcmConnection → Bool} {k : Int}
    (h : ∀ j, (∃ conn, (links app).fcmConn j = some conn ∧ p conn = true) ↔ j = k) :
    (app.fcmConnectionsMap.toList.filter fun q => p q.2).map (·.1) = [k] := by
  refine List.perm_singleton.1 ((List.perm_ext_iff_of_nodup (connections_nodup p) (List.pairwise_singleton _ k)).2 fun j => ?_)
  rw [mem_connections, h, List.mem_singleton]

theorem Routed.subscribers_eq (h : Routed (links app)) : app.subscribers = [app.fcmConnCount] := by
  refine connections_eq fun j => ⟨?_, ?_⟩
  · rintro ⟨conn, hj, hs⟩
    by_contra hne
    rw [h.others hj hne] at hs
    cases hs
  · rintro rfl
    obtain ⟨conn, hk, hs, -⟩ := h.newest
    exact ⟨conn, hk, hs⟩

end

/-- In every run, whatever fails and however often the process ends, each time that something is sent exactly one
connection is subscribed: the newest, which was not told to drain. -/
theorem sends_reach_newest (cfg : List SessionId) (env : Env) (db : Database) (is : List Input) (o : Obs)
    (ho : o ∈ (run cfg (boot cfg env db) is).log) :
    o.server.app.subscribers = [o.server.app.fcmConnCount] ∧
    (∀ k, o.server.app.fcmConnectionsMap[k]? ≠ none → k ≤ o.server.app.fcmConnCount) ∧
    ∃ conn, o.server.app.fcmConnectionsMap[o.server.app.fcmConnCount]? = some conn ∧
      conn.connectionDrainingInProgress = false := by
  have h := Routed.run_log cfg env db is o ho
  obtain ⟨conn, hconn, -, hdrain⟩ := h.newest
  exact ⟨h.subscribers_eq, fun k hk => ((h.ids k).1 hk).2, conn, hconn, hdrain⟩

/-- A message that is uploaded after the first connection was told to drain, twice. -/
def uploadedLater : List Input :=
  loggedOn "bal" ++ [.quiet (.fcmConnectionDrainingStarted 1), .quiet (.fcmConnectionDrainingStarted 1),
    .quiet (.balFrame 0 (balDownstream "a" ""))]

/-- Is a message sent to FCM? -/
def Obs.isUpload (o : Obs) : Bool :=
  match o.what with
  | .upload _ => true
  | _ => false

theorem sends_reach_newest_later : ∃ o ∈ (run ["bal"] (boot ["bal"] .quiet .empty) uploadedLater).log,
    (∃ msg, o.what = .upload msg) ∧ o.server.app.subscribers = [o.server.app.fcmConnCount] := by
  have hupload : ∃ o ∈ (run ["bal"] (boot ["bal"] .quiet .empty) uploadedLater).log, o.isUpload = true := by decide +kernel
  obtain ⟨o, ho, hwhat⟩ := hupload
  unfold Obs.isUpload at hwhat
  refine ⟨o, ho, ?_, (sends_reach_newest ["bal"] .quiet .empty uploadedLater o ho).1⟩
  cases hw : o.what with
  | upload msg => exact ⟨msg, rfl⟩
  | _ => rw [hw] at hwhat; cases hwhat

/-! ## A notice unsubscribes the newest connection -/

/-- A notice from the connection `k` leaves every other connection subscribed that was, if it was not told to drain. -/
def SparesOthers (w : World) (k : Int) (w' : World) : Prop :=
  ∀ j ∈ w.app.untold, j ≠ k → j ∈ w.app.subscribers → j ∈ w'.app.subscribers

/-- Only the newest connection was not told to drain. -/
structure AllTold (l : Links) : Prop extends Routed l where
  told : ∀ {k : Int} {conn : FcmConnection}, l.fcmConn k = some conn → k ≠ l.fcmConnCount →
    conn.connectionDrainingInProgress = true

namespace AllTold

variable {l l' : Links}

theorem of_fcm (h : AllTold l) (hfcm : l'.fcm = l.fcm) : AllTold l' := by
  obtain ⟨hcount, hconn⟩ := Prod.mk.inj hfcm
  refine ⟨h.toRouted.of_fcm hfcm, fun {k conn} hk hne => ?_⟩
  rw [hconn] at hk
  rw [hcount] at hne
  exact h.told hk hne

theorem setFcm (h : AllTold l) (id : Int) {f : FcmConnection → FcmConnection}
    (hf : ∀ c, (f c).subscribed = c.subscribed ∧ (f c).connectionDrainingInProgress = c.connectionDrainingInProgress) :
    AllTold (l.setFcm id f) := by
  refine ⟨h.toRouted.setFcm id hf, fun {k conn} hk hne => ?_⟩
  rw [show (l.setFcm id f).fcmConn k = if k = id then (l.fcmConn k).map f else l.fcmConn k from rfl] at hk
  split at hk
  · obtain ⟨c, hc, rfl⟩ := Option.map_eq_some_iff.1 hk
    exact (hf c).2.trans (h.told hc hne)
  · exact h.told hk hne

/-- A notice of the newest connection. -/
theorem drained (h : AllTold l) : AllTold (l.drained l.fcmConnCount l.fcmConnCount) := by
  refine ⟨h.toRouted.drained _, fun {k conn} hk hne => ?_⟩
  rw [h.toRouted.drained_get, if_neg (show k ≠ l.fcmConnCount + 1 from hne)] at hk
  obtain ⟨c, hc, rfl⟩ := Option.map_eq_some_iff.1 hk
  dsimp only
  split
  · rfl
  · rename_i hlast
    exact h.told hc hlast

theorem relink {i : Input} {b : Stores} (hnewest : ∀ k, i.event = .fcmConnectionDrainingStarted k → k = l.fcmConnCount)
    (h : AllTold l) (hr : Relink i b l l') : AllTold l' := by
  cases hr with
  | @lost id back ts =>
    exact (h.setFcm id (f := fun c => { c with state := .unknown, expBoff := back c }) fun _ => ⟨rfl, rfl⟩).of_fcm rfl
  | established => exact h.setFcm _ fun _ => ⟨rfl, rfl⟩
  | drained he hopen hmax =>
    rw [h.toRouted.last_eq hopen hmax, hnewest _ he]
    exact h.drained
  | disconnected => exact h.of_fcm (Links.disconnected_fcm _ _)
  | deleted => exact h.of_fcm (Links.disconnected_fcm _ _)
  | _ => exact h.of_fcm rfl

theorem start (cfg : List SessionId) (env : Env) (db : Database) : AllTold (links (.start cfg env db)) := by
  have h := Routed.start cfg env db
  refine ⟨h, fun {k conn} hk hne => absurd ?_ hne⟩
  have hids := (h.ids k).1 (by rw [hk]; exact Option.some_ne_none _)
  have hcount : (links (.start cfg env db)).fcmConnCount = 1 := rfl
  omega

theorem step {cfg : List SessionId} {w : World} {i : Input}
    (hnewest : ∀ k, i.event = .fcmConnectionDrainingStarted k → k = w.app.fcmConnCount) (h : AllTold (links w.app)) :
    AllTold (links (step cfg w i).app) := by
  obtain ⟨-, ⟨-, l, hrelink, htidied⟩ | ⟨-, env, db, happ⟩⟩ := step_links cfg w i
  · exact (h.relink hnewest hrelink).of_fcm (Prod.ext htidied.fcmConnCount htidied.fcmConn)
  · rw [happ]
    exact .start cfg env db

theorem untold_eq {app : Application} (h : AllTold (links app)) : app.untold = [app.fcmConnCount] := by
  refine connections_eq (p := fun c => !c.connectionDrainingInProgress) fun j => ⟨?_, ?_⟩
  · rintro ⟨conn, hj, hd⟩
    by_contra hne
    rw [h.told hj hne] at hd
    cases hd
  · rintro rfl
    obtain ⟨conn, hk, -, hd⟩ := h.newest
    exact ⟨conn, hk, by rw [hd]; rfl⟩

end AllTold

/-- The connections after a notice. -/
theorem step_draining {cfg : List SessionId} {w : World} (h : Routed (links w.app)) (k : Int) (env : Env) :
    (links (step cfg w ⟨.fcmConnectionDrainingStarted k, env⟩).app).fcm =
      ((links w.app).drained k w.app.fcmConnCount).fcm := by
  obtain ⟨conn, hconn, -⟩ := h.newest
  have hwp : Wp (fun _ => True) (handle (.fcmConnectionDrainingStarted k))
      (fun _ w' => links w'.app = (links w.app).drained k w.app.fcmConnCount) (fun _ _ => False) w := by
    refine Wp.bind (wp_mapLinks (links_setFcm k _) fun w₁ h₁ _ => ?_)
    refine Wp.attempt ((wp_handleFcmConnectionDrainingStarted_links h₁ (X := fun _ _ => False) fun hnone => ?_).mono
      (fun _ w' hdrained => ?_) fun _ _ h => h.elim)
    · rw [hnone] at hconn
      cases hconn
    · obtain ⟨last, hopen, hmax, hleaves⟩ := hdrained
      rw [hleaves.links, h.last_eq hopen hmax]
      rfl
  rcases step_cases cfg (i := ⟨.fcmConnectionDrainingStarted k, env⟩) trivial hwp with
    ⟨-, w', hw', he⟩ | ⟨-, _, _, _, hf, -⟩
  · have htidied := destroyConns_tidied w'.app
    rw [he, ← hw']
    exact Prod.ext htidied.fcmConnCount htidied.fcmConn
  · exact hf.elim

/-- In every run, whatever fails and however often the process ends: no notice unsubscribes another connection that was
not told to drain, and in every state exactly one was not, if and only if each notice is from the newest connection. -/
theorem notices_spare_others_iff (cfg : List SessionId) (env : Env) (db : Database) (is : List Input) :
    ((∀ is₁ k env' is₂, is = is₁ ++ ⟨.fcmConnectionDrainingStarted k, env'⟩ :: is₂ →
        SparesOthers (run cfg (boot cfg env db) is₁) k
          (step cfg (run cfg (boot cfg env db) is₁) ⟨.fcmConnectionDrainingStarted k, env'⟩)) ∧
      ∀ is₁, is₁ <+: is → ∃ k, (run cfg (boot cfg env db) is₁).app.untold = [k]) ↔
    Run.Along (step cfg) (fun w i => ∀ k, i.event = .fcmConnectionDrainingStarted k → k = w.app.fcmConnCount)
      (boot cfg env db) is := by
  constructor
  · rintro ⟨hspares, -⟩
    refine (Run.along_iff is).2 fun is₁ i is₂ his k he => ?_
    obtain ⟨e, env'⟩ := i
    obtain rfl : e = .fcmConnectionDrainingStarted k := he
    by_contra hne
    have hrouted := Routed.run cfg env db is₁
    obtain ⟨conn, hconn, -, hdrain⟩ := hrouted.newest
    -- the newest connection was not told to drain, but is not subscribed any more
    have hkept := hspares is₁ k env' is₂ his _
      (mem_connections (p := fun c => !c.connectionDrainingInProgress).2 ⟨conn, hconn, by rw [hdrain]; rfl⟩) (Ne.symm hne)
      (by rw [hrouted.subscribers_eq]; exact List.mem_singleton.2 rfl)
    rw [(hrouted.step cfg ⟨.fcmConnectionDrainingStarted k, env'⟩).subscribers_eq, List.mem_singleton] at hkept
    have hcount : (step cfg (run cfg (boot cfg env db) is₁) ⟨.fcmConnectionDrainingStarted k, env'⟩).app.fcmConnCount =
        (run cfg (boot cfg env db) is₁).app.fcmConnCount + 1 := (Prod.mk.inj (step_draining hrouted k env')).1
    have hkept : (run cfg (boot cfg env db) is₁).app.fcmConnCount = _ := hkept
    omega
  · intro hnewest
    have htold : ∀ is₁ is₂, is = is₁ ++ is₂ → AllTold (links (run cfg (boot cfg env db) is₁).app) := by
      intro is₁ is₂ his
      rw [his] at hnewest
      exact Run.invariant (I := fun w : World => AllTold (links w.app)) (fun w i hC h => h.step hC) is₁
        ((Run.along_append is₁).1 hnewest).1 (AllTold.start cfg env db)
    refine ⟨fun is₁ k env' is₂ his j hj hne _ => absurd ?_ hne, fun is₁ ⟨is₂, his⟩ => ⟨_, (htold is₁ is₂ his.symm).untold_eq⟩⟩
    rw [(htold is₁ _ his).untold_eq, List.mem_singleton] at hj
    rw [hj]
    exact ((Run.along_iff is).1 hnewest is₁ _ is₂ his k rfl).symm

/-- A notice that comes twice. -/
def toldTwice : List Input := [.quiet (.fcmConnectionDrainingStarted 1), .quiet (.fcmConnectionDrainingStarted 1)]

/-- After the second notice two connections were not told to drain, of which one is not subscribed any more. -/
theorem notices_unsubscribe_healthy :
    (run ["bal"] (boot ["bal"] .quiet .empty) toldTwice).app.untold = [2, 3] ∧
    (run ["bal"] (boot ["bal"] .quiet .empty) (toldTwice.take 1)).app.untold = [2] ∧
    (run ["bal"] (boot ["bal"] .quiet .empty) (toldTwice.take 1)).app.subscribers = [2] ∧
    (run ["bal"] (boot ["bal"] .quiet .empty) toldTwice).app.subscribers = [3] := by
  decide +kernel

/-! ## The ack of an upstream message -/

/-- The input that an upstream message makes which the connection `k` received: the handler gets `k`, and only
prints it. -/
def receivedOn (_k : Int) (doc : Json) (env : Env) : Input := ⟨.fcmUpstream doc, env⟩

/-- The message is saved and its ack is sent: neither statement fails. -/
def Env.Acks (env : Env) : Prop := env.faults.headD .ok = .ok ∧ env.faults.tail.headD .ok ≠ .crash

def Obs.IsAck (o : Obs) : Prop := ∃ original doc, o.what = .fcmAck original doc

section
variable {cfg : List SessionId} {w : World} {env : Env} {doc : Json}

theorem sendFcmAckMessage_ok (h : env.faults.headD .ok ≠ .crash) :
    sendFcmAckMessage doc (w, env) = .ok () (w.record (.fcmAck doc (fcmAckMessage doc)), env.popFault.2) := output_ok h

theorem sendFcmAckMessage_killed (h : env.faults.headD .ok = .crash) :
    sendFcmAckMessage doc (w, env) = .error .killed (w, env.popFault.2) := output_killed h

/-- The message that the handler makes. -/
def upstreamMessage (doc : Json) (n : Int) : Message :=
  .new n .upstream (Json.toString (doc.value fcmfieldnames.messageId)) "" fcmSessionId
    (Json.toString (doc.value fcmfieldnames.category))
    (gimmmMessage n "UPSTREAM" (Json.toString (doc.value fcmfieldnames.category)) doc.asObject)

theorem handleFcmNewUpstreamMessage_eq : handleFcmNewUpstreamMessage doc (w, env) =
    guarded (do
      saveMsg (upstreamMessage doc (w.app.sequenceId + 1))
      sendFcmAckMessage doc
      forwardMsgToBalsession (Json.toString (doc.value fcmfieldnames.category)) (upstreamMessage doc (w.app.sequenceId + 1)))
    (w.mapApp ({ · with sequenceId := w.app.sequenceId + 1 }), env) := guarded_same (bind_ok getNextSequenceId_ok)

/-- The start of the handler, up to the ack. -/
theorem upstream_acks (doc : Json) (hfresh : w.db.rows[w.app.sequenceId + 1]? = none) (h : env.Acks) :
    ∃ o w' rest env', o.IsAck ∧ w'.log = o :: w.log ∧ Keeps (fun _ => True) Steady rest ∧
      handleFcmNewUpstreamMessage doc (w, env) = guarded rest (w', env') := by
  obtain ⟨db, -, hsave⟩ := saveMsg_ok (upstreamMessage doc (w.app.sequenceId + 1))
    (w := w.mapApp ({ · with sequenceId := w.app.sequenceId + 1 })) hfresh h.1
  rw [handleFcmNewUpstreamMessage_eq, guarded_same (bind_ok hsave), guarded_same (bind_ok (sendFcmAckMessage_ok h.2))]
  exact ⟨_, _, _, _, ⟨doc, fcmAckMessage doc, rfl⟩, rfl, steady_frame.forwardMsgToBalsession Env.closed_all, rfl⟩

/-- The handler sends nothing when one of the two statements fails. -/
theorem upstream_unacked (doc : Json) (hfresh : w.db.rows[w.app.sequenceId + 1]? = none) (h : ¬ env.Acks) :
    ∃ w' env', w'.log = w.log ∧ (handleFcmNewUpstreamMessage doc (w, env) = .ok () (w', env') ∨
      handleFcmNewUpstreamMessage doc (w, env) = .error .killed (w', env')) := by
  rw [handleFcmNewUpstreamMessage_eq]
  by_cases hsave : env.faults.headD .ok = .ok
  · have hcrash : env.faults.tail.headD .ok = .crash := by
      by_contra hne
      exact h ⟨hsave, hne⟩
    obtain ⟨db, -, hsaved⟩ := saveMsg_ok (upstreamMessage doc (w.app.sequenceId + 1))
      (w := w.mapApp ({ · with sequenceId := w.app.sequenceId + 1 })) hfresh hsave
    rw [guarded_same (bind_ok hsaved)]
    refine ⟨_, _, ?_, Or.inr (guarded_killed (bind_error (sendFcmAckMessage_killed hcrash)))⟩
    rfl
  · rcases saveMsg_fails (upstreamMessage doc (w.app.sequenceId + 1))
      (w := w.mapApp ({ · with sequenceId := w.app.sequenceId + 1 })) hsave with ⟨what, hfail⟩ | hfail
    · refine ⟨_, _, ?_, Or.inl (guarded_error (bind_error hfail))⟩
      rfl
    · refine ⟨_, _, ?_, Or.inr (guarded_killed (bind_error hfail))⟩
      rfl

/-- What a step with an upstream message adds to the log. -/
theorem step_upstream (cfg : List SessionId) (env : Env) (doc : Json) (hfresh : w.db.rows[w.app.sequenceId + 1]? = none) :
    (env.Acks → ∃ o new, o.IsAck ∧ (step cfg w ⟨.fcmUpstream doc, env⟩).log = new ++ o :: w.log) ∧
    (¬ env.Acks → (step cfg w ⟨.fcmUpstream doc, env⟩).log = w.log) := by
  constructor
  · intro h
    obtain ⟨o, w', rest, env', hack, hlog, hkeeps, heq⟩ := upstream_acks doc hfresh h
    have hend := keeps_guarded hkeeps w' env' trivial
    unfold step
    rw [show handle (⟨.fcmUpstream doc, env⟩ : Input).event (w, (⟨.fcmUpstream doc, env⟩ : Input).env) =
      guarded rest (w', env') from heq]
    cases hres : guarded rest (w', env') with
    | ok a s =>
      rw [hres] at hend
      obtain ⟨new, hnew, -⟩ := hend.2.log
      exact ⟨o, new, hack, by rw [← hlog]; exact hnew⟩
    | error e s =>
      rw [hres] at hend
      obtain ⟨new, hnew, -⟩ := hend.2.log
      exact ⟨o, new, hack, by rw [← hlog]; exact hnew⟩
  · intro h
    obtain ⟨w', env', hlog, hres⟩ := upstream_unacked doc hfresh h
    unfold step
    rcases hres with hres | hres
    · rw [show handle (⟨.fcmUpstream doc, env⟩ : Input).event (w, (⟨.fcmUpstream doc, env⟩ : Input).env) = _ from hres]
      exact hlog
    · rw [show handle (⟨.fcmUpstream doc, env⟩ : Input).event (w, (⟨.fcmUpstream doc, env⟩ : Input).env) = _ from hres]
      exact hlog

end

/-- After every run: the ack of an upstream message that the connection `k` received is written on `k`, and on no other
connection, if and only if `k` is the newest connection or no ack is sent, as the message is not saved or the process
ends. -/
theorem acks_use_receiver_iff (cfg : List SessionId) (env : Env) (db : Database) (is : List Input) (k : Int) (doc : Json)
    (env' : Env) :
    (∀ new, (step cfg (run cfg (boot cfg env db) is) (receivedOn k doc env')).log =
        new ++ (run cfg (boot cfg env db) is).log →
      ∀ o ∈ new, o.IsAck → o.server.app.subscribers = [k]) ↔
    k = (run cfg (boot cfg env db) is).app.fcmConnCount ∨ ¬ env'.Acks := by
  have hbase := run_base cfg env db is
  have hrouted := Routed.run cfg env db is
  have hfresh : (run cfg (boot cfg env db) is).db.rows[(run cfg (boot cfg env db) is).app.sequenceId + 1]? = none :=
    hbase.freshRow
  generalize run cfg (boot cfg env db) is = w at hrouted hfresh ⊢
  obtain ⟨hacks, hnone⟩ := step_upstream cfg env' doc hfresh
  obtain ⟨⟨found, hfound, hfcm⟩, -⟩ := step_links cfg w (receivedOn k doc env')
  -- what happens in the step finds the newest connection subscribed
  have hsub : ∀ new, (step cfg w (receivedOn k doc env')).log = new ++ w.log → ∀ o ∈ new,
      o.server.app.subscribers = [w.app.fcmConnCount] := by
    intro new hnew o ho
    obtain rfl : new = found := List.append_cancel_right (hnew.symm.trans hfound)
    have hfcm : (links o.server.app).fcm = (links w.app).fcm := hfcm o ho
    have hcount : o.server.app.fcmConnCount = w.app.fcmConnCount := (Prod.mk.inj hfcm).1
    rw [(hrouted.of_fcm hfcm).subscribers_eq, hcount]
  constructor
  · intro h
    by_cases hack : env'.Acks
    · obtain ⟨o, new, ho, hlog⟩ := hacks hack
      have hlog : (step cfg w (receivedOn k doc env')).log = (new ++ [o]) ++ w.log := by
        rw [List.append_assoc]
        exact hlog
      have hmem : o ∈ new ++ [o] := List.mem_append_right _ (List.mem_singleton.2 rfl)
      have hk := h _ hlog o hmem ho
      rw [hsub _ hlog o hmem] at hk
      exact Or.inl (List.cons.inj hk).1.symm
    · exact Or.inr hack
  · rintro (rfl | hack) new hnew o ho -
    · exact hsub new hnew o ho
    · have hlog : (step cfg w (receivedOn k doc env')).log = w.log := hnone hack
      rw [hlog] at hnew
      obtain rfl : new = [] := List.append_cancel_right (by rw [← hnew]; rfl)
      cases ho

/-- An upstream message that arrives on the first connection after it was told to drain. -/
theorem ack_misrouted :
    (run ["bal"] (boot ["bal"] .quiet .empty) [.quiet (.fcmConnectionDrainingStarted 1)]).app.fcmConnectionsMap.contains 1 = true ∧
    ((run ["bal"] (boot ["bal"] .quiet .empty) [.quiet (.fcmConnectionDrainingStarted 1),
      receivedOn 1 (fcmMessage "u" "bal") .quiet]).log.filter fun o => match o.what with | .fcmAck _ _ => true | _ => false).map
        (fun o => o.server.app.subscribers) = [[2]] := by
  decide +kernel

end Gimmm
