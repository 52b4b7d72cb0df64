/-
When something is written for FCM. `handleSendMessage` does not ask for the state of its connection: what is sent
while the newest connection is in its handshake, or waits to connect again, is written there all the same. So each
message stanza is written on an authenticated connection as long as the newest one is, whenever a step sends.
-/
import Gimmm.Guarantees.Routes

namespace Gimmm

open Std Prog

/-- What makes a step send something to FCM, unless a statement fails before. -/
inductive Emits (i : Input) (b : Stores) : Prop where
  | request (gid : GroupId) (asks : Asks i b gid)
  | upstream (doc : Json) (he : i.event = .fcmUpstream doc)
  /-- An ack or a nack lets the next message go. -/
  | settle (old next : Message) (s : MessageState) (settles : Settles i b old s)
      (next : (b.fcm.without old).getNext = .ok (some next))
  /-- A session starts, and the queue has messages to send again. -/
  | resend (est : Establishes i) (msg : Message) (held : b.fcm.Holds msg)
      (room : b.fcm.pendingAckCount < maxPendingMessages ∨ ¬ Patient i b.fcm)
  | fire (msg : Message) (expires : Expires i b (.retryDownstream msg))

/-- A frame of the input is from a socket that is heard. -/
def Heard (w : World) (i : Input) : Prop :=
  ∀ sock doc, i.event = .balFrame sock doc → ∃ s, w.app.sockets[sock]? = some s ∧ (s.connected && !s.signalsBlocked) = true

/-- If the step sends something, the newest connection is authenticated, or gets so by the event. -/
def Ready (w : World) (i : Input) : Prop :=
  Heard w i → Emits i (stores w.toServer) → ∀ conn, ((links w.app).heard i.event).fcmConn w.app.fcmConnCount = some conn →
    conn.state = .authenticated

/-! ## What a step sends -/

section
variable {cfg : List SessionId} {i : Input} {b₀ b : Books} {d : Debt}

theorem Upload.emits {msg : Message} (h : Upload i b₀ b msg) : Emits i b₀.toStores := by
  cases h with
  | first new held front log asks => exact .request _ asks
  | next old s o settles fcm next =>
    rw [fcm] at next
    exact .settle old msg s settles next
  | resend est within held count front patient =>
    obtain ⟨held', hheld, hfixed, hstate⟩ := held
    obtain ⟨first, hfirst, hfixed', hstate'⟩ := within _ _ hheld
    refine .resend est msg ⟨first, hfirst, hfixed'.symm.trans hfixed, hstate'.symm.trans hstate⟩ ?_
    -- the window stays full while the messages are patient
    by_contra hroom
    rw [not_or, Nat.not_lt, not_not] at hroom
    have hkept := (patient fun _ => hroom.2).2
    omega
  | fire expires => exact .fire msg expires

/-- A message that is saved and came from FCM was brought by the event. -/
theorem Reach.upstream (h : Reach i b₀ b d) : ∀ msg, d = .saved msg → msg.type = .upstream →
    ∃ doc, i.event = .fcmUpstream doc := by
  refine h.invariant (P := fun _ d => ∀ msg, d = .saved msg → msg.type = .upstream → ∃ doc, i.event = .fcmUpstream doc)
    (fun _ hd => by cases hd) fun hP ha msg hd htype => ?_
  cases ha with
  | save envelope state cause =>
    cases hd
    cases cause with
    | upstream doc he => exact ⟨doc, he⟩
    | receipt doc he type =>
      rw [type] at htype
      cases htype
    | ack old type =>
      rw [type] at htype
      cases htype
  | draw | upload | drop | touchDown | fcmAck | touchBal | connections | record => exact hP msg hd htype
  | _ => cases hd

/-- What is sent was asked for. -/
theorem Reach.emits (h : Reach i b₀ b d) : ∃ new, b.log = new ++ b₀.log ∧ ∀ o ∈ new, o.Sends → Emits i b₀.toStores := by
  have hadd : ∀ {b : Books} {o : Obs}, (∃ new, b.log = new ++ b₀.log ∧ ∀ o ∈ new, o.Sends → Emits i b₀.toStores) →
      (o.Sends → Emits i b₀.toStores) → ∃ new, o :: b.log = new ++ b₀.log ∧ ∀ o ∈ new, o.Sends → Emits i b₀.toStores := by
    rintro b o ⟨new, hnew, h⟩ ho
    refine ⟨o :: new, by rw [hnew, List.cons_append], fun o' ho' => ?_⟩
    rcases List.mem_cons.1 ho' with rfl | ho'
    · exact ho
    · exact h o' ho'
  induction h with
  | start => exact ⟨[], rfl, fun _ h => by cases h⟩
  | @act b d b' d' hr ha ih =>
    cases ha with
    | upload cause => exact hadd ih fun _ => cause.emits
    | fcmAck data type =>
      obtain ⟨doc, he⟩ := hr.upstream _ rfl type
      exact hadd ih fun _ => .upstream doc he
    | write cause what =>
      refine hadd ih fun hs => ?_
      rcases hs with ⟨msg, hs⟩ | ⟨original, doc, hs⟩ <;> (rw [what] at hs; cases hs)
    | record server what =>
      refine hadd ih fun hs => ?_
      rcases what with ⟨what, -⟩ | ⟨mid, what⟩ | ⟨mid, what⟩ <;>
        rcases hs with ⟨msg, hs⟩ | ⟨original, doc, hs⟩ <;> (rw [what] at hs; cases hs)
    | _ => exact ih

/-- A step that sends something was asked to. -/
theorem step_emits {w : World} (hb : Base cfg (books w) .none) {new : List Obs} (hnew : (step cfg w i).log = new ++ w.log)
    {o : Obs} (ho : o ∈ new) (hs : o.Sends) : Heard w i ∧ Emits i (stores w.toServer) := by
  constructor
  · intro sock doc he
    by_contra hclosed
    have hignored : handle i.event (w, i.env) = .ok () (w, i.env) := by
      rw [he]
      exact handle_balFrame_ignored fun s hsock => Bool.not_eq_true _ ▸ fun h => hclosed ⟨s, hsock, h⟩
    unfold step at hnew
    rw [hignored] at hnew
    obtain rfl : new = [] := List.append_cancel_right (hnew.symm.trans (List.nil_append _).symm)
    cases ho
  · obtain ⟨b, hr, hend⟩ := step_reach hb i
    obtain ⟨new', hnew', hemits⟩ := hr.emits
    have hlog : (step cfg w i).log = b.log := by
      rcases hend with ⟨-, he⟩ | ⟨-, he⟩
      · rw [← he]
        rfl
      · exact he.log
    obtain rfl : new = new' := List.append_cancel_right (hnew.symm.trans (hlog.trans hnew'))
    exact hemits o ho hs

end

/-! ## Where it is written -/

/-- Each connection that is subscribed at the moment is authenticated. -/
def Obs.Authenticated (o : Obs) : Prop :=
  ∀ k ∈ o.server.app.subscribers, ∃ conn, o.server.app.fcmConnectionsMap[k]? = some conn ∧ conn.state = .authenticated

/-- Whatever was sent was written on authenticated connections only. -/
def World.SentAuthenticated (w : World) : Prop := ∀ o ∈ w.log, o.Sends → o.Authenticated

theorem step_authenticated {cfg : List SessionId} {w : World} {i : Input} (hb : Base cfg (books w) .none)
    (hrouted : Routed (links w.app)) (hready : Ready w i) (h : w.SentAuthenticated) :
    (step cfg w i).SentAuthenticated := by
  intro o ho hs
  obtain ⟨⟨new, hnew, hfcm⟩, -⟩ := step_links cfg w i
  rw [hnew] at ho
  rcases List.mem_append.1 ho with ho | ho
  · obtain ⟨hheard, hemits⟩ := step_emits hb hnew ho hs
    -- what is sent finds the connections that the event left
    have hthere : Routed (links o.server.app) := (hrouted.heard i.event).of_fcm (hfcm o ho)
    obtain ⟨hcount, hconn⟩ := Prod.mk.inj (hfcm o ho)
    obtain ⟨conn, hnewest, -⟩ := hthere.newest
    have hcount : o.server.app.fcmConnCount = w.app.fcmConnCount := by
      refine hcount.trans ?_
      cases i.event <;> rfl
    intro k hk
    rw [hthere.subscribers_eq, List.mem_singleton] at hk
    refine ⟨conn, by rw [hk]; exact hnewest, hready hheard hemits conn ?_⟩
    rw [← hcount, ← hconn]
    exact hnewest
  · exact h o ho hs

/-- In every run in which the newest connection is authenticated whenever a step sends, each message stanza is written on
authenticated connections only. -/
theorem sends_authenticated (cfg : List SessionId) (env : Env) (db : Database) (is : List Input)
    (hready : Run.Along (step cfg) Ready (boot cfg env db) is) : (run cfg (boot cfg env db) is).SentAuthenticated := by
  refine (Run.invariant (I := fun w : World => Base cfg (books w) .none ∧ Routed (links w.app) ∧ w.SentAuthenticated) (fun w i hC h => ?_) is hready
    ⟨boot_base cfg env db, .start cfg env db, fun _ h => by cases h⟩).2.2
  exact ⟨step_base h.1 i, h.2.1.step cfg i, step_authenticated h.1 h.2.1 hC h.2.2⟩

/-- A session with FCM that is there before the BAL logs on. -/
def establishedFirst : List Input := .quiet (.fcmSessionEstablished 1) :: acked

theorem ready_of_all {w : World} {i : Input} (h : (((links w.app).heard i.event).fcmConn w.app.fcmConnCount).all
    (fun conn => conn.state = .authenticated) = true) : Ready w i := by
  intro _ _ conn hconn
  rw [hconn] at h
  exact of_decide_eq_true h

theorem sends_authenticated_established :
    (run ["bal"] (boot ["bal"] .quiet .empty) establishedFirst).SentAuthenticated :=
  sends_authenticated ["bal"] .quiet .empty establishedFirst
    ⟨ready_of_all (by decide +kernel), ready_of_all (by decide +kernel), ready_of_all (by decide +kernel),
      ready_of_all (by decide +kernel), ready_of_all (by decide +kernel), trivial⟩

/-- A message that is requested after FCM has told the authenticated connection to drain. -/
def switchedOver : List Input :=
  .quiet (.fcmSessionEstablished 1) :: loggedOn "bal" ++
    [.quiet (.fcmConnectionDrainingStarted 1), .quiet (.balFrame 0 (balDownstream "a" ""))]

/-- It is written on the new connection, which has not begun its handshake. -/
theorem sends_unauthenticated :
    ¬ (run ["bal"] (boot ["bal"] .quiet .empty) switchedOver).SentAuthenticated ∧
    ((run ["bal"] (boot ["bal"] .quiet .empty) switchedOver).log.filterMap fun o => match o.what with
      | .upload _ => some (o.server.app.subscribers, o.server.app.fcmConnectionsMap.toList.map fun p => (p.1, p.2.state))
      | _ => none) = [([2], [(1, .authenticated), (2, .unknown)])] := by
  refine ⟨fun h => ?_, by decide +kernel⟩
  have hupload : ((run ["bal"] (boot ["bal"] .quiet .empty) switchedOver).log.any fun o => (match o.what with
      | .upload _ => true
      | _ => false) && o.server.app.subscribers.contains 2 &&
        (o.server.app.fcmConnectionsMap[(2 : Int)]?).all (fun conn => conn.state = .unknown)) = true := by decide +kernel
  obtain ⟨o, ho, hall⟩ := List.any_eq_true.1 hupload
  rw [Bool.and_eq_true, Bool.and_eq_true] at hall
  obtain ⟨⟨hwhat, hsub⟩, hunknown⟩ := hall
  have hsends : o.Sends := by
    cases hw : o.what with
    | upload msg => exact Or.inl ⟨msg, hw⟩
    | _ => rw [hw] at hwhat; cases hwhat
  obtain ⟨conn, hconn, hstate⟩ := h o ho hsends 2 (List.contains_iff_mem.1 hsub)
  rw [hconn] at hunknown
  rw [of_decide_eq_true (p := conn.state = .unknown) hunknown] at hstate
  cases hstate

end Gimmm
