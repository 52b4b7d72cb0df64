/-
Every step of the server is a sequence of acts: the books after an event are reached from the books
before it, also when the process ends in the event and starts again.
-/
import Gimmm.Flow.Fcm

namespace Gimmm

open Std Prog

section
variable {cfg : List SessionId} {i : Input} {w₀ w : World} {fs : List Fault}

/-! ## Connections -/

/-- A statement that changes connections, or timers that are no retries. -/
theorem wp_mapApp {E : Env → Prop} {f : Application → Application} {d : Debt} {Q : Unit → World → Prop}
    {X : Stop → World → Prop} (hr : Reached i w₀ w d) (fcm : (f w.app).fcmMsgManager = w.app.fcmMsgManager)
    (bal : (f w.app).balManager = w.app.balManager) (counter : (f w.app).sequenceId = w.app.sequenceId)
    (timers : ∀ t ∈ (f w.app).timers, t ∈ w.app.timers ∨ t.isRetry = false)
    (next : ∀ w', w' = w.mapApp f → Reached i w₀ w' d → Q () w') : Wp E (update (.mapApp f)) Q X w :=
  Wp.update (next _ rfl (hr.connections fcm bal counter rfl rfl timers))

theorem wp_deleteTimerContext {E : Env → Prop} {sock : SocketId} {Q : Unit → World → Prop} {X : Stop → World → Prop}
    (hr : Reached i w₀ w .none) (next : ∀ w', Reached i w₀ w' .none → Q () w') :
    Wp E (deleteTimerContext sock) Q X w :=
  wp_mapApp hr rfl rfl rfl (fun _ ht => Or.inl (List.mem_of_mem_filter ht)) fun w' _ => next w'

theorem wp_eraseUnauthenticated {E : Env → Prop} {n : Int} {Q : Unit → World → Prop} {X : Stop → World → Prop}
    (hr : Reached i w₀ w .none) (next : ∀ w', Reached i w₀ w' .none → Q () w') :
    Wp E (eraseUnauthenticated n) Q X w :=
  wp_mapApp hr rfl rfl rfl (fun _ ht => Or.inl ht) fun w' _ => next w'

theorem wp_handleBALSocketDisconnected {E : Env → Prop} {s : Socket} (hr : Reached i w₀ w .none) :
    Wp E (handleBALSocketDisconnected s) (fun _ w' => Reached i w₀ w' .none)
      (fun _ w' => Reached i w₀ w' .none) w := by
  unfold handleBALSocketDisconnected
  refine Wp.bind (Wp.read ?_)
  split
  · exact Wp.bind (wp_deleteTimerContext hr fun w₁ hr₁ => wp_eraseUnauthenticated hr₁ fun _ h => h)
  · exact wp_mapApp hr rfl (balManager_modify rfl fun _ => rfl) rfl (fun _ ht => Or.inl ht) fun _ _ h => h

theorem wp_disconnectSocket {E : Env → Prop} {sock : SocketId} (hr : Reached i w₀ w .none) :
    Wp E (disconnectSocket sock) (fun _ w' => Reached i w₀ w' .none)
      (fun _ w' => Reached i w₀ w' .none) w := by
  unfold disconnectSocket
  refine Wp.bind (Wp.read ?_)
  split
  · split
    · refine Wp.bind (wp_mapApp hr rfl rfl rfl (fun _ ht => Or.inl ht) fun w₁ _ hr₁ => ?_)
      split
      · exact wp_handleBALSocketDisconnected hr₁
      · exact Wp.pure hr₁
    · exact Wp.pure hr
  · exact Wp.pure hr

theorem wp_handleNewBALConnection {E : Env → Prop} {descriptor : Int} (hr : Reached i w₀ w .none) :
    Wp E (handleNewBALConnection descriptor) (fun _ w' => Reached i w₀ w' .none)
      (fun _ w' => Reached i w₀ w' .none) w := by
  unfold handleNewBALConnection
  refine Wp.bind (Wp.read ?_)
  split
  · exact Wp.pure hr
  · refine wp_mapApp hr rfl rfl rfl (fun t ht => ?_) fun _ _ h => h
    rcases List.mem_append.1 ht with ht | ht
    · exact Or.inl ht
    · rw [List.mem_singleton.1 ht]; exact Or.inr rfl

theorem wp_handleBalAuthenticationTimeout {E : Env → Prop} {sock : SocketId} (hr : Reached i w₀ w .none) :
    Wp E (handleBalAuthenticationTimeout sock) (fun _ w' => Reached i w₀ w' .none)
      (fun _ w' => Reached i w₀ w' .none) w := by
  unfold handleBalAuthenticationTimeout
  refine Wp.bind (Wp.read ?_)
  split
  · exact Wp.throw hr
  · exact Wp.bind (wp_mapApp hr rfl rfl rfl (fun _ ht => Or.inl ht) fun _ _ hr₁ =>
      wp_eraseUnauthenticated hr₁ fun _ h => h)

theorem wp_handleFcmConnectionDrainingStarted {E : Env → Prop} (hr : Reached i w₀ w .none) :
    Wp E handleFcmConnectionDrainingStarted (fun _ w' => Reached i w₀ w' .none)
      (fun _ w' => Reached i w₀ w' .none) w := by
  unfold handleFcmConnectionDrainingStarted
  refine Wp.bind (Wp.read ?_)
  split
  · exact Wp.throw hr
  · exact wp_mapApp hr rfl rfl rfl (fun _ ht => Or.inl ht) fun _ _ h => h

theorem wp_onFcmConnection {E : Env → Prop} {n : Int} {f : FcmConnection → FcmConnection} {Q : Unit → World → Prop}
    {X : Stop → World → Prop} (hr : Reached i w₀ w .none)
    (next : ∀ w', Reached i w₀ w' .none → (books w').fcm = (books w).fcm →
      (books w').writable = (books w).writable → Q () w') : Wp E (onFcmConnection n f) Q X w :=
  wp_mapApp hr rfl rfl rfl (fun _ ht => Or.inl ht) fun w' he hr' => next w' hr' (by rw [he]; rfl) (by rw [he]; rfl)

theorem wp_handleDisconnected {n : Int} (hr : Reached i w₀ w .none) :
    Wp (i.env.Rest fs) (handleDisconnected n) (fun _ w' => Reached i w₀ w' .none)
      (fun _ w' => Reached i w₀ w' .none) w := by
  unfold handleDisconnected
  refine Wp.bind (Wp.read ?_)
  split
  · refine Wp.bind (wp_onFcmConnection hr fun w₁ hr₁ _ _ => ?_)
    split
    · refine wp_popDraw fun d _ => Wp.bind (wp_onFcmConnection hr₁ fun w₂ hr₂ _ _ => ?_)
      refine wp_singleShot hr₂ fun w₃ h₃ => ?_
      unfold Reached
      rw [h₃]
      refine hr₂.act (.connections _ _ fun t ht => ?_)
      rcases List.mem_append.1 ht with ht | ht
      · exact Or.inl ht
      · rw [List.mem_singleton.1 ht]; exact Or.inr rfl
    · exact Wp.pure hr₁
  · exact Wp.pure hr

/-! ## Logging on -/

theorem wp_handleBalLogonRequest {s : Socket} {sid : SessionId} (hr : Reached i w₀ w .none) :
    Wp (i.env.Rest fs) (handleBalLogonRequest s sid) (fun _ w' => Reached i w₀ w' .none)
      (fun _ w' => Reached i w₀ w' .none) w := by
  unfold handleBalLogonRequest
  refine Wp.bind (Wp.read ?_)
  split
  · exact Wp.pure hr
  · refine Wp.bind (wp_deleteTimerContext hr fun w₁ hr₁ => Wp.bind (wp_eraseUnauthenticated hr₁ fun w₂ hr₂ => ?_))
    refine Wp.bind (Wp.read ?_)
    split
    · exact Wp.pure hr₂
    · refine Wp.bind (wp_mapApp hr₂ rfl (balManager_modify rfl fun _ => rfl) rfl (fun _ ht => Or.inl ht)
        fun w₃ _ hr₃ => ?_)
      refine Wp.bind (wp_findBalSession (fun sess hs => ?_) fun _ _ => hr₃)
      refine Wp.bind ((wp_writeMessage hr₃ hs fun _ => .logon rfl).mono (fun _ w₄ h₄ => ?_) fun _ _ h => h.1)
      refine wp_singleShot h₄.1 fun w₅ h₅ => ?_
      unfold Reached
      rw [h₅]
      refine h₄.1.act (.connections _ _ fun t ht => ?_)
      rcases List.mem_append.1 ht with ht | ht
      · exact Or.inl ht
      · rw [List.mem_singleton.1 ht]; exact Or.inr rfl

theorem wp_handleBALmsg (h₀ : Base cfg (books w₀) .none) {sock : SocketId} {s : Socket} {doc : Json}
    (he : i.event = .balFrame sock doc) :
    Wp (i.env.Rest fs) (handleBALmsg s doc) (fun _ w' => Reached i w₀ w' .none)
      (fun _ w' => Reached i w₀ w' .none) w₀ := by
  unfold handleBALmsg
  dsimp only
  split
  · exact wp_handleBalLogonRequest .start
  · split
    · rename_i htype
      exact wp_handleBalDownstreamUploadRequest h₀ he htype s.noNul rfl
    · split
      · exact wp_handleBalAckMsg h₀ .start
      · exact Wp.throw .start

/-! ## Timers -/

theorem wp_expire (h₀ : Base cfg (books w₀) .none) {t : Timer} (hexp : Expires i (books w₀).toStores t)
    (hr : Reached i w₀ w .none) (fcm : (books w).fcm = (books w₀).fcm) (bal : (books w).bal = (books w₀).bal)
    (writable : (books w).writable = (books w₀).writable) (log : (books w).log = (books w₀).log) :
    Wp (i.env.Rest fs) (expire t) (fun _ w' => Reached i w₀ w' .none)
      (fun _ w' => Reached i w₀ w' .none) w := by
  cases t with
  | retryDownstream msg => exact wp_expire_retryDownstream hexp hr fcm log
  | retryUpstream msg => exact wp_expire_retryUpstream hexp hr bal writable
  | resend sid => exact wp_resendPendingUpstreamMessages h₀ hexp hr bal
  | authentication sock => exact wp_handleBalAuthenticationTimeout hr
  | reconnect n => exact Wp.pure hr
  | deleteSocket sock =>
    refine Wp.bind ((wp_disconnectSocket hr).mono (fun _ w₁ hr₁ => ?_) fun _ _ h => h)
    exact wp_mapApp hr₁ rfl rfl rfl (fun _ ht => Or.inl ht) fun _ _ h => h

/-! ## Events -/

/-- The handler of every event is a sequence of acts. -/
theorem wp_handle (h₀ : Base cfg (books w₀) .none) :
    Wp (i.env.Rest i.env.faults) (handle i.event) (fun _ w' => Reached i w₀ w' .none)
      (fun _ w' => Reached i w₀ w' .none) w₀ := by
  have hr : Reached i w₀ w₀ .none := .start
  cases he : i.event with
  | newBALConnection descriptor => exact wp_handleNewBALConnection hr
  | balFrame sock doc =>
    refine Wp.bind (Wp.read ?_)
    split
    · split
      · exact wp_guarded (wp_handleBALmsg h₀ he)
      · exact Wp.pure hr
    · exact Wp.pure hr
  | balDisconnected sock => exact wp_disconnectSocket hr
  | fcmUpstream doc => exact wp_handleFcmNewUpstreamMessage h₀ he hr List.suffix_rfl
  | fcmAck doc => exact wp_handleFcmAckMessage h₀ he rfl
  | fcmNack doc => exact wp_handleFcmNackMessage h₀ he rfl
  | fcmReceipt doc => exact wp_handleFcmReceiptMessage h₀ he hr
  | fcmSessionEstablished n =>
    refine Wp.bind (wp_onFcmConnection hr fun w₁ hr₁ fcm writable => ?_)
    exact wp_guarded (wp_handleFcmSessionEstablished h₀ ⟨n, he⟩ hr₁ fcm writable)
  | fcmConnectionDrainingStarted n =>
    refine Wp.bind (wp_onFcmConnection hr fun w₁ hr₁ _ _ => ?_)
    exact wp_guarded (wp_handleFcmConnectionDrainingStarted hr₁)
  | fcmDisconnected n => exact wp_handleDisconnected hr
  | timer k =>
    refine Wp.bind (Wp.read ?_)
    split
    · rename_i t ht
      refine Wp.bind (wp_mapApp hr rfl rfl rfl (fun t' ht' => Or.inl (List.mem_of_mem_eraseIdx ht')) fun w₁ h₁ hr₁ => ?_)
      exact wp_expire h₀ ⟨k, he, ht⟩ hr₁ (by rw [h₁]; rfl) (by rw [h₁]; rfl) (by rw [h₁]; rfl) (by rw [h₁]; rfl)
    · exact Wp.pure hr
  | restart => exact Wp.throw hr

/-! ## Starting -/

theorem foldl_insertIfNew {α : Type} (f : SessionId → α) (cfg : List SessionId) (m : ExtTreeMap SessionId α)
    (sid : SessionId) : (cfg.foldl (fun sessions s => sessions.insertIfNew s (f s)) m)[sid]? =
      (m[sid]?).or (if sid ∈ cfg then some (f sid) else none) := by
  induction cfg generalizing m with
  | nil => simp
  | cons s cfg ih =>
    rw [List.foldl_cons, ih, ExtTreeMap.getElem?_insertIfNew]
    by_cases hs : s = sid
    · subst hs
      by_cases hm : s ∈ m
      · rw [if_neg (by tauto)]
        cases hk : m[s]? with
        | none => rw [← ExtTreeMap.isSome_getElem?_iff_mem, hk] at hm; cases hm
        | some a => rfl
      · rw [if_pos ⟨ReflCmp.compare_self, hm⟩, ExtTreeMap.getElem?_eq_none hm]; simp
    · rw [if_neg (fun h => hs (LawfulEqCmp.eq_of_compare h.1))]
      simp [Ne.symm hs]

theorem start_balManager (cfg : List SessionId) (env : Env) (db : Database) (sid : SessionId) :
    (Application.start cfg env db).balManager sid =
      if sid ∈ cfg then some (db.loadPendingMessages (env.scan sid) env.junk (.new sid)) else none := by
  have hmap := foldl_insertIfNew (fun s => (⟨none, .unauthenticated,
    db.loadPendingMessages (env.scan s) env.junk (.new s)⟩ : BALSession)) cfg ∅ sid
  unfold Application.balManager Application.start
  simp only
  rw [hmap, ExtTreeMap.getElem?_empty]
  split <;> rfl

/-- What a process starts with. -/
theorem start_restarted {b : Books} {env env' : Env} {w : World} (hj : env.junk = env'.junk)
    (hsc : env.scan = env'.scan) (hw : w.app = .start cfg env w.db) (rows : (books w).rows = b.rows)
    (log : (books w).log = b.log) : Restarted cfg env' b (books w) := by
  have hbal : (books w).bal = (Application.start cfg env w.db).balManager := by rw [← hw]; rfl
  refine ⟨⟨w.db, fun n => by rw [← rows]; rfl, ?_, ?_, fun sid m hm => ?_⟩, fun sid => ?_, rows, ?_, log⟩
  · show w.app.sequenceId = _; rw [hw]; rfl
  · show Database.Fresh _ _ _ _ w.app.fcmMsgManager
    rw [hw, ← hj, ← hsc]; exact Database.loadPendingMessages_fresh ..
  · rw [hbal, start_balManager] at hm
    split at hm
    · cases hm; rw [← hj, ← hsc]; exact Database.loadPendingMessages_fresh ..
    · cases hm
  · rw [hbal, start_balManager]
    split <;> simp_all
  · show w.app.timers = _; rw [hw]; rfl

/-! ## Steps -/

theorem destroyConns_fields (app : Application) :
    app.destroyConns.fcmMsgManager = app.fcmMsgManager ∧ app.destroyConns.balManager = app.balManager ∧
      app.destroyConns.sequenceId = app.sequenceId ∧ ∀ t ∈ app.destroyConns.timers, t ∈ app.timers ∨ t.isRetry = false := by
  unfold Application.destroyConns
  generalize (app.sockets.toList.filter fun p => p.2.wrapped && !app.referenced p.1).map (·.1) = l
  induction l generalizing app with
  | nil => exact ⟨rfl, rfl, rfl, fun _ h => Or.inl h⟩
  | cons sock l ih =>
    obtain ⟨h1, h2, h3, h4⟩ := ih (app.destroyConn sock)
    refine ⟨h1, h2, h3, fun t ht => ?_⟩
    rcases h4 t ht with ht | ht
    · rcases List.mem_append.1 ht with ht | ht
      · exact Or.inl ht
      · rw [List.mem_singleton.1 ht]; exact Or.inr rfl
    · exact Or.inr ht

/-- A step that the process survives is a sequence of acts; else one comes before the next start. -/
theorem step_reach (h₀ : Base cfg (books w₀) .none) (i : Input) :
    ∃ b, Reach i (books w₀) b .none ∧
      (survives w₀ i = true ∧ books (step cfg w₀ i) = b ∨
        survives w₀ i = false ∧ Restarted cfg i.env b (books (step cfg w₀ i))) := by
  have h := wp_handle (i := i) h₀ i.env (.refl _)
  unfold step survives
  cases hh : handle i.event (w₀, i.env) with
  | ok a s =>
    rw [hh] at h
    obtain ⟨w', env⟩ := s
    obtain ⟨h1, h2, h3, h4⟩ := destroyConns_fields w'.app
    have hr : Reached i w₀ (w'.mapApp (·.destroyConns)) .none := h.2.connections h1 h2 h3 rfl rfl h4
    exact ⟨_, hr, Or.inl ⟨rfl, rfl⟩⟩
  | error e s =>
    rw [hh] at h
    obtain ⟨w', env⟩ := s
    exact ⟨_, h.2, Or.inr ⟨rfl, start_restarted h.1.junk h.1.scan rfl rfl rfl⟩⟩

theorem step_live (h₀ : Base cfg (books w₀) .none) {i : Input} (hlive : survives w₀ i = true) :
    Reach i (books w₀) (books (step cfg w₀ i)) .none := by
  obtain ⟨b, hr, ⟨-, he⟩ | ⟨hdead, -⟩⟩ := step_reach h₀ i
  · rw [he]; exact hr
  · rw [hlive] at hdead; cases hdead

theorem step_base (h : Base cfg (books w) .none) (i : Input) : Base cfg (books (step cfg w i)) .none := by
  obtain ⟨b, hr, ⟨-, hb⟩ | ⟨-, hb⟩⟩ := step_reach h i
  · rw [hb]; exact (hr.base h).1
  · exact (hr.base h).1.restart hb

theorem step_rowsStay (h : Base cfg (books w) .none) (i : Input) :
    RowsStay (stores w.toServer) (stores (step cfg w i).toServer) := by
  obtain ⟨b, hr, ⟨-, he⟩ | ⟨-, he⟩⟩ := step_reach h i
  · have hs := (hr.base h).2; rw [← he] at hs; exact hs
  · exact (hr.base h).2.trans he.rowsStay

theorem Reach.log_suffix {b₀ b : Books} {d : Debt} (h : Reach i b₀ b d) : b₀.log <:+ b.log := by
  refine h.invariant (P := fun b _ => b₀.log <:+ b.log) List.suffix_rfl fun hs ha => ?_
  cases ha with
  | upload => exact hs.trans (List.suffix_cons ..)
  | fcmAck => exact hs.trans (List.suffix_cons ..)
  | write => exact hs.trans (List.suffix_cons ..)
  | record => exact hs.trans (List.suffix_cons ..)
  | _ => exact hs

/-- The log grows. -/
theorem step_log_suffix (h : Base cfg (books w) .none) (i : Input) : w.log <:+ (step cfg w i).log := by
  obtain ⟨b, hr, ⟨-, he⟩ | ⟨-, he⟩⟩ := step_reach h i
  · have hs := hr.log_suffix; rw [← he] at hs; exact hs
  · have hs := hr.log_suffix; rw [← he.log] at hs; exact hs

/-- The books of a first start. -/
theorem boot_base (cfg : List SessionId) (env : Env) (db : Database) : Base cfg (books (boot cfg env db)) .none := by
  have hr : Restarted cfg env (books (boot cfg env db)) (books (boot cfg env db)) := start_restarted rfl rfl rfl rfl rfl
  refine Base.started hr (fun hn => db.keyed hn) ?_
  intro o msg ho; cases ho

/-! ## Runs -/

/-- A property of the books that every step meeting `C` keeps holds at the end of every run along `C`. -/
theorem run_invariant {C : World → Input → Prop} {P : Books → Prop}
    (hstep : ∀ w i, Base cfg (books w) .none → C w i → P (books w) → P (books (step cfg w i))) {is : List Input}
    (hb : Base cfg (books w) .none) (hc : Run.Along (step cfg) C w is) (hp : P (books w)) :
    Base cfg (books (run cfg w is)) .none ∧ P (books (run cfg w is)) := by
  refine Run.invariant (I := fun w => Base cfg (books w) .none ∧ P (books w)) (fun w i hC hI => ?_) is hc ⟨hb, hp⟩
  exact ⟨step_base hI.1 i, hstep w i hI.1 hC hI.2⟩

theorem run_base (cfg : List SessionId) (env : Env) (db : Database) (is : List Input) :
    Base cfg (books (run cfg (boot cfg env db) is)) .none :=
  Run.invariant_all (I := fun w => Base cfg (books w) .none) (fun _ i h => step_base h i) is (boot_base cfg env db)

/-- A property of the books that every step keeps holds at the end of every run. -/
theorem run_invariant_all {P : Books → Prop}
    (hstep : ∀ w i, Base cfg (books w) .none → P (books w) → P (books (step cfg w i))) (is : List Input)
    (hb : Base cfg (books w) .none) (hp : P (books w)) :
    Base cfg (books (run cfg w is)) .none ∧ P (books (run cfg w is)) := by
  refine Run.invariant_all (I := fun w => Base cfg (books w) .none ∧ P (books w)) (fun w i hI => ?_) is ⟨hb, hp⟩
  exact ⟨step_base hI.1 i, hstep w i hI.1 hI.2⟩

theorem run_log_suffix (hb : Base cfg (books w) .none) (is : List Input) : w.log <:+ (run cfg w is).log :=
  (run_invariant_all (P := fun b => w.log <:+ b.log) (fun _ i hb hP => hP.trans (step_log_suffix hb i)) is hb
    List.suffix_rfl).2

/-! ## Retries that are left -/

/-- No message of the queue is out of retries at the default draw. -/
def MessageManager.retriesLeft (m : MessageManager) : Bool :=
  m.messages.toList.all fun p => (p.2.getNextRetryTimeout default).1 ≠ -1

/-- The input brings no draws, and no message is out of retries at the default one. -/
def Server.retriesLeft (cfg : List SessionId) (s : Server) (i : Input) : Bool :=
  i.env.draws.isEmpty && s.app.fcmMsgManager.retriesLeft && cfg.all fun sid => (s.app.balManager sid).all (·.retriesLeft)

theorem patient_of_retriesLeft {m : MessageManager} (hd : i.env.draws = []) (h : m.retriesLeft = true) :
    Patient i m := by
  intro n msg hn d hdr
  rw [hd] at hdr
  rcases hdr with hdr | rfl
  · cases hdr
  · have := List.all_eq_true.1 h (n, msg) (ExtTreeMap.mem_toList_iff_getElem?_eq_some.2 hn)
    simpa using this

theorem noneExhausted_of_retriesLeft (hb : Base cfg (books w) .none) (h : w.retriesLeft cfg i = true) :
    NoneExhausted i (stores w.toServer) := by
  unfold Server.retriesLeft at h
  simp only [Bool.and_eq_true, List.isEmpty_iff] at h
  obtain ⟨⟨hd, hf⟩, hbal⟩ := h
  refine ⟨patient_of_retriesLeft hd hf, fun {sid m} hm => patient_of_retriesLeft hd ?_⟩
  have := List.all_eq_true.1 hbal sid ((hb.known sid).1 ⟨m, hm⟩)
  rw [show w.app.balManager sid = some m from hm] at this
  exact this

theorem along_noneExhausted {is : List Input} (hb : Base cfg (books w) .none)
    (h : Run.Along (step cfg) (fun w i => w.retriesLeft cfg i = true) w is) :
    Run.Along (step cfg) (fun w i => NoneExhausted i (stores w.toServer)) w is :=
  Run.Along.mono_of (I := fun w => Base cfg (books w) .none) (fun _ i h => step_base h i)
    (fun _ _ hb h => noneExhausted_of_retriesLeft hb h) is hb h

end

end Gimmm
