/-
The queue of a session and the table. They agree as long as nothing writes to one of them only: the
notice of a failed message is inserted as pending but not queued, the delayed resend marks a new message in
the table but not in the queue, and a message for a session whose id has a NUL is queued for that session but
saved for another.
-/
import Gimmm.Guarantees.Slots

namespace Gimmm

open Std CString

/-- The event writes to the table and the queue of a session alike: no permanent nack settles a message of a
configured session, a delayed resend marks nothing, no message is out of retries, and what FCM delivers is for the
same configured session up to the first NUL of its id, or for none. -/
structure Alike (cfg : List SessionId) (b : Stores) (i : Input) : Prop where
  nack : ∀ msg, Settles i b msg .deliveryFailed → msg.sourceSessionId ∉ cfg
  marks : MarksNothing b i
  retries : NoneExhausted i b
  delivers : ∀ sid, i.event.delivers = some sid → NoNul sid ∨ sid ∉ cfg ∧ cString sid ∉ cfg

/-- No statement and no output of the event fails. -/
def Faultless (i : Input) : Prop := ∀ f ∈ i.env.faults, f = .ok

/-- The queues have the states and the targets of the rows, and all pending rows but that of a message that the
handler has still to forward. -/
structure Agree (b : Stores) (d : Debt) : Prop where
  rows : ∀ {sid : SessionId} {m : MessageManager} {n : Int} {msg : Message}, b.bal sid = some m →
    m.messages[n]? = some msg → ∃ row, b.rows n = some row ∧ row.state = msg.state ∧ row.targetSession = sid
  held : ∀ {sid : SessionId} {m : MessageManager} {n : Int} {row : Row}, b.bal sid = some m → b.rows n = some row →
    row.targetSession = sid → row.state.pending = true →
    (∃ msg, m.messages[n]? = some msg) ∨ ∃ msg, d = .saved msg ∧ msg.sequenceId = n ∧ msg.targetSessionId = sid
  saved : ∀ {msg : Message} {m : MessageManager}, d = .saved msg → b.bal msg.targetSessionId = some m →
    NoNul msg.targetSessionId

theorem Faultless.not_faulty {i : Input} (h : Faultless i) : ¬ Faulty i := fun ⟨f, hf, hne⟩ => hne (h f hf)

namespace Agree

variable {cfg : List SessionId} {i : Input} {b₀ b : Books} {d : Debt}

theorem congr (h : Agree b.toStores d) {b' : Books} (hb : b'.bal = b.bal) (hr : b'.rows = b.rows) :
    Agree b'.toStores d :=
  ⟨fun hm hn => hr ▸ h.rows (hb ▸ hm) hn, fun hm hn => h.held (hb ▸ hm) (hr ▸ hn), fun hd hm => h.saved hd (hb ▸ hm)⟩

/-- A row that no session has changes its state. -/
theorem setState (h : Agree b.toStores .none) {n : Int} {s : MessageState}
    (hn : ∀ row, b.rows n = some row → ∀ sid m, b.bal sid = some m → row.targetSession ≠ sid)
    {d' : Debt} (hd : ∀ msg, d' ≠ .saved msg) : Agree (b.setState n s).toStores d' := by
  have hother : ∀ {sid : SessionId} {m : MessageManager} {k : Int} {row : Row}, b.bal sid = some m →
      b.rows k = some row → row.targetSession = sid → k ≠ n := by
    rintro sid m k row hm hk ht rfl; exact hn row hk sid m hm ht
  refine ⟨fun {sid m k msg} hm hk => ?_, fun {sid m k row} hm hk ht hp => ?_, fun he => absurd he (hd _)⟩
  · obtain ⟨row, hr, hstate, htarget⟩ := h.rows hm hk
    rw [show (b.setState n s).toStores.rows k = _ from Books.setState_rows b n s k, if_neg (hother hm hr htarget)]
    exact ⟨row, hr, hstate, htarget⟩
  · rw [show (b.setState n s).toStores.rows k = _ from Books.setState_rows b n s k] at hk
    split at hk
    · rename_i hkn
      obtain ⟨row', hr, rfl⟩ := Option.map_eq_some_iff.1 hk
      exact absurd ht (hn row' (hkn ▸ hr) sid m hm)
    · rcases h.held hm hk ht hp with h1 | ⟨msg, h1, -⟩
      · exact Or.inl h1
      · cases h1

theorem fcm_target (hcfg : fcmSessionId ∉ cfg) (hb : Base cfg b d) {n : Int} {msg : Message}
    (hn : b.fcm.messages[n]? = some msg) (row : Row) (hr : b.rows n = some row) (sid : SessionId) (m : MessageManager)
    (hm : b.bal sid = some m) : row.targetSession ≠ sid := by
  obtain ⟨-, ⟨row', hr', hs⟩, ht⟩ := hb.fcmHeld hn
  rw [hb.fcm.key hn] at hr'
  obtain rfl : row = row' := Option.some.inj (hr.symm.trans hr')
  rintro rfl
  have hfcm : row.targetSession = fcmSessionId := by
    rw [hs.targetSession, ht, cString_of_noNul noNul_fcmSessionId]
  exact hcfg (by rw [← hfcm]; exact (hb.known _).1 ⟨m, hm⟩)

/-- A row is inserted whose message no session has to have. -/
theorem insertRow (h : Agree b.toStores d) (hb : Base cfg b d) {msg : Message} (hseq : msg.sequenceId = b.counter + 1)
    (hd : ∀ msg, d ≠ .saved msg) {d' : Debt}
    (hnew : ∀ m, b.bal (cString msg.targetSessionId) = some m → d' = .saved msg ∧ NoNul msg.targetSessionId)
    (hsaved : ∀ msg' m, d' = .saved msg' → b.bal msg'.targetSessionId = some m → NoNul msg'.targetSessionId) :
    Agree (b.draw.insertRow (.ofMessage msg)).toStores d' := by
  have hrow : ∀ k : Int, (b.draw.insertRow (.ofMessage msg)).toStores.rows k =
      if k = msg.sequenceId then some (.ofMessage msg) else b.rows k := Books.insertRow_rows b.draw _
  refine ⟨fun {sid m k msg'} hm hk => ?_, fun {sid m k row} hm hk ht hp => ?_, fun he hm => hsaved _ _ he hm⟩
  · rw [hrow, if_neg]
    · exact h.rows hm hk
    · rintro rfl
      have hfresh := hb.freshBal hm
      rw [← hseq] at hfresh
      have hk : m.messages[msg.sequenceId]? = some msg' := hk
      rw [hfresh] at hk; cases hk
  · rw [hrow] at hk
    split at hk
    · rename_i hkn
      cases hk
      obtain rfl : cString msg.targetSessionId = sid := ht
      obtain ⟨hd', hnonul⟩ := hnew m hm
      exact Or.inr ⟨msg, hd', hkn.symm, (cString_of_noNul hnonul).symm⟩
    · rcases h.held hm hk ht hp with h1 | ⟨msg', h1, -⟩
      · exact Or.inl h1
      · exact absurd h1 (hd msg')

/-- The queue of `sid` changes with the row of its message `n`. -/
theorem setStateBal (h : Agree b.toStores .none) (hb : Base cfg b d) {sid : SessionId} {m m' : MessageManager} {n : Int}
    {msg : Message} {s : MessageState} (bal : b.bal sid = some m) (hn : m.messages[n]? = some msg)
    (hm' : ∀ (k : Int) (msg' : Message), m'.messages[k]? = some msg' →
      if k = n then msg'.state = s else m.messages[k]? = some msg')
    (hs : ∀ (k : Int), (∃ msg, m.messages[k]? = some msg) → (k = n → s.pending = true) → ∃ msg', m'.messages[k]? = some msg') :
    Agree ((b.setState n s).setBal sid m').toStores .none := by
  have hrow : ∀ k : Int, ((b.setState n s).setBal sid m').toStores.rows k = _ := Books.setState_rows b n s
  refine ⟨fun {s₁ m₁ k msg'} hs₁ hk => ?_, fun {s₁ m₁ k row} hs₁ hk ht hp => ?_, fun he => by cases he⟩
  · rw [hrow]
    rcases bal_setBal hs₁ with ⟨rfl, rfl⟩ | ⟨hne, hs₁⟩
    · have hk' := hm' k msg' hk
      split at hk'
      · rename_i hkn
        subst hkn
        obtain ⟨row, hr, -, htarget⟩ := h.rows bal hn
        rw [if_pos rfl, show b.rows k = some row from hr]; exact ⟨_, rfl, hk'.symm, htarget⟩
      · rename_i hkn; rw [if_neg hkn]; exact h.rows bal hk'
    · rw [if_neg]
      · exact h.rows hs₁ hk
      · rintro rfl; exact hne (hb.oneQueue hs₁ hk bal hn)
  · have hk₀ := (hrow k).symm.trans hk
    -- a pending row of the session was pending before, or its message is the one whose state is written
    have hold : ∃ row₀, b.rows k = some row₀ ∧ row₀.targetSession = s₁ ∧ (k = n → s.pending = true) ∧
        (k ≠ n → row₀.state.pending = true) := by
      split at hk₀
      · rename_i hkn
        obtain ⟨row₀, hr, rfl⟩ := Option.map_eq_some_iff.1 hk₀
        exact ⟨row₀, hr, ht, fun _ => hp, fun hne => absurd hkn hne⟩
      · rename_i hkn; exact ⟨row, hk₀, ht, fun he => absurd he hkn, fun _ => hp⟩
    obtain ⟨row₀, hr₀, ht₀, hpn, hp₀⟩ := hold
    refine Or.inl ?_
    rcases bal_setBal hs₁ with ⟨rfl, rfl⟩ | ⟨hne, hs₁⟩
    · refine hs k ?_ hpn
      by_cases hkn : k = n
      · exact ⟨msg, hkn ▸ hn⟩
      · rcases h.held bal hr₀ ht₀ (hp₀ hkn) with h1 | ⟨_, h1, -⟩
        · exact h1
        · cases h1
    · by_cases hkn : k = n
      · subst hkn
        obtain ⟨row', hr', -, htarget⟩ := h.rows bal hn
        obtain rfl : row₀ = row' := Option.some.inj (hr₀.symm.trans hr')
        exact absurd (ht₀.symm.trans htarget) hne
      · rcases h.held hs₁ hr₀ ht₀ (hp₀ hkn) with h1 | ⟨_, h1, -⟩
        · exact h1
        · cases h1

/-- The queues keep their keys and the states of their messages. -/
theorem setBal (h : Agree b.toStores d) {sid : SessionId} {m m' : MessageManager} (bal : b.bal sid = some m)
    (hm' : ∀ k : Int, m'.messages[k]?.map (·.state) = m.messages[k]?.map (·.state)) : Agree (b.setBal sid m').toStores d := by
  refine ⟨fun {s₁ m₁ k msg'} hs₁ hk => ?_, fun {s₁ m₁ k row} hs₁ hk ht hp => ?_, fun he hs₁ => ?_⟩
  · rcases bal_setBal hs₁ with ⟨rfl, rfl⟩ | ⟨-, hs₁⟩
    · have := hm' k
      rw [hk] at this
      obtain ⟨msg, h1, h2⟩ := Option.map_eq_some_iff.1 this.symm
      rw [show msg'.state = msg.state from h2.symm]; exact h.rows bal h1
    · exact h.rows hs₁ hk
  · rcases bal_setBal hs₁ with ⟨rfl, rfl⟩ | ⟨-, hs₁⟩
    · rcases h.held bal hk ht hp with ⟨msg, h1⟩ | h1
      · have := hm' k
        rw [h1] at this
        obtain ⟨msg', h2, -⟩ := Option.map_eq_some_iff.1 this
        exact Or.inl ⟨msg', h2⟩
      · exact Or.inr h1
    · exact h.held hs₁ hk ht hp
  · rcases bal_setBal hs₁ with ⟨hsid, -⟩ | ⟨-, hs₁⟩
    · exact h.saved he (hsid ▸ bal)
    · exact h.saved he hs₁

/-- The message that the handler has saved comes to the queue, or has none to come to. -/
theorem forward {msg : Message} (h : Agree b.toStores (.saved msg)) (hb : Base cfg b (.saved msg)) :
    (∀ m, b.bal msg.targetSessionId = some m →
      Agree (b.setBal msg.targetSessionId (m.addMessage msg.sequenceId msg)).toStores .none) ∧
    (b.bal msg.targetSessionId = none → Agree b.toStores .none) := by
  have hwait : Waiting b.toStores msg := hb.debt
  obtain ⟨row₀, hr₀, hsv, hst₀⟩ := hwait.saved
  -- a row that is not held yet is that of `msg`, so it goes to the session of `msg`
  have hheld : ∀ {sid : SessionId} {m : MessageManager} {n : Int} {row : Row}, b.bal sid = some m → b.rows n = some row →
      row.targetSession = sid → row.state.pending = true →
      (∃ msg, m.messages[n]? = some msg) ∨ n = msg.sequenceId ∧ sid = msg.targetSessionId := by
    intro sid m n row hm hn ht hp
    rcases h.held hm hn ht hp with h1 | ⟨msg', h1, h2, h3⟩
    · exact Or.inl h1
    · cases h1
      exact Or.inr ⟨h2.symm, h3.symm⟩
  refine ⟨fun m hm => ⟨fun {sid m' n msg'} hs hk => ?_, fun {sid m' n row} hs hn ht hp => Or.inl ?_, fun he => by cases he⟩,
    fun hnone => ⟨h.rows, fun {sid m n row} hs hn ht hp => ?_, fun he => by cases he⟩⟩
  · rcases bal_setBal hs with ⟨rfl, rfl⟩ | ⟨-, hs⟩
    · rw [MessageManager.addMessage_getElem? _ (hwait.bal hm)] at hk
      split at hk
      · rename_i hkn
        cases hk
        exact ⟨row₀, hkn ▸ hr₀, hst₀.trans hwait.state.symm, hsv.targetSession.trans (cString_of_noNul (h.saved rfl hm))⟩
      · exact h.rows hm hk
    · exact h.rows hs hk
  · rcases bal_setBal hs with ⟨rfl, rfl⟩ | ⟨hne, hs⟩
    · rw [MessageManager.addMessage_getElem? _ (hwait.bal hm)]
      by_cases hkn : n = msg.sequenceId
      · rw [if_pos hkn]; exact ⟨_, rfl⟩
      · rw [if_neg hkn]; exact (hheld hm hn ht hp).resolve_right fun h => hkn h.1
    · exact (hheld hs hn ht hp).resolve_right fun h => hne h.2
  · refine Or.inl ((hheld hs hn ht hp).resolve_right ?_)
    rintro ⟨-, rfl⟩; rw [hnone] at hs; cases hs

/-- The session of a message that is saved for a BAL is the same up to the first NUL of its id, or none. -/
theorem received_target (hC : Alike cfg b₀.toStores i) (hb : Base cfg b d) {msg : Message} (cause : Receives i msg d) :
    NoNul msg.targetSessionId ∨ msg.targetSessionId ∉ cfg ∧ cString msg.targetSessionId ∉ cfg := by
  cases cause with
  | upstream doc he type data target =>
    rw [target]
    exact hC.delivers _ (by rw [he]; rfl)
  | receipt doc he type target =>
    rw [target]
    exact hC.delivers _ (by rw [he]; rfl)
  | ack old type fcmMessageId target =>
    obtain ⟨⟨row, -, hsv, -⟩, -⟩ := hb.debt
    rw [target, ← hsv.sourceSession]
    exact Or.inl row.noNul.1

theorem act (hcfg : fcmSessionId ∉ cfg) (hquiet : Faultless i) (hC : Alike cfg b₀.toStores i) (hb : Base cfg b d)
    (h : Agree b.toStores d) {b' : Books} {d' : Debt} (ha : Act i b₀ b d b' d') : Agree b'.toStores d' := by
  cases ha with
  | accept mid gid sid data hm source request id =>
    rename_i msg
    have hseq : msg.sequenceId = b.counter + 1 := by rw [hm]; rfl
    refine (h.insertRow hb hseq (fun _ hd => by cases hd) (fun m hbal => ?_) fun _ _ hd => by cases hd).congr rfl rfl
    -- a downstream row is for FCM's queue, which is not a session's
    have hfcm : cString msg.targetSessionId = fcmSessionId := by
      rw [hm]
      exact cString_of_noNul noNul_fcmSessionId
    exact absurd ((hb.known _).1 ⟨m, hfcm ▸ hbal⟩) hcfg
  | mark held sendable => exact (h.setState (fcm_target hcfg hb held) fun _ hd => by cases hd).congr rfl rfl
  | settle settles fcm log names =>
    have ⟨mid, _, hf⟩ := settles
    exact (h.setState (fcm_target hcfg hb (hb.fcm.find (fcm ▸ hf)).2.1) fun _ hd => by cases hd).congr rfl rfl
  | exhaust held out within cause => exact absurd hC.retries.fcm out
  | drop held out cause => exact absurd hC.retries.fcm out
  | save envelope state cause =>
    have htarget := received_target hC hb cause
    refine h.insertRow hb envelope.sequenceId (fun _ hd => ?_) (fun m hbal => ⟨rfl, htarget.resolve_right fun hnot => ?_⟩)
      fun msg' m he hbal => ?_
    · rw [hd] at cause; cases cause
    · exact hnot.2 ((hb.known _).1 ⟨m, hbal⟩)
    · cases he
      exact htarget.resolve_right fun hnot => hnot.1 ((hb.known _).1 ⟨m, hbal⟩)
  | reject envelope state type fcmMessageId target failed =>
    refine h.insertRow hb envelope.sequenceId (fun _ hd => by cases hd) (fun m hbal => ?_) fun _ _ hd => by cases hd
    -- the notice of a failure is saved and not queued; the condition is that no message of a session fails
    refine absurd ?_ (hC.nack _ (failed.settles hC.retries.fcm))
    obtain ⟨⟨row, -, hsv, -⟩, -⟩ := hb.debt
    rw [target, ← hsv.sourceSession, cString_of_noNul row.noNul.1, hsv.sourceSession] at hbal
    exact (hb.known _).1 ⟨m, hbal⟩
  | deliver bal => exact (h.forward hb).1 _ bal
  | undeliverable bal => exact (h.forward hb).2 bal
  | markBal bal held sendable type =>
    rename_i sid m msg
    refine h.setStateBal hb bal held (fun k msg' hk => ?_) fun k hk _ => ?_
    · rw [MessageManager.mark_getElem?] at hk
      split at hk
      · rename_i hkn
        obtain ⟨msg₁, -, rfl⟩ := Option.map_eq_some_iff.1 hk
        rw [if_pos hkn]; rfl
      · rename_i hkn; rw [if_neg hkn]; exact hk
    · obtain ⟨msg₁, h₁⟩ := hk
      rw [MessageManager.mark_getElem?, h₁]
      split <;> exact ⟨_, rfl⟩
  | remark resend state type count => exact absurd (SlotsExact.no_remark hC.marks hb resend state count) not_false
  | settleBal bal held =>
    refine h.setStateBal hb bal held (fun k msg' hk => ?_) fun k hk hne => ?_
    · obtain ⟨h₁, h₂⟩ := MessageManager.of_without hk
      rw [if_neg h₂]; exact h₁
    · rw [MessageManager.without_getElem?, if_neg fun he => by cases hne he]; exact hk
  | exhaustBal resend first out => exact absurd (hC.retries.bal first) out
  | dropBal bal held first out => exact absurd (hC.retries.bal first) out
  | touchBal n f bal hf =>
    refine h.setBal bal fun k => ?_
    rw [MessageManager.modifyMessage_getElem?]
    split
    · rw [Option.map_map]; congr 1; funext msg; exact (hf msg).2
    · rfl
  | lose cause =>
    rcases cause with hfails | hgives
    · exact absurd hfails hquiet.not_faulty
    · exact absurd hC.retries.fcm hgives.exhausted
  | _ => exact ⟨h.rows, h.held, h.saved⟩

theorem step {w : World} (hcfg : fcmSessionId ∉ cfg) (h₀ : Base cfg (books w) .none) (hlive : survives w i = true)
    (hquiet : Faultless i) (hC : Alike cfg (books w).toStores i) (h : Agree (books w).toStores .none) :
    Agree (books (step cfg w i)).toStores .none :=
  (step_live h₀ hlive).invariant_base (P := fun b d => Agree b.toStores d) h₀ h
    fun hb _ _ hP ha => act hcfg hquiet hC hb hP ha

theorem boot (cfg : List SessionId) (env : Env) : Agree (stores (boot cfg env .empty).toServer) .none := by
  have hrow : ∀ n : Int, (stores (Gimmm.boot cfg env .empty).toServer).rows n = none := fun n =>
    ExtTreeMap.getElem?_empty
  refine ⟨fun {sid m n msg} hm hn => ?_, fun _ hn => (by rw [hrow] at hn; cases hn), fun he => by cases he⟩
  obtain ⟨-, ⟨row, hr, -⟩, -⟩ := (boot_base cfg env .empty).balHeld hm hn
  exact absurd (hr.symm.trans (hrow _)) (by simp)

end Agree

/-- In every live run from an empty table without a failure, whose events write to the table and the queues
alike, the pending rows of a configured session are the messages in its queue, in the same states. -/
theorem bal_rows_held (cfg : List SessionId) (env : Env) (is : List Input) (hcfg : fcmSessionId ∉ cfg)
    (hlive : Live cfg (boot cfg env .empty) is) (hquiet : ∀ i ∈ is, Faultless i)
    (halike : Run.Along (step cfg) (fun w i => Alike cfg (stores w.toServer) i) (boot cfg env .empty) is)
    (sid : SessionId) (hsid : sid ∈ cfg) :
    ∃ m, (run cfg (boot cfg env .empty) is).app.balManager sid = some m ∧ ∀ (n : Int) (state : MessageState),
      (∃ row, (run cfg (boot cfg env .empty) is).db.rows[n]? = some row ∧ row.targetSession = sid ∧
        row.state = state ∧ state.pending = true) ↔
      ∃ msg, m.messages[n]? = some msg ∧ msg.sequenceId = n ∧ msg.state = state := by
  have hC : Run.Along (step cfg) (fun w i => survives w i = true ∧ Faultless i ∧ Alike cfg (stores w.toServer) i)
      (boot cfg env .empty) is :=
    Run.Along.and is hlive (Run.Along.and is (Run.along_of_forall is hquiet) halike)
  obtain ⟨hb, h⟩ := run_invariant (P := fun b => Agree b.toStores .none)
    (fun w i hb hC hP => Agree.step hcfg hb hC.1 hC.2.1 hC.2.2 hP) (boot_base cfg env .empty) hC (Agree.boot cfg env)
  obtain ⟨m, hm⟩ := (hb.known sid).2 hsid
  refine ⟨m, hm, fun n state => ⟨?_, ?_⟩⟩
  · rintro ⟨row, hr, ht, rfl, hp⟩
    rcases h.held hm hr ht hp with ⟨msg, hn⟩ | ⟨_, hd, -⟩
    · obtain ⟨row', hr', hs, -⟩ := h.rows hm hn
      obtain rfl : row = row' := Option.some.inj (hr.symm.trans hr')
      exact ⟨msg, hn, (hb.bal hm).key hn, hs.symm⟩
    · cases hd
  · rintro ⟨msg, hn, hseq, rfl⟩
    obtain ⟨row, hr, hs, ht⟩ := h.rows hm hn
    exact ⟨row, hr, ht, hs, (hb.balHeld hm hn).pending⟩

theorem bal_rows_held_acked :
    ∃ m, (run ["bal"] (boot ["bal"] .quiet .empty) acked).app.balManager "bal" = some m ∧ ∀ (n : Int) (state : MessageState),
      (∃ row, (run ["bal"] (boot ["bal"] .quiet .empty) acked).db.rows[n]? = some row ∧ row.targetSession = "bal" ∧
        row.state = state ∧ state.pending = true) ↔
      ∃ msg, m.messages[n]? = some msg ∧ msg.sequenceId = n ∧ msg.state = state := by
  have hret : Run.Along (step ["bal"]) (fun w i => NoneExhausted i (stores w.toServer)) (boot ["bal"] .quiet .empty)
      acked := along_noneExhausted (boot_base _ _ _) (by decide +kernel)
  have halike : ∀ (w : World) (e : Event), (∀ k, e ≠ .timer k) → (∀ mid, e.settles ≠ some (mid, .deliveryFailed)) →
      e.delivers = none → NoneExhausted (.quiet e) (stores w.toServer) → Alike ["bal"] (stores w.toServer) (.quiet e) :=
    fun w e ht hs hd hr => ⟨fun msg ⟨mid, h, _⟩ => absurd h (hs mid), marksNothing_of_event ht, hr,
      fun sid h => by cases hd.symm.trans h⟩
  refine bal_rows_held ["bal"] .quiet acked (by decide) (by unfold Live; decide +kernel) ?_
    ⟨halike _ _ (by simp) (by simp [Event.settles]) rfl hret.1, halike _ _ (by simp) (by simp [Event.settles]) rfl hret.2.1,
      halike _ _ (by simp) (by simp [Event.settles]) rfl hret.2.2.1, halike _ _ (by simp) (by simp [Event.settles]) rfl hret.2.2.2.1,
      trivial⟩ "bal" (by decide)
  have hq : ∀ i ∈ acked, i.env.faults = [] := by decide
  intro i hi f hf
  rw [hq i hi] at hf; cases hf

/-- The notice is a pending row of the session that its queue does not have. -/
theorem bal_rows_unheld : Live ["bal"] (boot ["bal"] .quiet .empty) rejected ∧ (∀ i ∈ rejected, i.env.faults = []) ∧
    ((run ["bal"] (boot ["bal"] .quiet .empty) rejected).db.rows[(2 : Int)]?).map
      (fun row => (row.targetSession, row.state)) = some ("bal", .pendingAck) ∧
    ((run ["bal"] (boot ["bal"] .quiet .empty) rejected).app.balManager "bal").map
      (fun m => (m.messages[(2 : Int)]?).isSome) = some false :=
  ⟨by unfold Live; decide +kernel, by decide, by decide +kernel⟩

end Gimmm
