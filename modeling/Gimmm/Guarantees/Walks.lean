/-
The loops that send the messages of a queue again, and the queue that they walk. Nothing that is queued has a bad
state, so a loop takes a message out of its queue only by a retry that returns -1: when it comes, with a full window,
to a message whose limit is exceeded or whose delay overflows. No other message is in its way.
-/
import Gimmm.Flow.Wiring
import Gimmm.Guarantees.Backoffs
import Gimmm.Guarantees.Timely

namespace Gimmm

open Std Prog
open MessageManager (removeMessage)
open ExponentialBackoff (halfPower next_eq randomDelta_bounds)

/-- Another retry of the message is within its limit, and none of its delays overflows. -/
structure Message.CanRetry (msg : Message) : Prop where
  limit : msg.maxRetry = -1 ∨ msg.nRetry < msg.maxRetry
  delay : halfPower msg.exboff.counted.seedVal * 1000 + 1000 ≤ 2 ^ 31 - 1

theorem halfPower_nonneg (seedVal : Int) : 0 ≤ halfPower seedVal := by
  have hpow : (0 : Int) < 2 ^ seedVal.toNat := Int.pow_pos (by decide)
  unfold halfPower
  omega

/-- A message can be retried exactly if no draw makes the -1 that takes it out of its queue. -/
theorem Message.canRetry_iff (msg : Message) : msg.CanRetry ↔ ∀ d : Draw, (msg.getNextRetryTimeout d).1 ≠ -1 := by
  have hhalf := halfPower_nonneg msg.exboff.counted.seedVal
  constructor
  · rintro ⟨limit, delay⟩ d
    obtain ⟨hlow, hhigh⟩ := randomDelta_bounds d
    have hwithin : ¬ (msg.maxRetry ≠ -1 ∧ msg.nRetry + 1 > msg.maxRetry) := by omega
    unfold Message.getNextRetryTimeout
    dsimp only
    rw [if_neg hwithin, next_eq, if_pos (by omega)]
    show halfPower msg.exboff.counted.seedVal * 1000 + d.randomDelta ≠ -1
    omega
  · intro h
    constructor
    · by_contra hlimit
      apply h default
      unfold Message.getNextRetryTimeout
      rw [if_pos]
      show msg.maxRetry ≠ -1 ∧ msg.nRetry + 1 > msg.maxRetry
      omega
    · by_contra hdelay
      -- the largest random part, and an overflow that leaves -1 behind
      apply h ⟨900, -1⟩
      have hrandom : Draw.randomDelta ⟨900, -1⟩ = 1000 := rfl
      unfold Message.getNextRetryTimeout
      dsimp only
      split
      · rfl
      · rw [next_eq, if_neg (by omega)]

/-! ## The loops -/

/-- A loop over a queue: the messages that it does not skip, what it does with one, and those that it counts as pending
on its way. -/
structure QueueLoop where
  queue : World → Option MessageManager
  kind : MessageType → Bool
  body : Message → Handler Unit
  counts : Message → Bool

namespace QueueLoop

/-- One iteration of `forEachMessage`. -/
def iterate (L : QueueLoop) (seqid : Int) : Handler Unit := do
  if let some msg := (L.queue (← read)).bind (·.messages[seqid]?) then
    L.body msg
    if ((L.queue (← read)).bind (·.messages[seqid]?)).isNone then throw .undefined

def run (L : QueueLoop) : Handler Unit := do
  match L.queue (← read) with
  | none => return
  | some m => m.messages.keys.forM L.iterate

/-- The queue has the messages that it had. -/
def Whole (L : QueueLoop) (m : MessageManager) (w : World) : Prop :=
  ∃ m', L.queue w = some m' ∧ ∀ n : Int, (m'.messages[n]?).isSome = (m.messages[n]?).isSome

/-- The message `n` stays in the queue when the loop comes to it: if it is not skipped, its state is not bad, and no
retry of it takes the branch that removes it. -/
def Passes (L : QueueLoop) (n : Int) (w : World) : Prop :=
  ∀ m msg, L.queue w = some m → m.messages[n]? = some msg → L.kind msg.type = true →
    ∃ c, m.canSendMessageOnReconnect msg = .ok c ∧
      (c = 0 ∨ c = 3 ∨ c = 2 ∧ ∀ d : Draw, (msg.getNextRetryTimeout d).1 ≠ -1)

/-- Whatever the environment decides, after any number of iterations, also when the last one stops, the queue is whole, and the
next message stays in it. -/
def Spares (L : QueueLoop) (w : World) : Prop :=
  ∀ m env done rest, L.queue w = some m → m.messages.keys = done ++ rest →
    Ends (fun _ s => L.Whole m s.1 ∧ ∀ n ∈ rest.head?, L.Passes n s.1) (fun _ s => L.Whole m s.1)
      (done.forM L.iterate (w, env))

/-- The window is full when the messages among those `done` that the loop counts are pending too. -/
def Full (L : QueueLoop) (m : MessageManager) (done : List Int) : Prop :=
  maxPendingMessages ≤ m.pendingAckCount + done.countP fun n => (m.messages[n]?).any L.counts

/-- Every message that the loop comes to with a full window can be retried. -/
def RetriesLeft (L : QueueLoop) (w : World) : Prop :=
  ∀ m n msg, L.queue w = some m → m.Rings (L.Full m) n → m.messages[n]? = some msg → L.kind msg.type = true → msg.CanRetry

end QueueLoop

/-- The loop of `resendAllPendingDownstreamMessages`. -/
def downstreamLoop : QueueLoop where
  queue w := some w.app.fcmMsgManager
  kind type := type = .downstream
  body msg := do
    if msg.type = .downstream then
      let rcode ← askFcm (·.canSendMessageOnReconnect msg)
      if rcode = 0 then uploadToFcm msg
      else if rcode = 2 then retryDownstreamWithExponentialBackoff msg
  counts _ := false

/-- The loop of `resendPendingUpstreamMessages`. -/
def upstreamLoop (sid : SessionId) : QueueLoop where
  queue w := w.app.balManager sid
  kind := MessageType.balBound
  body msg := do
    if msg.type.balBound then
      let rcode ← askBal sid (·.canSendMessageOnReconnect msg)
      if rcode = 0 then
        if msg.state ≠ .pendingAck then
          updateMsgState msg .pendingAck
          modifyBal sid (·.incrementPendingAckCount)
        forwardMsg sid msg
      else if rcode = 2 then retryUpstreamWithExponentialBackoff sid msg
      else if rcode = 3 then return
      else onBal sid (removeMessage msg.sequenceId)
  counts msg := msg.type.balBound && msg.state = .new

theorem downstreamLoop_run : downstreamLoop.run = resendAllPendingDownstreamMessages := rfl

theorem upstreamLoop_run (sid : SessionId) : (upstreamLoop sid).run = resendPendingUpstreamMessages sid := rfl

/-- The server when a session is established on the connection `id`. -/
def World.established (w : World) (id : Int) : World :=
  (w.mapApp fun app => { app with fcmConnectionsMap := app.fcmConnectionsMap.modify id fun c =>
    { c with state := .authenticated, expBoff := c.expBoff.reset } }).record .established

/-- The loop that the handler of an event runs, and the server that it finds. -/
def loopOf (w : World) : Event → Option (QueueLoop × World)
  | .fcmSessionEstablished id => some (downstreamLoop, w.established id)
  | .timer i =>
    match w.app.timers[i]? with
    | some (.resend sid) => some (upstreamLoop sid, w.mapApp fun app => { app with timers := app.timers.eraseIdx i })
    | _ => none
  | _ => none

/-- An event runs its loop, and nothing after it. -/
theorem handle_loopOf {w w' : World} {e : Event} {L : QueueLoop} (h : loopOf w e = some (L, w')) (env : Env) :
    handle e (w, env) = guarded L.run (w', env) ∨ handle e (w, env) = L.run (w', env) := by
  unfold loopOf at h
  split at h
  · cases h
    exact Or.inl rfl
  · rename_i i
    split at h
    · rename_i sid ht
      cases h
      right
      refine (bind_ok (rfl : (Prog.read : Handler World) (w, env) = .ok w (w, env))).trans ?_
      rw [ht]
      rfl
    · cases h
  · cases h

/-! ## Walking a queue -/

namespace QueueLoop

variable {L : QueueLoop} {m₀ m : MessageManager} {done rest : List Int} {n : Int} {msg : Message}

/-- The messages that are pending an ack when the loop has come so far, unless the window is full before. -/
def pending (L : QueueLoop) (m : MessageManager) (done : List Int) : Nat :=
  m.pendingAckCount + done.countP fun n => (m.messages[n]?).any L.counts

/-- What the loop has made of the queue `m₀` after the messages `done`, with the messages `rest` before it. -/
structure Ahead (L : QueueLoop) (m₀ m : MessageManager) (done rest : List Int) : Prop where
  wf : m.WF
  keys : ∀ k : Int, (m.messages[k]?).isSome = (m₀.messages[k]?).isSome
  left : ∀ k ∈ rest, m.messages[k]? = m₀.messages[k]?
  most : m.pendingAckCount ≤ L.pending m₀ done
  room : m.pendingAckCount < maxPendingMessages → m.pendingAckCount = L.pending m₀ done

theorem pending_append : L.pending m₀ (done ++ [n]) =
    L.pending m₀ done + if (m₀.messages[n]?).any L.counts then 1 else 0 := by
  unfold pending
  rw [List.countP_append, List.countP_cons, List.countP_nil]
  omega

namespace Ahead

theorem start (hwf : m₀.WF) : L.Ahead m₀ m₀ [] rest :=
  ⟨hwf, fun _ => rfl, fun _ _ => rfl, Nat.le_refl _, fun _ => rfl⟩

theorem full_iff (h : L.Ahead m₀ m done rest) : maxPendingMessages ≤ m.pendingAckCount ↔ L.Full m₀ done := by
  have hmost := h.most
  have hroom := h.room
  show _ ↔ maxPendingMessages ≤ L.pending m₀ done
  omega

/-- The loop goes on to the next message: this one is not counted, or the window is full. -/
theorem skip (h : L.Ahead m₀ m done (n :: rest))
    (hskip : (m₀.messages[n]?).any L.counts = true → maxPendingMessages ≤ m.pendingAckCount) :
    L.Ahead m₀ m (done ++ [n]) rest := by
  have hmost := h.most
  refine ⟨h.wf, h.keys, fun k hk => h.left k (List.mem_cons_of_mem _ hk), ?_, fun hroom => ?_⟩
  · rw [pending_append]
    omega
  · rw [pending_append, if_neg fun hc => absurd (hskip hc) (Nat.not_le.2 hroom)]
    exact h.room hroom

theorem touch (h : L.Ahead m₀ m done rest) (hn : n ∉ rest) {f : Message → Message} (hf : ∀ msg, (f msg).fixed = msg.fixed) :
    L.Ahead m₀ (m.modifyMessage n f) done rest := by
  refine ⟨h.wf.modifyMessage hf, fun k => ?_, fun k hk => ?_, h.most, h.room⟩
  · rw [MessageManager.modifyMessage_getElem?, ← h.keys k]
    split
    · exact Option.isSome_map
    · rfl
  · rw [MessageManager.modifyMessage_getElem?, if_neg (by rintro rfl; exact hn hk)]
    exact h.left k hk

/-- The message is counted while the window has room. -/
theorem increment (h : L.Ahead m₀ m done (n :: rest)) (hn : (m₀.messages[n]?).any L.counts = true)
    (hroom : m.pendingAckCount < maxPendingMessages) : L.Ahead m₀ m.incrementPendingAckCount (done ++ [n]) rest := by
  have hexact := h.room hroom
  have hnext : m.incrementPendingAckCount.pendingAckCount = L.pending m₀ (done ++ [n]) := by
    rw [pending_append, if_pos hn, ← hexact]
    rfl
  exact ⟨h.wf.incrementPendingAckCount, h.keys, fun k hk => h.left k (List.mem_cons_of_mem _ hk), hnext.le, fun _ => hnext⟩

end Ahead

/-- The body of the loop takes no message out of the queue, unless it retries one that cannot be retried: it ends normally
with the loop ahead, or stops where something fails. -/
def Steps (L : QueueLoop) (I : World → Prop) (m₀ : MessageManager) : Prop :=
  ∀ env fs done n rest w m msg, m₀.messages.keys = done ++ n :: rest → L.queue w = some m → L.Ahead m₀ m done (n :: rest) →
    I w → m₀.messages[n]? = some msg → (L.kind msg.type = true → L.Full m₀ done → msg.CanRetry) →
    Wp (Env.Rest env fs) (L.body msg) (fun _ w' => I w' ∧ ∃ m', L.queue w' = some m' ∧ L.Ahead m₀ m' (done ++ [n]) rest)
      (fun _ w' => Bad fs ∧ L.Whole m₀ w') w

/-- The messages that the loop comes to with a full window, among those `done`, can be retried. -/
def Retried (L : QueueLoop) (m₀ : MessageManager) (done : List Int) : Prop :=
  ∀ pre n post msg, done = pre ++ n :: post → L.Full m₀ pre → m₀.messages[n]? = some msg → L.kind msg.type = true →
    msg.CanRetry

variable {I : World → Prop} {w : World}

theorem Ahead.whole (h : L.Ahead m₀ m done rest) (hq : L.queue w = some m) : L.Whole m₀ w := ⟨m, hq, h.keys⟩

theorem held_of_keys (hkeys : m₀.messages.keys = done ++ n :: rest) : ∃ msg, m₀.messages[n]? = some msg := by
  have hmem : n ∈ m₀.messages.keys := by
    rw [hkeys]
    exact List.mem_append_right _ (List.mem_cons_self ..)
  exact Option.isSome_iff_exists.1 (ExtTreeMap.isSome_getElem?_iff_mem.2 (ExtTreeMap.mem_keys.1 hmem))

/-- Any number of iterations: the induction is over the messages that are left of them. -/
theorem Steps.walk (h : L.Steps I m₀) {env : Env} {fs : List Fault} (hkeys : m₀.messages.keys = done ++ rest)
    (hretried : L.Retried m₀ done) (hwf : m₀.WF) (hq : L.queue w = some m₀) (hI : I w) :
    Wp (Env.Rest env fs) (done.forM L.iterate) (fun _ w' => I w' ∧ ∃ m, L.queue w' = some m ∧ L.Ahead m₀ m done rest)
      (fun _ w' => Bad fs ∧ L.Whole m₀ w') w := by
  let J : List Int → World → Prop := fun l w' =>
    I w' ∧ ∃ m pre, pre ++ l = done ∧ L.queue w' = some m ∧ L.Ahead m₀ m pre (l ++ rest)
  have hloop : Wp (Env.Rest env fs) (done.forM L.iterate) (fun _ => J []) (fun _ w' => Bad fs ∧ L.Whole m₀ w') w := by
    refine Wp.forM (I := J) ?_ done ⟨hI, m₀, [], rfl, hq, .start hwf⟩
    rintro n l w₁ ⟨hI₁, m, pre, hpre, hq₁, hahead⟩
    have hkeys₁ : m₀.messages.keys = pre ++ n :: (l ++ rest) := by
      rw [hkeys, ← hpre, List.append_assoc]
      rfl
    obtain ⟨msg, hmsg⟩ := held_of_keys hkeys₁
    have hheld : (L.queue w₁).bind (·.messages[n]?) = some msg := by
      rw [hq₁]
      exact (hahead.left n (List.mem_cons_self ..)).trans hmsg
    refine Wp.bind (Wp.read ?_)
    rw [hheld]
    refine Wp.bind (Wp.mono (h env fs pre n (l ++ rest) w₁ m msg hkeys₁ hq₁ hahead hI₁ hmsg ?_) ?_ fun _ _ h => h)
    · exact fun hkind hfull => hretried pre n l msg hpre.symm hfull hmsg hkind
    · rintro - w₂ ⟨hI₂, m₂, hq₂, hahead₂⟩
      -- the message that was walked is still there
      have hstays : ((L.queue w₂).bind (·.messages[n]?)).isNone = false := by
        rw [hq₂, ← Option.not_isSome]
        show (!(m₂.messages[n]?).isSome) = false
        rw [hahead₂.keys, hmsg]
        rfl
      refine Wp.bind (Wp.read ?_)
      rw [hstays]
      refine Wp.pure ⟨hI₂, m₂, pre ++ [n], ?_, hq₂, hahead₂⟩
      rw [← hpre, List.append_assoc]
      rfl
  refine hloop.mono ?_ fun _ _ h => h
  rintro - w' ⟨hI', m, pre, hpre, hq', hahead⟩
  rw [List.append_nil] at hpre
  exact ⟨hI', m, hq', hpre ▸ hahead⟩

/-- A message that the loop comes to stays in the queue if it can be retried or the window has room. -/
theorem Ahead.passes_iff (h : L.Ahead m₀ m done (n :: rest)) (hq : L.queue w = some m) (hmsg : m₀.messages[n]? = some msg)
    (hpending : msg.state.pending = true) :
    L.Passes n w ↔ (L.kind msg.type = true → L.Full m₀ done → msg.CanRetry) := by
  have hheld : m.messages[n]? = some msg := (h.left n (List.mem_cons_self ..)).trans hmsg
  obtain ⟨c, hc, hcases⟩ := MessageManager.canSendMessageOnReconnect_eq h.wf hheld (h.wf.key hheld) rfl hpending
  constructor
  · intro hpasses hkind hfull
    obtain ⟨c', hc', hout⟩ := hpasses m msg hq hheld hkind
    obtain rfl : c = c' := Except.ok.inj (hc.symm.trans hc')
    rw [← h.full_iff] at hfull
    rcases hcases with ⟨-, hroom, -⟩ | ⟨rfl, -⟩ | ⟨-, hroom, -⟩
    · omega
    · rcases hout with h0 | h3 | ⟨-, hdraws⟩
      · cases h0
      · cases h3
      · exact msg.canRetry_iff.2 hdraws
    · omega
  · intro hcan m' msg' hq' hmsg' hkind
    obtain rfl : m = m' := Option.some.inj (hq.symm.trans hq')
    obtain rfl : msg = msg' := Option.some.inj (hheld.symm.trans hmsg')
    refine ⟨c, hc, ?_⟩
    rcases hcases with ⟨h0, -⟩ | ⟨h2, hfull⟩ | ⟨h3, -⟩
    · exact Or.inl h0
    · exact Or.inr (Or.inr ⟨h2, msg.canRetry_iff.1 (hcan hkind (h.full_iff.1 hfull))⟩)
    · exact Or.inr (Or.inl h3)

/-- The loop spares its queue if and only if every message that it comes to with a full window can be retried. -/
theorem Steps.spares_iff (h : L.Steps I m₀) (hwf : m₀.WF) (hq : L.queue w = some m₀) (hI : I w)
    (hpending : ∀ (n : Int) (msg : Message), m₀.messages[n]? = some msg → msg.state.pending = true) :
    L.Spares w ↔ L.RetriesLeft w := by
  constructor
  · intro hspares
    -- nothing fails, so the loop comes to every message before which all can be retried
    have hretried : ∀ k done rest, done.length ≤ k → m₀.messages.keys = done ++ rest → L.Retried m₀ done := by
      intro k
      induction k with
      | zero =>
        intro done rest hlen _ pre n post msg hdone
        rw [hdone, List.length_append, List.length_cons] at hlen
        omega
      | succ k ih =>
        intro done rest hlen hkeys pre n post msg hdone hfull hmsg hkind
        have hlen' : pre.length ≤ k := by
          rw [hdone, List.length_append, List.length_cons] at hlen
          omega
        have hkeys' : m₀.messages.keys = pre ++ n :: (post ++ rest) := by
          rw [hkeys, hdone, List.append_assoc]
          rfl
        have hwalk := h.walk hkeys' (ih pre _ hlen' hkeys') hwf hq hI .quiet (.refl .quiet)
        have hends := hspares m₀ .quiet pre (n :: (post ++ rest)) hq hkeys'
        cases hrun : pre.forM L.iterate (w, Env.quiet) with
        | error stop s =>
          rw [hrun] at hwalk
          obtain ⟨-, ⟨f, hf, -⟩, -⟩ := hwalk
          cases hf
        | ok a s =>
          rw [hrun] at hwalk hends
          obtain ⟨-, -, m, hq', hahead⟩ := hwalk
          exact (hahead.passes_iff hq' hmsg (hpending n msg hmsg)).1 (hends.2 n rfl) hkind hfull
    intro m n msg hm hrings hmsg hkind
    obtain rfl : m₀ = m := Option.some.inj (hq.symm.trans hm)
    obtain ⟨done, rest, hkeys, hfull⟩ := hrings
    refine hretried _ (done ++ [n]) rest (Nat.le_refl _) ?_ done n [] msg rfl hfull hmsg hkind
    rw [hkeys, List.append_assoc]
    rfl
  · intro hretries m env done rest hm hkeys
    obtain rfl : m₀ = m := Option.some.inj (hq.symm.trans hm)
    have hretried : ∀ done rest, m₀.messages.keys = done ++ rest → L.Retried m₀ done := by
      intro done rest hkeys pre n post msg hdone hfull
      apply hretries m₀ n msg hq
      refine ⟨pre, post ++ rest, ?_, hfull⟩
      rw [hkeys, hdone, List.append_assoc]
      rfl
    refine (h.walk hkeys (hretried done rest hkeys) hwf hq hI env (.refl env)).mono ?_ fun _ _ h => h.2.2
    rintro - s ⟨-, -, m, hq', hahead⟩
    refine ⟨hahead.whole hq', fun n hn => ?_⟩
    cases rest with
    | nil => cases hn
    | cons k rest =>
      obtain rfl : k = n := Option.some.inj hn
      obtain ⟨msg, hmsg⟩ := held_of_keys hkeys
      refine (hahead.passes_iff hq' hmsg (hpending k msg hmsg)).2 fun hkind hfull => ?_
      exact hretries m₀ k msg hq ⟨done, rest, hkeys, hfull⟩ hmsg hkind

theorem nodup_of_keys (hkeys : m₀.messages.keys = done ++ n :: rest) : n ∉ rest := by
  have hnodup : m₀.messages.keys.Nodup := ExtTreeMap.nodup_keys
  rw [hkeys, List.nodup_append] at hnodup
  exact (List.nodup_cons.1 hnodup.2.1).1

end QueueLoop

/-! ## Retries -/

/-- A queue with a retry of the message `n` started. -/
def MessageManager.retrying (m : MessageManager) (n : Int) (d : Draw) : MessageManager :=
  (m.modifyMessage n fun msg => (msg.getNextRetryTimeout d).2).modifyMessage n (·.setRetryInProgress true)

theorem QueueLoop.Ahead.retrying {L : QueueLoop} {m₀ m : MessageManager} {done rest : List Int} {n : Int}
    (h : L.Ahead m₀ m done (n :: rest)) (hn : n ∉ rest) (hfull : maxPendingMessages ≤ m.pendingAckCount) (d : Draw) :
    L.Ahead m₀ (m.retrying n d) (done ++ [n]) rest :=
  ((h.skip fun _ => hfull).touch hn fun msg => Message.getNextRetryTimeout_fixed msg d).touch hn fun _ => rfl

section
variable {E : Env → Prop} {env₀ : Env} {fs : List Fault} {w : World} {msg : Message} {sid : SessionId} {m : MessageManager}
  {X : Stop → World → Prop}

theorem wp_retryDownstream_left (hE : Env.Closed E) (hcan : msg.CanRetry) :
    Wp E (retryDownstreamWithExponentialBackoff msg)
      (fun _ w' => ∃ d, w'.app.fcmMsgManager = w.app.fcmMsgManager.retrying msg.sequenceId d) X w := by
  unfold retryDownstreamWithExponentialBackoff
  refine Wp.bind (Wp.decision hE.popDraw fun env _ => ?_)
  have hleft : (msg.getNextRetryTimeout env.popDraw.1).1 ≠ -1 := msg.canRetry_iff.1 hcan _
  refine Wp.bind (wp_modifyFcm fun w₁ h₁ => ?_)
  dsimp only
  rw [if_pos hleft]
  refine Wp.bind (wp_modifyFcm fun w₂ h₂ => ?_)
  have hfcm : (books w₂).fcm = (books w).fcm.retrying msg.sequenceId env.popDraw.1 := by
    rw [h₂, h₁]
    rfl
  refine wp_singleShot ⟨_, hfcm⟩ fun w₃ h₃ => ⟨env.popDraw.1, ?_⟩
  show (books w₃).fcm = _
  rw [h₃]
  exact hfcm

theorem wp_retryUpstream_left (hE : Env.Closed E) (hcan : msg.CanRetry) (hm : w.app.balManager sid = some m) :
    Wp E (retryUpstreamWithExponentialBackoff sid msg)
      (fun _ w' => ∃ d, w'.app.balManager sid = some (m.retrying msg.sequenceId d)) X w := by
  unfold retryUpstreamWithExponentialBackoff
  refine Wp.bind (Wp.decision hE.popDraw fun env _ => ?_)
  have hleft : (msg.getNextRetryTimeout env.popDraw.1).1 ≠ -1 := msg.canRetry_iff.1 hcan _
  refine Wp.bind (wp_modifyBal hm fun w₁ h₁ => ?_)
  dsimp only
  rw [if_pos hleft]
  refine Wp.bind (wp_modifyBal (bal_of_setBal h₁) fun w₂ h₂ => ?_)
  have hbal : (books w₂).bal sid = some (m.retrying msg.sequenceId env.popDraw.1) := bal_of_setBal h₂
  refine wp_singleShot ⟨_, hbal⟩ fun w₃ h₃ => ⟨env.popDraw.1, ?_⟩
  show (books w₃).bal sid = _
  rw [h₃]
  exact hbal

/-! ## Statements that keep the application -/

theorem wp_output_app {what : Happening} : Wp (env₀.Rest fs) (output what) (fun _ w' => w'.app = w.app)
    (fun stop w' => stop = .killed ∧ Bad fs ∧ w'.app = w.app) w := by
  intro env henv
  by_cases hcrash : env.faults.headD .ok = .crash
  · rw [output_killed hcrash]
    have hbad : env.popFault.1 ≠ .ok := by
      show env.faults.headD .ok ≠ .ok
      rw [hcrash]
      exact nofun
    exact ⟨henv.popFault.widen, rfl, henv.bad hbad, rfl⟩
  · rw [output_ok hcrash]
    exact ⟨henv.popFault.widen, rfl⟩

theorem wp_updateMsgState_app {s : MessageState} : Wp (env₀.Rest fs) (updateMsgState msg s) (fun _ w' => w'.app = w.app)
    (fun _ w' => Bad fs ∧ w'.app = w.app) w := by
  intro env henv
  by_cases hok : env.faults.headD .ok = .ok
  · rw [updateMsgState_ok hok]
    exact ⟨henv.popFault.widen, rfl⟩
  · have hbad : Bad fs := henv.bad hok
    have hfails : (∃ what, updateMsgState msg s (w, env) = .error (.exception what) (w, env.popFault.2)) ∨
        updateMsgState msg s (w, env) = .error .killed (w, env.popFault.2) := updateMsgState_fails hok
    rcases hfails with ⟨what, h⟩ | h
    · rw [h]
      exact ⟨henv.popFault.widen, hbad, rfl⟩
    · rw [h]
      exact ⟨henv.popFault.widen, hbad, rfl⟩

theorem wp_modifyBal_app {f : MessageManager → MessageManager} (hm : w.app.balManager sid = some m) :
    Wp E (modifyBal sid f) (fun _ w' => w' = w.putBal sid (f m)) X w := by
  intro env henv
  unfold modifyBal
  rw [onBal_known hm]
  exact ⟨henv, rfl⟩

/-- A session that is authenticated has a connection with a socket. -/
def Links.Live (l : Links) (sid : SessionId) : Prop :=
  ∀ conn, l.session sid = some (conn, .authenticated) → ∃ sock s, conn = some sock ∧ l.socket sock = some s

/-- Forwarding over a live session changes nothing, and only a failure stops it. -/
theorem wp_forwardMsg_app (hlive : (links w.app).Live sid) (hm : w.app.balManager sid = some m) :
    Wp (env₀.Rest fs) (forwardMsg sid msg) (fun _ w' => w'.app = w.app) (fun _ w' => Bad fs ∧ w'.app = w.app) w := by
  unfold forwardMsg
  refine Wp.bind (wp_findBalSession (fun sess hsess => ?_) fun hnone => ?_)
  · split
    · exact Wp.pure rfl
    · refine Wp.attempt ?_
      unfold writeMessage
      split
      · rename_i hauth
        have hsession : (links w.app).session sid = some (sess.balConn, .authenticated) := by
          show w.app.balSessionMap[sid]?.map _ = _
          rw [hsess, ← hauth]
          rfl
        obtain ⟨sock, s, hconn, hsock⟩ := hlive _ hsession
        have hsock : w.app.sockets[sock]? = some s := hsock
        rw [hconn]
        dsimp only
        refine Wp.bind (Wp.read ?_)
        rw [hsock]
        dsimp only
        split
        · refine wp_output_app.mono (fun _ _ h => h) ?_
          rintro stop w' ⟨rfl, hbad, happ⟩
          exact ⟨hbad, happ⟩
        · exact Wp.throw rfl
      · exact Wp.throw rfl
  · rw [show (books w).bal sid = some m from hm] at hnone
    cases hnone

end

/-! ## The two loops -/

/-- Every message of the queue is new or pending an ack. -/
def MessageManager.Unsettled (m : MessageManager) : Prop :=
  ∀ (n : Int) (msg : Message), m.messages[n]? = some msg → msg.state = .new ∨ msg.state = .pendingAck

/-- No message of the queue has a group. -/
def MessageManager.Ungrouped (m : MessageManager) : Prop :=
  ∀ (n : Int) (msg : Message), m.messages[n]? = some msg → msg.groupId = ""

section
variable {m₀ : MessageManager} {sid : SessionId}

theorem MessageManager.Unsettled.pending (h : m₀.Unsettled) {n : Int} {msg : Message} (hmsg : m₀.messages[n]? = some msg) :
    msg.state.pending = true := decide_eq_true (h n msg hmsg)

theorem downstreamLoop_steps (hstates : m₀.Unsettled) : downstreamLoop.Steps (fun _ => True) m₀ := by
  rintro env fs done n rest w m msg hkeys hq hahead - hmsg hcan
  have hwhole : ∀ {w' : World}, w'.app = w.app → downstreamLoop.Whole m₀ w' := fun happ =>
    hahead.whole (by rw [← hq]; exact congrArg (fun app : Application => some app.fcmMsgManager) happ)
  have hcount : ¬ (m₀.messages[n]?).any downstreamLoop.counts = true := by
    rw [hmsg]
    exact nofun
  have hskip : downstreamLoop.Ahead m₀ m (done ++ [n]) rest := hahead.skip fun h => absurd h hcount
  obtain rfl : w.app.fcmMsgManager = m := Option.some.inj hq
  have hheld : w.app.fcmMsgManager.messages[n]? = some msg := (hahead.left n (List.mem_cons_self ..)).trans hmsg
  have hseq : msg.sequenceId = n := hahead.wf.key hheld
  obtain ⟨c, hc, hcases⟩ := MessageManager.canSendMessageOnReconnect_eq hahead.wf hheld hseq rfl (hstates.pending hmsg)
  show Wp _ (if msg.type = .downstream then _ else _) _ _ w
  split
  · rename_i htype
    refine Wp.bind (wp_askFcm (fun a ha => ?_) fun e he => ?_)
    · obtain rfl : c = a := Except.ok.inj (hc.symm.trans ha)
      rcases hcases with ⟨rfl, -⟩ | ⟨rfl, hfull⟩ | ⟨rfl, -⟩
      · refine wp_output_app.mono (fun _ w' happ => ⟨trivial, _, ?_, hskip⟩) fun _ _ h => ⟨h.2.1, hwhole h.2.2⟩
        exact congrArg (fun app : Application => some app.fcmMsgManager) happ
      · have hleft : msg.CanRetry := hcan (decide_eq_true htype) (hahead.full_iff.1 hfull)
        refine (wp_retryDownstream_left (Env.Rest.closed _ _) hleft).mono ?_ fun _ _ h => h
        rintro - w' ⟨d, hd⟩
        rw [hseq] at hd
        exact ⟨trivial, _, congrArg some hd, hahead.retrying (QueueLoop.nodup_of_keys hkeys) hfull d⟩
      · exact Wp.pure ⟨trivial, _, rfl, hskip⟩
    · cases hc.symm.trans he
  · exact Wp.pure ⟨trivial, _, rfl, hskip⟩

theorem keeps_upstreamLoop {E : Env → Prop} (hE : Env.Closed E) (msg : Message) :
    Keeps E Steady ((upstreamLoop sid).body msg) := by
  show Keeps E Steady (if msg.type.balBound then _ else _)
  split
  · refine Keeps.bind steady_frame.askBal fun rcode => ?_
    split
    · split
      · refine Keeps.bind (steady_frame.updateMsgState hE) fun _ => ?_
        exact Keeps.bind (steady_frame.modifyBal fun _ => trivial) fun _ => steady_frame.forwardMsg hE
      · exact steady_frame.forwardMsg hE
    · split
      · exact steady_frame.retryUpstreamWithExponentialBackoff hE
      · split
        · exact Keeps.pure _
        · exact steady_frame.onBal (allowed_all _)
  · exact Keeps.pure _

theorem upstreamLoop_steps (hstates : m₀.Unsettled) (hgroups : m₀.Ungrouped) :
    (upstreamLoop sid).Steps (fun w => (links w.app).Live sid) m₀ := by
  intro env fs done n rest w m msg hkeys hq hahead hlive hmsg hcan
  have hm : w.app.balManager sid = some m := hq
  have hqueue : ∀ {w' : World}, w'.app = w.app → (upstreamLoop sid).queue w' = some m := fun happ => by
    rw [← hq]
    exact congrArg (fun app : Application => app.balManager sid) happ
  have hheld : m.messages[n]? = some msg := (hahead.left n (List.mem_cons_self ..)).trans hmsg
  have hseq : msg.sequenceId = n := hahead.wf.key hheld
  -- a BAL message has no group, so nothing is before it
  have hfront : m.Front msg := fun hgroup => absurd (hgroups n msg hmsg) hgroup
  obtain ⟨c, hc, hcases⟩ := MessageManager.canSendMessageOnReconnect_eq hahead.wf hheld hseq rfl (hstates.pending hmsg)
  have hbody : Wp (Env.Rest env fs) ((upstreamLoop sid).body msg)
      (fun _ w' => ∃ m', (upstreamLoop sid).queue w' = some m' ∧ (upstreamLoop sid).Ahead m₀ m' (done ++ [n]) rest)
      (fun _ w' => Bad fs ∧ (upstreamLoop sid).Whole m₀ w') w := by
    show Wp _ (if msg.type.balBound then _ else _) _ _ w
    split
    · rename_i htype
      refine Wp.bind (wp_askBal hm (fun a ha => ?_) fun e he => ?_)
      · obtain rfl : c = a := Except.ok.inj (hc.symm.trans ha)
        rcases hcases with ⟨rfl, hroom, -⟩ | ⟨rfl, hfull⟩ | ⟨rfl, -, hbehind⟩
        · show Wp _ (if msg.state ≠ .pendingAck then _ else _) _ _ w
          split
          · rename_i hnew
            -- a new message is marked and counted
            have hcount : (m₀.messages[n]?).any (upstreamLoop sid).counts = true := by
              rw [hmsg]
              show (msg.type.balBound && decide (msg.state = .new)) = true
              rw [htype, (hstates n msg hmsg).resolve_right hnew]
              rfl
            refine Wp.bind (Wp.mono wp_updateMsgState_app (fun _ w₁ h₁ => ?_) fun _ w' h => ⟨h.1, hahead.whole (hqueue h.2)⟩)
            have hm₁ : w₁.app.balManager sid = some m := hqueue h₁
            refine Wp.bind (Wp.mono (wp_modifyBal_app hm₁) (fun _ w₂ h₂ => ?_) fun _ _ h => h)
            have hm₂ : w₂.app.balManager sid = some m.incrementPendingAckCount := by
              rw [h₂]
              exact bal_of_setBal (books_putBal hm₁)
            have hlive₂ : (links w₂.app).Live sid := by
              rw [h₂, links_putBal, h₁]
              exact hlive
            have hqueue₂ : ∀ {w' : World}, w'.app = w₂.app → (upstreamLoop sid).queue w' = some m.incrementPendingAckCount :=
              fun happ => (congrArg (fun app : Application => app.balManager sid) happ).trans hm₂
            refine (wp_forwardMsg_app hlive₂ hm₂).mono (fun _ w' h => ?_) fun _ w' h => ?_
            · exact ⟨_, hqueue₂ h, hahead.increment hcount hroom⟩
            · exact ⟨h.1, _, hqueue₂ h.2, hahead.keys⟩
          · rename_i hold
            -- one that is pending already is only written again
            have hcount : ¬ (m₀.messages[n]?).any (upstreamLoop sid).counts = true := by
              rw [hmsg]
              show ¬ (msg.type.balBound && decide (msg.state = .new)) = true
              rw [Decidable.not_not.1 hold, Bool.and_eq_true]
              exact fun h => by cases h.2
            refine (wp_forwardMsg_app hlive hm).mono (fun _ w' h => ?_) fun _ w' h => ⟨h.1, hahead.whole (hqueue h.2)⟩
            exact ⟨m, hqueue h, hahead.skip fun h => absurd h hcount⟩
        · have hleft : msg.CanRetry := hcan htype (hahead.full_iff.1 hfull)
          refine (wp_retryUpstream_left (Env.Rest.closed _ _) hleft hm).mono ?_ fun _ _ h => h
          rintro - w' ⟨d, hd⟩
          rw [hseq] at hd
          exact ⟨_, hd, hahead.retrying (QueueLoop.nodup_of_keys hkeys) hfull d⟩
        · exact absurd hfront hbehind
      · cases hc.symm.trans he
    · rename_i htype
      have hcount : ¬ (m₀.messages[n]?).any (upstreamLoop sid).counts = true := by
        rw [hmsg]
        show ¬ (msg.type.balBound && decide (msg.state = .new)) = true
        rw [Bool.and_eq_true]
        exact fun h => htype h.1
      exact Wp.pure ⟨m, hq, hahead.skip fun h => absurd h hcount⟩
  -- the body does not touch the connections, so the session lives on
  refine (hbody.and (keeps_upstreamLoop (Env.Rest.closed _ _) msg w)).mono ?_ fun _ _ h => h.1
  rintro - w' ⟨hahead', hsteady⟩
  refine ⟨?_, hahead'⟩
  show (links w'.app).Live sid
  rw [hsteady.same]
  exact hlive

end

/-! ## Sessions -/

/-- No session is authenticated without a connection. -/
def Links.Bound (l : Links) : Prop := ∀ sid, l.session sid ≠ some (none, .authenticated)

namespace Links.Bound

variable {l l' : Links}

theorem live (h : l.Bound) (halive : Alive l) (sid : SessionId) : l.Live sid := by
  intro conn hsid
  cases conn with
  | none => exact absurd hsid (h sid)
  | some sock =>
    obtain ⟨s, hs, -⟩ := halive.socket (Or.inr (Or.inl ⟨sid, _, hsid⟩))
    exact ⟨sock, s, rfl, hs⟩

theorem setSession (h : l.Bound) (sid : SessionId) {f : Option SocketId × SessionState → Option SocketId × SessionState}
    (hf : ∀ p, f p ≠ (none, .authenticated)) : (l.setSession sid f).Bound := by
  intro k hk
  have hk : (if k = sid then (l.session k).map f else l.session k) = some (none, .authenticated) := hk
  split at hk
  · obtain ⟨p, -, hp⟩ := Option.map_eq_some_iff.1 hk
    exact hf p hp
  · exact h k hk

theorem disconnected (h : l.Bound) (sock : SocketId) : (l.disconnected sock).Bound := by
  unfold Links.disconnected
  split
  · exact h
  · split
    · split
      · exact h
      · unfold Links.handleDisconnect
        split
        · exact h
        · refine Links.Bound.setSession (l := l.setSocket sock _) h _ fun p hp => ?_
          have hstate := (Prod.mk.inj hp).2
          cases hstate
    · exact h

theorem relink {i : Input} {b : Stores} (h : l.Bound) (hr : Relink i b l l') : l'.Bound := by
  cases hr with
  | @accepted sock doc s conn => exact Links.Bound.setSession (l := (l.cancel conn).erase s.descriptor) h _ fun p hp => by cases hp
  | disconnected => exact h.disconnected _
  | @deleted sock ts => exact Links.Bound.disconnected (l := l.setTimers ts) h sock
  | _ => exact h

theorem start (cfg : List SessionId) (env : Env) (db : Database) : (links (.start cfg env db)).Bound := by
  intro sid hsid
  have hsid : ((Application.start cfg env db).balSessionMap[sid]?).map _ = _ := hsid
  unfold Application.start at hsid
  dsimp only at hsid
  rw [foldl_insertIfNew (fun s => (⟨none, .unauthenticated, db.loadPendingMessages (env.scan s) env.junk (.new s)⟩ : BALSession)),
    ExtTreeMap.getElem?_empty, Option.none_or] at hsid
  split at hsid
  · cases (Prod.mk.inj (Option.some.inj hsid)).2
  · cases hsid

theorem step {cfg : List SessionId} {w : World} (h : (links w.app).Bound) (i : Input) : (links (step cfg w i).app).Bound := by
  obtain ⟨-, ⟨-, l, hrelink, htidied⟩ | ⟨-, env, db, happ⟩⟩ := step_links cfg w i
  · intro sid
    rw [htidied.session]
    exact h.relink hrelink sid
  · rw [happ]
    exact .start cfg env db

end Links.Bound

/-! ## Groups -/

namespace MessageManager.Ungrouped

variable {m : MessageManager}

theorem touch (h : m.Ungrouped) (n : Int) {f : Message → Message} (hf : ∀ msg, (f msg).fixed = msg.fixed) :
    (m.modifyMessage n f).Ungrouped := by
  intro k msg hmsg
  rw [MessageManager.modifyMessage_getElem?] at hmsg
  split at hmsg
  · obtain ⟨held, hheld, rfl⟩ := Option.map_eq_some_iff.1 hmsg
    exact (congrArg Message.Fixed.groupId (hf held)).trans (h k held hheld)
  · exact h k msg hmsg

theorem mark (h : m.Ungrouped) (n : Int) : (m.mark n).Ungrouped := h.touch n (f := (·.setState .pendingAck)) fun _ => rfl

theorem without (h : m.Ungrouped) (msg : Message) : (m.without msg).Ungrouped := fun k held hheld =>
  h k held (MessageManager.of_without hheld).1

theorem add (h : m.Ungrouped) (n : Int) {msg : Message} (hgroup : msg.groupId = "") : (m.addMessage n msg).Ungrouped := by
  intro k held hheld
  rw [MessageManager.addMessage_messages, ExtTreeMap.getElem?_insertIfNew] at hheld
  split at hheld
  · rw [← Option.some.inj hheld]
    exact hgroup
  · exact h k held hheld

end MessageManager.Ungrouped

/-- No message for a BAL session has a group. -/
def Books.Ungrouped (b : Books) : Prop := ∀ sid m, b.bal sid = some m → m.Ungrouped

namespace Books.Ungrouped

variable {b : Books}

theorem setBal (h : b.Ungrouped) (sid : SessionId) {m : MessageManager} (hm : m.Ungrouped) : (b.setBal sid m).Ungrouped := by
  intro s m' hbal
  rw [Books.setBal_bal] at hbal
  split at hbal
  · rw [← Option.some.inj hbal]
    exact hm
  · exact h s m' hbal

/-- What is saved for a BAL session and queued later has no group. -/
theorem reach {i : Input} {b₀ : Books} {d : Debt} (h₀ : b₀.Ungrouped) (hr : Reach i b₀ b d) : b.Ungrouped := by
  refine (hr.invariant (P := fun b d => b.Ungrouped ∧ ∀ msg, d = .saved msg → msg.groupId = "")
    ⟨h₀, fun _ hd => by cases hd⟩ ?_).1
  rintro b d b' d' ⟨h, hsaved⟩ ha
  have hstate : ∀ n s, (b.setState n s).Ungrouped := fun _ _ => h
  have hpaid : ∀ msg, Debt.none = .saved msg → msg.groupId = "" := fun _ hd => by cases hd
  cases ha with
  | draw => exact ⟨h, hsaved⟩
  | upload => exact ⟨h, hsaved⟩
  | drop => exact ⟨h, hsaved⟩
  | touchDown => exact ⟨h, hsaved⟩
  | fcmAck => exact ⟨h, hsaved⟩
  | connections => exact ⟨h, hsaved⟩
  | record => exact ⟨h, hsaved⟩
  | save envelope =>
    refine ⟨h, fun msg hmsg => ?_⟩
    cases hmsg
    exact envelope.groupId
  | deliver bal => exact ⟨h.setBal _ ((h _ _ bal).add _ (hsaved _ rfl)), hpaid⟩
  | markBal bal => exact ⟨(hstate _ _).setBal _ ((h _ _ bal).mark _), hpaid⟩
  | remark resend => exact ⟨(hstate _ _).setBal _ fun n msg hmsg => h _ _ resend.bal n msg hmsg, hpaid⟩
  | settleBal bal => exact ⟨(hstate _ _).setBal _ ((h _ _ bal).without _), hpaid⟩
  | dropBal bal => exact ⟨h.setBal _ ((h _ _ bal).without _), hpaid⟩
  | touchBal n f bal hf => exact ⟨h.setBal _ ((h _ _ bal).touch n fun msg => (hf msg).1), hsaved⟩
  | settle => exact ⟨h, fun _ hd => by cases hd⟩
  | exhaust => exact ⟨h, fun _ hd => by cases hd⟩
  | _ => exact ⟨h, hpaid⟩

theorem restarted {cfg : List SessionId} {env : Env} {b' : Books} (h : Restarted cfg env b b') : b'.Ungrouped := by
  obtain ⟨db, -, -, -, hload⟩ := h.fresh
  intro sid m hbal n msg hmsg
  obtain ⟨row, -, -, -, rfl⟩ := (hload sid m hbal).held n msg hmsg
  rfl

theorem step {cfg : List SessionId} {w : World} (h₀ : Base cfg (books w) .none) (h : (books w).Ungrouped) (i : Input) :
    (books (step cfg w i)).Ungrouped := by
  obtain ⟨b, hr, ⟨-, hb⟩ | ⟨-, hb⟩⟩ := step_reach h₀ i
  · rw [hb]
    exact h.reach hr
  · exact restarted hb

end Books.Ungrouped

/-! ## Runs -/

/-- What the two loops rely on. -/
structure Walkable (w : World) : Prop where
  wired : Wired (links w.app)
  alive : Alive (links w.app)
  bound : (links w.app).Bound
  ungrouped : (books w).Ungrouped

section
variable (cfg : List SessionId) (env : Env) (db : Database) (is : List Input)

theorem run_walkable : Walkable (run cfg (boot cfg env db) is) := by
  have hrun : Base cfg (books (run cfg (boot cfg env db) is)) .none ∧ Walkable (run cfg (boot cfg env db) is) := by
    refine Run.invariant_all (I := fun w : World => Base cfg (books w) .none ∧ Walkable w) (fun w i hI => ?_) is
      ⟨boot_base cfg env db, ?_⟩
    · obtain ⟨hbase, h⟩ := hI
      exact ⟨step_base hbase i, h.wired.step i, h.alive.step h.wired i, h.bound.step i, h.ungrouped.step hbase i⟩
    · have hboot : Restarted cfg env (books (boot cfg env db)) (books (boot cfg env db)) := start_restarted rfl rfl rfl rfl rfl
      exact ⟨.start cfg env db, .start cfg env db, .start cfg env db, .restarted hboot⟩
  exact hrun.2

end

/-- Does the first iteration take the first message out of the queue? -/
def takesFirst (w : World) : Bool :=
  match [1].forM downstreamLoop.iterate (w, Env.quiet) with
  | .ok _ s => (s.1.app.fcmMsgManager.messages[(1 : Int)]?).isNone
  | .error _ s => (s.1.app.fcmMsgManager.messages[(1 : Int)]?).isNone

theorem not_spares_of_takes {w : World} (hfirst : w.app.fcmMsgManager.messages.keys.head? = some 1)
    (htakes : takesFirst w = true) : ¬ downstreamLoop.Spares w := by
  intro hspares
  obtain ⟨rest, hkeys⟩ := List.head?_eq_some_iff.1 hfirst
  have hmem : (1 : Int) ∈ w.app.fcmMsgManager.messages := by
    rw [← ExtTreeMap.mem_keys, hkeys]
    exact List.mem_cons_self ..
  have hwhole : ∀ {w' : World}, downstreamLoop.Whole w.app.fcmMsgManager w' →
      (w'.app.fcmMsgManager.messages[(1 : Int)]?).isNone = true → False := by
    rintro w' ⟨m, hm, hsame⟩ hgone
    obtain rfl : w'.app.fcmMsgManager = m := Option.some.inj hm
    have hheld := hsame 1
    rw [ExtTreeMap.isSome_getElem?_iff_mem.2 hmem, Option.isNone_iff_eq_none.1 hgone] at hheld
    cases hheld
  have hends := hspares w.app.fcmMsgManager .quiet [1] rest rfl hkeys
  unfold takesFirst at htakes
  cases hrun : [1].forM downstreamLoop.iterate (w, Env.quiet) with
  | ok a s =>
    rw [hrun] at hends htakes
    exact hwhole hends.1 htakes
  | error stop s =>
    rw [hrun] at hends htakes
    exact hwhole hends htakes

/-- A message is left in the table, the next process loads it without a retry left, and 100 new ones fill the window. -/
def overdrawn : List Input :=
  loggedOn "bal" ++ [.quiet (.balFrame 0 (balDownstream "x" "")), ⟨.restart, { Env.quiet with junk := fun _ => (0, 0) }⟩] ++
    loggedOn "bal" ++ (List.range 100).map fun k => .quiet (.balFrame 0 (balDownstream (toString k) ""))

end Gimmm
