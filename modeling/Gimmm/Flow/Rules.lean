/-
The rules for the statements of a handler: what a fault, an output or a call on a manager does to
the world, with the faults that are left after it.
-/
import Gimmm.Flow.Base

namespace Gimmm

open Std Prog
open MessageManager (ask)

/-! ## The environment that is left -/

/-- `env` is what is left of `env₀`, with its faults among the last ones of `fs`. -/
structure Env.Rest (env₀ : Env) (fs : List Fault) (env : Env) : Prop where
  faults : env.faults <:+ fs
  draws : ∀ d ∈ env.draws, d ∈ env₀.draws
  junk : env.junk = env₀.junk
  scan : env.scan = env₀.scan

/-- One of the faults of `fs` is a failure. -/
def Bad (fs : List Fault) : Prop := ∃ f ∈ fs, f ≠ .ok

section
variable {env₀ env : Env} {fs : List Fault}

theorem suffix_tail {α : Type} {l l' : List α} (h : l <:+ l') : l.tail <:+ l'.tail := by
  obtain ⟨t, rfl⟩ := h
  cases t with
  | nil => exact List.suffix_rfl
  | cons a t => exact (List.tail_suffix l).trans (List.suffix_append t l)

theorem Env.Rest.refl (env : Env) : env.Rest env.faults env := ⟨List.suffix_rfl, fun _ h => h, rfl, rfl⟩

theorem Env.Rest.widen (h : env₀.Rest fs.tail env) : env₀.Rest fs env :=
  ⟨h.faults.trans (List.tail_suffix fs), h.draws, h.junk, h.scan⟩

theorem Env.Rest.popFault (h : env₀.Rest fs env) : env₀.Rest fs.tail env.popFault.2 :=
  ⟨suffix_tail h.faults, h.draws, h.junk, h.scan⟩

theorem Env.Rest.bad (h : env₀.Rest fs env) (hf : env.popFault.1 ≠ .ok) : Bad fs := by
  unfold Env.popFault at hf
  cases he : env.faults with
  | nil => rw [he] at hf; exact absurd rfl hf
  | cons f l =>
    rw [he] at hf
    exact ⟨f, h.faults.subset (by rw [he]; exact List.mem_cons_self ..), hf⟩

theorem Env.Rest.popDraw (h : env₀.Rest fs env) : env₀.Rest fs env.popDraw.2 :=
  ⟨h.faults, fun d hd => h.draws d (List.mem_of_mem_tail hd), h.junk, h.scan⟩

theorem Env.Rest.draw (h : env₀.Rest fs env) : env.popDraw.1 ∈ env₀.draws ∨ env.popDraw.1 = default := by
  unfold Env.popDraw
  cases he : env.draws with
  | nil => exact Or.inr rfl
  | cons d l => exact Or.inl (h.draws d (by rw [he]; exact List.mem_cons_self ..))

theorem Bad.of_suffix {fs fs' : List Fault} (h : Bad fs) (hs : fs <:+ fs') : Bad fs' := by
  obtain ⟨f, hf, hne⟩ := h; exact ⟨f, hs.subset hf, hne⟩

/-! ## Statements and outputs -/

section
variable {α β : Type} {Q : α → World → Prop} {X : Stop → World → Prop} {w : World}

/-- The rule of a statement that takes a fault first. -/
theorem wp_fault {x : Fault → Handler β} {k : β → Handler α}
    (ok : ∀ e, env₀.Rest fs.tail e → Ends (fun a s => env₀.Rest fs.tail s.2 ∧ Wp (env₀.Rest fs.tail) (k a) Q X s.1)
      (fun err s => env₀.Rest fs.tail s.2 ∧ X err s.1) (x .ok (w, e)))
    (fail : ∀ f, f ≠ .ok → ∃ stop, x f = throw stop) (hX : Bad fs → ∀ stop, X stop w) :
    Wp (env₀.Rest fs) ((decision Env.popFault >>= x) >>= k) Q X w := by
  refine Wp.bind_to (fun _ => Env.Rest.widen) fun e he => ?_
  have hd : (decision Env.popFault : Handler Fault) (w, e) = .ok e.popFault.1 (w, e.popFault.2) := rfl
  rw [bind_ok hd]
  by_cases hf : e.popFault.1 = .ok
  · rw [hf]
    exact (ok _ he.popFault).mono (fun _ _ h => h) (fun _ _ h => ⟨h.1.widen, h.2⟩)
  · obtain ⟨stop, hs⟩ := fail _ hf
    rw [hs]
    exact ⟨he.popFault.widen, hX (he.bad hf) stop⟩

theorem wp_updateMsgState {msg : Message} {s : MessageState} {k : Unit → Handler α}
    (ok : ∀ w', books w' = (books w).setState msg.sequenceId s → Wp (env₀.Rest fs.tail) (k ()) Q X w')
    (fail : Bad fs → ∀ stop, X stop w) : Wp (env₀.Rest fs) (updateMsgState msg s >>= k) Q X w := by
  unfold updateMsgState
  refine wp_fault (fun e he => ⟨he, ok _ (books_update ..)⟩) (fun f hf => ?_) fail
  cases f with
  | ok => exact absurd rfl hf
  | fail rc => exact ⟨_, rfl⟩
  | crash => exact ⟨_, rfl⟩

theorem wp_saveMsg {msg : Message} {k : Unit → Handler α} (fresh : (books w).rows msg.sequenceId = none)
    (ok : ∀ w', books w' = (books w).insertRow (.ofMessage msg) → Wp (env₀.Rest fs.tail) (k ()) Q X w')
    (fail : Bad fs → ∀ stop, X stop w) : Wp (env₀.Rest fs) (saveMsg msg >>= k) Q X w := by
  unfold saveMsg
  refine wp_fault (fun e he => ?_) (fun f hf => ?_) fail
  · obtain ⟨db, hdb⟩ := Database.insert_fresh (.ofMessage msg) fresh
    have hr : (Prog.read : Handler World) (w, e) = .ok w (w, e) := rfl
    dsimp only
    rw [bind_ok hr, hdb]
    exact ⟨he, ok _ (books_insert hdb)⟩
  · cases f with
    | ok => exact absurd rfl hf
    | fail rc => exact ⟨_, rfl⟩
    | crash => exact ⟨_, rfl⟩

theorem wp_output {what : Happening} {Q : Unit → World → Prop}
    (ok : ∀ w', books w' = (books w).observe ⟨what, w.toServer⟩ → Q () w') (fail : Bad fs → X .killed w) :
    Wp (env₀.Rest fs) (output what) Q X w := by
  intro e he
  have hd : (decision Env.popFault : Handler Fault) (w, e) = .ok e.popFault.1 (w, e.popFault.2) := rfl
  unfold output
  rw [bind_ok hd]
  by_cases hf : e.popFault.1 = .crash
  · rw [if_pos hf]
    exact ⟨he.popFault.widen, fail (he.bad (by rw [hf]; exact fun h => by cases h))⟩
  · rw [if_neg hf]
    exact ⟨he.popFault.widen, ok _ (books_record what)⟩

theorem wp_popDraw {k : Draw → Handler α}
    (h : ∀ d, (d ∈ env₀.draws ∨ d = default) → Wp (env₀.Rest fs) (k d) Q X w) :
    Wp (env₀.Rest fs) (decision Env.popDraw >>= k) Q X w :=
  Wp.bind (Wp.decision (fun _ he => he.popDraw) fun _ he => h _ he.draw)

theorem wp_getJunk {n : Int} {k : Int × Int → Handler α} (h : ∀ j, Wp (env₀.Rest fs) (k j) Q X w) :
    Wp (env₀.Rest fs) (decision (Env.getJunk n) >>= k) Q X w :=
  Wp.bind (Wp.decision (fun _ he => he) fun _ _ => h _)

end

/-! ## Managers -/

section
variable {E : Env → Prop} {α : Type} {Q : α → World → Prop} {X : Stop → World → Prop} {w : World}
  {sid : SessionId} {m : MessageManager}

theorem wp_getNextSequenceId {k : Int → Handler α}
    (h : ∀ w', books w' = (books w).draw → Wp E (k ((books w).counter + 1)) Q X w') :
    Wp E (getNextSequenceId >>= k) Q X w := by
  unfold getNextSequenceId
  exact Wp.bind (Wp.bind (Wp.update (Wp.bind (Wp.read (Wp.pure (h _ rfl))))))

theorem wp_record {what : Happening} {Q : Unit → World → Prop}
    (h : ∀ w', books w' = (books w).observe ⟨what, w.toServer⟩ → Q () w') : Wp E (update (.record what)) Q X w :=
  Wp.update (h _ (books_record what))

theorem wp_askFcm {f : MessageManager → Except Stop α} (ok : ∀ a, f (books w).fcm = .ok a → Q a w)
    (error : ∀ e, f (books w).fcm = .error e → X e w) : Wp E (askFcm f) Q X w := by
  unfold askFcm onFcm
  refine Wp.onPart ?_
  unfold ask
  cases hf : f w.app.fcmMsgManager with
  | ok a => exact ok a hf
  | error e => exact error e hf

theorem wp_onFcm {x : EStateM Stop MessageManager α}
    (h : Ends (fun a m => ∀ w', books w' = (books w).setFcm m → Q a w')
      (fun e m => ∀ w', books w' = (books w).setFcm m → X e w') (x (books w).fcm)) : Wp E (onFcm x) Q X w := by
  unfold onFcm
  exact Wp.onPart (h.mono (fun _ _ h => h _ rfl) (fun _ _ h => h _ rfl))

theorem wp_modifyFcm {f : MessageManager → MessageManager} {Q : Unit → World → Prop}
    (h : ∀ w', books w' = (books w).setFcm (f (books w).fcm) → Q () w') : Wp E (modifyFcm f) Q X w := by
  unfold modifyFcm; exact wp_onFcm h

/-- Putting back the manager that is there changes nothing. -/
theorem putBal_self (h : w.app.balManager sid = some m) : w.putBal sid m = w := by
  have hmap : w.app.balSessionMap.modify sid ({ · with msgManager := m }) = w.app.balSessionMap := by
    apply ExtTreeMap.ext_getElem?
    intro s
    rw [ExtTreeMap.getElem?_modify]
    by_cases hs : compare sid s = .eq
    · obtain rfl := LawfulEqCmp.eq_of_compare hs
      obtain ⟨sess, hsess, hm⟩ := Option.map_eq_some_iff.1 h
      rw [if_pos hs, hsess, ← hm]; rfl
    · rw [if_neg hs]
  unfold World.putBal
  rw [hmap]

theorem wp_onBal {x : EStateM Stop MessageManager α} (hm : (books w).bal sid = some m)
    (h : Ends (fun a m' => ∀ w', books w' = (books w).setBal sid m' → Q a w')
      (fun e m' => ∀ w', books w' = (books w).setBal sid m' → X e w') (x m)) : Wp E (onBal sid x) Q X w := by
  unfold onBal
  refine Wp.bind (Wp.read ?_)
  rw [show w.app.balManager sid = some m from hm]
  exact Wp.onPart (h.mono (fun _ _ h => h _ (books_putBal hm)) (fun _ _ h => h _ (books_putBal hm)))

theorem wp_onBal_none {x : EStateM Stop MessageManager α} (hm : (books w).bal sid = none)
    (h : ∀ what, X (.exception what) w) : Wp E (onBal sid x) Q X w := by
  unfold onBal
  refine Wp.bind (Wp.read ?_)
  rw [show w.app.balManager sid = none from hm]
  exact Wp.throw (h _)

theorem wp_askBal {f : MessageManager → Except Stop α} (hm : (books w).bal sid = some m)
    (ok : ∀ a, f m = .ok a → Q a w) (error : ∀ e, f m = .error e → X e w) : Wp E (askBal sid f) Q X w := by
  unfold askBal onBal
  refine Wp.bind (Wp.read ?_)
  rw [show w.app.balManager sid = some m from hm]
  refine Wp.onPart ?_
  unfold ask
  cases hf : f m with
  | ok a => simp only [Ends, putBal_self hm]; exact ok a hf
  | error e => simp only [Ends, putBal_self hm]; exact error e hf

theorem wp_findBalMessageManager {Q : Unit → World → Prop} (some : ∀ m, (books w).bal sid = some m → Q () w)
    (none : (books w).bal sid = none → ∀ what, X (.exception what) w) : Wp E (findBalMessageManager sid) Q X w := by
  unfold findBalMessageManager
  cases hm : (books w).bal sid with
  | none => exact wp_onBal_none hm (none hm)
  | some m =>
    unfold onBal
    refine Wp.bind (Wp.read ?_)
    rw [show w.app.balManager sid = .some m from hm]
    refine Wp.onPart ?_
    show Q () (w.putBal sid m)
    rw [putBal_self hm]; exact some m hm

theorem wp_modifyBal {f : MessageManager → MessageManager} {Q : Unit → World → Prop}
    (hm : (books w).bal sid = some m) (h : ∀ w', books w' = (books w).setBal sid (f m) → Q () w') :
    Wp E (modifyBal sid f) Q X w := by
  unfold modifyBal; exact wp_onBal hm h

theorem wp_findBalSession {Q : BALSession → World → Prop}
    (some : ∀ sess, w.app.balSessionMap[sid]? = some sess → Q sess w)
    (none : (books w).bal sid = none → ∀ what, X (.exception what) w) : Wp E (findBalSession sid) Q X w := by
  unfold findBalSession
  refine Wp.bind (Wp.read ?_)
  cases hs : w.app.balSessionMap[sid]? with
  | none =>
    refine Wp.throw (none ?_ _)
    show w.app.balManager sid = _
    unfold Application.balManager; rw [hs]; rfl
  | some sess => exact Wp.pure (some sess hs)

@[simp] theorem setBal_bal_self (b : Books) (sid : SessionId) (m : MessageManager) : (b.setBal sid m).bal sid = some m :=
  Function.update_self ..

@[simp] theorem setBal_setBal (b : Books) (sid : SessionId) (m m' : MessageManager) :
    (b.setBal sid m).setBal sid m' = b.setBal sid m' := by
  unfold Books.setBal; simp only [Function.update_idem]

theorem bal_of_setBal {b : Books} (h : books w = b.setBal sid m) : (books w).bal sid = some m := by
  rw [h]; exact setBal_bal_self ..

theorem setBal_self {b : Books} (h : b.bal sid = some m) : b.setBal sid m = b := by
  unfold Books.setBal; rw [← h, Function.update_eq_self]

@[simp] theorem setFcm_setFcm (b : Books) (m m' : MessageManager) : (b.setFcm m).setFcm m' = b.setFcm m' := rfl

theorem wp_singleShot {msec : Int} {t : Timer} {Q : Unit → World → Prop} (none : Q () w)
    (some : ∀ w', books w' = (books w).addTimer t → Q () w') : Wp E (singleShot msec t) Q X w := by
  unfold singleShot
  split
  · exact Wp.pure none
  · exact Wp.update (some _ rfl)

end

/-! ## Loops -/

section
open MessageManager (Within)

/-- What a loop over the queue of `m₀` has made of it, with the keys `l` left: it adds no message and,
as long as no message is out of retries, removes none and frees no slot. -/
structure Scanned (patient : Prop) (l : List Int) (m₀ m : MessageManager) : Prop where
  within : m₀.Within m
  left : ∀ n ∈ l, ∀ msg : Message, m.messages[n]? = some msg → m₀.messages[n]? = some msg
  kept : patient → m.Within m₀
  count : patient → m₀.pendingAckCount ≤ m.pendingAckCount

namespace Scanned

variable {P : Prop} {l : List Int} {m₀ m : MessageManager} {n : Int}

theorem start (P : Prop) (l : List Int) (m : MessageManager) : Scanned P l m m :=
  ⟨Within.refl m, fun _ _ _ h => h, fun _ => Within.refl m, fun _ => Nat.le_refl _⟩

theorem skip (h : Scanned P (n :: l) m₀ m) : Scanned P l m₀ m :=
  ⟨h.within, fun k hk => h.left k (List.mem_cons_of_mem _ hk), h.kept, h.count⟩

theorem modify (h : Scanned P l m₀ m) (hn : n ∉ l) {f : Message → Message}
    (hf : ∀ msg, (f msg).fixed = msg.fixed ∧ (f msg).state = msg.state) :
    Scanned P l m₀ (m.modifyMessage n f) := by
  refine ⟨fun k msg' hk => ?_, fun k hk msg hmsg => ?_, fun hp k msg₀ hk => ?_, h.count⟩
  · rw [MessageManager.modifyMessage_getElem?] at hk
    split at hk
    · obtain ⟨msg, hmsg, rfl⟩ := Option.map_eq_some_iff.1 hk
      obtain ⟨msg₀, h1, h2, h3⟩ := h.within k msg hmsg
      exact ⟨msg₀, h1, (hf msg).1.trans h2, (hf msg).2.trans h3⟩
    · exact h.within k msg' hk
  · rw [MessageManager.modifyMessage_getElem?, if_neg (by rintro rfl; exact hn hk)] at hmsg
    exact h.left k hk msg hmsg
  · obtain ⟨msg, h1, h2, h3⟩ := h.kept hp k msg₀ hk
    rw [MessageManager.modifyMessage_getElem?, h1]
    split
    · exact ⟨_, rfl, h2.trans (hf msg).1.symm, h3.trans (hf msg).2.symm⟩
    · exact ⟨msg, rfl, h2, h3⟩

theorem without (h : Scanned P l m₀ m) (hp : ¬ P) (msg : Message) : Scanned P l m₀ (m.without msg) :=
  ⟨fun k msg' hk => h.within k msg' (MessageManager.of_without hk).1,
    fun k hk msg' hmsg => h.left k hk msg' (MessageManager.of_without hmsg).1, fun h => absurd h hp,
    fun h => absurd h hp⟩

theorem increment (h : Scanned P l m₀ m) : Scanned P l m₀ m.incrementPendingAckCount :=
  ⟨h.within, h.left, h.kept, fun hp => Nat.le_succ_of_le (h.count hp)⟩

end Scanned

theorem holds_modify {m : MessageManager} {msg : Message} {n : Int} {f : Message → Message} (h : m.Holds msg)
    (hf : ∀ msg, (f msg).fixed = msg.fixed ∧ (f msg).state = msg.state) : (m.modifyMessage n f).Holds msg := by
  obtain ⟨held, h1, h2, h3⟩ := h
  by_cases hn : msg.sequenceId = n
  · refine ⟨f held, ?_, (hf held).1.trans h2, (hf held).2.trans h3⟩
    rw [MessageManager.modifyMessage_getElem?, if_pos hn, h1]; rfl
  · refine ⟨held, ?_, h2, h3⟩
    rw [MessageManager.modifyMessage_getElem?, if_neg hn, h1]

end

/-- The rule of a loop over a queue, with an invariant that sees the keys that are left; the loop may stop only
if the body takes its message out of the queue. -/
theorem wp_forEachMessage_exact {E : Env → Prop} {queue : World → Option MessageManager} {body : Message → Handler Unit}
    {I : List Int → World → Prop} {X : Stop → World → Prop} {w : World}
    (hbody : ∀ n l w m msg, I (n :: l) w → queue w = some m → m.messages[n]? = some msg →
      Wp E (body msg) (fun _ w' => I l w' ∧ ((queue w').bind (·.messages[n]?) = none → X .undefined w')) X w)
    (hskip : ∀ n l w, I (n :: l) w → (queue w).bind (·.messages[n]?) = none → I l w) (hnone : queue w = none → I [] w)
    (hstart : ∀ m, queue w = some m → I m.messages.keys w) :
    Wp E (forEachMessage queue body) (fun _ => I []) X w := by
  refine Wp.bind (Wp.read ?_)
  cases hq : queue w with
  | none => exact Wp.pure (hnone hq)
  | some m =>
    refine Wp.forM (I := I) (fun n l w' hI => ?_) _ (hstart m hq)
    refine Wp.bind (Wp.read ?_)
    cases hm : (queue w').bind (·.messages[n]?) with
    | none => exact Wp.pure (hskip n l w' hI hm)
    | some msg =>
      obtain ⟨m', hm', hmsg⟩ := Option.bind_eq_some_iff.1 hm
      refine Wp.bind ((hbody n l w' m' msg hI hm' hmsg).mono (fun _ w'' hI' => ?_) (fun _ _ h => h))
      refine Wp.bind (Wp.read ?_)
      split
      · rename_i hgone
        exact Wp.throw (hI'.2 (Option.isNone_iff_eq_none.1 hgone))
      · exact Wp.pure hI'.1

/-- The rule of a loop over a queue whose body may take any message out of it. -/
theorem wp_forEachMessage {E : Env → Prop} {queue : World → Option MessageManager} {body : Message → Handler Unit}
    {I : List Int → World → Prop} {X : Stop → World → Prop} {w : World}
    (hbody : ∀ n l w m msg, I (n :: l) w → queue w = some m → m.messages[n]? = some msg →
      Wp E (body msg) (fun _ w' => I l w') X w)
    (hskip : ∀ n l w, I (n :: l) w → I l w) (hstop : ∀ l w, I l w → X .undefined w) (hnone : queue w = none → I [] w)
    (hstart : ∀ m, queue w = some m → I m.messages.keys w) :
    Wp E (forEachMessage queue body) (fun _ => I []) X w := by
  refine wp_forEachMessage_exact (fun n l w m msg hI hm hmsg => ?_) (fun n l w hI _ => hskip n l w hI) hnone hstart
  exact (hbody n l w m msg hI hm hmsg).mono (fun _ w' hI' => ⟨hI', fun _ => hstop l w' hI'⟩) fun _ _ h => h

end

end Gimmm
