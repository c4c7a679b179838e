import Atlax.Library.Locks
import Atlax.Library.Processes
import Atlax.Library.Run
import Atlax.Model.Locks

/-!
# The locks of the sessions do not deadlock

The locks are taken in one order (`lockRank`), but for one place. The callback of `Reset` runs
inside resetOnce and takes the session's mutex; `MuxSession.Close` calls `Reset` with that mutex in
hand. What keeps the two apart is not the order. `Reset` gets as far as resetOnce only if it has put
the stream into the state Reset itself, and this happens once: so resetOnce is free when `Close`
comes to it. And since closeCh is closed by then, the callback of `Close`'s own `Reset` returns
before it takes the mutex that `Close` has.

`Safe` says that what is left of a call takes its locks in order, but for this place. Every call is
safe when it starts, and every step keeps it so. It follows that whatever calls run side by side,
one of them can go on, and that all of them come to their end.
-/

set_option autoImplicit false

namespace Atlax.Analysis

open Atlax.Model Atlax.Library

variable {x : Instr}

/-- The order of the locks. -/
def lockRank : Lock → ℕ
  | .registry | .router | .client _ => 0
  | .closeOnce _ | .localCloseOnce _ _ => 1
  | .resetOnce _ _ => 2
  | .mux _ => 3
  | _ => 4

/-- The one lock that may be taken with one of higher rank in hand. -/
def offOrder : Lock → Lock → Bool
  | .mux c, .resetOnce d _ => c = d
  | _, _ => false

/-- `l` may be taken by a thread that has `H`. -/
def Above (H : List Lock) (l : Lock) : Prop := ∀ h ∈ H, lockRank h < lockRank l

/-- What a call does not start out with: it comes to resetOnce in `Reset` only. -/
def isPlain : Instr → Bool
  | .onceDo (.resetOnce _ _) _ | .onceEnd (.resetOnce _ _) | .release (.resetOnce _ _) => false
  | _ => true

/-- What is left of a call, with the locks it has, the last one first: it takes them in order but
for the one place, and gives all of them back. `z` says which closeCh are closed. -/
inductive Safe : (ℕ → Bool) → List Lock → List Instr → Prop
  | done (z) : Safe z [] []
  | acquire {z H k l} (hl : Above H l) (hk : Safe z (l :: H) k) : Safe z H (.acquire l :: k)
  | release {z H k l} (hk : Safe z H k) : Safe z (l :: H) (.release l :: k)
  | either {z H k a b} (ha : a.all isPlain = true) (hb : b.all isPlain = true)
      (hka : Safe z H (a ++ k)) (hkb : Safe z H (b ++ k)) : Safe z H (.either a b :: k)
  | onceDo {z H k body o} (ho : ∀ h ∈ H, lockRank h < lockRank o ∨ offOrder h o = true)
      (hbody : body.all isPlain = true) (hdo : Safe z (o :: H) (body ++ .onceEnd o :: k))
      (hk : Safe z H k) : Safe z H (.onceDo o body :: k)
  | onceEnd {z H k o} (hk : Safe z H k) : Safe z (o :: H) (.onceEnd o :: k)
  | closeSection {z H k c i}
      (htell : Safe z H (.onceDo (.localCloseOnce c i) (maybeRemoveStreamCode c i) :: k))
      (hk : Safe z H k) : Safe z (.stream c i :: H) (.closeSection c i :: k)
  | remoteCloseSection {z H k c i} (hk : Safe z H k) : Safe z H (.remoteCloseSection c i :: k)
  | resetSection {z H k c i}
      (hreset : Safe z H (.onceDo (.resetOnce c i) [.onReset c i] :: k)) (hk : Safe z H k) :
      Safe z (.stream c i :: H) (.resetSection c i :: k)
  | onReset {z H k c i}
      (hopen : z c = false → Safe z H (locked (.mux c) ++ .either [] (locked (.queue c)) :: k))
      (hk : Safe z H k) : Safe z H (.onReset c i :: k)
  | closeCloseCh {z H k c} (hk : Safe (Function.update z c true) H k) :
      Safe z H (.closeCloseCh c :: k)
  | resetAll {z H k c} (hk : ∀ found : List ℕ, Safe z H (found.flatMap (resetCode c) ++ k)) :
      Safe z H (.resetAll c :: k)
  | resetFound {z H k c} (hreset : ∀ i, Safe z H (resetCode c i ++ k)) (hk : Safe z H k) :
      Safe z H (.resetFound c :: k)

variable {z z' : ℕ → Bool} {H : List Lock} {k : List Instr} {c i : ℕ} {l : Lock}

/-- Closing more channels leaves a call safe. -/
theorem Safe.mono (h : Safe z H k) (hz : ∀ c, z c = true → z' c = true) : Safe z' H k := by
  induction h generalizing z' with
  | done => exact .done z'
  | acquire hl _ ih => exact .acquire hl (ih hz)
  | release _ ih => exact .release (ih hz)
  | either ha hb _ _ iha ihb => exact .either ha hb (iha hz) (ihb hz)
  | onceDo ho hbody _ _ ihdo ihk => exact .onceDo ho hbody (ihdo hz) (ihk hz)
  | onceEnd _ ih => exact .onceEnd (ih hz)
  | closeSection _ _ iht ihk => exact .closeSection (iht hz) (ihk hz)
  | remoteCloseSection _ ih => exact .remoteCloseSection (ih hz)
  | resetSection _ _ ihr ihk => exact .resetSection (ihr hz) (ihk hz)
  | @onReset z H k c i _ _ ihopen ihk =>
    refine .onReset (fun hopen => ihopen ?_ hz) (ihk hz)
    by_contra hcl
    rw [hz c (by simpa using hcl)] at hopen
    cases hopen
  | @closeCloseCh z H k c _ ih =>
    refine .closeCloseCh (ih fun d hd => ?_)
    by_cases hdc : d = c
    · rw [hdc, Function.update_self]
    · rw [Function.update_of_ne hdc] at hd ⊢
      exact hz d hd
  | resetAll _ ih => exact .resetAll fun found => ih found hz
  | resetFound _ _ ihr ihk => exact .resetFound (fun i => ihr i hz) (ihk hz)

/-- A session that closes does not open another. -/
theorem closed_update (c : ℕ) (d : ℕ) (hd : z d = true) : Function.update z c true d = true := by
  by_cases hdc : d = c <;> simp [hdc, hd]

/-! ## Every call is safe -/

/-- With no lock held any may be taken. -/
theorem above_nil (l : Lock) : Above [] l := nofun

theorem Above.cons {h l : Lock} (hl : lockRank h < lockRank l) (hH : Above H l) :
    Above (h :: H) l := by
  intro x hx
  rcases List.mem_cons.mp hx with rfl | hx
  · exact hl
  · exact hH x hx

/-- A section of its own. -/
theorem safe_locked (hl : Above H l) (hk : Safe z H k) : Safe z H (locked l ++ k) :=
  .acquire hl (.release hk)

/-- A branch that may be skipped. -/
theorem safe_maybe {a : List Instr} (ha : a.all isPlain = true) (hka : Safe z H (a ++ k))
    (hk : Safe z H k) : Safe z H (.either [] a :: k) :=
  .either rfl ha hk hka

/-- `Reset` by a caller without a lock. -/
theorem safe_reset (hk : Safe z [] k) : Safe z [] (resetCode c i ++ k) := by
  refine .acquire (above_nil _) (.resetSection (.onceDo nofun rfl ?_ hk) hk)
  have hend : Safe z [Lock.resetOnce c i] (.onceEnd (.resetOnce c i) :: k) := .onceEnd hk
  have hin : ∀ l, 2 < lockRank l → Above [Lock.resetOnce c i] l := fun l hl =>
    .cons hl (above_nil l)
  exact .onReset (fun _ => safe_locked (hin _ (by simp [lockRank]))
    (safe_maybe rfl (safe_locked (hin _ (by simp [lockRank])) hend) hend)) hend

/-- `Reset` by `MuxSession.Close`, which has the session's mutex and has closed closeCh. -/
theorem safe_reset_closing (hz : z c = true) (hk : Safe z [.mux c, .closeOnce c] k) :
    Safe z [.mux c, .closeOnce c] (resetCode c i ++ k) := by
  have horder : Above [.mux c, .closeOnce c] (.stream c i) :=
    .cons (by simp [lockRank]) (.cons (by simp [lockRank]) (above_nil _))
  refine .acquire horder (.resetSection (.onceDo (fun h hh => ?_) rfl ?_ hk) hk)
  · simp only [List.mem_cons, List.not_mem_nil, or_false] at hh
    rcases hh with rfl | rfl
    · exact .inr (by simp [offOrder])
    · exact .inl (by simp [lockRank])
  · refine .onReset (fun hopen => ?_) (.onceEnd hk)
    rw [hz] at hopen
    cases hopen

/-- SOURCE: mux_session.go:195-201 -/
theorem safe_resets_closing (hz : z c = true) (hk : Safe z [.mux c, .closeOnce c] k) :
    ∀ found : List ℕ, Safe z [.mux c, .closeOnce c] (found.flatMap (resetCode c) ++ k)
  | [] => hk
  | i :: found => by
    rw [List.flatMap_cons, List.append_assoc]
    exact safe_reset_closing hz (safe_resets_closing hz hk found)

/-- SOURCE: mux_session.go:641-648 -/
theorem safe_maybeRemove (hs : Above H (.stream c i)) (hm : Above H (.mux c))
    (hk : Safe z H k) : Safe z H (maybeRemoveStreamCode c i ++ k) := by
  have hremove : Safe z H (.either [] (locked (.mux c)) :: k) :=
    safe_maybe rfl (safe_locked hm hk) hk
  exact safe_locked hs (safe_maybe rfl (safe_locked hs hremove) hremove)

/-- SOURCE: stream_impl.go:150-179; mux_session.go:671-675 -/
theorem safe_closeStream (hk : Safe z [] k) : Safe z [] (closeStreamCode c i ++ k) := by
  refine .acquire (above_nil _) (.closeSection (.onceDo nofun rfl ?_ hk) hk)
  exact safe_maybeRemove (.cons (by simp [lockRank]) (above_nil _))
    (.cons (by simp [lockRank]) (above_nil _)) (.onceEnd hk)

/-- SOURCE: stream_impl.go:207-221 -/
theorem safe_remoteClose (hk : Safe z [] k) : Safe z [] (remoteCloseCode c i ++ k) :=
  .acquire (above_nil _) (.remoteCloseSection (.release hk))

/-- SOURCE: mux_session.go:133-138, 434-440 -/
theorem safe_newStream (hs : Above H (.stream c i)) (hk : Safe z H k) :
    Safe z H (newStreamCode c i ++ k) :=
  safe_locked hs (safe_locked hs (safe_locked hs hk))

/-- SOURCE: mux_session.go:190-205 -/
theorem safe_closeSession (hk : Safe z [] k) : Safe z [] (closeSessionCode c ++ k) := by
  refine .onceDo nofun rfl (.closeCloseCh ?_) hk
  have horder : ∀ l, 1 < lockRank l → Above [.closeOnce c] l := fun l hl =>
    .cons hl (above_nil l)
  refine safe_locked (horder _ (by simp [lockRank])) (.acquire (horder _ (by simp [lockRank])) ?_)
  exact .resetAll (safe_resets_closing (Function.update_self ..)
    (.release (.onceEnd (hk.mono (closed_update c)))))

/-- GoAway takes one lock after the other.
SOURCE: mux_session.go:208-232 -/
theorem safe_goAway (hk : Safe z [] k) : Safe z [] (goAwayCode c ++ k) :=
  safe_locked (above_nil _) (safe_locked (above_nil _) hk)

/-- SOURCE: mux_session.go:651-666 -/
theorem safe_removeStream (hk : Safe z [] k) : Safe z [] (removeStreamCode c ++ k) :=
  safe_locked (above_nil _) (.resetFound (fun _ => safe_reset hk) hk)

/-- SOURCE: mux_session.go:111-172 -/
theorem safe_openStream (hk : Safe z [] k) : Safe z [] (openStreamCode c i ++ k) := by
  refine .acquire (above_nil _) (.either rfl rfl (.release hk) ?_)
  have hs : Above [.mux c] (.stream c i) := .cons (by simp [lockRank]) (above_nil _)
  have hfail : Safe z [] (.either [] (removeStreamCode c) :: k) :=
    safe_maybe rfl (safe_removeStream hk) hk
  exact safe_newStream hs (.release (safe_locked (above_nil _) (safe_locked (above_nil _)
    (safe_maybe rfl (safe_locked (above_nil _) hfail) hk))))

/-- SOURCE: registry_impl.go:147-166 -/
theorem safe_agentInfos : ∀ cs : List ℕ, Safe z [.registry] k →
    Safe z [.registry] (cs.flatMap agentInfoCode ++ k)
  | [], hk => hk
  | c :: cs, hk => by
    have horder : ∀ l, 0 < lockRank l → Above [.registry] l := fun l hl =>
      .cons hl (above_nil l)
    rw [List.flatMap_cons, List.append_assoc]
    exact safe_locked (horder _ (by simp [lockRank])) (safe_locked (horder _ (by simp [lockRank]))
      (safe_locked (horder _ (by simp [lockRank])) (safe_locked (horder _ (by simp [lockRank]))
        (safe_agentInfos cs hk))))

/-- Every call is safe when it starts, and comes to resetOnce in `Reset` only. -/
theorem safe_call (f : LockCall) (next : ℕ → ℕ) : Safe z [] (f.code next) := by
  have hnil := fun l => safe_locked (z := z) (above_nil l) (.done z)
  cases f with
  | openStream c => exact safe_openStream (.done z)
  | goAway c => exact safe_goAway (.done z)
  | ping c => exact safe_locked (above_nil _) (hnil _)
  | numStreams | queue | handleAck | handlePong | stream | registry | client => exact hnil _
  | closeSession c => exact safe_closeSession (.done z)
  | handleStreamOpen c =>
    refine safe_locked (above_nil _) (.either rfl rfl (safe_maybe rfl (hnil _) (.done z)) ?_)
    exact safe_newStream (above_nil _) (safe_locked (above_nil _) (hnil _))
  | handleStreamData c i =>
    have hclose : Safe z [] (remoteCloseCode c i ++ maybeRemoveStreamCode c i) :=
      safe_remoteClose (safe_maybeRemove (above_nil _) (above_nil _) (.done z))
    have hfin := safe_maybe (k := []) rfl (by simpa using hclose) (.done z)
    exact safe_locked (above_nil _)
      (safe_maybe rfl (safe_maybe rfl (safe_locked (above_nil _) hfin) hfin) (.done z))
  | handleStreamClose c i =>
    exact safe_locked (above_nil _) (safe_maybe rfl
      (safe_remoteClose (safe_maybeRemove (above_nil _) (above_nil _) (.done z))) (.done z))
  | handleStreamReset c i =>
    exact safe_locked (above_nil _) (safe_maybe rfl (safe_reset (hnil _)) (.done z))
  | handleWindowUpdate c i =>
    exact .either rfl rfl (hnil _)
      (safe_locked (above_nil _) (safe_maybe rfl (hnil _) (.done z)))
  | closeStream c i => exact safe_closeStream (.done z)
  | reset c i => exact safe_reset (.done z)
  | register _ | teardown _ =>
    exact safe_locked (above_nil _)
      (safe_maybe rfl (safe_goAway (safe_closeSession (.done z))) (.done z))
  | unregister c =>
    exact safe_locked (above_nil _) (safe_maybe rfl (safe_closeSession (.done z)) (.done z))
  | heartbeat c => exact safe_locked (above_nil _) (safe_maybe rfl (hnil _) (.done z))
  | listConnectedAgents cs =>
    exact .acquire (above_nil _) (safe_agentInfos cs (.release (.done z)))
  | route c =>
    refine safe_locked (above_nil _) (safe_locked (above_nil _) ?_)
    have hopen : Safe z [] [.either (locked (.mux c)) (openStreamCode c (next c))] :=
      .either rfl rfl (hnil _) (safe_openStream (.done z))
    exact safe_maybe rfl (safe_locked (above_nil _) hopen) hopen
  | status c =>
    have hmux : Above [Lock.client c] (.mux c) := .cons (by simp [lockRank]) (above_nil _)
    exact .acquire (above_nil _)
      (safe_maybe rfl (safe_locked hmux (.release (.done z))) (.release (.done z)))

/-- No call starts out with a resetOnce. -/
theorem plain_call (f : LockCall) (next : ℕ → ℕ) : (f.code next).all isPlain = true := by
  cases f with
  | listConnectedAgents cs =>
    simp [LockCall.code, listConnectedAgentsCode, isPlain, agentInfoCode, locked]
  | _ => rfl

/-! ## What holds of the threads -/

/-- The thread has come to resetOnce of a stream, or is in it. -/
def claims (c i : ℕ) : Instr → Bool
  | .onceDo o _ | .onceEnd o | .release o => o = .resetOnce c i
  | _ => false

/-- Nothing else comes to one. -/
theorem claims_plain (hx : isPlain x = true) : claims c i x = false := by
  unfold isPlain at hx
  split at hx
  · cases hx
  · cases hx
  · cases hx
  · next hdo hend hrelease =>
    cases x with
    | onceDo o body => exact decide_eq_false fun ho => hdo c i body (ho ▸ rfl)
    | onceEnd o => exact decide_eq_false fun ho => hend c i (ho ▸ rfl)
    | release o => exact decide_eq_false fun ho => hrelease c i (ho ▸ rfl)
    | _ => rfl

/-- The locks of a thread, the last one first. -/
structure Holds (s : Locking) (t : ℕ) (H : List Lock) : Prop where
  nodup : H.Nodup
  mem : ∀ l, s.holder l = some t ↔ l ∈ H

/-- The thread comes to resetOnce of the streams that it has reset itself. -/
def OwnResets (s : Locking) (t : ℕ) (k : List Instr) : Prop :=
  ∀ x ∈ k, ∀ c i, claims c i x = true → s.resetter (c, i) = some t

/-- A thread has the locks that its call has to give back. -/
structure ThreadSafe (s : Locking) (t : ℕ) (k : List Instr) : Prop where
  safe : ∃ H, Safe s.closed H k ∧ Holds s t H
  resets : OwnResets s t k

/-- Every goroutine keeps to the order of the locks. -/
structure LocksSafe (s : Locking) : Prop where
  thread : ∀ t k, s.threads[t]? = some k → ThreadSafe s t k
  holder : ∀ l t, s.holder l = some t → t < s.threads.length
  reset : ∀ j t, s.resetter j = some t → (s.state j).Terminal

variable {s s' : Locking} {t : ℕ} {k' : List Instr}

/-- Thread `t` moves: what concerns the others stays. -/
theorem LocksSafe.move (h : LocksSafe s) (ht : t < s.threads.length)
    (hthreads : s'.threads = s.threads.set t k')
    (hclosed : ∀ c, s.closed c = true → s'.closed c = true)
    (hholder : ∀ l u, u ≠ t → (s'.holder l = some u ↔ s.holder l = some u))
    (hresetter : ∀ j u, u ≠ t → s.resetter j = some u → s'.resetter j = some u)
    (hreset : ∀ j u, s'.resetter j = some u → (s'.state j).Terminal)
    (hk' : ThreadSafe s' t k') : LocksSafe s' := by
  refine ⟨fun u k hu => ?_, fun l u hl => ?_, hreset⟩
  · rw [hthreads] at hu
    by_cases hut : u = t
    · subst hut
      rw [List.getElem?_set_self ht] at hu
      cases hu
      exact hk'
    · rw [List.getElem?_set_ne (Ne.symm hut)] at hu
      obtain ⟨⟨H, hsafe, hnodup, hheld⟩, hclaims⟩ := h.thread u k hu
      exact ⟨⟨H, hsafe.mono hclosed, hnodup, fun l => (hholder l u hut).trans (hheld l)⟩,
        fun x hx c i hc => hresetter _ u hut (hclaims x hx c i hc)⟩
  · rw [hthreads, List.length_set]
    by_cases hut : u = t
    · exact hut ▸ ht
    · exact h.holder l u ((hholder l u hut).mp hl)

/-- Thread `t` goes on with the locks it has. -/
theorem LocksSafe.goOn (h : LocksSafe s) (ht : t < s.threads.length)
    (hthreads : s'.threads = s.threads.set t k') (hclosed : s'.closed = s.closed)
    (hholder : s'.holder = s.holder) (hresetter : s'.resetter = s.resetter)
    (hstate : ∀ j, (s.state j).Terminal → (s'.state j).Terminal)
    (hk' : ThreadSafe s t k') : LocksSafe s' := by
  refine h.move ht hthreads (fun c hc => hclosed ▸ hc) (fun l u _ => by rw [hholder])
    (fun j u _ hu => hresetter ▸ hu) (fun j u hu => hstate j (h.reset j u (hresetter ▸ hu))) ?_
  obtain ⟨⟨H, hsafe, hnodup, hheld⟩, hclaims⟩ := hk'
  exact ⟨⟨H, hclosed ▸ hsafe, hnodup, fun l => hholder ▸ hheld l⟩,
    fun x hx c i hc => hresetter ▸ hclaims x hx c i hc⟩

/-- Thread `t` takes a lock that is free. -/
theorem LocksSafe.take (h : LocksSafe s) (ht : t < s.threads.length)
    (hfree : s.holder l = none) (hheld : Holds s t H) (hk' : Safe s.closed (l :: H) k')
    (hclaims : OwnResets s t k') : LocksSafe ((s.hold l t).setThread t k') := by
  have hl : l ∉ H := fun hmem => by
    rw [(hheld.mem l).mpr hmem] at hfree
    cases hfree
  refine h.move ht rfl (fun _ hc => hc) (fun m u hut => ?_) (fun _ _ _ hu => hu) h.reset
    ⟨⟨l :: H, hk', List.nodup_cons.mpr ⟨hl, hheld.nodup⟩, fun m => ?_⟩, hclaims⟩
  · by_cases hm : m = l
    · subst hm
      simp [hfree, Ne.symm hut]
    · simp [Function.update_of_ne hm]
  · by_cases hm : m = l
    · subst hm
      simp
    · simp [hm, hheld.mem m]

/-- Thread `t` gives a lock back. -/
theorem LocksSafe.giveBack (h : LocksSafe s) (ht : t < s.threads.length)
    (hheld : Holds s t (l :: H)) (hthreads : s'.threads = s.threads.set t k')
    (hclosed : s'.closed = s.closed) (hholder : s'.holder = Function.update s.holder l none)
    (hresetter : s'.resetter = s.resetter) (hstate : s'.state = s.state)
    (hk' : Safe s.closed H k') (hclaims : OwnResets s t k') : LocksSafe s' := by
  have hlt : s.holder l = some t := (hheld.mem l).mpr (List.mem_cons_self ..)
  obtain ⟨hl, hnodup⟩ := List.nodup_cons.mp hheld.nodup
  refine h.move ht hthreads (fun c hc => hclosed ▸ hc) (fun m u hut => ?_)
    (fun j u _ hu => hresetter ▸ hu) (fun j u hu => ?_)
    ⟨⟨H, hclosed ▸ hk', hnodup, fun m => ?_⟩, fun x hx c i hc => hresetter ▸ hclaims x hx c i hc⟩
  · rw [hholder]
    by_cases hm : m = l
    · subst hm
      simp [hlt, Ne.symm hut]
    · rw [Function.update_of_ne hm]
  · rw [hstate]
    exact h.reset j u (hresetter ▸ hu)
  · rw [hholder]
    by_cases hm : m = l
    · subst hm
      simp [hl]
    · simp [hm, hheld.mem m]

/-- More to do, with no resetOnce in it. -/
theorem OwnResets.append {a : List Instr} (hk : OwnResets s t k) (ha : a.all isPlain = true) :
    OwnResets s t (a ++ k) := by
  intro x hx c i hc
  rcases List.mem_append.mp hx with hxa | hxk
  · rw [claims_plain (List.all_eq_true.mp ha x hxa)] at hc
    cases hc
  · exact hk x hxk c i hc

theorem plain_resets (c : ℕ) (found : List ℕ) :
    (found.flatMap (resetCode c)).all isPlain = true := by
  simp [isPlain, resetCode]

/-- Writing the state of a stream leaves the closed ones closed. -/
theorem terminal_setState {st : StreamState} (hst : (s.state (c, i)).Terminal → st.Terminal)
    (j : ℕ × ℕ) (hj : (s.state j).Terminal) : ((s.setState c i st).state j).Terminal := by
  simp only [Locking.setState_state]
  by_cases hji : j = (c, i)
  · subst hji
    rw [Function.update_self]
    exact hst hj
  · rwa [Function.update_of_ne hji]

/-- `Reset` of a stream that was open: nobody has reset it before. -/
theorem LocksSafe.reset_section (h : LocksSafe s) (ht : t < s.threads.length)
    (hst : ¬ (s.state (c, i)).Terminal) (hheld : Holds s t H) (hk' : Safe s.closed H k')
    (hclaims : OwnResets (s.setResetter c i t) t k') :
    LocksSafe (((s.setState c i .reset).setResetter c i t).setThread t k') := by
  have hother : ∀ j, j ≠ (c, i) →
      Function.update s.resetter (c, i) (some t) j = s.resetter j := fun j hj =>
    Function.update_of_ne hj ..
  refine h.move ht rfl (fun _ hc => hc) (fun _ _ _ => Iff.rfl) (fun j u _ hu => ?_)
    (fun j u hu => ?_) ⟨⟨H, hk', hheld.nodup, hheld.mem⟩, hclaims⟩
  · have hne : j ≠ (c, i) := by
      rintro rfl
      exact hst (h.reset _ u hu)
    exact (hother j hne).trans hu
  · by_cases hj : j = (c, i)
    · subst hj
      exact .inr (by simp)
    · exact terminal_setState (fun _ => .inr rfl) j (h.reset j u ((hother j hj).symm.trans hu))

theorem OwnResets.cons (hk : OwnResets s t k) (hx : ∀ d j, claims d j x = false) :
    OwnResets s t (x :: k) := by
  intro y hy d j hc
  rcases List.mem_cons.mp hy with rfl | hy
  · rw [hx] at hc
    cases hc
  · exact hk y hy d j hc

/-- A step of a thread keeps all of them safe. -/
theorem LocksSafe.run {first : Bool} {found : List ℕ} (h : LocksSafe s)
    (ht : s.threads[t]? = some (x :: k)) (hrun : s.runInstr t first found k x = some s') :
    LocksSafe s' := by
  obtain ⟨⟨H, hsafe, hheld⟩, hclaims⟩ := h.thread t _ ht
  have hlt := (List.getElem?_eq_some_iff.mp ht).1
  have hrest : OwnResets s t k := fun y hy => hclaims y (List.mem_cons_of_mem _ hy)
  have goOn : ∀ k', ThreadSafe s t k' → LocksSafe (s.setThread t k') := fun _ hk' =>
    h.goOn hlt rfl rfl rfl rfl (fun _ hst => hst) hk'
  cases hsafe with
  | acquire hl hk =>
    simp only [Locking.runInstr, Option.ite_none_right_eq_some, Option.some.injEq] at hrun
    obtain ⟨hfree, rfl⟩ := hrun
    exact h.take hlt hfree hheld hk hrest
  | release hk | onceEnd hk =>
    cases hrun
    exact h.giveBack hlt hheld rfl rfl rfl rfl rfl hk hrest
  | either ha hb hka hkb =>
    cases hrun
    refine goOn _ ?_
    cases first with
    | true => exact ⟨⟨H, hka, hheld⟩, hrest.append ha⟩
    | false => exact ⟨⟨H, hkb, hheld⟩, hrest.append hb⟩
  | @onceDo _ _ _ body o ho hbody hdo hk =>
    simp only [Locking.runInstr] at hrun
    split at hrun
    · cases hrun
      exact goOn _ ⟨⟨H, hk, hheld⟩, hrest⟩
    · simp only [Option.ite_none_right_eq_some, Option.some.injEq] at hrun
      obtain ⟨hfree, rfl⟩ := hrun
      have hend : OwnResets s t (.onceEnd o :: k) := fun y hy c i hc => by
        rcases List.mem_cons.mp hy with rfl | hy
        · exact hclaims (.onceDo o body) (List.mem_cons_self ..) c i hc
        · exact hrest y hy c i hc
      exact h.take hlt hfree hheld hdo (hend.append hbody)
  | @closeSection _ H _ c i htell hk =>
    simp only [Locking.runInstr] at hrun
    split at hrun
    · next st hst =>
      cases hrun
      refine h.goOn hlt rfl rfl rfl rfl (terminal_setState fun hterm => ?_)
        ⟨⟨_, .release htell, hheld⟩, (hrest.cons fun _ _ => rfl).cons fun _ _ => rfl⟩
      rcases hterm with hterm | hterm <;> rw [hterm] at hst <;> cases hst
    · cases hrun
      exact goOn _ ⟨⟨_, .release hk, hheld⟩, hrest.cons fun _ _ => rfl⟩
  | @remoteCloseSection _ _ _ c i hk =>
    cases hrun
    refine h.goOn hlt rfl rfl rfl rfl (terminal_setState fun hterm => ?_) ⟨⟨H, hk, hheld⟩, hrest⟩
    rcases hterm with hterm | hterm <;> rw [hterm]
    · exact .inl rfl
    · exact .inr rfl
  | @resetSection _ H _ c i hreset hk =>
    simp only [Locking.runInstr] at hrun
    split at hrun
    · cases hrun
      exact goOn _ ⟨⟨_, .release hk, hheld⟩, hrest.cons fun _ _ => rfl⟩
    · next hst =>
      cases hrun
      refine h.reset_section hlt hst hheld (.release hreset) fun x hx d j hc => ?_
      show Function.update s.resetter (c, i) (some t) (d, j) = some t
      by_cases hdj : (d, j) = (c, i)
      · rw [hdj, Function.update_self]
      · rw [Function.update_of_ne hdj]
        rcases List.mem_cons.mp hx with rfl | hx
        · cases hc
        rcases List.mem_cons.mp hx with rfl | hx
        · have heq : Lock.resetOnce c i = .resetOnce d j := of_decide_eq_true hc
          cases heq
          exact absurd rfl hdj
        · exact hrest x hx d j hc
  | @onReset _ _ _ c i hopen hk =>
    simp only [Locking.runInstr] at hrun
    split at hrun
    · cases hrun
      exact goOn _ ⟨⟨H, hk, hheld⟩, hrest⟩
    · next hz =>
      cases hrun
      exact goOn _ ⟨⟨H, hopen (by simpa using hz), hheld⟩, (hrest.cons fun _ _ => rfl).append rfl⟩
  | @closeCloseCh _ _ _ c hk =>
    cases hrun
    exact h.move hlt rfl (closed_update c) (fun _ _ _ => Iff.rfl) (fun _ _ _ hu => hu) h.reset
      ⟨⟨H, hk, hheld.nodup, hheld.mem⟩, hrest⟩
  | resetAll hk =>
    simp only [Locking.runInstr, Option.ite_none_right_eq_some, Option.some.injEq] at hrun
    obtain ⟨_, rfl⟩ := hrun
    exact goOn _ ⟨⟨H, hk found, hheld⟩, hrest.append (plain_resets _ found)⟩
  | resetFound hreset hk =>
    cases found with
    | nil =>
      cases hrun
      exact goOn _ ⟨⟨H, hk, hheld⟩, hrest⟩
    | cons i found =>
      simp only [Locking.runInstr, Option.ite_none_right_eq_some, Option.some.injEq] at hrun
      obtain ⟨_, rfl⟩ := hrun
      exact goOn _ ⟨⟨H, hreset i, hheld⟩, hrest.append rfl⟩

/-- A call that starts is safe, and the others do not notice it. -/
theorem LocksSafe.call (h : LocksSafe s) (f : LockCall) (next : ℕ → ℕ) :
    LocksSafe { s with threads := s.threads ++ [f.code s.next], next := next } := by
  refine ⟨fun t k ht => ?_, fun l t hl => ?_, h.reset⟩
  · dsimp only at ht
    by_cases hlt : t < s.threads.length
    · rw [List.getElem?_append_left hlt] at ht
      obtain ⟨⟨H, hsafe, hnodup, hheld⟩, hclaims⟩ := h.thread t k ht
      exact ⟨⟨H, hsafe, hnodup, hheld⟩, hclaims⟩
    · rw [List.getElem?_append_right (by omega), List.getElem?_singleton] at ht
      simp only [Option.ite_none_right_eq_some, Option.some.injEq] at ht
      obtain ⟨_, rfl⟩ := ht
      have hheld : Holds s t [] := ⟨.nil, fun l => ⟨fun hl => absurd (h.holder l t hl) hlt, nofun⟩⟩
      refine ⟨⟨[], safe_call f s.next, hheld.nodup, hheld.mem⟩, fun x hx c i hc => ?_⟩
      rw [claims_plain (List.all_eq_true.mp (plain_call f s.next) x hx)] at hc
      cases hc
  · have hlt := h.holder l t hl
    simp only [List.length_append]
    omega

/-- No step breaks the order of the locks. -/
theorem locksSafe_step {a : LockingAction} (h : LocksSafe s) (hstep : s.step a = some s') :
    LocksSafe s' := by
  cases a with
  | call f =>
    cases hstep
    exact h.call f _
  | run t first found =>
    simp only [Locking.step] at hstep
    split at hstep
    · next x k ht => exact h.run ht hstep
    · cases hstep

/-- Every state that the calls can come to, from none. -/
abbrev LocksReach (s : Locking) : Prop := Reach Locking.step anyStep {} s

/-- The order of the locks is kept in every run. -/
theorem locksSafe_reach (hreach : LocksReach s) : LocksSafe s :=
  hreach.invariant LocksSafe ⟨nofun, nofun, nofun⟩ fun _ _ _ _ h _ hstep => locksSafe_step h hstep

/-! ## One of them can go on -/

/-- The lock that a thread needs to go on. -/
def wants (s : Locking) (t : ℕ) : Option Lock :=
  match s.threads[t]? with
  | some (.acquire l :: _) => some l
  | some (.onceDo o _ :: _) => if s.done o then none else some o
  | _ => none

/-- Whoever has resetOnce of a stream still has to leave it. -/
theorem Safe.claims_of_mem (h : Safe z H k) (hmem : Lock.resetOnce c i ∈ H) :
    ∃ x ∈ k, claims c i x = true := by
  induction h with
  | done => cases hmem
  | acquire _ _ ih =>
    obtain ⟨x, hx, hc⟩ := ih (List.mem_cons_of_mem _ hmem)
    exact ⟨x, List.mem_cons_of_mem _ hx, hc⟩
  | @release _ _ _ l _ ih | @onceEnd _ _ _ l _ ih =>
    rcases List.mem_cons.mp hmem with rfl | hmem
    · exact ⟨_, List.mem_cons_self .., by simp [claims]⟩
    · obtain ⟨x, hx, hc⟩ := ih hmem
      exact ⟨x, List.mem_cons_of_mem _ hx, hc⟩
  | either ha _ _ _ iha _ =>
    obtain ⟨x, hx, hc⟩ := iha hmem
    rcases List.mem_append.mp hx with hxa | hxk
    · rw [claims_plain (List.all_eq_true.mp ha x hxa)] at hc
      cases hc
    · exact ⟨x, List.mem_cons_of_mem _ hxk, hc⟩
  | closeSection _ _ _ ih | resetSection _ _ _ ih =>
    rcases List.mem_cons.mp hmem with heq | hmem
    · cases heq
    obtain ⟨x, hx, hc⟩ := ih hmem
    exact ⟨x, List.mem_cons_of_mem _ hx, hc⟩
  | onceDo _ _ _ _ _ ih | remoteCloseSection _ ih | onReset _ _ _ ih | closeCloseCh _ ih
  | resetFound _ _ _ ih =>
    obtain ⟨x, hx, hc⟩ := ih hmem
    exact ⟨x, List.mem_cons_of_mem _ hx, hc⟩
  | resetAll _ ih =>
    obtain ⟨x, hx, hc⟩ := ih [] hmem
    exact ⟨x, List.mem_cons_of_mem _ hx, hc⟩

/-- Only a resetOnce is taken out of order. -/
theorem offOrder_eq {l l' : Lock} (h : offOrder l l' = true) : ∃ c i, l' = .resetOnce c i := by
  unfold offOrder at h
  split at h
  · exact ⟨_, _, rfl⟩
  · cases h

/-- A thread that waits for a lock of another has locks of lower rank only: the one that is taken
off the order is never waited for. -/
theorem LocksSafe.ordered (h : LocksSafe s) : Ordered s.holder (wants s) lockRank := by
  intro t l u hwants hl l' hl'
  unfold wants at hwants
  split at hwants
  · next hk =>
    cases hwants
    obtain ⟨⟨H, hsafe, hheld⟩, -⟩ := h.thread t _ hk
    cases hsafe with
    | acquire horder _ => exact horder l' ((hheld.mem l').mp hl')
  · next o body k hk =>
    simp only [Option.ite_none_left_eq_some, Option.some.injEq] at hwants
    obtain ⟨-, rfl⟩ := hwants
    obtain ⟨⟨H, hsafe, hheld⟩, hclaims⟩ := h.thread t _ hk
    cases hsafe with
    | onceDo ho _ _ _ =>
      refine (ho l' ((hheld.mem l').mp hl')).resolve_right fun hoff => ?_
      -- both the holder and `t` have reset the stream, so they are one thread
      obtain ⟨c, i, rfl⟩ := offOrder_eq hoff
      have ht : s.resetter (c, i) = some t :=
        hclaims _ (List.mem_cons_self ..) c i (decide_eq_true rfl)
      have hu : s.resetter (c, i) = some u := by
        obtain ⟨k', hk'⟩ : ∃ k', s.threads[u]? = some k' :=
          ⟨_, List.getElem?_eq_getElem (h.holder _ u hl)⟩
        obtain ⟨⟨H', hsafe', hheld'⟩, hclaims'⟩ := h.thread u k' hk'
        obtain ⟨x, hx, hc⟩ := hsafe'.claims_of_mem ((hheld'.mem _).mp hl)
        exact hclaims' x hx c i hc
      obtain rfl : t = u := Option.some.inj (ht.symm.trans hu)
      rcases ho _ ((hheld.mem _).mp hl) with hlt | hoff'
      · exact lt_irrefl _ hlt
      · cases hoff'
  · cases hwants

/-- A thread that does not wait can go on, whichever branch it takes. -/
theorem step_of_not_waiting (ht : s.threads[t]? = some (x :: k))
    (hw : ¬ Waiting s.holder (wants s) t) (first : Bool) :
    ∃ found s', s.step (.run t first found) = some s' := by
  refine ⟨[], Option.isSome_iff_exists.mp ?_⟩
  have hfree : ∀ l, wants s t = some l → s.holder l = none := fun l hl => by
    by_contra hne
    obtain ⟨u, hu⟩ := Option.ne_none_iff_exists'.mp hne
    exact hw ⟨l, u, hl, hu⟩
  simp only [Locking.step, ht]
  cases x with
  | acquire l => simp [Locking.runInstr, hfree l (by simp [wants, ht])]
  | onceDo o body =>
    by_cases hdone : s.done o = true
    · simp [Locking.runInstr, hdone]
    · simp [Locking.runInstr, hdone, hfree o (by simp [wants, ht, hdone])]
  | closeSection | resetSection | onReset =>
    simp only [Locking.runInstr]
    split <;> rfl
  | resetAll c => simp [Locking.runInstr]
  | _ => rfl

/-- Whoever has a lock has not returned. -/
theorem LocksSafe.busy (h : LocksSafe s) (hl : s.holder l = some t) :
    ∃ x k, s.threads[t]? = some (x :: k) := by
  obtain ⟨k, hk⟩ : ∃ k, s.threads[t]? = some k :=
    ⟨_, List.getElem?_eq_getElem (h.holder l t hl)⟩
  obtain ⟨⟨H, hsafe, hheld⟩, -⟩ := h.thread t k hk
  cases k with
  | nil =>
    cases hsafe
    cases (hheld.mem l).mp hl
  | cons x k => exact ⟨x, k, hk⟩

/-- As long as a call has not returned, one of them can go on. -/
theorem LocksSafe.progress (h : LocksSafe s) (ht : s.threads[t]? = some (x :: k)) :
    ∃ u, ∀ first, ∃ found s', s.step (.run u first found) = some s' := by
  by_cases hw : Waiting s.holder (wants s) t
  · have hrank : ∀ l, lockRank l ≤ 4 := fun l => by cases l <;> simp [lockRank]
    obtain ⟨u, l, hl, hu⟩ := h.ordered.exists_running hrank hw
    obtain ⟨y, k', hk'⟩ := h.busy hl
    exact ⟨u, step_of_not_waiting hk' hu⟩
  · exact ⟨t, step_of_not_waiting ht hw⟩

/-! ## All of them return -/

mutual

/-- The steps of a call at most, if session `c` has made `n c` streams: 11 for a `Reset`. -/
def cost (n : ℕ → ℕ) : Instr → ℕ
  | .either a b => 1 + costs n a + costs n b
  | .onceDo _ body => 2 + costs n body
  | .closeSection _ _ => 12
  | .resetSection _ _ => 10
  | .onReset _ _ => 6
  | .resetAll c => 1 + n c * 11
  | .resetFound _ => 12
  | .acquire _ | .release _ | .onceEnd _ | .remoteCloseSection _ _ | .closeCloseCh _ => 1

/-- How many steps a list of instructions can take. -/
def costs (n : ℕ → ℕ) : List Instr → ℕ
  | [] => 0
  | x :: k => cost n x + costs n k

end

@[simp] theorem costs_append (n : ℕ → ℕ) (a k : List Instr) :
    costs n (a ++ k) = costs n a + costs n k := by
  induction a with
  | nil => simp [costs]
  | cons x a ih => simp only [List.cons_append, costs, ih, Nat.add_assoc]

/-- The resets of Close. -/
theorem costs_resets (n : ℕ → ℕ) (c : ℕ) (found : List ℕ) :
    costs n (found.flatMap (resetCode c)) = found.length * 11 := by
  induction found with
  | nil => rfl
  | cons i found ih =>
    rw [List.flatMap_cons, costs_append, ih, List.length_cons, Nat.succ_mul, Nat.add_comm]
    rfl

/-- A step takes from what its thread has left. -/
theorem costs_run {first : Bool} {found : List ℕ} (hrun : s.runInstr t first found k x = some s') :
    s'.next = s.next ∧ ∃ k', s'.threads = s.threads.set t k' ∧
      costs s.next k' < costs s.next (x :: k) := by
  cases x with
  | acquire l =>
    simp only [Locking.runInstr, Option.ite_none_right_eq_some, Option.some.injEq] at hrun
    obtain ⟨-, rfl⟩ := hrun
    exact ⟨rfl, k, rfl, by simp only [costs, cost]; omega⟩
  | release _ | onceEnd _ | remoteCloseSection _ _ | closeCloseCh _ =>
    cases hrun
    exact ⟨rfl, k, rfl, by simp only [costs, cost]; omega⟩
  | either a b =>
    cases hrun
    refine ⟨rfl, _, rfl, ?_⟩
    cases first <;>
      simp only [costs_append, costs, cost, if_true, if_false, Bool.false_eq_true] <;> omega
  | onceDo o body =>
    simp only [Locking.runInstr] at hrun
    split at hrun
    · cases hrun
      exact ⟨rfl, k, rfl, by simp only [costs, cost]; omega⟩
    · simp only [Option.ite_none_right_eq_some, Option.some.injEq] at hrun
      obtain ⟨-, rfl⟩ := hrun
      exact ⟨rfl, _, rfl, by simp only [costs_append, costs, cost]; omega⟩
  | closeSection c i | resetSection c i | onReset c i =>
    simp only [Locking.runInstr] at hrun
    split at hrun <;> cases hrun <;> refine ⟨rfl, _, rfl, ?_⟩ <;>
      simp only [costs_append, costs, cost, maybeRemoveStreamCode, locked] <;> omega
  | resetAll c =>
    simp only [Locking.runInstr, Option.ite_none_right_eq_some, Option.some.injEq] at hrun
    obtain ⟨⟨hnodup, hlt⟩, rfl⟩ := hrun
    have hlen : found.length ≤ s.next c := by
      have hsub : found ⊆ List.range (s.next c) := fun i hi => List.mem_range.mpr (hlt i hi)
      simpa using (List.subperm_of_subset hnodup hsub).length_le
    refine ⟨rfl, _, rfl, ?_⟩
    rw [costs_append, costs_resets]
    simp only [costs, cost]
    omega
  | resetFound c =>
    cases found with
    | nil =>
      cases hrun
      exact ⟨rfl, k, rfl, by simp only [costs, cost]; omega⟩
    | cons i found =>
      simp only [Locking.runInstr, Option.ite_none_right_eq_some, Option.some.injEq] at hrun
      obtain ⟨-, rfl⟩ := hrun
      exact ⟨rfl, _, rfl, by simp only [costs_append, costs, cost, resetCode]; omega⟩

/-- What the calls have left, all together. -/
def work (s : Locking) : ℕ := (s.threads.map (costs s.next)).sum

/-- A goroutine goes on; none makes a new call. -/
def isRun : LockingAction → Bool
  | .run _ _ _ => true
  | .call _ => false

/-- A step of a call leaves less to do. -/
theorem work_step {a : LockingAction} (ha : isRun a = true) (hstep : s.step a = some s') :
    work s' < work s := by
  cases a with
  | call f => cases ha
  | run t first found =>
    simp only [Locking.step] at hstep
    split at hstep
    · next x k ht =>
      obtain ⟨hnext, k', hthreads, hlt⟩ := costs_run hstep
      rw [work, work, hnext, hthreads]
      exact sum_map_set_lt ht hlt
    · cases hstep

/-- **The calls do not deadlock.** In every state that calls side by side can come to, in any order
of their steps, the calls under way finish within some number of steps: at every point on the way
one of them can go on, whichever branch it takes, until all have returned and every lock is free.
SOURCE: mux_session.go:111-232, 408-564, 641-758; stream_impl.go:134-243; registry_impl.go:53-166;
client_impl.go:199-245; router_impl.go:151-205 -/
theorem calls_return (hs : LocksReach s) :
    ∃ n, ∀ (as : List LockingAction) (s' : Locking),
      exec (guarded Locking.step fun _ a => isRun a = true) s as = some s' → as.length ≤ n ∧
        ((∃ t, ∀ first, ∃ found s'', s'.step (.run t first found) = some s'') ∨
          (∀ k ∈ s'.threads, k = []) ∧ ∀ l, s'.holder l = none) := by
  refine ⟨work s, fun as s' hexec => ⟨?_, ?_⟩⟩
  · have hvar := exec_variant (I := fun _ => True) work hexec trivial
      fun _ _ _ _ ha hstep => ⟨trivial, work_step ha hstep⟩
    omega
  · have hsafe : LocksSafe s' :=
      locksSafe_reach (hs.trans (.of_exec as (exec_mono hexec fun _ _ _ => trivial)))
    by_cases hbusy : ∃ (t : ℕ) (x : Instr) (k : List Instr), s'.threads[t]? = some (x :: k)
    · obtain ⟨t, x, k, ht⟩ := hbusy
      exact .inl (hsafe.progress ht)
    · refine .inr ⟨fun k hk => ?_, fun l => ?_⟩
      · obtain ⟨t, ht⟩ := List.mem_iff_getElem?.mp hk
        cases k with
        | nil => rfl
        | cons x k => exact absurd ⟨t, x, k, ht⟩ hbusy
      · by_contra hne
        obtain ⟨t, hl⟩ := Option.ne_none_iff_exists'.mp hne
        exact hbusy ⟨t, hsafe.busy hl⟩

/-- A stream is reset while its session is closed: the first thread is inside resetOnce and about to
take the session's mutex, which the second one has. -/
theorem calls_return_crossing :
    ∃ s, LocksReach s ∧ (s.holder (.resetOnce 0 0) = some 1 ∧ wants s 1 = some (.mux 0) ∧
        s.holder (.mux 0) = some 2) ∧
      ∃ n, ∀ (as : List LockingAction) (s' : Locking),
        exec (guarded Locking.step fun _ a => isRun a = true) s as = some s' → as.length ≤ n ∧
          ((∃ t, ∀ first, ∃ found s'', s'.step (.run t first found) = some s'') ∨
            (∀ k ∈ s'.threads, k = []) ∧ ∀ l, s'.holder l = none) := by
  have hex : ∃ s, LocksReach s ∧ (s.holder (.resetOnce 0 0) = some 1 ∧
      wants s 1 = some (.mux 0) ∧ s.holder (.mux 0) = some 2) :=
    exists_reach_of_exec ([LockingAction.call (.openStream 0), .call (.reset 0 0),
        .call (.closeSession 0)] ++
      List.replicate 5 (.run 1 false []) ++ List.replicate 5 (.run 2 false [])) _
      (by decide)
  obtain ⟨s, hs, hcross⟩ := hex
  exact ⟨s, hs, hcross, calls_return hs⟩

end Atlax.Analysis
