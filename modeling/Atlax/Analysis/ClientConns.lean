import Atlax.Library.Processes
import Atlax.Model.ClientListener

/-!
# Who closes a client's connection

`handleClient` closes the connection of a port without a mapping and of a client that is over its
rate, and the copy has a goroutine that closes it when the context of the copy is done, which it is
when the copy returns. In between lie the exits of `Route` that only return an error: no agent, the
stream limit, a session of another type, a stream that is not opened. `handleClient` logs the error
and returns, and nobody is left who would close the connection.
-/

set_option autoImplicit false

namespace Atlax.Analysis

open Atlax.Model Atlax.Library

/-- `Route` returned before it started the copy. -/
def leavesOpen : RouteEnd → Bool
  | .returned (some (.copy _)) => false
  | .returned (some _) => true
  | _ => false

/-- The call is on its way to the copy. -/
def beforeCopy : RoutePc → Bool
  | .copying _ _ | .done _ => false
  | _ => true

/-- What a call does in one step up to the copy. -/
inductive Advance : RoutePc → RoutePc → Prop
  | goes {pc pc' : RoutePc} (h : beforeCopy pc = true) (h' : beforeCopy pc' = true) : Advance pc pc'
  | closes {pc : RoutePc} {r : RouteEnd} (h : beforeCopy pc = true)
      (hr : r = .noMapping ∨ r = .rateLimited) : Advance pc (.done r)
  | fails {pc : RoutePc} {err : RouteError} (h : beforeCopy pc = true)
      (hr : leavesOpen (.returned (some err)) = true) : Advance pc (.done (.returned (some err)))
  | opens {pc : RoutePc} (conn : AgentConn) (payload : Bytes) (h : beforeCopy pc = true) :
      Advance pc (.copying conn payload)

variable {r r' : Relay} {b : RouteAction} {i : ℕ}

theorem runCall_advance {pc : RoutePc} (h : r.runCall i pc = some r') :
    ∃ pc', r' = r.setCall i pc' ∧ Advance pc pc' := by
  obtain ⟨pc', hnext, rfl⟩ := Option.map_eq_some_iff.mp h
  refine ⟨pc', rfl, ?_⟩
  cases pc with
  | lookupPort port =>
    simp only [RoutePc.next] at hnext
    split at hnext <;> cases hnext
    · exact .closes rfl (.inl rfl)
    · exact .goes rfl rfl
  | route port customerID =>
    simp only [RoutePc.next] at hnext
    split at hnext <;> cases hnext <;> exact .goes rfl rfl
  | lookup customerID service maxStreams =>
    simp only [RoutePc.next] at hnext
    split at hnext <;> cases hnext
    · exact .fails rfl rfl
    · exact .goes rfl rfl
  | checkLimit customerID service maxStreams conn =>
    simp only [RoutePc.next] at hnext
    split at hnext
    · cases hnext
      exact .goes rfl rfl
    · split at hnext <;> cases hnext
      · exact .goes rfl rfl
      · exact .fails rfl rfl
  | overLimit customerID maxStreams conn =>
    cases hnext
    exact .fails rfl rfl
  | rateLimit | openStream | copying | done => cases hnext

/-- A step of the router takes one call on, or none. -/
theorem relay_advance (hb : ClientListener.withinRoute b = true) (h : r.step b = some r') :
    r'.calls = r.calls ∨ ∃ i pc pc', r.calls[i]? = some pc ∧ r'.calls = r.calls.set i pc' ∧
      Advance pc pc' := by
  cases b with
  | client | route | copied => cases hb
  | run i =>
    obtain ⟨pc, hi, h⟩ := Option.bind_eq_some_iff.mp h
    obtain ⟨pc', rfl, hadv⟩ := runCall_advance h
    exact .inr ⟨i, pc, pc', hi, rfl, hadv⟩
  | rateLimit i allowed =>
    simp only [Relay.step] at h
    split at h
    · next port customerID hi =>
      split at h
      · cases h
        exact .inr ⟨i, _, _, hi, rfl, .goes rfl rfl⟩
      · split at h <;> cases h
        exact .inr ⟨i, _, _, hi, rfl, .closes rfl (.inr rfl)⟩
    · cases h
  | openStream i err =>
    simp only [Relay.step] at h
    split at h
    · next conn payload hi =>
      split at h <;> cases h
      · exact .inr ⟨i, _, _, hi, rfl, .fails rfl rfl⟩
      · exact .inr ⟨i, _, _, hi, rfl, .opens conn payload rfl⟩
    · cases h
  | updatePortMapping | removePortMapping =>
    simp only [Relay.step] at h
    split at h <;> cases h <;> exact .inl rfl
  | addPortMapping | register | unregister | setRateLimiter | setStreams =>
    cases h
    exact .inl rfl

/-! ## What a step does to one connection -/

/-- What a step does to a call and its connection. -/
inductive ConnMove : RoutePc → ClientHandle → RoutePc → ClientHandle → Prop
  | same (pc : RoutePc) (c : ClientHandle) : ConnMove pc c pc c
  | follow {pc pc' : RoutePc} (c : ClientHandle) (h : pc' = pc ∨ Advance pc pc') :
      ConnMove pc c pc' (c.follow pc')
  | copier {pc : RoutePc} {c c' : ClientHandle} (d : Direction) (err : Option String)
      (hcopying : c.copying = true) (h : c.stepCopier d err = some c') : ConnMove pc c pc c'
  | watch {pc : RoutePc} {c : ClientHandle} (hcopying : c.copying = true) :
      ConnMove pc c pc { c with closed := true }
  | copied {conn : AgentConn} {payload : Bytes} {c : ClientHandle} (err : Option String)
      (hreports : c.errCh ≠ []) :
      ConnMove (.copying conn payload) c (.done (.returned (err.map .copy)))
        { c with cancelled := true }

/-- What a step does to the calls and their connections. -/
structure ConnStep (s s' : ClientListener) : Prop where
  paired : s'.conns.length = s'.relay.calls.length
  old : ∀ (k : ℕ) (pc : RoutePc) (c : ClientHandle), s.relay.calls[k]? = some pc →
    s.conns[k]? = some c → ∃ pc' c', s'.relay.calls[k]? = some pc' ∧ s'.conns[k]? = some c' ∧
      ConnMove pc c pc' c'
  new : ∀ (k : ℕ) (pc : RoutePc) (c : ClientHandle), s.relay.calls.length ≤ k →
    s'.relay.calls[k]? = some pc → s'.conns[k]? = some c →
      (∃ port, pc = .lookupPort port) ∧ ∃ i, c = { loop := i }

variable {s s' : ClientListener} {a : ListenerAction} {k : ℕ} {c : ClientHandle}

/-- Nothing happens to the calls. -/
theorem ConnStep.keep (hp : s.conns.length = s.relay.calls.length)
    (hcalls : s'.relay.calls = s.relay.calls) (hconns : s'.conns = s.conns) : ConnStep s s' where
  paired := by rw [hcalls, hconns, hp]
  old k pc c hpc hc := ⟨pc, c, by rw [hcalls, hpc], by rw [hconns, hc], .same pc c⟩
  new k pc c hk hpc := by
    rw [hcalls, List.getElem?_eq_none hk] at hpc
    cases hpc

/-- A client arrives. -/
theorem ConnStep.arrive (hp : s.conns.length = s.relay.calls.length) {port : ℤ}
    (hcalls : s'.relay.calls = s.relay.calls ++ [.lookupPort port])
    (hconns : s'.conns = s.conns ++ [{ loop := i }]) : ConnStep s s' where
  paired := by rw [hcalls, hconns, List.length_append, List.length_append, hp]; rfl
  old k pc c hpc hc := by
    refine ⟨pc, c, ?_, ?_, .same pc c⟩
    · rw [hcalls, List.getElem?_append_left (List.getElem?_eq_some_iff.mp hpc).1, hpc]
    · rw [hconns, List.getElem?_append_left (List.getElem?_eq_some_iff.mp hc).1, hc]
  new k pc c hk hpc hc := by
    rw [hcalls, List.getElem?_append_right hk] at hpc
    rw [hconns, List.getElem?_append_right (hp ▸ hk)] at hc
    exact ⟨⟨port, List.mem_singleton.mp (List.mem_of_getElem? hpc)⟩, i,
      List.mem_singleton.mp (List.mem_of_getElem? hc)⟩

theorem exists_call (hp : s.conns.length = s.relay.calls.length) (hk : s.conns[k]? = some c) :
    ∃ pc, s.relay.calls[k]? = some pc := by
  have hlt := (List.getElem?_eq_some_iff.mp hk).1
  rw [hp] at hlt
  exact ⟨_, List.getElem?_eq_getElem hlt⟩

/-- Call `k` and its connection move. -/
theorem ConnStep.move (hp : s.conns.length = s.relay.calls.length) {pc pc' : RoutePc}
    {c' : ClientHandle} (hpc : s.relay.calls[k]? = some pc) (hk : s.conns[k]? = some c)
    (hcalls : s'.relay.calls = s.relay.calls.set k pc') (hconns : s'.conns = s.conns.set k c')
    (hmove : ConnMove pc c pc' c') : ConnStep s s' := by
  refine ⟨?_, ?_, ?_⟩
  · rw [hcalls, hconns, List.length_set, List.length_set, hp]
  · intro j pc₁ c₁ hpc₁ hc₁
    rw [hcalls, hconns]
    by_cases hkj : k = j
    · subst hkj
      rw [hpc] at hpc₁
      rw [hk] at hc₁
      cases hpc₁
      cases hc₁
      exact ⟨pc', c', List.getElem?_set_self (List.getElem?_eq_some_iff.mp hpc).1,
        List.getElem?_set_self (List.getElem?_eq_some_iff.mp hk).1, hmove⟩
    · exact ⟨pc₁, c₁, by rw [List.getElem?_set_ne hkj, hpc₁],
        by rw [List.getElem?_set_ne hkj, hc₁], .same pc₁ c₁⟩
  · intro j pc₁ c₁ hj hpc₁
    rw [hcalls, List.getElem?_eq_none (by rwa [List.length_set])] at hpc₁
    cases hpc₁

/-- Connection `k` moves. -/
theorem ConnStep.moveConn (hp : s.conns.length = s.relay.calls.length) (hk : s.conns[k]? = some c)
    {c' : ClientHandle} (hmove : ∀ pc, ConnMove pc c pc c') : ConnStep s (s.setConn k c') := by
  obtain ⟨pc, hpc⟩ := exists_call hp hk
  exact .move hp hpc hk (set_self hpc).symm rfl (hmove pc)

/-- A step of the router on the way to the copy. -/
theorem ConnStep.follow (hp : s.conns.length = s.relay.calls.length)
    (hb : ClientListener.withinRoute b = true) (h : s.stepRelay b = some s') : ConnStep s s' := by
  obtain ⟨relay, hrelay, rfl⟩ := Option.map_eq_some_iff.mp h
  have hadv := relay_advance hb hrelay
  -- every call stays or goes on, and its connection follows
  have hcalls : relay.calls.length = s.relay.calls.length ∧
      ∀ (k : ℕ) (pc : RoutePc), s.relay.calls[k]? = some pc →
        ∃ pc', relay.calls[k]? = some pc' ∧ (pc' = pc ∨ Advance pc pc') := by
    obtain hcalls | ⟨i, pc₁, pc₁', hi, hcalls, hmove⟩ := hadv
    · rw [hcalls]
      exact ⟨rfl, fun k pc hpc => ⟨pc, hpc, .inl rfl⟩⟩
    · rw [hcalls]
      refine ⟨List.length_set, fun k pc hpc => ?_⟩
      by_cases hik : i = k
      · subst hik
        rw [hi] at hpc
        cases hpc
        exact ⟨pc₁', List.getElem?_set_self (List.getElem?_eq_some_iff.mp hi).1, .inr hmove⟩
      · exact ⟨pc, by rw [List.getElem?_set_ne hik, hpc], .inl rfl⟩
  obtain ⟨hlen, hcalls⟩ := hcalls
  refine ⟨?_, ?_, ?_⟩
  · show (List.zipWith ClientHandle.follow s.conns relay.calls).length = relay.calls.length
    rw [List.length_zipWith, hp, hlen, Nat.min_self]
  · intro k pc c hpc hc
    obtain ⟨pc', hpc', hstep⟩ := hcalls k pc hpc
    refine ⟨pc', c.follow pc', hpc', ?_, .follow c hstep⟩
    show (List.zipWith ClientHandle.follow s.conns relay.calls)[k]? = _
    rw [List.getElem?_zipWith, hc, hpc']
  · intro k pc c hk hpc
    rw [List.getElem?_eq_none (by rwa [hlen])] at hpc
    cases hpc

theorem conn_step (hp : s.conns.length = s.relay.calls.length) (h : s.step a = some s') :
    ConnStep s s' := by
  cases a with
  | start port | stop =>
    cases h
    exact .keep hp rfl rfl
  | loop i e =>
    obtain ⟨l, -, h⟩ := Option.bind_eq_some_iff.mp h
    cases e <;> simp only [ClientListener.stepLoop, Option.ite_none_right_eq_some,
      Option.some.injEq] at h <;> obtain ⟨-, rfl⟩ := h
    · exact .arrive hp rfl rfl
    · exact .keep hp rfl rfl
    · exact .keep hp rfl rfl
  | cancel i =>
    obtain ⟨l, -, rfl⟩ := Option.map_eq_some_iff.mp h
    exact .keep hp rfl rfl
  | closeListener i =>
    obtain ⟨l, -, h⟩ := Option.bind_eq_some_iff.mp h
    simp only [Option.ite_none_right_eq_some, Option.some.injEq] at h
    obtain ⟨-, rfl⟩ := h
    exact .keep hp rfl rfl
  | stopPort port =>
    cases h
    unfold ClientListener.stopPort
    split
    · exact .keep hp rfl rfl
    · exact .keep hp rfl rfl
  | relay b =>
    simp only [ClientListener.step, Option.ite_none_right_eq_some] at h
    exact .follow hp h.1 h.2
  | copier k d err =>
    obtain ⟨c, hk, h⟩ := Option.bind_eq_some_iff.mp h
    simp only [Option.ite_none_right_eq_some] at h
    obtain ⟨hcopying, h⟩ := h
    obtain ⟨c', hc', rfl⟩ := Option.map_eq_some_iff.mp h
    exact .moveConn hp hk fun pc => .copier d err hcopying hc'
  | watch k =>
    obtain ⟨c, hk, h⟩ := Option.bind_eq_some_iff.mp h
    simp only [ClientListener.stepWatch, Option.ite_none_right_eq_some, Option.some.injEq] at h
    obtain ⟨⟨hcopying, -⟩, rfl⟩ := h
    exact .moveConn hp hk fun pc => .watch hcopying
  | copied k =>
    obtain ⟨c, hk, h⟩ := Option.bind_eq_some_iff.mp h
    simp only [ClientListener.stepCopied] at h
    split at h
    · next firstErr secondErr herr =>
      obtain ⟨relay, hrelay, rfl⟩ := Option.map_eq_some_iff.mp h
      clear h
      simp only [Relay.step] at hrelay
      split at hrelay <;> cases hrelay
      next conn payload hpc =>
      exact .move hp hpc hk rfl rfl (.copied _ (by rw [herr]; nofun))
    · cases h

/-! ## Closed by the relay -/

/-- Reports come after the cancellation of the copy's context. -/
structure CancelsFirst (c : ClientHandle) : Prop where
  copier : ∀ d err, c.copier d = .report err → c.cancelled = true
  reports : c.errCh ≠ [] → c.cancelled = true

/-- What holds of a connection while its call stands at `pc`. -/
def ConnStage (c : ClientHandle) : RoutePc → Prop
  | .copying _ _ => c.copying = true ∧ CancelsFirst c
  | .done r => (leavesOpen r = true → c = { loop := c.loop }) ∧
      (leavesOpen r = false → c.closed = true ∨ (c.copying = true ∧ c.cancelled = true))
  | _ => c = { loop := c.loop }

variable {c' : ClientHandle} {pc pc' : RoutePc}

theorem connStage_before (h : beforeCopy pc = true) : ConnStage c pc ↔ c = { loop := c.loop } := by
  cases pc with
  | copying | done => cases h
  | _ => exact Iff.rfl

theorem follow_before (h : beforeCopy pc = true) : c.follow pc = c := by
  cases pc with
  | copying | done => cases h
  | _ => rfl

/-- Following a call that stays where it is does nothing new. -/
theorem ConnStage.follow (h : ConnStage c pc) : ConnStage (c.follow pc) pc := by
  cases pc with
  | copying conn payload => exact ⟨rfl, h.2.copier, h.2.reports⟩
  | done r =>
    cases r with
    | noMapping | rateLimited => exact ⟨nofun, fun _ => .inl rfl⟩
    | returned err => exact h
  | _ => exact h

theorem ConnStage.advance (h : ConnStage c pc) (hadv : Advance pc pc') :
    ConnStage (c.follow pc') pc' := by
  cases hadv with
  | goes hb hb' =>
    rw [follow_before hb', connStage_before hb']
    exact (connStage_before hb).mp h
  | closes hb hr =>
    obtain rfl | rfl := hr
    · exact ⟨nofun, fun _ => .inl rfl⟩
    · exact ⟨nofun, fun _ => .inl rfl⟩
  | fails hb hr =>
    refine ⟨fun _ => (connStage_before hb).mp h, fun hr' => ?_⟩
    rw [hr] at hr'
    cases hr'
  | opens conn payload hb =>
    have hc : c = { loop := c.loop } := (connStage_before hb).mp h
    refine ⟨rfl, ?_, ?_⟩
    · intro d err hd
      rw [hc] at hd
      cases d <;> cases hd
    · intro herr
      rw [hc] at herr
      exact absurd rfl herr

/-- Only a connection that is copied has goroutines. -/
theorem ConnStage.copying (h : ConnStage c pc) (hcopying : c.copying = true) :
    (∃ conn payload, pc = .copying conn payload) ∨ ∃ r, pc = .done r ∧ leavesOpen r = false := by
  have untouched (hc : c = { loop := c.loop }) : False := by
    rw [hc] at hcopying
    cases hcopying
  cases pc with
  | copying conn payload => exact .inl ⟨conn, payload, rfl⟩
  | done r =>
    refine .inr ⟨r, rfl, ?_⟩
    cases hr : leavesOpen r with
    | true => exact (untouched (h.1 hr)).elim
    | false => rfl
  | _ => exact (untouched h).elim

/-- What a copying goroutine leaves alone. -/
theorem stepCopier_keeps {d : Direction} {err : Option String}
    (hstep : c.stepCopier d err = some c') :
    c'.closed = c.closed ∧ c'.copying = c.copying ∧ (c.cancelled = true → c'.cancelled = true) := by
  unfold ClientHandle.stepCopier at hstep
  cases d <;> split at hstep <;> cases hstep
  all_goals first | exact ⟨rfl, rfl, id⟩ | exact ⟨rfl, rfl, fun _ => rfl⟩

theorem CancelsFirst.step {d : Direction} {err : Option String} (h : CancelsFirst c)
    (hstep : c.stepCopier d err = some c') : CancelsFirst c' := by
  unfold ClientHandle.stepCopier at hstep
  split at hstep
  · -- io.Copy returns, and the other goroutine stays where it is
    cases hstep
    have other (d' : Direction) (e : Option String)
        (hd' : (c.setCopier (.cancel err) d).copier d' = .report e) : c.copier d' = .report e := by
      cases d <;> cases d' <;> first | exact hd' | cases hd'
    have hcancelled (d' : Direction) (e : Option String)
        (hd' : (c.setCopier (.cancel err) d).copier d' = .report e) :=
      h.copier d' e (other d' e hd')
    cases d <;> exact ⟨hcancelled, h.reports⟩
  · cases hstep
    exact ⟨fun _ _ _ => rfl, fun _ => rfl⟩
  · next e hreport =>
    cases hstep
    have hcancelled := h.copier d e hreport
    cases d <;> exact ⟨fun _ _ _ => hcancelled, fun _ => hcancelled⟩
  · cases hstep

theorem ConnStage.move (h : ConnStage c pc) (hm : ConnMove pc c pc' c') : ConnStage c' pc' := by
  cases hm with
  | same => exact h
  | follow c hadv =>
    obtain rfl | hadv := hadv
    · exact h.follow
    · exact h.advance hadv
  | copier d err hcopying hstep =>
    obtain ⟨hclosed, hcopying', hcancelled⟩ := stepCopier_keeps hstep
    obtain ⟨conn, payload, rfl⟩ | ⟨r, rfl, hr⟩ := h.copying hcopying
    · exact ⟨hcopying'.trans hcopying, h.2.step hstep⟩
    · refine ⟨fun hr' => ?_, fun _ => ?_⟩
      · rw [hr] at hr'
        cases hr'
      · rw [hclosed, hcopying']
        exact (h.2 hr).imp_right fun hc => ⟨hc.1, hcancelled hc.2⟩
  | watch hcopying =>
    obtain ⟨conn, payload, rfl⟩ | ⟨r, rfl, hr⟩ := h.copying hcopying
    · exact ⟨hcopying, h.2.copier, h.2.reports⟩
    · refine ⟨fun hr' => ?_, fun _ => .inl rfl⟩
      rw [hr] at hr'
      cases hr'
  | copied err hreports =>
    refine ⟨fun hr => ?_, fun _ => .inr ⟨h.1, rfl⟩⟩
    cases err <;> cases hr

/-- Every call has its connection, and they go together. -/
structure ConnsInStep (s : ClientListener) : Prop where
  paired : s.conns.length = s.relay.calls.length
  stage : ∀ (k : ℕ) (pc : RoutePc) (c : ClientHandle), s.relay.calls[k]? = some pc →
    s.conns[k]? = some c → ConnStage c pc

/-- The connection of a call. -/
theorem ConnsInStep.conn (h : ConnsInStep s) (hpc : s.relay.calls[k]? = some pc) :
    ∃ c, s.conns[k]? = some c ∧ ConnStage c pc := by
  have hlt := (List.getElem?_eq_some_iff.mp hpc).1
  rw [← h.paired] at hlt
  exact ⟨_, List.getElem?_eq_getElem hlt, h.stage k _ _ hpc (List.getElem?_eq_getElem hlt)⟩

theorem connsInStep_step (h : ConnsInStep s) (hs : s.step a = some s') : ConnsInStep s' := by
  have hm := conn_step h.paired hs
  refine ⟨hm.paired, fun k pc' c' hpc' hc' => ?_⟩
  by_cases hk : k < s.relay.calls.length
  · have hpc := List.getElem?_eq_getElem hk
    obtain ⟨c, hc, hstage⟩ := h.conn hpc
    obtain ⟨pc₁, c₁, hpc₁, hc₁, hmove⟩ := hm.old k _ _ hpc hc
    rw [hpc'] at hpc₁
    rw [hc'] at hc₁
    cases hpc₁
    cases hc₁
    exact hstage.move hmove
  · obtain ⟨⟨port, rfl⟩, i, rfl⟩ := hm.new k pc' c' (Nat.le_of_not_lt hk) hpc' hc'
    rfl

theorem connsInStep_reach {relay : Relay} (hidle : relay.calls = [])
    (h : Reach ClientListener.step anyStep { relay := relay } s) : ConnsInStep s := by
  refine h.invariant ConnsInStep ⟨(congrArg List.length hidle).symm, ?_⟩ fun _ _ _ _ hI _ hs =>
    connsInStep_step hI hs
  intro k pc c hpc
  rw [hidle] at hpc
  cases hpc

/-- The relay has closed connection `k`, or the goroutine that closes it has only to run. -/
def ClosingConn (s : ClientListener) (k : ℕ) : Prop :=
  (∃ c, s.conns[k]? = some c ∧ c.closed = true) ∨
    ∃ s', s.step (.watch k) = some s' ∧ ∃ c, s'.conns[k]? = some c ∧ c.closed = true

/-- A client call that has returned, whatever the port map, the registry and the rate limiters: its
connection is closed or being closed, unless `Route` returned before it started the copy; and then
the connection is open and no goroutine has it. -/
theorem client_conn_closed {relay : Relay} (hidle : relay.calls = [])
    (h : Reach ClientListener.step anyStep { relay := relay } s) {r : RouteEnd}
    (hdone : s.relay.calls[k]? = some (.done r)) :
    (leavesOpen r = false → ClosingConn s k) ∧
      (leavesOpen r = true → ∃ c, s.conns[k]? = some c ∧ c.closed = false ∧ c.copying = false) := by
  obtain ⟨c, hc, hopen, hclosing⟩ := (connsInStep_reach hidle h).conn hdone
  constructor
  · intro hr
    cases hclosed : c.closed with
    | true => exact .inl ⟨c, hc, hclosed⟩
    | false =>
      obtain h | ⟨hcopying, hcancelled⟩ := hclosing hr
      · rw [hclosed] at h
        cases h
      · refine .inr ⟨s.setConn k { c with closed := true }, ?_, { c with closed := true }, ?_, rfl⟩
        · simp only [ClientListener.step, hc, Option.bind_some, ClientListener.stepWatch,
            ClientListener.copyDone, hcopying, hclosed, hcancelled, Bool.true_or, and_self, if_true]
        · exact List.getElem?_set_self (List.getElem?_eq_some_iff.mp hc).1
  · intro hr
    have hfresh := hopen hr
    exact ⟨c, hc, by rw [hfresh], by rw [hfresh]⟩

/-- Port 8080 is "acme"'s, with room for one stream. -/
def acmeRelay : Relay where
  portMap := AList.singleton 8080 ⟨"acme", "http", 1, "0.0.0.0"⟩

/-- A client whose copy is through, and one that finds no mapping. -/
theorem client_conn_closed_two :
    ∃ s, Reach ClientListener.step anyStep { relay := acmeRelay } s ∧
      s.relay.calls = [.done (.returned none), .done .noMapping] ∧ ClosingConn s 0 ∧
      ClosingConn s 1 := by
  obtain ⟨s, hreach, hcalls⟩ : ∃ s, Reach ClientListener.step anyStep { relay := acmeRelay } s ∧
      s.relay.calls = [.done (.returned none), .done .noMapping] :=
    exists_reach_of_exec
      [.start 8080, .loop 0 .conn, .relay (.register "acme" ⟨0, true⟩), .relay (.run 0),
        .relay (.rateLimit 0 true), .relay (.run 0), .relay (.run 0), .relay (.run 0),
        .relay (.openStream 0 none), .copier 0 .toStream none, .copier 0 .toStream none,
        .copier 0 .toStream none, .copier 0 .toClient (some "use of closed network connection"),
        .copier 0 .toClient none, .copier 0 .toClient none, .copied 0,
        .relay (.removePortMapping "acme" 8080), .loop 0 .conn, .relay (.run 1)]
      _ (by decide)
  refine ⟨s, hreach, hcalls, ?_, ?_⟩
  · exact (client_conn_closed rfl hreach (by rw [hcalls]; rfl)).1 rfl
  · exact (client_conn_closed rfl hreach (by rw [hcalls]; rfl)).1 rfl

/-! ## Left open -/

/-- In every continuation the relay has not closed connection `k`, and nothing is under way that
would. -/
def NeverClosed (k : ℕ) (s : ClientListener) : Prop :=
  ∀ s', Reach ClientListener.step anyStep s s' →
    ∃ c, s'.conns[k]? = some c ∧ c.closed = false ∧ c.copying = false

/-- What is done and has left its connection open stays so. -/
theorem ConnMove.left_open {err : RouteError}
    (hm : ConnMove (.done (.returned (some err))) { loop := i } pc' c') :
    pc' = .done (.returned (some err)) ∧ c' = { loop := i } := by
  cases hm with
  | same => exact ⟨rfl, rfl⟩
  | follow c hadv =>
    obtain rfl | hadv := hadv
    · exact ⟨rfl, rfl⟩
    · cases hadv with
      | goes h | closes h | fails h | opens _ _ h => cases h
  | copier d err hcopying => cases hcopying
  | watch hcopying => cases hcopying

theorem never_closed (hI : ConnsInStep s) {err : RouteError}
    (hr : leavesOpen (.returned (some err)) = true)
    (hdone : s.relay.calls[k]? = some (.done (.returned (some err)))) : NeverClosed k s := by
  intro s' hrun
  obtain ⟨c, hc, hopen, -⟩ := hI.conn hdone
  have hfresh : s.conns[k]? = some { loop := c.loop } := by rw [hc, ← hopen hr]
  have hkept := hrun.invariant
    (fun s => ConnsInStep s ∧ s.relay.calls[k]? = some (.done (.returned (some err))) ∧
      s.conns[k]? = some { loop := c.loop }) ⟨hI, hdone, hfresh⟩ ?_
  · exact ⟨_, hkept.2.2, rfl, rfl⟩
  · rintro s a s' - ⟨hI, hdone, hfresh⟩ - hs
    obtain ⟨pc', c', hpc', hc', hm⟩ := (conn_step hI.paired hs).old k _ _ hdone hfresh
    obtain ⟨rfl, rfl⟩ := hm.left_open
    exact ⟨connsInStep_step hI hs, hpc', hc'⟩

/-- A run to an error of `Route`, by evaluation. -/
theorem left_open_of_exec (err : RouteError) (as : List ListenerAction)
    (h : (exec (guarded ClientListener.step anyStep) { relay := acmeRelay } as).any (fun s =>
      decide (s.relay.calls = [.done (.returned (some err))])) = true)
    (hr : leavesOpen (.returned (some err)) = true) :
    ∃ s, Reach ClientListener.step anyStep { relay := acmeRelay } s ∧
      s.relay.calls = [.done (.returned (some err))] ∧ NeverClosed 0 s := by
  obtain ⟨s, hreach, hcalls⟩ := exists_reach_of_exec as _ h
  exact ⟨s, hreach, hcalls, never_closed (connsInStep_reach rfl hreach) hr (by rw [hcalls]; rfl)⟩

/-- A client of port 8080 comes as far as the registry. -/
def toRegistry : List ListenerAction :=
  [.start 8080, .loop 0 .conn, .relay (.run 0), .relay (.rateLimit 0 true), .relay (.run 0)]

/-- No agent, the stream limit, a session of another type and a stream that is not opened: the call
has returned, and its connection is never closed. -/
theorem client_conn_left_open :
    (∃ s, Reach ClientListener.step anyStep { relay := acmeRelay } s ∧
      s.relay.calls = [.done (.returned (some (.agentNotFound "acme")))] ∧ NeverClosed 0 s) ∧
    (∃ s, Reach ClientListener.step anyStep { relay := acmeRelay } s ∧
      s.relay.calls = [.done (.returned (some (.streamLimit "acme" 1 1)))] ∧ NeverClosed 0 s) ∧
    (∃ s, Reach ClientListener.step anyStep { relay := acmeRelay } s ∧
      s.relay.calls = [.done (.returned (some .notMuxSession))] ∧ NeverClosed 0 s) ∧
    ∃ s, Reach ClientListener.step anyStep { relay := acmeRelay } s ∧
      s.relay.calls = [.done (.returned (some (.openStream "context canceled")))] ∧
      NeverClosed 0 s := by
  refine ⟨?_, ?_, ?_, ?_⟩
  · exact left_open_of_exec _ (toRegistry ++ [ListenerAction.relay (.run 0)]) (by decide) rfl
  · exact left_open_of_exec _ (toRegistry ++ [ListenerAction.relay (.register "acme" ⟨0, true⟩),
      .relay (.setStreams 0 1), .relay (.run 0), .relay (.run 0), .relay (.run 0)])
      (by decide) rfl
  · exact left_open_of_exec _ (toRegistry ++ [ListenerAction.relay (.register "acme" ⟨0, false⟩),
      .relay (.run 0), .relay (.run 0)]) (by decide) rfl
  · exact left_open_of_exec _ (toRegistry ++ [ListenerAction.relay (.register "acme" ⟨0, true⟩),
      .relay (.run 0), .relay (.run 0), .relay (.openStream 0 (some "context canceled"))])
      (by decide) rfl

end Atlax.Analysis
