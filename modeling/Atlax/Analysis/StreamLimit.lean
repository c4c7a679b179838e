import Atlax.Analysis.Mapped
import Atlax.Library.Processes
import Atlax.Model.Dispatch
import Mathlib.Algebra.Order.BigOperators.Group.List
import Mathlib.Data.Finset.Card

/-!
# The stream limit of a customer

`Route` compares the number of streams in the map with the limit of its port, and makes its stream
afterwards. A call that is within the limit is one that will add a stream; as long as there is room
for those that will, the streams that have not ended and the calls that will add one are together at
most the limit. Two calls that compare before either has made its stream are both within a limit
that has room for one.

What is compared is the map, and a stream is missing from it before it has ended when its open is
cancelled: `removeStream` takes it out first and resets it afterwards.
-/

set_option autoImplicit false

namespace Atlax.Analysis

open Atlax.Model Atlax.Library

variable {m : ℤ}

variable {t t' : Session} {b : Action}

/-! ## Streams that have not ended -/

/-- The streams opened on this side that have not ended. -/
def unended (t : Session) : Finset Ref :=
  (Finset.range t.nextRef).filter fun r =>
    (t.cells r).openPc ≠ .accepted ∧ ¬ (t.cells r).stream.state.Terminal

theorem mem_unended {r : Ref} :
    r ∈ unended t ↔ r < t.nextRef ∧ (t.cells r).openPc ≠ .accepted ∧
      ¬ (t.cells r).stream.state.Terminal := by
  simp [unended]

/-- What has not ended now had not ended before, or is the stream that was just opened. -/
theorem unended_move (hm : Move t b t') {r : Ref} (h : r ∈ unended t') :
    r ∈ unended t ∨ r = t.nextRef ∧ ∃ payload, b = .openAlloc payload := by
  obtain ⟨hr, hopen, hend⟩ := mem_unended.mp h
  rcases move_new hm hr with hold | ⟨rfl, ⟨payload, rfl, -⟩ | ⟨p, -, -, hcell⟩⟩
  · have hev := move_evolves hm r hold
    refine .inl (mem_unended.mpr ⟨hold, fun hacc => hopen (hev.accepted.mpr hacc), ?_⟩)
    intro hterm
    rw [hev.terminal hterm] at hend
    exact hend hterm
  · exact .inr ⟨rfl, payload, rfl⟩
  · rw [hcell] at hopen
    exact absurd rfl hopen

/-- Only an open adds a stream. -/
theorem card_unended_move (hm : Move t b t') (hb : ∀ payload, b ≠ .openAlloc payload) :
    (unended t').card ≤ (unended t).card := by
  refine Finset.card_le_card ?_
  intro r hr
  rcases unended_move hm hr with hr | ⟨-, payload, hpayload⟩
  · exact hr
  · exact absurd hpayload (hb payload)

theorem card_unended_succ (hm : Move t b t') : (unended t').card ≤ (unended t).card + 1 := by
  refine (Finset.card_le_card ?_).trans (Finset.card_insert_le t.nextRef (unended t))
  intro r hr
  rcases unended_move hm hr with hr | ⟨rfl, -⟩
  · exact Finset.mem_insert_of_mem hr
  · exact Finset.mem_insert_self _ _

/-- A cancelled open has taken its stream out of the map and not reset it yet.
SOURCE: mux_session.go:651-666 -/
def abandoned : OpenPc → Bool
  | .resetting _ => true
  | _ => false

/-- The streams that are out of the map and have not ended. -/
def abandonedStreams (t : Session) : Finset Ref :=
  (unended t).filter fun r => abandoned (t.cells r).openPc

/-- Every other stream that has not ended is in the map.
SOURCE: mux_session.go:269-274, 651-666 -/
theorem card_unended_le (hM : MappedInv t) :
    (unended t).card ≤ t.table.streams.entries.length + (abandonedStreams t).card := by
  have hmapped : ∀ r ∈ unended t \ abandonedStreams t,
      t.table.get (t.cells r).stream.id = some r := by
    intro r hr
    obtain ⟨hr, hkept⟩ := Finset.mem_sdiff.mp hr
    obtain ⟨hlt, -, hend⟩ := mem_unended.mp hr
    refine hM.mapped r hlt ?_
    rintro (hterm | ⟨f, hf⟩)
    · exact hend hterm
    · exact hkept (Finset.mem_filter.mpr ⟨hr, by rw [hf]; rfl⟩)
  have hin : (unended t \ abandonedStreams t).card ≤ t.table.streams.keys.toFinset.card := by
    refine Finset.card_le_card_of_injOn (fun r => (t.cells r).stream.id) ?_ ?_
    · intro r hr
      have hget : (t.table.streams.lookup (t.cells r).stream.id).isSome = true := by
        rw [show t.table.streams.lookup (t.cells r).stream.id = some r from hmapped r hr]
        rfl
      exact List.mem_toFinset.mpr (AList.lookup_isSome.mp hget)
    · intro r hr r' hr' hid
      have hget := hmapped r hr
      rw [show (t.cells r).stream.id = (t.cells r').stream.id from hid, hmapped r' hr'] at hget
      exact (Option.some.inj hget).symm
  have hsub : abandonedStreams t ⊆ unended t := Finset.filter_subset _ _
  calc (unended t).card
      = (unended t \ abandonedStreams t).card + (abandonedStreams t).card :=
        (Finset.card_sdiff_add_card_eq_card hsub).symm
    _ ≤ t.table.streams.keys.length + (abandonedStreams t).card :=
        Nat.add_le_add_right (hin.trans (List.toFinset_card_le _)) _
    _ = t.table.streams.entries.length + (abandonedStreams t).card := by
        simp [AList.keys, List.keys]

/-! ## What a step does -/

variable {s s' : Dispatch} {a : DispatchAction} {pc pc' : DispatchPc}

/-- 1 for a call that is within the limit and has not made its stream. -/
def admitted : DispatchPc → ℤ
  | .openStream _ | .openAlloc _ => 1
  | _ => 0

theorem admitted_nonneg (pc : DispatchPc) : 0 ≤ admitted pc := by
  cases pc <;> simp [admitted]

/-- The limit a call goes by. -/
def limitOf : DispatchPc → Option ℤ
  | .lookup _ maxStreams | .checkLimit _ maxStreams => some maxStreams
  | _ => none

/-- The section of a call. -/
inductive DispatchCallMove (s : Dispatch) : DispatchPc → Session → DispatchPc → Prop
  | mapped (port : ℤ) (e : PortEntry) (h : s.portMap.lookup port = some e) :
      DispatchCallMove s (.route port) s.session (.lookup e.service e.maxStreams)
  | unmapped (port : ℤ) (h : s.portMap.lookup port = none) :
      DispatchCallMove s (.route port) s.session (.lookup "" 0)
  | registered (service : String) (maxStreams : ℤ) :
      DispatchCallMove s (.lookup service maxStreams) s.session (.checkLimit service maxStreams)
  | exceeded (service : String) (maxStreams : ℤ) :
      DispatchCallMove s (.checkLimit service maxStreams) s.session (.overLimit maxStreams)
  | within (service : String) (maxStreams : ℤ)
      (h : ¬ (0 < maxStreams ∧ maxStreams ≤ s.numStreams)) :
      DispatchCallMove s (.checkLimit service maxStreams) s.session
        (.openStream (Relay.openPayload service))
  | openStream (payload : Bytes) (t : Session)
      (h : s.session.step (.openStream payload) = some t) :
      DispatchCallMove s (.openStream payload) t (.openAlloc payload)
  | openAlloc (payload : Bytes) (t : Session) (pc' : DispatchPc)
      (h : s.session.step (.openAlloc payload) = some t)
      (hpc' : (∃ err, pc' = .done err) ∨ ∃ r, pc' = .opening r) :
      DispatchCallMove s (.openAlloc payload) t pc'
  | ended (pc : DispatchPc) (err : Option RouteError) :
      DispatchCallMove s pc s.session (.done err)

/-- What a step of the router and the session does. -/
inductive DispatchMove (s : Dispatch) : DispatchAction → Dispatch → Prop
  | frame (a : DispatchAction) (s' : Dispatch) (hsession : s'.session = s.session)
      (hcalls : s'.calls = s.calls) : DispatchMove s a s'
  | call (port : ℤ) :
      DispatchMove s (.route port) { s with calls := s.calls ++ [.route port] }
  | session (b : Action) (t : Session) (hb : ∀ payload, b ≠ .openAlloc payload)
      (h : s.session.step b = some t) : DispatchMove s (.session b) (s.setSession t)
  | run (i : ℕ) (pc : DispatchPc) (t : Session) (pc' : DispatchPc) (hpc : s.calls[i]? = some pc)
      (h : DispatchCallMove s pc t pc') :
      DispatchMove s (.run i) ((s.setSession t).setCall i pc')
  | returned (a : DispatchAction) (i : ℕ) (pc pc' : DispatchPc) (hpc : s.calls[i]? = some pc)
      (h : (∃ err, pc' = .done err) ∨ ∃ r, pc' = .copying r) : DispatchMove s a (s.setCall i pc')

/-- A section of a call is one of these moves. -/
theorem runDispatch_move (h : s.runCall pc = some (t, pc')) : DispatchCallMove s pc t pc' := by
  cases pc with
  | route port =>
    simp only [Dispatch.runCall] at h
    split at h <;> cases h
    · next e he => exact .mapped port e he
    · next hnone => exact .unmapped port hnone
  | lookup service maxStreams =>
    simp only [Dispatch.runCall] at h
    split at h <;> cases h
    · exact .registered service maxStreams
    · exact .ended _ _
  | checkLimit service maxStreams =>
    simp only [Dispatch.runCall] at h
    split at h <;> cases h
    · exact .exceeded service maxStreams
    · next hlim => exact .within service maxStreams hlim
  | overLimit maxStreams =>
    cases h
    exact .ended _ _
  | openStream payload =>
    simp only [Dispatch.runCall] at h
    split at h
    · cases h
      exact .ended _ _
    · simp only [Option.map_eq_some_iff, Prod.mk.injEq] at h
      obtain ⟨t, hstep, rfl, rfl⟩ := h
      exact .openStream payload t hstep
  | openAlloc payload =>
    simp only [Dispatch.runCall, Option.map_eq_some_iff, Prod.mk.injEq] at h
    obtain ⟨t, hstep, rfl, rfl⟩ := h
    refine .openAlloc payload t _ hstep ?_
    split
    · exact .inl ⟨_, rfl⟩
    · exact .inr ⟨_, rfl⟩
  | opening | copying | done => cases h

/-- Every step is one of these moves. -/
theorem dispatch_move (h : s.step a = some s') : DispatchMove s a s' := by
  cases a with
  | route port =>
    cases h
    exact .call port
  | run i =>
    simp only [Dispatch.step, Option.map_eq_some_iff, Option.bind_eq_some_iff] at h
    obtain ⟨⟨t, pc'⟩, ⟨pc, hpc, hrun⟩, rfl⟩ := h
    exact .run i pc t pc' hpc (runDispatch_move hrun)
  | opened i err =>
    simp only [Dispatch.step] at h
    split at h
    · next _ r hpc =>
      simp only [Option.ite_none_right_eq_some, Option.some.injEq] at h
      obtain ⟨-, rfl⟩ := h
      exact .returned _ i _ _ hpc (.inr ⟨r, rfl⟩)
    · next r e hpc =>
      simp only [Option.ite_none_right_eq_some, Option.some.injEq] at h
      obtain ⟨-, rfl⟩ := h
      exact .returned _ i _ _ hpc (.inl ⟨_, rfl⟩)
    · cases h
  | copied i err =>
    simp only [Dispatch.step] at h
    split at h <;> cases h
    next r hpc => exact .returned _ i _ _ hpc (.inl ⟨_, rfl⟩)
  | session b =>
    cases b with
    | openStream | openAlloc => cases h
    | _ =>
      simp only [Dispatch.step, Option.map_eq_some_iff] at h
      obtain ⟨t, hstep, rfl⟩ := h
      exact .session _ t nofun hstep
  | setRegistered | addPortMapping =>
    cases h
    exact .frame _ _ rfl rfl
  | updatePortMapping | removePortMapping =>
    simp only [Dispatch.step] at h
    split at h <;> cases h <;> exact .frame _ _ rfl rfl

/-! ## Within the limit -/

/-- The port that a call reads is mapped with the limit `m`. -/
def SameLimit (m : ℤ) (s : Dispatch) : DispatchPc → Prop
  | .route port => (s.portMap.lookup port).map (·.maxStreams) = some m
  | _ => True

instance (m : ℤ) (s : Dispatch) (pc : DispatchPc) : Decidable (SameLimit m s pc) := by
  unfold SameLimit
  split <;> infer_instance

/-- A call finds itself within the limit only when there is room for it besides the streams in the
map, the calls between their comparison and the section that makes their stream, and the streams
that cancelled opens have yet to reset; and identifiers go to new streams only when their earlier
streams have settled.
SOURCE: router_impl.go:173-193; mux_session.go:116-141 -/
def LeavesRoom (s : Dispatch) : DispatchPc → Prop
  | .checkLimit _ maxStreams =>
    s.numStreams < maxStreams →
      s.numStreams + (abandonedStreams s.session).card + (s.calls.map admitted).sum < maxStreams
  | .openAlloc payload => ReissuesSettled s.session (.openAlloc payload)
  | _ => True

instance (s : Dispatch) (pc : DispatchPc) : Decidable (LeavesRoom s pc) := by
  unfold LeavesRoom
  split <;> infer_instance

/-- The condition on a step. -/
def AdmitsWithRoom (m : ℤ) (s : Dispatch) : DispatchAction → Prop
  | .run i => ∀ pc ∈ s.calls[i]?, SameLimit m s pc ∧ LeavesRoom s pc
  | .session b => ReissuesSettled s.session b
  | _ => True

instance (m : ℤ) (s : Dispatch) (a : DispatchAction) : Decidable (AdmitsWithRoom m s a) := by
  unfold AdmitsWithRoom
  split <;> infer_instance

/-- The runs of `Route` calls on a new session. -/
abbrev DispatchReach (customerID : String) (portMap : PortMap) (config : MuxConfig)
    (ok : Dispatch → DispatchAction → Prop) : Dispatch → Prop :=
  Reach Dispatch.step ok
    { customerID := customerID, portMap := portMap, session := newMuxSession .relay config }

/-- What a step does to the session is a step of the session. -/
theorem dispatch_session (hok : AdmitsWithRoom m s a) (hm : DispatchMove s a s') :
    s'.session = s.session ∨
      ∃ b, ReissuesSettled s.session b ∧ s.session.step b = some s'.session := by
  cases hm with
  | frame _ _ hsession => exact .inl hsession
  | call | returned => exact .inl rfl
  | session b t hb h => exact .inr ⟨b, hok, h⟩
  | run i pc t pc' hpc h =>
    cases h with
    | openStream payload _ hstep => exact .inr ⟨.openStream payload, trivial, hstep⟩
    | openAlloc payload _ _ hstep => exact .inr ⟨.openAlloc payload, (hok _ hpc).2, hstep⟩
    | _ => exact .inl rfl

theorem session_of_dispatch {customerID : String} {portMap : PortMap} {config : MuxConfig}
    (h : DispatchReach customerID portMap config (AdmitsWithRoom m) s) :
    SessionReach .relay config ReissuesSettled s.session := by
  refine Reach.invariant
    (fun s : Dispatch => SessionReach .relay config ReissuesSettled s.session) h .refl ?_
  intro s a s' _ hreach hok hstep
  rcases dispatch_session hok (dispatch_move hstep) with heq | ⟨b, hb, hstep⟩
  · rw [heq]
    exact hreach
  · exact hreach.tail hb hstep

/-- The streams that have not ended and the calls about to add one are at most the limit. -/
structure WithinLimit (m : ℤ) (s : Dispatch) : Prop where
  limits : ∀ pc ∈ s.calls, ∀ k, limitOf pc = some k → k = m
  bound : (unended s.session).card + (s.calls.map admitted).sum ≤ m

/-- A call's section leaves the streams and the calls about to add one within the limit. -/
theorem bound_run (hm : 0 < m) (hM : MappedInv s.session) (hI : WithinLimit m s) {i : ℕ}
    (hpc : s.calls[i]? = some pc) (hok : LeavesRoom s pc) (h : DispatchCallMove s pc t pc') :
    (unended t).card + ((s.calls.set i pc').map admitted).sum ≤ m := by
  have hbound := hI.bound
  rw [sum_map_set admitted hpc]
  cases h with
  | within service maxStreams hlim =>
    obtain rfl := hI.limits _ (List.mem_of_getElem? hpc) maxStreams rfl
    have hroom : (s.numStreams : ℤ) < maxStreams := by omega
    have hfree := hok hroom
    have hcard := card_unended_le hM
    simp only [admitted, Dispatch.numStreams] at hfree ⊢
    omega
  | openStream payload _ hstep =>
    have hcard := card_unended_move (step_move hstep) nofun
    simp only [admitted]
    omega
  | openAlloc payload _ _ hstep hpc' =>
    have hcard := card_unended_succ (step_move hstep)
    have hzero : admitted pc' = 0 := by
      rcases hpc' with ⟨err, rfl⟩ | ⟨r, rfl⟩ <;> rfl
    have hone : admitted (.openAlloc payload) = 1 := rfl
    omega
  | ended _ err =>
    have hnonneg := admitted_nonneg pc
    have hzero : admitted (.done err) = 0 := rfl
    omega
  | mapped | unmapped | registered | exceeded =>
    simp only [admitted]
    omega

/-- A call compares with the limit of its port. -/
theorem limits_run (hI : WithinLimit m s) {i : ℕ} (hpc : s.calls[i]? = some pc)
    (hok : SameLimit m s pc) (h : DispatchCallMove s pc t pc') {k : ℤ}
    (hk : limitOf pc' = some k) : k = m := by
  cases h with
  | mapped port e he =>
    cases hk
    simpa [SameLimit, he] using hok
  | unmapped port hnone => simp [SameLimit, hnone] at hok
  | registered service maxStreams => exact hI.limits _ (List.mem_of_getElem? hpc) k hk
  | openAlloc _ _ _ _ hpc' => rcases hpc' with ⟨err, rfl⟩ | ⟨r, rfl⟩ <;> cases hk
  | exceeded | within | openStream | ended => cases hk

/-- No step goes beyond the limit. -/
theorem withinLimit_move (hm : 0 < m) (hM : MappedInv s.session) (hI : WithinLimit m s)
    (hok : AdmitsWithRoom m s a) (hmove : DispatchMove s a s') : WithinLimit m s' := by
  cases hmove with
  | frame _ _ hsession hcalls =>
    refine ⟨?_, ?_⟩
    · rw [hcalls]
      exact hI.limits
    · rw [hsession, hcalls]
      exact hI.bound
  | call port =>
    refine ⟨?_, ?_⟩
    · intro pc hpc k hk
      rcases List.mem_append.mp hpc with hpc | hpc
      · exact hI.limits pc hpc k hk
      · rw [List.mem_singleton.mp hpc] at hk
        cases hk
    · simpa [admitted] using hI.bound
  | session b t hb h =>
    have hcard := card_unended_move (step_move h) hb
    have hbound := hI.bound
    refine ⟨hI.limits, ?_⟩
    simp only [Dispatch.setSession_session, Dispatch.setSession_calls]
    omega
  | run i pc t pc' hpc h =>
    obtain ⟨hsame, hroom⟩ := hok pc hpc
    refine ⟨?_, bound_run hm hM hI hpc hroom h⟩
    intro q hq k hk
    rcases List.mem_or_eq_of_mem_set hq with hq | rfl
    · exact hI.limits q hq k hk
    · exact limits_run hI hpc hsame h hk
  | returned _ i pc pc' hpc h =>
    have hzero : admitted pc' = 0 ∧ limitOf pc' = none := by
      rcases h with ⟨err, rfl⟩ | ⟨r, rfl⟩ <;> exact ⟨rfl, rfl⟩
    have hnonneg := admitted_nonneg pc
    have hbound := hI.bound
    refine ⟨?_, ?_⟩
    · intro q hq k hk
      rcases List.mem_or_eq_of_mem_set hq with hq | rfl
      · exact hI.limits q hq k hk
      · rw [hzero.2] at hk
        cases hk
    · simp only [Dispatch.setCall_session, Dispatch.setCall_calls, sum_map_set admitted hpc,
        hzero.1]
      omega

/-- The streams that `Route` has opened on the session and that have not ended are at most the
limit that all mappings carry: in every run in which a call finds itself within the limit only when
there is room besides for those about to add a stream, and in which identifiers are handed out only
when their earlier streams have settled.
SOURCE: router_impl.go:157-196; mux_session.go:111-141, 269-274 -/
theorem streams_within_customer_limit {customerID : String} {portMap : PortMap} {config : MuxConfig}
    {m : ℤ} (hm : 0 < m) (h : DispatchReach customerID portMap config (AdmitsWithRoom m) s) :
    (unended s.session).card ≤ m := by
  have hI : WithinLimit m s := by
    refine Reach.invariant (WithinLimit m) h ⟨nofun, ?_⟩ ?_
    · simpa [unended, newMuxSession] using hm.le
    · intro s a s' hr hI hok hstep
      exact withinLimit_move hm (mappedInv_reach (session_of_dispatch hr)) hI hok
        (dispatch_move hstep)
  have hnonneg : 0 ≤ (s.calls.map admitted).sum := by
    refine List.sum_nonneg ?_
    intro x hx
    obtain ⟨pc, -, rfl⟩ := List.mem_map.mp hx
    exact admitted_nonneg pc
  have hbound := hI.bound
  omega

/-- Port 8080 of acme, with a limit of `m` streams. -/
def limitedPort (m : ℤ) : PortMap := PortMap.addPortMapping ∅ "acme" 8080 "http" "0.0.0.0" m

/-- A call up to where it is within the limit. -/
def admitRun (i : ℕ) : List DispatchAction := [.run i, .run i, .run i]

/-- The rest of its way to a stream of its own, whose STREAM_OPEN is queued. -/
def openOneRun (i : ℕ) (r : Ref) : List DispatchAction :=
  [.run i, .run i, .session (.opening r .register), .session (.opening r .enqueue)]

/-- Two calls that overlap get the two streams there is room for, and a third gets none. -/
theorem streams_within_customer_limit_third :
    ∃ s, DispatchReach "acme" (limitedPort 2) ⟨50, 65536, 65536⟩ (AdmitsWithRoom 2) s ∧
      s.calls = [.opening 0, .opening 1, .done (some (.streamLimit "acme" 2 2))] ∧
      (unended s.session).card ≤ (2 : ℤ) := by
  have hex : ∃ s, DispatchReach "acme" (limitedPort 2) ⟨50, 65536, 65536⟩ (AdmitsWithRoom 2) s ∧
      s.calls = [.opening 0, .opening 1, .done (some (.streamLimit "acme" 2 2))] :=
    exists_reach_of_exec ([DispatchAction.route 8080, .route 8080, .route 8080] ++ admitRun 0 ++
      admitRun 1 ++ openOneRun 0 0 ++ openOneRun 1 1 ++ admitRun 2 ++ [DispatchAction.run 2]) _
      (by decide +kernel)
  obtain ⟨s, hs, hcalls⟩ := hex
  exact ⟨s, hs, hcalls, streams_within_customer_limit (by decide) hs⟩

/-- Two calls compare before either has made its stream, and both get one. -/
theorem streams_beyond_customer_limit :
    ∃ s, DispatchReach "acme" (limitedPort 1) ⟨50, 65536, 65536⟩ anyStep s ∧
      s.calls = [.opening 0, .opening 1] ∧ (unended s.session).card = 2 :=
  exists_reach_of_exec ([DispatchAction.route 8080, .route 8080] ++ admitRun 0 ++ admitRun 1 ++
    openOneRun 0 0 ++ openOneRun 1 1) _ (by decide +kernel)

end Atlax.Analysis
