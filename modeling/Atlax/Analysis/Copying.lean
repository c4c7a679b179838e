import Atlax.Analysis.CopyMoves
import Atlax.Analysis.Mirror

/-!
# A connection that is copied with patience

The end of either direction of `copyBidirectional` ends both: the client's connection is closed
and the stream is reset, with whatever is still under way. Here are the runs in which nobody ends
before the transfers are over, and what they keep: the order in which the goroutines end, what has
become of the bytes that the client sent and of those that were read from the stream, and that the
stream is reset by nobody but the goroutine that waits for the context.
-/

set_option autoImplicit false

namespace Atlax.Analysis

open Atlax.Model Atlax.Library

variable {b : Action} {c c' : Cell}

/-! ## The runs -/

/-- What the holder of the agent's stream does: it writes `r`, one Write after the other, and
closes; it does not reset. -/
def AgentCalls (r : Bytes) (c : Cell) : Call → Prop
  | .write data => c.writers = [] ∧ c.hist.wrote ++ data <+: r
  | .close => c.writers = [] ∧ c.hist.wrote = r
  | .reset _ => False
  | .writeSend _ | .writeFail _ | .read _ => True

instance (r : Bytes) (c : Cell) (k : Call) : Decidable (AgentCalls r c k) := by
  unfold AgentCalls
  split <;> infer_instance

/-- The stream of the agent that was made for the relay's stream `v`. -/
def IsPeer (P : Proxy) (v u : Ref) : Prop :=
  u < (P.sys.sess .agent).nextRef ∧ ((P.sys.sess .agent).cells u).conv = some ⟨.relay, v⟩

instance (P : Proxy) (v u : Ref) : Decidable (IsPeer P v u) := inferInstanceAs (Decidable (_ ∧ _))

/-- No session ends, and the agent writes `r` on its stream and then closes it. -/
def Faultless (v : Ref) (r : Bytes) (P : Proxy) : ProxyAction → Prop
  | .sys _ .closeSession | .sys _ .transmitFail => False
  | .sys .agent (.call u k) => IsPeer P v u → AgentCalls r ((P.sys.sess .agent).cells u) k
  | _ => True

instance (v : Ref) (r : Bytes) (P : Proxy) (a : ProxyAction) : Decidable (Faultless v r P a) := by
  unfold Faultless
  split <;> infer_instance

/-- The sessions below hand out identifiers quiet and remove streams that the peer knows to have
ended. -/
def TidySystem (P : Proxy) : ProxyAction → Prop
  | .sys X a => Tidy P.sys (X, a)
  | _ => True

instance (P : Proxy) (a : ProxyAction) : Decidable (TidySystem P a) := by
  unfold TidySystem
  split <;> infer_instance

/-- The agent closes its stream only when it has read all that the client sends. -/
def ClosesAfterReading (v : Ref) (w : Bytes) (P : Proxy) : ProxyAction → Prop
  | .sys .agent (.call u .close) => IsPeer P v u → ((P.sys.sess .agent).cells u).hist.got = w
  | _ => True

instance (v : Ref) (w : Bytes) (P : Proxy) (a : ProxyAction) :
    Decidable (ClosesAfterReading v w P a) := by
  unfold ClosesAfterReading
  split <;> infer_instance

/-- The client ends its sending side only when both transfers are over. -/
def EndsAfterBoth (v : Ref) (w r : Bytes) (P : Proxy) : ProxyAction → Prop
  | .clientEnd => P.started = true ∧ P.clientConn.received = r ∧
    ∃ u < (P.sys.sess .agent).nextRef, IsPeer P v u ∧ ((P.sys.sess .agent).cells u).hist.got = w
  | _ => True

instance (v : Ref) (w r : Bytes) (P : Proxy) (a : ProxyAction) :
    Decidable (EndsAfterBoth v w r P a) := by
  unfold EndsAfterBoth
  split <;> infer_instance

/-- Nobody ends before the transfers are over. -/
structure Patient (v : Ref) (w r : Bytes) (P : Proxy) (a : ProxyAction) : Prop where
  faultless : Faultless v r P a
  tidy : TidySystem P a
  closes : ClosesAfterReading v w P a
  ends : EndsAfterBoth v w r P a

instance (v : Ref) (w r : Bytes) (P : Proxy) (a : ProxyAction) : Decidable (Patient v w r P a) :=
  decidable_of_iff (Faultless v r P a ∧ TidySystem P a ∧ ClosesAfterReading v w P a ∧
    EndsAfterBoth v w r P a) ⟨fun ⟨h₁, h₂, h₃, h₄⟩ => ⟨h₁, h₂, h₃, h₄⟩,
      fun ⟨h₁, h₂, h₃, h₄⟩ => ⟨h₁, h₂, h₃, h₄⟩⟩

variable {config : Role → MuxConfig} {v : Ref} {w r : Bytes} {P P' : Proxy} {a : ProxyAction}
    {k : Call} {X : Role} {x : Ref}

/-- What a step of the copying is for the sessions: nothing, a call on the stream, or any step
that is not one. -/
theorem CopyMove.system (hm : CopyMove v P a P') :
    P'.sys = P.sys ∨ ∃ X b, P.sys.step (X, b) = some P'.sys ∧
      (a = .sys X b ∧ ownCall v X b = false ∨ X = .relay ∧ ∃ k, b = .call v k) := by
  cases hm with
  | sys X b S hown h => exact .inr ⟨X, b, h, .inl ⟨rfl, hown⟩⟩
  | readOut _ _ S h | eofOut _ _ S h | writeIn _ _ _ _ S h | sendIn _ _ _ _ S h
  | failIn _ _ _ S h | resetStream _ _ S h => exact .inr ⟨.relay, _, h, .inr ⟨rfl, _, rfl⟩⟩
  | _ => exact .inl rfl

/-- No session closes. -/
theorem system_running {S S' : System} (hm : SysMove S X b S')
    (hclose : b ≠ .closeSession) (hfail : b ≠ .transmitFail)
    (h : ∀ Y, (S.sess Y).closing = .running) (Y : Role) : (S'.sess Y).closing = .running := by
  rcases hm.sess Y with ⟨_, hmove⟩ | heq
  · exact move_keeps_running hmove hclose hfail (h Y)
  · rw [heq]
    exact h Y

/-- The sessions below a patient run, tidy and running. -/
theorem patient_system (h : ProxyReach v config w (Patient v w r) P) :
    SystemReach config Tidy P.sys ∧ ∀ X, (P.sys.sess X).closing = .running := by
  refine Reach.invariant
    (fun P => SystemReach config Tidy P.sys ∧ ∀ X, (P.sys.sess X).closing = .running) h ?_ ?_
  · exact ⟨.refl, fun _ => rfl⟩
  · rintro P a P' _ ⟨hS, hrun⟩ hok hstep
    rcases (copy_move hstep).system with heq | ⟨X, b, hb, ⟨rfl, _⟩ | ⟨rfl, k, rfl⟩⟩
    · rw [heq]
      exact ⟨hS, hrun⟩
    · refine ⟨.tail hS hok.tidy hb, system_running (system_move hb) ?_ ?_ hrun⟩
      · rintro rfl
        exact hok.faultless
      · rintro rfl
        exact hok.faultless
    · have htidy : Tidy P.sys (.relay, .call v k) := ⟨trivial, trivial⟩
      exact ⟨.tail hS htidy hb, system_running (system_move hb) (by simp) (by simp) hrun⟩

theorem patient_quiet (h : ProxyReach v config w (Patient v w r) P) :
    SystemReach config ReissuesQuiet P.sys :=
  (patient_system h).1.mono fun _ _ => And.left

theorem patient_orderly (h : ProxyReach v config w (Patient v w r) P) : Orderly P.sys :=
  orderly_reach (patient_quiet h)

/-! ## The goroutines among themselves -/

/-- The goroutine is past its `cancel()`. -/
def cancelledOut : OutPc → Bool
  | .report _ | .returned => true
  | .read | .write _ | .ended _ => false

@[inherit_doc cancelledOut]
def cancelledIn : InPc → Bool
  | .report _ | .returned => true
  | .read | .write _ | .send _ | .ended _ => false

/-- The goroutines that have reported have cancelled the context, and only then is the connection
closed. -/
structure Staged (P : Proxy) : Prop where
  out : cancelledOut P.copyOut = true → P.cancelled = true
  into : cancelledIn P.copyIn = true → P.cancelled = true
  errs : P.errCh ≠ [] → P.cancelled = true
  watch : P.watch ≠ .wait → P.cancelled = true
  closed : P.clientConn.closed = true ↔ P.watch ≠ .wait

/-- cancel() comes before the report. -/
theorem staged_move (h : Staged P) (hm : CopyMove v P a P') : Staged P' := by
  obtain ⟨hout, hinto, herrs, hwatch, hclosed⟩ := h
  cases hm with
  | sys | start | clientSend | clientEnd => exact ⟨hout, hinto, herrs, hwatch, hclosed⟩
  | readOut | eofOut | writeOut | failOut => exact ⟨nofun, hinto, herrs, hwatch, hclosed⟩
  | readIn | eofIn | closedIn | writeIn | refusedIn | sendIn | failIn =>
    exact ⟨hout, nofun, herrs, hwatch, hclosed⟩
  | endOut | endIn => exact ⟨fun _ => rfl, fun _ => rfl, fun _ => rfl, fun _ => rfl, hclosed⟩
  | reportOut _ err hpc =>
    have hc := hout (by simp [hpc, cancelledOut])
    exact ⟨fun _ => hc, hinto, fun _ => hc, hwatch, hclosed⟩
  | reportIn _ _ err hpc =>
    have hc := hinto (by simp [hpc, cancelledIn])
    exact ⟨hout, fun _ => hc, fun _ => hc, hwatch, hclosed⟩
  | closeConn _ _ hc => exact ⟨fun _ => hc, fun _ => hc, fun _ => hc, fun _ => hc, by simp⟩
  | resetStream _ hpc =>
    have hne : P.watch ≠ .wait := by simp [hpc]
    exact ⟨hout, hinto, herrs, fun _ => hwatch hne, by simpa using hclosed.mpr hne⟩

/-- In every run. -/
theorem staged_reach {ok : Proxy → ProxyAction → Prop} (h : ProxyReach v config w ok P) :
    Staged P := by
  refine Reach.invariant Staged h ?_ fun _ _ _ _ hI _ hstep => staged_move hI (copy_move hstep)
  exact ⟨nofun, nofun, fun h => absurd rfl h, fun h => absurd rfl h, by simp [newProxy]⟩

/-! ## The stream before and during the copying -/

/-- What only callers change. -/
def SameCalls (c c' : Cell) : Prop :=
  c'.hist.wrote = c.hist.wrote ∧ c'.writers = c.writers ∧ c'.hist.got = c.hist.got ∧
    c'.hist.closedAt = c.hist.closedAt

theorem cell_sameCalls {rd : ReaderPc}
    (hm : CellMove b rd x c c') (hb : ∀ k, b ≠ .call x k) : SameCalls c c' := by
  cases hm with
  | call k c' ha => exact absurd ha (hb k)
  | drain d _ c' p _ hc => cases hc <;> exact ⟨rfl, rfl, rfl, rfl⟩
  | _ => exact ⟨rfl, rfl, rfl, rfl⟩

/-- A stream that somebody resets was reset by a call, or by its own open. -/
theorem move_aborted {s s' : Session} (hown : OwnershipInv s) (hm : Move s b s')
    (hx : x < s.nextRef) (hcall : ∀ code, b ≠ .call x (.reset code))
    (hrun : s.closing = .running) (h : (s'.cells x).hist.aborted = true) :
    (s.cells x).hist.aborted = true ∨ (s'.cells x).openPc = .failed := by
  by_cases hopen : ∃ y, b = .opening y .reset
  · obtain ⟨y, rfl⟩ := hopen
    cases hm with
    | openReset _ hy found hpc =>
      have hfound := hown.found y hy found hpc
      subst hfound
      by_cases hxy : x = found
      · subst hxy
        right
        simp [Cell.reset]
      · left
        simpa [hxy] using h
  · have hclosing : b ≠ .closing := by
      rintro rfl
      cases hm with
      | closingQueue hc | closingStreams hc | closingTransport hc =>
        rw [hrun] at hc
        cases hc
    have hc := move_cell hm hx
    generalize s'.cells x = c' at h hc ⊢
    cases hc with
    | call k c' ha _ hc =>
      left
      cases hc with
      | close =>
        simp only [Cell.close] at h
        split at h <;> exact h
      | reset code => exact absurd ha (hcall code)
      | _ => exact h
    | drain d _ c' p _ hc => cases hc <;> exact .inl h
    | resetLocal ha =>
      rcases ha with ha | ⟨y, ha⟩
      · exact absurd ha hclosing
      · exact absurd ⟨y, ha⟩ hopen
    | openFailedReset => exact .inr rfl
    | _ => exact .inl h

/-- The stream before `copyBidirectional` is called: nobody has used it, and only its own open can
have reset it. The client may have sent something already. -/
structure Before (v : Ref) (w : Bytes) (P : Proxy) : Prop where
  sent : P.clientConn.inbound ++ P.clientConn.unsent = w
  client : P.clientConn.ended = false ∧ P.clientConn.received = [] ∧ P.clientConn.closed = false
  pcs : P.copyOut = .read ∧ P.copyIn = .read ∧ P.watch = .wait ∧ P.cancelled = false
  unused : v < (P.sys.sess .relay).nextRef →
    SameCalls { stream := { id := 0 } } ((P.sys.sess .relay).cells v)
  aborted : v < (P.sys.sess .relay).nextRef →
    ((P.sys.sess .relay).cells v).hist.aborted = true →
    ((P.sys.sess .relay).cells v).openPc = .failed

theorem SameCalls.trans {c₁ c₂ c₃ : Cell} (h : SameCalls c₁ c₂) (h' : SameCalls c₂ c₃) :
    SameCalls c₁ c₃ :=
  ⟨h'.1.trans h.1, h'.2.1.trans h.2.1, h'.2.2.1.trans h.2.2.1, h'.2.2.2.trans h.2.2.2⟩

theorem not_ownCall (h : ownCall v X b = false) (hX : X = .relay) :
    ∀ k, b ≠ .call v k := by
  rintro k rfl
  subst hX
  simp [ownCall] at h

theorem cell_failed {rd : ReaderPc}
    (hm : CellMove b rd x c c') (h : c.openPc = .failed ∨ c.openPc = .returned) :
    c'.openPc = c.openPc := by
  cases hm with
  | call k c' _ _ hc => exact call_openPc hc
  | drain d _ c' p _ hc => exact drain_openPc hc
  | register hpc | sendOpen _ hpc | openAck hpc | openCancel hpc | openClosed hpc
  | openRemoveNone hpc | openCleanup _ hpc | openRemove _ hpc | openFailed _ hpc
  | openFailedReset hpc =>
    rw [hpc] at h
    rcases h with h | h <;> cases h
  | _ => rfl

/-- Before it starts, nothing is copied. -/
theorem before_reach (h : ProxyReach v config w (Patient v w r) P) :
    P.started = false → Before v w P := by
  refine Reach.invariant (fun P => P.started = false → Before v w P) h ?_ ?_
  · intro _
    exact ⟨rfl, ⟨rfl, rfl, rfl⟩, ⟨rfl, rfl, rfl, rfl⟩, nofun, nofun⟩
  · rintro P a P' hP hI hok hstep hs'
    have hP' : ProxyReach v config w (Patient v w r) P' := .tail hP hok hstep
    have hm := copy_move hstep
    cases hm with
    | sys X b S hown hb =>
      obtain ⟨hsent, hclient, hpcs, hunused, habort⟩ := hI hs'
      obtain ⟨hS, hrun⟩ := patient_system hP
      have hO := patient_orderly hP
      have hO' := patient_orderly hP'
      refine ⟨hsent, hclient, hpcs, fun hv => ?_, fun hv ha => ?_⟩
      · rcases (system_move hb).sess .relay with ⟨rfl, hmove⟩ | heq
        · by_cases hold : v < (P.sys.sess .relay).nextRef
          · exact (hunused hold).trans
              (cell_sameCalls (move_cell hmove hold) (not_ownCall hown rfl))
          · have hu := (hO'.cell .relay v hv).unheld (move_new_cell hmove hv hold).1
            exact ⟨hu.wrote, hu.writers, hu.got, hu.closedAt⟩
        · simp only [heq] at hv ⊢
          exact hunused hv
      · rcases (system_move hb).sess .relay with ⟨rfl, hmove⟩ | heq
        · rcases move_new hmove hv with hold | ⟨_, ⟨_, _, hc⟩ | ⟨_, _, _, hc⟩⟩
          · have hcall := not_ownCall hown rfl
            rcases move_aborted (hO.owned .relay) hmove hold (fun code => hcall (.reset code))
              (hrun .relay) ha with ha | hpc
            · have hpc := habort hold ha
              exact (cell_failed (move_cell hmove hold) (.inl hpc)).trans hpc
            · exact hpc
          · rw [hc] at ha
            cases ha
          · rw [hc] at ha
            cases ha
        · simp only [heq] at hv ha ⊢
          exact habort hv ha
    | clientSend n =>
      obtain ⟨hsent, hclient, hpcs, hunused, habort⟩ := hI hs'
      refine ⟨?_, hclient, hpcs, hunused, habort⟩
      rw [List.append_assoc, List.take_append_drop]
      exact hsent
    | clientEnd => exact absurd (hok.ends.1.symm.trans hs') (by simp)
    | start => cases hs'
    | readOut hs | eofOut hs | writeOut hs | failOut hs | endOut hs | reportOut hs | readIn hs
    | eofIn hs | closedIn hs | writeIn hs | refusedIn hs | sendIn hs | failIn hs | endIn hs
    | reportIn hs | closeConn hs | resetStream hs => exact absurd (hs.symm.trans hs') (by simp)

/-- What `io.Copy(stream, clientConn)` has read and not written yet. -/
def carriedIn : InPc → Bytes
  | .write data | .send data => data
  | .read | .ended _ | .report _ | .returned => []

/-- Its Write that is past the state check. -/
def sendingIn : InPc → List Bytes
  | .send data => [data]
  | .read | .write _ | .ended _ | .report _ | .returned => []

/-- The copy to the stream has come to its end. -/
def overIn : InPc → Bool
  | .ended _ | .report _ | .returned => true
  | .read | .write _ | .send _ => false

/-- What `io.Copy(clientConn, stream)` has read and not written yet. -/
def carriedOut : OutPc → Bytes
  | .write data => data
  | .read | .ended _ | .report _ | .returned => []

/-- The copy to the client has come to its end. -/
def overOut : OutPc → Bool
  | .ended _ | .report _ | .returned => true
  | .read | .write _ => false

/-- OpenStream has returned the stream. -/
structure Held (S : System) (v : Ref) : Prop where
  lt : v < (S.sess .relay).nextRef
  returned : ((S.sess .relay).cells v).openPc = .returned
  handle : ((S.sess .relay).cells v).handle = true

/-- The stream stays in the router's hands. -/
theorem Held.move {S S' : System} (h : Held S v) (hm : SysMove S X b S') :
    Held S' v := by
  refine ⟨Nat.lt_of_lt_of_le h.lt (hm.nextRef _), ?_, (hm.evolves h.lt).handle h.handle⟩
  rcases hm.sess .relay with ⟨_, hmove⟩ | heq
  · exact (cell_failed (move_cell hmove h.lt) (.inr h.returned)).trans h.returned
  · rw [heq]
    exact h.returned

/-- During the copying: what the client sends is what is written on the stream and what is on its
way there, and what is read from the stream is what the client has received and what is on its way
to it, until the connection is closed. The relay does not close the stream. -/
structure Accounted (w : Bytes) (c : Cell) (P : Proxy) : Prop where
  closedAt : c.hist.closedAt = none
  writers : c.writers = sendingIn P.copyIn
  sub : c.hist.wrote <+: w
  sent : overIn P.copyIn = false →
    c.hist.wrote ++ carriedIn P.copyIn ++ P.clientConn.inbound ++ P.clientConn.unsent = w
  got : P.clientConn.closed = false →
    P.clientConn.received ++ carriedOut P.copyOut = c.hist.got

/-- What the client sends is on its way to the stream. -/
structure Flow (v : Ref) (w : Bytes) (P : Proxy) : Prop where
  held : Held P.sys v
  accounted : Accounted w ((P.sys.sess .relay).cells v) P

/-- copyBidirectional starts.
SOURCE: router_impl.go:219-224 -/
theorem flow_start (h : Before v w P) (hh : Held P.sys v) :
    Flow v w { P with started := true } := by
  obtain ⟨hsent, ⟨_, hrec, _⟩, ⟨hout, hinto, _, _⟩, hunused, _⟩ := h
  obtain ⟨hwrote, hwriters, hgot, hclosed⟩ := hunused hh.lt
  refine ⟨hh, hclosed, ?_, ?_, fun _ => ?_, fun _ => ?_⟩
  · simpa [hinto, sendingIn] using hwriters
  · rw [hwrote]
    exact List.nil_prefix
  · simpa [hwrote, hinto, carriedIn] using hsent
  · simpa [hrec, hout, carriedOut] using hgot.symm

/-- Steps of the sessions and of the client. -/
theorem flow_outside (h : Flow v w P) (hm : CopyMove v P a P')
    (ha : (∃ X b, a = .sys X b) ∨ (∃ n, a = .clientSend n) ∨ a = .clientEnd ∨ a = .start) :
    Flow v w P' := by
  obtain ⟨hheld, hclosed, hwriters, hsub, hsent, hgot⟩ := h
  cases hm with
  | sys X b S hown hb =>
    have hmove := system_move hb
    have hsame : SameCalls ((P.sys.sess .relay).cells v) ((S.sess .relay).cells v) := by
      rcases hmove.sess .relay with ⟨hX, hmv⟩ | heq
      · exact cell_sameCalls (move_cell hmv hheld.lt) (not_ownCall hown hX.symm)
      · rw [heq]
        exact ⟨rfl, rfl, rfl, rfl⟩
    obtain ⟨hw, hwr, hg, hcl⟩ := hsame
    exact ⟨hheld.move hmove, hcl.trans hclosed, hwr.trans hwriters, hw ▸ hsub,
      fun ho => hw ▸ hsent ho, fun hc => hg ▸ hgot hc⟩
  | start | clientEnd => exact ⟨hheld, hclosed, hwriters, hsub, hsent, hgot⟩
  | clientSend n =>
    refine ⟨hheld, hclosed, hwriters, hsub, fun ho => ?_, hgot⟩
    have hall := hsent ho
    simpa [List.append_assoc] using hall
  | _ => simp at ha

/-- Steps of the copy to the client and of the goroutine that ends both. -/
theorem flow_out (h : Flow v w P) (hm : CopyMove v P a P') (ha : a = .copyOut ∨ a = .watch) :
    Flow v w P' := by
  obtain ⟨hheld, hclosed, hwriters, hsub, hsent, hgot⟩ := h
  cases hm with
  | readOut _ hpc S hb hne =>
    refine ⟨hheld.move (system_move hb), ?_⟩
    have hcell := system_call hb
    generalize (S.sess .relay).cells v = c' at hcell ⊢
    cases hcell with
    | readEof _ hnil => exact absurd hnil hne
    | readBytes =>
      refine ⟨hclosed, hwriters, hsub, hsent, fun hc => ?_⟩
      have hrec := hgot hc
      rw [hpc, carriedOut, List.append_nil] at hrec
      rw [hrec]
      rfl
  | eofOut _ hpc S hb heof =>
    refine ⟨hheld.move (system_move hb), ?_⟩
    have hcell := system_call hb
    generalize (S.sess .relay).cells v = c' at hcell ⊢
    cases hcell with
    | readEof =>
      exact ⟨hclosed, hwriters, hsub, hsent, fun hc => by simpa [hpc, carriedOut] using hgot hc⟩
    | readBytes _ hne => exact absurd (read_eof heof).1 hne
  | writeOut _ data hpc =>
    refine ⟨hheld, hclosed, hwriters, hsub, hsent, fun hc => ?_⟩
    have hrec := hgot hc
    rw [hpc] at hrec
    simpa [carriedOut] using hrec
  | failOut _ data _ hcl =>
    refine ⟨hheld, hclosed, hwriters, hsub, hsent, fun hc => ?_⟩
    exact absurd (hcl.symm.trans hc) (by simp)
  | endOut _ err hpc | reportOut _ err hpc =>
    exact ⟨hheld, hclosed, hwriters, hsub, hsent,
      fun hc => by simpa [hpc, carriedOut] using hgot hc⟩
  | closeConn => exact ⟨hheld, hclosed, hwriters, hsub, hsent, nofun⟩
  | resetStream _ _ S hb =>
    refine ⟨hheld.move (system_move hb), ?_⟩
    have hcell := system_call hb
    generalize (S.sess .relay).cells v = c' at hcell ⊢
    cases hcell with
    | reset => exact ⟨hclosed, hwriters, hsub, hsent, hgot⟩
  | _ => simp at ha

/-- Steps of the copy to the stream. -/
theorem flow_in (h : Flow v w P) (hm : CopyMove v P a P')
    (ha : (∃ n, a = .copyIn n) ∨ a = .copyInFail) : Flow v w P' := by
  obtain ⟨hheld, hclosed, hwriters, hsub, hsent, hgot⟩ := h
  cases hm with
  | readIn _ n hpc =>
    rw [hpc] at hwriters hsent
    refine ⟨hheld, hclosed, hwriters, hsub, fun _ => ?_, hgot⟩
    simpa [carriedIn] using hsent rfl
  | eofIn _ _ hpc | closedIn _ _ hpc | endIn _ _ err hpc | reportIn _ _ err hpc
  | refusedIn _ _ data hpc =>
    rw [hpc] at hwriters
    exact ⟨hheld, hclosed, hwriters, hsub, nofun, hgot⟩
  | writeIn _ _ data hpc S hb hopen =>
    rw [hpc] at hwriters hsent
    refine ⟨hheld.move (system_move hb), ?_⟩
    have hcell := system_call hb
    generalize (S.sess .relay).cells v = c' at hcell ⊢
    cases hcell with
    | writeRefused _ hcl => exact absurd (hcl.symm.trans hopen) (by simp)
    | write =>
      refine ⟨hclosed, ?_, hsub, fun _ => hsent rfl, hgot⟩
      simp [hwriters, sendingIn]
  | sendIn _ _ data hpc S hb =>
    rw [hpc] at hwriters hsent
    have hall := hsent rfl
    refine ⟨hheld.move (system_move hb), ?_⟩
    have hcell := system_call hb
    generalize (S.sess .relay).cells v = c' at hcell ⊢
    cases hcell with
    | writeSend =>
      refine ⟨hclosed, ?_, ?_, fun _ => ?_, hgot⟩
      · simp [hwriters, sendingIn]
      · rw [← hall, List.append_assoc _ P.clientConn.inbound]
        exact List.prefix_append _ _
      · simpa [carriedIn] using hall
  | failIn _ data hpc S hb =>
    rw [hpc] at hwriters
    refine ⟨hheld.move (system_move hb), ?_⟩
    have hcell := system_call hb
    generalize (S.sess .relay).cells v = c' at hcell ⊢
    cases hcell with
    | writeFail =>
      refine ⟨hclosed, ?_, hsub, nofun, hgot⟩
      simp [hwriters, sendingIn]
  | _ => simp at ha

/-- Nothing of it is lost in any run. -/
theorem flow_reach (h : ProxyReach v config w (Patient v w r) P) (hs : P.started = true) :
    Flow v w P := by
  refine Reach.invariant (fun P => P.started = true → Flow v w P) h nofun ?_ hs
  rintro P a P' hP hI hok hstep hs'
  have hm := copy_move hstep
  cases hstart : P.started with
  | true =>
    have hF := hI hstart
    cases a with
    | sys X b => exact flow_outside hF hm (.inl ⟨X, b, rfl⟩)
    | start => exact flow_outside hF hm (.inr (.inr (.inr rfl)))
    | clientSend n => exact flow_outside hF hm (.inr (.inl ⟨n, rfl⟩))
    | clientEnd => exact flow_outside hF hm (.inr (.inr (.inl rfl)))
    | copyOut => exact flow_out hF hm (.inl rfl)
    | watch => exact flow_out hF hm (.inr rfl)
    | copyIn n => exact flow_in hF hm (.inl ⟨n, rfl⟩)
    | copyInFail => exact flow_in hF hm (.inr rfl)
  | false =>
    cases hm with
    | start _ hv hpc hh => exact flow_start (before_reach hP hstart) ⟨hv, hpc, hh⟩
    | readOut hs | eofOut hs | writeOut hs | failOut hs | endOut hs | reportOut hs | readIn hs
    | eofIn hs | closedIn hs | writeIn hs | refusedIn hs | sendIn hs | failIn hs | endIn hs
    | reportIn hs | closeConn hs | resetStream hs => exact absurd (hstart.symm.trans hs) (by simp)
    | _ => exact absurd (hstart.symm.trans hs') (by simp)

/-- The stream is reset at the end, by the goroutine that waits for the context. -/
structure ResetLast (v : Ref) (P : Proxy) : Prop where
  aborted : ((P.sys.sess .relay).cells v).hist.aborted = true → P.watch = .done
  done : P.watch = .done → ((P.sys.sess .relay).cells v).stream.state.Terminal

theorem call_aborted (hc : CellCall c k c') (hk : ∀ code, k ≠ .reset code) :
    c'.hist.aborted = c.hist.aborted := by
  cases hc with
  | reset code => exact absurd rfl (hk code)
  | close =>
    simp only [Cell.close]
    split <;> rfl
  | _ => rfl

/-- A call on the stream other than Reset. -/
theorem ResetLast.call {S : System} (h : ResetLast v P) (hF : Flow v w P)
    (hb : P.sys.step (.relay, .call v k) = some S) (hk : ∀ code, k ≠ .reset code) :
    (((S.sess .relay).cells v).hist.aborted = true → P.watch = .done) ∧
      (P.watch = .done → ((S.sess .relay).cells v).stream.state.Terminal) := by
  refine ⟨fun ha => h.aborted ((call_aborted (system_call hb) hk).symm.trans ha), fun hw => ?_⟩
  have hterm := h.done hw
  rwa [((system_move hb).evolves hF.held.lt).terminal hterm]

/-- The stream is reset last. -/
theorem resetLast_reach (h : ProxyReach v config w (Patient v w r) P) (hs : P.started = true) :
    ResetLast v P := by
  refine Reach.invariant (fun P => P.started = true → ResetLast v P) h nofun ?_ hs
  rintro P a P' hP hI hok hstep hs'
  have hm := copy_move hstep
  cases hm with
  | start hs _ hpc _ =>
    obtain ⟨_, _, ⟨_, _, hwatch, _⟩, _, habort⟩ := before_reach hP hs
    refine ⟨fun ha => ?_, fun hw => absurd (hwatch.symm.trans hw) (by simp)⟩
    have hfail := habort (by assumption) ha
    rw [hpc] at hfail
    cases hfail
  | sys X b S hown hb =>
    have hF := flow_reach hP hs'
    have hF' : Flow v w { P with sys := S } := flow_reach (.tail hP hok hstep) hs'
    obtain ⟨habort, hdone⟩ := hI hs'
    obtain ⟨hS, hrun⟩ := patient_system hP
    have hO := patient_orderly hP
    refine ⟨fun ha => ?_, fun hw => ?_⟩
    · rcases (system_move hb).sess .relay with ⟨hX, hmove⟩ | heq
      · have hcall := not_ownCall hown hX.symm
        rcases move_aborted (hO.owned .relay) hmove hF.held.lt (fun code => hcall (.reset code))
          (hrun .relay) ha with ha | hpc
        · exact habort ha
        · have hret : ((S.sess .relay).cells v).openPc = .returned := hF'.held.returned
          rw [hpc] at hret
          cases hret
      · simp only [heq] at ha
        exact habort ha
    · have hterm := hdone hw
      rwa [((system_move hb).evolves hF.held.lt).terminal hterm]
  | readOut _ _ S hb | eofOut _ _ S hb | writeIn _ _ _ _ S hb | sendIn _ _ _ _ S hb
  | failIn _ _ _ S hb =>
    obtain ⟨habort, hdone⟩ := (hI hs').call (flow_reach hP hs') hb (by simp)
    exact ⟨habort, hdone⟩
  | resetStream _ _ S hb =>
    refine ⟨fun _ => rfl, fun _ => ?_⟩
    have hcell := system_call hb
    generalize (S.sess .relay).cells v = c' at hcell ⊢
    cases hcell with
    | reset => exact terminal_reset _ _ _
  | closeConn _ hpc =>
    refine ⟨fun ha => ?_, nofun⟩
    have hdone := (hI hs').aborted ha
    rw [hpc] at hdone
    cases hdone
  | _ => exact ⟨(hI hs').aborted, (hI hs').done⟩

/-! ## The agent's stream -/

/-- What the agent has written, and is writing, begins `r`; a half that is closed has all of it. -/
structure AgentCell (r : Bytes) (c : Cell) : Prop where
  alone : c.writers.length ≤ 1
  wrote : c.hist.wrote ++ c.writers.flatten <+: r
  closedAt : ∀ b, c.hist.closedAt = some b → b = r ∧ c.writers = [] ∧ c.hist.wrote = r
  aborted : c.hist.aborted = false

/-- The agent writes `r` and closes. -/
theorem agentCell_call (hC : CellInv c) (hc : CellCall c k c')
    (hk : AgentCalls r c k) (h : AgentCell r c) : AgentCell r c' := by
  obtain ⟨halone, hwrote, hclosed, habort⟩ := h
  -- at most one Write is under way, so that it is the one that ends
  have sole : ∀ data ∈ c.writers, c.writers = [data] := by
    intro data hmem
    cases hw : c.writers with
    | nil =>
      rw [hw] at hmem
      cases hmem
    | cons d l =>
      have hl : l = [] := by
        rw [hw, List.length_cons] at halone
        exact List.length_eq_zero_iff.mp (by omega)
      rw [hw, hl] at hmem
      rw [hl, List.mem_singleton.mp hmem]
  cases hc with
  | writeRefused | readEof | readBytes => exact ⟨halone, hwrote, hclosed, habort⟩
  | write data hopen =>
    obtain ⟨hidle, hpre⟩ := hk
    refine ⟨by simp [hidle], by simpa [hidle] using hpre, fun b hb => ?_, habort⟩
    -- a closed half takes no Write
    exfalso
    rcases hC.closedAt (by rw [hb]; simp) with (hst | hst) | hst <;>
      simp [StreamSession.isWriteClosed, hst] at hopen
  | writeSend data hmem =>
    have hsole := sole data hmem
    refine ⟨by simp [hsole], by simpa [hsole] using hwrote, fun b hb => ?_, habort⟩
    have hnil := (hclosed b hb).2.1
    rw [hnil] at hmem
    cases hmem
  | writeFail data hmem =>
    have hsole := sole data hmem
    refine ⟨by simp [hsole], ?_, fun b hb => ?_, habort⟩
    · have hpre := (List.prefix_append c.hist.wrote c.writers.flatten).trans hwrote
      simpa [hsole] using hpre
    · have hnil := (hclosed b hb).2.1
      rw [hnil] at hmem
      cases hmem
  | close =>
    obtain ⟨hidle, hall⟩ := hk
    have hwr : c.close.writers = c.writers := rfl
    cases hn : c.stream.close.2 with
    | false =>
      have hh : c.close.hist = c.hist := by simp [Cell.close, hn]
      exact ⟨halone, by rwa [hh, hwr], by rwa [hh, hwr], by rwa [hh]⟩
    | true =>
      have hh : c.close.hist = { c.hist with closedAt := some c.hist.wrote } := by
        simp [Cell.close, hn]
      refine ⟨halone, by rwa [hh, hwr], fun b hb => ?_, by rwa [hh]⟩
      rw [hh] at hb ⊢
      exact ⟨(Option.some.inj hb).symm.trans hall, hidle, hall⟩
  | reset => cases hk

theorem IsPeer.paired (hO : Orderly P.sys) {u : Ref} (h : IsPeer P v u) :
    Paired P.sys .relay v u ⟨.relay, v⟩ ∧ ((P.sys.sess .agent).cells u).openPc = .accepted := by
  obtain ⟨hu, hc⟩ := h
  have hacc : ((P.sys.sess .agent).cells u).openPc = .accepted := by
    rcases conv_cases (hO.wellFormed .agent) (hO.role .agent) hO.opens hu hc with
      ⟨heq, _⟩ | ⟨_, _, hacc⟩
    · cases heq
    · exact hacc
  obtain ⟨x, hx, hconv, _, _, hpc⟩ := hO.opens.accepted .agent u hu hacc
  have hxv : x = v := by
    rw [hc] at hconv
    cases hconv
    rfl
  subst hxv
  have hcv := (hO.wellFormed .relay).conv x hx hpc
  rw [hO.role] at hcv
  exact ⟨⟨hx, hu, hcv, hc⟩, hacc⟩

/-- It does so in every run. -/
theorem agent_reach (h : ProxyReach v config w (Patient v w r) P) :
    ∀ u, IsPeer P v u → AgentCell r ((P.sys.sess .agent).cells u) := by
  refine Reach.invariant
    (fun P => ∀ u, IsPeer P v u → AgentCell r ((P.sys.sess .agent).cells u)) h ?_ ?_
  · intro u hu
    cases hu.1
  · rintro P a P' hP hI hok hstep u hu'
    obtain ⟨hS, hrun⟩ := patient_system hP
    have hO := patient_orderly hP
    have hP' : ProxyReach v config w (Patient v w r) P' := .tail hP hok hstep
    have hO' := patient_orderly hP'
    rcases (copy_move hstep).system with heq | ⟨X, b, hb, hkind⟩
    · rw [IsPeer, heq] at hu'
      rw [heq]
      exact hI u hu'
    · have hm := system_move hb
      rcases hm.sess .agent with ⟨rfl, hmove⟩ | heq
      · obtain ⟨rfl, _⟩ := hkind.resolve_right (by simp)
        by_cases hold : u < (P.sys.sess .agent).nextRef
        · have hu : IsPeer P v u := ⟨hold, (hm.evolves hold).conv.symm.trans hu'.2⟩
          have hC := hO.cell .agent u hold
          by_cases hcall : ∃ k, b = .call u k
          · obtain ⟨k, rfl⟩ := hcall
            exact agentCell_call hC (system_call hb) (hok.faultless hu) (hI u hu)
          · have hcall' : ∀ k, b ≠ .call u k := fun k hk => hcall ⟨k, hk⟩
            obtain ⟨hw, hwr, _, hcl⟩ := cell_sameCalls (move_cell hmove hold) hcall'
            obtain ⟨halone, hwrote, hclosed, habort⟩ := hI u hu
            refine ⟨by rwa [hwr], by rwa [hw, hwr], by rwa [hw, hwr, hcl], ?_⟩
            by_contra hab
            rcases move_aborted (hO.owned .agent) hmove hold (fun code => hcall' (.reset code))
              (hrun .agent) (by simpa using hab) with ha | hpc
            · rw [habort] at ha
              cases ha
            · have hacc := (hu'.paired hO').2
              rw [hpc] at hacc
              cases hacc
        · have hun := (hO'.cell .agent u hu'.1).unheld (move_new_cell hmove hu'.1 hold).1
          refine ⟨by simp [hun.writers], by simp [hun.wrote, hun.writers], fun b hb => ?_, ?_⟩
          · rw [hun.closedAt] at hb
            cases hb
          · rcases move_new hmove hu'.1 with h | ⟨_, ⟨_, _, hc⟩ | ⟨_, _, _, hc⟩⟩
            · exact absurd h hold
            · rw [hc]
              rfl
            · rw [hc]
              rfl
      · rw [IsPeer, heq] at hu'
        rw [heq]
        exact hI u hu'

end Atlax.Analysis
