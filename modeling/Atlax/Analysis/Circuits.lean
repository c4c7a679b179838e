import Atlax.Analysis.HalfClose
import Atlax.Analysis.ReadEnds
import Atlax.Model.Circuits

/-!
# A connection from end to end

Between a client and a service lie five buffers: what the relay has read from the client and not
written to the stream, `writeOut` and the frames under way, the read buffer of the agent's stream,
and what the agent has read from it and not written to the service. The two copies are as simple as
they look, and that they neither lose nor invent anything is an invariant of each connection
(`Copied`). What lies between the two streams is the result of `Atlax.Analysis.Delivery`, but for a
stream that is reset, where it stops: there nothing is read any more, as long as the handler of
STREAM_DATA does not deliver to a stream after its Reset has emptied the buffer.

Together: a connection to a service belongs to exactly one stream of the relay, goes to the service
that this stream names, and carries a beginning of what the client has sent, in both directions.
-/

set_option autoImplicit false

namespace Atlax.Analysis

open Atlax.Model Atlax.Library

variable {c : Copier} {k : Call}

/-! ## What is read of a stream, reset or not -/

/-- No payload is delivered to a stream that has been reset between the handler's lookup and its
Deliver.
SOURCE: mux_session.go:462-478; stream_impl.go:198-204, 224-242 -/
def DeliversUnreset (S : System) : Role × Action → Prop
  | (X, .reader) =>
    match (S.sess X).reader with
    | .deliver r _ => ((S.sess X).cells r).stream.state ≠ .reset
    | _ => True
  | _ => True

instance (S : System) : DecidablePred (DeliversUnreset S)
  | (X, a) => by
    unfold DeliversUnreset
    induction a with
    | reader =>
      dsimp only
      induction (S.sess X).reader <;> infer_instance
    | _ => infer_instance

/-- Identifiers are handed out quiet, and nothing is delivered after a Reset. -/
def Undisturbed (S : System) (e : Role × Action) : Prop := ReissuesQuiet S e ∧ DeliversUnreset S e

instance (S : System) (e : Role × Action) : Decidable (Undisturbed S e) :=
  inferInstanceAs (Decidable (_ ∧ _))

variable {S S' : System} {X : Role} {a : Action} {rd : ReaderPc}

/-- A payload is not delivered to a reset stream. -/
theorem DeliversUnreset.deliver {r : Ref} {p : Packet} (h : DeliversUnreset S (X, a))
    (ha : a = .reader) (hrd : (S.sess X).reader = .deliver r p) :
    ((S.sess X).cells r).stream.state ≠ .reset := by
  subst ha
  simpa only [DeliversUnreset, hrd] using h

/-- A stream in the state Reset keeps its buffer empty. -/
theorem resetEmptied_cell {r : Ref} {c c' : Cell} (hm : CellMove a rd r c c')
    (h : c.stream.state = .reset → c.stream.readBuf = [])
    (hok : ∀ p, a = .reader → rd = .deliver r p → c.stream.state ≠ .reset) :
    c'.stream.state = .reset → c'.stream.readBuf = [] := by
  by_cases hdel : a = .reader ∧ ∃ p, rd = .deliver r p
  · obtain ⟨ha, p, hrd⟩ := hdel
    cases hm with
    | deliver => exact fun hst => absurd hst (hok p ha hrd)
    | remoteClose q _ hq | resetFrame q _ hq =>
      rw [hrd] at hq
      cases hq
    | resetLocal hl =>
      subst ha
      rcases hl with hl | ⟨_, hl⟩ <;> cases hl
    | call k c' hk =>
      subst ha
      cases hk
    | drain d b c' q hd =>
      subst ha
      cases hd
    | openFailedReset => exact reset_emptied _ 0 false h
    | _ => exact h
  · exact resetEmpty_cell h hm fun ha p hrd => absurd ⟨ha, p, hrd⟩ hdel

/-- A reset stream has nothing to read.
SOURCE: stream_impl.go:223-243 -/
theorem resetEmptied_reach {config : Role → MuxConfig} (h : SystemReach config Undisturbed S) :
    ∀ X, ∀ r < (S.sess X).nextRef, ((S.sess X).cells r).stream.state = .reset →
      ((S.sess X).cells r).stream.readBuf = [] := by
  refine Reach.invariant (fun S => ∀ X, ∀ r < (S.sess X).nextRef,
    ((S.sess X).cells r).stream.state = .reset → ((S.sess X).cells r).stream.readBuf = []) h ?_ ?_
  · intro X r hr
    cases hr
  · rintro S ⟨Z, b⟩ S' _ hI hok hstep X r hr
    rcases (system_move hstep).sess X with ⟨rfl, hmove⟩ | heq
    · by_cases hold : r < (S.sess X).nextRef
      · exact resetEmptied_cell (move_cell hmove hold) (hI X r hold)
          fun p ha hrd => hok.2.deliver ha hrd
      · intro hst
        rw [(move_new_cell hmove hr hold).2.2] at hst
        cases hst
    · rw [heq] at hr ⊢
      exact hI X r hr

/-- Only a Read that finds something adds to what was read. -/
theorem cell_got {r : Ref} {c c' : Cell} (hm : CellMove a rd r c c') :
    c'.hist.got = c.hist.got ∨
      c.stream.readBuf ≠ [] ∧ c.handle = true ∧ c'.stream.state = c.stream.state := by
  cases hm with
  | call k c' _ hh hc =>
    cases hc with
    | readBytes n hne => exact .inr ⟨hne, hh, rfl⟩
    | close =>
      refine .inl ?_
      simp only [Cell.close]
      split <;> rfl
    | _ => exact .inl rfl
  | drain d b c' p _ hc => cases hc <;> exact .inl rfl
  | _ => exact .inl rfl

/-- A stream that is new, or whose counterpart is, has not been read. -/
theorem got_of_new (hO : Orderly S) (hO' : Orderly S') {Z : Role} (hm : SysMove S Z a S')
    {w v : Ref} {c : Conv} (hp : Paired S' X w v c)
    (hnew : ¬ v < (S.sess X.peer).nextRef ∨ ¬ w < (S.sess X).nextRef) :
    ((S'.sess X.peer).cells v).hist.got = [] := by
  have hC' := hO'.cell X.peer v hp.reader
  by_contra hgot
  have hh : ((S'.sess X.peer).cells v).handle = true := by
    by_contra hno
    exact hgot (hC'.unheld (by simpa using hno)).got
  by_cases hv : v < (S.sess X.peer).nextRef
  · -- only the side of the new stream has moved, and who holds a stream has its counterpart
    have hw := hnew.resolve_left (not_not_intro hv)
    have hpeer : S'.sess X.peer = S.sess X.peer := by
      rcases hm.sess X with ⟨rfl, -⟩ | heq
      · exact hm.peer
      · exact absurd (heq ▸ hp.writer) hw
    have hcv := hp.convReader
    rw [hpeer] at hh hcv
    obtain ⟨r, hr, hc⟩ := hO.counterpart hv ((hO.mapped X.peer).held v hv hh)
    rw [Role.peer_peer] at hr hc
    have hc' : ((S'.sess X).cells r).conv = some c := by
      rw [(hm.evolves hr).conv, hc, hcv]
    have hr' := Nat.lt_of_lt_of_le hr (hm.nextRef X)
    exact hw (hO'.unique X r w c hr' hp.writer hc' hp.convWriter ▸ hr)
  · rcases hm.sess X.peer with ⟨rfl, hmove⟩ | heq
    · rw [(move_new_cell hmove hp.reader hv).1] at hh
      cases hh
    · exact hv (heq ▸ hp.reader)

/-- What was read of a stream was drained at the other end, whatever has happened to the stream. -/
theorem got_drained {config : Role → MuxConfig} (h : SystemReach config Undisturbed S) :
    ∀ X w v c, Paired S X w v c →
      ((S.sess X.peer).cells v).hist.got <+: ((S.sess X).cells w).hist.drained := by
  refine Reach.invariant (fun S => ∀ X w v c, Paired S X w v c →
    ((S.sess X.peer).cells v).hist.got <+: ((S.sess X).cells w).hist.drained) h ?_ ?_
  · intro X w v c hp
    cases hp.writer
  · rintro S ⟨Z, b⟩ S' hS hI hok hstep X w v c hp
    have hquiet : SystemReach config ReissuesQuiet S := hS.mono fun _ _ h => h.1
    have hquiet' : SystemReach config ReissuesQuiet S' := .tail hquiet hok.1 hstep
    have hO' := orderly_reach hquiet'
    have hm := system_move hstep
    by_cases hnew : ¬ v < (S.sess X.peer).nextRef ∨ ¬ w < (S.sess X).nextRef
    · rw [got_of_new (orderly_reach hquiet) hO' hm hp hnew]
      exact List.nil_prefix
    · rw [not_or, not_not, not_not] at hnew
      obtain ⟨hv, hw⟩ := hnew
      have hold := hI X w v c ⟨hw, hv, (hm.evolves hw).conv ▸ hp.convWriter,
        (hm.evolves hv).conv ▸ hp.convReader⟩
      have hdr : ((S.sess X).cells w).hist.drained <+: ((S'.sess X).cells w).hist.drained := by
        rcases hm.sess X with ⟨rfl, hmove⟩ | heq
        · exact cell_drained (move_cell hmove hw)
        · exact heq ▸ List.prefix_refl _
      rcases hm.sess X.peer with ⟨rfl, hmove⟩ | heq
      · rcases cell_got (move_cell hmove hv) with hgot | ⟨hne, hh, hst⟩
        · rw [hgot]
          exact hold.trans hdr
        · -- a stream that gives bytes was not reset, and its pipe is sound
          have hunreset : ((S'.sess X.peer).cells v).stream.state ≠ .reset := by
            rw [hst]
            exact fun hr => hne (resetEmptied_reach hS X.peer v hv hr)
          have hlisten := hO'.listening hp.reader ((hm.evolves hv).handle hh) hunreset
          exact (pairsSound_reach hquiet' X w v c hp hlisten).got_sub
            (hO'.cell X.peer v hp.reader) hunreset
      · rw [heq]
        exact hold.trans hdr

/-! ## The copies -/

/-- What was read of a stream, and what was written to it, if there is such a stream. -/
def gotOf (P : Circuits) (X : Role) (r : Ref) : Bytes :=
  if r < (P.sys.sess X).nextRef then ((P.sys.sess X).cells r).hist.got else []

/-- What has been written to stream `r`. -/
def wroteOf (P : Circuits) (X : Role) (r : Ref) : Bytes :=
  if r < (P.sys.sess X).nextRef then ((P.sys.sess X).cells r).hist.wrote else []

/-- A connection and its two copies: what came out of the stream has been written to the far end or
is in hand; what came from the far end has been written to the stream, is in hand, or waits. -/
structure Copied (c : Copier) (got wrote : Bytes) : Prop where
  out : match c.out with
    | .read => c.sock.received = got
    | .write data => c.sock.received ++ data = got
    | _ => c.sock.received <+: got
  inn : match c.inn with
    | .read => wrote ++ c.sock.inbound = c.sock.sent
    | .write data | .send data => wrote ++ data ++ c.sock.inbound = c.sock.sent
    | _ => wrote <+: c.sock.sent

/-- The socket has received what was read from the stream, from the start. -/
theorem Copied.received {got wrote : Bytes} (h : Copied c got wrote) :
    c.sock.received <+: got := by
  have hout := h.out
  split at hout
  · exact hout ▸ List.prefix_refl _
  · rw [← hout]
    exact List.prefix_append _ _
  · exact hout

/-- What was written to the stream came from the socket. -/
theorem Copied.wrote {got wrote : Bytes} (h : Copied c got wrote) :
    wrote <+: c.sock.sent := by
  have hinn := h.inn
  split at hinn
  · rw [← hinn]
    exact List.prefix_append _ _
  · rw [← hinn, List.append_assoc]
    exact List.prefix_append _ _
  · rw [← hinn, List.append_assoc]
    exact List.prefix_append _ _
  · exact hinn

/-- Every stream and its socket. -/
def AllCopied (P : Circuits) : Prop :=
  ∀ X r, Copied (P.copiers X r) (gotOf P X r) (wroteOf P X r)

variable {P P' : Circuits} {r v : Ref}

/-- A copier is replaced. -/
theorem AllCopied.setCopier (h : AllCopied P)
    (hc : Copied c (gotOf P X r) (wroteOf P X r)) : AllCopied (P.setCopier X r c) := by
  intro Y q
  show Copied (Function.update P.copiers X (Function.update (P.copiers X) r c) Y q) (gotOf P Y q)
    (wroteOf P Y q)
  by_cases hY : Y = X
  · subst hY
    rw [Function.update_self]
    by_cases hq : q = r
    · subst hq
      rwa [Function.update_self]
    · rw [Function.update_of_ne hq]
      exact h Y q
  · rw [Function.update_of_ne hY]
    exact h Y q

/-- What a call reads, and what it writes. -/
def readBytes (s : StreamSession) : Call → Bytes
  | .read n => s.readBuf.take n
  | _ => []

/-- What a call writes. -/
def writtenBytes : Call → Bytes
  | .writeSend data => data
  | _ => []

/-- A call reads and writes what it says. -/
theorem cellCall_bytes {c c' : Cell} (h : CellCall c k c') :
    c'.hist.got = c.hist.got ++ readBytes c.stream k ∧
      c'.hist.wrote = c.hist.wrote ++ writtenBytes k := by
  cases h with
  | readEof n hb => simp [readBytes, writtenBytes, hb]
  | readBytes n => simp [readBytes, writtenBytes]
  | writeSend data => simp [readBytes, writtenBytes]
  | close =>
    simp only [Cell.close, readBytes, writtenBytes, List.append_nil]
    split <;> exact ⟨rfl, rfl⟩
  | reset code =>
    simp [Cell.reset, readBytes, writtenBytes]
  | _ => simp [readBytes, writtenBytes]

/-- A call on a stream changes its cell only. -/
theorem move_streamCall {s s' : Session} (hm : Move s (.call r k) s') :
    r < s.nextRef ∧ ∃ c, CellCall (s.cells r) k c ∧ s' = s.setCell r c := by
  cases hm with
  | call _ hr _ _ c hc => exact ⟨hr, c, hc, rfl⟩

/-- A call changes what was read of its stream and what was written to it, and nothing else. -/
theorem call_bytes (h : P.call X r k = some P') :
    P'.copiers = P.copiers ∧ gotOf P' X r = gotOf P X r ++ readBytes (P.stream X r) k ∧
      wroteOf P' X r = wroteOf P X r ++ writtenBytes k ∧
      ∀ Y q, ¬ (Y = X ∧ q = r) → gotOf P' Y q = gotOf P Y q ∧ wroteOf P' Y q = wroteOf P Y q := by
  obtain ⟨S', hS, rfl⟩ := Option.map_eq_some_iff.mp h
  have hm := system_move hS
  obtain ⟨hr, c, hc, hX⟩ := move_streamCall hm.move
  obtain ⟨hgot, hwrote⟩ := cellCall_bytes hc
  refine ⟨rfl, ?_, ?_, fun Y q hne => ?_⟩
  · simpa [gotOf, hX, hr, Circuits.stream] using hgot
  · simpa [wroteOf, hX, hr] using hwrote
  · obtain rfl | rfl := Role.eq_or_eq_peer X Y
    · have hq : q ≠ r := fun hq => hne ⟨rfl, hq⟩
      simp [gotOf, wroteOf, hX, hq]
    · simp [gotOf, wroteOf, hm.peer]

/-- A call, with what it makes of the copier. -/
theorem AllCopied.call (h : AllCopied P) (hcall : P.call X r k = some P')
    (hc : Copied c (gotOf P X r ++ readBytes (P.stream X r) k) (wroteOf P X r ++ writtenBytes k)) :
    AllCopied (P'.setCopier X r c) := by
  obtain ⟨hcop, hgot, hwrote, hrest⟩ := call_bytes hcall
  intro Y q
  by_cases hYq : Y = X ∧ q = r
  · obtain ⟨rfl, rfl⟩ := hYq
    show Copied (Function.update P'.copiers Y (Function.update (P'.copiers Y) q c) Y q)
      (gotOf P' Y q) (wroteOf P' Y q)
    rw [Function.update_self, Function.update_self, hgot, hwrote]
    exact hc
  · have hsame : (P'.setCopier X r c).copiers Y q = P.copiers Y q := by
      rw [Circuits.setCopier_copiers, hcop]
      by_cases hY : Y = X
      · subst hY
        rw [Function.update_self, Function.update_of_ne fun hq => hYq ⟨rfl, hq⟩]
      · rw [Function.update_of_ne hY]
    obtain ⟨hg, hw⟩ := hrest Y q hYq
    rw [hsame]
    show Copied _ (gotOf P' Y q) (wroteOf P' Y q)
    rw [hg, hw]
    exact h Y q

/-- Close and Reset leave the bytes alone. -/
theorem AllCopied.endCall (h : AllCopied P) (hcall : P.call X r k = some P')
    (hr : readBytes (P.stream X r) k = []) (hw : writtenBytes k = []) : AllCopied P' := by
  obtain ⟨hcop, hgot, hwrote, hrest⟩ := call_bytes hcall
  intro Y q
  rw [hcop]
  by_cases hYq : Y = X ∧ q = r
  · obtain ⟨rfl, rfl⟩ := hYq
    rw [hgot, hwrote, hr, hw, List.append_nil, List.append_nil]
    exact h Y q
  · obtain ⟨hg, hw⟩ := hrest Y q hYq
    rw [hg, hw]
    exact h Y q

/-- Other steps read and write nothing. -/
theorem cell_unread {c c' : Cell} (hm : CellMove a rd r c c')
    (ha : isStreamCall a = false) : c'.hist.got = c.hist.got ∧ c'.hist.wrote = c.hist.wrote := by
  cases hm with
  | call k c' hk =>
    subst hk
    cases ha
  | drain d b c' p _ hc => cases hc <;> exact ⟨rfl, rfl⟩
  | _ => exact ⟨rfl, rfl⟩

/-- What the sessions do by themselves leaves the bytes alone. -/
theorem AllCopied.sys (h : AllCopied P) (ha : isStreamCall a = false)
    (hS : P.sys.step (X, a) = some S') : AllCopied { P with sys := S' } := by
  intro Y q
  have hbytes : gotOf { P with sys := S' } Y q = gotOf P Y q ∧
      wroteOf { P with sys := S' } Y q = wroteOf P Y q := by
    rcases (system_move hS).sess Y with ⟨rfl, hmove⟩ | heq
    · by_cases hq : q < (P.sys.sess Y).nextRef
      · have hq' := Nat.lt_of_lt_of_le hq (move_nextRef hmove)
        simpa [gotOf, wroteOf, hq, hq'] using cell_unread (move_cell hmove hq) ha
      · by_cases hq' : q < (S'.sess Y).nextRef
        · rcases move_new hmove hq' with hold | ⟨_, ⟨_, _, hc⟩ | ⟨_, _, _, hc⟩⟩
          · exact absurd hold hq
          · simp [gotOf, wroteOf, hq, hq', hc, Session.openedCell]
          · simp [gotOf, wroteOf, hq, hq', hc, Session.acceptedCell]
        · simp [gotOf, wroteOf, hq, hq']
    · simp [gotOf, wroteOf, heq]
  rw [hbytes.1, hbytes.2]
  exact h Y q

/-! ## The ends -/

/-- What a step of the ends does: it makes at most one call on a stream, the services stay, and no
byte of a connection is lost, invented or moved. -/
structure Turn (P P' : Circuits) : Prop where
  system : P'.sys = P.sys ∨ ∃ X r k, P.sys.step (X, .call r k) = some P'.sys
  services : P'.services = P.services
  target : ∀ v, (P'.agentEnd v).target = (P.agentEnd v).target
  copied : AllCopied P → AllCopied P'

theorem Turn.refl (P : Circuits) : Turn P P := ⟨.inl rfl, rfl, fun _ => rfl, id⟩

/-- A copier that goes on. -/
theorem Turn.setCopier (hc : ∀ got wrote, Copied (P.copiers X r) got wrote → Copied c got wrote) :
    Turn P (P.setCopier X r c) :=
  ⟨.inl rfl, rfl, fun _ => rfl, fun h => h.setCopier (hc _ _ (h X r))⟩

/-- A call, with what it makes of the copier. -/
theorem Turn.call {P₁ : Circuits} (hcall : P.call X r k = some P₁)
    (hc : ∀ got wrote, Copied (P.copiers X r) got wrote →
      Copied c (got ++ readBytes (P.stream X r) k) (wrote ++ writtenBytes k)) :
    Turn P (P₁.setCopier X r c) := by
  refine ⟨?_, ?_, ?_, fun h => h.call hcall (hc _ _ (h X r))⟩ <;>
    obtain ⟨S', hS, rfl⟩ := Option.map_eq_some_iff.mp hcall
  · exact .inr ⟨X, r, k, hS⟩
  · rfl
  · exact fun _ => rfl

/-- Close and Reset. -/
theorem Turn.endCall {P₁ : Circuits} (hcall : P.call X r k = some P₁)
    (hr : readBytes (P.stream X r) k = []) (hw : writtenBytes k = []) : Turn P P₁ := by
  refine ⟨?_, ?_, ?_, fun h => h.endCall hcall hr hw⟩ <;>
    obtain ⟨S', hS, rfl⟩ := Option.map_eq_some_iff.mp hcall
  · exact .inr ⟨X, r, k, hS⟩
  · rfl
  · exact fun _ => rfl

/-- A goroutine makes at most one call, with what it makes of the copier. -/
theorem Turn.act {k : Option Call} (h : P.act X r k c = some P')
    (hc : ∀ got wrote, Copied (P.copiers X r) got wrote →
      Copied c (got ++ (k.elim [] (readBytes (P.stream X r)))) (wrote ++ k.elim [] writtenBytes)) :
    Turn P P' := by
  unfold Circuits.act at h
  cases k with
  | none =>
    cases h
    exact .setCopier fun got wrote hcop => by simpa using hc got wrote hcop
  | some k =>
    obtain ⟨P₁, hcall, rfl⟩ := Option.map_eq_some_iff.mp h
    exact .call hcall hc

theorem Turn.setRelay (h : Turn P P') (r : Ref) (e : RelayEnd) : Turn P (P'.setRelay r e) :=
  ⟨h.system, h.services, h.target, h.copied⟩

theorem Turn.setAgent (h : Turn P P') {e : AgentEnd}
    (he : e.target = (P.agentEnd v).target) : Turn P (P'.setAgent v e) := by
  refine ⟨h.system, h.services, fun u => ?_, h.copied⟩
  rw [Circuits.setAgent_agentEnd]
  by_cases hu : u = v
  · subst hu
    rwa [Function.update_self]
  · rw [Function.update_of_ne hu]
    exact h.target u

/-- SOURCE: router_impl.go:232; forwarder_impl.go:126 -/
theorem turn_copyOut (hstep : P.copyOut X r = some P') : Turn P P' := by
  obtain ⟨⟨k, sock, pc⟩, hnext, hact⟩ := Option.bind_eq_some_iff.mp hstep
  refine .act hact fun got wrote hc => ?_
  have hout := hc.out
  unfold OutPc.next at hnext
  split at hnext
  · next hpc =>
    cases hnext
    refine ⟨?_, by simpa [writtenBytes] using hc.inn⟩
    rw [hpc] at hout
    by_cases hb : (P.stream X r).readBuf = []
    · have hnone : ∀ b, ((P.stream X r).read (P.bufSize X)).1 ≠ .bytes b := by
        intro b
        unfold StreamSession.read
        rw [if_pos hb]
        split <;> simp
      simp only [Option.elim, readBytes, hb, List.take_nil, List.append_nil]
      exact hc.received
    · have hread : ((P.stream X r).read (P.bufSize X)).1 =
          .bytes ((P.stream X r).readBuf.take (P.bufSize X)) := by
        unfold StreamSession.read
        rw [if_neg hb]
      rw [hread]
      dsimp only at hout ⊢
      rw [hout]
      rfl
  · next data hpc =>
    rw [hpc] at hout
    split at hnext <;> cases hnext <;>
      refine ⟨?_, by simpa using hc.inn⟩ <;> simp only [Option.elim, List.append_nil]
    · exact hc.received
    · exact hout
  · cases hnext
  · cases hnext
  · cases hnext

/-- A Write to the socket fails. -/
theorem turn_copyOutFail {k : ℕ} {err : String} (hstep : P.copyOutFail X r k err = some P') :
    Turn P P' := by
  unfold Circuits.copyOutFail at hstep
  dsimp only at hstep
  split at hstep
  · next data hpc =>
    split at hstep <;> cases hstep
    refine .setCopier fun got wrote hc => ⟨?_, hc.inn⟩
    have hout := hc.out
    rw [hpc] at hout
    dsimp only at hout ⊢
    rw [← hout]
    exact (List.prefix_append_right_inj _).mpr (List.take_prefix _ _)
  · cases hstep

/-- SOURCE: router_impl.go:238; forwarder_impl.go:138 -/
theorem turn_copyIn {n : ℕ} (hstep : P.copyIn X r n = some P') : Turn P P' := by
  obtain ⟨⟨k, sock, pc⟩, hnext, hact⟩ := Option.bind_eq_some_iff.mp hstep
  refine .act hact fun got wrote hc => ?_
  have hinn := hc.inn
  unfold InPc.next at hnext
  split at hnext
  · next hpc =>
    rw [hpc] at hinn
    split at hnext
    · cases hnext
      exact ⟨by simpa using hc.out, by simpa using hc.wrote⟩
    · split at hnext <;> split at hnext <;> cases hnext <;>
        refine ⟨by simpa using hc.out, ?_⟩ <;> simp only [Option.elim, List.append_nil]
      · exact hc.wrote
      · rw [List.append_assoc, List.take_append_drop]
        exact hinn
  · next data hpc =>
    rw [hpc] at hinn
    split at hnext <;> cases hnext
    · exact ⟨by simpa using hc.out, by simpa using hc.wrote⟩
    · exact ⟨by simpa [readBytes] using hc.out, by simpa [writtenBytes] using hinn⟩
  · next data hpc =>
    rw [hpc] at hinn
    cases hnext
    exact ⟨by simpa [readBytes] using hc.out, hinn⟩
  · cases hnext
  · cases hnext
  · cases hnext

/-- A Read of the socket fails. -/
theorem turn_copyInFail {err : String} (hstep : P.copyInFail X r err = some P') : Turn P P' := by
  unfold Circuits.copyInFail at hstep
  dsimp only at hstep
  split at hstep
  · cases hstep
    exact .setCopier fun _ _ hc => ⟨hc.out, hc.wrote⟩
  · obtain ⟨⟨k, pc⟩, hgive, hact⟩ := Option.bind_eq_some_iff.mp hstep
    unfold InPc.giveUp at hgive
    split at hgive <;> cases hgive
    exact .act hact fun _ _ hc =>
      ⟨by simpa [readBytes] using hc.out, by simpa [writtenBytes] using hc.wrote⟩

/-- SOURCE: router_impl.go:233-234 -/
theorem turn_relayOut (hstep : P.relayOut r = some P') : Turn P P' := by
  obtain ⟨⟨e, pc⟩, hend, rfl⟩ := Option.map_eq_some_iff.mp hstep
  refine Turn.setRelay (.setCopier fun _ _ hc => ?_) _ _
  unfold RelayEnd.endOut at hend
  split at hend <;> cases hend <;> exact ⟨hc.received, hc.inn⟩

/-- SOURCE: router_impl.go:239-240 -/
theorem turn_relayIn (hstep : P.relayIn r = some P') : Turn P P' := by
  obtain ⟨⟨e, pc⟩, hend, rfl⟩ := Option.map_eq_some_iff.mp hstep
  refine Turn.setRelay (.setCopier fun _ _ hc => ?_) _ _
  unfold RelayEnd.endIn at hend
  split at hend <;> cases hend <;> exact ⟨hc.out, hc.wrote⟩

/-- SOURCE: router_impl.go:244-253 -/
theorem turn_watch (hstep : P.watch r = some P') : Turn P P' := by
  obtain ⟨⟨k, sock, e⟩, hnext, hstep⟩ := Option.bind_eq_some_iff.mp hstep
  obtain ⟨P₁, hact, rfl⟩ := Option.map_eq_some_iff.mp hstep
  refine Turn.setRelay (.act hact fun _ _ hc => ?_) _ _
  unfold RelayEnd.next at hnext
  split at hnext
  · split at hnext <;> cases hnext
    exact ⟨by simpa using hc.out, by simpa using hc.inn⟩
  · cases hnext
    exact ⟨by simpa [readBytes] using hc.out, by simpa [writtenBytes] using hc.inn⟩
  · cases hnext

/-- SOURCE: forwarder_impl.go:127-130 -/
theorem turn_agentOut (hstep : P.agentOut r = some P') : Turn P P' := by
  unfold Circuits.agentOut at hstep
  dsimp only at hstep
  split at hstep <;> cases hstep
  · exact .setCopier fun _ _ hc => ⟨hc.received, hc.inn⟩
  · refine Turn.setAgent ?_ rfl
    exact .setCopier fun _ _ hc => ⟨hc.received, hc.inn⟩

/-- SOURCE: forwarder_impl.go:139-141 -/
theorem turn_agentIn (hstep : P.agentIn r = some P') : Turn P P' := by
  unfold Circuits.agentIn at hstep
  dsimp only at hstep
  split at hstep
  · obtain ⟨P₁, hcall, rfl⟩ := Option.map_eq_some_iff.mp hstep
    exact .call hcall fun _ _ hc =>
      ⟨by simpa [readBytes] using hc.out, by simpa [writtenBytes] using hc.wrote⟩
  · cases hstep
    refine Turn.setAgent ?_ rfl
    exact .setCopier fun _ _ hc => ⟨hc.out, hc.wrote⟩
  · cases hstep

/-- SOURCE: forwarder_impl.go:60-112, 144-154 -/
theorem turn_forward (hstep : P.forward r = some P') : Turn P P' := by
  obtain ⟨⟨effect, e⟩, -, hstep⟩ := Option.bind_eq_some_iff.mp hstep
  obtain ⟨P₁, hP₁, rfl⟩ := Option.map_eq_some_iff.mp hstep
  refine Turn.setAgent ?_ rfl
  cases effect with
  | nothing =>
    cases hP₁
    exact .refl P
  | closeLocal =>
    cases hP₁
    exact .setCopier fun _ _ hc => ⟨hc.out, hc.inn⟩
  | reset => exact Turn.endCall hP₁ rfl rfl

/-- `acceptLoop` looks at a stream that was accepted, and finds its service. -/
theorem serve_target (h : P.serve v = some P') :
    (P'.sys = P.sys ∨ ∃ k, P.sys.step (.agent, .call v k) = some P'.sys) ∧
      P'.services = P.services ∧ v < (P.sys.sess .agent).nextRef ∧
      ((P.sys.sess .agent).cells v).openPc = .accepted ∧
      (P'.agentEnd v).target = some (resolveTarget P.services (P.stream .agent v).openPayload) ∧
      ∀ u, u ≠ v → (P'.agentEnd u).target = (P.agentEnd u).target := by
  unfold Circuits.serve at h
  split at h
  · next hg =>
    dsimp only at h
    obtain ⟨hv, hacc, _, _⟩ := hg
    split at h
    · obtain ⟨S', hS, rfl⟩ := Option.map_eq_some_iff.mp h
      refine ⟨.inr ⟨_, hS⟩, rfl, hv, hacc, ?_, fun u hu => ?_⟩ <;> dsimp only [Circuits.setAgent]
      · rw [Function.update_self]
      · rw [Function.update_of_ne hu]
    · cases h
      refine ⟨.inl rfl, rfl, hv, hacc, ?_, fun u hu => ?_⟩ <;> dsimp only [Circuits.setAgent]
      · rw [Function.update_self]
      · rw [Function.update_of_ne hu]
  · cases h

/-- What a step is: of the sessions, of the ends, or the look at a stream that was accepted. -/
theorem circuits_move {b : CircuitsAction} (hstep : P.step b = some P') :
    Turn P P' ∨ (∃ X a S', b = .sys X a ∧ isStreamCall a = false ∧
      P.sys.step (X, a) = some S' ∧ P' = { P with sys := S' }) ∨ ∃ v, P.serve v = some P' := by
  unfold Circuits.step at hstep
  cases b with
  | sys X a =>
    dsimp only at hstep
    split at hstep
    · cases hstep
    · next ha =>
      obtain ⟨S', hS, rfl⟩ := Option.map_eq_some_iff.mp hstep
      exact .inr (.inl ⟨X, a, S', rfl, by simpa using ha, hS, rfl⟩)
  | serve v => exact .inr (.inr ⟨v, hstep⟩)
  | farSend X r data =>
    dsimp only at hstep
    split at hstep <;> cases hstep
    refine .inl (.setCopier fun got wrote hc => ⟨hc.out, ?_⟩)
    have hinn := hc.inn
    split at hinn
    · next hpc =>
      simp only [hpc]
      rw [← List.append_assoc, hinn]
    · next d hpc =>
      simp only [hpc]
      rw [← List.append_assoc, hinn]
    · next d hpc =>
      simp only [hpc]
      rw [← List.append_assoc, hinn]
    · exact hinn.trans (List.prefix_append _ _)
  | farEnd X r =>
    cases hstep
    exact .inl (.setCopier fun _ _ hc => ⟨hc.out, hc.inn⟩)
  | copyOut X r =>
    obtain ⟨_, hstep⟩ := Option.ite_none_right_eq_some.mp hstep
    exact .inl (turn_copyOut hstep)
  | copyOutFail X r k err =>
    obtain ⟨_, hstep⟩ := Option.ite_none_right_eq_some.mp hstep
    exact .inl (turn_copyOutFail hstep)
  | copyIn X r n =>
    obtain ⟨_, hstep⟩ := Option.ite_none_right_eq_some.mp hstep
    exact .inl (turn_copyIn hstep)
  | copyInFail X r err =>
    obtain ⟨_, hstep⟩ := Option.ite_none_right_eq_some.mp hstep
    exact .inl (turn_copyInFail hstep)
  | route r =>
    dsimp only at hstep
    split at hstep <;> cases hstep
    exact .inl (.setCopier fun _ _ hc => ⟨hc.out, hc.inn⟩)
  | routeDone r =>
    cases hstep
    exact .inl ((Turn.refl P).setRelay _ _)
  | relayOut r => exact .inl (turn_relayOut hstep)
  | relayIn r => exact .inl (turn_relayIn hstep)
  | watch r =>
    obtain ⟨_, hstep⟩ := Option.ite_none_right_eq_some.mp hstep
    exact .inl (turn_watch hstep)
  | acceptDone =>
    cases hstep
    exact .inl ⟨.inl rfl, rfl, fun _ => rfl, id⟩
  | dialed v err =>
    dsimp only at hstep
    split at hstep
    · split at hstep <;> cases hstep
      refine .inl (Turn.setAgent ?_ rfl)
      exact .setCopier fun _ _ hc => ⟨hc.out, hc.inn⟩
    · cases hstep
  | agentOut v => exact .inl (turn_agentOut hstep)
  | agentIn v => exact .inl (turn_agentIn hstep)
  | forward v => exact .inl (turn_forward hstep)
  | forwardDone v =>
    obtain ⟨_, hstep⟩ := Option.ite_none_right_eq_some.mp hstep
    obtain ⟨e, _, rfl⟩ := Option.map_eq_some_iff.mp hstep
    exact .inl ((Turn.refl P).setAgent rfl)
  | linger v =>
    obtain ⟨e, _, rfl⟩ := Option.map_eq_some_iff.mp hstep
    exact .inl ((Turn.refl P).setAgent rfl)

/-- A stream that is served has copied nothing. -/
theorem allCopied_serve (h : AllCopied P) (hstep : P.serve r = some P') : AllCopied P' := by
  unfold Circuits.serve at hstep
  split at hstep
  · dsimp only at hstep
    split at hstep
    · exact AllCopied.endCall (P := P.setAgent r _) h hstep rfl rfl
    · cases hstep
      exact h
  · cases hstep

/-- No step loses, invents or reorders a byte of a connection. -/
theorem allCopied_step {b : CircuitsAction} (h : AllCopied P) (hstep : P.step b = some P') :
    AllCopied P' := by
  rcases circuits_move hstep with hturn | ⟨X, a, S', _, ha, hS, rfl⟩ | ⟨v, hv⟩
  · exact hturn.copied h
  · exact h.sys ha hS
  · exact allCopied_serve h hv

/-! ## The sessions underneath, and the service of a stream -/

/-- The steps of the sessions are undisturbed. -/
def SessionsUndisturbed (P : Circuits) : CircuitsAction → Prop
  | .sys X a => Undisturbed P.sys (X, a)
  | _ => True

instance (P : Circuits) (b : CircuitsAction) : Decidable (SessionsUndisturbed P b) := by
  unfold SessionsUndisturbed
  split <;> infer_instance

/-- The circuits that can be, over sessions that are left undisturbed. -/
def CircuitsReach (config : Role → MuxConfig) (services : ServiceMap)
    (bufSize : Role → ℕ) : Circuits → Prop :=
  Reach Circuits.step SessionsUndisturbed (newCircuits config services bufSize)

variable {config : Role → MuxConfig} {services : ServiceMap}
  {bufSize : Role → ℕ}

/-- Bytes are only copied, in every run. -/
theorem allCopied_reach (h : CircuitsReach config services bufSize P) : AllCopied P := by
  refine Reach.invariant AllCopied h ?_ ?_
  · intro X r
    exact ⟨rfl, rfl⟩
  · exact fun P b P' _ hI _ hstep => allCopied_step hI hstep

/-- The sessions of a run of circuits make a run of their own. -/
theorem circuits_system (h : CircuitsReach config services bufSize P) :
    SystemReach config Undisturbed P.sys := by
  have hsim : ∃ S, SystemReach config Undisturbed S ∧ P.sys = S := by
    refine Reach.simulates (fun P S => P.sys = S) h rfl ?_
    rintro P b P' S _ _ rfl hok hstep
    have hcall : ∀ {X r k}, P.sys.step (X, .call r k) = some P'.sys →
        Reach System.step Undisturbed P.sys P'.sys :=
      fun {X r k} hS => .tail .refl (⟨trivial, trivial⟩ : Undisturbed P.sys (X, .call r k)) hS
    refine ⟨P'.sys, ?_, rfl⟩
    rcases circuits_move hstep with hu | ⟨X, a, S', rfl, _, hS, rfl⟩ | ⟨v, hv⟩
    · rcases hu.system with heq | ⟨X, r, k, hS⟩
      · rw [heq]
        exact .refl
      · exact hcall hS
    · exact .tail .refl hok hS
    · rcases (serve_target hv).1 with heq | ⟨k, hS⟩
      · rw [heq]
        exact .refl
      · exact hcall hS
  obtain ⟨S, hS, rfl⟩ := hsim
  exact hS

/-- `t` is the service of a stream that was accepted. -/
def ServedBy (services : ServiceMap) (S : System) (v : Ref) (t : String) :
    Prop :=
  v < (S.sess .agent).nextRef ∧ ((S.sess .agent).cells v).openPc = .accepted ∧
    t = resolveTarget services ((S.sess .agent).cells v).stream.openPayload

/-- A stream keeps the target it was served with. -/
theorem ServedBy.evolve {t : String} {b : Role × Action} (h : ServedBy services S v t)
    (hS : S.step b = some S') : ServedBy services S' v t := by
  obtain ⟨hv, hacc, htarget⟩ := h
  have hm := system_move hS
  have he := hm.evolves (Y := .agent) hv
  refine ⟨Nat.lt_of_lt_of_le hv (hm.nextRef .agent), he.accepted.mpr hacc, ?_⟩
  rw [htarget, he.openPayload]

/-- The services stay, and a stream that was looked at has the one of its payload. -/
structure Looked (services : ServiceMap) (P : Circuits) : Prop where
  fixed : P.services = services
  served : ∀ v t, (P.agentEnd v).target = some t → ServedBy services P.sys v t

/-- Every target was looked up from the stream's payload. -/
theorem looked_reach (h : CircuitsReach config services bufSize P) : Looked services P := by
  refine Reach.invariant (Looked services) h ⟨rfl, fun v t ht => by cases ht⟩ ?_
  intro P b P' _ hI _ hstep
  rcases circuits_move hstep with hu | ⟨X, a, S', _, _, hS, rfl⟩ | ⟨v, hv⟩
  · refine ⟨hu.services.trans hI.fixed, fun v t ht => ?_⟩
    rw [hu.target] at ht
    rcases hu.system with heq | ⟨X, r, k, hS⟩
    · rw [heq]
      exact hI.served v t ht
    · exact (hI.served v t ht).evolve hS
  · exact ⟨hI.fixed, fun v t ht => (hI.served v t ht).evolve hS⟩
  · obtain ⟨hsys, hserv, hlt, hacc, htarget, hrest⟩ := serve_target hv
    refine ⟨hserv.trans hI.fixed, fun u t ht => ?_⟩
    have hnow : ServedBy services P.sys u t := by
      by_cases huv : u = v
      · subst huv
        rw [htarget, hI.fixed] at ht
        exact ⟨hlt, hacc, (Option.some.inj ht).symm⟩
      · exact hI.served u t (hrest u huv ▸ ht)
    rcases hsys with heq | ⟨k, hS⟩
    · rw [heq]
      exact hnow
    · exact hnow.evolve hS

/-! ## From the client to the service -/

/-- What was written to the far end of one stream was sent by the far end of the other. -/
theorem received_sent (h : CircuitsReach config services bufSize P) {w v : Ref} {c : Conv}
    (hp : Paired P.sys X w v c) :
    (P.copiers X.peer v).sock.received <+: (P.copiers X w).sock.sent := by
  have hS := circuits_system h
  have hcop := allCopied_reach h
  have hC := (orderly_reach (hS.mono fun _ _ h => h.1)).cell X w hp.writer
  have hgot : gotOf P X.peer v = ((P.sys.sess X.peer).cells v).hist.got := if_pos hp.reader
  have hwrote : wroteOf P X w = ((P.sys.sess X).cells w).hist.wrote := if_pos hp.writer
  have hout := (hcop X.peer v).received
  have hin := (hcop X w).wrote
  rw [hgot] at hout
  rw [hwrote] at hin
  exact ((hout.trans (got_drained hS X w v c hp)).trans hC.drained_sub).trans hin

/-- A stream that the agent has found a service for was opened by the relay, for that service. -/
theorem served_stream (h : CircuitsReach config services bufSize P) {t : String}
    (ht : (P.agentEnd v).target = some t) :
    ∃ r, Paired P.sys .relay r v ⟨.relay, r⟩ ∧
      ((P.sys.sess .relay).cells r).openPc ≠ .accepted ∧
      t = resolveTarget services ((P.sys.sess .relay).cells r).hist.openArg := by
  have hO := orderly_reach ((circuits_system h).mono fun _ _ h => h.1)
  obtain ⟨hv, hacc, htarget⟩ := (looked_reach h).served v t ht
  obtain ⟨r, hr, hconv, _, hpayload, hpc⟩ := hO.opens.accepted .agent v hv hacc
  have hconv' := (hO.wellFormed .relay).conv r hr hpc
  rw [hO.role] at hconv'
  refine ⟨r, ⟨hr, hv, hconv', hconv⟩, hpc, ?_⟩
  rw [htarget, hpayload]
  rfl

/-- A stream that the agent has found a service for belongs to exactly one stream of the relay, and
to no other stream of the agent. The service is the one that the client's stream was opened for, and
in each direction the bytes that have come out are the first of those that went in. -/
theorem circuits_end_to_end (h : CircuitsReach config services bufSize P) {v : Ref} {t : String}
    (ht : (P.agentEnd v).target = some t) :
    ∃ r c, Paired P.sys .relay r v c ∧
      (∀ r' c', Paired P.sys .relay r' v c' → r' = r) ∧
      (∀ v' c', Paired P.sys .relay r v' c' → v' = v) ∧
      t = resolveTarget services ((P.sys.sess .relay).cells r).hist.openArg ∧
      (P.copiers .agent v).sock.received <+: (P.copiers .relay r).sock.sent ∧
      (P.copiers .relay r).sock.received <+: (P.copiers .agent v).sock.sent := by
  have hO := orderly_reach ((circuits_system h).mono fun _ _ h => h.1)
  obtain ⟨r, hp, _, htarget⟩ := served_stream h ht
  refine ⟨r, ⟨.relay, r⟩, hp, fun r' c' hq => ?_, fun v' c' hq => ?_, htarget, received_sent h hp,
    received_sent h hp.symm⟩
  · have hc : c' = ⟨.relay, r⟩ := Option.some.inj (hq.convReader.symm.trans hp.convReader)
    exact hO.unique .relay r' r _ hq.writer hp.writer (hc ▸ hq.convWriter) hp.convWriter
  · have hc : c' = ⟨.relay, r⟩ := Option.some.inj (hq.convWriter.symm.trans hp.convWriter)
    exact hO.unique .agent v' v _ hq.reader hp.reader (hc ▸ hq.convReader) hp.convReader

/-- An agent with two services. -/
def twoServices : ServiceMap :=
  ((∅ : ServiceMap).insert [1] "10.0.0.1:80").insert [2] "10.0.0.2:22"

/-- A run of the two sessions. -/
def circuitRun (l : List (Role × Action)) : List CircuitsAction := l.map fun p => .sys p.1 p.2

/-- The open of the relay's first stream goes to the agent, and the ACK comes back. -/
def openedRun (payload : Bytes) : List CircuitsAction :=
  circuitRun (onSide .relay [.opening 0 .register, .opening 0 .enqueue] ++
    passRun .relay (frameOne .streamOpen {} payload) ++
    onSide .agent [.reader, .reader, .reader, .reader, .acceptStream] ++
    passRun .agent (frameOne .streamOpen { ack := true } []) ++
    onSide .relay [.reader, .reader, .opening 0 .ack])

/-- The far end of `X` sends a byte over the first stream. -/
def byteRun (X : Role) (b : UInt8) : List CircuitsAction :=
  [CircuitsAction.farSend X 0 [b], .copyIn X 0 1, .copyIn X 0 1, .copyIn X 0 1] ++
  circuitRun (onSide X [.drain 0 .data, .drain 0 .next] ++
    passRun X (frameOne .streamData {} [b]) ++ onSide X.peer [.reader, .reader]) ++
  [.copyOut X.peer 0, .copyOut X.peer 0]

/-- A client asks for the second service; it sends `[7]` and the service `[9]`. -/
def roundTripRun : List CircuitsAction :=
  circuitRun (onSide .relay [.openStream [2], .openAlloc [2]]) ++ openedRun [2] ++
  [CircuitsAction.route 0, .serve 0, .dialed 0 none] ++ byteRun .relay 7 ++ byteRun .agent 9

/-- One byte each way. -/
theorem circuits_end_to_end_round_trip :
    ∃ P, CircuitsReach fourStreams twoServices (fun _ => 4) P ∧
      (P.copiers .agent 0).sock.received = [7] ∧ (P.copiers .relay 0).sock.received = [9] ∧
      ∃ r c, Paired P.sys .relay r 0 c ∧
        "10.0.0.2:22" = resolveTarget twoServices ((P.sys.sess .relay).cells r).hist.openArg ∧
        (P.copiers .agent 0).sock.received <+: (P.copiers .relay r).sock.sent ∧
        (P.copiers .relay r).sock.received <+: (P.copiers .agent 0).sock.sent := by
  have hex : ∃ P, CircuitsReach fourStreams twoServices (fun _ => 4) P ∧
      (P.copiers .agent 0).sock.received = [7] ∧ (P.copiers .relay 0).sock.received = [9] ∧
      (P.agentEnd 0).target = some "10.0.0.2:22" :=
    exists_reach_of_exec roundTripRun _ (by decide +kernel)
  obtain ⟨P, hP, hin, hout, ht⟩ := hex
  obtain ⟨r, c, hp, _, _, htarget, hfrom, hto⟩ := circuits_end_to_end hP ht
  exact ⟨P, hP, hin, hout, r, c, hp, htarget, hfrom, hto⟩

end Atlax.Analysis
