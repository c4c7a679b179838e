import Atlax.Model.CopyBidirectional
import Atlax.Analysis.TwoSessions

/-!
# What the copying goroutines do

One step of `copyBidirectional`, of the client or of the joined sessions below them, with the
guards it has passed. Every call on the stream is a step of the relay's session.
-/

set_option autoImplicit false

namespace Atlax.Analysis

open Atlax.Model Atlax.Library

/-- One step of the copying, with what it finds. -/
inductive CopyMove (v : Ref) (P : Proxy) : ProxyAction → Proxy → Prop
  | sys (X : Role) (a : Action) (S : System) (hown : ownCall v X a = false)
      (h : P.sys.step (X, a) = some S) : CopyMove v P (.sys X a) { P with sys := S }
  | start (hs : P.started = false) (hv : v < (P.sys.sess .relay).nextRef)
      (hpc : ((P.sys.sess .relay).cells v).openPc = .returned)
      (hh : ((P.sys.sess .relay).cells v).handle = true) :
      CopyMove v P .start { P with started := true }
  | clientSend (n : ℕ) :
      CopyMove v P (.clientSend n) { P with clientConn := { P.clientConn with
        unsent := P.clientConn.unsent.drop n
        sent := P.clientConn.sent ++ P.clientConn.unsent.take n
        inbound := P.clientConn.inbound ++ P.clientConn.unsent.take n } }
  | clientEnd (h : P.clientConn.unsent = []) :
      CopyMove v P .clientEnd { P with clientConn := { P.clientConn with ended := true } }
  | readOut (hs : P.started = true) (hpc : P.copyOut = .read) (S : System)
      (h : P.sys.step (.relay, .call v (.read copyBufSize)) = some S)
      (hb : (P.stream v).readBuf ≠ []) :
      CopyMove v P .copyOut
        { P with sys := S, copyOut := .write ((P.stream v).readBuf.take copyBufSize) }
  | eofOut (hs : P.started = true) (hpc : P.copyOut = .read) (S : System)
      (h : P.sys.step (.relay, .call v (.read copyBufSize)) = some S)
      (heof : ((P.stream v).read copyBufSize).1 = .eof) :
      CopyMove v P .copyOut { P with sys := S, copyOut := .ended none }
  | writeOut (hs : P.started = true) (data : Bytes) (hpc : P.copyOut = .write data)
      (hcl : P.clientConn.closed = false) :
      CopyMove v P .copyOut { P with
        clientConn := { P.clientConn with received := P.clientConn.received ++ data }
        copyOut := .read }
  | failOut (hs : P.started = true) (data : Bytes) (hpc : P.copyOut = .write data)
      (hcl : P.clientConn.closed = true) :
      CopyMove v P .copyOut { P with copyOut := .ended (some errClosed) }
  | endOut (hs : P.started = true) (err : Option String) (hpc : P.copyOut = .ended err) :
      CopyMove v P .copyOut { P with copyOut := .report err, cancelled := true }
  | reportOut (hs : P.started = true) (err : Option String) (hpc : P.copyOut = .report err) :
      CopyMove v P .copyOut { P with copyOut := .returned, errCh := P.errCh ++ [err] }
  | readIn (hs : P.started = true) (n : ℕ) (hpc : P.copyIn = .read) :
      CopyMove v P (.copyIn n) { P with
        clientConn := { P.clientConn with inbound := P.clientConn.inbound.drop n }
        copyIn := .write (P.clientConn.inbound.take n) }
  | eofIn (hs : P.started = true) (n : ℕ) (hpc : P.copyIn = .read)
      (hend : P.clientConn.ended = true) :
      CopyMove v P (.copyIn n) { P with copyIn := .ended none }
  | closedIn (hs : P.started = true) (n : ℕ) (hpc : P.copyIn = .read)
      (hcl : P.clientConn.closed = true) :
      CopyMove v P (.copyIn n) { P with copyIn := .ended (some errClosed) }
  | writeIn (hs : P.started = true) (n : ℕ) (data : Bytes) (hpc : P.copyIn = .write data)
      (S : System) (h : P.sys.step (.relay, .call v (.write data)) = some S)
      (hopen : (P.stream v).isWriteClosed = false) :
      CopyMove v P (.copyIn n) { P with sys := S, copyIn := .send data }
  | refusedIn (hs : P.started = true) (n : ℕ) (data : Bytes) (hpc : P.copyIn = .write data)
      (hcl : (P.stream v).isWriteClosed = true) :
      CopyMove v P (.copyIn n) { P with copyIn := .ended (some (errStreamClosed (P.stream v).id)) }
  | sendIn (hs : P.started = true) (n : ℕ) (data : Bytes) (hpc : P.copyIn = .send data)
      (S : System) (h : P.sys.step (.relay, .call v (.writeSend data)) = some S) :
      CopyMove v P (.copyIn n) { P with sys := S, copyIn := .read }
  | failIn (hs : P.started = true) (data : Bytes) (hpc : P.copyIn = .send data)
      (S : System) (h : P.sys.step (.relay, .call v (.writeFail data)) = some S) :
      CopyMove v P .copyInFail
        { P with sys := S, copyIn := .ended (some (errStreamClosed (P.stream v).id)) }
  | endIn (hs : P.started = true) (n : ℕ) (err : Option String) (hpc : P.copyIn = .ended err) :
      CopyMove v P (.copyIn n) { P with copyIn := .report err, cancelled := true }
  | reportIn (hs : P.started = true) (n : ℕ) (err : Option String)
      (hpc : P.copyIn = .report err) :
      CopyMove v P (.copyIn n) { P with copyIn := .returned, errCh := P.errCh ++ [err] }
  | closeConn (hs : P.started = true) (hpc : P.watch = .wait) (hc : P.cancelled = true) :
      CopyMove v P .watch
        { P with clientConn := { P.clientConn with closed := true }, watch := .reset }
  | resetStream (hs : P.started = true) (hpc : P.watch = .reset) (S : System)
      (h : P.sys.step (.relay, .call v (.reset 0)) = some S) :
      CopyMove v P .watch { P with sys := S, watch := .done }

variable {v : Ref} {P P' : Proxy} {a : ProxyAction} {k : Call}

/-- A call on a held stream moves its cell. -/
theorem system_call {S S' : System} {X : Role} {r : Ref}
    (h : S.step (X, .call r k) = some S') :
    CellCall ((S.sess X).cells r) k ((S'.sess X).cells r) := by
  have hm := (system_move h).move
  generalize S'.sess X = s' at hm ⊢
  cases hm with
  | call r hr hh k c hc => simpa using hc

theorem call_eq_some (h : P.call v k = some P') :
    ∃ S, P.sys.step (.relay, .call v k) = some S ∧ P' = { P with sys := S } := by
  simp only [Proxy.call, Option.map_eq_some_iff] at h
  obtain ⟨S, hS, rfl⟩ := h
  exact ⟨S, hS, rfl⟩

theorem eof_of_read {c c' : Cell} {n : ℕ} (h : CellCall c (.read n) c')
    (hb : c.stream.readBuf = []) : (c.stream.read n).1 = .eof := by
  cases h with
  | readEof _ _ hcl => simp [StreamSession.read, hb, hcl]
  | readBytes _ hne => exact absurd hb hne

/-- A goroutine that makes a call and leaves the connection as it is. -/
theorem act_call (h : P.act v (some k) P.clientConn.toTcpConn = some P') :
    ∃ S, P.sys.step (.relay, .call v k) = some S ∧ P' = { P with sys := S } :=
  call_eq_some h

/-- The copy to the client. -/
theorem stepOut_move (hs : P.started = true) (h : P.stepOut v = some P') :
    CopyMove v P .copyOut P' := by
  unfold Proxy.stepOut at h
  cases hpc : P.copyOut with
  | read =>
    simp only [hpc, OutPc.next, Option.bind_eq_bind, Option.bind_some] at h
    obtain ⟨Q, hQ, rfl⟩ := Option.map_eq_some_iff.mp h
    obtain ⟨S, hS, rfl⟩ := act_call hQ
    by_cases hb : (P.stream v).readBuf = []
    · have heof : ((P.stream v).read copyBufSize).1 = .eof := eof_of_read (system_call hS) hb
      simp only [heof]
      exact .eofOut hs hpc S hS heof
    · have hread : ((P.stream v).read copyBufSize).1 =
          .bytes ((P.stream v).readBuf.take copyBufSize) := by
        simp [StreamSession.read, hb]
      simp only [hread]
      exact .readOut hs hpc S hS hb
  | write data =>
    simp only [hpc, OutPc.next, Option.bind_eq_bind] at h
    split at h <;> cases h
    · next hcl => exact .failOut hs data hpc hcl
    · next hcl => exact .writeOut hs data hpc (by simpa using hcl)
  | ended err =>
    simp only [hpc, RelayEnd.endOut, Option.map_some] at h
    cases h
    exact .endOut hs err hpc
  | report err =>
    simp only [hpc, RelayEnd.endOut, Option.map_some] at h
    cases h
    exact .reportOut hs err hpc
  | returned => simp [hpc, OutPc.next] at h

/-- The copy to the stream. -/
theorem stepIn_move (hs : P.started = true) {n : ℕ} (h : P.stepIn v n = some P') :
    CopyMove v P (.copyIn n) P' := by
  unfold Proxy.stepIn at h
  cases hpc : P.copyIn with
  | read =>
    simp only [hpc, InPc.next, Option.bind_eq_bind] at h
    split at h
    · next hcl =>
      cases h
      exact .closedIn hs n hpc hcl
    · split at h
      · split at h <;> cases h
        next hend => exact .eofIn hs n hpc hend
      · split at h <;> cases h
        exact .readIn hs n hpc
  | write data =>
    simp only [hpc, InPc.next, Option.bind_eq_bind] at h
    split at h
    · next hcl =>
      cases h
      exact .refusedIn hs n data hpc hcl
    · next hopen =>
      obtain ⟨Q, hQ, rfl⟩ := Option.map_eq_some_iff.mp h
      obtain ⟨S, hS, rfl⟩ := act_call hQ
      exact .writeIn hs n data hpc S hS (by simpa using hopen)
  | send data =>
    simp only [hpc, InPc.next, Option.bind_eq_bind, Option.bind_some] at h
    obtain ⟨Q, hQ, rfl⟩ := Option.map_eq_some_iff.mp h
    obtain ⟨S, hS, rfl⟩ := act_call hQ
    exact .sendIn hs n data hpc S hS
  | ended err =>
    simp only [hpc, RelayEnd.endIn, Option.map_some] at h
    cases h
    exact .endIn hs n err hpc
  | report err =>
    simp only [hpc, RelayEnd.endIn, Option.map_some] at h
    cases h
    exact .reportIn hs n err hpc
  | returned => simp [hpc, InPc.next] at h

/-- The watcher. -/
theorem stepWatch_move (hs : P.started = true) (h : P.stepWatch v = some P') :
    CopyMove v P .watch P' := by
  unfold Proxy.stepWatch RelayEnd.next at h
  cases hpc : P.watch with
  | wait =>
    simp only [hpc, Option.bind_eq_bind] at h
    split at h <;> cases h
    next hc => exact .closeConn hs hpc hc
  | reset =>
    simp only [hpc, Option.bind_eq_bind, Option.bind_some] at h
    obtain ⟨Q, hQ, rfl⟩ := Option.map_eq_some_iff.mp h
    obtain ⟨S, hS, rfl⟩ := act_call hQ
    exact .resetStream hs hpc S hS
  | done => simp [hpc] at h

/-- Every step is one of these moves. -/
theorem copy_move (h : P.step v a = some P') : CopyMove v P a P' := by
  cases a with
  | sys X b =>
    simp only [Proxy.step] at h
    split at h
    · cases h
    · next hown =>
      obtain ⟨S, hS, rfl⟩ := Option.map_eq_some_iff.mp h
      exact .sys X b S (by simpa using hown) hS
  | start =>
    simp only [Proxy.step, Option.ite_none_right_eq_some, Option.some.injEq] at h
    obtain ⟨⟨hs, hv, hpc, hh⟩, rfl⟩ := h
    exact .start hs hv hpc hh
  | clientSend n =>
    cases h
    exact .clientSend n
  | clientEnd =>
    simp only [Proxy.step, Option.ite_none_right_eq_some, Option.some.injEq] at h
    obtain ⟨hu, rfl⟩ := h
    exact .clientEnd hu
  | copyOut =>
    simp only [Proxy.step, Option.ite_none_right_eq_some] at h
    exact stepOut_move h.1 h.2
  | copyIn n =>
    simp only [Proxy.step, Option.ite_none_right_eq_some] at h
    exact stepIn_move h.1 h.2
  | copyInFail =>
    simp only [Proxy.step, Option.ite_none_right_eq_some, Proxy.stepInFail] at h
    obtain ⟨hs, h⟩ := h
    cases hpc : P.copyIn with
    | send data =>
      simp only [hpc, InPc.giveUp, Option.bind_eq_bind, Option.bind_some] at h
      obtain ⟨Q, hQ, rfl⟩ := Option.map_eq_some_iff.mp h
      obtain ⟨S, hS, rfl⟩ := call_eq_some hQ
      exact .failIn hs data hpc S hS
    | _ => simp [hpc, InPc.giveUp] at h
  | watch =>
    simp only [Proxy.step, Option.ite_none_right_eq_some] at h
    exact stepWatch_move h.1 h.2

end Atlax.Analysis
