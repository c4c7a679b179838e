import Atlax.Library.Run
import Atlax.Model.Ping

/-!
# What a successful Ping has seen

A Ping returns success when there is a token in its channel, and the token was sent by the handler
of some PONG that read `pingCh` after the call had begun. Which PONG it was the handler does not
ask: the answer to an earlier call that timed out, or one that nobody asked for, will do. When all
the PONGs that are handled while a call is under way carry `pingData`, the call has seen its own
bytes.
-/

set_option autoImplicit false

namespace Atlax.Analysis

open Atlax.Model Atlax.Library

/-! ## The trace -/

/-- What can be seen of a Ping. -/
inductive PingEvent
  /-- a call begins, with these bytes for its PING -/
  | began (data : Bytes)
  | queued (p : Packet)
  /-- the section of `handlePong` for a PONG with this payload -/
  | handled (payload : Bytes)
  | returned (result : Except PingError ℕ)
  deriving DecidableEq

def pingEvent (s : PingState) (a : PingAction) (_ : PingState) : List PingEvent :=
  match a with
  | .begin => [.began (putUint64 s.clock)]
  | .enqueue => [.queued s.pingPacket]
  | .handle =>
    match s.reader with
    | .frame payload => [.handled payload]
    | _ => []
  | .receive | .timeout | .ctxDone _ | .sessionClosed =>
    match s.returns a with
    | some result => [.returned result]
    | none => []
  | .select | .recv _ | .send | .close | .tick _ => []

/-- A session on which no Ping has been called. -/
def startPing (pingTimeout clock : ℕ) : PingState := { pingTimeout := pingTimeout, clock := clock }

def pingEvents (pingTimeout clock : ℕ) (as : List PingAction) : List PingEvent :=
  outputs PingState.step pingEvent (startPing pingTimeout clock) as

variable {s s' : PingState} {a : PingAction} {es : List PingEvent}

theorem pingEvent_length (s : PingState) (a : PingAction) (s' : PingState) :
    (pingEvent s a s').length ≤ 1 := by
  unfold pingEvent
  split <;> (try split) <;> simp

/-! ## What a step does -/

/-- The moves of a call and of the handler, with what each puts into the trace. -/
inductive PingMove (s : PingState) : PingAction → PingState → List PingEvent → Prop
  | begin (h : s.call = .idle) :
      PingMove s .begin { s with
        pingCh := some s.chans.length
        chans := s.chans ++ [false]
        pingData := putUint64 s.clock
        call := .begun s.clock } [.began (putUint64 s.clock)]
  | enqueue (now : ℕ) (h : s.call = .begun now) :
      PingMove s .enqueue { s with call := .queued now s.clock } [.queued s.pingPacket]
  | select (now start : ℕ) (h : s.call = .queued now start) :
      PingMove s .select { s with call := .select now start s.pingCh } []
  | receive (now start ch : ℕ) (h : s.call = .select now start (some ch))
      (htoken : s.chans[ch]? = some true) :
      PingMove s .receive { s.finish with chans := s.chans.set ch false }
        [.returned (.ok (s.clock - start))]
  | fail (a : PingAction) (err : PingError) (h : s.returns a = some (.error err)) :
      PingMove s a s.finish [.returned (.error err)]
  | recv (payload : Bytes) (h : s.reader = .idle) :
      PingMove s (.recv payload) { s with reader := .frame payload } []
  | handle (payload : Bytes) (h : s.reader = .frame payload) :
      PingMove s .handle { s with reader := .send s.pingCh } [.handled payload]
  | send (ch : ℕ) (h : s.reader = .send (some ch)) :
      PingMove s .send { s.trySend ch with reader := .idle } []
  | sendNil (h : s.reader = .send none) : PingMove s .send { s with reader := .idle } []
  | close : PingMove s .close { s with closed := true } []
  | tick (elapsed : ℕ) : PingMove s (.tick elapsed) { s with clock := s.clock + elapsed } []

theorem ping_move (h : s.step a = some s') : PingMove s a s' (pingEvent s a s') := by
  cases a with
  | begin =>
    simp only [PingState.step] at h
    split at h <;> cases h
    next hcall => exact .begin hcall
  | enqueue =>
    simp only [PingState.step] at h
    split at h <;> cases h
    next now hcall => exact .enqueue now hcall
  | select =>
    simp only [PingState.step] at h
    split at h <;> cases h
    next now start hcall => exact .select now start hcall
  | receive =>
    simp only [PingState.step] at h
    split at h
    · next now start ch hcall =>
      split at h <;> cases h
      next htoken =>
      have hev : pingEvent s .receive { s.finish with chans := s.chans.set ch false } =
          [.returned (.ok (s.clock - start))] := by
        simp only [pingEvent, PingState.returns, hcall]
      rw [hev]
      exact .receive now start ch hcall htoken
    · cases h
  | timeout =>
    simp only [PingState.step] at h
    split at h
    · split at h <;> cases h
      exact .fail .timeout (.timeout s.pingTimeout) rfl
    · cases h
  | ctxDone err =>
    simp only [PingState.step] at h
    split at h <;> cases h
    exact .fail (.ctxDone err) (.ctx err) rfl
  | sessionClosed =>
    simp only [PingState.step] at h
    split at h
    · split at h <;> cases h
      exact .fail .sessionClosed .goAway rfl
    · cases h
  | recv payload =>
    simp only [PingState.step] at h
    split at h <;> cases h
    next hrd => exact .recv payload hrd
  | handle =>
    simp only [PingState.step] at h
    split at h <;> cases h
    next payload hrd =>
    have hev : pingEvent s .handle { s with reader := .send s.pingCh } = [.handled payload] := by
      simp only [pingEvent, hrd]
    rw [hev]
    exact .handle payload hrd
  | send =>
    simp only [PingState.step] at h
    split at h <;> cases h
    · next ch hrd => exact .send ch hrd
    · next hrd => exact .sendNil hrd
  | close =>
    cases h
    exact .close
  | tick elapsed =>
    cases h
    exact .tick elapsed

/-! ## The invariant -/

/-- There is a token for the current channel, in it or with the handler. -/
def Signalled (s : PingState) : Prop :=
  ∃ c, s.pingCh = some c ∧ (s.chans[c]? = some true ∨ s.reader = .send (some c))

/-- The PONGs that are handled while a call is under way carry `pingData`.
SOURCE: mux_session.go:524-535 -/
def Answers (s : PingState) : PingAction → Prop
  | .handle => s.call = .idle ∨ s.reader = .frame s.pingData
  | _ => True

instance (s : PingState) (a : PingAction) : Decidable (Answers s a) := by
  unfold Answers
  split <;> infer_instance

/-- What has happened since the call under way began with `data`: only its own bytes were handled,
and they were if there is a token. -/
def Since (s : PingState) (data : Bytes) (es : List PingEvent) : Prop :=
  ∃ pre post, es = pre ++ PingEvent.began data :: post ∧ (∀ d, .began d ∉ post) ∧
    (∀ payload, .handled payload ∈ post → payload = data) ∧
    (Signalled s → ∃ payload, .handled payload ∈ post)

/-- What a Ping has done so far. -/
structure PingInv (es : List PingEvent) (s : PingState) : Prop where
  chan : ∀ c, s.pingCh = some c → c < s.chans.length
  sending : ∀ c, s.reader = .send (some c) → c < s.chans.length
  select : ∀ now start ch, s.call = .select now start ch → ch = s.pingCh
  data : ∀ now, s.call.now = some now → s.pingData = putUint64 now
  since : ∀ now, s.call.now = some now → Since s (putUint64 now) es

/-- The same call goes on, with events that are neither beginnings nor PONGs, and no new token. -/
theorem Since.later {data : Bytes} {es ev : List PingEvent} (h : Since s data es)
    (hev : ∀ e ∈ ev, (∀ d, e ≠ .began d) ∧ ∀ payload, e ≠ .handled payload)
    (hsig : Signalled s' → Signalled s) : Since s' data (es ++ ev) := by
  obtain ⟨pre, post, hes, hbegan, hown, hseen⟩ := h
  refine ⟨pre, post ++ ev, by simp [hes], ?_, ?_, ?_⟩
  · intro d hd
    obtain hd | hd := List.mem_append.mp hd
    · exact hbegan d hd
    · exact (hev _ hd).1 d rfl
  · intro payload hp
    obtain hp | hp := List.mem_append.mp hp
    · exact hown payload hp
    · exact absurd rfl ((hev _ hp).2 payload)
  · intro hs
    obtain ⟨payload, hp⟩ := hseen (hsig hs)
    exact ⟨payload, List.mem_append_left _ hp⟩

/-- A PONG with the call's bytes is handled. -/
theorem Since.handled {data : Bytes} (h : Since s data es) :
    Since s' data (es ++ [.handled data]) := by
  obtain ⟨pre, post, hes, hbegan, hown, -⟩ := h
  refine ⟨pre, post ++ [.handled data], by simp [hes], ?_, ?_, fun _ => ⟨data, by simp⟩⟩
  · intro d hd
    obtain hd | hd := List.mem_append.mp hd
    · exact hbegan d hd
    · cases List.mem_singleton.mp hd
  · intro payload hp
    obtain hp | hp := List.mem_append.mp hp
    · exact hown payload hp
    · cases List.mem_singleton.mp hp
      rfl

/-- A handler that is not about to send holds no token. -/
theorem signalled_reader {rd : PongPc} (hrd : ∀ ch, rd ≠ .send ch)
    (hs : Signalled { s with reader := rd }) : Signalled s := by
  obtain ⟨c, hc, htoken | hsend⟩ := hs
  · exact ⟨c, hc, .inl htoken⟩
  · exact absurd hsend (hrd (some c))

/-- The handler's send brings no token that was not on its way. -/
theorem signalled_send {ch : ℕ} (h : s.reader = .send (some ch))
    (hs : Signalled { s.trySend ch with reader := .idle }) : Signalled s := by
  obtain ⟨c, hc, htoken | hrd⟩ := hs
  · refine ⟨c, hc, ?_⟩
    by_cases hch : ch = c
    · exact .inr (hch ▸ h)
    · left
      rwa [PingState.trySend, List.getElem?_set_ne hch] at htoken
  · cases hrd

theorem pingInv_step (h : PingInv es s) (hok : Answers s a)
    (hstep : s.step a = some s') : PingInv (es ++ pingEvent s a s') s' := by
  have hm := ping_move hstep
  generalize pingEvent s a s' = ev at hm
  cases hm with
  | begin =>
    refine ⟨?_, ?_, nofun, ?_, ?_⟩
    · intro c hc
      cases hc
      simp
    · intro c hc
      have hlt := h.sending c hc
      simp only [List.length_append, List.length_cons, List.length_nil]
      omega
    · intro now hnow
      cases hnow
      rfl
    · intro now hnow
      cases hnow
      refine ⟨es, [], rfl, by simp, by simp, ?_⟩
      rintro ⟨c, hc, htoken | hrd⟩
      · cases hc
        simp at htoken
      · -- the handler holds a channel that was there before
        cases hc
        exact absurd (h.sending _ hrd) (Nat.lt_irrefl _)
  | enqueue now hcall =>
    refine ⟨h.chan, h.sending, nofun, ?_, ?_⟩
    · intro now' hnow
      exact h.data now' (by rw [hcall]; exact hnow)
    · intro now' hnow
      exact (h.since now' (by rw [hcall]; exact hnow)).later (by simp) id
  | select now start hcall =>
    refine ⟨h.chan, h.sending, ?_, ?_, ?_⟩
    · intro now' start' ch hsel
      cases hsel
      rfl
    · intro now' hnow
      exact h.data now' (by rw [hcall]; exact hnow)
    · intro now' hnow
      exact (h.since now' (by rw [hcall]; exact hnow)).later (by simp) id
  | receive now start ch =>
    refine ⟨?_, ?_, nofun, nofun, nofun⟩
    · simpa [PingState.finish] using h.chan
    · simpa [PingState.finish] using h.sending
  | fail => exact ⟨h.chan, h.sending, nofun, nofun, nofun⟩
  | recv payload hrd | sendNil hrd =>
    refine ⟨h.chan, nofun, h.select, h.data, fun now hnow => ?_⟩
    exact (h.since now hnow).later (by simp) (signalled_reader nofun)
  | handle payload hrd =>
    refine ⟨h.chan, ?_, h.select, h.data, ?_⟩
    · intro c hc
      exact h.chan c (PongPc.send.inj hc)
    · intro now hnow
      obtain hidle | hown := hok
      · rw [show s.call.now = none by rw [hidle]; rfl] at hnow
        cases hnow
      · rw [hrd, PongPc.frame.injEq, h.data now hnow] at hown
        rw [hown]
        exact (h.since now hnow).handled
  | send ch hrd =>
    refine ⟨?_, nofun, h.select, h.data, fun now hnow => ?_⟩
    · simpa [PingState.trySend] using h.chan
    · exact (h.since now hnow).later (by simp) (signalled_send hrd)
  | close | tick =>
    refine ⟨h.chan, h.sending, h.select, h.data, fun now hnow => ?_⟩
    exact (h.since now hnow).later (by simp) id

theorem pingInv_run {pingTimeout clock : ℕ} {as : List PingAction}
    (h : exec (guarded PingState.step Answers) (startPing pingTimeout clock) as = some s) :
    PingInv (pingEvents pingTimeout clock as) s := by
  have hI := exec_invariant (fun as s => PingInv (pingEvents pingTimeout clock as) s) h ?_ ?_
  · exact hI.2
  · exact ⟨nofun, nofun, nofun, nofun, nofun⟩
  · intro as a s s' hexec hI hok hstep
    have hev : pingEvents pingTimeout clock (as ++ [a]) =
        pingEvents pingTimeout clock as ++ pingEvent s a s' := outputs_concat hexec hstep
    rw [hev]
    exact pingInv_step hI hok hstep

/-- When every PONG that is handled while a call is under way carries `pingData`: a call that
returns success began with some bytes, and a PONG with exactly these bytes has been handled since.
SOURCE: mux_session.go:234-267, 524-535 -/
theorem ping_answered {pingTimeout clock : ℕ} {as : List PingAction}
    (h : exec (guarded PingState.step Answers) (startPing pingTimeout clock) as = some s)
    {l₁ l₂ : List PingEvent} {latency : ℕ}
    (hret : pingEvents pingTimeout clock as = l₁ ++ .returned (.ok latency) :: l₂) :
    ∃ data pre post, l₁ = pre ++ PingEvent.began data :: post ∧ (∀ d, .began d ∉ post) ∧
      .handled data ∈ post := by
  obtain ⟨as₁, a, t, t', hexec, -, hstep, hev, hl₁⟩ := exists_output pingEvent_length h hret
  have hI := pingInv_run hexec
  have hm := ping_move hstep
  rw [hev] at hm
  cases hm with
  | receive now start ch hcall htoken =>
    have hnow : t.call.now = some now := by rw [hcall]; rfl
    have hsig : Signalled t := ⟨ch, (hI.select now start (some ch) hcall).symm, .inl htoken⟩
    obtain ⟨pre, post, hes, hbegan, hown, hseen⟩ := hI.since now hnow
    obtain ⟨payload, hp⟩ := hseen hsig
    refine ⟨putUint64 now, pre, post, ?_, hbegan, ?_⟩
    · rw [← hl₁]
      exact hes
    · rw [← hown payload hp]
      exact hp

/-- A Ping whose answer comes after an answer to nobody, from before the call. -/
def answeredRun : List PingAction :=
  [.recv (putUint64 7), .handle, .send, .tick 3, .begin, .enqueue, .select, .tick 5,
    .recv (putUint64 12), .handle, .send, .receive]

theorem ping_answered_run : ∃ data pre post,
    pingEvents 10 9 answeredRun = pre ++ PingEvent.began data :: post ++ [.returned (.ok 5)] ∧
    (∀ d, .began d ∉ post) ∧ .handled data ∈ post := by
  obtain ⟨s, hs, -⟩ := exists_some_of_any
    (x := exec (guarded PingState.step Answers) (startPing 10 9) answeredRun) (fun _ => True)
    (by decide)
  have hret : pingEvents 10 9 answeredRun =
      [.handled (putUint64 7), .began (putUint64 12),
        .queued (connPacket .ping (putUint64 12)), .handled (putUint64 12)] ++
      .returned (.ok 5) :: [] := by decide
  obtain ⟨data, pre, post, hl, hbegan, hmem⟩ := ping_answered hs hret
  refine ⟨data, pre, post, ?_, hbegan, hmem⟩
  rw [hret, hl]

/-- The first call times out, and its late answer is handled during the second, which returns
success although its own bytes never came back. -/
theorem ping_answered_late : ∃ as s,
    exec PingState.step (startPing 10 9) as = some s ∧
    putUint64 9 ≠ putUint64 20 ∧
    pingEvents 10 9 as = [.began (putUint64 9), .queued (connPacket .ping (putUint64 9)),
      .returned (.error (.timeout 10)), .began (putUint64 20),
      .queued (connPacket .ping (putUint64 20)), .handled (putUint64 9), .returned (.ok 0)] := by
  refine ⟨[.begin, .enqueue, .select, .tick 11, .timeout, .begin, .enqueue, .select,
    .recv (putUint64 9), .handle, .send, .receive], ?_⟩
  exact exists_some_of_any _ (by decide)

/-! ## The channel in the session's model -/

/-- Whether there is a channel, and whether it holds its token. -/
def PingState.current (s : PingState) : Option Bool :=
  s.pingCh.map fun c => s.chans[c]?.getD false

/-- The session's model takes a call's section and its Enqueue as one step. -/
theorem ping_session (m : Session) (h : s.step .begin = some s') :
    m.step (.ping s'.pingData) =
      some ({ m with pingCh := PingState.current s' }.enqueue s'.pingPacket .control) := by
  have hm := ping_move h
  generalize pingEvent s .begin s' = ev at hm
  cases hm with
  | begin =>
    simp only [Session.step, PingState.current, PingState.pingPacket, Option.map_some,
      List.getElem?_concat_length, Option.getD_some]
  | fail _ _ hret => cases hret

/-- It takes a PONG's section and the send as one step too. -/
theorem pong_session {m : Session} {p : Packet} {s₁ : PingState}
    (h : PingInv es s) (hp : p.frame.command = .pong) (hm : m.pingCh = PingState.current s)
    (hhandle : s.step .handle = some s₁) (hsend : s₁.step .send = some s') :
    (m.handleFrame p).pingCh = PingState.current s' := by
  simp only [Session.handleFrame, hp]
  rw [hm]
  simp only [PingState.step] at hhandle
  split at hhandle <;> cases hhandle
  simp only [PingState.step] at hsend
  split at hsend <;> cases hsend
  · next c hc =>
    have hch : s.pingCh = some c := PongPc.send.inj hc
    simp [PingState.current, PingState.trySend, hch, h.chan c hch]
  · next hnil =>
    have hch : s.pingCh = none := PongPc.send.inj hnil
    simp [PingState.current, hch]

end Atlax.Analysis
