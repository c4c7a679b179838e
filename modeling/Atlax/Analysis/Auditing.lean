import Atlax.Library.Exclusive
import Atlax.Library.Processes
import Atlax.Library.Run
import Atlax.Model.Emitter

/-!
# Audit events at shutdown

An `Emit` that finds the emitter open and then makes its second select finds two cases ready once
`Close` has closed both channels, and when it takes the send it panics. Nothing in `Close` waits for
the `Emit` calls that are past their check, so the process may go down with events in the buffer.

When none of them is there at the moment `eventCh` is closed, nothing panics, and `Close` returns
after every event whose `Emit` returned nil has been logged once: the channel gives `drainLoop` what
was sent, in order, and `drainLoop` ends when the channel is empty.
-/

set_option autoImplicit false

namespace Atlax.Analysis

open Atlax.Model Atlax.Library

variable {bufferSize : ℤ}

variable {n : ℕ} {s s' : SlogEmitter n} {a : EmitterAction} {k : ℕ}

/-! ## What a step does -/

/-- The steps of an emitter that has not panicked. -/
inductive EmitterMove (s : SlogEmitter n) : EmitterAction → SlogEmitter n → Prop
  | emit (event : AuditEvent) :
      EmitterMove s (.emit event) { s with emits := s.emits ++ [{ event := event }] }
  | pass {i : ℕ} {c : EmitCall} (hi : s.emits[i]? = some c) (hpc : c.pc = .check)
      (hopen : s.closeCh.closed = false) : EmitterMove s (.check i) (s.setEmit i c .select)
  | refuse {a : EmitterAction} {i : ℕ} {c : EmitCall} (hi : s.emits[i]? = some c)
      (hpc : a = .check i ∧ c.pc = .check ∨ a = .stop i ∧ c.pc = .select) :
      EmitterMove s a (s.setEmit i c (.returned (some ⟨c.event.action⟩)))
  | send {i : ℕ} {c : EmitCall} {ch : Channel AuditEvent n} (hi : s.emits[i]? = some c)
      (hpc : c.pc = .select) (hsend : s.eventCh.send c.event = .done ch) :
      EmitterMove s (.send i) { s.setEmit i c (.returned none) with eventCh := ch }
  | sendClosed {i : ℕ} {c : EmitCall} (hi : s.emits[i]? = some c) (hpc : c.pc = .select)
      (hclosed : s.eventCh.closed = true) : EmitterMove s (.send i) { s with panicked := true }
  | close : EmitterMove s .close { s with closes := s.closes ++ [.once] }
  | first {k : ℕ} (hk : s.closes[k]? = some .once) (honce : s.once = .idle) :
      EmitterMove s (.runClose k) { s.setClose k .closeCloseCh with once := .running }
  | later {k : ℕ} (hk : s.closes[k]? = some .once) (honce : s.once = .done) :
      EmitterMove s (.runClose k) (s.setClose k .returned)
  | closeCloseCh {k : ℕ} {ch : Channel Unit 0} (hk : s.closes[k]? = some .closeCloseCh)
      (hclose : s.closeCh.close = .done ch) :
      EmitterMove s (.runClose k) { s.setClose k .closeEventCh with closeCh := ch }
  | closeEventCh {k : ℕ} {ch : Channel AuditEvent n} (hk : s.closes[k]? = some .closeEventCh)
      (hclose : s.eventCh.close = .done ch) :
      EmitterMove s (.runClose k) { s.setClose k .waitDone with eventCh := ch }
  | closeAgain {k : ℕ}
      (hk : (s.closes[k]? = some .closeCloseCh ∧ s.closeCh.closed = true) ∨
        (s.closes[k]? = some .closeEventCh ∧ s.eventCh.closed = true)) :
      EmitterMove s (.runClose k) { s with panicked := true }
  | waitDone {k : ℕ} (hk : s.closes[k]? = some .waitDone) (hdone : s.done.closed = true) :
      EmitterMove s (.runClose k) { s.setClose k .returned with once := .done }
  | receive {event : AuditEvent} {ch : Channel AuditEvent n} (hpc : s.drain = .receive)
      (hrecv : s.eventCh.recv = some (some event, ch)) :
      EmitterMove s .drain { s with eventCh := ch, drain := .log event }
  | drained (hpc : s.drain = .receive) (hempty : s.eventCh.buffer = [])
      (hclosed : s.eventCh.closed = true) : EmitterMove s .drain { s with drain := .closeDone }
  | log {event : AuditEvent} (hpc : s.drain = .log event) :
      EmitterMove s .drain { s with log := s.log ++ [logEvent event], drain := .receive }
  | closeDone {ch : Channel Unit 0} (hpc : s.drain = .closeDone)
      (hclose : s.done.close = .done ch) :
      EmitterMove s .drain { s with done := ch, drain := .returned }
  | closeDoneAgain (hpc : s.drain = .closeDone) (hclosed : s.done.closed = true) :
      EmitterMove s .drain { s with panicked := true }

theorem move_of_stepClose {pc : CloserPc} (hk : s.closes[k]? = some pc)
    (h : s.stepClose k pc = some s') : EmitterMove s (.runClose k) s' := by
  cases pc with
  | once =>
    simp only [SlogEmitter.stepClose] at h
    split at h <;> cases h
    · next honce => exact .first hk honce
    · next honce => exact .later hk honce
  | closeCloseCh =>
    simp only [SlogEmitter.stepClose] at h
    cases hclose : s.closeCh.close with
    | blocks => exact absurd hclose Channel.close_ne_blocks
    | panics =>
      rw [hclose] at h
      cases h
      exact .closeAgain (.inl ⟨hk, Channel.close_panics hclose⟩)
    | done ch =>
      rw [hclose] at h
      cases h
      exact .closeCloseCh hk hclose
  | closeEventCh =>
    simp only [SlogEmitter.stepClose] at h
    cases hclose : s.eventCh.close with
    | blocks => exact absurd hclose Channel.close_ne_blocks
    | panics =>
      rw [hclose] at h
      cases h
      exact .closeAgain (.inr ⟨hk, Channel.close_panics hclose⟩)
    | done ch =>
      rw [hclose] at h
      cases h
      exact .closeEventCh hk hclose
  | waitDone =>
    simp only [SlogEmitter.stepClose, Option.ite_none_right_eq_some, Option.some.injEq] at h
    obtain ⟨hdone, rfl⟩ := h
    exact .waitDone hk (s.done.recv_isSome_iff.mp hdone)
  | returned => cases h

theorem move_of_stepDrain (h : s.stepDrain = some s') : EmitterMove s .drain s' := by
  unfold SlogEmitter.stepDrain at h
  split at h
  · next hpc =>
    split at h <;> cases h
    · next hrecv => exact .receive hpc hrecv
    · next hrecv =>
      obtain ⟨hempty, hclosed, rfl⟩ := Channel.recv_closed hrecv
      exact .drained hpc hempty hclosed
  · next hpc =>
    cases h
    exact .log hpc
  · next hpc =>
    cases hclose : s.done.close with
    | blocks => exact absurd hclose Channel.close_ne_blocks
    | panics =>
      rw [hclose] at h
      cases h
      exact .closeDoneAgain hpc (Channel.close_panics hclose)
    | done ch =>
      rw [hclose] at h
      cases h
      exact .closeDone hpc hclose
  · cases h

theorem emitter_move (h : s.step a = some s') : s.panicked = false ∧ EmitterMove s a s' := by
  simp only [SlogEmitter.step, Option.ite_none_left_eq_some, Bool.not_eq_true] at h
  obtain ⟨hcalm, h⟩ := h
  refine ⟨hcalm, ?_⟩
  cases a with
  | emit event =>
    cases h
    exact .emit event
  | check i =>
    obtain ⟨c, hi, h⟩ := Option.bind_eq_some_iff.mp h
    simp only [SlogEmitter.stepCheck, Option.ite_none_right_eq_some] at h
    obtain ⟨hpc, h⟩ := h
    split at h
    · cases h
      exact .refuse hi (.inl ⟨rfl, hpc⟩)
    · next hopen =>
      cases h
      rw [Channel.recv_isSome_iff, Bool.not_eq_true] at hopen
      exact .pass hi hpc hopen
  | send i =>
    obtain ⟨c, hi, h⟩ := Option.bind_eq_some_iff.mp h
    simp only [SlogEmitter.stepSend, Option.ite_none_right_eq_some] at h
    obtain ⟨hpc, h⟩ := h
    split at h <;> cases h
    · next hsend => exact .sendClosed hi hpc (Channel.send_panics_iff.mp hsend)
    · next hsend => exact .send hi hpc hsend
  | stop i =>
    obtain ⟨c, hi, h⟩ := Option.bind_eq_some_iff.mp h
    simp only [SlogEmitter.stepStop, Option.ite_none_right_eq_some, Option.some.injEq] at h
    obtain ⟨⟨hpc, -⟩, rfl⟩ := h
    exact .refuse hi (.inr ⟨rfl, hpc⟩)
  | close =>
    cases h
    exact .close
  | runClose k =>
    obtain ⟨pc, hk, h⟩ := Option.bind_eq_some_iff.mp h
    exact move_of_stepClose hk h
  | drain => exact move_of_stepDrain h

/-! ## Closing -/

/-- The call runs the function of `once.Do`. -/
def insideOnce : CloserPc → Bool
  | .closeCloseCh | .closeEventCh | .waitDone => true
  | .once | .returned => false

/-- What holds while a `Close` is inside `once.Do`. -/
def CloseStage (s : SlogEmitter n) : CloserPc → Prop
  | .closeCloseCh => s.once = .running ∧ s.closeCh.closed = false ∧ s.eventCh.closed = false
  | .closeEventCh => s.once = .running ∧ s.closeCh.closed = true ∧ s.eventCh.closed = false
  | .waitDone => s.once = .running ∧ s.closeCh.closed = true ∧ s.eventCh.closed = true
  | .once | .returned => True

/-- What holds while none is. -/
def CloseRest (s : SlogEmitter n) : Prop :=
  (s.once = .idle ∧ s.closeCh.closed = false ∧ s.eventCh.closed = false) ∨
    (s.once = .done ∧ s.done.closed = true)

/-- `Close` runs its function once. -/
abbrev ClosesOnce (s : SlogEmitter n) : Prop :=
  Exclusive insideOnce CloseStage CloseRest s.closes s

theorem ClosesOnce.keep (h : ClosesOnce s) (hcloses : s'.closes = s.closes := by rfl)
    (honce : s'.once = s.once := by rfl) (hcloseCh : s'.closeCh = s.closeCh := by rfl)
    (heventCh : s'.eventCh.closed = s.eventCh.closed := by rfl)
    (hdone : s.done.closed = true → s'.done.closed = true := by exact id) : ClosesOnce s' := by
  unfold ClosesOnce
  rw [hcloses]
  refine Exclusive.keep h (fun pc _ _ hstage => ?_) fun hrest => ?_
  · cases pc <;> simp only [CloseStage, honce, hcloseCh, heventCh] at hstage ⊢ <;> exact hstage
  · obtain hidle | ⟨hphase, hclosed⟩ := hrest
    · rw [← honce, ← hcloseCh, ← heventCh] at hidle
      exact .inl hidle
    · exact .inr ⟨honce.trans hphase, hdone hclosed⟩

/-- Nobody is inside `once.Do` unless its function is running. -/
theorem ClosesOnce.passive (h : ClosesOnce s) (honce : s.once ≠ .running) :
    ∀ pc ∈ s.closes, insideOnce pc = false := by
  intro pc hpc
  by_contra hinside
  have hstage := h.stage pc hpc (by simpa using hinside)
  cases pc with
  | once | returned => exact hinside rfl
  | closeCloseCh | closeEventCh | waitDone => exact honce hstage.1

/-- No `Emit` is between its check and its send when `eventCh` is closed. -/
def ClosesQuiet (s : SlogEmitter n) : EmitterAction → Prop
  | .runClose k => s.closes[k]? = some .closeEventCh → ∀ c ∈ s.emits, c.pc ≠ .select
  | _ => True

instance (s : SlogEmitter n) (a : EmitterAction) : Decidable (ClosesQuiet s a) := by
  unfold ClosesQuiet
  split <;> infer_instance

/-- The order in which an emitter is shut down. -/
structure OrderlyClose (s : SlogEmitter n) : Prop where
  closing : ClosesOnce s
  quiet : s.eventCh.closed = true → s.closeCh.closed = true ∧ ∀ c ∈ s.emits, c.pc ≠ .select
  drained : s.drain = .closeDone ∨ s.drain = .returned →
    s.eventCh.closed = true ∧ s.eventCh.buffer = []
  finished : s.done.closed = true ↔ s.drain = .returned
  returned : .returned ∈ s.closes → s.done.closed = true
  calm : s.panicked = false

/-- An `Emit` goes on to a place other than its second select. -/
theorem ne_select_set {i : ℕ} {b : EmitCall} (h : ∀ c ∈ s.emits, c.pc ≠ .select)
    (hb : b.pc ≠ .select) : ∀ c ∈ s.emits.set i b, c.pc ≠ .select := by
  intro d hd
  obtain hd | rfl := List.mem_or_eq_of_mem_set hd
  · exact h d hd
  · exact hb

theorem returned_mem_set {pc : CloserPc} (h : .returned ∈ s.closes.set k pc)
    (hpc : pc ≠ .returned) : .returned ∈ s.closes := by
  obtain h | h := List.mem_or_eq_of_mem_set h
  · exact h
  · exact absurd h.symm hpc

theorem orderly_move (h : OrderlyClose s) (hquiet : ClosesQuiet s a) (hm : EmitterMove s a s') :
    OrderlyClose s' := by
  cases hm with
  | emit event =>
    refine ⟨h.closing.keep, fun hclosed => ⟨(h.quiet hclosed).1, fun c hc => ?_⟩, h.drained,
      h.finished, h.returned, h.calm⟩
    obtain hc | hc := List.mem_append.mp hc
    · exact (h.quiet hclosed).2 c hc
    · rw [List.mem_singleton.mp hc]
      nofun
  | pass hi hpc hopen =>
    refine ⟨h.closing.keep, fun hclosed => ?_, h.drained, h.finished, h.returned, h.calm⟩
    -- it was not past its check when `eventCh` was closed, and finds `closeCh` closed since
    rw [(h.quiet hclosed).1] at hopen
    cases hopen
  | refuse hi hpc =>
    refine ⟨h.closing.keep, fun hclosed => ⟨(h.quiet hclosed).1, ?_⟩, h.drained, h.finished,
      h.returned, h.calm⟩
    exact ne_select_set (h.quiet hclosed).2 nofun
  | send hi hpc hsend =>
    obtain ⟨hopen, hopen', -⟩ := Channel.send_done hsend
    refine ⟨h.closing.keep rfl rfl rfl (hopen'.trans hopen.symm), fun hclosed => ?_, fun hpc => ?_,
      h.finished, h.returned, h.calm⟩
    · rw [hopen'] at hclosed
      cases hclosed
    · rw [(h.drained hpc).1] at hopen
      cases hopen
  | sendClosed hi hpc hclosed =>
    exact absurd hpc ((h.quiet hclosed).2 _ (List.mem_of_getElem? hi))
  | close =>
    refine ⟨?_, h.quiet, h.drained, h.finished, fun hmem => h.returned ?_, h.calm⟩
    · refine Exclusive.keep (h.closing.addPassive rfl) (fun pc _ _ hstage => ?_) id
      cases pc <;> exact hstage
    · simpa using hmem
  | first hk honce =>
    have hpassive := h.closing.passive (by rw [honce]; nofun)
    refine ⟨Exclusive.enter hpassive hk (fun _ => ?_) nofun, h.quiet, h.drained, h.finished,
      fun hmem => h.returned (returned_mem_set hmem nofun), h.calm⟩
    obtain ⟨-, hopen⟩ | ⟨hdone, -⟩ := h.closing.rest hpassive
    · exact ⟨rfl, hopen⟩
    · rw [honce] at hdone
      cases hdone
  | later hk honce =>
    have hpassive := h.closing.passive (by rw [honce]; nofun)
    obtain ⟨hidle, -⟩ | hdone := h.closing.rest hpassive
    · rw [honce] at hidle
      cases hidle
    · exact ⟨Exclusive.enter hpassive hk nofun fun _ => .inr hdone, h.quiet, h.drained, h.finished,
        fun _ => hdone.2, h.calm⟩
  | closeCloseCh hk hclose =>
    obtain ⟨hrunning, -, hopen⟩ := h.closing.at hk rfl
    refine ⟨h.closing.move hk rfl rfl ⟨hrunning, (Channel.close_done hclose).2.1, hopen⟩,
      fun hclosed => ?_, h.drained, h.finished,
      fun hmem => h.returned (returned_mem_set hmem nofun), h.calm⟩
    exact ⟨(Channel.close_done hclose).2.1, (h.quiet hclosed).2⟩
  | closeEventCh hk hclose =>
    obtain ⟨hrunning, hcloseCh, hopen⟩ := h.closing.at hk rfl
    obtain ⟨-, hclosed, hbuffer⟩ := Channel.close_done hclose
    refine ⟨h.closing.move hk rfl rfl ⟨hrunning, hcloseCh, hclosed⟩, fun _ => ⟨hcloseCh, hquiet hk⟩,
      fun hpc => ⟨hclosed, hbuffer.trans (h.drained hpc).2⟩, h.finished,
      fun hmem => h.returned (returned_mem_set hmem nofun), h.calm⟩
  | closeAgain hk =>
    obtain ⟨hk, hclosed⟩ | ⟨hk, hclosed⟩ := hk
    · rw [(h.closing.at hk rfl).2.1] at hclosed
      cases hclosed
    · rw [(h.closing.at hk rfl).2.2] at hclosed
      cases hclosed
  | waitDone hk hdone =>
    exact ⟨h.closing.retire hk rfl rfl (.inr ⟨rfl, hdone⟩), h.quiet, h.drained, h.finished,
      fun _ => hdone, h.calm⟩
  | receive hpc hrecv =>
    obtain ⟨-, hclosed⟩ := Channel.recv_value hrecv
    refine ⟨h.closing.keep rfl rfl rfl hclosed, fun hclosed' => h.quiet (hclosed ▸ hclosed'), ?_,
      ?_, h.returned, h.calm⟩
    · rintro (hpc | hpc) <;> cases hpc
    · rw [h.finished, hpc]
      exact ⟨nofun, nofun⟩
  | drained hpc hempty hclosed =>
    refine ⟨h.closing.keep, h.quiet, fun _ => ⟨hclosed, hempty⟩, ?_, h.returned, h.calm⟩
    rw [h.finished, hpc]
    exact ⟨nofun, nofun⟩
  | log hpc =>
    refine ⟨h.closing.keep, h.quiet, ?_, ?_, h.returned, h.calm⟩
    · rintro (hpc | hpc) <;> cases hpc
    · rw [h.finished, hpc]
      exact ⟨nofun, nofun⟩
  | closeDone hpc hclose =>
    obtain ⟨-, hclosed, -⟩ := Channel.close_done hclose
    exact ⟨h.closing.keep rfl rfl rfl rfl fun _ => hclosed, h.quiet,
      fun _ => h.drained (.inl hpc), ⟨fun _ => rfl, fun _ => hclosed⟩, fun _ => hclosed, h.calm⟩
  | closeDoneAgain hpc hclosed =>
    rw [h.finished, hpc] at hclosed
    cases hclosed

/-! ## What was sent and what is logged -/

/-- `Emit` call `i` has returned nil. -/
def ReturnedNil (s : SlogEmitter n) (i : ℕ) : Prop :=
  ∃ c, s.emits[i]? = some c ∧ c.pc = .returned none

/-- The event of `Emit` call `i`. -/
def eventOf (s : SlogEmitter n) (i : ℕ) : Option AuditEvent := s.emits[i]?.map EmitCall.event

/-- What `drainLoop` has received and not logged. -/
def inHand : DrainLoopPc → List AuditEvent
  | .log event => [event]
  | _ => []

/-- The calls in `order` have sent the events in `sent`, those in `received` have left the channel,
and all of these but the one in hand are logged. -/
structure Records (s : SlogEmitter n) (order : List ℕ) (sent received : List AuditEvent) :
    Prop where
  nodup : order.Nodup
  mem_iff : ∀ i, i ∈ order ↔ ReturnedNil s i
  events : order.map (eventOf s) = sent.map some
  conveys : s.eventCh.Conveys sent received
  logged : s.log ++ (inHand s.drain).map logEvent = received.map logEvent

variable {i : ℕ} {c : EmitCall} {order : List ℕ} {sent received : List AuditEvent}

theorem eventOf_setEmit (hi : s.emits[i]? = some c) (pc : EmitPc) (j : ℕ) :
    eventOf (s.setEmit i c pc) j = eventOf s j := by
  unfold eventOf SlogEmitter.setEmit
  by_cases hij : i = j
  · subst hij
    rw [List.getElem?_set_self (List.getElem?_eq_some_iff.mp hi).1, hi]
    rfl
  · rw [List.getElem?_set_ne hij]

theorem returnedNil_setEmit_self (hi : s.emits[i]? = some c) (pc : EmitPc) :
    ReturnedNil (s.setEmit i c pc) i ↔ pc = .returned none := by
  unfold ReturnedNil SlogEmitter.setEmit
  simp [List.getElem?_set_self (List.getElem?_eq_some_iff.mp hi).1]

theorem returnedNil_setEmit_ne {j : ℕ} (hij : i ≠ j) (pc : EmitPc) :
    ReturnedNil (s.setEmit i c pc) j ↔ ReturnedNil s j := by
  unfold ReturnedNil SlogEmitter.setEmit
  simp only [List.getElem?_set_ne hij]

theorem not_returnedNil (hi : s.emits[i]? = some c) (hpc : c.pc ≠ .returned none) :
    ¬ ReturnedNil s i := by
  rintro ⟨d, hd, hnil⟩
  rw [hi] at hd
  cases hd
  exact hpc hnil

/-- `Emit` calls keep their events, and those that have returned nil are the same. -/
theorem Records.keep (h : Records s order sent received)
    (hnil : ∀ i, ReturnedNil s' i ↔ ReturnedNil s i := by exact fun _ => Iff.rfl)
    (hevents : ∀ i ∈ order, eventOf s' i = eventOf s i := by exact fun _ _ => rfl)
    (heventCh : s'.eventCh = s.eventCh := by rfl)
    (hlogged : s'.log ++ (inHand s'.drain).map logEvent =
      s.log ++ (inHand s.drain).map logEvent := by rfl) : Records s' order sent received where
  nodup := h.nodup
  mem_iff i := (h.mem_iff i).trans (hnil i).symm
  events := (List.map_congr_left hevents).trans h.events
  conveys := heventCh ▸ h.conveys
  logged := hlogged.trans h.logged

/-- An `Emit` goes on and does not return nil. -/
theorem Records.setEmit (h : Records s order sent received) (hi : s.emits[i]? = some c)
    (hc : c.pc ≠ .returned none) {pc : EmitPc} (hpc : pc ≠ .returned none) :
    Records (s.setEmit i c pc) order sent received := by
  refine h.keep (fun j => ?_) fun j _ => eventOf_setEmit hi pc j
  by_cases hij : i = j
  · subst hij
    rw [returnedNil_setEmit_self hi]
    exact iff_of_false hpc (not_returnedNil hi hc)
  · exact returnedNil_setEmit_ne hij pc

theorem Records.emit (h : Records s order sent received) (event : AuditEvent) :
    Records { s with emits := s.emits ++ [{ event := event }] } order sent received := by
  have hnil (j : ℕ) :
      ReturnedNil { s with emits := s.emits ++ [{ event := event }] } j ↔ ReturnedNil s j := by
    constructor
    · rintro ⟨d, hd, hpc⟩
      refine ⟨d, ?_, hpc⟩
      obtain hlt | hge := Nat.lt_or_ge j s.emits.length
      · rwa [List.getElem?_append_left hlt] at hd
      · rw [List.getElem?_append_right hge] at hd
        have hmem := List.mem_of_getElem? hd
        rw [List.mem_singleton.mp hmem] at hpc
        cases hpc
    · rintro ⟨d, hd, hpc⟩
      refine ⟨d, ?_, hpc⟩
      rwa [List.getElem?_append_left (List.getElem?_eq_some_iff.mp hd).1]
  refine h.keep hnil fun j hj => ?_
  obtain ⟨d, hd, -⟩ := (h.mem_iff j).mp hj
  unfold eventOf
  rw [List.getElem?_append_left (List.getElem?_eq_some_iff.mp hd).1]

/-- An `Emit` sends its event and returns nil. -/
theorem Records.send (h : Records s order sent received) (hi : s.emits[i]? = some c)
    (hpc : c.pc = .select) {ch : Channel AuditEvent n} (hsend : s.eventCh.send c.event = .done ch) :
    Records { s.setEmit i c (.returned none) with eventCh := ch } (order ++ [i])
      (sent ++ [c.event]) received := by
  have hnew : i ∉ order := by
    rw [h.mem_iff]
    exact not_returnedNil hi (by rw [hpc]; nofun)
  refine ⟨?_, fun j => ?_, ?_, h.conveys.send hsend, h.logged⟩
  · rw [List.nodup_append]
    refine ⟨h.nodup, by simp, fun j hj k hk => ?_⟩
    rw [List.mem_singleton.mp hk]
    rintro rfl
    exact hnew hj
  · show j ∈ order ++ [i] ↔ ReturnedNil (s.setEmit i c (.returned none)) j
    rw [List.mem_append, List.mem_singleton]
    by_cases hij : i = j
    · subst hij
      rw [returnedNil_setEmit_self hi]
      exact iff_of_true (.inr rfl) rfl
    · rw [returnedNil_setEmit_ne hij, ← h.mem_iff]
      exact or_iff_left fun hji => hij hji.symm
  · show (order ++ [i]).map (eventOf (s.setEmit i c (.returned none))) = _
    have hevent : eventOf s i = some c.event := by
      unfold eventOf
      rw [hi]
      rfl
    rw [List.map_congr_left fun j _ => eventOf_setEmit hi _ j, List.map_append, List.map_append,
      h.events, List.map_singleton, hevent, List.map_singleton]

theorem records_move (h : Records s order sent received) (hm : EmitterMove s a s') :
    ∃ order' sent' received', Records s' order' sent' received' := by
  cases hm with
  | emit event => exact ⟨order, sent, received, h.emit event⟩
  | pass hi hpc _ => exact ⟨order, sent, received, h.setEmit hi (by rw [hpc]; nofun) nofun⟩
  | refuse hi hpc =>
    refine ⟨order, sent, received, h.setEmit hi ?_ nofun⟩
    obtain ⟨-, hpc⟩ | ⟨-, hpc⟩ := hpc <;> rw [hpc] <;> nofun
  | @send i c ch hi hpc hsend =>
    exact ⟨order ++ [i], sent ++ [c.event], received, h.send hi hpc hsend⟩
  | closeEventCh _ hclose =>
    exact ⟨order, sent, received, h.nodup, h.mem_iff, h.events, h.conveys.close hclose, h.logged⟩
  | @receive event ch hpc hrecv =>
    refine ⟨order, sent, received ++ [event], h.nodup, h.mem_iff, h.events, h.conveys.recv hrecv,
      ?_⟩
    have hlogged := h.logged
    rw [hpc] at hlogged
    rw [List.map_append, ← hlogged]
    simp only [inHand, List.map_nil, List.append_nil, List.map_singleton]
  | drained hpc _ _ | closeDone hpc _ =>
    refine ⟨order, sent, received, h.keep (fun _ => .rfl) (fun _ _ => rfl) rfl ?_⟩
    rw [hpc]
    rfl
  | log hpc =>
    refine ⟨order, sent, received, h.nodup, h.mem_iff, h.events, h.conveys, ?_⟩
    have hlogged := h.logged
    rw [hpc] at hlogged
    simpa only [inHand, List.map_nil, List.append_nil, List.map_singleton] using hlogged
  | sendClosed | close | first | later | closeCloseCh | closeAgain | waitDone | closeDoneAgain =>
    exact ⟨order, sent, received, h.keep⟩

/-! ## When `Close` has returned -/

/-- The records in the log are those of the events of the calls in `order`, one each, and these have
returned nil. -/
def LoggedOnce (s : SlogEmitter n) (order : List ℕ) : Prop :=
  order.Nodup ∧ (∀ i ∈ order, ReturnedNil s i) ∧
    s.log.map some = order.map fun i => (eventOf s i).map logEvent

/-- What the calls in `order` have sent is logged, in hand or in the channel. -/
theorem Records.split (h : Records s order sent received) :
    (order.map fun i => (eventOf s i).map logEvent) =
      s.log.map some ++ (inHand s.drain ++ s.eventCh.buffer).map (some ∘ logEvent) := by
  calc (order.map fun i => (eventOf s i).map logEvent)
      = (order.map (eventOf s)).map (Option.map logEvent) := by
        rw [List.map_map]
        rfl
    _ = (received.map logEvent ++ s.eventCh.buffer.map logEvent).map some := by
        rw [h.events, h.conveys, ← List.map_append, List.map_map, List.map_map]
        rfl
    _ = _ := by
        rw [← h.logged, List.append_assoc, ← List.map_append, List.map_append, List.map_map]

/-- What is logged is the beginning of what was sent. -/
theorem Records.loggedOnce (h : Records s order sent received) :
    LoggedOnce s (order.take s.log.length) := by
  refine ⟨h.nodup.sublist (List.take_sublist _ _), fun i hi => ?_, ?_⟩
  · exact (h.mem_iff i).mp (List.mem_of_mem_take hi)
  · rw [List.map_take, h.split, List.take_left' (List.length_map some)]

theorem orderly_newSlogEmitter (bufferSize : ℤ) : OrderlyClose (newSlogEmitter bufferSize) where
  closing := ⟨nofun, nofun, fun _ => .inl ⟨rfl, rfl, rfl⟩⟩
  quiet := nofun
  drained := by rintro (h | h) <;> cases h
  finished := ⟨nofun, nofun⟩
  returned := nofun
  calm := rfl

theorem records_newSlogEmitter (bufferSize : ℤ) : Records (newSlogEmitter bufferSize) [] [] [] where
  nodup := List.nodup_nil
  mem_iff i := ⟨nofun, by rintro ⟨c, hc, -⟩; cases hc⟩
  events := rfl
  conveys := rfl
  logged := rfl

theorem orderlyClose_reach {s : SlogEmitter (auditBufferSize bufferSize)}
    (h : Reach SlogEmitter.step ClosesQuiet (newSlogEmitter bufferSize) s) : OrderlyClose s :=
  h.invariant OrderlyClose (orderly_newSlogEmitter bufferSize) fun _ _ _ _ hO hquiet hs =>
    orderly_move hO hquiet (emitter_move hs).2

theorem records_reach {s : SlogEmitter (auditBufferSize bufferSize)}
    (h : Reach SlogEmitter.step ClosesQuiet (newSlogEmitter bufferSize) s) :
    ∃ order sent received, Records s order sent received := by
  refine h.invariant (fun s => ∃ order sent received, Records s order sent received)
    ⟨[], [], [], records_newSlogEmitter bufferSize⟩ fun s a s' _ hI _ hs => ?_
  obtain ⟨order, sent, received, hR⟩ := hI
  exact records_move hR (emitter_move hs).2

/-- No `Emit` is between its check and its send when `Close` closes `eventCh`: nothing panics, and
what is logged is the events of `Emit` calls that returned nil, each once; when a `Close` has
returned, of all of them. -/
theorem emits_logged_once {bufferSize : ℤ} {s : SlogEmitter (auditBufferSize bufferSize)}
    (h : Reach SlogEmitter.step ClosesQuiet (newSlogEmitter bufferSize) s) :
    s.panicked = false ∧ ∃ order, LoggedOnce s order ∧
      (.returned ∈ s.closes → ∀ i, ReturnedNil s i → i ∈ order) := by
  have hO := orderlyClose_reach h
  obtain ⟨order, sent, received, hR⟩ := records_reach h
  refine ⟨hO.calm, order.take s.log.length, hR.loggedOnce, fun hreturned i hi => ?_⟩
  have hdrain : s.drain = .returned := hO.finished.mp (hO.returned hreturned)
  have hsplit := congrArg List.length hR.split
  rw [hdrain, (hO.drained (.inr hdrain)).2] at hsplit
  simp only [inHand, List.length_map, List.append_nil, List.map_nil] at hsplit
  rw [List.take_of_length_le (by omega), hR.mem_iff]
  exact hi

/-- An event that is logged, and an `Emit` that comes too late. -/
theorem emits_logged_once_two :
    ∃ s, Reach SlogEmitter.step ClosesQuiet (newSlogEmitter 0) s ∧ .returned ∈ s.closes ∧
      s.emits = [⟨{ action := .adminReload }, .returned none⟩,
        ⟨{ action := .goAway }, .returned (some ⟨.goAway⟩)⟩] ∧
      s.panicked = false ∧ ∃ order, LoggedOnce s order ∧ ∀ i, ReturnedNil s i → i ∈ order := by
  obtain ⟨s, hreach, hclosed, hemits⟩ : ∃ s,
      Reach SlogEmitter.step ClosesQuiet (newSlogEmitter 0) s ∧ .returned ∈ s.closes ∧
      s.emits = [⟨{ action := .adminReload }, .returned none⟩,
        ⟨{ action := .goAway }, .returned (some ⟨.goAway⟩)⟩] :=
    exists_reach_of_exec
      [.emit { action := .adminReload }, .check 0, .emit { action := .goAway }, .check 1, .send 0,
        .close, .runClose 0, .runClose 0, .stop 1, .runClose 0, .drain, .drain, .drain, .drain,
        .runClose 0]
      _ (by decide)
  obtain ⟨hcalm, order, hlogged, hall⟩ := emits_logged_once hreach
  exact ⟨s, hreach, hclosed, hemits, hcalm, order, hlogged, hall hclosed⟩

/-- The second `Emit` is past its check when `Close` closes the channels, and takes the send: the
process is down, and the event of the first, which returned nil, is not logged. -/
theorem emit_panics :
    ∃ s, Reach SlogEmitter.step anyStep (newSlogEmitter 0) s ∧ s.panicked = true ∧
      s.emits = [⟨{ action := .adminReload }, .returned none⟩, ⟨{ action := .goAway }, .select⟩] ∧
      s.log = [] ∧ ∀ a, s.step a = none := by
  obtain ⟨s, hreach, hpanicked, hemits, hlog⟩ : ∃ s,
      Reach SlogEmitter.step anyStep (newSlogEmitter 0) s ∧ s.panicked = true ∧
      s.emits = [⟨{ action := .adminReload }, .returned none⟩, ⟨{ action := .goAway }, .select⟩] ∧
      s.log = [] :=
    exists_reach_of_exec
      [.emit { action := .adminReload }, .check 0, .send 0, .emit { action := .goAway }, .check 1,
        .close, .runClose 0, .runClose 0, .runClose 0, .send 1]
      _ (by decide)
  refine ⟨s, hreach, hpanicked, hemits, hlog, fun a => ?_⟩
  unfold SlogEmitter.step
  rw [if_pos hpanicked]

/-- The condition is exact: when `eventCh` is closed outside it, the next step may be a panic. -/
theorem panics_of_not_closesQuiet {s s' : SlogEmitter (auditBufferSize bufferSize)}
    (h : Reach SlogEmitter.step ClosesQuiet (newSlogEmitter bufferSize) s)
    (hnot : ¬ ClosesQuiet s (.runClose k)) (hs : s.step (.runClose k) = some s') :
    ∃ i s'', s'.step (.send i) = some s'' ∧ s''.panicked = true := by
  have hO := orderlyClose_reach h
  simp only [ClosesQuiet, Classical.not_imp, not_forall, not_not] at hnot
  obtain ⟨hk, c, hc, hpc⟩ := hnot
  obtain ⟨i, hi⟩ := List.mem_iff_getElem?.mp hc
  obtain ⟨hcalm, hm⟩ := emitter_move hs
  have other {pc : CloserPc} (hk' : s.closes[k]? = some pc) : pc = .closeEventCh := by
    rw [hk] at hk'
    exact (Option.some.inj hk').symm
  cases hm with
  | @closeEventCh _ ch _ hclose =>
    have hsend : ch.send c.event = .panics :=
      Channel.send_panics_iff.mpr (Channel.close_done hclose).2.1
    refine ⟨i, { s.setClose k .waitDone with eventCh := ch, panicked := true }, ?_, rfl⟩
    simp only [SlogEmitter.step, SlogEmitter.setClose, hcalm, hi, Option.bind_some,
      SlogEmitter.stepSend, hpc, hsend, if_true, if_false, Bool.false_eq_true]
  | first hk' | later hk' | closeCloseCh hk' | waitDone hk' => cases other hk'
  | closeAgain hclosed =>
    obtain ⟨hk', -⟩ | ⟨-, hclosed⟩ := hclosed
    · cases other hk'
    · rw [(hO.closing.at hk rfl).2.2] at hclosed
      cases hclosed
  | refuse _ hpc' => obtain ⟨ha, -⟩ | ⟨ha, -⟩ := hpc' <;> cases ha

end Atlax.Analysis
