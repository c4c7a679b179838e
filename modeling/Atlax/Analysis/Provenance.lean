import Atlax.Analysis.Moves

/-!
# What a step keeps and where new things come from

`Evolves` is what no step takes back: a stream on the heap keeps its identifier, its
conversation, its payloads and the way it came into being, and a stream that has ended stays in
the state it ended in. The provenance lemmas read a step backwards: an entry of the map, a
stream the read loop works on, a pending open, a packet on its way out was there before the
step, or the step put it there in one of a few ways.
-/

set_option autoImplicit false

namespace Atlax.Analysis

open Atlax.Model

variable {r : Ref} {c c' : Cell} {p : Packet} {k : Call} {b : Bool}

/-- What every step keeps of a cell. -/
structure Evolves (c c' : Cell) : Prop where
  id : c'.stream.id = c.stream.id
  conv : c'.conv = c.conv
  openArg : c'.hist.openArg = c.hist.openArg
  openPayload : c'.stream.openPayload = c.stream.openPayload
  accepted : c'.openPc = .accepted ↔ c.openPc = .accepted
  terminal : c.stream.state.Terminal → c'.stream.state = c.stream.state
  handle : c.handle = true → c'.handle = true

theorem Evolves.refl (c : Cell) : Evolves c c :=
  ⟨rfl, rfl, rfl, rfl, .rfl, fun _ => rfl, fun h => h⟩

/-- Two steps of a cell. -/
theorem Evolves.trans {c₁ c₂ c₃ : Cell} (h : Evolves c₁ c₂) (h' : Evolves c₂ c₃) :
    Evolves c₁ c₃ where
  id := h'.id.trans h.id
  conv := h'.conv.trans h.conv
  openArg := h'.openArg.trans h.openArg
  openPayload := h'.openPayload.trans h.openPayload
  accepted := h'.accepted.trans h.accepted
  terminal ht := by
    have h₁ := h.terminal ht
    exact (h'.terminal (h₁ ▸ ht)).trans h₁
  handle hh := h'.handle (h.handle hh)

/-- A change of what a step may change freely. -/
theorem evolves_of_eq (ho : c'.openPc = .accepted ↔ c.openPc = .accepted := by rfl)
    (hh : c.handle = true → c'.handle = true := by exact id)
    (ha : c'.hist.openArg = c.hist.openArg := by rfl) (hs : c'.stream.id = c.stream.id := by rfl)
    (hst : c'.stream.state = c.stream.state := by rfl)
    (hp : c'.stream.openPayload = c.stream.openPayload := by rfl)
    (hc : c'.conv = c.conv := by rfl) : Evolves c c' :=
  ⟨hs, hc, ha, hp, ho, fun _ => hst, hh⟩

/-- A stream that has not ended may change its state. -/
theorem evolves_of_running (hst : ¬ c.stream.state.Terminal)
    (hs : c'.stream.id = c.stream.id) (hp : c'.stream.openPayload = c.stream.openPayload)
    (hc : c'.conv = c.conv) (ha : c'.hist.openArg = c.hist.openArg) (ho : c'.openPc = c.openPc)
    (hh : c'.handle = c.handle) : Evolves c c' :=
  ⟨hs, hc, ha, hp, by rw [ho], fun h => absurd h hst, fun h => hh.trans h⟩

/-- SOURCE: stream_impl.go:223-243 -/
theorem evolves_reset (c : Cell) (code : ℕ) (byFrame : Bool) :
    Evolves c (c.reset code byFrame) := by
  have ha : (c.reset code byFrame).hist.openArg = c.hist.openArg := by cases byFrame <;> rfl
  unfold Cell.reset StreamSession.reset at *
  by_cases hst : c.stream.state = .reset ∨ c.stream.state = .closed
  · rw [if_pos hst] at *
    exact evolves_of_eq .rfl id ha
  · rw [if_neg hst] at *
    exact evolves_of_running (fun ht => hst ht.symm) rfl rfl rfl ha rfl rfl

/-- SOURCE: stream_impl.go:148-179 -/
theorem evolves_close (c : Cell) : Evolves c c.close := by
  have ha : c.close.hist.openArg = c.hist.openArg := by
    unfold Cell.close
    dsimp only
    split <;> rfl
  unfold Cell.close StreamSession.close at *
  cases hst : c.stream.state with
  | opened | halfClosedRemote =>
    rw [hst] at ha
    exact evolves_of_running (by simp [hst, StreamState.Terminal]) rfl rfl rfl ha rfl rfl
  | _ => exact evolves_of_eq

/-- SOURCE: stream_impl.go:207-221 -/
theorem evolves_remoteClose (c : Cell) : Evolves c { c with stream := c.stream.remoteClose } := by
  unfold StreamSession.remoteClose
  cases hst : c.stream.state with
  | opened | halfClosedLocal =>
    exact evolves_of_running (by simp [hst, StreamState.Terminal]) rfl rfl rfl rfl rfl rfl
  | _ => exact evolves_of_eq

/-! None of the three touches what waits to be drained. -/

/-- A reset leaves what is to be sent. -/
theorem reset_writeOut (c : Cell) (code : ℕ) (byFrame : Bool) :
    (c.reset code byFrame).stream.writeOut = c.stream.writeOut := by
  unfold Cell.reset StreamSession.reset
  dsimp only
  split <;> rfl

theorem close_writeOut (c : Cell) : c.close.stream.writeOut = c.stream.writeOut := by
  unfold Cell.close StreamSession.close
  dsimp only
  split <;> rfl

theorem remoteClose_writeOut (c : StreamSession) : c.remoteClose.writeOut = c.writeOut := by
  unfold StreamSession.remoteClose
  split <;> rfl

/-- A call on a stream only adds to its history. -/
theorem evolves_call (h : CellCall c k c') : Evolves c c' := by
  cases h with
  | close => exact evolves_close c
  | reset code => exact evolves_reset c code false
  | _ => exact evolves_of_eq

/-- So does its drain goroutine. -/
theorem evolves_drain {p : Option Packet} (h : CellDrain c b c' p) :
    Evolves c c' := by
  cases h <;> exact evolves_of_eq

/-- Every step of a cell. -/
theorem evolves_cell {a : Action} {rd : ReaderPc} (h : CellMove a rd r c c') : Evolves c c' := by
  cases h with
  | same => exact Evolves.refl c
  | call k c' _ _ hc => exact evolves_call hc
  | drain d b c' p _ hc => exact evolves_drain hc
  | resetLocal => exact evolves_reset c 0 false
  | resetFrame p => exact evolves_reset c _ true
  | remoteClose => exact evolves_remoteClose c
  | openFailedReset hpc =>
    have h₁ : Evolves c { c with openPc := .failed } :=
      evolves_of_eq (by simp [hpc])
    exact h₁.trans (evolves_reset _ 0 false)
  | register hpc | sendOpen _ hpc | openAck hpc | openCancel hpc | openClosed hpc
  | openRemove found hpc | openRemoveNone hpc | openFailed found hpc =>
    exact evolves_of_eq (by simp [hpc]) (by simp)
  | openCleanup cancelled hpc =>
    exact evolves_of_eq (by cases cancelled <;> simp [hpc])
  | accept => exact evolves_of_eq .rfl fun _ => rfl
  | _ => exact evolves_of_eq

/-- A stream becomes Reset by a Reset: one that the read loop calls for a frame, or another one. -/
theorem cell_becomes_reset {a : Action} {rd : ReaderPc}
    (hm : CellMove a rd r c c') (h : c.stream.state ≠ .reset) (h' : c'.stream.state = .reset) :
    ∃ pc code byFrame, (pc = c.openPc ∨ pc = .failed) ∧
      c' = { c with openPc := pc }.reset code byFrame ∧
      (byFrame = true → a = .reader ∧ ∃ p, rd = .resetting r p) := by
  cases hm with
  | call k c' _ _ hc =>
    cases hc with
    | close =>
      simp only [Cell.close, StreamSession.close] at h'
      split at h' <;> simp_all
    | reset code => exact ⟨c.openPc, code, false, .inl rfl, rfl, nofun⟩
    | _ => exact absurd h' h
  | drain d b c' p _ hc => cases hc <;> exact absurd h' h
  | remoteClose =>
    simp only [StreamSession.remoteClose] at h'
    split at h' <;> simp_all
  | resetLocal => exact ⟨c.openPc, 0, false, .inl rfl, rfl, nofun⟩
  | openFailedReset => exact ⟨.failed, 0, false, .inr rfl, rfl, nofun⟩
  | resetFrame p ha hrd => exact ⟨c.openPc, _, true, .inl rfl, rfl, fun _ => ⟨ha, p, hrd⟩⟩
  | _ => exact absurd h' h

variable {s s' : Session} {a : Action}

/-- Every step of a session. -/
theorem move_evolves (hm : Move s a s') : ∀ r < s.nextRef, Evolves (s.cells r) (s'.cells r) :=
  fun _ hr => evolves_cell (move_cell hm hr)

theorem move_role (hm : Move s a s') : s'.role = s.role := by
  cases hm <;> rfl

theorem move_config (hm : Move s a s') : s'.config = s.config := by
  cases hm <;> rfl

/-- A session that runs was not closed before. -/
theorem move_running (hm : Move s a s') (h : s'.closing = .running) : s.closing = .running := by
  cases hm with
  | transmitFail p _ pc hpc => exact absurd h hpc
  | closeSession | closingQueue | closingStreams | closingTransport => cases h
  | _ => exact h

/-- closeCh stays closed. -/
theorem move_closed (hm : Move s a s') (h : s.closed = true) : s'.closed = true := by
  cases hm with
  | transmitFail _ _ pc hpc => simpa [Session.closed] using hpc
  | closeSession | closingQueue | closingStreams | closingTransport => rfl
  | _ => exact h

/-- A session that is running keeps running until it is closed or its transport fails. -/
theorem move_keeps_running (hm : Move s a s') (hclose : a ≠ .closeSession)
    (hfail : a ≠ .transmitFail) (h : s.closing = .running) : s'.closing = .running := by
  cases hm with
  | closeSession => exact absurd rfl hclose
  | transmitFail => exact absurd rfl hfail
  | closingQueue hc | closingStreams hc | closingTransport hc =>
    rw [h] at hc
    cases hc
  | _ => exact h

/-- Close that has returned has returned for good. -/
theorem move_done (hm : Move s a s') (h : s.closing = .done) : s'.closing = .done := by
  cases hm with
  | transmitFail _ _ pc _ hpc =>
    rcases hpc with ⟨-, hrun⟩ | rfl
    · rw [h] at hrun
      cases hrun
    · exact h
  | closeSession hc | closingQueue hc | closingStreams hc | closingTransport hc =>
    rw [h] at hc
    cases hc
  | _ => exact h

/-- Streams are made, never unmade. -/
theorem move_nextRef (hm : Move s a s') : s.nextRef ≤ s'.nextRef := by
  cases hm with
  | openAlloc | acceptInsert => exact Nat.le_succ _
  | _ => exact Nat.le_refl _

@[simp] theorem openedCell_id (s : Session) (payload : Bytes) :
    (s.openedCell payload).stream.id = s.table.allocID.1 := rfl

@[simp] theorem acceptedCell_id (s : Session) (p : Packet) :
    (s.acceptedCell p).stream.id = p.frame.streamID := by
  unfold Session.acceptedCell
  dsimp only
  split <;> rfl

/-- A stream was on the heap, or the step made it. -/
theorem move_new (hm : Move s a s') (h : r < s'.nextRef) :
    r < s.nextRef ∨ r = s.nextRef ∧
      ((∃ payload, a = .openAlloc payload ∧ s'.cells r = s.openedCell payload) ∨
        ∃ p, a = .reader ∧ s.reader = .acceptInsert p ∧ s'.cells r = s.acceptedCell p) := by
  cases hm with
  | openAlloc payload _ _ =>
    rcases Nat.lt_succ_iff_lt_or_eq.mp h with hr | rfl
    · exact .inl hr
    · exact .inr ⟨rfl, .inl ⟨payload, rfl, by simp⟩⟩
  | acceptInsert p hp =>
    rcases Nat.lt_succ_iff_lt_or_eq.mp h with hr | rfl
    · exact .inl hr
    · exact .inr ⟨rfl, .inr ⟨p, rfl, hp, by simp⟩⟩
  | _ => exact .inl h

/-- The rule for what holds of a stream at every time: it holds of the streams that are made, opened
or accepted, and every step keeps it. -/
theorem cell_reach {role : Role} {config : MuxConfig} {ok : Session → Action → Prop}
    (P : Cell → Prop) (h : SessionReach role config ok s)
    (hopened : ∀ s payload, SessionReach role config ok s → P (s.openedCell payload))
    (haccepted : ∀ s p, SessionReach role config ok s → P (s.acceptedCell p))
    (hmove : ∀ s a s', SessionReach role config ok s → ok s a → Move s a s' → r < s.nextRef →
      P (s.cells r) → P (s'.cells r)) (hr : r < s.nextRef) : P (s.cells r) := by
  revert hr
  refine Library.Reach.invariant (fun s => r < s.nextRef → P (s.cells r)) h ?_ ?_
  · intro hr
    cases hr
  · intro s a s' hreach hI hok hstep hr
    have hm := step_move hstep
    obtain hold | ⟨-, ⟨payload, -, hc⟩ | ⟨p, -, -, hc⟩⟩ := move_new hm hr
    · exact hmove s a s' hreach hok hm hold (hI hold)
    · rw [hc]
      exact hopened s payload hreach
    · rw [hc]
      exact haccepted s p hreach

/-- A step that makes a stream puts it into the map; it is an open's allocation or the insertion of
a peer's stream. -/
theorem move_fresh (hm : Move s a s') (h : s.nextRef < s'.nextRef) :
    s'.table.get (s'.cells s.nextRef).stream.id = some s.nextRef ∧
      ((∃ payload, a = .openAlloc payload ∧ s'.reader = s.reader ∧
          s.table.streams.entries.length < s.config.maxConcurrentStreams ∧
          s'.cells s.nextRef = s.openedCell payload) ∨
        ∃ p, a = .reader ∧ s.reader = .acceptInsert p ∧ s'.reader = .acceptAck s.nextRef p ∧
          s'.cells s.nextRef = s.acceptedCell p) := by
  cases hm with
  | openAlloc payload _ hlen =>
    exact ⟨by simp, .inl ⟨payload, rfl, rfl, hlen, by simp⟩⟩
  | acceptInsert p hp => exact ⟨by simp, .inr ⟨p, rfl, hp, rfl, by simp⟩⟩
  | _ => exact absurd h (Nat.lt_irrefl _)

/-- An entry of the map was there, or is that of the stream the step made. -/
theorem move_table (hm : Move s a s') {i : ℕ} (h : s'.table.get i = some r) :
    s.table.get i = some r ∨
      r = s.nextRef ∧ s'.nextRef = s.nextRef + 1 ∧ (s'.cells r).stream.id = i := by
  cases hm with
  | openAlloc payload =>
    simp only [Session.addCell_table, Session.setTable_table, StreamTable.get_insert,
      StreamTable.get_allocID] at h
    split at h
    · next hi =>
      cases h
      exact .inr ⟨rfl, rfl, by simp [hi]⟩
    · exact .inl h
  | acceptInsert p =>
    simp only [Session.addCell_table, Session.setReader_table, Session.setTable_table,
      StreamTable.get_insert] at h
    split at h
    · next hi =>
      cases h
      exact .inr ⟨rfl, rfl, by simp [hi]⟩
    · exact .inl h
  | openRemove | closeDelete | delete =>
    simp only [Session.setTable_table, Session.setReader_table, StreamTable.get_remove,
      Option.ite_none_left_eq_some] at h
    exact .inl h.2
  | resetLookup | resetRemove =>
    simp only [Session.setTable_table, Session.setReader_table, StreamTable.get_removePresent,
      Option.ite_none_left_eq_some] at h
    exact .inl h.2
  | closingStreams => simp [StreamTable.get] at h
  | _ => exact .inl h

/-- The read loop was at work on the stream, or has just looked it up or made it. -/
theorem move_reader (hm : Move s a s') (h : s'.reader.stream = some (r, p)) :
    s.reader.stream = some (r, p) ∨
      s.reader = .frame p ∧ s.table.get p.frame.streamID = some r ∨
      s.reader = .acceptInsert p ∧ r = s.nextRef ∧ s'.nextRef = s.nextRef + 1 ∧
        s'.cells r = s.acceptedCell p := by
  have hrd := move_readerPc hm
  generalize s.reader = pc, s'.reader = pc' at hrd h
  cases hrd with
  | data _ _ _ hget | close _ _ _ hget | reset _ _ _ hget | window _ _ hget =>
    cases h
    exact .inr (.inl ⟨rfl, hget⟩)
  | insert _ hn hc =>
    cases h
    exact .inr (.inr ⟨rfl, rfl, hn, hc⟩)
  | recv | finish | ack | reject | accept => cases h
  | _ => exact .inl h

/-- The packet the read loop works for is the one it held, or one it has just read. -/
theorem move_readerPacket (hm : Move s a s') (h : s'.reader.packet = some p) :
    s.reader.packet = some p ∨ a = .recv p := by
  have hrd := move_readerPc hm
  generalize s.reader = pc, s'.reader = pc' at hrd h
  cases hrd with
  | recv p' ha =>
    cases h
    exact .inr ha
  | finish | ack => cases h
  | _ => exact .inl h

theorem lookup_insert_some {κ β : Type} [DecidableEq κ] {m : AList (fun _ : κ => β)} {k i : κ}
    {b r : β} (h : (m.insert k b).lookup i = some r) :
    i = k ∧ r = b ∨ i ≠ k ∧ m.lookup i = some r := by
  by_cases hk : i = k
  · subst hk
    rw [AList.lookup_insert] at h
    exact .inl ⟨rfl, (Option.some.inj h).symm⟩
  · rw [AList.lookup_insert_ne hk] at h
    exact .inr ⟨hk, h⟩

theorem lookup_erase_some {κ β : Type} [DecidableEq κ] {m : AList (fun _ : κ => β)} {k i : κ}
    {r : β} (h : (m.erase k).lookup i = some r) : i ≠ k ∧ m.lookup i = some r := by
  by_cases hk : i = k
  · subst hk
    simp at h
  · rw [AList.lookup_erase_ne hk] at h
    exact ⟨hk, h⟩

/-- An ACK was matched to the open, or has just been. -/
theorem move_ackSend (hm : Move s a s') (h : s'.reader = .ackSend r) :
    s.reader = .ackSend r ∨
      ∃ p, s.reader = .frame p ∧ p.isAck = true ∧
        s.pendingOpen.lookup p.frame.streamID = some r := by
  have hrd := h ▸ move_readerPc hm
  generalize s.reader = pc at hrd
  cases hrd with
  | stay => exact .inl rfl
  | ack p _ hp hl => exact .inr ⟨p, rfl, hp, hl⟩

/-- A peer's open was being accepted, or has just passed the checks. -/
theorem move_acceptInsert (hm : Move s a s') (h : s'.reader = .acceptInsert p) :
    s.reader = .acceptInsert p ∨
      s.reader = .frame p ∧ p.isOpen = true ∧ s.table.get p.frame.streamID = none ∧
        s.table.ownsID p.frame.streamID = false := by
  have hrd := h ▸ move_readerPc hm
  generalize s.reader = pc at hrd
  cases hrd with
  | stay => exact .inl rfl
  | accept _ hp hget hown => exact .inr ⟨rfl, hp, hget, hown⟩

/-- A peer's open was being refused, or has just been found to use an identifier of this side. -/
theorem move_rejectOpen (hm : Move s a s') (h : s'.reader = .rejectOpen p) :
    s.reader = .rejectOpen p ∨ s.table.ownsID p.frame.streamID = true := by
  have hrd := h ▸ move_readerPc hm
  generalize s.reader = pc at hrd
  cases hrd with
  | stay => exact .inl rfl
  | reject _ _ hown => exact .inr hown

/-- A stream whose ACK is to be queued was in that place, or has just been made. -/
theorem move_acceptAck (hm : Move s a s') (h : s'.reader = .acceptAck r p) :
    s.reader = .acceptAck r p ∨
      s.reader = .acceptInsert p ∧ r = s.nextRef ∧ s'.cells r = s.acceptedCell p := by
  have hrd := h ▸ move_readerPc hm
  generalize s.reader = pc at hrd
  cases hrd with
  | stay => exact .inl rfl
  | insert _ _ hc => exact .inr ⟨rfl, rfl, hc⟩

/-- The reader accepts a stream only after it has queued the ACK. -/
theorem move_acceptDeliver (hm : Move s a s') (h : s'.reader = .acceptDeliver r p) :
    s.reader = .acceptDeliver r p ∨ s.reader = .acceptAck r p := by
  have hrd := h ▸ move_readerPc hm
  generalize s.reader = pc at hrd
  cases hrd with
  | stay => exact .inl rfl
  | announce => exact .inr rfl

/-- A stream waiting to be accepted was waiting, or has just been announced. -/
theorem move_acceptCh (hm : Move s a s') (h : r ∈ s'.acceptCh) :
    r ∈ s.acceptCh ∨ ∃ p, s.reader = .acceptDeliver r p := by
  cases hm with
  | acceptStream r' rest hch =>
    rw [hch]
    exact .inl (List.mem_cons_of_mem _ h)
  | acceptDeliver r' p hrd =>
    rcases List.mem_append.mp h with h | h
    · exact .inl h
    · rw [List.mem_singleton.mp h]
      exact .inr ⟨p, hrd⟩
  | _ => exact .inl h

theorem reset_openPc (c : Cell) (code : ℕ) (byFrame : Bool) :
    (c.reset code byFrame).openPc = c.openPc := rfl

theorem call_openPc (h : CellCall c k c') : c'.openPc = c.openPc := by
  cases h <;> rfl

theorem drain_openPc {p : Option Packet} (h : CellDrain c b c' p) :
    c'.openPc = c.openPc := by
  cases h <;> rfl

/-- What the change of one cell keeps is kept in every cell. -/
theorem update_field {β : Type} (f : Cell → β) {cells : Ref → Cell} {r₀ : Ref}
    (h : f c = f (cells r₀)) (r : Ref) : f (Function.update cells r₀ c r) = f (cells r) := by
  rw [Function.apply_update (fun _ => f), h, Function.update_eq_self]

/-- The open that has reset the stream it found has failed, its own stream or not. -/
theorem openReset_openPc (s : Session) (r found : Ref) :
    let s₁ := s.setCell r { s.cells r with openPc := .failed }
    ((s₁.setCell found ((s₁.cells found).reset 0 false)).cells r).openPc = .failed := by
  refine (update_field Cell.openPc (reset_openPc _ 0 false) r).trans ?_
  simp

/-- What a section of an `OpenStream` call does to its program counter. -/
inductive OpenMove (s : Session) (r : Ref) : Opening → OpenPc → Prop
  | register (hpc : (s.cells r).openPc = .register) : OpenMove s r .register .enqueue
  | enqueue (hpc : (s.cells r).openPc = .enqueue) : OpenMove s r .enqueue .wait
  | ack (hpc : (s.cells r).openPc = .wait) (hch : (s.cells r).ackCh = true) :
      OpenMove s r .ack .returned
  | cancel (hpc : (s.cells r).openPc = .wait) : OpenMove s r .cancel (.cleanup true)
  | sessionClosed (hpc : (s.cells r).openPc = .wait) (hcl : s.closed = true) :
      OpenMove s r .sessionClosed (.cleanup false)
  | cancelled (hpc : (s.cells r).openPc = .cleanup true) : OpenMove s r .cleanup .remove
  | failed (hpc : (s.cells r).openPc = .cleanup false) : OpenMove s r .cleanup .failed
  | remove (found : Ref) (hpc : (s.cells r).openPc = .remove)
      (hget : s.table.get (s.cells r).stream.id = some found) :
      OpenMove s r .remove (.resetting found)
  | removeNone (hpc : (s.cells r).openPc = .remove) : OpenMove s r .remove .failed
  | reset (found : Ref) (hpc : (s.cells r).openPc = .resetting found) : OpenMove s r .reset .failed

/-- A section of the open at `r₀` that writes only the program counter of its cell. -/
theorem openMove_update {r r₀ : Ref} {o : Opening} (h : OpenMove s r₀ o c.openPc)
    (hs : s'.cells = Function.update s.cells r₀ c) :
    (s'.cells r).openPc = (s.cells r).openPc ∨
      ∃ o', Action.opening r₀ o = .opening r o' ∧ OpenMove s r o' (s'.cells r).openPc := by
  rw [hs]
  by_cases hr : r = r₀
  · subst hr
    rw [Function.update_self]
    exact .inr ⟨o, rfl, h⟩
  · rw [Function.update_of_ne hr]
    exact .inl rfl

/-- Only the open itself moves its program counter. -/
theorem move_open (hm : Move s a s') (hr : r < s.nextRef) :
    (s'.cells r).openPc = (s.cells r).openPc ∨
      ∃ o, a = .opening r o ∧ OpenMove s r o (s'.cells r).openPc := by
  cases hm with
  | openAlloc | acceptInsert =>
    left
    simp [Function.update_of_ne (Nat.ne_of_lt hr)]
  | register _ _ hpc => exact openMove_update (.register hpc) rfl
  | sendOpen _ _ hpc => exact openMove_update (.enqueue hpc) rfl
  | openAck _ _ hpc hch => exact openMove_update (.ack hpc hch) rfl
  | openCancel _ _ hpc => exact openMove_update (.cancel hpc) rfl
  | openClosed _ _ hpc hcl => exact openMove_update (.sessionClosed hpc hcl) rfl
  | openCleanup _ _ cancelled hpc =>
    cases cancelled with
    | true => exact openMove_update (.cancelled hpc) rfl
    | false => exact openMove_update (.failed hpc) rfl
  | openRemove _ _ hpc found hget => exact openMove_update (.remove found hpc hget) rfl
  | openRemoveNone _ _ hpc => exact openMove_update (.removeNone hpc) rfl
  | openReset r₀ _ found hpc =>
    by_cases h : r = r₀
    · subst h
      right
      rw [openReset_openPc]
      exact ⟨_, rfl, .reset found hpc⟩
    · left
      refine (update_field Cell.openPc (reset_openPc _ 0 false) r).trans ?_
      simp [Function.update_of_ne h]
  | call _ _ _ _ _ hc => exact .inl (update_field Cell.openPc (call_openPc hc) r)
  | drain _ _ _ _ hc | drainSend _ _ _ _ _ hc =>
    exact .inl (update_field Cell.openPc (drain_openPc hc) r)
  | resetting => exact .inl (update_field Cell.openPc (reset_openPc _ _ true) r)
  | closingStreams =>
    left
    simp only [Session.setClosing_cells, Session.resetStreams_cells]
    split <;> rfl
  | acceptStream | closeFin | closeCheckClosed | closeCheckReset | closeDelete | resetCheck
  | resetLookup | resetSend | ackSend | deliver | remoteClose | windowUpdate =>
    exact .inl (update_field Cell.openPc (by rfl) r)
  | _ => exact .inl rfl

theorem reset_ackCh (c : Cell) (code : ℕ) (byFrame : Bool) :
    (c.reset code byFrame).ackCh = c.ackCh := rfl

theorem call_ackCh (h : CellCall c k c') : c'.ackCh = c.ackCh := by
  cases h <;> rfl

theorem drain_ackCh {p : Option Packet} (h : CellDrain c b c' p) :
    c'.ackCh = c.ackCh := by
  cases h <;> rfl

/-- A token in the channel of an open was there, or the read loop has just put it there. -/
theorem move_ackCh (hm : Move s a s') (hr : r < s.nextRef)
    (h : (s'.cells r).ackCh = true) : (s.cells r).ackCh = true ∨ s.reader = .ackSend r := by
  cases hm with
  | openAlloc | acceptInsert =>
    left
    simpa [Function.update_of_ne (Nat.ne_of_lt hr)] using h
  | openAck r₀ =>
    by_cases hr₀ : r = r₀
    · subst hr₀
      simp at h
    · left
      simpa [Function.update_of_ne hr₀] using h
  | ackSend r₀ hrd =>
    by_cases hr₀ : r = r₀
    · exact .inr (hr₀ ▸ hrd)
    · left
      simpa [Function.update_of_ne hr₀] using h
  | openReset r₀ _ found =>
    have hfound := (update_field Cell.ackCh (reset_ackCh _ 0 false) r).symm.trans h
    exact .inl ((update_field Cell.ackCh (by rfl) r).symm.trans hfound)
  | call _ _ _ _ _ hc => exact .inl ((update_field Cell.ackCh (call_ackCh hc) r).symm.trans h)
  | drain _ _ _ _ hc | drainSend _ _ _ _ _ hc =>
    exact .inl ((update_field Cell.ackCh (drain_ackCh hc) r).symm.trans h)
  | resetting => exact .inl ((update_field Cell.ackCh (reset_ackCh _ _ true) r).symm.trans h)
  | closingStreams =>
    simp only [Session.setClosing_cells, Session.resetStreams_cells] at h
    split at h <;> exact .inl h
  | register | sendOpen | openCancel | openClosed | openCleanup | openRemove | openRemoveNone
  | acceptStream | closeFin | closeCheckClosed | closeCheckReset | closeDelete | resetCheck
  | resetLookup | resetSend | deliver | remoteClose | windowUpdate =>
    exact .inl ((update_field Cell.ackCh (by rfl) r).symm.trans h)
  | _ => exact .inl h

/-- An open that has returned its stream had returned it, or has just taken its token. -/
theorem move_returned (hm : Move s a s') (hr : r < s.nextRef)
    (h : (s'.cells r).openPc = .returned) :
    (s.cells r).openPc = .returned ∨ (s.cells r).ackCh = true := by
  have hc := move_cell hm hr
  generalize s'.cells r = c' at h hc
  cases hc with
  | openAck _ hch => exact .inr hch
  | call k c' _ _ hc => exact .inl (call_openPc hc ▸ h)
  | drain d b c' p _ hc => exact .inl (drain_openPc hc ▸ h)
  | openCleanup cancelled => cases cancelled <;> cases h
  | register | sendOpen | openCancel | openClosed | openRemove | openRemoveNone | openFailed
  | openFailedReset => cases h
  | _ => exact .inl h

/-- An open that has not sent its STREAM_OPEN yet stands where it stood, or has just registered. -/
theorem move_unsent (hm : Move s a s') (hr : r < s.nextRef)
    (h : (s'.cells r).openPc = .register ∨ (s'.cells r).openPc = .enqueue) :
    (s.cells r).openPc = (s'.cells r).openPc ∨
      a = .opening r .register ∧ (s.cells r).openPc = .register := by
  obtain heq | ⟨o, rfl, ho⟩ := move_open hm hr
  · exact .inl heq.symm
  · generalize (s'.cells r).openPc = pc' at h ho
    cases ho with
    | register hpc => exact .inr ⟨rfl, hpc⟩
    | _ => obtain h | h := h <;> cases h

/-- The stream a cancelled open is about to reset was found before, or has just been found. -/
theorem move_found (hm : Move s a s') {r f : Ref} (hr : r < s.nextRef)
    (h : (s'.cells r).openPc = .resetting f) :
    (s.cells r).openPc = .resetting f ∨
      a = .opening r .remove ∧ (s.cells r).openPc = .remove ∧
        s.table.get (s.cells r).stream.id = some f := by
  obtain heq | ⟨o, rfl, ho⟩ := move_open hm hr
  · exact .inl (heq ▸ h)
  · rw [h] at ho
    cases ho with
    | remove _ hpc hget => exact .inr ⟨rfl, hpc, hget⟩

/-- A pending open was pending, or has just registered. -/
theorem move_pendingOpen (hm : Move s a s') {i : ℕ} (h : s'.pendingOpen.lookup i = some r) :
    s.pendingOpen.lookup i = some r ∨
      a = .opening r .register ∧ r < s.nextRef ∧ (s.cells r).openPc = .register ∧
        (s.cells r).stream.id = i := by
  cases hm with
  | register r₀ hr hpc =>
    by_cases hi : i = (s.cells r₀).stream.id
    · subst hi
      simp only [Session.setPendingOpen_pendingOpen, AList.lookup_insert, Option.some.injEq] at h
      subst h
      exact .inr ⟨rfl, hr, hpc, rfl⟩
    · simp only [Session.setPendingOpen_pendingOpen, AList.lookup_insert_ne hi] at h
      exact .inl h
  | openCleanup r₀ | handleAck p => exact .inl (lookup_erase_some h).2
  | _ => exact .inl h

/-- The packets on their way out: in the queue, or in the write loop's hand. -/
def Outgoing (s : Session) (p : Packet) : Prop := s.queue.Holds p ∨ s.writer = .write p

/-- The packets a step may put on the queue. -/
inductive Produced (s : Session) : Packet → Prop
  | openPacket (r : Ref) (hr : r < s.nextRef) (hpc : (s.cells r).openPc = .enqueue) :
      Produced s (s.cells r).openPacket
  | ack (r : Ref) (p : Packet) (h : s.reader = .acceptAck r p) : Produced s (s.cells r).ackPacket
  | data (r : Ref) (hr : r < s.nextRef) (data : Bytes) (flushing : Bool)
      (hpc : (s.cells r).drainPc = .enqueue data flushing) : Produced s ((s.cells r).dataPacket data)
  | close (r : Ref) (hr : r < s.nextRef) (hpc : (s.cells r).drainPc = .sendFIN) :
      Produced s (s.cells r).closePacket
  | reset (r : Ref) (hr : r < s.nextRef) (code : ℕ) (hpc : (s.cells r).resetPc = .send code) :
      Produced s ((s.cells r).resetPacket code)
  | reject (p : Packet) (h : s.reader = .rejectOpen p) : Produced s (rejectPacket p)
  | conn (command : Command) (payload : Bytes)
      (h : command = .pong ∨ command = .goAway ∨ command = .ping ∨ command = .serviceList) :
      Produced s (connPacket command payload)

/-- What is on its way after an Enqueue. -/
theorem outgoing_enqueue {s₁ : Session} {p p' : Packet} {priority : Priority}
    (h : Outgoing (s₁.enqueue p priority) p') : Outgoing s₁ p' ∨ p' = p := by
  rcases h with h | h
  · rcases WriteQueue.holds_enqueue h with h | h
    · exact .inl (.inl h)
    · exact .inr h
  · exact .inl (.inr h)

/-- After an Enqueue a packet is the one that was queued or was there before. -/
theorem outgoing_enqueue_or {s₁ : Session} {p q : Packet} {priority : Priority} {Q : Packet → Prop}
    (h : Outgoing (s₁.enqueue q priority) p) (hold : Outgoing s₁ p → Outgoing s p) (hq : Q q) :
    Outgoing s p ∨ Q p := by
  obtain h | rfl := outgoing_enqueue h
  · exact .inl (hold h)
  · exact .inr hq

/-- A packet on its way out was on its way, or the step produced it. -/
theorem move_outgoing (hm : Move s a s') (h : Outgoing s' p) :
    Outgoing s p ∨ Produced s p := by
  cases hm with
  | sendOpen r hr hpc => exact outgoing_enqueue_or h id (.openPacket r hr hpc)
  | resetSend r hr code hpc => exact outgoing_enqueue_or h id (.reset r hr code hpc)
  | drainSend r hr d c p' hc =>
    cases hc with
    | enqueue data flushing hpc => exact outgoing_enqueue_or h id (.data r hr data flushing hpc)
    | sendFIN hpc => exact outgoing_enqueue_or h id (.close r hr hpc)
  | handlePing p' hp => exact outgoing_enqueue_or h id (.conn .pong _ (.inl rfl))
  | rejectOpen p' hp => exact outgoing_enqueue_or h id (.reject p' hp)
  | acceptAck r p' hp => exact outgoing_enqueue_or h id (.ack r p' hp)
  | goAwaySend code payload => exact outgoing_enqueue_or h id (.conn .goAway _ (.inr (.inl rfl)))
  | ping data => exact outgoing_enqueue_or h id (.conn .ping _ (.inr (.inr (.inl rfl))))
  | sendServiceList services payload =>
    exact outgoing_enqueue_or h id (.conn .serviceList _ (.inr (.inr (.inr rfl))))
  | dequeue hw p' q hq =>
    rcases h with h | h
    · exact .inl (.inl (WriteQueue.holds_of_dequeue hq h))
    · cases h
      exact .inl (.inl (WriteQueue.holds_dequeued hq))
  | writerCheck hw =>
    rcases h with h | h
    · exact .inl (.inl h)
    · simp only [Session.setWriter_writer] at h
      split at h <;> cases h
  | dequeueExit | transmit | transmitFail =>
    rcases h with h | h
    · exact .inl (.inl h)
    · cases h
  | _ => exact .inl h

end Atlax.Analysis
