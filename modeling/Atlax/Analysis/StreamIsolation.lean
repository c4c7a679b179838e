import Atlax.Analysis.Handling
import Atlax.Analysis.TwoSessions

/-!
# Frames of one stream and frames of another

What the frames of a sequence do to the entry under an identifier is decided by those that carry
it. `frameEffect` says what one of them does to the entry, with nothing of the session but its
parity and its initial window; a session that handles a whole sequence, accepting streams as it
goes, leaves under each identifier what the frames with that identifier make of it, one after the
other.
-/

set_option autoImplicit false

namespace Atlax.Analysis

open Atlax.Model Atlax.Library

variable {j : ℕ} {p : Packet} {config : MuxConfig} {role : Role} {r : Ref}

/-- What a stream shows of itself: its state, unread bytes, receive window and payload. -/
def view (s : StreamSession) : StreamSession :=
  { s with writeOut := [], finCh := false, closedCh := false, localCloseOnce := false,
           resetOnce := false }

/-- The entry under an identifier. -/
def entry (s : Session) (j : ℕ) : Option StreamSession :=
  (s.table.get j).map fun r => view (s.cells r).stream

/-- RemoteClose and `maybeRemoveStream` on an entry. -/
def closeEntry (e : StreamSession) : Option StreamSession :=
  if e.remoteClose.state.Terminal then none else some (view e.remoteClose)

/-- The end of `handleStreamData` on an entry. -/
def finEntry (f : Frame) (e : StreamSession) : Option StreamSession :=
  if f.flags.fin then closeEntry e else some e

/-- WINDOW_UPDATE on an entry. -/
def updateEntry (f : Frame) (e : StreamSession) : StreamSession :=
  { e with recvWindow := e.recvWindow + toInt32 (uint32 f.payload) }

/-- The entry of a stream that a STREAM_OPEN makes. -/
def openedEntry (window : ℤ) (f : Frame) : StreamSession :=
  ((newStreamSession f.streamID window).setOpenPayload f.payload).opened

/-- What a frame does to the entry under its own identifier; `owned` says that the identifier has
the session's parity. -/
def frameEffect (owned : Bool) (window : ℤ) (e : Option StreamSession) (f : Frame) :
    Option StreamSession :=
  match f.command with
  | .streamOpen => if f.flags.ack ∨ e.isSome ∨ owned then e else some (openedEntry window f)
  | .streamData =>
    e.bind fun e => finEntry f (if f.payload = [] then e else e.deliver f.payload)
  | .streamClose => e.bind closeEntry
  | .streamReset => none
  | .windowUpdate => if f.payload.length < 4 then e else e.map (updateEntry f)
  | _ => e

variable {s s' : Session} {a : Action}

/-- The steps of a session that handles frames and whose streams are accepted.
SOURCE: mux_session.go:174-187, 276-292 -/
def AcceptingStep (s : Session) (a : Action) : Prop :=
  HandlerStep s a ∨ a = .acceptStream ∨ a = .readerClosed

/-- From `s` on, the read loop has read the frames `fs` and has come to `s'`. -/
inductive Handles (s : Session) : List Packet → Session → Prop
  | refl : Handles s [] s
  | recv {fs : List Packet} {s₁ s₂ : Session} (p : Packet) (h : Handles s fs s₁)
      (hstep : s₁.step (.recv p) = some s₂) : Handles s (fs ++ [p]) s₂
  | step {fs : List Packet} {s₁ s₂ : Session} {a : Action} (h : Handles s fs s₁)
      (ha : AcceptingStep s₁ a) (hstep : s₁.step a = some s₂) : Handles s fs s₂

/-! ## The entry across a section -/

theorem entry_congr (ht : s'.table = s.table) (hc : s'.cells = s.cells) (j : ℕ) :
    entry s' j = entry s j := by
  unfold entry
  rw [ht, hc]

/-- A section that leaves what the stream shows as it was. -/
theorem entry_setCell_of_view {c : Cell}
    (h : view c.stream = view (s.cells r).stream) (j : ℕ) : entry (s.setCell r c) j = entry s j := by
  unfold entry
  simp only [Session.setCell_table, Session.setCell_cells]
  refine Option.map_congr fun r' _ => ?_
  by_cases hr : r' = r
  · subst hr
    rw [Function.update_self, h]
  · rw [Function.update_of_ne hr]

/-- A section on a stream with another identifier. -/
theorem entry_setCell_of_ne (hw : WellFormed s)
    (h : (s.cells r).stream.id ≠ j) (c : Cell) : entry (s.setCell r c) j = entry s j := by
  unfold entry
  simp only [Session.setCell_table, Session.setCell_cells]
  refine Option.map_congr fun r' hr' => ?_
  have hne : r' ≠ r := by
    rintro rfl
    exact h (hw.table j r' hr').2
  rw [Function.update_of_ne hne]

/-- A section on the stream under one identifier changes that entry alone. -/
theorem entry_setCell (hw : WellFormed s) {i : ℕ} (hget : s.table.get i = some r)
    (c : Cell) (j : ℕ) :
    entry (s.setCell r c) j = if i = j then some (view c.stream) else entry s j := by
  split
  · next hij =>
    subst hij
    simp [entry, hget]
  · next hij =>
    exact entry_setCell_of_ne hw (fun hid => hij ((hw.table i r hget).2.symm.trans hid)) c

theorem entry_remove (i j : ℕ) :
    entry (s.setTable (s.table.remove i)) j = if i = j then none else entry s j := by
  unfold entry
  simp only [Session.setTable_table, Session.setTable_cells, StreamTable.get_remove, eq_comm]
  split <;> rfl

theorem entry_removePresent (i j : ℕ) :
    entry (s.setTable (s.table.removePresent i)) j = if i = j then none else entry s j := by
  unfold entry
  simp only [Session.setTable_table, Session.setTable_cells, StreamTable.get_removePresent, eq_comm]
  split <;> rfl

theorem view_acceptedCell (s : Session) (p : Packet) :
    view (s.acceptedCell p).stream = openedEntry s.config.initialStreamWindow p.frame := by
  unfold Session.acceptedCell openedEntry
  dsimp only
  split
  · next h => rw [h]; rfl
  · rfl

theorem entry_acceptInsert (hw : WellFormed s) (p : Packet) (j : ℕ) :
    entry (s.acceptInsert p) j = if p.frame.streamID = j then
      some (openedEntry s.config.initialStreamWindow p.frame) else entry s j := by
  unfold entry
  simp only [Session.acceptInsert, Session.addCell_table, Session.setReader_table,
    Session.setTable_table, Session.addCell_cells, StreamTable.get_insert, eq_comm]
  split
  · simp [view_acceptedCell]
  · refine Option.map_congr fun r' hr' => ?_
    have hne : r' ≠ s.nextRef := Nat.ne_of_lt (hw.table j r' hr').1
    simp [Function.update_of_ne hne]

/-! ## What is left of a handler -/

/-- What the rest of a handler does to the entry under the identifier of its frame. -/
def restEffect (owned : Bool) (window : ℤ) (pc : ReaderPc) (e : Option StreamSession) :
    Option StreamSession :=
  match pc with
  | .frame p => frameEffect owned window e p.frame
  | .acceptInsert p => some (openedEntry window p.frame)
  | .deliver _ p => e.bind fun e => finEntry p.frame (e.deliver p.frame.payload)
  | .remoteClose _ _ => e.bind closeEntry
  | .checkClosed _ _ => e.filter fun e => ¬ e.state.Terminal
  | .checkReset _ _ => e.filter fun e => e.state ≠ .reset
  | .delete _ _ | .resetting _ _ | .awaitReset _ _ | .resetRemove _ _ => none
  | .windowUpdate _ p => e.map (updateEntry p.frame)
  | .idle | .ackSend _ | .rejectOpen _ | .acceptAck _ _ | .acceptDeliver _ _ => e

/-- The entry under `j` as it will be when the read loop has finished its handler. -/
def settledEntry (s : Session) (j : ℕ) : Option StreamSession :=
  match s.reader.packet with
  | some p =>
    if p.frame.streamID = j then
      restEffect (s.table.ownsID j) s.config.initialStreamWindow s.reader (entry s j)
    else entry s j
  | none => entry s j

/-- The stream a handler works on is still under the identifier it was found under. -/
def LookedUp (s : Session) : Prop :=
  ∀ r p, s.reader = .deliver r p ∨ s.reader = .remoteClose r p ∨ s.reader = .checkClosed r p ∨
    s.reader = .checkReset r p ∨ s.reader = .windowUpdate r p →
    s.table.get p.frame.streamID = some r

theorem entry_of_get {i : ℕ} (h : s.table.get i = some r) :
    entry s i = some (view (s.cells r).stream) := by
  simp [entry, h]

theorem view_remoteClose (e : StreamSession) :
    view (view e).remoteClose = view e.remoteClose ∧
      (view e).remoteClose.state = e.remoteClose.state := by
  unfold StreamSession.remoteClose view
  cases h : e.state <;> simp [h]

theorem closeEntry_view (e : StreamSession) :
    closeEntry (view e) =
      if e.remoteClose.state.Terminal then none else some (view e.remoteClose) := by
  unfold closeEntry
  rw [(view_remoteClose e).1, (view_remoteClose e).2]

/-- The first section of a handler, after the lookup. -/
theorem settledEntry_lookupStream {found : Ref → ReaderPc}
    (hfound : ∀ r, (found r).packet = some p ∨ found r = .idle) :
    settledEntry (s.lookupStream p found) j =
      if p.frame.streamID = j then
        match s.table.get j with
        | some r =>
          restEffect (s.table.ownsID j) s.config.initialStreamWindow (found r) (entry s j)
        | none => none
      else entry s j := by
  have hentry : ∀ pc, entry (s.setReader pc) j = entry s j := fun pc => entry_congr rfl rfl j
  unfold Session.lookupStream
  by_cases hj : p.frame.streamID = j
  · rw [if_pos hj, hj]
    cases hget : s.table.get j with
    | none => simp [settledEntry, ReaderPc.packet, entry, hget]
    | some r =>
      rcases hfound r with h | h
      · simp [settledEntry, h, hj, hentry]
      · simp [settledEntry, h, ReaderPc.packet, hentry, restEffect]
  · rw [if_neg hj]
    cases s.table.get p.frame.streamID with
    | none => exact hentry _
    | some r =>
      rcases hfound r with h | h
      · simp [settledEntry, h, hj, hentry]
      · simp [settledEntry, h, ReaderPc.packet, hentry]

/-- A handler that ends at once leaves the entry as it is. -/
theorem settledEntry_idle (hrd : s'.reader.packet = none) (ht : s'.table = s.table)
    (hc : s'.cells = s.cells) (j : ℕ) : settledEntry s' j = entry s j := by
  unfold settledEntry
  rw [hrd]
  exact entry_congr ht hc j

/-- It does what the frame is to do, if that is nothing. -/
theorem settledEntry_quiet (hrd : s'.reader.packet = none)
    (ht : s'.table = s.table) (hc : s'.cells = s.cells) (heffect : p.frame.streamID = j →
      frameEffect (s.table.ownsID j) s.config.initialStreamWindow (entry s j) p.frame =
        entry s j) :
    settledEntry s' j =
      if p.frame.streamID = j then
        frameEffect (s.table.ownsID j) s.config.initialStreamWindow (entry s j) p.frame
      else entry s j := by
  rw [settledEntry_idle hrd ht hc j]
  split
  · next hid => exact (heffect hid).symm
  · rfl

/-- A handler that looks its stream up does what the frame is to do, if the rest of it does. -/
theorem settledEntry_found {found : Ref → ReaderPc}
    (hfound : ∀ r, (found r).packet = some p ∨ found r = .idle)
    (hmiss : frameEffect (s.table.ownsID j) s.config.initialStreamWindow none p.frame = none)
    (hrest : ∀ r, s.table.get j = some r →
      restEffect (s.table.ownsID j) s.config.initialStreamWindow (found r) (entry s j) =
        frameEffect (s.table.ownsID j) s.config.initialStreamWindow (entry s j) p.frame) :
    settledEntry (s.lookupStream p found) j =
      if p.frame.streamID = j then
        frameEffect (s.table.ownsID j) s.config.initialStreamWindow (entry s j) p.frame
      else entry s j := by
  rw [settledEntry_lookupStream hfound]
  split
  · cases hget : s.table.get j with
    | none =>
      have hentry : entry s j = none := by simp [entry, hget]
      rw [hentry, hmiss]
    | some r => exact hrest r hget
  · rfl

/-- A STREAM_OPEN of the peer makes a stream under an identifier of the peer's that is vacant. -/
theorem settledEntry_acceptPeerOpen (hcmd : p.frame.command = .streamOpen)
    (hack : ¬ p.frame.flags.ack) :
    settledEntry (s.acceptPeerOpen p) j =
      if p.frame.streamID = j then
        frameEffect (s.table.ownsID j) s.config.initialStreamWindow (entry s j) p.frame
      else entry s j := by
  have hentry : ∀ pc, entry (s.setReader pc) j = entry s j := fun pc => entry_congr rfl rfl j
  unfold Session.acceptPeerOpen
  split
  · next hsome =>
    refine settledEntry_quiet rfl rfl rfl fun hid => ?_
    have hsome' : (entry s j).isSome = true := by simpa [entry, ← hid] using hsome
    simp [frameEffect, hcmd, hsome']
  · next hvacant =>
    split
    · next hown =>
      simp only [settledEntry, Session.setReader_reader, ReaderPc.packet, hentry, restEffect,
        ite_self]
      split
      · next hid => simp [frameEffect, hcmd, ← hid, hown]
      · rfl
    · next hown =>
      simp only [settledEntry, Session.setReader_reader, ReaderPc.packet, hentry, restEffect,
        Session.setReader_config]
      split
      · next hid =>
        have hgone : entry s j = none := by simpa [entry, ← hid] using hvacant
        have hown' : s.table.ownsID j = false := by simpa [← hid] using hown
        simp [frameEffect, hcmd, hack, hgone, hown']
      · rfl

/-- STREAM_DATA without a payload goes on to the FIN at once. -/
theorem settledEntry_streamData (hcmd : p.frame.command = .streamData) :
    settledEntry (s.lookupStream p fun r =>
        if p.frame.payload = [] then Session.afterDeliver r p else .deliver r p) j =
      if p.frame.streamID = j then
        frameEffect (s.table.ownsID j) s.config.initialStreamWindow (entry s j) p.frame
      else entry s j := by
  refine settledEntry_found ?_ (by simp [frameEffect, hcmd]) ?_
  · intro r
    split
    · unfold Session.afterDeliver
      split
      · exact .inl rfl
      · exact .inr rfl
    · exact .inl rfl
  · intro r hget
    simp only [frameEffect, hcmd, entry_of_get hget, Option.bind_some]
    split
    · unfold Session.afterDeliver finEntry
      split <;> rfl
    · rfl

/-- WINDOW_UPDATE for the connection, under the identifier 0, leaves the entries alone. -/
theorem settledEntry_handleWindowUpdate (hj : j ≠ 0) (hcmd : p.frame.command = .windowUpdate) :
    settledEntry (s.handleWindowUpdate p) j =
      if p.frame.streamID = j then
        frameEffect (s.table.ownsID j) s.config.initialStreamWindow (entry s j) p.frame
      else entry s j := by
  unfold Session.handleWindowUpdate
  split
  · next hlen => exact settledEntry_quiet rfl rfl rfl (by simp [frameEffect, hcmd, hlen])
  · next hlen =>
    split
    · next hzero =>
      exact settledEntry_quiet rfl rfl rfl fun hid => absurd (hid.symm.trans hzero) hj
    · refine settledEntry_found (fun r => .inl rfl) (by simp [frameEffect, hcmd]) ?_
      intro r _
      simp [frameEffect, hcmd, hlen, restEffect]

/-- The dispatch picks what the frame is to do.
SOURCE: mux_session.go:385-568 -/
theorem settledEntry_handleFrame (hj : j ≠ 0) (p : Packet) :
    settledEntry (s.handleFrame p) j =
      if p.frame.streamID = j then
        frameEffect (s.table.ownsID j) s.config.initialStreamWindow (entry s j) p.frame
      else entry s j := by
  unfold Session.handleFrame
  cases hcmd : p.frame.command with
  | streamOpen =>
    by_cases hack : p.frame.flags.ack = true
    · simp only [hack, if_true]
      unfold Session.handleAck
      split <;> exact settledEntry_quiet rfl rfl rfl (by simp [frameEffect, hcmd, hack])
    · simp only [hack]
      exact settledEntry_acceptPeerOpen hcmd hack
  | streamData => exact settledEntry_streamData hcmd
  | streamClose | streamReset =>
    refine settledEntry_found (fun r => .inl rfl) (by simp [frameEffect, hcmd]) fun r _ => ?_
    simp [frameEffect, hcmd, restEffect]
  | windowUpdate => exact settledEntry_handleWindowUpdate hj hcmd
  | _ => exact settledEntry_quiet rfl rfl rfl (by simp [frameEffect, hcmd])

/-! ## One step, a whole sequence -/

theorem lookedUp_step (h : LookedUp s) (ha : AcceptingStep s a) (hm : Move s a s') :
    LookedUp s' := by
  intro r p hrd
  rcases ha with (rfl | ⟨r', q, hq, ha⟩) | rfl | rfl
  · cases hm with
    | handleData _ _ _ _ hget | handleDataFin _ _ _ _ hget | handleClose _ _ _ _ hget
    | handleWindow _ _ _ _ hget =>
      obtain ⟨rfl, rfl⟩ : _ = r ∧ _ = p := by simpa using hrd
      exact hget
    | deliver r₀ p₀ h₀ =>
      simp only [Session.setReader_reader, Session.afterDeliver] at hrd
      split at hrd
      · obtain ⟨rfl, rfl⟩ : _ = r ∧ _ = p := by simpa using hrd
        exact h _ _ (.inl h₀)
      · simp at hrd
    | remoteClose r₀ p₀ h₀ =>
      obtain ⟨rfl, rfl⟩ : _ = r ∧ _ = p := by simpa using hrd
      exact h _ _ (.inr (.inl h₀))
    | checkClosed r₀ p₀ h₀ =>
      simp only [Session.setReader_reader] at hrd
      split at hrd
      · simp at hrd
      · obtain ⟨rfl, rfl⟩ : _ = r ∧ _ = p := by simpa using hrd
        exact h _ _ (.inr (.inr (.inl h₀)))
    | checkReset | resetting =>
      simp only [Session.setReader_reader] at hrd
      split at hrd <;> simp at hrd
    | _ => simp at hrd
  · -- inside `s.Reset(code)` the read loop stands still
    have hrd' : s'.reader = .awaitReset r' q := by
      rcases ha with rfl | rfl | rfl <;> cases hm <;> exact hq
    simp [hrd'] at hrd
  · cases hm
    exact h r p hrd
  · cases hm
    simp at hrd

/-- The entry that will be there, by the frame in the handler or the frame just finished with. -/
theorem settledEntry_eq (h : s.reader.packet = some p ∨ s.reader = .idle) (j : ℕ) :
    settledEntry s j = if p.frame.streamID = j then
      restEffect (s.table.ownsID j) s.config.initialStreamWindow s.reader (entry s j)
    else entry s j := by
  rcases h with h | h
  · simp [settledEntry, h]
  · simp [settledEntry, h, ReaderPc.packet, restEffect]

theorem entry_setReader (s : Session) (pc : ReaderPc) (j : ℕ) :
    entry (s.setReader pc) j = entry s j := entry_congr rfl rfl j

theorem entry_enqueue (s : Session) (p : Packet) (priority : Priority) (j : ℕ) :
    entry (s.enqueue p priority) j = entry s j := entry_congr rfl rfl j

@[simp] theorem view_state (e : StreamSession) : (view e).state = e.state := rfl

/-- A section of the handler of `p`: it leaves the entries under other identifiers, and the rest of
the handler makes of the entry under its own what it would have made before. -/
theorem settledEntry_section (hm : Move s a s')
    (hp : s.reader.packet = some p) (hp' : s'.reader.packet = some p ∨ s'.reader = .idle)
    (hother : p.frame.streamID ≠ j → entry s' j = entry s j) (hown : p.frame.streamID = j →
      restEffect (s.table.ownsID j) s.config.initialStreamWindow s'.reader (entry s' j) =
        restEffect (s.table.ownsID j) s.config.initialStreamWindow s.reader (entry s j)) :
    settledEntry s' j = settledEntry s j := by
  rw [settledEntry_eq hp', settledEntry_eq (.inl hp), move_ownsID hm, move_config hm]
  split
  · next hid => exact hown hid
  · next hid => exact hother hid

/-- A section that changes no entry. -/
theorem settledEntry_pass (hm : Move s a s')
    (hp : s.reader.packet = some p) (hp' : s'.reader.packet = some p ∨ s'.reader = .idle)
    (hsame : entry s' j = entry s j) (hown : p.frame.streamID = j →
      restEffect (s.table.ownsID j) s.config.initialStreamWindow s'.reader (entry s j) =
        restEffect (s.table.ownsID j) s.config.initialStreamWindow s.reader (entry s j)) :
    settledEntry s' j = settledEntry s j := by
  refine settledEntry_section hm hp hp' (fun _ => hsame) fun hid => ?_
  rw [hsame]
  exact hown hid

/-- A section on the stream that the handler has looked up, which is under the identifier of its
frame. -/
theorem settledEntry_cell (hw : WellFormed s) {c : Cell} {pc : ReaderPc}
    (hm : Move s a ((s.setCell r c).setReader pc))
    (hr : s.reader.stream = some (r, p)) (hp : s.reader.packet = some p)
    (hget : s.table.get p.frame.streamID = some r) (hp' : pc.packet = some p ∨ pc = .idle)
    (hown : restEffect (s.table.ownsID j) s.config.initialStreamWindow pc (some (view c.stream)) =
      restEffect (s.table.ownsID j) s.config.initialStreamWindow s.reader
        (some (view (s.cells r).stream))) :
    settledEntry ((s.setCell r c).setReader pc) j = settledEntry s j := by
  refine settledEntry_section hm hp hp' (fun hid => ?_) fun hid => ?_
  · rw [entry_setReader]
    exact entry_setCell_of_ne hw ((hw.reader r p hr).2 ▸ hid) c
  · rw [entry_setReader, entry_setCell hw hget, if_pos hid, ← hid, entry_of_get hget, hid]
    exact hown

/-- Every section of a handler brings the entry closer to what it will be. -/
theorem settledEntry_readerStep (hw : WellFormed s) (hl : LookedUp s) (hj : j ≠ 0)
    (hstep : s.readerStep = some s') : settledEntry s' j = settledEntry s j := by
  have hm := readerStep_move hstep
  by_cases hframe : ∃ p, s.reader = .frame p
  · obtain ⟨p, hrd⟩ := hframe
    obtain rfl : s.handleFrame p = s' := by simpa [Session.readerStep, hrd] using hstep
    rw [settledEntry_handleFrame hj, settledEntry_eq (p := p) (.inl (by rw [hrd]; rfl)), hrd]
    rfl
  -- the sections after the first, each with what it leaves to do
  have hm' := hm
  cases hm with
  | handleNothing p hrd | handleAck p hrd | handleOpenOwn p hrd | handleOpen p hrd | handleData p hrd
  | handleDataFin p hrd | handleClose p hrd | handleReset p hrd | handleMiss p hrd
  | handleOpenActive p hrd | handleWindow p hrd | handlePing p hrd => exact absurd ⟨p, hrd⟩ hframe
  | ackSend r hrd =>
    have hsame := entry_setCell_of_view (s := s) (r := r) (c := { s.cells r with ackCh := true })
      rfl j
    simp [settledEntry, hrd, ReaderPc.packet, entry_setReader, hsame]
  | rejectOpen p hrd =>
    refine settledEntry_pass hm' (p := p) (by rw [hrd]; rfl) (.inr rfl) ?_ fun _ => ?_
    · rw [entry_setReader, entry_enqueue]
    · rw [hrd]
      rfl
  | acceptInsert p hrd =>
    have hinsert := entry_acceptInsert hw p j
    refine settledEntry_section hm' (p := p) (by rw [hrd]; rfl) (.inl rfl)
      (fun hid => hinsert.trans (if_neg hid)) fun hid => ?_
    rw [hrd]
    exact hinsert.trans (if_pos hid)
  | acceptAck r p hrd =>
    refine settledEntry_pass hm' (p := p) (by rw [hrd]; rfl) (.inl rfl) ?_ fun _ => ?_
    · rw [entry_setReader, entry_enqueue]
    · rw [hrd]
      rfl
  | acceptDeliver r p hrd =>
    refine settledEntry_pass hm' (p := p) (by rw [hrd]; rfl) (.inr rfl) (entry_congr rfl rfl j)
      fun _ => ?_
    rw [hrd]
    rfl
  | deliver r p hrd =>
    refine settledEntry_cell hw hm' (p := p) (by rw [hrd]; rfl) (by rw [hrd]; rfl)
      (hl r p (.inl hrd)) ?_ ?_
    · unfold Session.afterDeliver
      split
      · exact .inl rfl
      · exact .inr rfl
    · rw [hrd]
      cases hfin : p.frame.flags.fin <;>
        simp only [Session.afterDeliver, hfin, if_true, restEffect, finEntry, Bool.false_eq_true,
          if_false] <;> rfl
  | remoteClose r p hrd =>
    refine settledEntry_cell hw hm' (p := p) (by rw [hrd]; rfl) (by rw [hrd]; rfl)
      (hl r p (.inr (.inl hrd))) (.inl rfl) ?_
    rw [hrd]
    simp only [restEffect, Option.bind_some, closeEntry_view]
    by_cases ht : (s.cells r).stream.remoteClose.state.Terminal <;>
      simp [ht, Option.filter]
  | checkClosed r p hrd =>
    have hget := hl r p (.inr (.inr (.inl hrd)))
    refine settledEntry_pass hm' (p := p) (by rw [hrd]; rfl) ?_ (entry_setReader s _ j)
      fun hid => ?_
    · simp only [Session.setReader_reader]
      split <;> exact .inl rfl
    · rw [hrd, ← hid, entry_of_get hget]
      simp only [Session.setReader_reader]
      by_cases hc : (s.cells r).stream.state = .closed <;>
        by_cases hr : (s.cells r).stream.state = .reset <;>
        simp [hc, hr, restEffect, Option.filter, StreamState.Terminal]
  | checkReset r p hrd =>
    have hget := hl r p (.inr (.inr (.inr (.inl hrd))))
    refine settledEntry_pass hm' (p := p) (by rw [hrd]; rfl) ?_ (entry_setReader s _ j)
      fun hid => ?_
    · simp only [Session.setReader_reader]
      split
      · exact .inl rfl
      · exact .inr rfl
    · rw [hrd, ← hid, entry_of_get hget]
      simp only [Session.setReader_reader]
      by_cases hc : (s.cells r).stream.state = .reset <;>
        simp [hc, restEffect, Option.filter]
  | delete r p hrd =>
    refine settledEntry_section hm' (p := p) (by rw [hrd]; rfl) (.inr rfl) (fun hid => ?_)
      fun hid => ?_
    · rw [entry_setReader, entry_remove, if_neg hid]
    · rw [entry_setReader, entry_remove, if_pos hid, hrd]
      rfl
  | resetting r p hrd =>
    refine settledEntry_section hm' (p := p) (by rw [hrd]; rfl) ?_ (fun hid => ?_) fun hid => ?_
    · simp only [Session.setReader_reader]
      split <;> exact .inl rfl
    · rw [entry_setReader]
      exact entry_setCell_of_ne hw ((hw.reader r p (by rw [hrd]; rfl)).2 ▸ hid) _
    · rw [hrd]
      simp only [Session.setReader_reader]
      split <;> rfl
  | awaitReset r p hrd =>
    refine settledEntry_pass hm' (p := p) (by rw [hrd]; rfl) (.inl rfl) (entry_setReader s _ j)
      fun _ => ?_
    rw [hrd]
    rfl
  | resetRemove r p hrd =>
    refine settledEntry_section hm' (p := p) (by rw [hrd]; rfl) (.inr rfl) (fun hid => ?_)
      fun hid => ?_
    · rw [entry_setReader, entry_removePresent, if_neg hid]
    · rw [entry_setReader, entry_removePresent, if_pos hid, hrd]
      rfl
  | windowUpdate r p hrd =>
    refine settledEntry_cell hw hm' (p := p) (by rw [hrd]; rfl) (by rw [hrd]; rfl)
      (hl r p (.inr (.inr (.inr (.inr hrd))))) (.inr rfl) ?_
    rw [hrd]
    rfl

/-- So does every step of the callback that the handler waits for, and accepting a stream does
nothing to it. -/
theorem settledEntry_step (hw : WellFormed s) (hl : LookedUp s) (hj : j ≠ 0)
    (ha : AcceptingStep s a) (hstep : s.step a = some s') :
    settledEntry s' j = settledEntry s j := by
  have hm := step_move hstep
  rcases ha with (rfl | ⟨r, p, hrd, ha⟩) | rfl | rfl
  · exact settledEntry_readerStep hw hl hj hstep
  · have hid := (hw.reader r p (by rw [hrd]; rfl)).2
    have hrest : ∀ pc e, pc = .awaitReset r p →
        restEffect (s.table.ownsID j) s.config.initialStreamWindow pc e = none := by
      rintro pc e rfl
      rfl
    have hrd' : s'.reader = .awaitReset r p := by
      rcases ha with rfl | rfl | rfl <;> cases hm <;> exact hrd
    refine settledEntry_section hm (p := p) (by rw [hrd]; rfl) (.inl (by rw [hrd']; rfl)) ?_
      fun _ => (hrest _ _ hrd').trans (hrest _ _ hrd).symm
    intro hne
    rcases ha with rfl | rfl | rfl <;> cases hm
    · exact entry_setCell_of_view (by rfl) j
    · refine (entry_removePresent (s := s.setCell r _) (s.cells r).stream.id j).trans ?_
      rw [if_neg (hid ▸ hne)]
      exact entry_setCell_of_view (by rfl) j
    · rw [entry_enqueue]
      exact entry_setCell_of_view (by rfl) j
  · cases hm with
    | acceptStream r rest h =>
      have hsame : entry ((s.setCell r { s.cells r with handle := true }).setAcceptCh rest) j =
          entry s j :=
        (entry_congr rfl rfl j).trans (entry_setCell_of_view (by rfl) j)
      unfold settledEntry
      rw [hsame]
      rfl
  · cases hm with
    | readerClosed r p hrd =>
      rw [settledEntry_eq (p := p) (.inr rfl), settledEntry_eq (p := p) (.inl (by rw [hrd]; rfl)),
        hrd, entry_setReader]
      rfl

/-- Reading a frame decides what it will do. -/
theorem settledEntry_recv (hstep : s.step (.recv p) = some s') :
    settledEntry s' j = if p.frame.streamID = j then
      frameEffect (s.table.ownsID j) s.config.initialStreamWindow (settledEntry s j) p.frame
    else settledEntry s j := by
  have hm := step_move hstep
  cases hm with
  | recv _ hidle =>
    rw [settledEntry_eq (p := p) (.inl rfl), settledEntry_eq (p := p) (.inr hidle), hidle,
      entry_setReader]
    simp only [Session.setReader_reader, restEffect, ite_self]
    rfl

theorem ownsID_reach {ok : Session → Action → Prop} (h : SessionReach role config ok s) (j : ℕ) :
    s.table.ownsID j = decide (j % 2 = startID role % 2) := by
  rw [Bool.eq_iff_iff, (wellFormed_reach h).ownsID_iff, session_role h, decide_eq_true_eq]

/-- The frames of a sequence that carry an identifier. -/
def framesOf (j : ℕ) (fs : List Packet) : List Packet := fs.filter fun p => p.frame.streamID = j

theorem Handles.reach {fs : List Packet} (hh : Handles s fs s')
    (h : SessionReach role config anyStep s) : SessionReach role config anyStep s' := by
  induction hh with
  | refl => exact h
  | recv _ _ hstep ih | step _ _ hstep ih => exact .tail ih trivial hstep

/-- A session that handles a sequence of frames leaves, under each identifier, what the frames with
that identifier make of the entry that was there. -/
theorem settledEntry_handles
    (h : SessionReach role config anyStep s) (hidle : s.reader = .idle) (hj : j ≠ 0)
    {fs : List Packet} (hh : Handles s fs s') :
    LookedUp s' ∧ settledEntry s' j = (framesOf j fs).foldl
      (fun e p => frameEffect (decide (j % 2 = startID role % 2)) config.initialStreamWindow e
        p.frame) (entry s j) := by
  induction hh with
  | refl =>
    refine ⟨?_, ?_⟩
    · intro r p hrd
      simp [hidle] at hrd
    · simp [settledEntry, hidle, ReaderPc.packet, framesOf]
  | recv p hh hstep ih =>
    obtain ⟨_, hfold⟩ := ih
    have hr := hh.reach h
    refine ⟨?_, ?_⟩
    · intro r q hrd
      have hm := step_move hstep
      cases hm
      simp at hrd
    · rw [settledEntry_recv hstep, ownsID_reach hr, session_config hr, hfold]
      unfold framesOf
      rw [List.filter_append, List.foldl_append]
      by_cases hid : p.frame.streamID = j <;> simp [hid]
  | step hh ha hstep ih =>
    obtain ⟨hl, hfold⟩ := ih
    exact ⟨lookedUp_step hl ha (step_move hstep),
      (settledEntry_step (wellFormed_reach (hh.reach h)) hl hj ha hstep).trans hfold⟩

/-! ## Handling ends -/

theorem Handles.trans {s₁ s₂ s₃ : Session} {fs fs' : List Packet} (h : Handles s₁ fs s₂)
    (h' : Handles s₂ fs' s₃) : Handles s₁ (fs ++ fs') s₃ := by
  induction h' with
  | refl => simpa using h
  | recv p _ hstep ih =>
    rw [← List.append_assoc]
    exact .recv p ih hstep
  | step _ ha hstep ih => exact .step ih ha hstep

/-- The streams that wait in acceptCh are accepted. -/
theorem acceptAll (s : Session) :
    ∃ s', Handles s [] s' ∧ s'.acceptCh = [] ∧ s'.reader = s.reader ∧ s'.closing = s.closing := by
  induction hch : s.acceptCh generalizing s with
  | nil => exact ⟨s, .refl, hch, rfl, rfl⟩
  | cons r rest ih =>
    have hstep : s.step .acceptStream =
        some ((s.setCell r { s.cells r with handle := true }).setAcceptCh rest) := by
      simp [Session.step, hch]
    obtain ⟨s', hh, hnil, hrd, hcl⟩ :=
      ih ((s.setCell r { s.cells r with handle := true }).setAcceptCh rest) rfl
    exact ⟨s', Handles.trans (.step .refl (.inr (.inl rfl)) hstep) hh, hnil, hrd, hcl⟩

theorem handles_of_reach (h : Reach Session.step HandlerStep s s') : Handles s [] s' := by
  induction h with
  | refl => exact .refl
  | tail _ ha hstep ih => exact .step ih (.inl ha) hstep

/-- Any sequence of frames is handled to its end, as long as the transport is there and streams are
accepted. -/
theorem handles_total (hM : 0 < config.maxConcurrentStreams)
    (h : SessionReach role config anyStep s) (hidle : s.reader = .idle) (hopen : s.closing ≠ .done)
    (fs : List Packet) : ∃ s', Handles s fs s' ∧ s'.reader = .idle := by
  induction fs generalizing s with
  | nil => exact ⟨s, .refl, hidle⟩
  | cons p fs ih =>
    -- make room, read the frame, finish its handler, go on
    obtain ⟨s₁, h₁, hnil, hrd₁, hcl₁⟩ := acceptAll s
    have hr₁ := h₁.reach h
    have hstep : s₁.step (.recv p) = some (s₁.setReader (.frame p)) := by
      simp [Session.step, hrd₁, hidle, hcl₁, hopen]
    have h₂ : Handles s [p] (s₁.setReader (.frame p)) := .recv p h₁ hstep
    have hroom : AcceptRoom (s₁.setReader (.frame p)) := by
      intro q _ _
      simpa [hnil, session_config hr₁] using hM
    obtain ⟨s₃, hr₃, hidle₃, hcl₃⟩ := handler_finishes (h₂.reach h) hroom
    have h₃ : Handles s [p] s₃ := by simpa using h₂.trans (handles_of_reach hr₃)
    obtain ⟨s', h₄, hidle'⟩ := ih (h₃.reach h) hidle₃ (by simpa [hcl₃, hcl₁] using hopen)
    exact ⟨s', h₃.trans h₄, hidle'⟩

/-- Handling a sequence of frames leaves under an identifier what handling those that carry it
leaves, whatever the others were, and in whatever order streams are accepted meanwhile; and it comes
to its end.
SOURCE: mux_session.go:385-568, 641-758 -/
theorem streams_isolated {role : Role} {config : MuxConfig}
    (h : SessionReach role config anyStep s) (hidle : s.reader = .idle) (fs : List Packet) {j : ℕ}
    (hj : j ≠ 0) :
    (∀ s₁ s₂, Handles s fs s₁ → s₁.reader = .idle → Handles s (framesOf j fs) s₂ →
      s₂.reader = .idle → entry s₁ j = entry s₂ j) ∧
    (0 < config.maxConcurrentStreams → s.closing ≠ .done →
      ∃ s₁, Handles s fs s₁ ∧ s₁.reader = .idle) := by
  have settled : ∀ {s' : Session}, s'.reader = .idle → settledEntry s' j = entry s' j := by
    intro s' hrd
    simp [settledEntry, hrd, ReaderPc.packet]
  refine ⟨?_, fun hM hopen => handles_total hM h hidle hopen fs⟩
  intro s₁ s₂ h₁ hi₁ h₂ hi₂
  rw [← settled hi₁, ← settled hi₂, (settledEntry_handles h hidle hj h₁).2,
    (settledEntry_handles h hidle hj h₂).2]
  simp [framesOf]

/-- Frames of streams 2 and 4 in turn: stream 2 is opened, gets two bytes and is half-closed, stream
4 is opened and reset. -/
def interleavedFrames : List Packet :=
  [⟨{ command := .streamOpen, streamID := 2 }, none⟩,
    ⟨{ command := .streamOpen, streamID := 4 }, none⟩,
    ⟨{ command := .streamData, streamID := 2, payload := [7, 8] }, none⟩,
    ⟨{ command := .streamReset, streamID := 4 }, none⟩,
    ⟨{ command := .streamClose, flags := { fin := true }, streamID := 2 }, none⟩]

theorem streams_isolated_interleaved :
    ∃ s₁ s₂, Handles (newMuxSession .relay ⟨4, 65536, 65536⟩) interleavedFrames s₁ ∧
      Handles (newMuxSession .relay ⟨4, 65536, 65536⟩) (framesOf 2 interleavedFrames) s₂ ∧
      entry s₁ 2 = entry s₂ 2 ∧ (entry s₁ 2).map (·.readBuf) = some [7, 8] := by
  have h : SessionReach .relay ⟨4, 65536, 65536⟩ anyStep
      (newMuxSession .relay ⟨4, 65536, 65536⟩) := .refl
  obtain ⟨s₁, h₁, hi₁⟩ := (streams_isolated h rfl interleavedFrames (j := 2) (by decide)).2
    (by decide) (by decide)
  obtain ⟨s₂, h₂, hi₂⟩ := (streams_isolated h rfl (framesOf 2 interleavedFrames) (j := 2)
    (by decide)).2 (by decide) (by decide)
  refine ⟨s₁, s₂, h₁, h₂, (streams_isolated h rfl interleavedFrames (by decide)).1 s₁ s₂ h₁ hi₁ h₂
    hi₂, ?_⟩
  have hs := (settledEntry_handles h rfl (j := 2) (by decide) h₁).2
  simp only [settledEntry, hi₁, ReaderPc.packet] at hs
  rw [hs]
  decide

end Atlax.Analysis
