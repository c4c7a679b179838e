import Atlax.Analysis.Ownership

/-!
# Steps of the joined sessions

A step of the system is a move of one side and what it does to the wires; the other side stands
still. What a side does is also a run of that side alone, so that the results about a single
session carry over.
-/

set_option autoImplicit false

namespace Atlax.Analysis

open Atlax.Model Atlax.Library

variable {ok : System → Role × Action → Prop} {config : Role → MuxConfig} {p : Packet}

/-- What a step of side `X` does to the wires. -/
inductive WireMove (X : Role) (w : Role → List Packet) : Action → (Role → List Packet) → Prop
  | recv (p : Packet) (rest : List Packet) (h : w X.peer = p :: rest) :
      WireMove X w (.recv p) (Function.update w X.peer rest)
  | transmit (p : Packet) : WireMove X w (.transmit p) (Function.update w X (w X ++ [p]))
  | other (a : Action) (hr : ∀ p, a ≠ .recv p) (ht : ∀ p, a ≠ .transmit p) : WireMove X w a w

/-- One side moves, the wires follow, the other side stands still. -/
structure SysMove (S : System) (X : Role) (a : Action) (S' : System) : Prop where
  move : Move (S.sess X) a (S'.sess X)
  peer : S'.sess X.peer = S.sess X.peer
  wire : WireMove X S.wire a S'.wire

variable {S S' : System} {X : Role} {a : Action} {Y : Role}

theorem wireStep_move {w : Role → List Packet} (h : S.wireStep X a = some w) :
    WireMove X S.wire a w := by
  cases a with
  | recv p =>
    simp only [System.wireStep] at h
    split at h
    · next p' rest hw =>
      split at h <;> cases h
      next heq =>
      subst heq
      exact .recv p' rest hw
    · cases h
  | transmit p =>
    cases h
    exact .transmit p
  | _ =>
    cases h
    exact .other _ (by simp) (by simp)

/-- A step of the system is a step of one side. -/
theorem system_move (h : S.step (X, a) = some S') : SysMove S X a S' := by
  simp only [System.step] at h
  split at h
  · next s w hs hw =>
    cases h
    exact ⟨by simpa using step_move hs, by simp, wireStep_move hw⟩
  · cases h

theorem transmit_writer {s s' : Session} (hm : Move s (.transmit p) s') :
    s.writer = .write p := by
  cases hm with
  | transmit _ hw _ => exact hw

/-- A packet on a wire was there, or has just left the hand of the write loop. -/
theorem SysMove.mem_wire (hm : SysMove S X a S') (h : p ∈ S'.wire Y) :
    p ∈ S.wire Y ∨ Y = X ∧ (S.sess X).writer = .write p := by
  obtain ⟨hmove, _, hwire⟩ := hm
  generalize S'.wire = w' at hwire h
  cases hwire with
  | recv q rest hw =>
    left
    by_cases hY : Y = X.peer
    · subst hY
      rw [Function.update_self] at h
      rw [hw]
      exact List.mem_cons_of_mem _ h
    · rwa [Function.update_of_ne hY] at h
  | transmit q =>
    by_cases hY : Y = X
    · subst hY
      rw [Function.update_self, List.mem_append, List.mem_singleton] at h
      rcases h with h | rfl
      · exact .inl h
      · exact .inr ⟨rfl, transmit_writer hmove⟩
    · rw [Function.update_of_ne hY] at h
      exact .inl h
  | other => exact .inl h

/-- What is read comes from the wire. -/
theorem SysMove.recv_mem (hm : SysMove S X a S') (h : a = .recv p) :
    p ∈ S.wire X.peer := by
  obtain ⟨_, _, hwire⟩ := hm
  generalize S'.wire = w' at hwire
  cases hwire with
  | recv q rest hw =>
    cases h
    rw [hw]
    exact List.mem_cons_self
  | transmit q => cases h
  | other a hr _ => exact absurd h (hr p)

/-- Either side's session after a step: the one that moved, or as it was. -/
theorem SysMove.sess (hm : SysMove S X a S') (Y : Role) :
    Y = X ∧ Move (S.sess Y) a (S'.sess Y) ∨ S'.sess Y = S.sess Y := by
  rcases Role.eq_or_eq_peer X Y with rfl | rfl
  · exact .inl ⟨rfl, hm.move⟩
  · exact .inr hm.peer

/-- Both sides keep what a session keeps. -/
theorem SysMove.evolves (hm : SysMove S X a S') {r : Ref} (hr : r < (S.sess Y).nextRef) :
    Evolves ((S.sess Y).cells r) ((S'.sess Y).cells r) := by
  rcases hm.sess Y with ⟨rfl, hmove⟩ | heq
  · exact move_evolves hmove r hr
  · rw [heq]
    exact Evolves.refl _

theorem SysMove.nextRef (hm : SysMove S X a S') (Y : Role) :
    (S.sess Y).nextRef ≤ (S'.sess Y).nextRef := by
  rcases hm.sess Y with ⟨rfl, hmove⟩ | heq
  · exact move_nextRef hmove
  · rw [heq]

/-- The packets on their way from `X`: on its queue, in the hand of its write loop, on the wire, or
with the read loop of the other side. -/
def SentBy (S : System) (X : Role) (p : Packet) : Prop :=
  Outgoing (S.sess X) p ∨ p ∈ S.wire X ∨ (S.sess X.peer).reader.packet = some p

/-- What is on its way from `Y` was so, or `Y` has just produced it. -/
theorem SysMove.sentBy (hm : SysMove S X a S') (h : SentBy S' Y p) :
    SentBy S Y p ∨ Y = X ∧ Produced (S.sess Y) p := by
  rcases h with h | h | h
  · rcases hm.sess Y with ⟨rfl, hmove⟩ | heq
    · rcases move_outgoing hmove h with h | h
      · exact .inl (.inl h)
      · exact .inr ⟨rfl, h⟩
    · exact .inl (.inl (heq ▸ h))
  · rcases hm.mem_wire h with h | ⟨rfl, h⟩
    · exact .inl (.inr (.inl h))
    · exact .inl (.inl (.inr h))
  · rcases hm.sess Y.peer with ⟨hY, hmove⟩ | heq
    · rcases move_readerPacket hmove h with h | h
      · exact .inl (.inr (.inr h))
      · have hp := hm.recv_mem h
        rw [← hY, Role.peer_peer] at hp
        exact .inl (.inr (.inl hp))
    · exact .inl (.inr (.inr (heq ▸ h)))

/-- A run of the system is a run of each side alone. -/
theorem session_reach {ok' : Session → Action → Prop} (h : SystemReach config ok S)
    (hok : ∀ S X a, SystemReach config ok S → ok S (X, a) → ok' (S.sess X) a) (Y : Role) :
    SessionReach Y (config Y) ok' (S.sess Y) := by
  induction h with
  | refl => exact .refl
  | @tail S S' act hr hal hstep ih =>
    obtain ⟨X, a⟩ := act
    simp only [System.step] at hstep
    split at hstep
    · next s w hs hw =>
      cases hstep
      by_cases hY : Y = X
      · subst hY
        simp only [Function.update_self]
        exact .tail ih (hok S Y a hr hal) hs
      · simpa [Function.update_of_ne hY] using ih
    · cases hstep

theorem system_wellFormed (h : SystemReach config ok S) (Y : Role) : WellFormed (S.sess Y) := by
  have hY : SessionReach Y (config Y) anyStep (S.sess Y) :=
    session_reach h (fun _ _ _ _ _ => trivial) Y
  exact wellFormed_reach hY

theorem session_role {role : Role} {config : MuxConfig} {ok : Session → Action → Prop} {s : Session}
    (h : SessionReach role config ok s) : s.role = role :=
  Reach.invariant (fun s => s.role = role) h rfl
    fun _ _ _ _ hr _ hstep => (move_role (step_move hstep)).trans hr

theorem system_role (h : SystemReach config ok S) (Y : Role) : (S.sess Y).role = Y := by
  have hY : SessionReach Y (config Y) anyStep (S.sess Y) :=
    session_reach h (fun _ _ _ _ _ => trivial) Y
  exact session_role hY

/-- Steps of one side. -/
def onSide (X : Role) (as : List Action) : List (Role × Action) := as.map (X, ·)

/-- The write loop of `X` sends the packet at the head of its queue, and the peer reads it. -/
def passRun (X : Role) (p : Packet) : List (Role × Action) :=
  onSide X [.writerCheck, .dequeue, .transmit p] ++ onSide X.peer [.recv p]

/-- The agent's open number `n`, with its payload, goes through under identifier 2. -/
def connectRun (n : Ref) (payload : Bytes) : List (Role × Action) :=
  onSide .agent [.openStream payload, .openAlloc payload, .opening n .register,
    .opening n .enqueue] ++
  passRun .agent (frameTwo n .streamOpen {} payload) ++
  onSide .relay [.reader, .reader, .reader, .reader, .acceptStream] ++
  passRun .relay (frameTwo n .streamOpen { ack := true } []) ++
  onSide .agent [.reader, .reader, .opening n .ack]

/-- The agent closes its stream `n`, then the relay does, and both sides run to the end. -/
def disconnectRun (n : Ref) : List (Role × Action) :=
  onSide .agent [.call n .close, .callback n .closeFin, .callback n .closeCheckClosed,
    .callback n .closeCheckReset, .drain n .fin, .drain n .next, .drain n .next] ++
  passRun .agent (frameTwo n .streamClose { fin := true } []) ++
  onSide .relay [.reader, .reader, .reader, .reader, .call n .close, .callback n .closeFin,
    .callback n .closeCheckClosed, .callback n .closeDelete, .drain n .fin, .drain n .next,
    .drain n .next] ++
  passRun .relay (frameTwo n .streamClose { fin := true } []) ++
  onSide .agent [.reader, .reader, .reader, .reader]

/-- The agent writes `data` on its stream `n` and the frame reaches the relay. -/
def writeRun (n : Ref) (data : Bytes) : List (Role × Action) :=
  onSide .agent [.call n (.write data), .call n (.writeSend data), .drain n .data,
    .drain n .next] ++
  passRun .agent (frameTwo n .streamData {} data)

end Atlax.Analysis
