import Atlax.Analysis.Decoding
import Atlax.Model.ServiceList

/-!
# A service list on its way to the peer

`SendServiceList` joins the names with newlines and refuses a name that contains one. So the join
can be undone: the handler on the other side splits at the newlines and finds the names again. Its
filter for empty names and its cap of 1024 then have nothing to take away, and the empty list is
the empty payload.
-/

set_option autoImplicit false

namespace Atlax.Analysis

open Atlax.Model

variable {services : List Bytes}

theorem checkNames_ok_iff :
    checkNames services = .ok () ↔ ∀ name ∈ services, 10 ∉ name ∧ 13 ∉ name := by
  induction services with
  | nil => simp [checkNames]
  | cons name names ih =>
    rw [List.forall_mem_cons, ← ih, checkNames]
    by_cases h : (name.contains 10 || name.contains 13) = true
    · rw [if_pos h]
      simp only [Bool.or_eq_true, List.contains_iff_mem] at h
      simp only [reduceCtorEq, false_iff, not_and]
      tauto
    · rw [if_neg h]
      simp only [Bool.or_eq_true, List.contains_iff_mem, not_or] at h
      simp [h]

/-- What SendServiceList does with a list it accepts, and with one it does not. -/
theorem sendServices_cases (s : Session) (services : List Bytes) :
    ((∀ name ∈ services, 10 ∉ name ∧ 13 ∉ name) ∧
      ([10].intercalate services).length ≤ maxPayloadSize ∧
      s.sendServices services =
        (.ok (), s.enqueue (connPacket .serviceList ([10].intercalate services)) .control)) ∨
    (((∃ name ∈ services, 10 ∈ name ∨ 13 ∈ name) ∨
        ([10].intercalate services).length > maxPayloadSize) ∧
      ∃ e, s.sendServices services = (.error e, s)) := by
  unfold Session.sendServices
  cases hc : checkNames services with
  | error e =>
    right
    have hno : ¬ ∀ name ∈ services, 10 ∉ name ∧ 13 ∉ name := by
      rw [← checkNames_ok_iff, hc]
      simp
    refine ⟨.inl ?_, e, rfl⟩
    push Not at hno
    obtain ⟨name, hname, h⟩ := hno
    exact ⟨name, hname, or_iff_not_imp_left.mpr h⟩
  | ok _ =>
    dsimp only
    by_cases hlen : ([10].intercalate services).length > maxPayloadSize
    · rw [if_pos hlen]
      exact .inr ⟨.inr hlen, _, rfl⟩
    · rw [if_neg hlen]
      exact .inl ⟨checkNames_ok_iff.mp hc, Nat.le_of_not_lt hlen, rfl⟩

/-- The step of the session is this function. -/
theorem sendServiceList_eq (s : Session) (services : List Bytes) :
    s.sendServiceList services =
      match s.sendServices services with
      | (.ok (), s') => some s'
      | (.error _, _) => none := by
  have hany : (services.any fun name => name.contains 10 || name.contains 13) = true ↔
      ∃ name ∈ services, 10 ∈ name ∨ 13 ∈ name := by
    simp only [List.any_eq_true, Bool.or_eq_true, List.contains_iff_mem]
  unfold Session.sendServiceList
  dsimp only
  obtain ⟨hnames, hlen, hsend⟩ | ⟨hbad, e, hsend⟩ := sendServices_cases s services
  · rw [hsend, if_neg]
    rintro (h | hlong)
    · obtain ⟨name, hname, h10 | h13⟩ := hany.mp h
      · exact (hnames name hname).1 h10
      · exact (hnames name hname).2 h13
    · omega
  · rw [hsend, if_pos (hbad.imp_left hany.mpr)]

/-- The handler finds the names in the joined payload. -/
theorem handleFrame_serviceList {f : Frame} {peer : Session} (hcmd : f.command = .serviceList)
    (hpay : f.payload = [10].intercalate services) (hnames : ∀ name ∈ services, 10 ∉ name)
    (hne : ∀ name ∈ services, name ≠ []) (hcount : services.length ≤ maxServiceListCount)
    (hch : peer.serviceListCh = none) (conv : Option Conv) :
    (peer.handleFrame ⟨f, conv⟩).serviceListCh = some services := by
  have hhandle : (peer.handleFrame ⟨f, conv⟩).serviceListCh =
      some (if f.payload = [] then []
        else ((f.payload.splitOn 10).take maxServiceListCount).filter (· ≠ [])) := by
    unfold Session.handleFrame
    dsimp only
    rw [hcmd]
    dsimp only [Session.handleServiceList]
    rw [hch]
    rfl
  rw [hhandle, hpay]
  cases hs : services with
  | nil => rfl
  | cons name names =>
    rw [← hs]
    have hnonempty : [10].intercalate services ≠ [] := by
      rw [hs]
      intro hnil
      apply hne name (by rw [hs]; exact List.mem_cons_self)
      cases names with
      | nil => simpa [List.intercalate] using hnil
      | cons => simp [List.intercalate] at hnil
    rw [if_neg hnonempty, List.splitOn_intercalate 10 hnames (by simp [hs]),
      List.take_of_length_le hcount]
    rw [List.filter_eq_self.mpr]
    intro name' hname'
    simpa using hne name' hname'

/-- The packet that an Enqueue puts at the end, if the queue is open. -/
theorem enqueue_control_inj {s : Session} {p q : Packet}
    (h : (s.enqueue q .control).queue.control = s.queue.control ++ [p]) : p = q := by
  simp only [Session.enqueue_queue, WriteQueue.enqueue] at h
  split at h
  · simp at h
  · exact (List.singleton_inj.mp (List.append_cancel_left h)).symm

/-- `SendServiceList` fails exactly when a name contains a newline or a carriage return or the
joined names do not fit into a frame, and queues nothing then. The frame it queues for at most 1024
names, none of them empty, is carried by the codec, and a peer whose serviceListCh is empty
publishes the same names in the same order.
SOURCE: mux_session.go:570-637, frame_codec.go:26-88 -/
theorem serviceList_published (services : List Bytes) :
    (∀ s : Session, ((∃ e, (s.sendServices services).1 = .error e) ↔
        (∃ name ∈ services, 10 ∈ name ∨ 13 ∈ name) ∨
          ([10].intercalate services).length > 16777216) ∧
      ∀ e, (s.sendServices services).1 = .error e → (s.sendServices services).2 = s) ∧
    ∀ s : Session, (s.sendServices services).1 = .ok () → services.length ≤ 1024 →
      (∀ name ∈ services, name ≠ []) →
      (s.queue.closed = false →
        ∃ p, (s.sendServices services).2.queue.control = s.queue.control ++ [p]) ∧
      ∀ p, (s.sendServices services).2.queue.control = s.queue.control ++ [p] →
        ∀ w, ∃ b, writeFrame w (some p.frame.toWire) = .ok (w ++ b) ∧
          ∀ (r : Reader) (rest : Bytes), r.bytes = b ++ rest →
            ∃ f r', readFrame r = (.ok f, r') ∧ r'.bytes = rest ∧
              ∀ (peer : Session) (conv : Option Conv), peer.serviceListCh = none →
                (peer.handleFrame ⟨f.toFrame, conv⟩).serviceListCh = some services := by
  refine ⟨?_, ?_⟩
  · intro s
    have hmax : maxPayloadSize = 16777216 := rfl
    obtain ⟨hnames, hlen, hsend⟩ | ⟨hbad, e, hsend⟩ := sendServices_cases s services
    · rw [hsend]
      refine ⟨iff_of_false (by simp) ?_, nofun⟩
      rintro (⟨name, hname, h10 | h13⟩ | hlong)
      · exact (hnames name hname).1 h10
      · exact (hnames name hname).2 h13
      · omega
    · rw [hsend]
      exact ⟨iff_of_true ⟨e, rfl⟩ hbad, fun _ _ => rfl⟩
  · intro s hok hcount hne
    obtain ⟨hnames, hlen, hsend⟩ | ⟨-, e, hsend⟩ := sendServices_cases s services
    · rw [hsend]
      refine ⟨?_, ?_⟩
      · intro hopen
        refine ⟨connPacket .serviceList ([10].intercalate services), ?_⟩
        simp [WriteQueue.enqueue, hopen]
      · intro p hp w
        obtain rfl := enqueue_control_inj hp
        have hcarried : Carried (connPacket .serviceList ([10].intercalate services)).frame :=
          carried rfl hlen (by simp [connPacket]) (by simp [connPacket])
        obtain ⟨b, hwrite, hread⟩ := hcarried w
        refine ⟨b, hwrite, ?_⟩
        intro r rest hr
        obtain ⟨f, r', hf, hto, hrest⟩ := hread r rest hr
        refine ⟨f, r', hf, hrest, ?_⟩
        intro peer conv hch
        rw [hto]
        exact handleFrame_serviceList rfl rfl (fun name h => (hnames name h).1) hne hcount hch conv
    · rw [hsend] at hok
      cases hok

/-- Two names, of one and of two bytes, from a new session. -/
theorem serviceList_published_pair :
    ∃ s p, (Session.sendServices s [[115], [104, 116]]).1 = .ok () ∧
      (s.sendServices [[115], [104, 116]]).2.queue.control = s.queue.control ++ [p] ∧
      ∀ w, ∃ b, writeFrame w (some p.frame.toWire) = .ok (w ++ b) ∧
        ∀ (r : Reader) (rest : Bytes), r.bytes = b ++ rest →
          ∃ f r', readFrame r = (.ok f, r') ∧ r'.bytes = rest ∧
            ∀ (peer : Session) (conv : Option Conv), peer.serviceListCh = none →
              (peer.handleFrame ⟨f.toFrame, conv⟩).serviceListCh = some [[115], [104, 116]] := by
  refine ⟨newMuxSession .agent ⟨4, 65536, 65536⟩, connPacket .serviceList [115, 10, 104, 116],
    rfl, rfl, ?_⟩
  exact ((serviceList_published _).2 (newMuxSession .agent ⟨4, 65536, 65536⟩) rfl (by decide)
    (by decide)).2 _ rfl

end Atlax.Analysis
