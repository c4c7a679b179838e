import Atlax.Model.Route

/-!
# One entry per routed stream

`Route` takes the customer from its caller and the service and stream limit from its own read of
the port map. When that read finds an entry of the caller's customer, everything about the stream
comes from this one entry. `Route` does not look: a port that changes hands between the two reads
of a client connection, or a direct call for a port that is unmapped or another customer's, gives
a stream on one customer's session with nothing, or with another customer's service and limit.
-/

set_option autoImplicit false

namespace Atlax.Analysis

open Atlax.Model Atlax.Library

/-- What a call does in one step. -/
inductive RouteMove (s : Relay) : RoutePc → RoutePc → Prop
  | found (port : ℤ) (customerID service : String)
      (h : s.portMap.lookupPort port = some (customerID, service)) :
      RouteMove s (.lookupPort port) (.rateLimit port customerID)
  | allowed (port : ℤ) (customerID : String) :
      RouteMove s (.rateLimit port customerID) (.route port customerID)
  | read (port : ℤ) (customerID : String) (e : PortEntry) (h : s.portMap.lookup port = some e) :
      RouteMove s (.route port customerID) (.lookup customerID e.service e.maxStreams)
  | unmapped (port : ℤ) (customerID : String) (h : s.portMap.lookup port = none) :
      RouteMove s (.route port customerID) (.lookup customerID "" 0)
  | registered (customerID service : String) (maxStreams : ℤ) (conn : AgentConn)
      (h : s.registry.lookup customerID = some conn) :
      RouteMove s (.lookup customerID service maxStreams)
        (.checkLimit customerID service maxStreams conn)
  | exceeded (customerID service : String) (maxStreams : ℤ) (conn : AgentConn)
      (h : 0 < maxStreams ∧ maxStreams ≤ s.streams conn.mux) :
      RouteMove s (.checkLimit customerID service maxStreams conn)
        (.overLimit customerID maxStreams conn)
  | admitted (customerID service : String) (maxStreams : ℤ) (conn : AgentConn)
      (h : ¬ (0 < maxStreams ∧ maxStreams ≤ s.streams conn.mux)) :
      RouteMove s (.checkLimit customerID service maxStreams conn)
        (.openStream conn (Relay.openPayload service))
  | opened (conn : AgentConn) (payload : Bytes) :
      RouteMove s (.openStream conn payload) (.copying conn payload)
  | ended (pc : RoutePc) (r : RouteEnd) : RouteMove s pc (.done r)

variable {s s' : Relay} {i : ℕ} {pc : RoutePc} {a : RouteAction}

/-- SOURCE: client_listener.go:101-145; router_impl.go:151-205 -/
theorem runCall_move (h : s.runCall i pc = some s') :
    ∃ pc', s' = s.setCall i pc' ∧ RouteMove s pc pc' := by
  obtain ⟨pc', hnext, rfl⟩ := Option.map_eq_some_iff.mp h
  refine ⟨pc', rfl, ?_⟩
  cases pc with
  | lookupPort port =>
    simp only [RoutePc.next] at hnext
    split at hnext <;> cases hnext
    · exact .ended _ _
    · next customerID service hlook => exact .found port customerID service hlook
  | route port customerID =>
    simp only [RoutePc.next] at hnext
    split at hnext <;> cases hnext
    · next hlook => exact .unmapped port customerID hlook
    · next e hlook => exact .read port customerID e hlook
  | lookup customerID service maxStreams =>
    simp only [RoutePc.next] at hnext
    split at hnext <;> cases hnext
    · exact .ended _ _
    · next conn hreg => exact .registered customerID service maxStreams conn hreg
  | checkLimit customerID service maxStreams conn =>
    simp only [RoutePc.next] at hnext
    split at hnext
    · next hlim =>
      cases hnext
      exact .exceeded customerID service maxStreams conn hlim
    · next hlim =>
      split at hnext <;> cases hnext
      · exact .admitted customerID service maxStreams conn hlim
      · exact .ended _ _
  | overLimit customerID maxStreams conn =>
    cases hnext
    exact .ended _ _
  | rateLimit | openStream | copying | done => cases hnext

/-- A step moves at most one call; only `run` takes a call past a read of the port map. -/
theorem step_call (hi : s.calls[i]? = some pc) (h : s.step a = some s') :
    s'.calls[i]? = some pc ∨ ∃ pc', s'.calls[i]? = some pc' ∧ RouteMove s pc pc' ∧
      ∀ port customerID, pc = .route port customerID → a = .run i := by
  have hlen := (List.getElem?_eq_some_iff.mp hi).1
  -- call `j` moves: it is call `i`, or call `i` stays where it is
  have set : ∀ {t : Relay} {j : ℕ} {pc₀ pc'}, t.calls = s.calls → s.calls[j]? = some pc₀ →
      RouteMove s pc₀ pc' → (∀ port customerID, pc₀ = .route port customerID → a = .run j) →
      (t.setCall j pc').calls[i]? = some pc ∨ ∃ pc'', (t.setCall j pc').calls[i]? = some pc'' ∧
        RouteMove s pc pc'' ∧ ∀ port customerID, pc = .route port customerID → a = .run i := by
    intro t j pc₀ pc' ht hj hmove hrun
    simp only [Relay.setCall, ht]
    by_cases hij : j = i
    · subst hij
      rw [hi] at hj
      cases hj
      exact .inr ⟨pc', List.getElem?_set_self hlen, hmove, hrun⟩
    · exact .inl (by rw [List.getElem?_set_ne hij, hi])
  cases a with
  | client port | route customerID port =>
    cases h
    exact .inl (by rw [List.getElem?_append_left hlen, hi])
  | run j =>
    obtain ⟨pc₀, hj, h⟩ := Option.bind_eq_some_iff.mp h
    obtain ⟨pc', rfl, hmove⟩ := runCall_move h
    exact set rfl hj hmove fun _ _ _ => rfl
  | rateLimit j allowed =>
    simp only [Relay.step] at h
    split at h
    · next port customerID hj =>
      split at h
      · cases h
        exact set rfl hj (.allowed port customerID) nofun
      · split at h <;> cases h
        exact set rfl hj (.ended _ _) nofun
    · cases h
  | openStream j err =>
    simp only [Relay.step] at h
    split at h
    · next conn payload hj =>
      split at h <;> cases h
      · exact set rfl hj (.ended _ _) nofun
      · exact set rfl hj (.opened conn payload) nofun
    · cases h
  | copied j err =>
    simp only [Relay.step] at h
    split at h <;> cases h
    next hj => exact set rfl hj (.ended _ _) nofun
  | updatePortMapping port service listenAddr maxStreams | removePortMapping customerID port =>
    simp only [Relay.step] at h
    split at h <;> cases h <;> exact .inl hi
  | addPortMapping | register | unregister | setRateLimiter | setStreams =>
    cases h
    exact .inl hi

/-- `Route` reads an entry of the customer it is called for. -/
def RouteFinds (s : Relay) : RouteAction → Prop
  | .run i =>
    match s.calls[i]? with
    | some (.route port customerID) =>
      ∃ e ∈ s.portMap.lookup port, e.customerID = customerID
    | _ => True
  | _ => True

instance (s : Relay) (a : RouteAction) : Decidable (RouteFinds s a) := by
  unfold RouteFinds
  repeat' split
  all_goals infer_instance

section Call

variable (s₁ : Relay) (p : ℤ) (direct : Option String) (run : List RouteAction)

/-- The port had the entry at a moment of the run, and the entry is of the customer that a direct
call names. -/
def Had (e : PortEntry) : Prop :=
  Sometime Relay.step s₁ run (fun t => t.portMap.lookup p = some e) ∧
    ∀ customerID ∈ direct, e.customerID = customerID

/-- What is known of a call for port `p`, direct or not, after `run`. -/
def RoutedBy : RoutePc → Prop
  | .lookupPort port => port = p ∧ direct = none
  | .rateLimit port customerID | .route port customerID =>
    port = p ∧ ∀ c ∈ direct, customerID = c
  | .lookup customerID service maxStreams => ∃ e, Had s₁ p direct run e ∧
      customerID = e.customerID ∧ service = e.service ∧ maxStreams = e.maxStreams
  | .checkLimit customerID service maxStreams conn => ∃ e, Had s₁ p direct run e ∧
      customerID = e.customerID ∧ service = e.service ∧ maxStreams = e.maxStreams ∧
      Sometime Relay.step s₁ run (fun t => t.registry.lookup e.customerID = some conn)
  | .openStream conn payload => ∃ e, Had s₁ p direct run e ∧
      payload = Relay.openPayload e.service ∧
      Sometime Relay.step s₁ run (fun t => t.registry.lookup e.customerID = some conn) ∧
      Sometime Relay.step s₁ run (fun t => 0 < e.maxStreams → t.streams conn.mux < e.maxStreams)
  | _ => True

variable {s₁ p direct run}

theorem Had.append {e : PortEntry} (h : Had s₁ p direct run e) (bs : List RouteAction) :
    Had s₁ p direct (run ++ bs) e := ⟨h.1.append bs, h.2⟩

/-- What is known of a call that does not move stays known. -/
theorem RoutedBy.append (h : RoutedBy s₁ p direct run pc) (bs : List RouteAction) :
    RoutedBy s₁ p direct (run ++ bs) pc := by
  cases pc with
  | lookupPort | rateLimit | route => exact h
  | lookup customerID service maxStreams =>
    obtain ⟨e, he, h⟩ := h
    exact ⟨e, he.append bs, h⟩
  | checkLimit customerID service maxStreams conn =>
    obtain ⟨e, he, hc, hsv, hm, hreg⟩ := h
    exact ⟨e, he.append bs, hc, hsv, hm, hreg.append bs⟩
  | openStream conn payload =>
    obtain ⟨e, he, hp, hreg, hlim⟩ := h
    exact ⟨e, he.append bs, hp, hreg.append bs, hlim.append bs⟩
  | overLimit | copying | done => trivial

/-- One step of the call, taken at the end of the run. -/
theorem RoutedBy.move {pc' : RoutePc} (h : RoutedBy s₁ p direct run pc)
    (hexec : exec Relay.step s₁ run = some s) (hmove : RouteMove s pc pc')
    (hfinds : ∀ port customerID, pc = .route port customerID →
      ∃ e ∈ s.portMap.lookup port, e.customerID = customerID) :
    RoutedBy s₁ p direct run pc' := by
  cases hmove with
  | found port customerID service hlook =>
    obtain ⟨hport, rfl⟩ := h
    exact ⟨hport, nofun⟩
  | allowed port customerID => exact h
  | read port customerID e hlook =>
    obtain ⟨rfl, hdirect⟩ := h
    obtain ⟨e', he', rfl⟩ := hfinds port customerID rfl
    rw [hlook] at he'
    cases he'
    exact ⟨e, ⟨.now hexec hlook, hdirect⟩, rfl, rfl, rfl⟩
  | unmapped port customerID hlook =>
    obtain ⟨e, he, _⟩ := hfinds port customerID rfl
    rw [hlook] at he
    cases he
  | registered customerID service maxStreams conn hreg =>
    obtain ⟨e, he, rfl, hsv, hm⟩ := h
    exact ⟨e, he, rfl, hsv, hm, .now hexec hreg⟩
  | admitted customerID service maxStreams conn hlim =>
    obtain ⟨e, he, _, rfl, rfl, hreg⟩ := h
    refine ⟨e, he, rfl, hreg, .now hexec fun hpos => ?_⟩
    by_contra hge
    exact hlim ⟨hpos, Int.not_lt.mp hge⟩
  | exceeded | opened | ended => trivial

end Call

/-- For a client connection to port `p`, and for a direct call of `Route`, in any interleaving
with the port map, the registry, the sessions and other calls in which `Route` reads an entry of
the customer it is called for: when a stream is opened, there is one entry that the port had
during the call, of the customer that a direct call names, such that the stream is on the session
that was registered for its customer, with its service as payload, and its limit was kept when it
was checked.
SOURCE: client_listener.go:101-145; router_impl.go:151-217 -/
theorem routes_by_one_entry {s₀ s₁ : Relay} {p : ℤ} {run : List RouteAction}
    (ha : a = .client p ∨ ∃ customerID, a = .route customerID p) (hbegin : s₀.step a = some s₁)
    (hrun : exec (guarded Relay.step RouteFinds) s₁ run = some s)
    (hopen : s.step (.openStream s₀.calls.length none) = some s') :
    ∃ e conn, Sometime Relay.step s₁ run (fun t => t.portMap.lookup p = some e) ∧
      (∀ customerID, a = .route customerID p → e.customerID = customerID) ∧
      Sometime Relay.step s₁ run (fun t => t.registry.lookup e.customerID = some conn) ∧
      Sometime Relay.step s₁ run
        (fun t => 0 < e.maxStreams → t.streams conn.mux < e.maxStreams) ∧
      s'.calls[s₀.calls.length]? = some (RoutePc.copying conn (Relay.openPayload e.service)) := by
  let direct : Option String := match a with
    | .route customerID _ => some customerID
    | _ => none
  have hfirst : ∃ pc, s₁.calls[s₀.calls.length]? = some pc ∧ RoutedBy s₁ p direct [] pc := by
    rcases ha with rfl | ⟨customerID, rfl⟩
    · cases hbegin
      exact ⟨.lookupPort p, by simp, rfl, rfl⟩
    · cases hbegin
      exact ⟨.route p customerID, by simp, rfl, fun c hc => Option.some.inj hc⟩
  -- the induction is on the run since the call began
  obtain ⟨_, pc, hpc, hrouted⟩ := exec_invariant
    (fun run s => ∃ pc, s.calls[s₀.calls.length]? = some pc ∧ RoutedBy s₁ p direct run pc)
    hrun hfirst fun run a t t' hexec hI hok hstep => by
      obtain ⟨pc, hpc, hrouted⟩ := hI
      rcases step_call hpc hstep with hsame | ⟨pc', hpc', hmove, hread⟩
      · exact ⟨pc, hsame, hrouted.append [a]⟩
      · refine ⟨pc', hpc', (hrouted.move hexec hmove ?_).append [a]⟩
        intro port customerID hroute
        have hact := hread port customerID hroute
        subst hact hroute
        simpa [RouteFinds, hpc] using hok
  simp only [Relay.step, hpc] at hopen
  split at hopen
  · next conn payload hpc' =>
    cases hpc'
    cases hopen
    obtain ⟨e, ⟨hhad, hdirect⟩, rfl, hreg, hlim⟩ := hrouted
    refine ⟨e, conn, hhad, ?_, hreg, hlim, ?_⟩
    · rintro customerID rfl
      exact hdirect customerID rfl
    · exact List.getElem?_set_self (List.getElem?_eq_some_iff.mp hpc).1
  · cases hopen

/-- Port 8080 is mapped to "acme"; both customers have an agent. -/
def twoAgents : Relay where
  portMap := PortMap.addPortMapping ∅ "acme" 8080 "ssh" "0.0.0.0" 5
  registry := ((∅ : AList (fun _ : String => AgentConn)).insert "acme" { mux := 0 }).insert "globex"
    { mux := 1 }

/-- A client connects, the mapping is updated while it waits, and its stream is opened. -/
theorem routes_by_one_entry_updated :
    ∃ s₁ s s' e conn run, twoAgents.step (.client 8080) = some s₁ ∧
      exec Relay.step s₁ run = some s ∧ s.step (.openStream 0 none) = some s' ∧
      Sometime Relay.step s₁ run (fun t => t.portMap.lookup 8080 = some e) ∧
      s'.calls[0]? = some (RoutePc.copying conn (Relay.openPayload e.service)) := by
  let run : List RouteAction :=
    [.run 0, .rateLimit 0 true, .updatePortMapping 8080 "http" "0.0.0.0" 2, .run 0,
      .removePortMapping "acme" 8080, .setStreams 0 1, .run 0, .run 0]
  obtain ⟨s₁, hbegin⟩ : ∃ s₁, twoAgents.step (.client 8080) = some s₁ := ⟨_, rfl⟩
  obtain ⟨s, hrun, hpc⟩ : ∃ s, exec (guarded Relay.step RouteFinds) s₁ run = some s ∧
      s.calls[0]? = some (.openStream { mux := 0 } (Relay.openPayload "http")) := by
    cases hbegin
    refine ⟨_, rfl, ?_⟩
    decide +kernel
  have hopen : ∃ s', s.step (.openStream 0 none) = some s' := by
    simp [Relay.step, hpc]
  obtain ⟨s', hopen⟩ := hopen
  obtain ⟨e, conn, hhad, _, _, _, hcopy⟩ := routes_by_one_entry (.inl rfl) hbegin hrun hopen
  exact ⟨s₁, s, s', e, conn, run, hbegin, (exec_invariant (fun _ _ => True) hrun trivial
    fun _ _ _ _ _ _ _ _ => trivial).1, hopen, hhad, hcopy⟩

/-- The port changes hands between the two reads of a client connection. -/
def changesHands : List RouteAction :=
  [.run 0, .rateLimit 0 true, .removePortMapping "acme" 8080,
    .addPortMapping "globex" 8080 "http" "0.0.0.0" 0, .run 0, .run 0, .run 0, .openStream 0 none]

/-- Three streams that no entry accounts for. A client connects to a port of "acme" that becomes a
port of "globex": the stream is on the session of "acme", with the service of "globex", though at
every moment the port's entry is either not of "acme" or has another service. Direct calls of
`Route` open a stream on the session of "globex" for a port that is mapped to "acme", and on the
session of "acme" for a port without a mapping. -/
theorem routes_by_two_entries :
    (∃ s₁ s, twoAgents.step (.client 8080) = some s₁ ∧
      exec Relay.step s₁ changesHands = some s ∧
      s.calls[0]? = some (RoutePc.copying { mux := 0 } (Relay.openPayload "http")) ∧
      s.registry.lookup "acme" = some { mux := 0 } ∧
      ∀ n, ∀ t ∈ exec Relay.step s₁ (changesHands.take n), ∀ e ∈ t.portMap.lookup 8080,
        e.customerID ≠ "acme" ∨ e.service ≠ "http") ∧
    (∃ s, exec Relay.step twoAgents [.route "globex" 8080, .run 0, .run 0, .run 0,
        .openStream 0 none] = some s ∧
      s.portMap.customer 8080 = some "acme" ∧
      s.calls[0]? = some (RoutePc.copying { mux := 1 } (Relay.openPayload "ssh"))) ∧
    (∃ s, exec Relay.step twoAgents [.route "acme" 9999, .run 0, .run 0, .run 0,
        .openStream 0 none] = some s ∧
      s.portMap.lookup 9999 = none ∧ s.calls[0]? = some (RoutePc.copying { mux := 0 } [])) := by
  have moments : ∀ m < 9, ∀ t ∈ exec Relay.step
      { twoAgents with calls := [.lookupPort 8080] } (changesHands.take m),
      ∀ e ∈ t.portMap.lookup 8080, e.customerID ≠ "acme" ∨ e.service ≠ "http" := by
    decide +kernel
  refine ⟨⟨_, _, rfl, rfl, by decide +kernel, by decide +kernel, ?_⟩,
    ⟨_, rfl, by decide +kernel, by decide +kernel⟩,
    ⟨_, rfl, by decide +kernel, by decide +kernel⟩⟩
  intro n t ht
  have hn : changesHands.take n = changesHands.take (min n 8) := List.take_eq_take_min
  rw [hn] at ht
  exact moments (min n 8) (by omega) t ht

end Atlax.Analysis
