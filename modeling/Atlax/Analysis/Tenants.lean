import Atlax.Analysis.Circuits
import Atlax.Library.Processes
import Atlax.Model.Network

/-!
# What separates the tenants of a relay

The relay keeps the customers of its agents apart by one string: the common name of the certificate
that an agent shows. `ExtractIdentity` makes it the customer of the connection, Register files the
connection under it, and `Route` takes the connection that is filed under the customer of the port.

Each of these is a section of its own, and in between connections are replaced, ports are mapped
anew and sessions fail. What holds all the time is collected in `NetworkSound`: a connection is
filed under the name in its certificate, a client's stream is on a connection of the client's
customer, and every stream that the relay has opened on a link was opened for exactly one client.
With the result about one link (`Atlax.Analysis.Circuits`) it follows that a service gets bytes from
clients of its own customer only.
-/

set_option autoImplicit false

namespace Atlax.Analysis

open Atlax.Model Atlax.Library

variable {b : CircuitsAction} {customerID : String} {c : ConnRef} {port : ℤ} {a : Arrival}
    {pc : RegistryPc}

/-! ## What a step of a link does to the sessions -/

variable {P P' : Circuits} {X : Role} {r : Ref}

/-- A step of the circuits is at most one step of the sessions. -/
theorem circuits_sessions (h : P.step b = some P') :
    P'.sys = P.sys ∨ ∃ Y a, P.sys.step (Y, a) = some P'.sys ∧
      (b = .sys Y a ∨ ∃ q k, a = .call q k) := by
  rcases circuits_move h with hu | ⟨Y, a, S', hb, _, hS, rfl⟩ | ⟨v, hv⟩
  · rcases hu.system with heq | ⟨Y, q, k, hS⟩
    · exact .inl heq
    · exact .inr ⟨Y, _, hS, .inr ⟨q, k, rfl⟩⟩
  · exact .inr ⟨Y, a, hS, .inl hb⟩
  · rcases (serve_target hv).1 with heq | ⟨k, hS⟩
    · exact .inl heq
    · exact .inr ⟨.agent, _, hS, .inr ⟨v, k, rfl⟩⟩

/-- What stays of the streams of a side. -/
structure SessionGrows (s s' : Session) : Prop where
  nextRef : s.nextRef ≤ s'.nextRef
  cells : ∀ r < s.nextRef, Evolves (s.cells r) (s'.cells r)

theorem SessionGrows.refl (s : Session) : SessionGrows s s := ⟨le_refl _, fun _ _ => .refl _⟩

/-- No step of a connection unmakes a stream. -/
theorem circuits_grow (h : P.step b = some P') (X : Role) :
    SessionGrows (P.sys.sess X) (P'.sys.sess X) := by
  rcases circuits_sessions h with heq | ⟨Y, a, hS, _⟩
  · rw [heq]
    exact .refl _
  · have hm := system_move hS
    exact ⟨hm.nextRef X, fun r hr => hm.evolves hr⟩

/-- A stream that a step has added was accepted, or is that of an open. -/
theorem circuits_new (h : P.step b = some P')
    (hr : r < (P'.sys.sess X).nextRef) (hnew : ¬ r < (P.sys.sess X).nextRef)
    (hpc : ((P'.sys.sess X).cells r).openPc ≠ .accepted) :
    r = (P.sys.sess X).nextRef ∧ ∃ payload, b = .sys X (.openAlloc payload) ∧
      (P'.sys.sess X).cells r = (P.sys.sess X).openedCell payload := by
  rcases circuits_sessions h with heq | ⟨Y, a, hS, hb⟩
  · exact absurd (heq ▸ hr) hnew
  · rcases (system_move hS).sess X with ⟨rfl, hmove⟩ | heq
    · rcases move_new hmove hr with hold | ⟨hlast, ⟨payload, rfl, hc⟩ | ⟨_, _, _, hc⟩⟩
      · exact absurd hold hnew
      · rcases hb with hb | ⟨q, k, hk⟩
        · exact ⟨hlast, payload, hb, hc⟩
        · cases hk
      · rw [hc] at hpc
        exact absurd rfl hpc
    · exact absurd (heq ▸ hr) hnew

/-- The session makes the stream of a Route call.
SOURCE: mux_session.go:116-141 -/
theorem openAlloc_session {payload : Bytes} (h : P.step (.sys X (.openAlloc payload)) = some P') :
    P'.sys.sess X = (P.sys.sess X).openAlloc payload := by
  obtain ⟨S', hS, rfl⟩ := Option.map_eq_some_iff.mp h
  simp only [System.step] at hS
  split at hS
  · next s w hs _ =>
    cases hS
    simp only [Session.step, Option.ite_none_right_eq_some, Option.some.injEq] at hs
    simp [hs.2]
  · cases hS

/-! ## What holds of the relay -/

variable {N N' : Network} {cl : Client} {k i : ℕ}

/-- A connection of a customer. -/
def Owned (N : Network) (customerID : String) (c : ConnRef) : Prop :=
  c < N.nextConn ∧ (N.links c).customerID = customerID

/-- A service that `Route` may have read for a port: of an entry that was there, or none. -/
def ServiceOf (N : Network) (port : ℤ) (service : String) : Prop :=
  service = "" ∨ ∃ e, (port, e) ∈ N.mappings ∧ e.service = service

/-- A link: the customer is the name in the certificate, and what runs over it is reachable. -/
structure LinkSound (l : AgentLink) : Prop where
  name : l.customerID = l.cert.commonName
  customer : l.cert.commonName.startsWith "customer-" = true
  reach : CircuitsReach l.config l.services l.bufSize l.circuits

/-- A stream of the relay that was opened for a client. -/
structure StreamFor (N : Network) (customerID : String) (port : ℤ) (c : ConnRef) (r : Ref) :
    Prop where
  owned : Owned N customerID c
  ref : r < (N.session c).nextRef
  opened : ((N.session c).cells r).openPc ≠ .accepted
  payload : ∃ service, ServiceOf N port service ∧
    ((N.session c).cells r).hist.openArg = Relay.openPayload service

/-- `Route` has no stream yet. -/
def isEarly : ClientPc → Bool
  | .lookupPort | .rateLimit | .route | .lookup _ _ | .checkLimit _ _ _ | .overLimit _ _
  | .openStream _ _ | .openAlloc _ _ | .done .noMapping | .done .rateLimited => true
  | _ => false

/-- What `Route` has found out at each point. -/
def PcSound (N : Network) (customerID : String) (port : ℤ) : ClientPc → Prop
  | .lookup service _ => ServiceOf N port service
  | .checkLimit service _ c => ServiceOf N port service ∧ Owned N customerID c
  | .openStream c payload | .openAlloc c payload =>
    (∃ service, ServiceOf N port service ∧ payload = Relay.openPayload service) ∧
      Owned N customerID c
  | _ => True

/-- What holds of a call of `handleClient`. -/
structure ClientSound (N : Network) (cl : Client) : Prop where
  named : cl.pc = .lookupPort ∨ cl.pc = .done .noMapping ∨
    ∃ e, (cl.port, e) ∈ N.mappings ∧ e.customerID = cl.customerID
  early : isEarly cl.pc = true → cl.stream = none
  pc : PcSound N cl.customerID cl.port cl.pc
  stream : ∀ c r, cl.stream = some (c, r) → StreamFor N cl.customerID cl.port c r

/-- A call of Register is given a connection of the customer. -/
def RegistrySound (N : Network) : RegistryPc → Prop
  | .register customerID c => Owned N customerID c
  | _ => True

/-- What holds of an arriving agent's goroutine. -/
def ArrivalSound (N : Network) : ArrivalPc → Prop
  | .services c => c < N.nextConn
  | .register _ pc => RegistrySound N pc
  | _ => True

/-- Every connection, agent, call and client is sound. -/
structure NetworkSound (N : Network) : Prop where
  link : ∀ c < N.nextConn, LinkSound (N.links c)
  agents : ∀ customerID c, N.agents.lookup customerID = some c → Owned N customerID c
  arrivals : ∀ a ∈ N.arrivals, ArrivalSound N a.pc
  removals : ∀ pc ∈ N.removals, RegistrySound N pc
  mapped : ∀ port e, N.portMap.lookup port = some e → (port, e) ∈ N.mappings
  clients : ∀ cl ∈ N.clients, ClientSound N cl
  unique : HeldOnce Client.stream N.clients
  covered : ∀ c < N.nextConn, ∀ r < (N.session c).nextRef,
    ((N.session c).cells r).openPc ≠ .accepted → ∃ cl ∈ N.clients, cl.stream = some (c, r)

/-! ## What stays -/

/-- Connections and their streams stay what they are, and so does what was mapped. -/
structure Grows (N N' : Network) : Prop where
  nextConn : N.nextConn ≤ N'.nextConn
  customerID : ∀ c < N.nextConn, (N'.links c).customerID = (N.links c).customerID
  session : ∀ c < N.nextConn, SessionGrows (N.session c) (N'.session c)
  mappings : ∀ x ∈ N.mappings, x ∈ N'.mappings

/-- What is known of a connection stays so. -/
theorem Owned.mono (h : Owned N customerID c) (hg : Grows N N') : Owned N' customerID c :=
  ⟨Nat.lt_of_lt_of_le h.1 hg.nextConn, (hg.customerID c h.1).trans h.2⟩

/-- A service that was mapped was mapped. -/
theorem ServiceOf.mono {service : String} (h : ServiceOf N port service)
    (hg : Grows N N') : ServiceOf N' port service := by
  rcases h with rfl | ⟨e, he, hservice⟩
  · exact .inl rfl
  · exact .inr ⟨e, hg.mappings _ he, hservice⟩

/-- A stream stays with the customer it was opened for. -/
theorem StreamFor.mono (h : StreamFor N customerID port c r) (hg : Grows N N') :
    StreamFor N' customerID port c r := by
  have hs := hg.session c h.owned.1
  have he := hs.cells r h.ref
  obtain ⟨service, hservice, hpayload⟩ := h.payload
  exact ⟨h.owned.mono hg, Nat.lt_of_lt_of_le h.ref hs.nextRef,
    fun hpc => h.opened (he.accepted.mp hpc), service, hservice.mono hg,
    he.openArg.trans hpayload⟩

/-- What a Route call knows stays so. -/
theorem PcSound.mono {pc : ClientPc}
    (h : PcSound N customerID port pc) (hg : Grows N N') : PcSound N' customerID port pc := by
  cases pc with
  | lookup service maxStreams => exact ServiceOf.mono h hg
  | checkLimit service maxStreams c => exact ⟨h.1.mono hg, h.2.mono hg⟩
  | openStream c payload | openAlloc c payload =>
    obtain ⟨⟨service, hservice, hpayload⟩, hown⟩ := h
    exact ⟨⟨service, hservice.mono hg, hpayload⟩, hown.mono hg⟩
  | _ => trivial

/-- So does what a client has. -/
theorem ClientSound.mono (h : ClientSound N cl) (hg : Grows N N') :
    ClientSound N' cl := by
  refine ⟨?_, h.early, h.pc.mono hg, fun c r hs => (h.stream c r hs).mono hg⟩
  rcases h.named with hpc | hpc | ⟨e, he, hcust⟩
  · exact .inl hpc
  · exact .inr (.inl hpc)
  · exact .inr (.inr ⟨e, hg.mappings _ he, hcust⟩)

/-- A call that has its customer goes on to `pc`. -/
theorem ClientSound.setPc (h : ClientSound N cl) (hl : cl.pc ≠ .lookupPort)
    (hn : cl.pc ≠ .done .noMapping) {pc : ClientPc} (hearly : isEarly pc = true → cl.stream = none)
    (hpc : PcSound N cl.customerID cl.port pc) : ClientSound N { cl with pc := pc } :=
  ⟨.inr (.inr ((h.named.resolve_left hl).resolve_left hn)), hearly, hpc, h.stream⟩

/-- What a call of the registry knows stays so. -/
theorem RegistrySound.mono (h : RegistrySound N pc) (hg : Grows N N') :
    RegistrySound N' pc := by
  cases pc with
  | register customerID c => exact Owned.mono h hg
  | _ => trivial

/-- So does what an arriving agent knows. -/
theorem ArrivalSound.mono {pc : ArrivalPc} (h : ArrivalSound N pc) (hg : Grows N N') :
    ArrivalSound N' pc := by
  cases pc with
  | services c => exact Nat.lt_of_lt_of_le h hg.nextConn
  | register customerID pc => exact RegistrySound.mono h hg
  | _ => trivial

/-- A step that touches no connection. -/
theorem grows_of_eq (hl : N'.links = N.links) (hn : N'.nextConn = N.nextConn)
    (hm : ∀ x ∈ N.mappings, x ∈ N'.mappings) : Grows N N' := by
  refine ⟨le_of_eq hn.symm, fun c _ => by rw [hl], fun c _ => ?_, hm⟩
  rw [Network.session, Network.session, hl]
  exact .refl _

/-- A step of one connection leaves the others as they are. -/
theorem links_of_ne {c d : ConnRef} (hd : d ≠ c) : (N.setLink c P).links d = N.links d := by
  rw [Network.setLink_links, Function.update_of_ne hd]

/-- The connection itself has gone on. -/
theorem links_self (N : Network) (c : ConnRef) (P : Circuits) :
    (N.setLink c P).links c = { N.links c with circuits := P } := by
  rw [Network.setLink_links, Function.update_self]

/-- Its session is the new one. -/
theorem session_self (N : Network) (c : ConnRef) (P : Circuits) :
    (N.setLink c P).session c = P.sys.sess .relay := by
  rw [Network.session, links_self]

/-- A connection takes a step. -/
theorem grows_setLink (hstep : (N.links c).circuits.step b = some P) : Grows N (N.setLink c P) := by
  refine ⟨le_refl _, fun d _ => ?_, fun d _ => ?_, fun _ hx => hx⟩
  · by_cases hd : d = c
    · rw [hd, links_self]
    · rw [links_of_ne hd]
  · unfold Network.session
    by_cases hd : d = c
    · rw [hd, links_self]
      exact circuits_grow hstep .relay
    · rw [links_of_ne hd]
      exact .refl _

/-! ## The rules

One for each part of the state that a step writes. -/

section Rules

variable (h : NetworkSound N)

include h

/-- What is new has to be shown sound; the rest stays. -/
theorem NetworkSound.keep (hg : Grows N N') (hlink : ∀ c < N'.nextConn, LinkSound (N'.links c))
    (hagents : ∀ customerID c, N'.agents.lookup customerID = some c →
      N.agents.lookup customerID = some c ∨ Owned N' customerID c)
    (harrivals : ∀ a ∈ N'.arrivals, a ∈ N.arrivals ∨ ArrivalSound N' a.pc)
    (hremovals : ∀ pc ∈ N'.removals, pc ∈ N.removals ∨ RegistrySound N' pc)
    (hmapped : ∀ port e, N'.portMap.lookup port = some e →
      N.portMap.lookup port = some e ∨ (port, e) ∈ N'.mappings)
    (hclients : ∀ cl ∈ N'.clients, cl ∈ N.clients ∨ ClientSound N' cl)
    (hunique : HeldOnce Client.stream N'.clients)
    (hcovered : ∀ c < N'.nextConn, ∀ r < (N'.session c).nextRef,
      ((N'.session c).cells r).openPc ≠ .accepted →
        ∃ cl ∈ N'.clients, cl.stream = some (c, r)) :
    NetworkSound N' where
  link := hlink
  agents customerID c hc :=
    (hagents customerID c hc).elim (fun hold => (h.agents _ _ hold).mono hg) id
  arrivals a ha := (harrivals a ha).elim (fun hold => (h.arrivals a hold).mono hg) id
  removals pc hpc := (hremovals pc hpc).elim (fun hold => (h.removals pc hold).mono hg) id
  mapped port e he := (hmapped port e he).elim (fun hold => hg.mappings _ (h.mapped _ _ hold)) id
  clients cl hcl := (hclients cl hcl).elim (fun hold => (h.clients cl hold).mono hg) id
  unique := hunique
  covered := hcovered

/-- What `NetworkSound` is not about may change. -/
theorem NetworkSound.frame (hl : N'.links = N.links) (hn : N'.nextConn = N.nextConn)
    (ha : N'.agents = N.agents) (harr : N'.arrivals = N.arrivals)
    (hrem : N'.removals = N.removals) (hp : N'.portMap = N.portMap)
    (hm : N'.mappings = N.mappings) (hcl : N'.clients = N.clients) : NetworkSound N' := by
  refine h.keep (grows_of_eq hl hn fun x hx => hm ▸ hx) (fun c hc => ?_) (fun cu c hc => ?_)
    (fun a h => ?_) (fun pc h => ?_) (fun p e h => ?_) (fun cl h => ?_) ?_ (fun c hc r hr hpc => ?_)
  · rw [hl]
    exact h.link c (hn ▸ hc)
  · exact .inl (ha ▸ hc)
  · exact .inl (harr ▸ h)
  · exact .inl (hrem ▸ h)
  · exact .inl (hp ▸ h)
  · exact .inl (hcl ▸ h)
  · rw [hcl]
    exact h.unique
  · rw [Network.session, hl] at hr hpc
    rw [hcl]
    exact h.covered c (hn ▸ hc) r hr hpc

/-- An agent is entered.
SOURCE: registry_impl.go:53-97 -/
theorem NetworkSound.setAgent (hc : Owned N customerID c) :
    NetworkSound (N.setAgent customerID c) := by
  refine h.keep (grows_of_eq rfl rfl fun _ hx => hx) h.link (fun cu d hd => ?_)
    (fun _ ha => .inl ha) (fun _ hpc => .inl hpc) (fun _ _ he => .inl he) (fun _ hcl => .inl hcl)
    h.unique h.covered
  rw [Network.setAgent_agents] at hd
  by_cases hcu : cu = customerID
  · subst hcu
    rw [AList.lookup_insert] at hd
    cases hd
    exact .inr hc
  · rw [AList.lookup_insert_ne hcu] at hd
    exact .inl hd

/-- SOURCE: registry_impl.go:99-117 -/
theorem NetworkSound.deleteAgent :
    NetworkSound (N.deleteAgent customerID) := by
  refine h.keep (grows_of_eq rfl rfl fun _ hx => hx) h.link (fun cu d hd => ?_)
    (fun _ ha => .inl ha) (fun _ hpc => .inl hpc) (fun _ _ he => .inl he) (fun _ hcl => .inl hcl)
    h.unique h.covered
  rw [Network.deleteAgent_agents] at hd
  by_cases hcu : cu = customerID
  · subst hcu
    rw [AList.lookup_erase] at hd
    cases hd
  · rw [AList.lookup_erase_ne hcu] at hd
    exact .inl hd

/-- An arriving agent goes on. -/
theorem NetworkSound.setArrival (ha : ArrivalSound N a.pc) :
    NetworkSound (N.setArrival k a) := by
  refine h.keep (grows_of_eq rfl rfl fun _ hx => hx) h.link (fun _ _ hc => .inl hc)
    (fun a' ha' => ?_) (fun _ hpc => .inl hpc) (fun _ _ he => .inl he) (fun _ hcl => .inl hcl)
    h.unique h.covered
  rcases List.mem_or_eq_of_mem_set ha' with hold | rfl
  · exact .inl hold
  · exact .inr ha

/-- A leaving one goes on. -/
theorem NetworkSound.setRemoval {j : ℕ} (hpc : RegistrySound N pc) :
    NetworkSound (N.setRemoval j pc) := by
  refine h.keep (grows_of_eq rfl rfl fun _ hx => hx) h.link (fun _ _ hc => .inl hc)
    (fun _ ha => .inl ha) (fun pc' hpc' => ?_) (fun _ _ he => .inl he) (fun _ hcl => .inl hcl)
    h.unique h.covered
  rcases List.mem_or_eq_of_mem_set hpc' with hold | rfl
  · exact .inl hold
  · exact .inr hpc

/-- A client goes on without a new stream. -/
theorem NetworkSound.setClient {cl cl' : Client} (hi : N.clients[i]? = some cl)
    (hstream : cl'.stream = cl.stream) (hcl : ClientSound N cl') :
    NetworkSound (N.setClient i cl') := by
  have hg : Grows N (N.setClient i cl') := grows_of_eq rfl rfl fun _ hx => hx
  refine h.keep hg h.link (fun _ _ hc => .inl hc)
    (fun _ ha => .inl ha) (fun _ hpc => .inl hpc) (fun _ _ he => .inl he) (fun d hd => ?_)
    (h.unique.set hi fun x hx => .inl (hstream ▸ hx)) (fun c hc r hr hpc => ?_)
  · rcases List.mem_or_eq_of_mem_set hd with hold | rfl
    · exact .inl hold
    · exact .inr (hcl.mono hg)
  · obtain ⟨d, hd, hds⟩ := h.covered c hc r hr hpc
    rcases eq_or_mem_set hd hi cl' with rfl | hmem
    · exact ⟨cl', mem_set_self hi cl', hstream.trans hds⟩
    · exact ⟨d, hmem, hds⟩

/-- An agent connects. -/
theorem NetworkSound.addArrival (ha : ArrivalSound N a.pc) :
    NetworkSound { N with arrivals := N.arrivals ++ [a] } := by
  refine h.keep (grows_of_eq rfl rfl fun _ hx => hx) h.link (fun _ _ hc => .inl hc)
    (fun a' ha' => ?_) (fun _ hpc => .inl hpc) (fun _ _ he => .inl he) (fun _ hcl => .inl hcl)
    h.unique h.covered
  rcases List.mem_append.mp ha' with hold | hnew
  · exact .inl hold
  · rw [List.mem_singleton.mp hnew]
    exact .inr ha

/-- An agent's session has ended. -/
theorem NetworkSound.addRemoval (hpc : RegistrySound N pc) :
    NetworkSound { N with removals := N.removals ++ [pc] } := by
  refine h.keep (grows_of_eq rfl rfl fun _ hx => hx) h.link (fun _ _ hc => .inl hc)
    (fun _ ha => .inl ha) (fun pc' hpc' => ?_) (fun _ _ he => .inl he) (fun _ hcl => .inl hcl)
    h.unique h.covered
  rcases List.mem_append.mp hpc' with hold | hnew
  · exact .inl hold
  · rw [List.mem_singleton.mp hnew]
    exact .inr hpc

/-- A client connects. -/
theorem NetworkSound.addClient :
    NetworkSound { N with clients := N.clients ++ [{ port := port }] } := by
  refine h.keep (grows_of_eq rfl rfl fun _ hx => hx) h.link (fun _ _ hc => .inl hc)
    (fun _ ha => .inl ha) (fun _ hpc => .inl hpc) (fun _ _ he => .inl he) (fun cl hcl => ?_)
    (h.unique.append rfl) (fun c hc r hr hpc => ?_)
  · rcases List.mem_append.mp hcl with hold | hnew
    · exact .inl hold
    · rw [List.mem_singleton.mp hnew]
      exact .inr ⟨.inl rfl, fun _ => rfl, trivial, nofun⟩
  · obtain ⟨cl, hcl, hstream⟩ := h.covered c hc r hr hpc
    exact ⟨cl, List.mem_append_left _ hcl, hstream⟩

/-- Mappings are taken out. -/
theorem NetworkSound.setPortMap {m : PortMap}
    (hm : ∀ p e, m.lookup p = some e → N.portMap.lookup p = some e) :
    NetworkSound { N with portMap := m } :=
  h.keep (grows_of_eq rfl rfl fun _ hx => hx) h.link (fun _ _ hc => .inl hc) (fun _ ha => .inl ha)
    (fun _ hpc => .inl hpc) (fun p e he => .inl (hm p e he)) (fun _ hcl => .inl hcl) h.unique
    h.covered

/-- A mapping is written. -/
theorem NetworkSound.setMapping {e : PortEntry} {m : PortMap}
    (hm : ∀ p, m.lookup p = if p = port then some e else N.portMap.lookup p) :
    NetworkSound (N.setMapping port e m) := by
  refine h.keep (grows_of_eq rfl rfl fun _ hx => List.mem_cons_of_mem _ hx) h.link
    (fun _ _ hc => .inl hc) (fun _ ha => .inl ha) (fun _ hpc => .inl hpc) (fun p e' he' => ?_)
    (fun _ hcl => .inl hcl) h.unique h.covered
  rw [Network.setMapping_portMap, hm] at he'
  split at he'
  · next hp =>
    cases he'
    rw [hp]
    exact .inr (List.mem_cons_self ..)
  · exact .inl he'

/-- A link goes on, and with it the clients; a new stream of the relay has its client. -/
theorem NetworkSound.setLinkClients {P : Circuits}
    {clients : List Client} (hc : c < N.nextConn) (hstep : (N.links c).circuits.step b = some P)
    (hok : SessionsUndisturbed (N.links c).circuits b)
    (hclients : ∀ cl ∈ clients, cl ∈ N.clients ∨ ClientSound (N.setLink c P) cl)
    (hunique : HeldOnce Client.stream clients)
    (hold : ∀ cl ∈ N.clients, ∀ x, cl.stream = some x → ∃ cl' ∈ clients, cl'.stream = some x)
    (hnew : ∀ r < (P.sys.sess .relay).nextRef, ¬ r < (N.session c).nextRef →
      ((P.sys.sess .relay).cells r).openPc ≠ .accepted →
        ∃ cl ∈ clients, cl.stream = some (c, r)) :
    NetworkSound { N.setLink c P with clients := clients } := by
  have hlinks := fun d => links_of_ne (N := N) (P := P) (c := c) (d := d)
  have hself := links_self N c P
  have hg := grows_setLink hstep
  have hg' : Grows (N.setLink c P) { N.setLink c P with clients := clients } :=
    grows_of_eq rfl rfl fun _ hx => hx
  refine NetworkSound.keep h
    ⟨hg.nextConn, hg.customerID, hg.session, hg.mappings⟩ (fun d hd => ?_)
    (fun _ _ hc => .inl hc) (fun _ ha => .inl ha) (fun _ hpc => .inl hpc) (fun _ _ he => .inl he)
    (fun cl hcl => (hclients cl hcl).imp_right (·.mono hg')) hunique (fun d hd r hr hpc => ?_)
  · show LinkSound ((N.setLink c P).links d)
    by_cases hdc : d = c
    · subst hdc
      have hl := h.link d hd
      rw [hself]
      exact ⟨hl.name, hl.customer, .tail hl.reach hok hstep⟩
    · rw [hlinks d hdc]
      exact h.link d hd
  · change r < (((N.setLink c P).links d).circuits.sys.sess .relay).nextRef at hr
    change ((((N.setLink c P).links d).circuits.sys.sess .relay).cells r).openPc ≠ .accepted at hpc
    by_cases hlt : r < (N.session d).nextRef
    · have hopened : ((N.session d).cells r).openPc ≠ .accepted := fun hacc =>
        hpc (((hg.session d hd).cells r hlt).accepted.mpr hacc)
      obtain ⟨cl, hcl, hstream⟩ := h.covered d hd r hlt hopened
      exact hold cl hcl _ hstream
    · by_cases hdc : d = c
      · subst hdc
        rw [hself] at hr hpc
        exact hnew r hr hlt hpc
      · rw [hlinks d hdc] at hr
        exact absurd hr hlt

/-- A link goes on without a new stream of the relay. -/
theorem NetworkSound.stepLink (hstep : N.stepLink c b = some N')
    (hok : SessionsUndisturbed (N.links c).circuits b)
    (hb : ∀ payload, b ≠ .sys .relay (.openAlloc payload)) : NetworkSound N' := by
  unfold Network.stepLink at hstep
  split at hstep
  · next hc =>
    obtain ⟨P, hP, rfl⟩ := Option.map_eq_some_iff.mp hstep
    refine h.setLinkClients hc hP hok (fun _ hcl => .inl hcl) h.unique
      (fun cl hcl _ hx => ⟨cl, hcl, hx⟩) fun r hr hlt hpc => ?_
    obtain ⟨_, payload, hpay, _⟩ := circuits_new hP hr hlt hpc
    exact absurd hpay (hb payload)
  · cases hstep

/-- The open of a client's stream. -/
theorem NetworkSound.openAlloc {cl cl' : Client} {payload : Bytes}
    (hi : N.clients[i]? = some cl) (hcl : ClientSound N cl) (hpc : cl.pc = .openAlloc c payload)
    (hstep : N.stepLink c (.sys .relay (.openAlloc payload)) = some N')
    (hok : SessionsUndisturbed (N.links c).circuits (.sys .relay (.openAlloc payload)))
    (hcl' : cl' = if N.numStreams c ≥ (N.session c).config.maxConcurrentStreams then
        { cl with pc := Network.openError "maximum concurrent streams exceeded" }
      else
        { cl with
          stream := some (c, (N.session c).nextRef)
          pc := .opening c (N.session c).nextRef }) :
    NetworkSound (N'.setClient i cl') := by
  have hnone : cl.stream = none := hcl.early (by rw [hpc]; rfl)
  have hfound := hcl.pc
  rw [hpc] at hfound
  obtain ⟨⟨service, hservice, hpayload⟩, hown⟩ := hfound
  unfold Network.stepLink at hstep
  rw [if_pos hown.1] at hstep
  obtain ⟨P, hP, rfl⟩ := Option.map_eq_some_iff.mp hstep
  have hs : P.sys.sess .relay = (N.session c).openAlloc payload := openAlloc_session hP
  have hg := grows_setLink hP
  have hcl₁ := hcl.mono hg
  have hnamed := (hcl₁.named.resolve_left (by simp [hpc])).resolve_left (by simp [hpc])
  unfold Session.openAlloc at hs
  unfold Network.numStreams at hcl'
  by_cases hfull : (N.session c).table.streams.entries.length ≥
      (N.session c).config.maxConcurrentStreams
  · rw [if_pos hfull] at hcl' hs
    subst hcl'
    have h₁ : NetworkSound (N.setLink c P) := by
      refine h.setLinkClients hown.1 hP hok (fun _ hd => .inl hd) h.unique
        (fun d hd _ hx => ⟨d, hd, hx⟩) fun r hr hlt _ => ?_
      rw [hs] at hr
      exact absurd hr hlt
    exact h₁.setClient hi rfl ⟨.inr (.inr hnamed), nofun, trivial, hcl₁.stream⟩
  · rw [if_neg hfull] at hcl' hs
    subst hcl'
    -- nobody has the new stream yet
    have hfresh : ∀ d ∈ N.clients, d.stream ≠ some (c, (N.session c).nextRef) :=
      fun d hd hds => absurd ((h.clients d hd).stream _ _ hds).ref (lt_irrefl _)
    have hcell : (P.sys.sess .relay).cells (N.session c).nextRef =
        (N.session c).openedCell payload := by
      rw [hs]
      simp
    have hnext : (N.session c).nextRef < (P.sys.sess .relay).nextRef := by
      rw [hs]
      simp
    have hfor : StreamFor (N.setLink c P) cl.customerID cl.port c (N.session c).nextRef := by
      refine ⟨hown.mono hg, ?_, ?_, service, hservice.mono hg, ?_⟩
      · rw [session_self]
        exact hnext
      · rw [session_self, hcell]
        nofun
      · rw [session_self, hcell]
        exact hpayload
    refine h.setLinkClients hown.1 hP hok (fun d hd => ?_) (h.unique.set hi fun x hx => ?_)
      (fun d hd x hx => ?_) fun r hr hlt hpc' => ?_
    · rcases List.mem_or_eq_of_mem_set hd with hold | rfl
      · exact .inl hold
      · refine .inr ⟨.inr (.inr hnamed), nofun, trivial, fun d r hdr => ?_⟩
        cases hdr
        exact hfor
    · cases hx
      exact .inr hfresh
    · rcases eq_or_mem_set hd hi _ with rfl | hmem
      · rw [hnone] at hx
        cases hx
      · exact ⟨d, hmem, hx⟩
    · obtain ⟨rfl, _⟩ := circuits_new hP hr hlt hpc'
      exact ⟨_, mem_set_self hi _, rfl⟩

/-- A connection is made. -/
theorem NetworkSound.addLink {l : AgentLink} (hl : LinkSound l)
    (hnew : (l.circuits.sys.sess .relay).nextRef = 0) : NetworkSound (N.addLink l) := by
  have hold : ∀ c < N.nextConn, (N.addLink l).links c = N.links c := fun c hc => by
    rw [Network.addLink_links, Function.update_of_ne (Nat.ne_of_lt hc)]
  have hlast : (N.addLink l).links N.nextConn = l := by
    rw [Network.addLink_links, Function.update_self]
  have hg : Grows N (N.addLink l) := by
    refine ⟨Nat.le_succ _, fun c hc => by rw [hold c hc], fun c hc => ?_, fun _ hx => hx⟩
    rw [Network.session, Network.session, hold c hc]
    exact .refl _
  refine h.keep hg (fun c hc => ?_) (fun _ _ hc => .inl hc) (fun _ ha => .inl ha)
    (fun _ hpc => .inl hpc) (fun _ _ he => .inl he) (fun _ hcl => .inl hcl) h.unique
    (fun c hc r hr hpc => ?_)
  · rcases Nat.lt_succ_iff_lt_or_eq.mp hc with hlt | rfl
    · rw [hold c hlt]
      exact h.link c hlt
    · rw [hlast]
      exact hl
  · rcases Nat.lt_succ_iff_lt_or_eq.mp hc with hlt | rfl
    · rw [Network.session, hold c hlt] at hr hpc
      exact h.covered c hlt r hr hpc
    · rw [Network.session, hlast, hnew] at hr
      cases hr

end Rules

/-! ## Every step -/

/-- The step that an action takes on a link, where the sessions can be disturbed. -/
def linkStep (N : Network) : NetworkAction → Option (ConnRef × CircuitsAction)
  | .link c b => some (c, b)
  | .run i =>
    match N.clients[i]?.map Client.pc with
    | some (.openAlloc c payload) => some (c, .sys .relay (.openAlloc payload))
    | _ => none
  | _ => none

/-- The sessions of all links are left undisturbed. -/
def NetworkUndisturbed (N : Network) (a : NetworkAction) : Prop :=
  match linkStep N a with
  | some (c, b) => SessionsUndisturbed (N.links c).circuits b
  | none => True

instance (N : Network) (a : NetworkAction) : Decidable (NetworkUndisturbed N a) := by
  unfold NetworkUndisturbed
  split <;> infer_instance

/-- SOURCE: registry_impl.go:53-117 -/
theorem registry_sound {pc pc' : RegistryPc} (h : NetworkSound N) (hpc : RegistrySound N pc)
    (hrun : N.runRegistry pc = some (N', pc')) : NetworkSound N' ∧ RegistrySound N' pc' := by
  have hlink : ∀ {c a N₁}, N.stepLink c (.sys .relay a) = some N₁ →
      (∀ payload, a ≠ .openAlloc payload) →
      SessionsUndisturbed (N.links c).circuits (.sys .relay a) → NetworkSound N₁ :=
    fun hstep ha hok =>
      h.stepLink hstep hok fun payload hb => by
        cases hb
        exact ha payload rfl
  cases pc with
  | register customerID c =>
    simp only [Network.runRegistry, RegistryTables.next, Option.bind_eq_bind] at hrun
    split at hrun
    · split at hrun <;> cases hrun <;> exact ⟨h.setAgent hpc, trivial⟩
    · cases hrun
      exact ⟨h.setAgent hpc, trivial⟩
  | replaced | registered | removed =>
    cases hrun
    exact ⟨h.frame rfl rfl rfl rfl rfl rfl rfl rfl, trivial⟩
  | goAway customerID old | goAwaySend customerID old =>
    obtain ⟨N₁, hstep, heq⟩ := Option.map_eq_some_iff.mp hrun
    cases heq
    exact ⟨hlink hstep nofun ⟨trivial, trivial⟩, trivial⟩
  | close customerID c =>
    simp only [Network.runRegistry, RegistryTables.next, Option.bind_eq_bind] at hrun
    split at hrun
    · cases hrun
      exact ⟨h, trivial⟩
    · obtain ⟨N₁, hstep, heq⟩ := Option.map_eq_some_iff.mp hrun
      cases heq
      exact ⟨hlink hstep nofun ⟨trivial, trivial⟩, trivial⟩
  | closing customerID c =>
    simp only [Network.runRegistry, RegistryTables.next, Option.bind_eq_bind] at hrun
    split at hrun
    · cases hrun
      refine ⟨h, ?_⟩
      cases customerID <;> trivial
    · cases hrun
  | unregister customerID =>
    simp only [Network.runRegistry, RegistryTables.next, Option.bind_eq_bind] at hrun
    split at hrun <;> cases hrun
    · exact ⟨h.deleteAgent, trivial⟩
    · exact ⟨h, trivial⟩
  | heartbeat | updateLastSeen | done => cases hrun

/-- SOURCE: listener.go:120-156; identity.go:13-42 -/
theorem identify_sound {chain : List Certificate} (h : NetworkSound N) :
    NetworkSound (N.identify k a chain) := by
  unfold Network.identify
  split
  · next cert rest id hid =>
    have hname : id.customerID ≠ "" →
        id.customerID = cert.commonName ∧ cert.commonName.startsWith "customer-" = true := by
      intro hne
      simp only [extractIdentity] at hid
      split at hid
      · next hcust =>
        cases hid
        exact ⟨rfl, hcust⟩
      · split at hid <;> cases hid
        exact absurd rfl hne
    split
    · exact h.setArrival trivial
    · next hne =>
      obtain ⟨hcn, hcust⟩ := hname hne
      have h₁ : NetworkSound (N.emitAudit .authSuccess a.remoteAddr id.customerID) :=
        h.frame rfl rfl rfl rfl rfl rfl rfl rfl
      apply NetworkSound.setArrival
      · exact h₁.addLink ⟨hcn, hcust, .refl⟩ rfl
      · exact Nat.lt_succ_self _
  · have h₁ : NetworkSound (N.emitAudit .authFailure a.remoteAddr "") :=
      h.frame rfl rfl rfl rfl rfl rfl rfl rfl
    exact h₁.setArrival trivial

/-- SOURCE: listener.go:120-181 -/
theorem arrival_sound (h : NetworkSound N) (ha : ArrivalSound N a.pc)
    (hrun : N.runArrival k a = some N') : NetworkSound N' := by
  unfold Network.runArrival at hrun
  split at hrun
  · cases hrun
    exact identify_sound h
  · next c hpc =>
    cases hrun
    rw [hpc] at ha
    exact h.setArrival ⟨ha, rfl⟩
  · next customerID err hpc =>
    cases hrun
    have h₁ : NetworkSound (N.emitAudit .agentConnected a.remoteAddr customerID) :=
      h.frame rfl rfl rfl rfl rfl rfl rfl rfl
    exact h₁.setArrival trivial
  · next customerID pc _ hpc =>
    obtain ⟨⟨N₁, pc₁⟩, hreg, rfl⟩ := Option.map_eq_some_iff.mp hrun
    rw [hpc] at ha
    obtain ⟨h₁, hpc₁⟩ := registry_sound h ha hreg
    exact h₁.setArrival hpc₁
  · cases hrun
  · cases hrun

/-- SOURCE: client_listener.go:99-145; router_impl.go:151-205 -/
theorem client_sound (h : NetworkSound N) (hi : N.clients[i]? = some cl)
    (hok : ∀ c payload, cl.pc = .openAlloc c payload →
      SessionsUndisturbed (N.links c).circuits (.sys .relay (.openAlloc payload)))
    (hrun : N.runClient i cl = some N') : NetworkSound N' := by
  have hcl := h.clients cl (List.mem_of_getElem? hi)
  -- a link steps first; the client is then as sound as before
  have hlink : ∀ {c b N₁ pc}, N.stepLink c b = some N₁ → cl.pc ≠ .lookupPort →
      cl.pc ≠ .done .noMapping → (isEarly pc = true → cl.stream = none) →
      PcSound N cl.customerID cl.port pc → SessionsUndisturbed (N.links c).circuits b →
      (∀ payload, b ≠ .sys .relay (.openAlloc payload)) →
      NetworkSound (N₁.setClient i { cl with pc := pc }) := by
    intro c b N₁ pc hstep hl hn hearly hpc hok hb
    have h₁ := h.stepLink hstep hok hb
    unfold Network.stepLink at hstep
    split at hstep
    · obtain ⟨P, hP, rfl⟩ := Option.map_eq_some_iff.mp hstep
      exact h₁.setClient hi rfl ((hcl.mono (grows_setLink hP)).setPc hl hn hearly
        (hpc.mono (grows_setLink hP)))
    · cases hstep
  have hfound := hcl.pc
  have hearly := hcl.early
  have hset : ∀ pc, cl.pc ≠ .lookupPort → cl.pc ≠ .done .noMapping →
      (isEarly pc = true → cl.stream = none) → PcSound N cl.customerID cl.port pc →
      NetworkSound (N.setClient i { cl with pc := pc }) :=
    fun _ hl hn hearly hpc => h.setClient hi rfl (hcl.setPc hl hn hearly hpc)
  unfold Network.runClient at hrun
  cases hpc : cl.pc with
  | lookupPort =>
    simp only [hpc, Network.runRoute, RoutePc.next] at hrun
    split at hrun
    · cases hrun
      exact h.setClient hi rfl ⟨.inr (.inl rfl), fun _ => hearly (by rw [hpc]; rfl), trivial,
        hcl.stream⟩
    · next customerID service hlook =>
      cases hrun
      obtain ⟨e, he, heq⟩ := Option.map_eq_some_iff.mp hlook
      have hnone := hearly (by rw [hpc]; rfl)
      refine h.setClient hi rfl ⟨.inr (.inr ⟨e, h.mapped _ _ he, congrArg Prod.fst heq⟩),
        fun _ => hnone, trivial, fun c r hs => ?_⟩
      exact absurd (hnone.symm.trans hs) nofun
  | route =>
    rw [hpc] at hset hearly
    simp only [hpc, Network.runRoute, RoutePc.next] at hrun
    split at hrun <;> cases hrun
    · exact hset _ nofun nofun (fun _ => hearly rfl) (.inl rfl)
    · next e he => exact hset _ nofun nofun (fun _ => hearly rfl) (.inr ⟨e, h.mapped _ _ he, rfl⟩)
  | lookup service maxStreams =>
    rw [hpc] at hset hearly hfound
    simp only [hpc, Network.runRoute, RoutePc.next] at hrun
    split at hrun <;> cases hrun
    · exact hset _ nofun nofun (fun _ => hearly rfl) trivial
    · next conn hconn =>
      obtain ⟨c, hc, rfl⟩ := Option.map_eq_some_iff.mp hconn
      exact hset _ nofun nofun (fun _ => hearly rfl) ⟨hfound, h.agents _ _ hc⟩
  | checkLimit service maxStreams c =>
    rw [hpc] at hset hearly hfound
    simp only [hpc, Network.runRoute, RoutePc.next] at hrun
    split at hrun <;> cases hrun
    · have h₁ := hset (.overLimit maxStreams c) nofun nofun (fun _ => hearly rfl) trivial
      exact h₁.frame rfl rfl rfl rfl rfl rfl rfl rfl
    · exact hset _ nofun nofun (fun _ => hearly rfl) ⟨⟨service, hfound.1, rfl⟩, hfound.2⟩
  | overLimit maxStreams c =>
    rw [hpc] at hset hearly
    simp only [hpc, Network.runRoute, RoutePc.next] at hrun
    cases hrun
    exact hset _ nofun nofun (fun _ => hearly rfl) trivial
  | openStream c payload =>
    rw [hpc] at hset hearly hfound hlink
    simp only [hpc] at hrun
    split at hrun
    · cases hrun
      exact hset _ nofun nofun nofun trivial
    · obtain ⟨N₁, hstep, rfl⟩ := Option.map_eq_some_iff.mp hrun
      exact hlink hstep nofun nofun (fun _ => hearly rfl) hfound ⟨trivial, trivial⟩ nofun
  | openAlloc c payload =>
    simp only [hpc] at hrun
    obtain ⟨N₁, hstep, rfl⟩ := Option.map_eq_some_iff.mp hrun
    exact h.openAlloc hi hcl hpc hstep (hok c payload hpc) rfl
  | opened c r =>
    rw [hpc] at hset
    simp only [hpc] at hrun
    cases hrun
    have h₁ := hset (.start c r) nofun nofun nofun trivial
    exact h₁.frame rfl rfl rfl rfl rfl rfl rfl rfl
  | start c r =>
    rw [hpc] at hlink
    simp only [hpc] at hrun
    obtain ⟨N₁, hstep, rfl⟩ := Option.map_eq_some_iff.mp hrun
    exact hlink hstep nofun nofun nofun trivial trivial nofun
  | copying c r =>
    rw [hpc] at hset
    simp only [hpc] at hrun
    obtain ⟨err, _, rfl⟩ := Option.map_eq_some_iff.mp hrun
    exact hset _ nofun nofun nofun trivial
  | copied err =>
    rw [hpc] at hset
    simp only [hpc] at hrun
    cases hrun
    have h₁ := hset (.done (.returned (err.map .copy))) nofun nofun nofun trivial
    exact h₁.frame rfl rfl rfl rfl rfl rfl rfl rfl
  | rateLimit | opening _ _ | done _ =>
    simp only [hpc] at hrun
    cases hrun

/-- No step mixes customers up. -/
theorem sound_step {a : NetworkAction} (h : NetworkSound N) (hok : NetworkUndisturbed N a)
    (hstep : N.step a = some N') : NetworkSound N' := by
  unfold Network.step at hstep
  cases a with
  | accept remoteAddr agent tls =>
    cases hstep
    refine h.addArrival ?_
    cases tls <;> trivial
  | handshake k chain =>
    dsimp only at hstep
    split at hstep
    · next a ha =>
      split at hstep
      · split at hstep <;> cases hstep
        · exact h.setArrival trivial
        · have h₁ : NetworkSound (N.emitAudit .authFailure a.remoteAddr "") :=
            h.frame rfl rfl rfl rfl rfl rfl rfl rfl
          exact h₁.setArrival trivial
      · cases hstep
    · cases hstep
  | arrival k =>
    obtain ⟨a, ha, hrun⟩ := Option.bind_eq_some_iff.mp hstep
    exact arrival_sound h (h.arrivals a (List.mem_of_getElem? ha)) hrun
  | unregister customerID =>
    cases hstep
    exact h.addRemoval trivial
  | removal j =>
    obtain ⟨⟨N₁, pc₁⟩, hrun, rfl⟩ := Option.map_eq_some_iff.mp hstep
    obtain ⟨pc, hpc, hrun⟩ := Option.bind_eq_some_iff.mp hrun
    obtain ⟨h₁, hpc₁⟩ := registry_sound h (h.removals pc (List.mem_of_getElem? hpc)) hrun
    exact h₁.setRemoval hpc₁
  | setCustomerLimit customerID maxConns | setRateLimiter customerID lim =>
    cases hstep
    exact h.frame rfl rfl rfl rfl rfl rfl rfl rfl
  | link c b =>
    dsimp only at hstep
    split at hstep
    · cases hstep
    · next hb => exact h.stepLink hstep hok fun _ heq => hb (heq ▸ rfl)
  | client port =>
    cases hstep
    exact h.addClient
  | run i =>
    obtain ⟨cl, hi, hrun⟩ := Option.bind_eq_some_iff.mp hstep
    refine client_sound h hi (fun c payload hpc => ?_) hrun
    simpa only [NetworkUndisturbed, linkStep, hi, Option.map_some, hpc] using hok
  | rateLimit i allowed =>
    dsimp only at hstep
    split at hstep
    · next cl hi =>
      have hcl := h.clients cl (List.mem_of_getElem? hi)
      split at hstep
      · next hpc =>
        have hset : ∀ pc, isEarly pc = true → PcSound N cl.customerID cl.port pc →
            NetworkSound (N.setClient i { cl with pc := pc }) := fun _ _ hsound =>
          h.setClient hi rfl (hcl.setPc (by simp [hpc]) (by simp [hpc])
            (fun _ => hcl.early (by rw [hpc]; rfl)) hsound)
        split at hstep
        · cases hstep
          exact hset _ rfl trivial
        · split at hstep <;> cases hstep
          have h₁ := hset (.done .rateLimited) rfl trivial
          exact h₁.frame rfl rfl rfl rfl rfl rfl rfl rfl
      · cases hstep
    · cases hstep
  | opened i err =>
    dsimp only at hstep
    split at hstep
    · next cl hi =>
      have hcl := h.clients cl (List.mem_of_getElem? hi)
      split at hstep
      · next c r hpc =>
        split at hstep <;> cases hstep
        exact h.setClient hi rfl (hcl.setPc (by simp [hpc]) (by simp [hpc]) nofun trivial)
      · next c r err hpc =>
        split at hstep <;> cases hstep
        exact h.setClient hi rfl (hcl.setPc (by simp [hpc]) (by simp [hpc]) nofun trivial)
      · cases hstep
    · cases hstep
  | addPortMapping customerID port service listenAddr maxStreams =>
    cases hstep
    exact h.setMapping (N.portMap.lookup_add customerID port service listenAddr maxStreams)
  | updatePortMapping port service listenAddr maxStreams =>
    dsimp only at hstep
    split at hstep
    · next e he =>
      split at hstep <;> cases hstep
      · next m hm =>
        obtain ⟨e', he', hlook⟩ := PortMap.lookup_update _ hm
        cases he.symm.trans he'
        exact h.setMapping hlook
      · exact h
    · cases hstep
      exact h
  | removePortMapping customerID port =>
    dsimp only at hstep
    split at hstep <;> cases hstep
    · exact h
    · next m hm =>
      refine h.setPortMap fun p e he => ?_
      rw [(PortMap.lookup_remove _ hm).2] at he
      split at he
      · cases he
      · exact he

/-- The relays that can be, with all links left undisturbed. -/
def NetworkReach (fingerprint : Bytes → String) (maxStreamsPerAgent : ℤ) : Network → Prop :=
  Reach Network.step NetworkUndisturbed (newNetwork fingerprint maxStreamsPerAgent)

variable {fingerprint : Bytes → String} {maxStreamsPerAgent : ℤ}

/-- Every network that can come about is sound. -/
theorem sound_reach (h : NetworkReach fingerprint maxStreamsPerAgent N) : NetworkSound N := by
  refine Reach.invariant NetworkSound h ?_ fun N a N' _ hI hok hstep => sound_step hI hok hstep
  refine ⟨nofun, fun _ _ hc => ?_, nofun, nofun, fun _ _ he => ?_, nofun, ?_, nofun⟩
  · cases (AList.lookup_empty _).symm.trans hc
  · cases (AList.lookup_empty _).symm.trans he
  · intro i j a b x hi
    cases hi

/-! ## From the port of a client to the services of its customer -/

/-- **A service gets bytes from clients of its own customer only.** A stream that an agent has found
a service for was opened for one client, and for no other: its port was mapped to the customer that
stands in the certificate of that agent, the service is the one the agent has for a name that was
mapped to the port (or for none), and in both directions what has come out is a beginning of what
went in. -/
theorem tenants_apart (h : NetworkReach fingerprint maxStreamsPerAgent N) {c : ConnRef}
    (hc : c < N.nextConn) {v : Ref} {t : String}
    (ht : ((N.links c).circuits.agentEnd v).target = some t) :
    ∃ (i : ℕ) (cl : Client) (r : Ref), N.clients[i]? = some cl ∧ cl.stream = some (c, r) ∧
      (∀ j cl', N.clients[j]? = some cl' → cl'.stream = some (c, r) → j = i) ∧
      Paired (N.links c).circuits.sys .relay r v ⟨.relay, r⟩ ∧
      (N.links c).cert.commonName = cl.customerID ∧
      cl.customerID.startsWith "customer-" = true ∧
      (∃ e, (cl.port, e) ∈ N.mappings ∧ e.customerID = cl.customerID) ∧
      (∃ service, ServiceOf N cl.port service ∧
        t = resolveTarget (N.links c).services (Relay.openPayload service)) ∧
      ((N.links c).circuits.copiers .agent v).sock.received <+:
        ((N.links c).circuits.copiers .relay r).sock.sent ∧
      ((N.links c).circuits.copiers .relay r).sock.received <+:
        ((N.links c).circuits.copiers .agent v).sock.sent := by
  have hN := sound_reach h
  have hl := hN.link c hc
  obtain ⟨r, hp, hpc, htarget⟩ := served_stream hl.reach ht
  obtain ⟨cl, hcl, hstream⟩ := hN.covered c hc r hp.writer hpc
  obtain ⟨i, hi⟩ := List.mem_iff_getElem?.mp hcl
  have hsound := hN.clients cl hcl
  obtain ⟨⟨_, hown⟩, _, _, service, hservice, hpayload⟩ := hsound.stream c r hstream
  have hname : (N.links c).cert.commonName = cl.customerID := hl.name.symm.trans hown
  have hnamed : ∃ e, (cl.port, e) ∈ N.mappings ∧ e.customerID = cl.customerID := by
    have hlate : isEarly cl.pc ≠ true := fun he => by
      rw [hsound.early he] at hstream
      cases hstream
    rcases hsound.named with hpc' | hpc' | hnamed
    · exact absurd (by rw [hpc']; rfl) hlate
    · exact absurd (by rw [hpc']; rfl) hlate
    · exact hnamed
  refine ⟨i, cl, r, hi, hstream, fun j cl' hj hs => hN.unique j i cl' cl _ hj hi hs hstream, hp,
    hname, hname ▸ hl.customer, hnamed, ⟨service, hservice, ?_⟩, received_sent hl.reach hp,
    received_sent hl.reach hp.symm⟩
  rw [htarget]
  exact congrArg _ hpayload

/-- An agent with a web server and a shell. -/
def webAgent : AgentSide where
  config := ⟨4, 65536, 1048576⟩
  services := ((∅ : ServiceMap).insert (Relay.openPayload "web") "10.0.0.1:80").insert
    (Relay.openPayload "ssh") "10.0.0.1:22"
  bufSize := 4

/-- The agent of `customer-a` connects and is registered. -/
def agentRun : List NetworkAction :=
  [.accept "198.51.100.7:4000" webAgent true,
    .handshake 0 (some [⟨"customer-a", [], 0, 9⟩]), .arrival 0, .arrival 0, .arrival 0, .arrival 0,
    .arrival 0]

/-- A run of the first connection. -/
def linkRun (l : List CircuitsAction) : List NetworkAction := l.map (.link 0)

/-- A client comes to a port of `customer-a` and sends `[7]` to its web server. -/
def visitRun : List NetworkAction :=
  [NetworkAction.addPortMapping "customer-a" 8080 "web" ":8080" 0, .client 8080, .run 0,
    .rateLimit 0 true, .run 0, .run 0, .run 0, .run 0, .run 0] ++
  linkRun (openedRun (Relay.openPayload "web")) ++ [NetworkAction.opened 0 none, .run 0, .run 0] ++
  linkRun ([CircuitsAction.serve 0, .dialed 0 none] ++ byteRun .relay 7)

/-- One client, one byte. -/
theorem tenants_apart_visit :
    ∃ N, NetworkReach (fun _ => "") 4 N ∧
      ((N.links 0).circuits.copiers .agent 0).sock.received = [7] ∧
      ∃ (i : ℕ) (cl : Client) (r : Ref), N.clients[i]? = some cl ∧ cl.stream = some (0, r) ∧
        (N.links 0).cert.commonName = cl.customerID ∧
        ((N.links 0).circuits.copiers .agent 0).sock.received <+:
          ((N.links 0).circuits.copiers .relay r).sock.sent := by
  have hex : ∃ N, NetworkReach (fun _ => "") 4 N ∧
      ((N.links 0).circuits.copiers .agent 0).sock.received = [7] ∧ 0 < N.nextConn ∧
      ((N.links 0).circuits.agentEnd 0).target = some "10.0.0.1:80" :=
    exists_reach_of_exec (agentRun ++ visitRun) _ (by decide +kernel)
  obtain ⟨N, hN, hgot, hc, ht⟩ := hex
  obtain ⟨i, cl, r, hi, hstream, _, _, hname, _, _, _, hfrom, _⟩ := tenants_apart hN hc ht
  exact ⟨N, hN, hgot, i, cl, r, hi, hstream, hname, hfrom⟩

end Atlax.Analysis
