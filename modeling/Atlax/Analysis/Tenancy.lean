import Atlax.Analysis.AdminMoves

/-!
# The customer of a port

Which steps of the control plane change the port map, and which of them can take a port from its
customer. `AddPortMapping` writes over whatever it finds, a reload compares with the config it
applied last instead of the live map, and the rollback of a refused listener deletes an entry that
may have been there before. A port is mapped to no other customer for as long as none is added for
it. It stays mapped to its customer along every run in which no mapping is added over it for another
customer and no rollback finds it to delete, until the port is given up by a DELETE or by a reload
whose config omits it.
-/

set_option autoImplicit false

namespace Atlax.Analysis

open Atlax.Model Atlax.Library

/-! ## What a step does to the port map -/

/-- How the step `a` can change the port map: not at all, by one of the two additions, by an update
(of a PUT or of a reload), by one of the two rollbacks, by a DELETE, or by a reload that drops a
port. -/
inductive MapMove (s : Admin) (a : AdminAction) : PortMap → Prop
  | same : MapMove s a s.portMap
  | create (i : ℕ) (req : PortCreateRequest) (ha : a = .run i)
      (hpc : s.requests[i]? = some (.createAdd req)) :
      MapMove s a (s.portMap.addPortMapping req.customerID req.port req.service
        (defaultAddr req.listenAddr) req.maxStreams)
  | createRollback (i : ℕ) (req : PortCreateRequest) (err : String) (ha : a = .run i)
      (hpc : s.requests[i]? = some (.createRollback req err)) :
      MapMove s a (s.rollback req.customerID req.port)
  | update (port : ℤ) (service listenAddr : String) (maxStreams : ℤ) (m : PortMap)
      (hm : s.portMap.updatePortMapping port service listenAddr maxStreams = .ok m) : MapMove s a m
  | delete (i : ℕ) (port : ℤ) (customerID : String) (m : PortMap) (ha : a = .run i)
      (hpc : s.requests[i]? = some (.deleteRemove port customerID))
      (hm : s.portMap.removePortMapping customerID port = .ok m) : MapMove s a m
  | reloadAdd (i : ℕ) (st : Reload) (port : ℤ) (entry : PortIndexEntry) (ha : a = .pick i port)
      (hpc : s.requests[i]? = some (.reloadPorts st)) (hadd : port ∈ st.adds)
      (hnew : st.newIdx.lookup port = some entry) (hold : st.oldIdx.lookup port = none) :
      MapMove s a (s.portMap.addPortMapping entry.customerID port entry.service entry.listenAddr
        entry.maxStreams)
  | reloadRollback (i : ℕ) (st : Reload) (port : ℤ) (entry : PortIndexEntry) (ha : a = .run i)
      (hpc : s.requests[i]? = some (.reloadRollback st port entry)) :
      MapMove s a (s.rollback entry.customerID port)
  | reloadRemove (i : ℕ) (st : Reload) (port : ℤ) (entry : PortIndexEntry) (m : PortMap)
      (ha : a = .pick i port) (hpc : s.requests[i]? = some (.reloadPorts st))
      (hrem : port ∈ st.removes)
      (hm : s.portMap.removePortMapping entry.customerID port = .ok m) : MapMove s a m

/-- What a step does to the port map. -/
theorem step_mapMove {isIP : String → Bool} {s s' : Admin} {a : AdminAction}
    (h : s.step isIP a = some s') : MapMove s a s'.portMap := by
  cases admin_move h with
  | createAdd i req hpc => exact .create i req rfl hpc
  | createRollback i req err hpc => exact .createRollback i req err rfl hpc
  | updateApply i port existing req m hpc hm => exact .update _ _ _ _ _ hm
  | deleteRemove i port customerID m hpc hm => exact .delete i port customerID m rfl hpc hm
  | reloadAdd i st port entry hpc hadd hnew hold =>
    exact .reloadAdd i st port entry rfl hpc hadd hnew hold
  | reloadUpdate i st port entry old m _ _ _ _ _ _ hm => exact .update _ _ _ _ _ hm
  | reloadRollback i st port entry hpc => exact .reloadRollback i st port entry rfl hpc
  | reloadRemove i st port old m hpc _ hrem _ hm =>
    exact .reloadRemove i st port old m rfl hpc hrem hm
  | _ => simpa using MapMove.same

/-! ## Who holds a port -/

/-- The mapping that the step is about to write with `AddPortMapping`. -/
def adds (s : Admin) : AdminAction → Option (ℤ × String)
  | .run i =>
    match s.requests[i]? with
    | some (.createAdd req) => some (req.port, req.customerID)
    | _ => none
  | .pick i port =>
    match s.requests[i]? with
    | some (.reloadPorts st) =>
      if port ∈ st.adds ∧ st.oldIdx.lookup port = none then
        (st.newIdx.lookup port).map fun e => (port, e.customerID)
      else none
    | _ => none
  | _ => none

/-- The mapping that the step is about to roll back. -/
def rollsBack (s : Admin) : AdminAction → Option (ℤ × String)
  | .run i =>
    match s.requests[i]? with
    | some (.createRollback req _) => some (req.port, req.customerID)
    | some (.reloadRollback _ port entry) => some (port, entry.customerID)
    | _ => none
  | _ => none

/-- An addition of port `p` is for customer `c`. -/
def AddsFor (p : ℤ) (c : String) (s : Admin) (a : AdminAction) : Prop :=
  ∀ q ∈ adds s a, q.1 = p → q.2 = c

instance (p : ℤ) (c : String) (s : Admin) (a : AdminAction) : Decidable (AddsFor p c s a) :=
  inferInstanceAs (Decidable (∀ _ ∈ _, _))

/-- An addition of port `p` finds it free or with the same customer; a rollback of it finds nothing
of its customer's to delete. -/
def KeepsTenant (p : ℤ) (s : Admin) (a : AdminAction) : Prop :=
  (∀ q ∈ adds s a, q.1 = p → s.portMap.customer p = none ∨ s.portMap.customer p = some q.2) ∧
    ∀ q ∈ rollsBack s a, q.1 = p → s.portMap.customer p ≠ some q.2

instance (p : ℤ) (s : Admin) (a : AdminAction) : Decidable (KeepsTenant p s a) :=
  inferInstanceAs (Decidable (_ ∧ _))

/-- The step is that of a DELETE of `p`, or of a reload whose config omits `p`, which gives the port
up. -/
def releases (p : ℤ) (s : Admin) : AdminAction → Bool
  | .run i =>
    match s.requests[i]? with
    | some (.deleteRemove port _) => port = p
    | _ => false
  | .pick i port =>
    match s.requests[i]? with
    | some (.reloadPorts st) => port = p ∧ p ∉ st.newIdx
    | _ => false
  | _ => false

/-- A removal takes one port from its customer. -/
theorem customer_removed {m m' : PortMap} {customerID : String} {port : ℤ} (p : ℤ)
    (hm : m.removePortMapping customerID port = .ok m') :
    m'.customer p = m.customer p ∨ port = p ∧ m.customer p = some customerID ∧
      m'.customer p = none := by
  obtain ⟨hc, hlook⟩ := PortMap.customer_remove _ hm
  by_cases hp : p = port
  · subst hp
    exact .inr ⟨rfl, hc, by rw [hlook, if_pos rfl]⟩
  · exact .inl (by rw [hlook, if_neg hp])

/-- So does a rollback. -/
theorem customer_rollback (s : Admin) (customerID : String) (port p : ℤ) :
    (s.rollback customerID port).customer p = s.portMap.customer p ∨ port = p ∧
      s.portMap.customer p = some customerID ∧ (s.rollback customerID port).customer p = none := by
  unfold Admin.rollback
  split
  · next hm => exact customer_removed p hm
  · exact .inl rfl

/-- A new mapping changes one port. -/
theorem customer_added {m : PortMap} {customerID service listenAddr : String} {port : ℤ}
    {maxStreams : ℤ} (p : ℤ) :
    (m.addPortMapping customerID port service listenAddr maxStreams).customer p = m.customer p ∨
      port = p ∧ (m.addPortMapping customerID port service listenAddr maxStreams).customer p =
        some customerID := by
  rw [PortMap.customer_add]
  split
  · next hp => exact .inr ⟨hp.symm, rfl⟩
  · exact .inl rfl

/-- What a step does to the customer of a port: nothing, or the port is added for one, released, or
rolled back.
SOURCE: router_impl.go:53-147 -/
theorem customer_step {isIP : String → Bool} {s s' : Admin} {a : AdminAction} (p : ℤ)
    (h : s.step isIP a = some s') :
    s'.portMap.customer p = s.portMap.customer p ∨
      (∃ c, adds s a = some (p, c) ∧ s'.portMap.customer p = some c) ∨
      s'.portMap.customer p = none ∧ (releases p s a = true ∨
        ∃ c, rollsBack s a = some (p, c) ∧ s.portMap.customer p = some c) := by
  have hm := step_mapMove h
  generalize s'.portMap = m at hm
  cases hm with
  | same => exact .inl rfl
  | update _ _ _ _ _ hm => exact .inl (PortMap.customer_update _ hm p)
  | create i req ha hpc =>
    subst ha
    refine (customer_added p).imp_right fun ⟨hp, hc⟩ => .inl ⟨_, ?_, hc⟩
    simp [adds, hpc, hp]
  | reloadAdd i st port entry ha hpc hadd hnew hold =>
    subst ha
    refine (customer_added p).imp_right fun ⟨hp, hc⟩ => .inl ⟨_, ?_, hc⟩
    subst hp
    simp [adds, hpc, hadd, hnew, hold]
  | createRollback _ _ _ ha hpc | reloadRollback _ _ _ _ ha hpc =>
    subst ha
    refine (customer_rollback s _ _ p).imp_right fun ⟨hp, hc, hn⟩ => .inr ⟨hn, .inr ⟨_, ?_, hc⟩⟩
    simp [rollsBack, hpc, hp]
  | delete i port customerID _ ha hpc hm =>
    subst ha
    refine (customer_removed p hm).imp_right fun ⟨hp, _, hn⟩ => .inr ⟨hn, .inl ?_⟩
    simp [releases, hpc, hp]
  | reloadRemove i st port entry _ ha hpc hrem hm =>
    subst ha
    refine (customer_removed p hm).imp_right fun ⟨hp, _, hn⟩ => .inr ⟨hn, .inl ?_⟩
    subst hp
    have hom : port ∉ st.newIdx := st.omitted port hrem
    simp [releases, hpc, hom]

/-- A port that is mapped to a customer is mapped to no other through every step of every request,
as long as no mapping of it is added for another; and it stays mapped to its customer as long as
none is added over it for another, no rollback deletes it, and it is not released.
SOURCE: router_impl.go:53-147; admin.go:394-481; admin_reload.go:160-278 -/
theorem tenant_kept {isIP : String → Bool} {s : Admin} {p : ℤ} {c : String}
    (hc : s.portMap.customer p = some c) :
    (∀ s', AdminReach isIP (AddsFor p c) s s' → ∀ c' ∈ s'.portMap.customer p, c' = c) ∧
    ∀ s', AdminReach isIP (fun s a => KeepsTenant p s a ∧ releases p s a = false) s s' →
      s'.portMap.customer p = some c := by
  constructor
  · intro s' h
    refine Reach.invariant (fun s => ∀ c' ∈ s.portMap.customer p, c' = c) h ?_ ?_
    · rintro c' hc'
      exact Option.some.inj (hc'.symm.trans hc)
    · intro s a s' _ hI hok hstep c' hc'
      obtain heq | ⟨d, hadd, hd⟩ | ⟨hnone, -⟩ := customer_step p hstep
      · exact hI c' (heq ▸ hc')
      · obtain rfl : d = c' := Option.some.inj (hd.symm.trans hc')
        exact hok _ hadd rfl
      · cases hnone.symm.trans hc'
  · intro s' h
    refine Reach.invariant (fun s => s.portMap.customer p = some c) h hc ?_
    intro s a s' _ hI ⟨hok, hrel⟩ hstep
    obtain heq | ⟨d, hadd, hd⟩ | ⟨-, hgone | ⟨d, hback, hd⟩⟩ := customer_step p hstep
    · exact heq.trans hI
    · have hfree := hok.1 _ hadd rfl
      rw [hI] at hfree
      exact hd.trans (hfree.resolve_left nofun).symm
    · rw [hrel] at hgone
      cases hgone
    · exact absurd hd (hok.2 _ hback rfl)

/-! ## A relay with two customers -/

/-- A run of a relay that starts from `file` and `sidecar`, evaluated to its end. -/
theorem exists_boot_of_exec (isIP : String → Bool) (file : Except String RelayConfig)
    (sidecar : SidecarFile) (ok : Admin → AdminAction → Prop) [∀ s a, Decidable (ok s a)]
    (as : List AdminAction) (P : Admin → Admin → Prop) [∀ s s', Decidable (P s s')]
    (h : (boot isIP file sidecar).toOption.any (fun s₀ =>
      (exec (guarded (fun s => s.step isIP) ok) s₀ as).any fun s => decide (P s₀ s)) = true) :
    ∃ s₀ s, boot isIP file sidecar = .ok s₀ ∧ AdminReach isIP ok s₀ s ∧ P s₀ s :=
  exists_start_of_exec as P h

/-- A config with the given ports of "acme" and "globex". -/
def twoCustomers (acme globex : List ℤ) : RelayConfig where
  server := ⟨"0.0.0.0:8443", "", "ports.json"⟩
  tls := ⟨"relay.crt", "relay.key", "ca.crt", "client-ca.crt"⟩
  customers :=
    [⟨"acme", acme.map fun p => ⟨p, "ssh", ""⟩, 0, ⟨0, 0⟩⟩,
      ⟨"globex", globex.map fun p => ⟨p, "http", ""⟩, 0, ⟨0, 0⟩⟩]

/-- One port that "globex" added at runtime before the last restart. -/
def globexSidecar : SidecarFile := .data "1" [⟨9090, "globex", "http", "127.0.0.1", 0⟩]

/-- A POST of a port for a customer. -/
def postPort (port : ℤ) (customerID : String) : AdminAction :=
  .post (some { port := port, customerID := customerID, service := "http" })

/-- A POST of a new port, a PUT, a reload that adds a port and drops another, and a DELETE: port
8080 stays with "acme", while 9090 is taken from "globex". -/
theorem tenant_kept_busy :
    ∃ s₀ s, boot (fun _ => true) (.ok (twoCustomers [8080] [8081])) globexSidecar = .ok s₀ ∧
      AdminReach (fun _ => true) (fun s a => KeepsTenant 8080 s a ∧ releases 8080 s a = false)
        s₀ s ∧
      s₀.portMap.customer 8080 = some "acme" ∧ s.portMap.customer 8081 = none ∧
      s.portMap.customer 9090 = some "acme" ∧ s.portMap.customer 8080 = some "acme" := by
  obtain ⟨s₀, s, hb, hr, hc, hn, ho⟩ := exists_boot_of_exec
    (fun _ => true) (.ok (twoCustomers [8080] [8081])) globexSidecar
    (fun s a => KeepsTenant 8080 s a ∧ releases 8080 s a = false)
    [postPort 7070 "globex", .run 0, .bind 0 .bound, .run 0, .save 0 true,
      .put 8080 (some { service := "smtp" }), .run 1, .run 1, .run 1, .save 1 true,
      .reload, .run 2, .load 2 (.ok (twoCustomers [8080, 8082] [])), .pick 2 8080, .pick 2 8082,
      .bind 2 .slow, .pick 2 8081, .run 2, .run 2, .run 2, .run 2, .save 2 true,
      postPort 9090 "acme", .run 3, .delete 7070, .run 4, .run 4, .run 4, .run 4, .save 4 false]
    (fun s₀ s => s₀.portMap.customer 8080 = some "acme" ∧ s.portMap.customer 8081 = none ∧
      s.portMap.customer 9090 = some "acme")
    (by decide)
  exact ⟨s₀, s, hb, hr, hc, hn, ho, (tenant_kept hc).2 s hr⟩

/-- Three ways a port changes hands without having been released: a POST over a mapped port; a
reload that adds a port which came from the sidecar and belongs to another customer; a refused
POST of the port's own customer, whose rollback deletes the entry that was there before, and then
a POST. -/
theorem tenant_changed :
    (∃ s₀ s, boot (fun _ => true) (.ok (twoCustomers [8080] [])) globexSidecar = .ok s₀ ∧
      AdminReach (fun _ => true) (fun s a => releases 8080 s a = false) s₀ s ∧
      s₀.portMap.customer 8080 = some "acme" ∧ s.portMap.customer 8080 = some "globex") ∧
    (∃ s₀ s, boot (fun _ => true) (.ok (twoCustomers [8080] [])) globexSidecar = .ok s₀ ∧
      AdminReach (fun _ => true) (fun s a => releases 9090 s a = false) s₀ s ∧
      s₀.portMap.customer 9090 = some "globex" ∧ s.portMap.customer 9090 = some "acme") ∧
    (∃ s₀ s, boot (fun _ => true) (.ok (twoCustomers [8080] [])) globexSidecar = .ok s₀ ∧
      AdminReach (fun _ => true) (fun s a => releases 8080 s a = false) s₀ s ∧
      s₀.portMap.customer 8080 = some "acme" ∧ s.portMap.customer 8080 = some "globex" ∧
      s.requests[0]? = some (RequestPc.done (.error 409
        "listen 0.0.0.0:8080: relay: client listener: port 8080: address already in use"))) := by
  refine ⟨?_, ?_, ?_⟩
  · exact exists_boot_of_exec _ _ _ _ [postPort 8080 "globex", .run 0] _ (by decide)
  · exact exists_boot_of_exec _ _ _ _
      [.reload, .run 0, .load 0 (.ok (twoCustomers [8080, 9090] [])), .pick 0 9090] _
      (by decide)
  · exact exists_boot_of_exec (fun _ => true) (.ok (twoCustomers [8080] [])) globexSidecar
      (fun s a => releases 8080 s a = false)
      [postPort 8080 "acme", .run 0, .bind 0 (.refused "address already in use"), .run 0,
        postPort 8080 "globex", .run 1] _ (by decide)

end Atlax.Analysis
