import Atlax.Model.Config

/-!
# The port index of a config

`BuildPortIndex` at boot and `indexPorts` at a reload walk the same tree of customers and ports in
nested loops of their own. The first refuses a port it has seen, the second overwrites. Both are
brought to one loop over the flat list of entries. The checked loop goes through exactly when no
port occurs twice in that list, and then has inserted what the other inserts, entry by entry.
-/

set_option autoImplicit false

namespace Atlax.Analysis

open Atlax.Model

/-- The port entries of a list of customers in the order of the loops, each with its customer. -/
def portEntries (customers : List CustomerConfig) : List (CustomerConfig × PortConfig) :=
  customers.flatMap fun c => c.ports.map fun p => (c, p)

/-- One entry of `indexPorts`.
SOURCE: admin_reload.go:347-357 -/
def setIndexPort (out : PortIndex) (e : CustomerConfig × PortConfig) : PortIndex :=
  out.insert e.2.port (portEntry e.1 e.2)

theorem buildPortIndex_flat (customers : List CustomerConfig) :
    buildPortIndex customers =
      (portEntries customers).foldlM (fun idx e => addIndexPort e.1 idx e.2) ∅ := by
  unfold buildPortIndex portEntries
  generalize (∅ : PortIndex) = idx
  induction customers generalizing idx with
  | nil => rfl
  | cons c cs ih =>
    rw [List.foldlM_cons, List.flatMap_cons, List.foldlM_append, List.foldlM_map]
    congr 1
    funext idx'
    exact ih idx'

theorem indexPorts_flat (cfg : RelayConfig) :
    indexPorts (some cfg) = (portEntries cfg.customers).foldl setIndexPort ∅ := by
  rw [portEntries, List.foldl_flatMap]
  simp only [List.foldl_map]
  rfl

/-- The checked loop on entries with distinct ports, none of which is in the index. -/
theorem foldlM_addIndexPort {es : List (CustomerConfig × PortConfig)} {idx : PortIndex}
    (hnodup : (es.map fun e => e.2.port).Nodup) (hnew : ∀ e ∈ es, e.2.port ∉ idx) :
    es.foldlM (fun idx e => addIndexPort e.1 idx e.2) idx = .ok (es.foldl setIndexPort idx) := by
  induction es generalizing idx with
  | nil => rfl
  | cons e es ih =>
    rw [List.map_cons, List.nodup_cons] at hnodup
    have hfree : idx.lookup e.2.port = none := AList.lookup_eq_none.mpr (hnew e List.mem_cons_self)
    have hadd : addIndexPort e.1 idx e.2 = .ok (setIndexPort idx e) := by
      unfold addIndexPort
      rw [hfree]
      rfl
    rw [List.foldlM_cons, hadd, List.foldl_cons]
    apply ih hnodup.2
    intro e' he' hmem
    obtain hport | hold := (AList.mem_insert idx).mp hmem
    · exact hnodup.1 (hport ▸ List.mem_map_of_mem he')
    · exact hnew e' (List.mem_cons_of_mem _ he') hold

/-- The checked loop goes through only on such entries. -/
theorem nodup_of_foldlM_addIndexPort {es : List (CustomerConfig × PortConfig)}
    {idx idx' : PortIndex} (h : es.foldlM (fun idx e => addIndexPort e.1 idx e.2) idx = .ok idx') :
    (es.map fun e => e.2.port).Nodup ∧ ∀ e ∈ es, e.2.port ∉ idx := by
  induction es generalizing idx with
  | nil => exact ⟨List.nodup_nil, by simp⟩
  | cons e es ih =>
    rw [List.foldlM_cons] at h
    have hadd : idx.lookup e.2.port = none ∧
        addIndexPort e.1 idx e.2 = .ok (setIndexPort idx e) := by
      unfold addIndexPort at h ⊢
      cases hl : idx.lookup e.2.port with
      | some existing =>
        rw [hl] at h
        cases h
      | none => exact ⟨rfl, rfl⟩
    rw [hadd.2] at h
    obtain ⟨hnodup, hnew⟩ := ih h
    refine ⟨?_, ?_⟩
    · rw [List.map_cons, List.nodup_cons]
      refine ⟨?_, hnodup⟩
      intro hmem
      obtain ⟨e', he', hport⟩ := List.mem_map.mp hmem
      exact hnew e' he' ((AList.mem_insert idx).mpr (.inl hport))
    · intro e' he'
      obtain rfl | hmem := List.mem_cons.mp he'
      · exact AList.lookup_eq_none.mp hadd.1
      · exact fun hold => hnew e' hmem ((AList.mem_insert idx).mpr (.inr hold))

/-- On a config without conflicts the boot path and the reload path build one index. -/
theorem buildPortIndex_eq {cfg : RelayConfig} {idx : PortIndex}
    (h : buildPortIndex cfg.customers = .ok idx) : indexPorts (some cfg) = idx := by
  rw [buildPortIndex_flat] at h
  obtain ⟨hnodup, hnew⟩ := nodup_of_foldlM_addIndexPort h
  rw [foldlM_addIndexPort hnodup hnew] at h
  rw [indexPorts_flat]
  exact Except.ok.inj h

/-- `BuildPortIndex` fails exactly when two port entries have one port, of one customer or of two;
otherwise it builds what `indexPorts` builds from any config with these customers.
SOURCE: loader.go:169-194, admin_reload.go:337-361 -/
theorem buildPortIndex_correct (customers : List CustomerConfig) :
    ((∃ e, buildPortIndex customers = .error e) ↔
      ¬ (customers.flatMap fun c => c.ports.map fun p => p.port).Nodup) ∧
    ∀ idx, buildPortIndex customers = .ok idx → ∀ cfg : RelayConfig, cfg.customers = customers →
      indexPorts (some cfg) = idx := by
  have hports : (customers.flatMap fun c => c.ports.map fun p => p.port) =
      (portEntries customers).map fun e => e.2.port := by
    rw [portEntries, List.map_flatMap]
    simp only [List.map_map]
    rfl
  refine ⟨?_, ?_⟩
  · rw [hports]
    constructor
    · rintro ⟨e, he⟩ hnodup
      rw [buildPortIndex_flat, foldlM_addIndexPort hnodup (by simp)] at he
      cases he
    · intro hdup
      cases h : buildPortIndex customers with
      | error e => exact ⟨e, rfl⟩
      | ok idx =>
        rw [buildPortIndex_flat] at h
        exact absurd (nodup_of_foldlM_addIndexPort h).1 hdup
  · rintro idx h cfg rfl
    exact buildPortIndex_eq h

end Atlax.Analysis
