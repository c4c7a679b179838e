import Atlax.Analysis.Decoding
import Atlax.Model.UDP

/-!
# Datagrams in frames

Parse and Build are inverse to each other, but for the nil slice that Parse returns for an empty
datagram. A UDP_DATA frame that Build has filled is carried by the codec, and its payload parses to
what went into it.
-/

set_option autoImplicit false

namespace Atlax.Analysis

open Atlax.Model

variable {addr payload : Bytes} {data : Option Bytes} {datagram : UDPDatagram}

/-- The datagram as Parse returns it: an empty one is nil. -/
def nilIfEmpty (data : Option Bytes) : Option Bytes :=
  if data.getD [] = [] then none else some (data.getD [])

@[simp] theorem getD_nilIfEmpty (data : Option Bytes) :
    (nilIfEmpty data).getD [] = data.getD [] := by
  unfold nilIfEmpty
  split
  · next h => exact h.symm
  · rfl

/-- Build on an address whose length fits into a byte. -/
theorem buildUDPDataPayload_short (h : addr.length ≤ 255) (data : Option Bytes) :
    buildUDPDataPayload addr data =
      .ok (UInt8.ofNat addr.length :: (addr ++ data.getD [])) := by
  rw [buildUDPDataPayload, if_neg (by omega)]
  rfl

theorem buildUDPDataPayload_error :
    (∃ err, buildUDPDataPayload addr data = .error err) ↔ 255 < addr.length := by
  constructor
  · rintro ⟨err, herr⟩
    by_contra hlen
    rw [buildUDPDataPayload_short (by omega)] at herr
    cases herr
  · intro hlen
    exact ⟨.addrTooLong addr.length, by rw [buildUDPDataPayload, if_pos hlen]⟩

/-- Parse of a payload with a length byte. -/
theorem parseUDPDataPayload_cons (n : UInt8) (rest : Bytes) :
    parseUDPDataPayload (n :: rest) =
      if rest.length < n.toNat then .error (.addrLength n.toNat rest.length)
      else .ok ⟨rest.take n.toNat, nilIfEmpty (some (rest.drop n.toNat))⟩ := by
  have hshort : (n :: rest).length < 1 + n.toNat ↔ rest.length < n.toNat := by
    rw [List.length_cons]
    omega
  have hdrop : (n :: rest).drop (1 + n.toNat) = rest.drop n.toNat := by
    rw [Nat.add_comm, List.drop_succ_cons]
  unfold parseUDPDataPayload
  rw [if_neg (by simp)]
  simp only [List.getD_cons_zero, hshort, hdrop, List.length_eq_zero_iff]
  rfl

/-- What Parse accepts: a length byte, and at least that many bytes after it. -/
theorem parseUDPDataPayload_ok :
    (∃ datagram, parseUDPDataPayload payload = .ok datagram) ↔
      ∃ n rest, payload = n :: rest ∧ n.toNat ≤ rest.length := by
  constructor
  · rintro ⟨datagram, hparse⟩
    cases payload with
    | nil => cases hparse
    | cons n rest =>
      refine ⟨n, rest, rfl, ?_⟩
      by_contra hlen
      rw [parseUDPDataPayload_cons, if_pos (by omega)] at hparse
      cases hparse
  · rintro ⟨n, rest, rfl, hlen⟩
    exact ⟨_, by rw [parseUDPDataPayload_cons, if_neg (by omega)]⟩

/-- Parse after Build. -/
theorem parse_build (h : addr.length ≤ 255) (data : Option Bytes) :
    ∃ payload, buildUDPDataPayload addr data = .ok payload ∧
      parseUDPDataPayload payload = .ok ⟨addr, nilIfEmpty data⟩ := by
  have hbyte : (UInt8.ofNat addr.length).toNat = addr.length := by
    rw [UInt8.toNat_ofNat']
    exact Nat.mod_eq_of_lt (by omega)
  refine ⟨_, buildUDPDataPayload_short h data, ?_⟩
  rw [parseUDPDataPayload_cons, hbyte, if_neg (by rw [List.length_append]; omega), List.take_left,
    List.drop_left]
  rfl

/-- Build after Parse. -/
theorem build_parse (h : parseUDPDataPayload payload = .ok datagram) :
    buildUDPDataPayload datagram.sourceAddr datagram.payload = .ok payload := by
  obtain ⟨n, rest, rfl, hlen⟩ := parseUDPDataPayload_ok.mp ⟨datagram, h⟩
  rw [parseUDPDataPayload_cons, if_neg (by omega)] at h
  cases h
  have haddr : (rest.take n.toNat).length = n.toNat := List.length_take_of_le hlen
  have hbyte : n.toNat ≤ 255 := Nat.le_of_lt_succ n.toNat_lt
  rw [buildUDPDataPayload_short (by rw [haddr]; exact hbyte), haddr, UInt8.ofNat_toNat,
    getD_nilIfEmpty, Option.getD_some, List.take_append_drop]

/-- Parse and Build are inverse to each other over the whole format, nil and empty datagrams
identified.
SOURCE: udp.go:20-58 -/
theorem udpPayload_inverse :
    (∀ addr data, addr.length ≤ 255 → ∃ payload datagram,
      buildUDPDataPayload addr data = .ok payload ∧
      parseUDPDataPayload payload = .ok datagram ∧
      datagram.sourceAddr = addr ∧ datagram.payload.getD [] = data.getD []) ∧
    (∀ payload, (∃ datagram, parseUDPDataPayload payload = .ok datagram) ↔
      payload ≠ [] ∧ (payload.getD 0 0).toNat ≤ payload.length - 1) ∧
    (∀ payload datagram, parseUDPDataPayload payload = .ok datagram →
      buildUDPDataPayload datagram.sourceAddr datagram.payload = .ok payload) ∧
    (∀ addr data, (∃ err, buildUDPDataPayload addr data = .error err) ↔ 255 < addr.length) := by
  refine ⟨?_, ?_, ?_, ?_⟩
  · intro addr data hlen
    obtain ⟨payload, hbuild, hparse⟩ := parse_build hlen data
    exact ⟨payload, _, hbuild, hparse, rfl, getD_nilIfEmpty data⟩
  · intro payload
    rw [parseUDPDataPayload_ok]
    cases payload with
    | nil => simp
    | cons n rest => simp
  · intro payload datagram hparse
    exact build_parse hparse
  · intro addr data
    exact buildUDPDataPayload_error

-- an empty datagram comes back as the nil slice
example : (buildUDPDataPayload [49, 58, 50] (some [])).toOption.map parseUDPDataPayload =
    some (.ok ⟨[49, 58, 50], none⟩) := by
  decide

/-- A UDP_DATA frame on the wire: when the datagram fits into a frame, the codec carries the frame,
and the receiver parses the sender's address and data out of it.
SOURCE: udp.go:82-95, frame_codec.go:26-104 -/
theorem udpDataFrame_carried {streamID : ℕ} (hid : streamID < 2 ^ 32) (haddr : addr.length ≤ 255)
    (hlen : 1 + addr.length + (data.getD []).length ≤ maxPayloadSize) :
    ∃ f, newUDPDataFrame streamID addr data = .ok f ∧ Carried f ∧
      parseUDPDataPayload f.payload = .ok ⟨addr, nilIfEmpty data⟩ := by
  obtain ⟨payload, hbuild, hparse⟩ := parse_build haddr data
  refine ⟨_, by rw [newUDPDataFrame, hbuild], ?_, hparse⟩
  have hpayload := buildUDPDataPayload_short haddr data
  rw [hbuild] at hpayload
  cases hpayload
  refine carried rfl ?_ (by simp) hid
  simp only [List.length_cons, List.length_append]
  omega

theorem udpDataFrame_carried_one :
    ∃ f, newUDPDataFrame 2 [49] (some [7]) = .ok f ∧ Carried f ∧
      parseUDPDataPayload f.payload = .ok ⟨[49], some [7]⟩ :=
  udpDataFrame_carried (by decide) (by decide) (by decide)

end Atlax.Analysis
