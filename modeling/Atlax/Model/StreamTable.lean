import Atlax.Model.Goroutine
import Mathlib.Data.List.AList

/-!
# The stream table

What a session's main mutex protects as far as identifiers go: the map from identifiers to
streams, the counter of fresh identifiers and the free list (mux_session.go). Every section under
that mutex either leaves the table alone, allocates an identifier, inserts a peer's stream, or
removes an entry in one of two ways: with a test that the entry is there, or without one.
-/

set_option autoImplicit false

namespace Atlax.Model

/-- The streams map, the counter and the free list; the last identifier freed comes first.
SOURCE: mux_session.go:41-43 -/
structure StreamTable where
  streams : AList (fun _ : ℕ => Ref)
  nextStreamID : ℕ
  freeIDs : List ℕ := []

/-- SOURCE: mux_session.go:78-81 -/
def startID : Role → ℕ
  | .relay => 1
  | .agent => 2

def newStreamTable (role : Role) : StreamTable := { streams := ∅, nextStreamID := startID role }

namespace StreamTable

variable (t : StreamTable)

/-- The entry under an identifier. -/
def get (id : ℕ) : Option Ref := t.streams.lookup id

/-- SOURCE: mux_session.go:726-728 -/
def ownsID (id : ℕ) : Bool := id % 2 == t.nextStreamID % 2

/-- SOURCE: mux_session.go:719-723 -/
def freeID (id : ℕ) : StreamTable :=
  if id % 2 = t.nextStreamID % 2 then { t with freeIDs := id :: t.freeIDs } else t

/-- The identifier `OpenStream` takes: the last one freed, else the counter, which is a uint32.
SOURCE: mux_session.go:122-129 -/
def allocID : ℕ × StreamTable :=
  match t.freeIDs with
  | id :: rest => (id, { t with freeIDs := rest })
  | [] => (t.nextStreamID, { t with nextStreamID := (t.nextStreamID + 2) % 2 ^ 32 })

def insert (id : ℕ) (r : Ref) : StreamTable := { t with streams := t.streams.insert id r }

/-- The section of `maybeRemoveStream`: delete and free, whatever the map holds.
SOURCE: mux_session.go:643-646 -/
def remove (id : ℕ) : StreamTable := { t with streams := t.streams.erase id }.freeID id

/-- The sections of `removeStream`, of the reset callback and at the end of
`handleStreamReset`: delete and free if the identifier is present.
SOURCE: mux_session.go:507-511, 652-658, 693-699 -/
def removePresent (id : ℕ) : StreamTable :=
  match t.get id with
  | some _ => t.remove id
  | none => t

@[simp] theorem get_insert (id : ℕ) (r : Ref) (i : ℕ) :
    (t.insert id r).get i = if i = id then some r else t.get i := by
  unfold get insert
  split
  · next h => subst h; simp
  · next h => simp [AList.lookup_insert_ne h]

@[simp] theorem freeID_streams (id : ℕ) : (t.freeID id).streams = t.streams := by
  unfold freeID
  split <;> rfl

@[simp] theorem freeID_nextStreamID (id : ℕ) : (t.freeID id).nextStreamID = t.nextStreamID := by
  unfold freeID
  split <;> rfl

@[simp] theorem remove_nextStreamID (id : ℕ) : (t.remove id).nextStreamID = t.nextStreamID := by
  simp [remove]

@[simp] theorem removePresent_nextStreamID (id : ℕ) :
    (t.removePresent id).nextStreamID = t.nextStreamID := by
  unfold removePresent
  split <;> simp

@[simp] theorem get_remove (id i : ℕ) :
    (t.remove id).get i = if i = id then none else t.get i := by
  unfold remove get
  rw [freeID_streams]
  split
  · next h => subst h; simp
  · next h => simp [AList.lookup_erase_ne h]

@[simp] theorem get_removePresent (id i : ℕ) :
    (t.removePresent id).get i = if i = id then none else t.get i := by
  unfold removePresent
  split
  · simp
  · next h =>
    split
    · next hi => rw [hi, h]
    · rfl

theorem allocID_of_cons {id : ℕ} {rest : List ℕ} (h : t.freeIDs = id :: rest) :
    t.allocID = (id, { t with freeIDs := rest }) := by
  simp [allocID, h]

theorem allocID_of_nil (h : t.freeIDs = []) :
    t.allocID = (t.nextStreamID, { t with nextStreamID := (t.nextStreamID + 2) % 2 ^ 32 }) := by
  simp [allocID, h]

@[simp] theorem get_allocID (i : ℕ) : t.allocID.2.get i = t.get i := by
  unfold allocID
  split <;> rfl

end StreamTable

end Atlax.Model
