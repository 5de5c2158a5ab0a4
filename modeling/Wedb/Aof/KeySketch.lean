import Mathlib.Tactic.Common

/-!
# How far a virtual sublog has been replayed

A replica keeps, for each virtual sublog, the largest number it has begun to replay and a sketch of
`2 ^ 15` cells that holds, for each key, at least the number of the last operation on it
(`wnode::aof::readconsistency::virtual_sublog_replay_state`). Both only grow.
-/

namespace Wedb.Aof

/-- `AtomicI64::fetch_max`, as the value that is left. -/
def fetchMax (old new : Int64) : Int64 := if old ≤ new then new else old

lemma le_fetchMax_left (old new : Int64) : old ≤ fetchMax old new := by
  unfold fetchMax
  split
  · assumption
  · exact Int64.le_refl _

lemma le_fetchMax_right (old new : Int64) : new ≤ fetchMax old new := by
  unfold fetchMax
  split
  · exact Int64.le_refl _
  · exact Int64.le_of_lt (Int64.not_le.1 ‹_›)

structure VirtualSublogReplayState where
  sketch : Nat → Int64
  frontier : Int64

namespace VirtualSublogReplayState

def sketchSlotSize : Nat := 1 <<< 15

def sketchSlotMask : Nat := sketchSlotSize - 1

/-- The cell of a hash is chosen by its upper half. -/
def getSketchSlot (hash : Int64) : Nat := hash.toUInt64.toNat >>> 32 &&& sketchSlotMask

def new : VirtualSublogReplayState := ⟨fun _ => 0, 0⟩

def getKeySequenceNumber (vsr : VirtualSublogReplayState) (hash : Int64) : Int64 :=
  vsr.sketch (getSketchSlot hash)

def updateMaxSequenceNumber (vsr : VirtualSublogReplayState) (sequenceNumber : Int64) :
    VirtualSublogReplayState :=
  { vsr with frontier := fetchMax vsr.frontier sequenceNumber }

def updateKeySequenceNumber (vsr : VirtualSublogReplayState) (hash sequenceNumber : Int64) :
    VirtualSublogReplayState :=
  { vsr with
    sketch := Function.update vsr.sketch (getSketchSlot hash)
      (fetchMax (vsr.sketch (getSketchSlot hash)) sequenceNumber) }

variable (vsr : VirtualSublogReplayState) (hash sequenceNumber : Int64)

@[simp] lemma frontier_updateKeySequenceNumber :
    (vsr.updateKeySequenceNumber hash sequenceNumber).frontier = vsr.frontier := rfl

lemma le_getKeySequenceNumber_update :
    sequenceNumber ≤
      (vsr.updateKeySequenceNumber hash sequenceNumber).getKeySequenceNumber hash := by
  simp only [getKeySequenceNumber, updateKeySequenceNumber, Function.update_self]
  exact le_fetchMax_right _ _

/-- The sketch never shrinks, whatever key is raised. -/
lemma getKeySequenceNumber_le_update (other : Int64) :
    vsr.getKeySequenceNumber other ≤
      (vsr.updateKeySequenceNumber hash sequenceNumber).getKeySequenceNumber other := by
  simp only [getKeySequenceNumber, updateKeySequenceNumber]
  by_cases hslot : getSketchSlot other = getSketchSlot hash
  · rw [hslot, Function.update_self]
    exact le_fetchMax_left _ _
  · rw [Function.update_of_ne hslot]
    exact Int64.le_refl _

end VirtualSublogReplayState

end Wedb.Aof
