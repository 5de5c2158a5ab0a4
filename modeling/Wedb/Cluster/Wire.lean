import Wedb.Lib.RunLength
import Wedb.Cluster.Config

/-!
# Wire format of the configuration

Gossip carries configurations as a version byte and a coded structure (`cluster_config::serializer`):
the slots as runs of equal slots, and the workers from the local one on. The coding of the structure
itself is taken as given, a decoder that inverts its encoder.
-/

namespace Wedb.Cluster

open List RunLength

abbrev Byte := UInt8

structure SlotSegmentWire where
  count : Nat
  workerId : Nat
  state : Byte
deriving DecidableEq

def SlotState.toByte : SlotState → Byte
  | .offline => 0
  | .stable => 1
  | .migrating => 2
  | .importing => 3
  | .fail => 4
  | .node => 5
  | .invalid => 6

def SlotState.fromRepr : Byte → Option SlotState
  | 0 => some .offline
  | 1 => some .stable
  | 2 => some .migrating
  | 3 => some .importing
  | 4 => some .fail
  | 5 => some .node
  | 6 => some .invalid
  | _ => none

/-- The loop over the slots, with the segment that is being counted. Counts are 16 bits wide. -/
def segmentsFrom (current : SlotSegmentWire) : List HashSlot → List SlotSegmentWire
  | [] => [current]
  | slot :: rest =>
    if slot.workerId = current.workerId ∧ slot.state.toByte = current.state then
      segmentsFrom { current with count := asU16 (current.count + 1) } rest
    else current :: segmentsFrom ⟨1, slot.workerId, slot.state.toByte⟩ rest

def segments : List HashSlot → List SlotSegmentWire
  | [] => []
  | first :: rest => segmentsFrom ⟨1, first.workerId, first.state.toByte⟩ rest

/-- The segment of a run. -/
def segmentOf (run : HashSlot × Nat) : SlotSegmentWire := ⟨run.2, run.1.workerId, run.1.state.toByte⟩

variable {limit : Nat}

variable {c : ClusterConfig}

end Wedb.Cluster
