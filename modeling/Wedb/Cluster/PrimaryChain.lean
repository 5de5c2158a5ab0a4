import Wedb.Lib.Links
import Wedb.Cluster.Config

/-!
# Replication rings

Before a node becomes a replica of another one, `try_add_replica` walks from that node along the links
to the primaries and refuses when it meets itself. The links of a view may lead to unknown nodes or run
in a ring, so the walk gives up after as many links as there are workers.
-/

namespace Wedb.Cluster.ClusterConfig

/-- The node a known worker replicates. -/
def primaryOf (c : ClusterConfig) (id : NodeId) : Option NodeId :=
  (workerByNodeId c.workers id).bind fun i => c.workers[i]?.bind Worker.replicaOfNodeId

def primaryChainHits (c : ClusterConfig) (node target : NodeId) : Bool :=
  Links.meets c.primaryOf target c.workers.length node

/-- The identities of the workers, without the reserved one. -/
def knownIds (c : ClusterConfig) : List NodeId := (c.workers.drop 1).filterMap Worker.nodeid

lemma mem_knownIds_of_primaryOf {c : ClusterConfig} {id primary : NodeId}
    (h : c.primaryOf id = some primary) : id ∈ c.knownIds := by
  obtain ⟨i, hi, -⟩ := Option.bind_eq_some_iff.1 h
  obtain ⟨hpos, hid, -⟩ := workerByNodeId_eq_some.1 hi
  obtain ⟨w, hw, hwid⟩ := nodeIdAt_eq_some.1 hid
  refine List.mem_filterMap.2 ⟨w, List.mem_of_getElem? (i := i - 1) ?_, hwid⟩
  rwa [List.getElem?_drop, Nat.add_sub_cancel' hpos]

/-- The walk finds the target exactly when links of known workers lead to it: it does not give up too
early, whatever rings and unknown nodes the view has. -/
theorem primaryChainHits_iff (c : ClusterConfig) (node target : NodeId) :
    c.primaryChainHits node target ↔
      ∃ id, c.primaryOf node = some id ∧ Links.Follows c.primaryOf id target := by
  constructor
  · exact Links.follows_of_meets
  · rintro ⟨id, hid, hfollows⟩
    apply hfollows.meets (fun _ _ => mem_knownIds_of_primaryOf) _ hid
    exact (List.length_filterMap_le ..).trans (by simp)

end Wedb.Cluster.ClusterConfig
