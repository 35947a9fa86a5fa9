import Mathlib.Data.List.Basic
import Interconnect.Proofs.Binding.Acceptance

/-!
# The customary attachment

The customary router of every node of a topology exists: a cube and a fat tree deal their nodes out
in groups of equal size, the last of which is that of the last router that takes nodes, and a custom
topology takes its routers in turn.  So the customary router map has an entry for every node, and a
network with this map fits the topology (`Topology.fits_of_routerMap_eq`).
-/

namespace Interconnect

/-! ## The router of a node -/

theorem Cube.routerOf_lt (cube : Cube) {node : UInt64} (h : node.toNat < cube.nodes.toNat) :
    (cube.routerOf node).toNat < cube.routers.toNat := by
  rw [routerOf, UInt64.toNat_div]
  apply Nat.div_lt_of_lt_mul
  rwa [Nat.mul_comm, ← cube.nodes_eq]

theorem FatTree.edgeOf_lt (tree : FatTree) {node : UInt64} (h : node.toNat < tree.nodes.toNat) :
    (tree.edgeOf node).toNat < tree.routers.toNat := by
  rw [tree.nodes_eq, ← tree.toNat_half, Nat.mul_comm] at h
  have hedge : (tree.edgeOf node).toNat < tree.arity.toNat * tree.half.toNat := by
    rw [edgeOf, UInt64.toNat_div]
    exact Nat.div_lt_of_lt_mul h
  calc
    (tree.edgeOf node).toNat < tree.arity.toNat * tree.half.toNat := hedge
    _ ≤ 2 * tree.arity.toNat * tree.half.toNat := by
      rw [Nat.mul_assoc]
      exact Nat.le_mul_of_pos_left _ Nat.two_pos
    _ ≤ tree.routers.toNat := by
      rw [tree.routers_eq, tree.toNat_half]
      exact Nat.le_add_right _ _

namespace Topology

variable (topology : Topology)

theorem homeOf_lt {node : UInt64} (h : node.toNat < topology.nodes.toNat) :
    (topology.homeOf node).toNat < topology.routers.toNat := by
  cases topology with
  | cube c => exact c.routerOf_lt h
  | fatTree t => exact t.edgeOf_lt h
  | dumbbell => exact h
  | custom routers nodes attachable nodes_le routers_lt =>
    have hpos : 0 < routers.toNat := by
      apply Nat.pos_of_ne_zero
      intro hzero
      have hnodes : nodes.toNat = 0 := attachable hzero
      exact absurd h (by simp [Topology.nodes, hnodes])
    change (node % routers).toNat < routers.toNat
    rw [UInt64.toNat_mod]
    exact Nat.mod_lt _ hpos

theorem hasRouter_homeOf {node : UInt64} (h : node.toNat < topology.nodes.toNat) :
    topology.HasRouter (topology.homeOf node).toInt64 := by
  have hlt := topology.homeOf_lt h
  rw [HasRouter, Word.toInt_toInt64_of_lt (Nat.lt_trans hlt topology.routers_lt)]
  exact ⟨Int.natCast_nonneg _, Int.ofNat_lt.mpr hlt⟩

/-! ## The customary router map -/

theorem defaultRouterOf?_ofNat {node : ℕ} (h : node < topology.nodes.toNat) :
    topology.defaultRouterOf? (UInt64.ofNat node) = some (topology.homeOf (UInt64.ofNat node)) := by
  have hnode : (UInt64.ofNat node).toNat = node :=
    UInt64.toNat_ofNat_of_lt' (Nat.lt_trans h topology.nodes.toNat_lt)
  apply if_pos
  rwa [UInt64.lt_iff_toNat_lt, hnode]

/-- No node is left out. -/
theorem defaultRouterMap_eq :
    topology.defaultRouterMap =
      (Array.range topology.nodes.toNat).map fun node ↦
        (topology.homeOf (UInt64.ofNat node)).toInt64 := by
  apply Array.toList_inj.mp
  rw [defaultRouterMap, Array.toList_filterMap, Array.toList_map, ← List.filterMap_eq_map]
  apply List.filterMap_congr
  intro node hnode
  rw [Array.toList_range, List.mem_range] at hnode
  rw [topology.defaultRouterOf?_ofNat hnode]
  rfl

@[simp]
theorem size_defaultRouterMap : topology.defaultRouterMap.size = topology.nodes.toNat := by
  simp [defaultRouterMap_eq]

theorem getElem?_defaultRouterMap {node : ℕ} (h : node < topology.nodes.toNat) :
    topology.defaultRouterMap[node]? = some (topology.homeOf (UInt64.ofNat node)).toInt64 := by
  simp [defaultRouterMap_eq, h]

theorem hasRouter_of_mem_defaultRouterMap {router : Int64}
    (h : router ∈ topology.defaultRouterMap) :
    topology.HasRouter router := by
  obtain ⟨node, hnode⟩ := Array.mem_iff_getElem?.mp h
  have hlt : node < topology.nodes.toNat := by
    rw [← topology.size_defaultRouterMap]
    exact (Array.getElem?_eq_some_iff.mp hnode).1
  have hword : (UInt64.ofNat node).toNat < topology.nodes.toNat := by
    rwa [UInt64.toNat_ofNat_of_lt' (Nat.lt_trans hlt topology.nodes.toNat_lt)]
  rw [topology.getElem?_defaultRouterMap hlt] at hnode
  exact Option.some.inj hnode ▸ topology.hasRouter_homeOf hword

theorem fits_of_routerMap_eq {network : Network}
    (h : network.routerMap = topology.defaultRouterMap) :
    Binding.Fits network topology := by
  constructor
  · rw [Network.size, h, size_defaultRouterMap]
  · rw [h]
    intro router
    exact topology.hasRouter_of_mem_defaultRouterMap

end Topology

end Interconnect
