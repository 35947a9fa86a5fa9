import Mathlib.Algebra.GroupWithZero.Nat
import Mathlib.Data.List.Nodup
import Interconnect.Proofs.Binding.Acceptance

/-!
# The two directions of a binding

The nodes on a router are those of the attachments to it, in the order of the nodes
(`Binding.nodesOn_eq_filter`).  From this one equation both directions answer alike, every list of
nodes ascends, and the lists of all routers together hold every node once.
-/

namespace Interconnect

theorem Network.map_node_attachments (network : Network) :
    network.attachments.toList.map (·.node) = List.range network.size := by
  apply List.ext_getElem?
  intro i
  rw [List.getElem?_map, Array.getElem?_toList, network.getElem?_attachments, Option.map_map]
  by_cases h : i < network.size
  · have hsize : i < network.routerMap.size := h
    rw [Array.getElem?_eq_getElem hsize, List.getElem?_range h]
    rfl
  · rw [Array.getElem?_eq_none (Nat.le_of_not_lt h),
      List.getElem?_eq_none (by simpa using Nat.le_of_not_lt h)]
    rfl

theorem Network.pairwise_attachments (network : Network) :
    network.attachments.toList.Pairwise (·.node < ·.node) := by
  have h : (network.attachments.toList.map (·.node)).Pairwise (· < ·) := by
    rw [network.map_node_attachments]
    exact List.pairwise_lt_range
  exact List.pairwise_map.mp h

theorem Network.routerOf?_isSome_iff {network : Network} {node : ℕ} :
    (network.routerOf? node).isSome ↔ node < network.size := by
  rw [routerOf?, size]
  simp

namespace Binding

variable (binding : Binding)

theorem hasRouter_of_mem {a : Attachment} (h : a ∈ binding.network.attachments) :
    binding.topology.HasRouter a.router := by
  have hindex := binding.index_eq
  rw [indexOf_eq, foldlM_place_eq_ok_iff] at hindex
  exact hindex.1 a (Array.mem_toList_iff.mpr h)

theorem hasRouter_of_routerOf?_eq_some {node : ℕ} {router : Int64}
    (h : binding.routerOf? node = some router) : binding.topology.HasRouter router :=
  binding.hasRouter_of_mem (a := ⟨node, router⟩) (Network.mem_attachments.mpr h)

/-- For any signed number, whether or not it is that of a router. -/
theorem nodesOn_eq_filter (router : Int64) :
    binding.nodesOn router =
      (binding.network.attachments.toList.filter (·.router = router)).map (·.node) := by
  have hindex := binding.index_eq
  rw [indexOf_eq, foldlM_place_eq_ok_iff] at hindex
  obtain ⟨hknown, hindex⟩ := hindex
  unfold nodesOn
  by_cases hneg : router.toInt < 0
  · have hnone : ∀ a ∈ binding.network.attachments.toList, ¬ (a.router = router) := by
      intro a ha heq
      have hnonneg := (hknown a ha).1
      rw [heq] at hnonneg
      exact absurd hnonneg (Int.not_le.mpr hneg)
    have hempty : binding.network.attachments.toList.filter (·.router = router) = [] :=
      List.filter_eq_nil_iff.mpr fun a ha ↦ by simpa using hnone a ha
    rw [Word.ofSigned?_of_neg hneg, hempty]
    rfl
  · rw [Word.ofSigned?_of_nonneg (Int.not_lt.mp hneg), hindex]
    change ((∅ : RouterIndex).pushAll _).nodesOn router.toUInt64 = _
    rw [RouterIndex.nodesOn_pushAll, RouterIndex.nodesOn_empty, List.nil_append]

theorem mem_nodesOn_iff {node : ℕ} {router : Int64} :
    node ∈ binding.nodesOn router ↔ binding.routerOf? node = some router := by
  rw [nodesOn_eq_filter, List.mem_map]
  constructor
  · intro hnode
    rcases hnode with ⟨a, ha, rfl⟩
    obtain ⟨hmem, hrouter⟩ := List.mem_filter.mp ha
    rw [decide_eq_true_iff] at hrouter
    exact hrouter ▸ Network.mem_attachments.mp (Array.mem_toList_iff.mp hmem)
  · intro h
    have hmem : (⟨node, router⟩ : Attachment) ∈ binding.network.attachments :=
      Network.mem_attachments.mpr h
    exact ⟨⟨node, router⟩, List.mem_filter.mpr ⟨Array.mem_toList_iff.mpr hmem, by simp⟩, rfl⟩

theorem pairwise_nodesOn (router : Int64) : (binding.nodesOn router).Pairwise (· < ·) := by
  rw [nodesOn_eq_filter]
  exact List.pairwise_map.mpr (binding.network.pairwise_attachments.filter _)

theorem nodesOn_eq_nil {router : Int64} (h : ¬ binding.topology.HasRouter router) :
    binding.nodesOn router = [] := by
  apply List.eq_nil_iff_forall_not_mem.mpr
  intro node hnode
  exact h (binding.hasRouter_of_routerOf?_eq_some (binding.mem_nodesOn_iff.mp hnode))

/-! ## All routers together -/

/-- A router of the topology by its number, which the signed range holds. -/
theorem toInt_ofNat_router {r : ℕ} (h : r < binding.topology.routers.toNat) :
    (Int64.ofNat r).toInt = r :=
  Int64.toInt_ofNat_of_lt (Nat.lt_trans h binding.topology.routers_lt)

theorem mem_flatMap_nodesOn_iff {node : ℕ} :
    node ∈ (List.range binding.topology.routers.toNat).flatMap
        (fun r ↦ binding.nodesOn (Int64.ofNat r)) ↔ node < binding.network.size := by
  rw [List.mem_flatMap, ← Network.routerOf?_isSome_iff]
  constructor
  · intro hmem
    rcases hmem with ⟨r, -, hnode⟩
    rw [show binding.network.routerOf? node = some (Int64.ofNat r) from
      binding.mem_nodesOn_iff.mp hnode]
    rfl
  · intro h
    obtain ⟨router, hrouter⟩ := Option.isSome_iff_exists.mp h
    obtain ⟨hnonneg, hlt⟩ := binding.hasRouter_of_routerOf?_eq_some hrouter
    have hr : router.toInt.toNat < binding.topology.routers.toNat := by omega
    have hback : Int64.ofNat router.toInt.toNat = router := by
      rw [← Int64.toInt_inj, binding.toInt_ofNat_router hr, Int.toNat_of_nonneg hnonneg]
    refine ⟨router.toInt.toNat, List.mem_range.mpr hr, ?_⟩
    rw [hback]
    exact binding.mem_nodesOn_iff.mpr hrouter

theorem nodup_flatMap_nodesOn :
    ((List.range binding.topology.routers.toNat).flatMap
      fun r ↦ binding.nodesOn (Int64.ofNat r)).Nodup := by
  rw [List.nodup_flatMap]
  constructor
  · intro r _
    exact (binding.pairwise_nodesOn _).imp Nat.ne_of_lt
  · refine List.Pairwise.imp_of_mem (fun {r s} hr hs hlt node hnr hns ↦ ?_)
      List.pairwise_lt_range
    have heq : some (Int64.ofNat r) = some (Int64.ofNat s) := by
      rw [← binding.mem_nodesOn_iff.mp hnr, binding.mem_nodesOn_iff.mp hns]
    have hint := congrArg Int64.toInt (Option.some.inj heq)
    rw [binding.toInt_ofNat_router (List.mem_range.mp hr),
      binding.toInt_ofNat_router (List.mem_range.mp hs)] at hint
    omega

theorem flatMap_nodesOn_perm :
    ((List.range binding.topology.routers.toNat).flatMap
      fun r ↦ binding.nodesOn (Int64.ofNat r)).Perm (List.range binding.network.size) := by
  apply (List.perm_ext_iff_of_nodup binding.nodup_flatMap_nodesOn List.nodup_range).mpr
  intro node
  rw [mem_flatMap_nodesOn_iff, List.mem_range]

/-- What a successful attachment answers about nodes and routers: the two directions are inverse to
each other, for numbers of no router too, the forward one is the router map, the lists of nodes
ascend, and together they hold every node exactly once. -/
theorem nodesOn_inverse_of_attach {network : Network} {topology : Topology} {binding : Binding}
    (h : attach network topology = .ok binding) :
    (∀ (node : ℕ) (router : Int64),
        node ∈ binding.nodesOn router ↔ binding.routerOf? node = some router) ∧
      (∀ node < topology.nodes.toNat, ∃ router, network.routerMap[node]? = some router ∧
        binding.routerOf? node = some router) ∧
      (∀ node, topology.nodes.toNat ≤ node → binding.routerOf? node = none) ∧
      (∀ router, (binding.nodesOn router).Pairwise (· < ·)) ∧
      ((List.range topology.routers.toNat).flatMap
        fun r ↦ binding.nodesOn (Int64.ofNat r)).Perm (List.range topology.nodes.toNat) ∧
      ((List.range topology.routers.toNat).map
        fun r ↦ (binding.nodesOn (Int64.ofNat r)).length).sum = topology.nodes.toNat ∧
      ∀ router : Int64, router.toInt < 0 ∨ topology.routers.toNat ≤ router.toInt →
        binding.nodesOn router = [] := by
  obtain ⟨rfl, rfl⟩ := network_of_attach_eq_ok h
  have hperm := binding.flatMap_nodesOn_perm
  rw [binding.size_eq] at hperm
  refine ⟨fun _ _ ↦ binding.mem_nodesOn_iff, ?_, ?_, binding.pairwise_nodesOn, hperm, ?_, ?_⟩
  · intro node hnode
    rw [← binding.size_eq] at hnode
    obtain ⟨router, hrouter⟩ := Option.isSome_iff_exists.mp (Network.routerOf?_isSome_iff.mpr hnode)
    exact ⟨router, hrouter, hrouter⟩
  · intro node hnode
    rw [← binding.size_eq] at hnode
    exact Array.getElem?_eq_none hnode
  · rw [← List.length_flatMap, hperm.length_eq, List.length_range]
  · intro router hout
    refine binding.nodesOn_eq_nil fun hhas ↦ ?_
    rcases hout with hneg | hpast
    · exact absurd hhas.1 (Int.not_le.mpr hneg)
    · exact absurd hhas.2 (Int.not_lt.mpr hpast)

/-- Both nodes of a dumbbell on its second router; there is none before the first or past the
last. -/
theorem nodesOn_dumbbell :
    ∃ binding, attach (.withDefaultConfig #[1, 1]) .dumbbell = .ok binding ∧
      0 ∈ binding.nodesOn 1 ∧ 1 ∈ binding.nodesOn 1 ∧ binding.nodesOn (-1) = [] ∧
        binding.nodesOn 2 = [] := by
  have hone : ∀ router ∈ (Network.withDefaultConfig #[1, 1]).routerMap, router = 1 := by
    simp [Network.withDefaultConfig]
  have hfits : Fits (.withDefaultConfig #[1, 1]) .dumbbell := by
    refine ⟨rfl, fun router hrouter ↦ ?_⟩
    rw [hone router hrouter]
    decide
  obtain ⟨binding, hattach, -⟩ := exists_attach_eq_ok hfits
  obtain ⟨hmem, hforward, -, -, -, -, hnone⟩ := nodesOn_inverse_of_attach hattach
  have hon (node : ℕ) (h : node < 2) : node ∈ binding.nodesOn 1 := by
    obtain ⟨router, hget, hrouter⟩ := hforward node h
    rw [← hone router (Array.mem_of_getElem? hget)]
    exact (hmem node router).mpr hrouter
  exact ⟨binding, hattach, hon 0 (by decide), hon 1 (by decide), hnone (-1) (.inl (by decide)),
    hnone 2 (.inr (by decide))⟩

end Binding

end Interconnect
