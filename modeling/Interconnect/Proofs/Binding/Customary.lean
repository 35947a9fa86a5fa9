import Mathlib.Data.Int.CardIntervalMod
import Interconnect.Proofs.Binding.Inverse
import Interconnect.Proofs.Topology.Attachment
import Interconnect.Proofs.Topology.Numbering

/-!
# Customary bindings

A network with the customary router map of a topology always binds, and spreads the nodes over the
routers by the rule of the design (`Design.customaryNodes`): in consecutive groups over the routers
of a cube and over the edge switches of a fat tree, one by one over a dumbbell, and in turn over the
routers of a custom design, so that no two of these differ by more than one node.  Both the list of
a router and the list of the rule ascend, so that it is enough to compare their members: the node
belongs to a router by the rule exactly when the router is its customary one
(`Design.mem_customaryNodes_iff`).
-/

namespace Interconnect

/-- The nodes that a design of this kind puts on a router, by the parameters that are asked for. -/
def Design.customaryNodes : Design → ℕ → List ℕ
  | mesh _ _ concentration, r => List.range' (r * concentration.toNat) concentration.toNat
  | torus _ _ concentration, r => List.range' (r * concentration.toNat) concentration.toNat
  | fatTree arity, r =>
    if r < arity.toNat * (arity.toNat / 2) then
      List.range' (r * (arity.toNat / 2)) (arity.toNat / 2)
    else []
  | dumbbell, r => [r]
  | custom routers nodes, r =>
    (List.range' r nodes.toNat routers.toNat).filter (· < nodes.toNat)

/-! ## Parameters of what has been built -/

theorem Design.exists_of_build_custom {routers nodes : UInt64} {topology : Topology}
    (h : (custom routers nodes).build = .ok topology) :
    ∃ attachable nodes_le routers_lt,
      topology = .custom routers nodes attachable nodes_le routers_lt := by
  simp only [build] at h
  split at h
  · cases h
  split at h
  · cases h
  split at h
  · cases h
  · cases h
    exact ⟨_, _, _, rfl⟩

theorem Except.exists_of_map_eq_ok {ε α β : Type} {outcome : Except ε α} {f : α → β} {b : β}
    (h : outcome.map f = .ok b) : ∃ a, outcome = .ok a ∧ f a = b := by
  cases outcome with
  | error e => cases h
  | ok a => exact ⟨a, rfl, Except.ok.inj h⟩

/-! ## Groups and turns -/

theorem mem_range'_group_iff {size group node : ℕ} (h : 0 < size) :
    node ∈ List.range' (group * size) size ↔ node / size = group := by
  rw [List.mem_range'_1, Nat.div_eq_iff h]
  omega

/-- Taking every `turns`-th number from `first` on reaches the numbers with this remainder. -/
theorem mem_range'_turn_iff {first turns limit node : ℕ} (h : first < turns) :
    node ∈ (List.range' first limit turns).filter (· < limit) ↔
      node < limit ∧ node % turns = first := by
  rw [List.mem_filter, List.mem_range', decide_eq_true_iff]
  constructor
  · intro hmem
    obtain ⟨⟨turn, -, rfl⟩, hlt⟩ := hmem
    exact ⟨hlt, by rw [Nat.add_mul_mod_self_left, Nat.mod_eq_of_lt h]⟩
  · intro hmem
    obtain ⟨hlt, hmod⟩ := hmem
    have hturn : node / turns < limit := Nat.lt_of_le_of_lt (Nat.div_le_self _ _) hlt
    exact ⟨⟨node / turns, hturn, by rw [← hmod, Nat.mod_add_div]⟩, hlt⟩

theorem pairwise_range'_turn {first turns limit : ℕ} (h : 0 < turns) :
    ((List.range' first limit turns).filter (· < limit)).Pairwise (· < ·) :=
  (List.pairwise_lt_range' turns h).filter _

theorem length_turns {first turns limit : ℕ} (h : first < turns) :
    ((List.range' first limit turns).filter (· < limit)).length =
      limit / turns + if first < limit % turns then 1 else 0 := by
  have hpos : 0 < turns := Nat.lt_of_le_of_lt (Nat.zero_le first) h
  have heq : (List.range' first limit turns).filter (· < limit) =
      (List.range limit).filter (· ≡ first [MOD turns]) := by
    refine (pairwise_range'_turn hpos).eq_of_mem_iff (List.pairwise_lt_range.filter _) ?_
    intro node
    rw [mem_range'_turn_iff h, List.mem_filter, List.mem_range, decide_eq_true_iff,
      Nat.ModEq, Nat.mod_eq_of_lt h]
  rw [heq, ← List.countP_eq_length_filter]
  change Nat.count (· ≡ first [MOD turns]) limit = _
  rw [Nat.count_modEq_card _ hpos, Nat.mod_eq_of_lt h]

/-- How many turns a router gets depends on the router by at most one. -/
theorem length_turns_le {turns limit r s : ℕ} (hr : r < turns) (hs : s < turns) :
    ((List.range' r limit turns).filter (· < limit)).length ≤
      ((List.range' s limit turns).filter (· < limit)).length + 1 := by
  rw [length_turns hr, length_turns hs]
  split <;> omega

/-! ## The rule and the customary router -/

/-- The customary router of a node in unbounded arithmetic. -/
def Topology.home : Topology → ℕ → ℕ
  | cube c, node => node / c.concentration.toNat
  | fatTree t, node => node / t.half.toNat
  | dumbbell, node => node
  | custom routers .., node => node % routers.toNat

theorem Topology.toNat_homeOf_ofNat (topology : Topology) {node : ℕ}
    (h : node < topology.nodes.toNat) :
    (topology.homeOf (UInt64.ofNat node)).toNat = topology.home node := by
  have hnode : (UInt64.ofNat node).toNat = node :=
    UInt64.toNat_ofNat_of_lt' (Nat.lt_trans h topology.nodes.toNat_lt)
  cases topology with
  | cube c => exact (UInt64.toNat_div _ _).trans (by rw [hnode]; rfl)
  | fatTree t => exact (UInt64.toNat_div _ _).trans (by rw [hnode]; rfl)
  | dumbbell => exact hnode
  | custom routers nodes => exact (UInt64.toNat_mod _ _).trans (by rw [hnode]; rfl)

/-- A group on a router of the cube holds nodes of the cube only. -/
theorem Cube.mem_group_iff (cube : Cube) {r node : ℕ} (hr : r < cube.routers.toNat) :
    node ∈ List.range' (r * cube.concentration.toNat) cube.concentration.toNat ↔
      node < cube.nodes.toNat ∧ node / cube.concentration.toNat = r := by
  rw [mem_range'_group_iff cube.concentration_pos]
  constructor
  · intro hgroup
    refine ⟨?_, hgroup⟩
    rw [cube.nodes_eq, ← Nat.div_lt_iff_lt_mul cube.concentration_pos, hgroup]
    exact hr
  · exact And.right

/-- The hosts fill the edge switches, and nothing but these. -/
theorem FatTree.mem_group_iff (tree : FatTree) {r node : ℕ} :
    (node ∈ if r < tree.arity.toNat * tree.half.toNat then
        List.range' (r * tree.half.toNat) tree.half.toNat else []) ↔
      node < tree.nodes.toNat ∧ node / tree.half.toNat = r := by
  have hhost : node < tree.nodes.toNat ↔
      node / tree.half.toNat < tree.arity.toNat * tree.half.toNat := by
    rw [tree.nodes_eq, ← tree.toNat_half, ← Nat.div_lt_iff_lt_mul tree.half_pos]
  rw [hhost]
  split
  · next hedge =>
    rw [mem_range'_group_iff tree.half_pos]
    constructor
    · intro hgroup
      exact ⟨hgroup ▸ hedge, hgroup⟩
    · exact And.right
  · next hpast =>
    refine iff_of_false List.not_mem_nil fun hnode ↦ ?_
    exact hpast (hnode.2 ▸ hnode.1)

namespace Design

variable {design : Design} {topology : Topology}

theorem mem_customaryNodes_iff (h : design.build = .ok topology) {r node : ℕ}
    (hr : r < topology.routers.toNat) :
    node ∈ design.customaryNodes r ↔ node < topology.nodes.toNat ∧ topology.home node = r := by
  cases design with
  | mesh k n c =>
    obtain ⟨cube, hbuild, rfl⟩ := Except.exists_of_map_eq_ok h
    obtain ⟨-, -, hconcentration, -⟩ := Cube.parameters_of_build_eq_ok hbuild
    rw [customaryNodes, ← hconcentration]
    exact cube.mem_group_iff hr
  | torus k n c =>
    obtain ⟨cube, hbuild, rfl⟩ := Except.exists_of_map_eq_ok h
    obtain ⟨-, -, hconcentration, -⟩ := Cube.parameters_of_build_eq_ok hbuild
    rw [customaryNodes, ← hconcentration]
    exact cube.mem_group_iff hr
  | fatTree k =>
    obtain ⟨tree, hbuild, rfl⟩ := Except.exists_of_map_eq_ok h
    rw [customaryNodes, ← FatTree.arity_of_build_eq_ok hbuild, ← tree.toNat_half]
    exact tree.mem_group_iff
  | dumbbell =>
    cases h
    rw [customaryNodes, List.mem_singleton]
    constructor
    · rintro rfl
      exact ⟨hr, rfl⟩
    · exact And.right
  | custom routers nodes =>
    obtain ⟨ha, hn, hlt, rfl⟩ := exists_of_build_custom h
    exact mem_range'_turn_iff hr

theorem pairwise_customaryNodes (h : design.build = .ok topology) {r : ℕ}
    (hr : r < topology.routers.toNat) : (design.customaryNodes r).Pairwise (· < ·) := by
  cases design with
  | mesh k n c => exact List.pairwise_lt_range'
  | torus k n c => exact List.pairwise_lt_range'
  | fatTree k =>
    rw [customaryNodes]
    split
    · exact List.pairwise_lt_range'
    · exact List.Pairwise.nil
  | dumbbell => exact List.pairwise_singleton _ _
  | custom routers nodes =>
    obtain ⟨ha, hn, hlt, rfl⟩ := exists_of_build_custom h
    exact pairwise_range'_turn (Nat.lt_of_le_of_lt (Nat.zero_le r) hr)

end Design

/-! ## Customary bindings -/

namespace Binding

variable (binding : Binding)

theorem nodesOn_eq_of_mem_iff {router : Int64} {nodes : List ℕ} (hnodes : nodes.Pairwise (· < ·))
    (hmem : ∀ node, node ∈ nodes ↔ binding.routerOf? node = some router) :
    binding.nodesOn router = nodes := by
  refine (binding.pairwise_nodesOn router).eq_of_mem_iff hnodes fun node ↦ ?_
  rw [mem_nodesOn_iff, hmem]

theorem routerOf?_of_customary
    (hmap : binding.network.routerMap = binding.topology.defaultRouterMap) {node : ℕ}
    (h : node < binding.topology.nodes.toNat) :
    ∃ router, binding.routerOf? node = some router ∧
      router.toInt = binding.topology.home node := by
  have hword : (UInt64.ofNat node).toNat < binding.topology.nodes.toNat := by
    rwa [UInt64.toNat_ofNat_of_lt' (Nat.lt_trans h binding.topology.nodes.toNat_lt)]
  have hlt := Nat.lt_trans (binding.topology.homeOf_lt hword) binding.topology.routers_lt
  refine ⟨(binding.topology.homeOf (UInt64.ofNat node)).toInt64, ?_, ?_⟩
  · rw [routerOf?, Network.routerOf?, hmap, Topology.getElem?_defaultRouterMap _ h]
  · rw [Word.toInt_toInt64_of_lt hlt, Topology.toNat_homeOf_ofNat _ h]

theorem routerOf?_eq_some_iff_of_customary
    (hmap : binding.network.routerMap = binding.topology.defaultRouterMap) {r node : ℕ}
    (hr : r < binding.topology.routers.toNat) :
    binding.routerOf? node = some (Int64.ofNat r) ↔
      node < binding.topology.nodes.toNat ∧ binding.topology.home node = r := by
  by_cases h : node < binding.topology.nodes.toNat
  · obtain ⟨router, hrouter, hvalue⟩ := binding.routerOf?_of_customary hmap h
    rw [hrouter, Option.some_inj, ← Int64.toInt_inj, hvalue, binding.toInt_ofNat_router hr,
      Int.ofNat_inj, and_iff_right h]
  · have hnone : binding.routerOf? node = none := by
      rw [← binding.size_eq] at h
      exact Array.getElem?_eq_none (Nat.le_of_not_lt h)
    rw [hnone]
    exact iff_of_false nofun fun hnode ↦ h hnode.1

/-- How a binding spreads nodes when it follows the rule of a design: the list of every router, the
place of the edge switch of every host, and the balance of a custom design. -/
structure Spreads (binding : Binding) (design : Design) : Prop where
  nodesOn_eq : ∀ r < binding.topology.routers.toNat,
    binding.nodesOn (Int64.ofNat r) = design.customaryNodes r
  exists_edge : ∀ arity, design = .fatTree arity → ∃ tree, binding.topology = .fatTree tree ∧
    ∀ host < tree.nodes.toNat, ∃ switch router,
      tree.number (FatTree.hostPlace (arity.toNat / 2) host) = .ok switch ∧
        binding.routerOf? host = some router ∧ router.toInt = switch.toNat
  length_le : ∀ routers nodes, design = .custom routers nodes →
    ∀ r < routers.toNat, ∀ s < routers.toNat,
      (binding.nodesOn (Int64.ofNat r)).length ≤ (binding.nodesOn (Int64.ofNat s)).length + 1

variable {binding} {design : Design}

theorem nodesOn_of_customary (hbuild : design.build = .ok binding.topology)
    (hmap : binding.network.routerMap = binding.topology.defaultRouterMap) {r : ℕ}
    (hr : r < binding.topology.routers.toNat) :
    binding.nodesOn (Int64.ofNat r) = design.customaryNodes r := by
  refine binding.nodesOn_eq_of_mem_iff (Design.pairwise_customaryNodes hbuild hr) fun node ↦ ?_
  rw [Design.mem_customaryNodes_iff hbuild hr, binding.routerOf?_eq_some_iff_of_customary hmap hr]

theorem spreads_of_customary (hbuild : design.build = .ok binding.topology)
    (hmap : binding.network.routerMap = binding.topology.defaultRouterMap) :
    binding.Spreads design where
  nodesOn_eq _ := nodesOn_of_customary hbuild hmap
  exists_edge arity hdesign := by
    rw [hdesign] at hbuild
    obtain ⟨tree, htree, htopology⟩ := Except.exists_of_map_eq_ok hbuild
    refine ⟨tree, htopology.symm, fun host hhost ↦ ?_⟩
    have hword : (UInt64.ofNat host).toNat = host :=
      UInt64.toNat_ofNat_of_lt' (Nat.lt_trans hhost tree.nodes.toNat_lt)
    have hnode : host < binding.topology.nodes.toNat := by rwa [← htopology]
    obtain ⟨router, hrouter, hvalue⟩ := binding.routerOf?_of_customary hmap hnode
    refine ⟨tree.edgeOf (UInt64.ofNat host), router, ?_, hrouter, ?_⟩
    · rw [← FatTree.arity_of_build_eq_ok htree, ← tree.toNat_half]
      have hnumber := tree.number_hostPlace (UInt64.ofNat host)
      rwa [hword] at hnumber
    · rw [hvalue, ← htopology, FatTree.edgeOf, UInt64.toNat_div, hword]
      rfl
  length_le routers nodes hdesign r hr s hs := by
    rw [hdesign] at hbuild
    obtain ⟨ha, hn, hlt, htopology⟩ := Design.exists_of_build_custom hbuild
    have hrouters : binding.topology.routers = routers := by
      rw [htopology]
      rfl
    rw [nodesOn_of_customary hbuild hmap (hrouters ▸ hr),
      nodesOn_of_customary hbuild hmap (hrouters ▸ hs)]
    exact length_turns_le hr hs

end Binding

/-- What the customary attachment of a topology says about single nodes. -/
structure Topology.AttachesNodes (topology : Topology) : Prop where
  size_eq : topology.defaultRouterMap.size = topology.nodes.toNat
  entry_of_lt : ∀ node < topology.nodes, ∃ router entry,
    topology.defaultRouterOf? node = some router ∧
      topology.defaultRouterMap[node.toNat]? = some entry ∧ entry.toInt = router.toNat
  eq_none_of_le : ∀ node, topology.nodes ≤ node → topology.defaultRouterOf? node = none
  exists_router : ∀ router ∈ topology.defaultRouterMap,
    0 ≤ router.toInt ∧ router.toInt < topology.routers.toNat

theorem Topology.attachesNodes (topology : Topology) : topology.AttachesNodes where
  size_eq := topology.size_defaultRouterMap
  entry_of_lt node h := by
    have hlt : node.toNat < topology.nodes.toNat := UInt64.lt_iff_toNat_lt.mp h
    have hrouter := Nat.lt_trans (topology.homeOf_lt hlt) topology.routers_lt
    refine ⟨topology.homeOf node, (topology.homeOf node).toInt64, if_pos h, ?_,
      Word.toInt_toInt64_of_lt hrouter⟩
    rw [topology.getElem?_defaultRouterMap hlt, UInt64.ofNat_toNat]
  eq_none_of_le node h := if_neg (UInt64.not_lt.mpr h)
  exists_router _ := topology.hasRouter_of_mem_defaultRouterMap

/-- The customary attachment of a design that can be built gives every node, and nothing else, a
router that exists; every network with this router map binds; and the binding spreads the nodes by
the rule of the design. -/
theorem Design.customary_network_binds {design : Design} {topology : Topology}
    (h : design.build = .ok topology) :
    design.defaultRouterMap = .ok topology.defaultRouterMap ∧ topology.AttachesNodes ∧
      ∀ network : Network, network.routerMap = topology.defaultRouterMap →
        ∃ binding, Binding.attach network topology = .ok binding ∧ binding.network = network ∧
          binding.topology = topology ∧ binding.Spreads design := by
  refine ⟨by rw [defaultRouterMap, h]; rfl, topology.attachesNodes, fun network hmap ↦ ?_⟩
  obtain ⟨binding, hattach, hnetwork, htopology⟩ :=
    Binding.exists_attach_eq_ok (topology.fits_of_routerMap_eq hmap)
  subst hnetwork htopology
  exact ⟨binding, hattach, rfl, rfl, Binding.spreads_of_customary h hmap⟩

/-- In the tree of arity 4 the last edge switch carries two hosts, and the first aggregation switch
after it carries none. -/
theorem Design.customary_fatTree_four :
    ∃ topology, (fatTree 4).build = .ok topology ∧ topology.routers.toNat = 20 ∧
      ∃ binding, Binding.attach (.withDefaultConfig topology.defaultRouterMap) topology =
          .ok binding ∧
        binding.nodesOn 7 = [14, 15] ∧ binding.nodesOn 8 = [] := by
  obtain ⟨topology, hbuild, hrouters⟩ :
      ∃ topology, (fatTree 4).build = .ok topology ∧ topology.routers.toNat = 20 :=
    ⟨_, rfl, rfl⟩
  obtain ⟨-, -, hbinds⟩ := customary_network_binds hbuild
  obtain ⟨binding, hattach, -, htopology, hspreads⟩ := hbinds (.withDefaultConfig _) rfl
  have hlt (r : ℕ) (h : r < 20) : r < binding.topology.routers.toNat := by
    rwa [htopology, hrouters]
  refine ⟨topology, hbuild, hrouters, binding, hattach, ?_, ?_⟩
  · exact hspreads.nodesOn_eq 7 (hlt 7 (by decide))
  · exact hspreads.nodesOn_eq 8 (hlt 8 (by decide))

end Interconnect
