import Interconnect.Proofs.Binding.Inverse
import Interconnect.Proofs.Topology.Labels

/-!
# What a node map tells

A node map has one line for each node, which names the router of the node by its number and by its
label (`Binding.lists`).  Neither contains a blank or a line break, so that the map can be taken apart
again: from its lines, and from the labels alone, the router of each node is known
(`Binding.routerMap_eq_of_nodeMap_eq`, `Binding.routerMap_eq_of_labels_eq`).
-/

namespace Interconnect

open Text (Avoids)

namespace Binding

/-- Arrays agree when what is made of their elements agrees and tells the elements apart. -/
theorem eq_of_getElem?_map_eq {α β : Type} {xs ys : Array α} {f g : ℕ → α → β}
    (h : ∀ i, xs[i]?.map (f i) = ys[i]?.map (g i))
    (hinj : ∀ i x y, x ∈ xs → y ∈ ys → f i x = g i y → x = y) : xs = ys := by
  apply Array.ext_getElem?
  intro i
  have hi := h i
  cases hx : xs[i]? with
  | none =>
    rw [hx, Option.map_none] at hi
    exact (Option.map_eq_none_iff.mp hi.symm).symm
  | some x =>
    rw [hx, Option.map_some] at hi
    obtain ⟨y, hy, heq⟩ := Option.map_eq_some_iff.mp hi.symm
    rw [hy, hinj i x y (Array.mem_of_getElem? hx) (Array.mem_of_getElem? hy) heq.symm]

variable (binding : Binding)

/-- The label of the router of each node, in the order of the nodes. -/
def labels : List String :=
  binding.network.routerMap.toList.map fun router ↦ binding.topology.label router.toUInt64

/-! ## Lines -/

theorem nodeLine_eq (topology : Topology) (a : Attachment) :
    nodeLine topology a =
      "node " ++ toString a.node ++ " -> router " ++ toString a.router.toInt ++ " " ++
        topology.label a.router.toUInt64 :=
  rfl

theorem avoids_newline_nodeLine (topology : Topology) (a : Attachment) :
    Avoids '\n' (nodeLine topology a) := by
  have hnode : Avoids '\n' (toString a.node) := Text.avoids_toString_nat (by decide) a.node
  have hrouter : Avoids '\n' (toString a.router.toInt) :=
    Text.avoids_toString_int (by decide) (by decide) a.router.toInt
  have hlabel : Avoids '\n' (topology.label a.router.toUInt64) :=
    topology.avoids_label (by decide) (by decide) a.router.toUInt64
  rw [nodeLine_eq]
  simp +decide only [Text.avoids_append, hnode, hrouter, hlabel]

/-- Lines about the same node tell its router, whatever the topologies are. -/
theorem router_eq_of_nodeLine_eq {topology topology' : Topology} {node : ℕ} {r s : Int64}
    (h : nodeLine topology ⟨node, r⟩ = nodeLine topology' ⟨node, s⟩) : r = s := by
  have hdigits (i : Int) : Avoids ' ' (toString i) :=
    Text.avoids_toString_int (by decide) (by decide) i
  simp only [nodeLine_eq, String.append_assoc, String.append_right_inj] at h
  rw [← String.append_assoc, ← String.append_assoc] at h
  have hnumber := (Text.eq_of_append_separator (c := ' ') (hdigits r.toInt) (hdigits s.toInt) h).1
  exact Int64.toInt_inj.mp (Int.repr_inj.mp hnumber)

theorem getElem?_nodeLines (node : ℕ) :
    binding.nodeLines[node]? =
      binding.network.routerMap[node]?.map fun router ↦
        nodeLine binding.topology ⟨node, router⟩ := by
  rw [nodeLines, Array.getElem?_toList, Array.getElem?_map, Network.getElem?_attachments,
    Option.map_map]
  rfl

theorem length_nodeLines : binding.nodeLines.length = binding.topology.nodes.toNat := by
  rw [nodeLines, Array.length_toList, Array.size_map, Network.size_attachments, binding.size_eq]

theorem lines_nodeMap : Text.lines binding.nodeMap = binding.nodeLines ++ [""] := by
  refine Text.lines_join fun line hline ↦ ?_
  obtain ⟨a, _, rfl⟩ := Array.mem_map.mp (Array.mem_toList_iff.mp hline)
  exact avoids_newline_nodeLine binding.topology a

/-- The node map of a binding, line by line. -/
structure Lists : Prop where
  /-- Every line is terminated, so that nothing follows the last break. -/
  lines_eq : Text.lines binding.nodeMap = binding.nodeLines ++ [""]
  length_eq : binding.nodeLines.length = binding.topology.nodes.toNat
  /-- A line names the router by its number and by the label that the router has as an unsigned
  number. -/
  getElem?_eq : ∀ (node : ℕ) (router : Int64),
    binding.network.routerMap[node]? = some router →
      ∃ number : UInt64, number < binding.topology.routers ∧ (number.toNat : Int) = router.toInt ∧
        binding.nodeLines[node]? =
          some s!"node {node} -> router {router.toInt} {binding.topology.label number}"

theorem hasRouter_of_mem_routerMap {router : Int64} (h : router ∈ binding.network.routerMap) :
    binding.topology.HasRouter router := by
  obtain ⟨node, hnode⟩ := Array.mem_iff_getElem?.mp h
  exact binding.hasRouter_of_routerOf?_eq_some hnode

theorem toUInt64_lt_routers {router : Int64} (h : binding.topology.HasRouter router) :
    router.toUInt64 < binding.topology.routers := by
  have hvalue := Word.toNat_toUInt64_of_nonneg h.1
  have hlt := h.2
  rw [UInt64.lt_iff_toNat_lt]
  omega

theorem lists : binding.Lists where
  lines_eq := binding.lines_nodeMap
  length_eq := binding.length_nodeLines
  getElem?_eq node router hrouter := by
    have hhas := binding.hasRouter_of_mem_routerMap (Array.mem_of_getElem? hrouter)
    refine ⟨router.toUInt64, binding.toUInt64_lt_routers hhas,
      Word.toNat_toUInt64_of_nonneg hhas.1, ?_⟩
    rw [getElem?_nodeLines, hrouter]
    rfl

/-! ## From the map back to the network -/

variable {a b : Binding}

theorem routerMap_eq_of_nodeMap_eq (h : a.nodeMap = b.nodeMap) :
    a.network.routerMap = b.network.routerMap := by
  have hlines := congrArg Text.lines h
  rw [lines_nodeMap, lines_nodeMap] at hlines
  have hnodeLines := List.append_cancel_right hlines
  refine eq_of_getElem?_map_eq
    (f := fun node router ↦ nodeLine a.topology ⟨node, router⟩)
    (g := fun node router ↦ nodeLine b.topology ⟨node, router⟩) (fun node ↦ ?_)
    fun _ _ _ _ _ ↦ router_eq_of_nodeLine_eq
  rw [← getElem?_nodeLines, ← getElem?_nodeLines, hnodeLines]

theorem routerMap_eq_of_labels_eq (htopology : a.topology = b.topology)
    (h : a.labels = b.labels) : a.network.routerMap = b.network.routerMap := by
  refine eq_of_getElem?_map_eq
    (f := fun _ router ↦ a.topology.label router.toUInt64)
    (g := fun _ router ↦ b.topology.label router.toUInt64) (fun node ↦ ?_) ?_
  · have hnode := congrArg (·[node]?) h
    simpa only [labels, List.getElem?_map, Array.getElem?_toList] using hnode
  · intro _ r s hr hs hlabel
    have hr := a.toUInt64_lt_routers (a.hasRouter_of_mem_routerMap hr)
    have hs := b.toUInt64_lt_routers (b.hasRouter_of_mem_routerMap hs)
    rw [← htopology] at hlabel hs
    have hword := a.topology.eq_of_label_eq (UInt64.lt_iff_toNat_lt.mp hr)
      (UInt64.lt_iff_toNat_lt.mp hs) hlabel
    rw [← r.toInt64_toUInt64, hword, s.toInt64_toUInt64]

/-- A label names one router of its topology, and contains neither a blank nor a line break.  A
network that has been bound is listed node by node, and bindings to the same topology that are listed
alike, or only have the same labels in the same order, have the same router map. -/
theorem nodeMap_identifies :
    (∀ topology : Topology,
      (∀ r s : UInt64, r < topology.routers → s < topology.routers →
        topology.label r = topology.label s → r = s) ∧
      ∀ router : UInt64, Avoids ' ' (topology.label router) ∧ Avoids '\n' (topology.label router)) ∧
    (∀ (network : Network) (topology : Topology) (binding : Binding),
      attach network topology = .ok binding →
        binding.network = network ∧ binding.topology = topology ∧ binding.Lists) ∧
    ∀ a b : Binding, a.topology = b.topology → a.nodeMap = b.nodeMap ∨ a.labels = b.labels →
      a.network.routerMap = b.network.routerMap := by
  refine ⟨fun topology ↦ ⟨fun r s hr hs ↦ ?_, fun router ↦ ?_⟩, ?_, ?_⟩
  · exact topology.eq_of_label_eq (UInt64.lt_iff_toNat_lt.mp hr) (UInt64.lt_iff_toNat_lt.mp hs)
  · exact ⟨topology.avoids_label (by decide) (by decide) router,
      topology.avoids_label (by decide) (by decide) router⟩
  · intro network topology binding h
    obtain ⟨hnetwork, htopology⟩ := network_of_attach_eq_ok h
    exact ⟨hnetwork, htopology, binding.lists⟩
  · intro a b htopology h
    rcases h with hmap | hlabels
    · exact routerMap_eq_of_nodeMap_eq hmap
    · exact routerMap_eq_of_labels_eq htopology hlabels

end Binding

end Interconnect
