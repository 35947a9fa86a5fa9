import Std.Data.HashMap
import Interconnect.Log
import Interconnect.Network
import Interconnect.Topology.Basic

/-!
# Binding a network to a topology

A network fits a topology when it has a router for every node, and every one of these routers
exists.  `Binding.attach` checks this, reports the first thing that is wrong, and otherwise returns
a `Binding`, which answers in both directions: the router of a node and the nodes on a router.
-/

namespace Interconnect

/-- For each router that has nodes, these nodes in ascending order. -/
abbrev RouterIndex := Std.HashMap UInt64 (Array Nat)

namespace RouterIndex

/-- Puts a node behind the nodes that a router has so far. -/
def push (index : RouterIndex) (router : UInt64) (node : Nat) : RouterIndex :=
  index.alter router fun nodes? => some ((nodes?.getD #[]).push node)

def nodesOn (index : RouterIndex) (router : UInt64) : List Nat :=
  (index.getD router #[]).toList

@[simp]
theorem nodesOn_empty (router : UInt64) : nodesOn ∅ router = [] := by
  rw [nodesOn, Std.HashMap.getD_empty]

theorem nodesOn_push (index : RouterIndex) (router : UInt64) (node : Nat) (other : UInt64) :
    (index.push router node).nodesOn other =
      if router = other then index.nodesOn other ++ [node] else index.nodesOn other := by
  unfold nodesOn push
  rw [Std.HashMap.getD_alter]
  by_cases h : router = other
  · subst h
    simp [Std.HashMap.getD_eq_getD_getElem?]
  · rw [if_neg (by simpa using h), if_neg h]

end RouterIndex

/-- A router number that a topology has. -/
def Topology.HasRouter (topology : Topology) (router : Int64) : Prop :=
  0 ≤ router.toInt ∧ router.toInt < topology.routers.toNat

instance (topology : Topology) (router : Int64) : Decidable (topology.HasRouter router) :=
  inferInstanceAs (Decidable (_ ∧ _))

namespace Topology

/-- The router with a number, if the topology has it. -/
def router? (topology : Topology) (router : Int64) : Option UInt64 :=
  (Word.ofSigned? router).filter (· < topology.routers)

theorem router?_of_hasRouter {topology : Topology} {router : Int64}
    (h : topology.HasRouter router) : topology.router? router = some router.toUInt64 := by
  have hvalue := Word.toNat_toUInt64_of_nonneg h.1
  have hlt : router.toUInt64 < topology.routers := by
    rw [UInt64.lt_iff_toNat_lt]
    have := h.2
    omega
  rw [router?, Word.ofSigned?_of_nonneg h.1, Option.filter_some, if_pos (decide_eq_true hlt)]

theorem router?_of_not_hasRouter {topology : Topology} {router : Int64}
    (h : ¬ topology.HasRouter router) : topology.router? router = none := by
  unfold router?
  by_cases hneg : router.toInt < 0
  · rw [Word.ofSigned?_of_neg hneg, Option.filter_none]
  · have hnonneg : 0 ≤ router.toInt := Int.not_lt.mp hneg
    have hvalue := Word.toNat_toUInt64_of_nonneg hnonneg
    have hge : ¬ router.toUInt64 < topology.routers := by
      rw [UInt64.lt_iff_toNat_lt]
      intro hlt
      exact h ⟨hnonneg, by omega⟩
    rw [Word.ofSigned?_of_nonneg hnonneg, Option.filter_some, if_neg (by simpa using hge)]

end Topology

namespace Binding

inductive Error
  | nodeCount (expected actual : Nat)
  | negativeRouter (attachment : Attachment)
  | unknownRouter (attachment : Attachment) (routers : Nat)
  deriving DecidableEq, Repr

def Error.message : Error → String
  | nodeCount expected actual =>
    s!"router map has {actual} entries but the topology has {expected} nodes"
  | negativeRouter a =>
    s!"node {a.node} is attached to negative router id {a.router.toInt}"
  | unknownRouter a routers =>
    s!"node {a.node} is attached to router {a.router.toInt}, topology has {routers} routers"

def isNegative (a : Attachment) : Bool :=
  a.router < 0

/-- Takes an attachment into the index, unless its router is unknown. -/
def place (topology : Topology) (index : RouterIndex) (a : Attachment) :
    Except Error RouterIndex :=
  match topology.router? a.router with
  | some router => .ok (index.push router a.node)
  | none => .error (.unknownRouter a topology.routers.toNat)

/-- The index of all attachments, or the first of them whose router is unknown. -/
def indexOf (topology : Topology) (attachments : Array Attachment) : Except Error RouterIndex :=
  attachments.foldlM (place topology) ∅

end Binding

/-- A network that fits a topology. -/
structure Binding where
  network : Network
  topology : Topology
  index : RouterIndex
  size_eq : network.size = topology.nodes.toNat
  index_eq : Binding.indexOf topology network.attachments = .ok index

namespace Binding

/-- Checks the node count, then looks for a negative router, and then builds the index, in the
course of which a router past the last one is found. -/
def attach (network : Network) (topology : Topology) : Except Error Binding :=
  if hs : network.size ≠ topology.nodes.toNat then
    .error (.nodeCount topology.nodes.toNat network.size)
  else
    match network.attachments.find? isNegative with
    | some a => .error (.negativeRouter a)
    | none =>
      match hi : indexOf topology network.attachments with
      | .error e => .error e
      | .ok index => .ok ⟨network, topology, index, Decidable.of_not_not hs, hi⟩

def routerOf? (binding : Binding) (node : Nat) : Option Int64 :=
  binding.network.routerOf? node

/-- The nodes on a router, ascending; none for a router that does not exist. -/
def nodesOn (binding : Binding) (router : Int64) : List Nat :=
  match Word.ofSigned? router with
  | some router => binding.index.nodesOn router
  | none => []

def nodeLine (topology : Topology) (a : Attachment) : String :=
  s!"node {a.node} -> router {a.router.toInt} {topology.label a.router.toUInt64}"

/-- One line for each node, in the order of the nodes. -/
def nodeLines (binding : Binding) : List String :=
  (binding.network.attachments.map (nodeLine binding.topology)).toList

def nodeMap (binding : Binding) : String :=
  String.join (binding.nodeLines.map (· ++ "\n"))

/-- A router with the nodes that have been attached to it. -/
def attached (router : UInt64) (nodes : Array Nat) : Log.Event where
  level := .debug
  message := "router attachment"
  fields :=
    [ ("router", toString router),
      ("nodes", "[" ++ ", ".intercalate (nodes.toList.map fun node => s!"NodeId({node})") ++ "]") ]
  span? := none

/-- The events of an attachment that succeeds: the routers that have nodes, in ascending order. -/
def events (binding : Binding) : List Log.Event :=
  (binding.index.toList.mergeSort (·.1 ≤ ·.1)).map fun (router, nodes) => attached router nodes

end Binding

end Interconnect
