import Interconnect.Topology.Cube
import Interconnect.Topology.FatTree

/-!
# Topologies

A `Design` is a topology as somebody asks for it: a kind with its parameters, of any size.  A
`Topology` is a design whose parameters have been checked, so that its counts are exact, it has at
most `maxNodes` nodes, and every router number is also a signed 64-bit number.  `Design.build` is
the only way from one to the other.

Each topology deals its nodes out to routers in a customary way (`Topology.homeOf`), and names its
routers (`Topology.label`).
-/

namespace Interconnect

open Interconnect.Topology (Kind maxNodes)

/-- A kind of topology with the parameters that are asked for. -/
inductive Design
  | mesh (radix dimension concentration : UInt64)
  | torus (radix dimension concentration : UInt64)
  | fatTree (arity : UInt64)
  | dumbbell
  | custom (routers nodes : UInt64)
  deriving DecidableEq, Repr

def Design.kind : Design → Kind
  | mesh .. => .mesh
  | torus .. => .torus
  | fatTree .. => .fatTree
  | dumbbell => .dumbbell
  | custom .. => .custom

/-- A topology whose parameters have been checked. -/
inductive Topology
  | cube (cube : Cube)
  | fatTree (tree : FatTree)
  | dumbbell
  | custom (routers nodes : UInt64)
      (attachable : routers.toNat = 0 → nodes.toNat = 0)
      (nodes_le : nodes.toNat ≤ maxNodes)
      (routers_lt : routers.toNat < Word.signedSize)

/-- Checks a design.  A custom design may be any size in which nodes have a router to attach to,
node counts are within the limit, and router numbers are signed 64-bit numbers. -/
def Design.build : Design → Except Topology.Error Topology
  | mesh radix dimension concentration =>
    (Cube.build radix dimension concentration false).map .cube
  | torus radix dimension concentration =>
    (Cube.build radix dimension concentration true).map .cube
  | fatTree arity => (FatTree.build arity).map .fatTree
  | dumbbell => .ok .dumbbell
  | custom routers nodes =>
    if ha : routers.toNat = 0 ∧ 0 < nodes.toNat then
      .error .noRouters
    else if hn : maxNodes < nodes.toNat then
      .error (.tooManyNodes .custom nodes)
    else if hr : Word.signedSize ≤ routers.toNat then
      .error (.unindexable .custom)
    else
      .ok (.custom routers nodes
        (fun hz => Nat.eq_zero_of_not_pos fun hp => ha ⟨hz, hp⟩)
        (Topology.le_maxNodes hn)
        (Nat.lt_of_not_le hr))

namespace Topology

def cube? : Topology → Option Cube
  | cube c => some c
  | _ => none

def fatTree? : Topology → Option FatTree
  | fatTree t => some t
  | _ => none

def routers : Topology → UInt64
  | cube c => c.routers
  | fatTree t => t.routers
  | dumbbell => 2
  | custom routers .. => routers

def nodes : Topology → UInt64
  | cube c => c.nodes
  | fatTree t => t.nodes
  | dumbbell => 2
  | custom _ nodes .. => nodes

/-- The router that a node is customarily attached to, whether or not the node exists. -/
def homeOf (topology : Topology) (node : UInt64) : UInt64 :=
  match topology with
  | cube c => c.routerOf node
  | fatTree t => t.edgeOf node
  | dumbbell => node
  | custom routers .. => node % routers

def defaultRouterOf? (topology : Topology) (node : UInt64) : Option UInt64 :=
  if node < topology.nodes then some (topology.homeOf node) else none

/-- The customary router of every node that has one, in the order of the nodes. -/
def defaultRouterMap (topology : Topology) : Array Int64 :=
  (Array.range topology.nodes.toNat).filterMap fun node =>
    (topology.defaultRouterOf? (UInt64.ofNat node)).map (·.toInt64)

def label (topology : Topology) (router : UInt64) : String :=
  match topology with
  | cube c => c.label router
  | fatTree t => t.label router
  | dumbbell => "s" ++ toString router.toNat
  | custom .. => "r" ++ toString router.toNat

/-! ## Bounds on the counts -/

theorem nodes_le (topology : Topology) : topology.nodes.toNat ≤ maxNodes := by
  cases topology with
  | cube c => exact c.nodes_le
  | fatTree t => exact t.nodes_le
  | dumbbell => decide
  | custom routers nodes attachable nodes_le routers_lt => exact nodes_le

theorem routers_lt (topology : Topology) : topology.routers.toNat < Word.signedSize := by
  have hmax : maxNodes = 1048576 := rfl
  have hword : Word.signedSize = 9223372036854775808 := rfl
  cases topology with
  | cube c =>
    have := c.routers_le_nodes
    have := c.nodes_le
    show c.routers.toNat < Word.signedSize
    omega
  | fatTree t =>
    have := t.routers_le
    show t.routers.toNat < Word.signedSize
    omega
  | dumbbell => decide
  | custom routers nodes attachable nodes_le routers_lt => exact routers_lt

end Topology

/-- The customary attachment of a design, or the reason why it has none. -/
def Design.defaultRouterMap (design : Design) : Except Topology.Error (Array Int64) :=
  design.build.map (·.defaultRouterMap)

end Interconnect
