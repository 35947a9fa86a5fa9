import Interconnect.Word
import Interconnect.Topology.Error

/-!
# Fat trees

A fat tree of even arity `k` has `k` pods.  Every pod has `k / 2` edge and `k / 2` aggregation
switches, and `(k / 2) ^ 2` core switches, taken in groups of `k / 2`, join the pods.  An edge
switch carries `k / 2` hosts.  Switches are numbered layer by layer: first every edge switch, then
every aggregation switch, then the core; within a layer the groups follow each other.
-/

namespace Interconnect

open Interconnect.Topology (maxNodes)

/-- The arities of fat trees: a pod has as many edge as aggregation switches, and some. -/
def FatTree.IsArity (arity : UInt64) : Prop :=
  2 ≤ arity.toNat ∧ arity.toNat % 2 = 0

instance (arity : UInt64) : Decidable (FatTree.IsArity arity) :=
  inferInstanceAs (Decidable (_ ∧ _))

/-- A fat tree whose arity has been checked; the counts are exact. -/
structure FatTree where
  arity : UInt64
  routers : UInt64
  nodes : UInt64
  isArity : FatTree.IsArity arity
  nodes_eq : nodes.toNat = arity.toNat * (arity.toNat / 2) * (arity.toNat / 2)
  routers_eq : routers.toNat =
    2 * arity.toNat * (arity.toNat / 2) + arity.toNat / 2 * (arity.toNat / 2)
  nodes_le : nodes.toNat ≤ maxNodes

namespace FatTree

/-- A small product bounds each of its parts when no factor is zero. -/
theorem parts_le_of_product_le {k half limit : Nat} (hk : 0 < k) (hh : 0 < half)
    (h : k * half * half ≤ limit) : k * half ≤ limit ∧ half * half ≤ limit := by
  constructor
  · exact Nat.le_trans (Nat.le_mul_of_pos_right _ hh) h
  · refine Nat.le_trans ?_ h
    rw [Nat.mul_assoc]
    exact Nat.le_mul_of_pos_left _ hk

/-- Counting the switches of a tree of permitted size does not wrap. -/
theorem toNat_switchCount {k half : UInt64} (hk : 0 < k.toNat) (hh : 0 < half.toNat)
    (h : k.toNat * half.toNat * half.toNat ≤ maxNodes) :
    (2 * k * half + half * half).toNat =
      2 * k.toNat * half.toNat + half.toNat * half.toNat := by
  obtain ⟨h₁, h₂⟩ := parts_le_of_product_le hk hh h
  have hmax : maxNodes = 1048576 := rfl
  have hle : k.toNat ≤ k.toNat * half.toNat := Nat.le_mul_of_pos_right _ hh
  have htwo : (2 * k).toNat = 2 * k.toNat := by
    rw [UInt64.toNat_mul, show (2 : UInt64).toNat = 2 from rfl]
    exact Nat.mod_eq_of_lt (by omega)
  have hpods : (2 * k * half).toNat = 2 * k.toNat * half.toNat := by
    rw [UInt64.toNat_mul, htwo]
    exact Nat.mod_eq_of_lt (by rw [Nat.mul_assoc]; omega)
  have hcore : (half * half).toNat = half.toNat * half.toNat := by
    rw [UInt64.toNat_mul]
    exact Nat.mod_eq_of_lt (by omega)
  rw [UInt64.toNat_add, hpods, hcore]
  exact Nat.mod_eq_of_lt (by rw [Nat.mul_assoc]; omega)

theorem toNat_nodeCount {arity perLayer nodes : UInt64}
    (hp : Word.mul arity (arity / 2) = .ok perLayer)
    (hm : Word.mul perLayer (arity / 2) = .ok nodes) :
    nodes.toNat = arity.toNat * (arity.toNat / 2) * (arity.toNat / 2) := by
  rw [Word.mul_eq_ok_iff.mp hm, Word.mul_eq_ok_iff.mp hp]
  rfl

theorem toNat_routerCount {arity perLayer nodes : UInt64} (ha : IsArity arity)
    (hp : Word.mul arity (arity / 2) = .ok perLayer)
    (hm : Word.mul perLayer (arity / 2) = .ok nodes) (hn : ¬ maxNodes < nodes.toNat) :
    (2 * arity * (arity / 2) + arity / 2 * (arity / 2)).toNat =
      2 * arity.toNat * (arity.toNat / 2) + arity.toNat / 2 * (arity.toNat / 2) := by
  have hnodes := toNat_nodeCount hp hm
  have hhalf : (arity / 2).toNat = arity.toNat / 2 := UInt64.toNat_div arity 2
  have htwo := ha.1
  rw [← hhalf] at hnodes ⊢
  exact toNat_switchCount (by omega) (by omega) (hnodes ▸ Topology.le_maxNodes hn)

/-- Checks the arity, then that the node count is a word, then the size. -/
def build (arity : UInt64) : Except Topology.Error FatTree :=
  if ha : IsArity arity then
    match hp : Word.mul arity (arity / 2) with
    | .error _ => .error (.unindexable .fatTree)
    | .ok perLayer =>
      match hm : Word.mul perLayer (arity / 2) with
      | .error _ => .error (.unindexable .fatTree)
      | .ok nodes =>
        if hn : maxNodes < nodes.toNat then
          .error (.tooManyNodes .fatTree nodes)
        else
          .ok {
            arity, nodes
            routers := 2 * arity * (arity / 2) + arity / 2 * (arity / 2)
            isArity := ha
            nodes_eq := toNat_nodeCount hp hm
            routers_eq := toNat_routerCount ha hp hm hn
            nodes_le := Topology.le_maxNodes hn }
  else .error .unevenArity

/-- What is built has the arity that was asked for. -/
theorem arity_of_build_eq_ok {k : UInt64} {tree : FatTree} (h : build k = .ok tree) :
    tree.arity = k := by
  unfold build at h
  split at h
  · split at h
    · cases h
    split at h
    · cases h
    split at h
    · cases h
    · cases h
      rfl
  · cases h

def half (tree : FatTree) : UInt64 :=
  tree.arity / 2

/-- How many switches the edge layer has, and likewise the aggregation layer. -/
def perLayer (tree : FatTree) : UInt64 :=
  tree.arity * tree.half

inductive Layer
  | edge
  | aggregation
  | core
  deriving DecidableEq, Repr

/-- A switch by its place: for an edge or aggregation switch the group is its pod. -/
structure Place where
  layer : Layer
  group : UInt64
  index : UInt64
  deriving DecidableEq, Repr

/-- The number of the first switch of a layer. -/
def firstOf (tree : FatTree) : Layer → UInt64
  | .edge => 0
  | .aggregation => tree.perLayer
  | .core => 2 * tree.perLayer

/-- The number of the switch at a place.  Places outside the tree are numbered by the same rule as
long as their number is a word. -/
def number (tree : FatTree) (place : Place) : Except Overflow UInt64 := do
  let offset ← Word.mul place.group tree.half
  let start ← Word.add (tree.firstOf place.layer) offset
  Word.add start place.index

/-- The place of a switch; numbers past the last switch continue the core layer. -/
def placeOf (tree : FatTree) (router : UInt64) : Place :=
  let layer : Layer :=
    if router < tree.perLayer then .edge
    else if router < 2 * tree.perLayer then .aggregation
    else .core
  let offset := router - tree.firstOf layer
  ⟨layer, offset / tree.half, offset % tree.half⟩

/-- The edge switch that carries a host. -/
def edgeOf (tree : FatTree) (host : UInt64) : UInt64 :=
  host / tree.half

def Layer.letter : Layer → String
  | .edge => "e"
  | .aggregation => "a"
  | .core => "c"

def Place.label (place : Place) : String :=
  place.layer.letter ++ toString place.group.toNat ++ "_" ++ toString place.index.toNat

def label (tree : FatTree) (router : UInt64) : String :=
  (tree.placeOf router).label

/-! ## Sizes of the parts -/

theorem toNat_half (tree : FatTree) : tree.half.toNat = tree.arity.toNat / 2 :=
  UInt64.toNat_div tree.arity 2

theorem half_pos (tree : FatTree) : 0 < tree.half.toNat := by
  have := tree.isArity.1
  rw [toNat_half]
  omega

theorem arity_mul_half_le (tree : FatTree) :
    tree.arity.toNat * tree.half.toNat ≤ maxNodes ∧
      tree.half.toNat * tree.half.toNat ≤ maxNodes := by
  have hk : 0 < tree.arity.toNat := Nat.lt_of_lt_of_le (by decide) tree.isArity.1
  refine parts_le_of_product_le hk tree.half_pos ?_
  rw [toNat_half, ← tree.nodes_eq]
  exact tree.nodes_le

theorem toNat_perLayer (tree : FatTree) :
    tree.perLayer.toNat = tree.arity.toNat * tree.half.toNat := by
  have h := tree.arity_mul_half_le.1
  have hmax : maxNodes = 1048576 := rfl
  rw [perLayer, UInt64.toNat_mul]
  exact Nat.mod_eq_of_lt (by omega)

/-- There are `5 k ^ 2 / 4` switches, far fewer than a word can count. -/
theorem routers_le (tree : FatTree) : tree.routers.toNat ≤ 3 * maxNodes := by
  have h := tree.arity_mul_half_le
  rw [toNat_half] at h
  rw [tree.routers_eq, Nat.mul_assoc]
  omega

end FatTree

end Interconnect
