import Interconnect.Word
import Interconnect.Topology.Error

/-!
# Cubes

A cube has `radix ^ dimension` routers, one for each tuple of `dimension` coordinates below
`radix`, and `concentration` nodes on every router.  Router numbers are read in base `radix` with
dimension 0 as the lowest digit.  A mesh and a torus are both cubes: wrapping adds links, and
changes no count.
-/

namespace Interconnect

open Interconnect.Topology (Kind maxNodes maxDimensions)

/-- A cube whose parameters have been checked; the counts are exact. -/
structure Cube where
  radix : UInt64
  dimension : UInt64
  concentration : UInt64
  wraps : Bool
  routers : UInt64
  nodes : UInt64
  radix_pos : 0 < radix.toNat
  dimension_pos : 0 < dimension.toNat
  dimension_le : dimension.toNat ≤ maxDimensions
  concentration_pos : 0 < concentration.toNat
  routers_eq : routers.toNat = radix.toNat.pow dimension.toNat
  nodes_eq : nodes.toNat = routers.toNat * concentration.toNat
  nodes_le : nodes.toNat ≤ maxNodes

namespace Cube

def kindOf (wraps : Bool) : Kind :=
  if wraps then .torus else .mesh

/-- Checks the parameters one by one, then that the counts are words, then the size. -/
def build (radix dimension concentration : UInt64) (wraps : Bool) : Except Topology.Error Cube :=
  if hr : radix.toNat = 0 then
    .error (.zeroRadix (kindOf wraps))
  else if hd : dimension.toNat = 0 ∨ maxDimensions < dimension.toNat then
    .error (.dimensionOutOfRange (kindOf wraps))
  else if hc : concentration.toNat = 0 then
    .error (.zeroConcentration (kindOf wraps))
  else
    match hp : Word.pow radix dimension.toNat with
    | .error _ => .error (.unindexable (kindOf wraps))
    | .ok routers =>
      match hm : Word.mul routers concentration with
      | .error _ => .error (.unindexable (kindOf wraps))
      | .ok nodes =>
        if hn : maxNodes < nodes.toNat then
          .error (.tooManyNodes (kindOf wraps) nodes)
        else
          .ok {
            radix, dimension, concentration, wraps, routers, nodes
            radix_pos := Nat.pos_of_ne_zero hr
            dimension_pos := Nat.pos_of_ne_zero fun h => hd (.inl h)
            dimension_le := Nat.le_of_not_lt fun h => hd (.inr h)
            concentration_pos := Nat.pos_of_ne_zero hc
            routers_eq := Word.pow_eq_ok_iff.mp hp
            nodes_eq := Word.mul_eq_ok_iff.mp hm
            nodes_le := Topology.le_maxNodes hn }

/-- What is built has the parameters that were asked for. -/
theorem parameters_of_build_eq_ok {radix dimension concentration : UInt64} {wraps : Bool}
    {cube : Cube} (h : build radix dimension concentration wraps = .ok cube) :
    cube.radix = radix ∧ cube.dimension = dimension ∧ cube.concentration = concentration ∧
      cube.wraps = wraps := by
  unfold build at h
  split at h
  · cases h
  split at h
  · cases h
  split at h
  · cases h
  split at h
  · cases h
  split at h
  · cases h
  split at h
  · cases h
  · cases h
    exact ⟨rfl, rfl, rfl, rfl⟩

/-- The router that carries a node when nodes are dealt out in consecutive groups. -/
def routerOf (cube : Cube) (node : UInt64) : UInt64 :=
  node / cube.concentration

/-- The lowest `count` digits of a number in base `radix`, lowest first. -/
def digits (radix : UInt64) : Nat → UInt64 → List UInt64
  | 0, _ => []
  | count + 1, number => number % radix :: digits radix count (number / radix)

/-- The coordinates of a router, dimension 0 first. -/
def coordinates (cube : Cube) (router : UInt64) : List UInt64 :=
  digits cube.radix cube.dimension.toNat router

def label (cube : Cube) (router : UInt64) : String :=
  "(" ++ ",".intercalate ((cube.coordinates router).map fun digit => toString digit.toNat) ++ ")"

@[simp]
theorem length_digits (radix : UInt64) (count : Nat) (number : UInt64) :
    (digits radix count number).length = count := by
  induction count generalizing number with
  | zero => rfl
  | succ count ih => rw [digits, List.length_cons, ih]

theorem routers_le_nodes (cube : Cube) : cube.routers.toNat ≤ cube.nodes.toNat := by
  rw [cube.nodes_eq]
  exact Nat.le_mul_of_pos_right _ cube.concentration_pos

end Cube

end Interconnect
