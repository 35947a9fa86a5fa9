import Mathlib.Algebra.Order.Ring.Nat
import Mathlib.Tactic.Ring
import Interconnect.Topology.Basic

/-!
# Counts without wrapping

`Design.verdict` decides about a design in unbounded arithmetic: whether its parameters make sense,
whether a word can count its nodes, whether they are too many, and how many routers and nodes it has
otherwise.  `Design.build` comes to the same verdict with 64-bit words, by checked products and
powers and one unchecked sum.  An intermediate result that does not fit a word is never mistaken for
a size: no factor is zero by the time it is formed, so the final count would not fit either.
-/

namespace Interconnect

open Interconnect.Topology (maxNodes maxDimensions)

/-- What is to become of a design. -/
inductive Verdict
  | invalid
  | unindexable
  | tooManyNodes (nodes : ℕ)
  | accepted (routers nodes : ℕ)
  deriving DecidableEq, Repr

namespace Verdict

/-- The verdict on parameters that are valid and yield the given counts. -/
def ofCounts (routers nodes : ℕ) : Verdict :=
  if 2 ^ 64 ≤ nodes then .unindexable
  else if 2 ^ 20 < nodes then .tooManyNodes nodes
  else .accepted routers nodes

def ofCube (k n c : ℕ) : Verdict :=
  if k = 0 ∨ n = 0 ∨ 32 < n ∨ c = 0 then .invalid
  else ofCounts (k ^ n) (c * k ^ n)

/-- The nodes are counted as `k * (k / 2) ^ 2`, which for an even arity is `k ^ 3 / 4`. -/
def ofFatTree (k : ℕ) : Verdict :=
  if k % 2 = 1 ∨ k < 2 then .invalid
  else if 2 ^ 64 ≤ k * (k / 2) ^ 2 then .unindexable
  else if 2 ^ 20 < k * (k / 2) ^ 2 then .tooManyNodes (k * (k / 2) ^ 2)
  else .accepted (5 * k ^ 2 / 4) (k ^ 3 / 4)

/-- The size of a custom design is looked at before its router numbers are. -/
def ofCustom (routers nodes : ℕ) : Verdict :=
  if routers = 0 ∧ 0 < nodes then .invalid
  else if 2 ^ 20 < nodes then .tooManyNodes nodes
  else if 2 ^ 63 - 1 < routers then .unindexable
  else .accepted routers nodes

end Verdict

/-- The verdict on a design in unbounded arithmetic. -/
def Design.verdict : Design → Verdict
  | mesh k n c => .ofCube k.toNat n.toNat c.toNat
  | torus k n c => .ofCube k.toNat n.toNat c.toNat
  | fatTree k => .ofFatTree k.toNat
  | dumbbell => .accepted 2 2
  | custom routers nodes => .ofCustom routers.toNat nodes.toNat

/-- The verdict that an error expresses; whatever is wrong with the parameters themselves is one. -/
def Topology.Error.verdict : Topology.Error → Verdict
  | zeroRadix _ => .invalid
  | dimensionOutOfRange _ => .invalid
  | zeroConcentration _ => .invalid
  | unevenArity => .invalid
  | noRouters => .invalid
  | unindexable _ => .unindexable
  | tooManyNodes _ nodes => .tooManyNodes nodes.toNat

/-- The verdict that the outcome of building a design expresses. -/
def Verdict.ofOutcome : Except Topology.Error Topology → Verdict
  | .error e => e.verdict
  | .ok t => .accepted t.routers.toNat t.nodes.toNat

/-- The switch count of a fat tree, formed step by step without wrapping. -/
def FatTree.switchCount (arity : UInt64) : Except Overflow UInt64 := do
  let twice ← Word.mul 2 arity
  let pods ← Word.mul twice (arity / 2)
  let core ← Word.mul (arity / 2) (arity / 2)
  Word.add pods core

/-! ## Words -/

namespace Word

theorem le_mul_of_mul_eq_error {a b : UInt64} {e : Overflow} (h : mul a b = .error e) :
    2 ^ 64 ≤ a.toNat * b.toNat := by
  unfold mul at h
  split at h
  · cases h
  · next hge => exact Nat.le_of_not_lt hge

theorem le_pow_of_pow_eq_error {base : UInt64} {n : ℕ} {e : Overflow}
    (h : pow base n = .error e) : 2 ^ 64 ≤ base.toNat ^ n := by
  by_contra hlt
  have hsize : base.toNat ^ n < UInt64.size := Nat.lt_of_not_le hlt
  have hok : pow base n = .ok (UInt64.ofNat (base.toNat ^ n)) :=
    pow_eq_ok_iff.mpr (UInt64.toNat_ofNat_of_lt' hsize)
  rw [hok] at h
  cases h

theorem mul_eq_ok_of_lt {a b : UInt64} (h : a.toNat * b.toNat < 2 ^ 64) :
    mul a b = .ok (a * b) :=
  if_pos h

end Word

theorem Verdict.ofCounts_of_le {routers nodes : ℕ} (h : 2 ^ 64 ≤ nodes) :
    ofCounts routers nodes = .unindexable :=
  if_pos h

theorem Verdict.ofCounts_toNat (routers : ℕ) (nodes : UInt64) :
    ofCounts routers nodes.toNat =
      if maxNodes < nodes.toNat then .tooManyNodes nodes.toNat
      else .accepted routers nodes.toNat :=
  if_neg (Nat.not_le_of_lt nodes.toNat_lt)

/-! ## Cubes -/

theorem Cube.ofOutcome_build (k n c : UInt64) (wraps : Bool) :
    Verdict.ofOutcome ((build k n c wraps).map .cube) =
      Verdict.ofCube k.toNat n.toNat c.toNat := by
  unfold build Verdict.ofCube
  by_cases hk : k.toNat = 0
  · rw [dif_pos hk, if_pos (.inl hk)]
    rfl
  rw [dif_neg hk]
  by_cases hn : n.toNat = 0 ∨ maxDimensions < n.toNat
  · have hinvalid : n.toNat = 0 ∨ 32 < n.toNat ∨ c.toNat = 0 := hn.imp_right .inl
    rw [dif_pos hn, if_pos (.inr hinvalid)]
    rfl
  rw [dif_neg hn]
  by_cases hc : c.toNat = 0
  · rw [dif_pos hc, if_pos (.inr (.inr (.inr hc)))]
    rfl
  have hvalid : ¬ (k.toNat = 0 ∨ n.toNat = 0 ∨ 32 < n.toNat ∨ c.toNat = 0) := by
    intro hbad
    rcases hbad with h | h | h | h
    · exact hk h
    · exact hn (.inl h)
    · exact hn (.inr h)
    · exact hc h
  rw [dif_neg hc, if_neg hvalid]
  split
  · next hp =>
    -- A power that is no word stays none when it is multiplied by the concentration.
    have hpow := Word.le_pow_of_pow_eq_error hp
    have hle : k.toNat ^ n.toNat ≤ c.toNat * k.toNat ^ n.toNat :=
      Nat.le_mul_of_pos_left _ (Nat.pos_of_ne_zero hc)
    rw [Verdict.ofCounts_of_le (hpow.trans hle)]
    rfl
  · next routers hp =>
    have hrouters : routers.toNat = k.toNat ^ n.toNat := Word.pow_eq_ok_iff.mp hp
    split
    · next hm =>
      have hle := Word.le_mul_of_mul_eq_error hm
      rw [hrouters, Nat.mul_comm] at hle
      rw [Verdict.ofCounts_of_le hle]
      rfl
    · next nodes hm =>
      have hnodes : nodes.toNat = c.toNat * k.toNat ^ n.toNat := by
        rw [Word.mul_eq_ok_iff.mp hm, hrouters, Nat.mul_comm]
      rw [← hnodes, ← hrouters, Verdict.ofCounts_toNat]
      by_cases hlarge : maxNodes < nodes.toNat
      · rw [dif_pos hlarge, if_pos hlarge]
        rfl
      · rw [dif_neg hlarge, if_neg hlarge]
        rfl

theorem Cube.kind_of_build_eq_error {k n c : UInt64} {wraps : Bool} {e : Topology.Error}
    (h : build k n c wraps = .error e) : e.kind = kindOf wraps := by
  unfold build at h
  split at h
  · cases h; rfl
  split at h
  · cases h; rfl
  split at h
  · cases h; rfl
  split at h
  · cases h; rfl
  split at h
  · cases h; rfl
  split at h
  · cases h; rfl
  · cases h

/-! ## Fat trees -/

namespace FatTree

theorem not_isArity_iff {k : UInt64} : ¬ IsArity k ↔ k.toNat % 2 = 1 ∨ k.toNat < 2 := by
  unfold IsArity
  omega

/-- For an even arity both ways of counting nodes agree. -/
theorem nodeCount_eq {k : ℕ} (h : k % 2 = 0) : k * (k / 2) ^ 2 = k ^ 3 / 4 := by
  obtain ⟨half, rfl⟩ := Nat.dvd_of_mod_eq_zero h
  have hcube : (2 * half) ^ 3 = 2 * half * half ^ 2 * 4 := by ring
  rw [hcube, Nat.mul_div_cancel_left half Nat.two_pos, Nat.mul_div_cancel _ (by decide)]

theorem routerCount_eq {k : ℕ} (h : k % 2 = 0) :
    2 * k * (k / 2) + k / 2 * (k / 2) = 5 * k ^ 2 / 4 := by
  obtain ⟨half, rfl⟩ := Nat.dvd_of_mod_eq_zero h
  have hsquare : 5 * (2 * half) ^ 2 = (2 * (2 * half) * half + half * half) * 4 := by ring
  rw [hsquare, Nat.mul_div_cancel_left half Nat.two_pos, Nat.mul_div_cancel _ (by decide)]

theorem ofFatTree_toNat {k : UInt64} (h : IsArity k) :
    Verdict.ofFatTree k.toNat =
      Verdict.ofCounts (5 * k.toNat ^ 2 / 4) (k.toNat * (k.toNat / 2) ^ 2) := by
  have hvalid : ¬ (k.toNat % 2 = 1 ∨ k.toNat < 2) := fun hbad ↦ not_isArity_iff.mpr hbad h
  rw [Verdict.ofFatTree, if_neg hvalid, ← nodeCount_eq h.2]
  rfl

theorem ofOutcome_build (k : UInt64) :
    Verdict.ofOutcome ((build k).map .fatTree) = Verdict.ofFatTree k.toNat := by
  unfold build
  by_cases ha : IsArity k
  · have hhalf : (k / 2).toNat = k.toNat / 2 := UInt64.toNat_div k 2
    have hpos : 0 < k.toNat / 2 := by
      have := ha.1
      omega
    rw [dif_pos ha, ofFatTree_toNat ha]
    split
    · next hp =>
      have hle := Word.le_mul_of_mul_eq_error hp
      rw [hhalf] at hle
      have hle' : 2 ^ 64 ≤ k.toNat * (k.toNat / 2) ^ 2 := by
        rw [Nat.pow_two, ← Nat.mul_assoc]
        exact hle.trans (Nat.le_mul_of_pos_right _ hpos)
      rw [Verdict.ofCounts_of_le hle']
      rfl
    · next perLayer hp =>
      have hlayer : perLayer.toNat = k.toNat * (k.toNat / 2) := by
        rw [Word.mul_eq_ok_iff.mp hp, hhalf]
      split
      · next hm =>
        have hle := Word.le_mul_of_mul_eq_error hm
        rw [hlayer, hhalf, Nat.mul_assoc, ← Nat.pow_two] at hle
        rw [Verdict.ofCounts_of_le hle]
        rfl
      · next nodes hm =>
        have hnodes : nodes.toNat = k.toNat * (k.toNat / 2) ^ 2 := by
          rw [Word.mul_eq_ok_iff.mp hm, hlayer, hhalf, Nat.mul_assoc, ← Nat.pow_two]
        rw [← hnodes, Verdict.ofCounts_toNat]
        by_cases hlarge : maxNodes < nodes.toNat
        · rw [dif_pos hlarge, if_pos hlarge]
          rfl
        · have hrouters := toNat_routerCount ha hp hm hlarge
          rw [routerCount_eq ha.2] at hrouters
          rw [dif_neg hlarge, if_neg hlarge, ← hrouters]
          rfl
  · rw [dif_neg ha, Verdict.ofFatTree, if_pos (not_isArity_iff.mp ha)]
    rfl

theorem kind_of_build_eq_error {k : UInt64} {e : Topology.Error} (h : build k = .error e) :
    e.kind = .fatTree := by
  unfold build at h
  split at h
  · split at h
    · cases h; rfl
    split at h
    · cases h; rfl
    split at h
    · cases h; rfl
    · cases h
  · cases h; rfl

/-- Nothing wraps while the switches of a tree are counted. -/
theorem switchCount_arity (tree : FatTree) : switchCount tree.arity = .ok tree.routers := by
  obtain ⟨hlayer, hcore⟩ := tree.arity_mul_half_le
  have hmax : maxNodes = 1048576 := rfl
  have hle : tree.arity.toNat ≤ tree.arity.toNat * tree.half.toNat :=
    Nat.le_mul_of_pos_right _ tree.half_pos
  have hpods : 2 * tree.arity.toNat * tree.half.toNat =
      2 * (tree.arity.toNat * tree.half.toNat) := Nat.mul_assoc _ _ _
  have htwice : Word.mul 2 tree.arity = .ok (2 * tree.arity) :=
    Word.mul_eq_ok_of_lt (by rw [show (2 : UInt64).toNat = 2 from rfl]; omega)
  have htwice' : (2 * tree.arity).toNat = 2 * tree.arity.toNat := Word.mul_eq_ok_iff.mp htwice
  have hpods' : Word.mul (2 * tree.arity) tree.half = .ok (2 * tree.arity * tree.half) :=
    Word.mul_eq_ok_of_lt (by rw [htwice']; omega)
  have hcore' : Word.mul tree.half tree.half = .ok (tree.half * tree.half) :=
    Word.mul_eq_ok_of_lt (by omega)
  have hsum : Word.add (2 * tree.arity * tree.half) (tree.half * tree.half) =
      .ok tree.routers := by
    rw [Word.add_eq_ok_iff, Word.mul_eq_ok_iff.mp hpods', Word.mul_eq_ok_iff.mp hcore', htwice',
      toNat_half]
    exact tree.routers_eq
  change (do
    let twice ← Word.mul 2 tree.arity
    let pods ← Word.mul twice tree.half
    let core ← Word.mul tree.half tree.half
    Word.add pods core) = _
  rw [htwice]
  change (do
    let pods ← Word.mul (2 * tree.arity) tree.half
    let core ← Word.mul tree.half tree.half
    Word.add pods core) = _
  rw [hpods', hcore']
  exact hsum

end FatTree

/-! ## Every design -/

namespace Design

theorem ofOutcome_build (design : Design) :
    Verdict.ofOutcome design.build = design.verdict := by
  cases design with
  | mesh k n c => exact Cube.ofOutcome_build k n c false
  | torus k n c => exact Cube.ofOutcome_build k n c true
  | fatTree k => exact FatTree.ofOutcome_build k
  | dumbbell => rfl
  | custom routers nodes =>
    simp only [build, verdict, Verdict.ofCustom]
    by_cases ha : routers.toNat = 0 ∧ 0 < nodes.toNat
    · rw [dif_pos ha, if_pos ha]
      rfl
    rw [dif_neg ha, if_neg ha]
    by_cases hn : maxNodes < nodes.toNat
    · rw [dif_pos hn, if_pos (show 2 ^ 20 < nodes.toNat from hn)]
      rfl
    rw [dif_neg hn, if_neg (show ¬ 2 ^ 20 < nodes.toNat from hn)]
    by_cases hr : Word.signedSize ≤ routers.toNat
    · rw [dif_pos hr, if_pos (show 2 ^ 63 - 1 < routers.toNat from hr)]
      rfl
    · rw [dif_neg hr, if_neg (show ¬ 2 ^ 63 - 1 < routers.toNat from hr)]
      rfl

theorem eq_error_of_map_eq_error {α β : Type} {outcome : Except Topology.Error α} {f : α → β}
    {e : Topology.Error} (h : outcome.map f = .error e) : outcome = .error e := by
  cases outcome with
  | error e' => exact congrArg Except.error (Except.error.inj h)
  | ok a => cases h

theorem kind_of_build_eq_error {design : Design} {e : Topology.Error}
    (h : design.build = .error e) : e.kind = design.kind := by
  cases design with
  | mesh k n c => exact Cube.kind_of_build_eq_error (eq_error_of_map_eq_error h)
  | torus k n c => exact Cube.kind_of_build_eq_error (eq_error_of_map_eq_error h)
  | fatTree k => exact FatTree.kind_of_build_eq_error (eq_error_of_map_eq_error h)
  | dumbbell => cases h
  | custom routers nodes =>
    simp only [build] at h
    split at h
    · cases h; rfl
    split at h
    · cases h; rfl
    split at h
    · cases h; rfl
    · cases h

end Design

/-- A topology that has nodes has a router to attach them to. -/
theorem Topology.routers_pos (topology : Topology) (h : 0 < topology.nodes.toNat) :
    0 < topology.routers.toNat := by
  cases topology with
  | cube c =>
    change 0 < c.routers.toNat
    rw [c.routers_eq]
    exact Nat.pow_pos c.radix_pos
  | fatTree t =>
    change 0 < t.routers.toNat
    have hhalf : 0 < t.arity.toNat / 2 := t.toNat_half ▸ t.half_pos
    rw [t.routers_eq]
    exact Nat.add_pos_right _ (Nat.mul_pos hhalf hhalf)
  | dumbbell => decide
  | custom routers nodes attachable nodes_le routers_lt =>
    apply Nat.pos_of_ne_zero
    intro hzero
    exact absurd (attachable hzero) (Nat.ne_of_gt h)

/-- Building a design agrees with unbounded arithmetic about every parameter: on what is accepted
with which counts, and on which fault is reported first.  A fault names the kind of the design, the
one sum that is formed without a check does not wrap, and the counts of an accepted design are in
range. -/
theorem Design.build_exact (design : Design) :
    Verdict.ofOutcome design.build = design.verdict ∧
      (∀ e, design.build = .error e → e.kind = design.kind) ∧
      (∀ topology tree, design.build = .ok topology → topology.fatTree? = some tree →
        FatTree.switchCount tree.arity = .ok tree.routers) ∧
      ∀ topology, design.build = .ok topology →
        topology.nodes.toNat ≤ 2 ^ 20 ∧ topology.routers.toNat ≤ 2 ^ 63 - 1 ∧
          (0 < topology.nodes.toNat → 0 < topology.routers.toNat) := by
  refine ⟨design.ofOutcome_build, fun e ↦ kind_of_build_eq_error, ?_, ?_⟩
  · intro topology tree _ _
    exact tree.switchCount_arity
  · intro topology _
    exact ⟨topology.nodes_le, Nat.le_sub_one_of_lt topology.routers_lt, topology.routers_pos⟩

end Interconnect
