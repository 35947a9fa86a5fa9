import Interconnect.Proofs.Topology.Counts
import Interconnect.Proofs.Topology.Partition

/-!
# Switch numbers that leave the words

Nobody checks a place before its number is formed, so the product and the two sums in it may each
leave the words.  What happens then is said by two bounds on natural numbers: no number is returned
when the exact one, `Place.rank`, is no word, and the operation that is blamed is the product exactly
when the product alone is no word (`FatTree.number_exact`).  The numbers of the first switches of the
layers need no check, for the size of a tree bounds them.
-/

namespace Interconnect

namespace Word

variable {a b : UInt64} {e : Overflow}

theorem mul_eq_error_iff :
    mul a b = .error e ↔ e = .multiplication ∧ 2 ^ 64 ≤ a.toNat * b.toNat := by
  constructor
  · intro h
    refine ⟨?_, le_mul_of_mul_eq_error h⟩
    unfold mul at h
    split at h
    · cases h
    · exact (Except.error.inj h).symm
  · rintro ⟨rfl, hle⟩
    exact if_neg (Nat.not_lt.mpr hle)

theorem eq_addition_of_add_eq_error (h : add a b = .error e) : e = .addition := by
  unfold add at h
  split at h
  · cases h
  · exact (Except.error.inj h).symm

end Word

namespace FatTree

/-- The number of a place in a tree of the given arity, whether or not it is a word: before a switch
come those of earlier layers, those of earlier groups, and those before it in its own group. -/
def Place.rank (arity : ℕ) (place : Place) : ℕ :=
  match place.layer with
  | .edge => place.group.toNat * (arity / 2) + place.index.toNat
  | .aggregation =>
    arity * (arity / 2) + place.group.toNat * (arity / 2) + place.index.toNat
  | .core => 2 * arity * (arity / 2) + place.group.toNat * (arity / 2) + place.index.toNat

variable (tree : FatTree) {place : Place}

theorem exactNumber_eq_rank (place : Place) :
    tree.exactNumber place = place.rank tree.arity.toNat := by
  rw [exactNumber, toNat_firstOf, toNat_half]
  unfold Place.rank
  cases place.layer with
  | edge => rw [Layer.position, Nat.zero_mul, Nat.zero_add]
  | aggregation => rw [Layer.position, Nat.one_mul]
  | core => rw [Layer.position, Nat.mul_assoc]

/-- Once there is a product, only a sum can overflow. -/
theorem eq_addition_of_number_eq_error {e : Overflow} {offset : UInt64}
    (hoffset : Word.mul place.group tree.half = .ok offset)
    (h : tree.number place = .error e) : e = .addition := by
  rw [number, hoffset] at h
  change (Word.add (tree.firstOf place.layer) offset >>= (Word.add · place.index)) = _ at h
  cases hstart : Word.add (tree.firstOf place.layer) offset with
  | error e' =>
    rw [hstart] at h
    rw [← Except.error.inj h]
    exact Word.eq_addition_of_add_eq_error hstart
  | ok start =>
    rw [hstart] at h
    exact Word.eq_addition_of_add_eq_error h

theorem number_eq_multiplication_iff :
    tree.number place = .error .multiplication ↔
      2 ^ 64 ≤ place.group.toNat * tree.half.toNat := by
  constructor
  · intro h
    cases hoffset : Word.mul place.group tree.half with
    | error e => exact (Word.mul_eq_error_iff.mp hoffset).2
    | ok offset => exact absurd (tree.eq_addition_of_number_eq_error hoffset h) (by decide)
  · intro h
    have hoffset : Word.mul place.group tree.half = .error .multiplication :=
      Word.mul_eq_error_iff.mpr ⟨rfl, h⟩
    rw [number, hoffset]
    rfl

/-- A number that is not returned leaves the words in a sum unless it does so in the product. -/
theorem number_eq_addition_iff :
    tree.number place = .error .addition ↔
      place.group.toNat * tree.half.toNat < 2 ^ 64 ∧ 2 ^ 64 ≤ tree.exactNumber place := by
  have hmul : tree.number place = .error .multiplication ↔ _ := tree.number_eq_multiplication_iff
  have hok : (∃ router, tree.number place = .ok router) ↔ _ := tree.exists_number_eq_ok_iff
  constructor
  · intro h
    rw [h] at hmul hok
    refine ⟨Nat.lt_of_not_le fun hle ↦ ?_, Nat.le_of_not_lt fun hlt ↦ ?_⟩
    · exact absurd (hmul.mpr hle) (by decide)
    · obtain ⟨router, hrouter⟩ := hok.mpr hlt
      cases hrouter
  · intro h
    cases hnumber : tree.number place with
    | ok router => exact absurd (hok.mp ⟨router, hnumber⟩) (Nat.not_lt.mpr h.2)
    | error e =>
      cases e with
      | multiplication => exact absurd (hmul.mp hnumber) (Nat.not_le.mpr h.1)
      | addition => rfl

/-- In every tree that can be built and for any place at all, the number that is returned is the
exact one, and it is returned exactly when it is a word.  Otherwise the product of the group with the
switches of a group is reported to overflow if it is no word, and a sum is if the product is one.
No operation besides these three stops on the way. -/
theorem number_exact {arity : UInt64} {tree : FatTree} (h : build arity = .ok tree)
    (place : Place) :
    (∀ router, tree.number place = .ok router ↔ router.toNat = place.rank arity.toNat) ∧
      ((∃ router, tree.number place = .ok router) ↔ place.rank arity.toNat < 2 ^ 64) ∧
      (tree.number place = .error .multiplication ↔
        2 ^ 64 ≤ place.group.toNat * (arity.toNat / 2)) ∧
      (tree.number place = .error .addition ↔
        place.group.toNat * (arity.toNat / 2) < 2 ^ 64 ∧ 2 ^ 64 ≤ place.rank arity.toNat) ∧
      Trapping.number tree place = (tree.number place).mapError .overflow := by
  obtain rfl := arity_of_build_eq_ok h
  rw [← exactNumber_eq_rank, ← toNat_half]
  exact ⟨fun _ ↦ tree.number_eq_ok_iff, tree.exists_number_eq_ok_iff,
    tree.number_eq_multiplication_iff, tree.number_eq_addition_iff, Trapping.number_eq tree place⟩

/-- In the tree of arity 4, the last word is the number of an edge switch far out.  One switch further
the sum overflows, and one pod further the product does. -/
theorem number_exact_four :
    ∃ tree, build 4 = .ok tree ∧
      tree.number ⟨.edge, 0x7FFFFFFFFFFFFFFF, 1⟩ = .ok 0xFFFFFFFFFFFFFFFF ∧
      tree.number ⟨.edge, 0x7FFFFFFFFFFFFFFF, 2⟩ = .error .addition ∧
      tree.number ⟨.core, 0x8000000000000000, 0⟩ = .error .multiplication := by
  obtain ⟨tree, hbuild⟩ : ∃ tree, build 4 = .ok tree := ⟨_, rfl⟩
  have hlast := number_exact hbuild ⟨.edge, 0x7FFFFFFFFFFFFFFF, 1⟩
  have hsum := number_exact hbuild ⟨.edge, 0x7FFFFFFFFFFFFFFF, 2⟩
  have hproduct := number_exact hbuild ⟨.core, 0x8000000000000000, 0⟩
  refine ⟨tree, hbuild, (hlast.1 _).mpr ?_, hsum.2.2.2.1.mpr ?_, hproduct.2.2.1.mpr ?_⟩
  · decide
  · decide
  · decide

end FatTree

end Interconnect
