import Mathlib.Algebra.Order.Ring.Nat
import Interconnect.Topology.FatTree

/-!
# Numbers of switches

The switch at a place of a fat tree has the number `first + group * half + index`, where `first` is
the number of the first switch of the layer.  `FatTree.number` returns it exactly when it is a word
(`FatTree.number_eq_ok_iff`), and the place of a switch leads back to its number
(`FatTree.exactNumber_placeOf`).  The edge switch of a host is found by its place in the same way: its
pod is that of the host, and its index counts the edge switches of the pod.
-/

namespace Interconnect.FatTree

variable (tree : FatTree)

/-- The number that a place has by the rule, whether or not it is a word. -/
def exactNumber (place : Place) : ℕ :=
  (tree.firstOf place.layer).toNat + place.group.toNat * tree.half.toNat + place.index.toNat

theorem number_eq_ok_iff {place : Place} {router : UInt64} :
    tree.number place = .ok router ↔ router.toNat = tree.exactNumber place := by
  unfold number exactNumber
  constructor
  · intro h
    cases hoffset : Word.mul place.group tree.half with
    | error e => rw [hoffset] at h; cases h
    | ok offset =>
      rw [hoffset] at h
      change (do Word.add (← Word.add (tree.firstOf place.layer) offset) place.index) = _ at h
      cases hstart : Word.add (tree.firstOf place.layer) offset with
      | error e => rw [hstart] at h; cases h
      | ok start =>
        rw [hstart] at h
        rw [Word.add_eq_ok_iff.mp h, Word.add_eq_ok_iff.mp hstart, Word.mul_eq_ok_iff.mp hoffset]
  · intro h
    have hrouter := router.toNat_lt
    -- Every part of the sum is at most the sum, so that it is a word as well.
    have hoffset : Word.mul place.group tree.half =
        .ok (UInt64.ofNat (place.group.toNat * tree.half.toNat)) :=
      Word.mul_eq_ok_iff.mpr (UInt64.toNat_ofNat_of_lt' (by rw [UInt64.size]; omega))
    have hstart : Word.add (tree.firstOf place.layer)
        (UInt64.ofNat (place.group.toNat * tree.half.toNat)) =
        .ok (UInt64.ofNat ((tree.firstOf place.layer).toNat +
          place.group.toNat * tree.half.toNat)) := by
      rw [Word.add_eq_ok_iff, UInt64.toNat_ofNat_of_lt' (by rw [UInt64.size]; omega),
        UInt64.toNat_ofNat_of_lt' (by rw [UInt64.size]; omega)]
    rw [hoffset]
    change (do Word.add (← Word.add (tree.firstOf place.layer) _) place.index) = _
    rw [hstart]
    change Word.add _ place.index = _
    rw [Word.add_eq_ok_iff, UInt64.toNat_ofNat_of_lt' (by rw [UInt64.size]; omega), h]

theorem exists_number_eq_ok_iff {place : Place} :
    (∃ router, tree.number place = .ok router) ↔ tree.exactNumber place < 2 ^ 64 := by
  constructor
  · rintro ⟨router, hrouter⟩
    rw [← (tree.number_eq_ok_iff).mp hrouter]
    exact router.toNat_lt
  · intro h
    exact ⟨.ofNat (tree.exactNumber place),
      (tree.number_eq_ok_iff).mpr (UInt64.toNat_ofNat_of_lt' h)⟩

/-- The place of the edge switch that carries a host. -/
def hostPlace (half host : ℕ) : Place :=
  ⟨.edge, UInt64.ofNat (host / half ^ 2), UInt64.ofNat (host / half % half)⟩

theorem number_hostPlace (host : UInt64) :
    tree.number (hostPlace tree.half.toNat host.toNat) = .ok (tree.edgeOf host) := by
  have hhost := host.toNat_lt
  have hgroup : host.toNat / tree.half.toNat ^ 2 < 2 ^ 64 :=
    Nat.lt_of_le_of_lt (Nat.div_le_self _ _) hhost
  have hindex : host.toNat / tree.half.toNat % tree.half.toNat < 2 ^ 64 :=
    Nat.lt_of_le_of_lt (Nat.mod_le _ _) (Nat.lt_of_le_of_lt (Nat.div_le_self _ _) hhost)
  rw [number_eq_ok_iff, exactNumber, hostPlace, edgeOf, UInt64.toNat_div,
    UInt64.toNat_ofNat_of_lt' hgroup, UInt64.toNat_ofNat_of_lt' hindex, Nat.pow_two,
    ← Nat.div_div_eq_div_mul]
  change _ = 0 + _ + _
  rw [Nat.zero_add, Nat.mul_comm, Nat.div_add_mod]

/-- A switch does not come before the first one of its layer. -/
theorem firstOf_placeOf_le (router : UInt64) :
    tree.firstOf (tree.placeOf router).layer ≤ router := by
  unfold placeOf
  dsimp only
  split
  · exact UInt64.zero_le
  split
  · next hedge _ => exact UInt64.not_lt.mp hedge
  · next hcore => exact UInt64.not_lt.mp hcore

/-- The number of the place of a switch is the number of the switch, past the last switch as well. -/
theorem exactNumber_placeOf (router : UInt64) :
    tree.exactNumber (tree.placeOf router) = router.toNat := by
  have hle := tree.firstOf_placeOf_le router
  have hoffset := UInt64.toNat_sub_of_le router _ hle
  rw [UInt64.le_iff_toNat_le] at hle
  change _ + ((router - tree.firstOf (tree.placeOf router).layer) / tree.half).toNat * _ +
    ((router - tree.firstOf (tree.placeOf router).layer) % tree.half).toNat = _
  rw [UInt64.toNat_div, UInt64.toNat_mod, hoffset, Nat.add_assoc, Nat.mul_comm, Nat.div_add_mod]
  omega

theorem placeOf_injective : Function.Injective tree.placeOf := by
  intro r s h
  have hnumber := congrArg tree.exactNumber h
  rw [exactNumber_placeOf, exactNumber_placeOf] at hnumber
  exact UInt64.toNat_inj.mp hnumber

end Interconnect.FatTree
