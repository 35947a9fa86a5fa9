import Interconnect.Proofs.Topology.Labels
import Interconnect.Proofs.Topology.Trapping

/-!
# The switches of a fat tree

The places of a tree are numbered without gaps: each layer fills the numbers from its first switch
up to the first switch of the next layer, and the core fills the rest
(`FatTree.first_add_switches_le`, `FatTree.exactNumber_lt_routers`).  So a number below the number
of routers belongs to one place (`FatTree.isIn_placeOf`), which `FatTree.placeOf` finds
(`FatTree.placeOf_eq_of_number`), and the label of a switch spells the place it has its number from.
-/

namespace Interconnect.FatTree

/-! ## Places of a tree -/

/-- The order of the layers. -/
def Layer.position : Layer → ℕ
  | .edge => 0
  | .aggregation => 1
  | .core => 2

/-- How many groups of switches a layer has in a tree of the given arity. -/
def Layer.groups (arity : ℕ) : Layer → ℕ
  | .edge => arity
  | .aggregation => arity
  | .core => arity / 2

/-- The place is one of the places of a tree of the given arity. -/
structure Place.IsIn (arity : ℕ) (place : Place) : Prop where
  group_lt : place.group.toNat < place.layer.groups arity
  index_lt : place.index.toNat < arity / 2

variable (tree : FatTree)

theorem toNat_firstOf (layer : Layer) :
    (tree.firstOf layer).toNat = layer.position * (tree.arity.toNat * tree.half.toNat) := by
  cases layer with
  | edge => exact (Nat.zero_mul _).symm
  | aggregation => exact tree.toNat_perLayer.trans (Nat.one_mul _).symm
  | core =>
    have hword : (2 : UInt64).toNat = 2 := rfl
    change (2 * tree.perLayer).toNat = 2 * _
    rw [UInt64.toNat_mul, hword, tree.toNat_perLayer]
    exact Nat.mod_eq_of_lt (Trapping.two_mul_switches_lt tree)

/-- A layer ends where the next one begins, or before. -/
theorem first_add_switches_le {a b : Layer} (h : a.position < b.position) :
    (tree.firstOf a).toNat + a.groups tree.arity.toNat * tree.half.toNat ≤
      (tree.firstOf b).toNat := by
  rw [toNat_firstOf, toNat_firstOf]
  cases a <;> cases b <;> simp [Layer.position, Layer.groups] at h ⊢ <;> omega

/-- The core ends where the tree does. -/
theorem first_add_switches_core :
    (tree.firstOf .core).toNat + Layer.core.groups tree.arity.toNat * tree.half.toNat =
      tree.routers.toNat := by
  rw [toNat_firstOf, tree.routers_eq, Layer.groups, ← tree.toNat_half, Nat.mul_assoc]
  rfl

section

variable {tree} {place : Place}

theorem exactNumber_lt (h : place.IsIn tree.arity.toNat) :
    tree.exactNumber place < (tree.firstOf place.layer).toNat +
      place.layer.groups tree.arity.toNat * tree.half.toNat := by
  have hindex := h.index_lt
  rw [← tree.toNat_half] at hindex
  have hgroup : (place.group.toNat + 1) * tree.half.toNat ≤
      place.layer.groups tree.arity.toNat * tree.half.toNat := Nat.mul_le_mul_right _ h.group_lt
  rw [Nat.add_mul, Nat.one_mul] at hgroup
  rw [exactNumber]
  omega

theorem exactNumber_lt_routers (h : place.IsIn tree.arity.toNat) :
    tree.exactNumber place < tree.routers.toNat := by
  have hlt := exactNumber_lt h
  by_cases hcore : place.layer = .core
  · rwa [hcore, first_add_switches_core] at hlt
  · have hposition : place.layer.position < Layer.core.position := by
      cases hlayer : place.layer <;> simp_all [Layer.position]
    have hend := tree.first_add_switches_le hposition
    have hrouters := tree.first_add_switches_core
    omega

end

/-! ## The place of a number -/

/-- The layer of a number is found by comparing it with the first numbers of the layers. -/
theorem layer_placeOf_cases (router : UInt64) :
    (tree.placeOf router).layer = .edge ∧
        router.toNat < tree.arity.toNat * tree.half.toNat ∨
      (tree.placeOf router).layer = .aggregation ∧
        tree.arity.toNat * tree.half.toNat ≤ router.toNat ∧
        router.toNat < 2 * (tree.arity.toNat * tree.half.toNat) ∨
      (tree.placeOf router).layer = .core ∧
        2 * (tree.arity.toNat * tree.half.toNat) ≤ router.toNat := by
  have hedge : router < tree.perLayer ↔ router.toNat < tree.arity.toNat * tree.half.toNat := by
    rw [UInt64.lt_iff_toNat_lt, toNat_perLayer]
  have haggregation : router < 2 * tree.perLayer ↔
      router.toNat < 2 * (tree.arity.toNat * tree.half.toNat) := by
    rw [UInt64.lt_iff_toNat_lt]
    change router.toNat < (tree.firstOf .core).toNat ↔ _
    rw [toNat_firstOf, Layer.position]
  simp only [placeOf, hedge, haggregation]
  split
  · next h => exact .inl ⟨rfl, h⟩
  split
  · next h h' => exact .inr (.inl ⟨rfl, Nat.le_of_not_lt h, h'⟩)
  · next h => exact .inr (.inr ⟨rfl, Nat.le_of_not_lt h⟩)

section

variable {tree} {place : Place} {router : UInt64}

/-- A number between the ends of a layer belongs to the layer. -/
theorem layer_placeOf_eq {layer : Layer} (hfirst : (tree.firstOf layer).toNat ≤ router.toNat)
    (hend : router.toNat < (tree.firstOf layer).toNat +
      layer.groups tree.arity.toNat * tree.half.toNat) : (tree.placeOf router).layer = layer := by
  rw [toNat_firstOf] at hfirst hend
  rcases tree.layer_placeOf_cases router with ⟨h, hlt⟩ | ⟨h, hle, hlt⟩ | ⟨h, hle⟩ <;>
    cases layer <;> simp only [Layer.position, Layer.groups, h] at hfirst hend ⊢ <;> omega

/-- The number of a switch lies before the end of the layer that it is found in. -/
theorem lt_end_placeOf (h : router.toNat < tree.routers.toNat) :
    router.toNat < (tree.firstOf (tree.placeOf router).layer).toNat +
      (tree.placeOf router).layer.groups tree.arity.toNat * tree.half.toNat := by
  rcases tree.layer_placeOf_cases router with ⟨hlayer, hlt⟩ | ⟨hlayer, -, hlt⟩ | ⟨hlayer, -⟩
  · rw [hlayer, toNat_firstOf]
    simp only [Layer.position, Layer.groups]
    omega
  · rw [hlayer, toNat_firstOf]
    simp only [Layer.position, Layer.groups]
    omega
  · rwa [hlayer, first_add_switches_core]

theorem isIn_placeOf (h : router.toNat < tree.routers.toNat) :
    (tree.placeOf router).IsIn tree.arity.toNat := by
  have hle := tree.firstOf_placeOf_le router
  have hlt := lt_end_placeOf h
  have hoffset := UInt64.toNat_sub_of_le router _ hle
  rw [UInt64.le_iff_toNat_le] at hle
  constructor
  · change ((router - tree.firstOf (tree.placeOf router).layer) / tree.half).toNat < _
    rw [UInt64.toNat_div, hoffset, Nat.div_lt_iff_lt_mul tree.half_pos]
    omega
  · change ((router - tree.firstOf (tree.placeOf router).layer) % tree.half).toNat < _
    rw [UInt64.toNat_mod, ← tree.toNat_half]
    exact Nat.mod_lt _ tree.half_pos

theorem placeOf_eq_of_number (h : place.IsIn tree.arity.toNat)
    (hnumber : tree.number place = .ok router) : tree.placeOf router = place := by
  rw [number_eq_ok_iff] at hnumber
  have hlt := exactNumber_lt h
  have hindex := h.index_lt
  rw [← tree.toNat_half] at hindex
  have hlayer : (tree.placeOf router).layer = place.layer :=
    layer_placeOf_eq (by rw [hnumber, exactNumber]; omega) (by rw [hnumber]; exact hlt)
  have hle := tree.firstOf_placeOf_le router
  rw [hlayer] at hle
  have hoffset : (router - tree.firstOf place.layer).toNat =
      place.index.toNat + place.group.toNat * tree.half.toNat := by
    rw [UInt64.toNat_sub_of_le router _ hle, hnumber, exactNumber]
    omega
  have hgroup : (router - tree.firstOf place.layer) / tree.half = place.group := by
    apply UInt64.toNat_inj.mp
    rw [UInt64.toNat_div, hoffset, Nat.add_mul_div_right _ _ tree.half_pos,
      Nat.div_eq_of_lt hindex, Nat.zero_add]
  have hrest : (router - tree.firstOf place.layer) % tree.half = place.index := by
    apply UInt64.toNat_inj.mp
    rw [UInt64.toNat_mod, hoffset, Nat.add_mul_mod_self_right, Nat.mod_eq_of_lt hindex]
  calc tree.placeOf router
      = ⟨(tree.placeOf router).layer,
          (router - tree.firstOf (tree.placeOf router).layer) / tree.half,
          (router - tree.firstOf (tree.placeOf router).layer) % tree.half⟩ := rfl
    _ = place := by rw [hlayer, hgroup, hrest]

end

/-! ## All switches -/

/-- The places of a tree and the numbers below the number of its routers correspond to each other,
layer after layer, and labels spell the places.  Past the last switch there are labels too, and none
of them is that of another number. -/
structure NumbersSwitches (arity : ℕ) : Prop where
  /-- On the way to the number of a place no operation overflows. -/
  exists_number : ∀ place : Place, place.IsIn arity → ∃ router,
    tree.number place = .ok router ∧ Trapping.number tree place = .ok router ∧
      router.toNat < tree.routers.toNat
  number_injective : ∀ a b : Place, a.IsIn arity → b.IsIn arity →
    tree.number a = tree.number b → a = b
  existsUnique_place : ∀ router : UInt64, router.toNat < tree.routers.toNat →
    ∃! place : Place, place.IsIn arity ∧ tree.number place = .ok router
  number_lt : ∀ (a b : Place) (r s : UInt64), a.IsIn arity → b.IsIn arity →
    a.layer.position < b.layer.position → tree.number a = .ok r → tree.number b = .ok s → r < s
  label_number : ∀ (place : Place) (router : UInt64), place.IsIn arity →
    tree.number place = .ok router → tree.label router =
      (match place.layer with | .edge => "e" | .aggregation => "a" | .core => "c") ++
        toString place.group.toNat ++ "_" ++ toString place.index.toNat
  /-- On the way to the label of any number no operation stops. -/
  label_returns : ∀ router, Trapping.switchLabel tree router = .ok (tree.label router)
  label_injective : Function.Injective tree.label

theorem exists_number_of_isIn {place : Place} (h : place.IsIn tree.arity.toNat) :
    ∃ router, tree.number place = .ok router ∧ Trapping.number tree place = .ok router ∧
      router.toNat < tree.routers.toNat := by
  have hlt := exactNumber_lt_routers h
  obtain ⟨router, hrouter⟩ :=
    tree.exists_number_eq_ok_iff.mpr (Nat.lt_trans hlt tree.routers.toNat_lt)
  refine ⟨router, hrouter, ?_, ?_⟩
  · rw [Trapping.number_eq, hrouter]
    rfl
  · rwa [tree.number_eq_ok_iff.mp hrouter]

theorem number_placeOf (router : UInt64) : tree.number (tree.placeOf router) = .ok router :=
  tree.number_eq_ok_iff.mpr (tree.exactNumber_placeOf router).symm

/-- A switch of an earlier layer has a smaller number. -/
theorem lt_of_position_lt {a b : Place} {r s : UInt64} (ha : a.IsIn tree.arity.toNat)
    (hposition : a.layer.position < b.layer.position) (hr : tree.number a = .ok r)
    (hs : tree.number b = .ok s) : r < s := by
  rw [number_eq_ok_iff] at hr hs
  rw [UInt64.lt_iff_toNat_lt]
  calc r.toNat
      = tree.exactNumber a := hr
    _ < (tree.firstOf a.layer).toNat + a.layer.groups tree.arity.toNat * tree.half.toNat :=
        exactNumber_lt ha
    _ ≤ (tree.firstOf b.layer).toNat := tree.first_add_switches_le hposition
    _ ≤ tree.exactNumber b := Nat.le_trans (Nat.le_add_right _ _) (Nat.le_add_right _ _)
    _ = s.toNat := hs.symm

/-- In every tree that can be built, the places of the edge switches, the aggregation switches and
the core switches are numbered in this order, each place by one number and each number below the
number of routers for one place, and the label of a number spells its place. -/
theorem numbersSwitches_of_build {arity : UInt64} {tree : FatTree} (h : build arity = .ok tree) :
    tree.NumbersSwitches arity.toNat := by
  obtain rfl := arity_of_build_eq_ok h
  refine
    { exists_number := fun place ↦ tree.exists_number_of_isIn
      number_injective := ?_
      existsUnique_place := ?_
      number_lt := fun a b r s ha _ ↦ tree.lt_of_position_lt ha
      label_number := ?_
      label_returns := Trapping.switchLabel_eq tree
      label_injective := tree.label_injective }
  · intro a b ha hb heq
    obtain ⟨router, hrouter, -⟩ := tree.exists_number_of_isIn ha
    rw [← placeOf_eq_of_number ha hrouter, ← placeOf_eq_of_number hb (heq ▸ hrouter)]
  · intro router hrouter
    refine ⟨tree.placeOf router, ⟨isIn_placeOf hrouter, tree.number_placeOf router⟩, ?_⟩
    intro place hplace
    exact (placeOf_eq_of_number hplace.1 hplace.2).symm
  · intro place router hplace hrouter
    rw [label, placeOf_eq_of_number hplace hrouter, Place.label]
    cases place.layer <;> rfl

/-- In the tree of arity 6, the last core switch has the last of the 45 numbers. -/
theorem numbersSwitches_six :
    ∃ tree, build 6 = .ok tree ∧ tree.NumbersSwitches 6 ∧ tree.routers.toNat = 45 ∧
      (⟨.core, 2, 2⟩ : Place).IsIn 6 ∧ tree.number ⟨.core, 2, 2⟩ = .ok 44 ∧
      tree.label 44 = "c2_2" := by
  obtain ⟨tree, hbuild, hrouters, hnumber⟩ : ∃ tree, build 6 = .ok tree ∧
      tree.routers.toNat = 45 ∧ tree.number ⟨.core, 2, 2⟩ = .ok 44 := ⟨_, rfl, rfl, rfl⟩
  have hswitches := numbersSwitches_of_build hbuild
  have hplace : (⟨.core, 2, 2⟩ : Place).IsIn 6 := ⟨by decide, by decide⟩
  exact ⟨tree, hbuild, hswitches, hrouters, hplace, hnumber,
    hswitches.label_number _ _ hplace hnumber⟩

end Interconnect.FatTree
