import Mathlib.Data.Nat.Digits.Defs
import Std.Data.String.ToInt
import Std.Data.String.ToNat
import Interconnect.Proofs.Text.Splitting
import Interconnect.Proofs.Topology.Numbering
import Interconnect.Topology.Basic

/-!
# Labels of routers

A label names one router of its topology (`Topology.eq_of_label_eq`).  The label of a cube's router
lists its coordinates, which are the digits of its number (`Cube.ofDigits_coordinates`); the label of
a switch spells its place (`FatTree.Place.label_injective`), from which the number is found again.  No
label contains a blank or a line break (`Topology.avoids_label`).
-/

namespace Interconnect

open Text (Avoids)

/-! ## Cubes -/

namespace Cube

/-- The lowest digits of a number add up to the number modulo a power of the base. -/
theorem ofDigits_digits {radix : UInt64} (count : ℕ) (number : UInt64) :
    Nat.ofDigits radix.toNat ((digits radix count number).map (·.toNat)) =
      number.toNat % radix.toNat ^ count := by
  induction count generalizing number with
  | zero => simp [digits, Nat.mod_one]
  | succ count ih =>
    rw [digits, List.map_cons, Nat.ofDigits_cons, ih, UInt64.toNat_mod, UInt64.toNat_div,
      Nat.pow_succ', Nat.mod_mul]

/-- The coordinates of a router are the digits of its number. -/
theorem ofDigits_coordinates (cube : Cube) {router : UInt64}
    (h : router.toNat < cube.routers.toNat) :
    Nat.ofDigits cube.radix.toNat ((cube.coordinates router).map (·.toNat)) = router.toNat := by
  rw [coordinates, ofDigits_digits]
  exact Nat.mod_eq_of_lt (Nat.lt_of_lt_of_eq h cube.routers_eq)

theorem coordinates_ne_nil (cube : Cube) (router : UInt64) : cube.coordinates router ≠ [] := by
  rw [← List.length_pos_iff, coordinates, length_digits]
  exact cube.dimension_pos

theorem coordinates_of_label_eq (cube : Cube) {r s : UInt64} (h : cube.label r = cube.label s) :
    cube.coordinates r = cube.coordinates s := by
  have hdigit (router : UInt64) :
      ∀ part ∈ (cube.coordinates router).map (toString ·.toNat), Avoids ',' part := by
    intro part hpart
    obtain ⟨digit, _, rfl⟩ := List.mem_map.mp hpart
    exact Text.avoids_toString_nat (by decide) digit.toNat
  have hne (router : UInt64) : (cube.coordinates router).map (toString ·.toNat) ≠ [] := by
    simpa using cube.coordinates_ne_nil router
  have hparts := Text.intercalate_inj (hdigit r) (hdigit s) (hne r) (hne s)
    ((String.append_right_inj _).mp ((String.append_left_inj _).mp h))
  refine List.map_injective_iff.mpr (fun a b hab ↦ ?_) hparts
  exact UInt64.toNat_inj.mp (Nat.repr_inj.mp hab)

theorem avoids_label (cube : Cube) {c : Char} (hdigit : c.isDigit = false)
    (hmark : c ∉ ['(', ',', ')']) (router : UInt64) : Avoids c (cube.label router) := by
  have hmarks : Avoids c "(" ∧ Avoids c "," ∧ Avoids c ")" := by
    simpa [Avoids] using hmark
  rw [label, Text.avoids_append, Text.avoids_append]
  refine ⟨⟨hmarks.1, Text.avoids_intercalate hmarks.2.1 fun part hpart ↦ ?_⟩, hmarks.2.2⟩
  obtain ⟨digit, _, rfl⟩ := List.mem_map.mp hpart
  exact Text.avoids_toString_nat hdigit digit.toNat

end Cube

/-! ## Fat trees -/

namespace FatTree

theorem Layer.letter_inj {a b : Layer} {x y : String} (h : a.letter ++ x = b.letter ++ y) :
    a = b := by
  have hhead := congrArg (List.head? ·.toList) h
  cases a <;> cases b <;> first | rfl | (simp [letter] at hhead)

/-- A place is known from its label. -/
theorem Place.label_injective : Function.Injective Place.label := by
  intro a b h
  obtain ⟨layer, group, index⟩ := a
  obtain ⟨layer', group', index'⟩ := b
  simp only [label, String.append_assoc] at h
  have hlayer := Layer.letter_inj h
  subst hlayer
  have hrest := (String.append_right_inj _).mp h
  rw [← String.append_assoc, ← String.append_assoc] at hrest
  obtain ⟨hgroup, hindex⟩ := Text.eq_of_append_separator (c := '_')
    (Text.avoids_toString_nat (by decide) group.toNat)
    (Text.avoids_toString_nat (by decide) group'.toNat) hrest
  rw [UInt64.toNat_inj.mp (Nat.repr_inj.mp hgroup), UInt64.toNat_inj.mp (Nat.repr_inj.mp hindex)]

/-- No two numbers have the same label, not even past the last switch. -/
theorem label_injective (tree : FatTree) : Function.Injective tree.label :=
  Place.label_injective.comp tree.placeOf_injective

theorem Place.avoids_label {c : Char} (hdigit : c.isDigit = false)
    (hmark : c ∉ ['e', 'a', 'c', '_']) (place : Place) : Avoids c place.label := by
  have hletter : Avoids c place.layer.letter := by
    cases place.layer <;> simp_all [Avoids, Layer.letter]
  have hseparator : Avoids c "_" := by
    simp_all [Avoids]
  simp only [label, Text.avoids_append]
  exact ⟨⟨⟨hletter, Text.avoids_toString_nat hdigit _⟩, hseparator⟩,
    Text.avoids_toString_nat hdigit _⟩

end FatTree

/-! ## Topologies -/

namespace Topology

variable (topology : Topology)

/-- A label names one router of the topology. -/
theorem eq_of_label_eq {r s : UInt64} (hr : r.toNat < topology.routers.toNat)
    (hs : s.toNat < topology.routers.toNat) (h : topology.label r = topology.label s) : r = s := by
  have hnumbered {mark : String} (h : mark ++ toString r.toNat = mark ++ toString s.toNat) :
      r = s :=
    UInt64.toNat_inj.mp (Nat.repr_inj.mp ((String.append_right_inj mark).mp h))
  cases topology with
  | cube cube =>
    have hcoordinates := cube.coordinates_of_label_eq h
    have hvalue := cube.ofDigits_coordinates hr
    rw [hcoordinates, cube.ofDigits_coordinates hs] at hvalue
    exact UInt64.toNat_inj.mp hvalue.symm
  | fatTree tree => exact tree.label_injective h
  | dumbbell => exact hnumbered h
  | custom => exact hnumbered h

/-- The characters of labels other than digits. -/
def labelMarks : List Char :=
  ['(', ',', ')', 'e', 'a', 'c', '_', 's', 'r']

theorem avoids_label {c : Char} (hdigit : c.isDigit = false) (hmark : c ∉ labelMarks)
    (router : UInt64) : Avoids c (topology.label router) := by
  cases topology with
  | cube cube => exact cube.avoids_label hdigit (by simp_all [labelMarks]) router
  | fatTree tree =>
    exact (tree.placeOf router).avoids_label hdigit (by simp_all [labelMarks])
  | dumbbell =>
    exact Text.avoids_append.mpr
      ⟨by simp_all [Avoids, labelMarks], Text.avoids_toString_nat hdigit _⟩
  | custom =>
    exact Text.avoids_append.mpr
      ⟨by simp_all [Avoids, labelMarks], Text.avoids_toString_nat hdigit _⟩

end Topology

end Interconnect
