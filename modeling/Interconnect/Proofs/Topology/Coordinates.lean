import Mathlib.Data.Nat.Digits.Lemmas
import Mathlib.Data.Set.Function
import Interconnect.Proofs.Topology.Labels

/-!
# Coordinates of routers

The coordinates of a cube's router are the digits of its number in base `radix`, dimension 0 lowest.
`Cube.position` leads back from coordinates to a number.  The two are inverse to each other between
the numbers below the number of routers and the tuples of `dimension` coordinates below the radix,
and keep the order when tuples are compared from the last dimension down
(`Cube.coordinates_mixedRadix`).
-/

namespace Interconnect.Cube

/-- The number with the given coordinates. -/
def position (radix : ℕ) (coordinates : List UInt64) : ℕ :=
  ((coordinates.map (·.toNat)).mapIdx fun d coordinate ↦ coordinate * radix ^ d).sum

/-- The tuples that a cube has a router for. -/
def tuples (radix dimension : ℕ) : Set (List UInt64) :=
  {tuple | tuple.length = dimension ∧ ∀ coordinate ∈ tuple, coordinate.toNat < radix}

/-! ## Numbers of tuples -/

section

variable {radix n : ℕ}

theorem position_eq_ofDigits (tuple : List UInt64) :
    position radix tuple = Nat.ofDigits radix (tuple.map (·.toNat)) :=
  (Nat.ofDigits_eq_sum_mapIdx radix _).symm

@[simp]
theorem position_nil : position radix [] = 0 := rfl

@[simp]
theorem position_cons (coordinate : UInt64) (tuple : List UInt64) :
    position radix (coordinate :: tuple) = coordinate.toNat + radix * position radix tuple := by
  rw [position_eq_ofDigits, position_eq_ofDigits, List.map_cons, Nat.ofDigits_cons]

theorem cons_mem_tuples_iff {coordinate : UInt64} {tuple : List UInt64} :
    coordinate :: tuple ∈ tuples radix (n + 1) ↔
      coordinate.toNat < radix ∧ tuple ∈ tuples radix n := by
  simp only [tuples, Set.mem_ofPred_eq, List.length_cons, Nat.add_right_cancel_iff,
    List.forall_mem_cons]
  exact and_left_comm

theorem exists_of_mem_tuples_succ {tuple : List UInt64} (h : tuple ∈ tuples radix (n + 1)) :
    ∃ coordinate rest, tuple = coordinate :: rest ∧ coordinate.toNat < radix ∧
      rest ∈ tuples radix n := by
  cases tuple with
  | nil => exact absurd h.1 (Nat.succ_ne_zero n).symm
  | cons coordinate rest => exact ⟨coordinate, rest, rfl, cons_mem_tuples_iff.mp h⟩

theorem eq_nil_of_mem_tuples_zero {tuple : List UInt64} (h : tuple ∈ tuples radix 0) :
    tuple = [] :=
  List.length_eq_zero_iff.mp h.1

/-- The number of a tuple is below the number of tuples. -/
theorem position_lt {tuple : List UInt64} (h : tuple ∈ tuples radix n) :
    position radix tuple < radix ^ n := by
  induction n generalizing tuple with
  | zero =>
    rw [eq_nil_of_mem_tuples_zero h]
    exact Nat.one_pos
  | succ n ih =>
    obtain ⟨coordinate, rest, rfl, hcoordinate, hrest⟩ := exists_of_mem_tuples_succ h
    calc position radix (coordinate :: rest)
        = coordinate.toNat + radix * position radix rest := position_cons coordinate rest
      _ < radix + radix * position radix rest := Nat.add_lt_add_right hcoordinate _
      _ = radix * (position radix rest + 1) := by rw [Nat.mul_succ, Nat.add_comm]
      _ ≤ radix * radix ^ n := Nat.mul_le_mul_left radix (ih hrest)
      _ = radix ^ (n + 1) := (Nat.pow_succ').symm

/-! ## The order of tuples -/

/-- Of tuples of one length, the last coordinates are compared when all others agree. -/
theorem append_singleton_lt_iff {a b : List UInt64} (hlength : a.length = b.length)
    (x y : UInt64) : a ++ [x] < b ++ [y] ↔ a < b ∨ a = b ∧ x < y := by
  induction a generalizing b with
  | nil =>
    rw [List.length_eq_zero_iff.mp hlength.symm]
    simp [List.cons_lt_cons_iff]
  | cons c a ih =>
    cases b with
    | nil => cases hlength
    | cons d b =>
      have hrest := ih (Nat.succ.inj hlength)
      simp only [List.cons_append, List.cons_lt_cons_iff, hrest, List.cons.injEq]
      tauto

/-- A number is smaller than another if it is so without the lowest digit, or has the smaller digit.
-/
theorem add_mul_lt_iff {x y m n : ℕ} (hx : x < radix) (hy : y < radix) :
    x + radix * m < y + radix * n ↔ m < n ∨ m = n ∧ x < y := by
  rcases Nat.lt_trichotomy m n with h | h | h
  · have hmul : radix * (m + 1) ≤ radix * n := Nat.mul_le_mul_left radix h
    rw [Nat.mul_succ] at hmul
    omega
  · subst h
    omega
  · have hmul : radix * (n + 1) ≤ radix * m := Nat.mul_le_mul_left radix h
    rw [Nat.mul_succ] at hmul
    omega

/-- Tuples have numbers of their own. -/
theorem position_injOn : Set.InjOn (position radix) (tuples radix n) := by
  induction n with
  | zero =>
    intro a ha b hb _
    rw [eq_nil_of_mem_tuples_zero ha, eq_nil_of_mem_tuples_zero hb]
  | succ n ih =>
    intro a ha b hb h
    obtain ⟨x, a, rfl, hx, ha⟩ := exists_of_mem_tuples_succ ha
    obtain ⟨y, b, rfl, hy, hb⟩ := exists_of_mem_tuples_succ hb
    rw [position_cons, position_cons] at h
    have hdigit := congrArg (· % radix) h
    simp only [Nat.add_mul_mod_self_left, Nat.mod_eq_of_lt hx, Nat.mod_eq_of_lt hy] at hdigit
    rw [hdigit, Nat.add_left_cancel_iff] at h
    rw [UInt64.toNat_inj.mp hdigit, ih ha hb (Nat.eq_of_mul_eq_mul_left (Nat.zero_lt_of_lt hx) h)]

/-- Numbers are ordered as their tuples are from the last dimension down. -/
theorem position_lt_iff {a b : List UInt64} (ha : a ∈ tuples radix n) (hb : b ∈ tuples radix n) :
    position radix a < position radix b ↔ a.reverse < b.reverse := by
  induction n generalizing a b with
  | zero =>
    rw [eq_nil_of_mem_tuples_zero ha, eq_nil_of_mem_tuples_zero hb]
    simp
  | succ n ih =>
    obtain ⟨x, a, rfl, hx, ha⟩ := exists_of_mem_tuples_succ ha
    obtain ⟨y, b, rfl, hy, hb⟩ := exists_of_mem_tuples_succ hb
    rw [position_cons, position_cons, add_mul_lt_iff hx hy, List.reverse_cons, List.reverse_cons,
      append_singleton_lt_iff (by simp [ha.1, hb.1]), ih ha hb, position_injOn.eq_iff ha hb,
      List.reverse_inj, UInt64.lt_iff_toNat_lt]

end

/-! ## Coordinates -/

section

variable {radix : UInt64} {n : ℕ}

theorem digits_mem_tuples (h : 0 < radix.toNat) (number : UInt64) :
    digits radix n number ∈ tuples radix.toNat n := by
  induction n generalizing number with
  | zero => exact ⟨rfl, nofun⟩
  | succ n ih =>
    refine cons_mem_tuples_iff.mpr ⟨?_, ih (number / radix)⟩
    rw [UInt64.toNat_mod]
    exact Nat.mod_lt _ h

theorem position_digits (number : UInt64) :
    position radix.toNat (digits radix n number) = number.toNat % radix.toNat ^ n := by
  rw [position_eq_ofDigits, ofDigits_digits]

/-- The digits of the number of a tuple are the tuple. -/
theorem digits_position (h : 0 < radix.toNat) (hsize : radix.toNat ^ n ≤ UInt64.size)
    {tuple : List UInt64} (htuple : tuple ∈ tuples radix.toNat n) :
    digits radix n (UInt64.ofNat (position radix.toNat tuple)) = tuple := by
  have hlt := position_lt htuple
  apply position_injOn (digits_mem_tuples h _) htuple
  rw [position_digits, UInt64.toNat_ofNat_of_lt' (Nat.lt_of_lt_of_le hlt hsize),
    Nat.mod_eq_of_lt hlt]

end

/-- The coordinates of a router, and the number of a tuple, are inverse to each other. -/
theorem invOn_coordinates (cube : Cube) :
    Set.InvOn (fun tuple ↦ UInt64.ofNat (position cube.radix.toNat tuple)) cube.coordinates
      {router | router.toNat < cube.routers.toNat}
      (tuples cube.radix.toNat cube.dimension.toNat) := by
  have hrouters : cube.routers.toNat = cube.radix.toNat ^ cube.dimension.toNat := cube.routers_eq
  constructor
  · intro router hrouter
    change UInt64.ofNat (position _ (digits _ _ router)) = router
    rw [position_digits, ← hrouters, Nat.mod_eq_of_lt hrouter, UInt64.ofNat_toNat]
  · intro tuple htuple
    refine digits_position cube.radix_pos ?_ htuple
    rw [← hrouters]
    exact Nat.le_of_lt cube.routers.toNat_lt

theorem coordinates_lt_iff (cube : Cube) {r s : UInt64} (hr : r.toNat < cube.routers.toNat)
    (hs : s.toNat < cube.routers.toNat) :
    r < s ↔ (cube.coordinates r).reverse < (cube.coordinates s).reverse := by
  have hrouters : cube.routers.toNat = cube.radix.toNat ^ cube.dimension.toNat := cube.routers_eq
  rw [hrouters] at hr hs
  calc r < s
      ↔ position cube.radix.toNat (cube.coordinates r) <
          position cube.radix.toNat (cube.coordinates s) := by
        rw [coordinates, coordinates, position_digits, position_digits, Nat.mod_eq_of_lt hr,
          Nat.mod_eq_of_lt hs, UInt64.lt_iff_toNat_lt]
    _ ↔ (cube.coordinates r).reverse < (cube.coordinates s).reverse :=
        position_lt_iff (digits_mem_tuples cube.radix_pos r) (digits_mem_tuples cube.radix_pos s)

/-- The coordinates of every number are `n` digits below `k`.  The sum of the digits, each times the
power of `k` that belongs to its dimension, is the number modulo `k ^ n`.  Between the routers of
the cube and the tuples of `n` digits, coordinates are a bijection with this sum as its inverse, and
one router comes before another when its coordinates do, compared from the last dimension down. -/
theorem coordinates_mixedRadix {k n c : UInt64} {wraps : Bool} {cube : Cube}
    (h : build k n c wraps = .ok cube) :
    (∀ router, (cube.coordinates router).length = n.toNat ∧
      (∀ coordinate ∈ cube.coordinates router, coordinate.toNat < k.toNat) ∧
      position k.toNat (cube.coordinates router) = router.toNat % k.toNat ^ n.toNat) ∧
    cube.routers.toNat = k.toNat ^ n.toNat ∧
    Set.BijOn cube.coordinates {router | router.toNat < cube.routers.toNat}
      (tuples k.toNat n.toNat) ∧
    (∀ tuple ∈ tuples k.toNat n.toNat, position k.toNat tuple < cube.routers.toNat ∧
      cube.coordinates (UInt64.ofNat (position k.toNat tuple)) = tuple) ∧
    ∀ r s, r.toNat < cube.routers.toNat → s.toNat < cube.routers.toNat →
      (r < s ↔ (cube.coordinates r).reverse < (cube.coordinates s).reverse) := by
  obtain ⟨rfl, rfl, -, -⟩ := parameters_of_build_eq_ok h
  have hrouters : cube.routers.toNat = cube.radix.toNat ^ cube.dimension.toNat := cube.routers_eq
  have htuples (router : UInt64) :
      cube.coordinates router ∈ tuples cube.radix.toNat cube.dimension.toNat :=
    digits_mem_tuples cube.radix_pos router
  have hposition : ∀ tuple ∈ tuples cube.radix.toNat cube.dimension.toNat,
      position cube.radix.toNat tuple < cube.routers.toNat :=
    fun tuple htuple ↦ hrouters ▸ position_lt htuple
  refine ⟨fun router ↦ ⟨(htuples router).1, (htuples router).2, position_digits router⟩, hrouters,
    ?_, fun tuple htuple ↦ ⟨hposition tuple htuple, cube.invOn_coordinates.2 htuple⟩,
    fun r s ↦ cube.coordinates_lt_iff⟩
  refine cube.invOn_coordinates.bijOn (fun router _ ↦ htuples router) fun tuple htuple ↦ ?_
  have hlt := hposition tuple htuple
  change (UInt64.ofNat _).toNat < _
  rwa [UInt64.toNat_ofNat_of_lt' (Nat.lt_trans hlt cube.routers.toNat_lt)]

/-- In base 3 with two dimensions, 14 has the coordinates of router 5, and router 5 comes before
router 6 although its lowest coordinate is larger. -/
theorem coordinates_three_two :
    ∃ cube, build 3 2 1 true = .ok cube ∧ cube.coordinates 5 = [2, 1] ∧
      position 3 (cube.coordinates 14) = 5 ∧
      Set.BijOn cube.coordinates {router | router.toNat < cube.routers.toNat} (tuples 3 2) ∧
      cube.coordinates (UInt64.ofNat (position 3 [0, 2])) = [0, 2] ∧
      (cube.coordinates 5).reverse < (cube.coordinates 6).reverse := by
  obtain ⟨cube, hbuild, hrouters⟩ : ∃ cube, build 3 2 1 true = .ok cube ∧ cube.routers.toNat = 9 :=
    ⟨_, rfl, rfl⟩
  obtain ⟨hdigits, -, hbijective, hinverse, horder⟩ := coordinates_mixedRadix hbuild
  obtain ⟨hradix, hdimension, -, -⟩ := parameters_of_build_eq_ok hbuild
  refine ⟨cube, hbuild, ?_, (hdigits 14).2.2, hbijective, (hinverse [0, 2] ?_).2, ?_⟩
  · rw [coordinates, hradix, hdimension]
    rfl
  · have hnil : [] ∈ tuples 3 0 := ⟨rfl, List.forall_mem_nil _⟩
    exact cons_mem_tuples_iff.mpr ⟨by decide, cons_mem_tuples_iff.mpr ⟨by decide, hnil⟩⟩
  · exact (horder 5 6 (by rw [hrouters]; decide) (by rw [hrouters]; decide)).mp (by decide)

end Interconnect.Cube
