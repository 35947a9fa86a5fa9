import Interconnect.Proofs.Topology.Numbering
import Interconnect.Topology.Basic

/-!
# Queries that never stop

Machine arithmetic on words stops where a division has no divisor, a difference falls below zero, or
a product or sum is no word.  In the definitions of the queries the operations go on in these cases.
So each query is written here once more, step by step, with operations that stop (`Trapping`), and is
proved to return what it returns without them, whatever the argument is: none of its operations
stops (`Topology.queries_return`).

Only the number of a switch can leave the words, since nothing bounds the place that is asked for.
Then the query stops, and otherwise it returns the exact number.
-/

namespace Interconnect

/-- Why an operation on words stops. -/
inductive Trap
  | divisionByZero
  | underflow
  | overflow (operation : Overflow)
  deriving DecidableEq, Repr

namespace Trapping

/-! ## Operations -/

def div (a b : UInt64) : Except Trap UInt64 :=
  if b.toNat = 0 then .error .divisionByZero else .ok (a / b)

def rem (a b : UInt64) : Except Trap UInt64 :=
  if b.toNat = 0 then .error .divisionByZero else .ok (a % b)

def sub (a b : UInt64) : Except Trap UInt64 :=
  if a < b then .error .underflow else .ok (a - b)

def mul (a b : UInt64) : Except Trap UInt64 :=
  (Word.mul a b).mapError .overflow

def add (a b : UInt64) : Except Trap UInt64 :=
  (Word.add a b).mapError .overflow

section

variable {a b : UInt64}

theorem div_eq_ok (h : 0 < b.toNat) : div a b = .ok (a / b) :=
  if_neg (Nat.ne_of_gt h)

theorem rem_eq_ok (h : 0 < b.toNat) : rem a b = .ok (a % b) :=
  if_neg (Nat.ne_of_gt h)

theorem sub_eq_ok (h : b ≤ a) : sub a b = .ok (a - b) :=
  if_neg (UInt64.not_lt.mpr h)

theorem mul_eq_ok (h : a.toNat * b.toNat < UInt64.size) : mul a b = .ok (a * b) := by
  rw [mul, Word.mul, if_pos h]
  rfl

end

/-! ## Queries -/

def routerOf (cube : Cube) (node : UInt64) : Except Trap UInt64 :=
  div node cube.concentration

def digits (radix : UInt64) : ℕ → UInt64 → Except Trap (List UInt64)
  | 0, _ => .ok []
  | count + 1, number => do
    let digit ← rem number radix
    let rest ← div number radix
    return digit :: (← digits radix count rest)

def coordinates (cube : Cube) (router : UInt64) : Except Trap (List UInt64) :=
  digits cube.radix cube.dimension.toNat router

def cubeLabel (cube : Cube) (router : UInt64) : Except Trap String := do
  let coordinates ← coordinates cube router
  return "(" ++ ",".intercalate (coordinates.map fun digit ↦ toString digit.toNat) ++ ")"

def half (tree : FatTree) : Except Trap UInt64 :=
  div tree.arity 2

def firstOf (tree : FatTree) : FatTree.Layer → Except Trap UInt64
  | .edge => .ok 0
  | .aggregation => do mul tree.arity (← half tree)
  | .core => do mul (← mul 2 tree.arity) (← half tree)

def number (tree : FatTree) (place : FatTree.Place) : Except Trap UInt64 := do
  let first ← firstOf tree place.layer
  let offset ← mul place.group (← half tree)
  add (← add first offset) place.index

def edgeOf (tree : FatTree) (host : UInt64) : Except Trap UInt64 := do
  div host (← half tree)

/-- The place of a switch by its distance from the first switch of the layer. -/
def placeAt (layer : FatTree.Layer) (half offset : UInt64) : Except Trap FatTree.Place := do
  return ⟨layer, ← div offset half, ← rem offset half⟩

def placeOf (tree : FatTree) (router : UInt64) : Except Trap FatTree.Place := do
  let half ← half tree
  let perLayer ← mul tree.arity half
  if router < perLayer then placeAt .edge half router
  else if router < (← mul 2 perLayer) then placeAt .aggregation half (← sub router perLayer)
  else placeAt .core half (← sub router (← mul 2 perLayer))

def switchLabel (tree : FatTree) (router : UInt64) : Except Trap String := do
  return (← placeOf tree router).label

def homeOf (topology : Topology) (node : UInt64) : Except Trap UInt64 :=
  match topology with
  | .cube cube => routerOf cube node
  | .fatTree tree => edgeOf tree node
  | .dumbbell => .ok node
  | .custom routers .. => rem node routers

def defaultRouterOf? (topology : Topology) (node : UInt64) : Except Trap (Option UInt64) := do
  if node < topology.nodes then return some (← homeOf topology node) else return none

def defaultRouterMap (topology : Topology) : Except Trap (Array Int64) := do
  let homes ← (Array.range topology.nodes.toNat).mapM fun node ↦
    defaultRouterOf? topology (UInt64.ofNat node)
  return homes.filterMap fun home? ↦ home?.map (·.toInt64)

def label (topology : Topology) (router : UInt64) : Except Trap String :=
  match topology with
  | .cube cube => cubeLabel cube router
  | .fatTree tree => switchLabel tree router
  | .dumbbell => .ok ("s" ++ toString router.toNat)
  | .custom .. => .ok ("r" ++ toString router.toNat)

/-! ## Cubes -/

theorem routerOf_eq (cube : Cube) (node : UInt64) :
    routerOf cube node = .ok (cube.routerOf node) :=
  div_eq_ok cube.concentration_pos

theorem digits_eq {radix : UInt64} (h : 0 < radix.toNat) (count : ℕ) (number : UInt64) :
    digits radix count number = .ok (Cube.digits radix count number) := by
  induction count generalizing number with
  | zero => rfl
  | succ count ih =>
    rw [digits, rem_eq_ok h, div_eq_ok h]
    change (do return number % radix :: (← digits radix count (number / radix))) = _
    rw [ih]
    rfl

theorem coordinates_eq (cube : Cube) (router : UInt64) :
    coordinates cube router = .ok (cube.coordinates router) :=
  digits_eq cube.radix_pos _ _

theorem cubeLabel_eq (cube : Cube) (router : UInt64) :
    cubeLabel cube router = .ok (cube.label router) := by
  rw [cubeLabel, coordinates_eq]
  rfl

/-! ## Fat trees -/

section

variable (tree : FatTree)

theorem half_eq : half tree = .ok tree.half :=
  div_eq_ok (by decide)

/-- A layer of pods has so few switches that twice their number is a word. -/
theorem two_mul_switches_lt : 2 * (tree.arity.toNat * tree.half.toNat) < UInt64.size := by
  have hle := tree.arity_mul_half_le.1
  have hmax : Topology.maxNodes = 1048576 := rfl
  rw [UInt64.size]
  omega

theorem perLayer_eq : mul tree.arity tree.half = .ok tree.perLayer := by
  have hlt := two_mul_switches_lt tree
  exact mul_eq_ok (by omega)

theorem mul_two_perLayer_eq : mul 2 tree.perLayer = .ok (2 * tree.perLayer) := by
  refine mul_eq_ok ?_
  rw [tree.toNat_perLayer]
  exact two_mul_switches_lt tree

theorem firstOf_eq (layer : FatTree.Layer) : firstOf tree layer = .ok (tree.firstOf layer) := by
  cases layer with
  | edge => rfl
  | aggregation =>
    rw [firstOf, half_eq]
    exact perLayer_eq tree
  | core =>
    have hlt := two_mul_switches_lt tree
    have harity : tree.arity.toNat ≤ tree.arity.toNat * tree.half.toNat :=
      Nat.le_mul_of_pos_right _ tree.half_pos
    have hword : (2 : UInt64).toNat = 2 := rfl
    have htwo : mul 2 tree.arity = .ok (2 * tree.arity) :=
      mul_eq_ok (by rw [hword]; omega)
    have hdouble : (2 * tree.arity).toNat = 2 * tree.arity.toNat := by
      rw [UInt64.toNat_mul, hword]
      exact Nat.mod_eq_of_lt (Nat.lt_of_le_of_lt (Nat.mul_le_mul_left 2 harity) hlt)
    have hcore : mul (2 * tree.arity) tree.half = .ok (2 * tree.arity * tree.half) :=
      mul_eq_ok (by rw [hdouble, Nat.mul_assoc]; exact hlt)
    rw [firstOf, htwo, half_eq]
    change mul (2 * tree.arity) tree.half = _
    rw [hcore, UInt64.mul_assoc]
    rfl

theorem mapError_bind {ε ε' α β : Type} (f : ε → ε') (x : Except ε α) (g : α → Except ε β) :
    (x >>= g).mapError f = x.mapError f >>= fun a ↦ (g a).mapError f := by
  cases x <;> rfl

theorem mapError_eq_ok_iff {ε ε' α : Type} {f : ε → ε'} {x : Except ε α} {a : α} :
    x.mapError f = .ok a ↔ x = .ok a := by
  cases x <;> simp [Except.mapError]

/-- The first operation that overflows is the same. -/
theorem number_eq (place : FatTree.Place) :
    number tree place = (tree.number place).mapError .overflow := by
  rw [number, firstOf_eq, half_eq, FatTree.number, mapError_bind]
  change (mul place.group tree.half >>= fun offset ↦
    add (tree.firstOf place.layer) offset >>= fun start ↦ add start place.index) = _
  refine bind_congr fun offset ↦ ?_
  rw [mapError_bind]
  rfl

theorem edgeOf_eq (host : UInt64) : edgeOf tree host = .ok (tree.edgeOf host) := by
  rw [edgeOf, half_eq]
  exact div_eq_ok tree.half_pos

theorem placeAt_eq (layer : FatTree.Layer) (offset : UInt64) :
    placeAt layer tree.half offset = .ok ⟨layer, offset / tree.half, offset % tree.half⟩ := by
  rw [placeAt, div_eq_ok tree.half_pos, rem_eq_ok tree.half_pos]
  rfl

theorem placeOf_eq (router : UInt64) : placeOf tree router = .ok (tree.placeOf router) := by
  rw [placeOf, half_eq]
  change (mul tree.arity tree.half >>= _) = _
  rw [perLayer_eq]
  change (if router < tree.perLayer then _ else _) = _
  unfold FatTree.placeOf
  by_cases hedge : router < tree.perLayer
  · rw [if_pos hedge, if_pos hedge, placeAt_eq]
    simp only [FatTree.firstOf, UInt64.sub_zero]
  rw [if_neg hedge, if_neg hedge, mul_two_perLayer_eq]
  change (if router < 2 * tree.perLayer then _ else _) = _
  by_cases haggregation : router < 2 * tree.perLayer
  · rw [if_pos haggregation, if_pos haggregation, sub_eq_ok (UInt64.not_lt.mp hedge)]
    exact placeAt_eq tree .aggregation _
  · rw [if_neg haggregation, if_neg haggregation]
    change (sub router (2 * tree.perLayer) >>= _) = _
    rw [sub_eq_ok (UInt64.not_lt.mp haggregation)]
    exact placeAt_eq tree .core _

theorem switchLabel_eq (router : UInt64) : switchLabel tree router = .ok (tree.label router) := by
  rw [switchLabel, placeOf_eq]
  rfl

end

/-! ## Topologies -/

section

variable (topology : Topology)

/-- A router number modulo the number of routers is only asked for when there are routers. -/
theorem homeOf_eq {node : UInt64} (h : node < topology.nodes) :
    homeOf topology node = .ok (topology.homeOf node) := by
  cases topology with
  | cube cube => exact routerOf_eq cube node
  | fatTree tree => exact edgeOf_eq tree node
  | dumbbell => rfl
  | custom routers nodes attachable _ _ =>
    have hnodes : 0 < nodes.toNat := Nat.zero_lt_of_lt (UInt64.lt_iff_toNat_lt.mp h)
    exact rem_eq_ok (Nat.pos_of_ne_zero fun hzero ↦ absurd (attachable hzero) (by omega))

theorem defaultRouterOf?_eq (node : UInt64) :
    defaultRouterOf? topology node = .ok (topology.defaultRouterOf? node) := by
  unfold defaultRouterOf? Topology.defaultRouterOf?
  split
  · next hlt =>
    rw [homeOf_eq topology hlt]
    rfl
  · rfl

theorem defaultRouterMap_eq :
    defaultRouterMap topology = .ok topology.defaultRouterMap := by
  simp only [defaultRouterMap, defaultRouterOf?_eq]
  change (Array.mapM (fun node ↦ pure _) _ >>= _) = _
  rw [Array.mapM_pure]
  change Except.ok (Array.filterMap _ (Array.map _ _)) = _
  rw [Array.filterMap_map]
  rfl

theorem label_eq (router : UInt64) : label topology router = .ok (topology.label router) := by
  cases topology with
  | cube cube => exact cubeLabel_eq cube router
  | fatTree tree => exact switchLabel_eq tree router
  | dumbbell => rfl
  | custom => rfl

end

end Trapping

/-- No query stops, whatever is asked for, except that the number of a switch is returned exactly
when it is a word. -/
theorem Topology.queries_return (topology : Topology) (cube : Cube) (tree : FatTree)
    (argument : UInt64) (place : FatTree.Place) :
    Trapping.defaultRouterOf? topology argument = .ok (topology.defaultRouterOf? argument) ∧
      Trapping.defaultRouterMap topology = .ok topology.defaultRouterMap ∧
      Trapping.label topology argument = .ok (topology.label argument) ∧
      Trapping.routerOf cube argument = .ok (cube.routerOf argument) ∧
      Trapping.coordinates cube argument = .ok (cube.coordinates argument) ∧
      Trapping.edgeOf tree argument = .ok (tree.edgeOf argument) ∧
      Trapping.switchLabel tree argument = .ok (tree.label argument) ∧
      Trapping.number tree place = (tree.number place).mapError .overflow ∧
      ((∃ number, Trapping.number tree place = .ok number) ↔ tree.exactNumber place < 2 ^ 64) := by
  refine ⟨Trapping.defaultRouterOf?_eq topology argument, Trapping.defaultRouterMap_eq topology,
    Trapping.label_eq topology argument, Trapping.routerOf_eq cube argument,
    Trapping.coordinates_eq cube argument, Trapping.edgeOf_eq tree argument,
    Trapping.switchLabel_eq tree argument, Trapping.number_eq tree place, ?_⟩
  simp only [Trapping.number_eq, Trapping.mapError_eq_ok_iff]
  exact tree.exists_number_eq_ok_iff

/-- In a fat tree of arity 4 one may ask for a pod so far out that its first switch has no number:
the product with the switches of a pod is no word. -/
theorem FatTree.number_overflows_four :
    ∃ tree, build 4 = .ok tree ∧
      tree.number ⟨.edge, 0x8000000000000000, 0⟩ = .error .multiplication ∧
      Trapping.number tree ⟨.edge, 0x8000000000000000, 0⟩ =
        .error (.overflow .multiplication) :=
  ⟨_, rfl, rfl, rfl⟩

end Interconnect
