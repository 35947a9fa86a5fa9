import Interconnect.Text.Blank

/-!
# Networks

A network says, for every node, which router the node is attached to, and where the configuration
file of the simulation engine lies.  Router numbers are kept as they were given, negative ones
included: whether they exist is decided when the network is bound to a topology.  The path is kept
as it was given too; it may be anything but blank.
-/

namespace Interconnect

structure Network where
  /-- The router of each node, in the order of the nodes. -/
  routerMap : Array Int64
  configPath : String
  path_visible : Text.isBlank configPath = false
  deriving DecidableEq

/-- A node together with the router it is attached to. -/
structure Attachment where
  node : Nat
  router : Int64
  deriving DecidableEq, Repr

namespace Network

def defaultConfigPath : String :=
  "configs/ruby_booksim/gem5booksim.cfg"

inductive Error
  | blankPath
  | nodeOutOfRange (node count : Nat)
  deriving DecidableEq, Repr

def Error.message : Error → String
  | blankPath => "invalid network config: booksim config path must not be empty"
  | nodeOutOfRange node count =>
    s!"node index {node} out of range for router map of length {count}"

def build (routerMap : Array Int64) (configPath : String) : Except Error Network :=
  if h : Text.isBlank configPath = true then
    .error .blankPath
  else
    .ok ⟨routerMap, configPath, Bool.eq_false_iff.mpr h⟩

def withDefaultConfig (routerMap : Array Int64) : Network where
  routerMap
  configPath := defaultConfigPath
  path_visible := by decide

def size (network : Network) : Nat :=
  network.routerMap.size

def isEmpty (network : Network) : Bool :=
  network.routerMap.isEmpty

def routerOf? (network : Network) (node : Nat) : Option Int64 :=
  network.routerMap[node]?

def routerOf (network : Network) (node : Nat) : Except Error Int64 :=
  match network.routerOf? node with
  | some router => .ok router
  | none => .error (.nodeOutOfRange node network.size)

/-- Every node with its router, in the order of the nodes. -/
def attachments (network : Network) : Array Attachment :=
  network.routerMap.mapIdx Attachment.mk

@[simp]
theorem size_attachments (network : Network) : network.attachments.size = network.size := by
  simp [attachments, size]

theorem mem_attachments {network : Network} {a : Attachment} :
    a ∈ network.attachments ↔ network.routerOf? a.node = some a.router := by
  simp only [attachments, routerOf?, Array.mem_mapIdx, Array.getElem?_eq_some_iff]
  constructor
  · rintro ⟨i, h, rfl⟩
    exact ⟨h, rfl⟩
  · rintro ⟨h, hr⟩
    exact ⟨a.node, h, by rw [hr]⟩

theorem build_eq_ok_iff {routerMap : Array Int64} {path : String} {network : Network} :
    build routerMap path = .ok network ↔
      network.routerMap = routerMap ∧ network.configPath = path := by
  unfold build
  constructor
  · intro h
    split at h
    · cases h
    · cases h
      exact ⟨rfl, rfl⟩
  · rintro ⟨rfl, rfl⟩
    rw [dif_neg (by rw [network.path_visible]; exact Bool.false_ne_true)]

theorem build_eq_error_iff {routerMap : Array Int64} {path : String} {e : Error} :
    build routerMap path = .error e ↔ Text.isBlank path = true ∧ e = .blankPath := by
  unfold build
  split
  · next h => simp [h, eq_comm]
  · next h => simp [h]

end Network

end Interconnect
