/-!
# Kinds of topology, and why parameters are refused

A topology is of one of five kinds.  Parameters are refused for one of the causes in
`Topology.Error`; each cause knows the kind it speaks of, and `Topology.Error.message` words it.
-/

namespace Interconnect.Topology

inductive Kind
  | mesh
  | torus
  | fatTree
  | dumbbell
  | custom
  deriving DecidableEq, Repr

namespace Kind

/-- Every kind, in the order in which kinds are listed to a reader. -/
def all : List Kind := [.mesh, .torus, .fatTree, .dumbbell, .custom]

theorem mem_all (kind : Kind) : kind ∈ all := by
  cases kind <;> decide

/-- The name of a kind in documents and messages. -/
def name : Kind → String
  | .mesh => "mesh"
  | .torus => "torus"
  | .fatTree => "fat_tree"
  | .dumbbell => "dumbbell"
  | .custom => "custom"

def ofName? (text : String) : Option Kind :=
  all.find? (·.name == text)

@[simp]
theorem ofName?_name (kind : Kind) : ofName? kind.name = some kind := by
  cases kind <;> decide

theorem name_injective {a b : Kind} (h : a.name = b.name) : a = b := by
  have := congrArg ofName? h
  simpa using this

end Kind

/-- No topology has more nodes than this, the twentieth power of two. -/
def maxNodes : Nat := 1048576

theorem le_maxNodes {nodes : UInt64} (h : ¬ maxNodes < nodes.toNat) : nodes.toNat ≤ maxNodes :=
  Nat.le_of_not_lt h

/-- No cube has more dimensions than this. -/
def maxDimensions : Nat := 32

/-- Why the parameters of a topology are refused. -/
inductive Error
  | zeroRadix (kind : Kind)
  | dimensionOutOfRange (kind : Kind)
  | zeroConcentration (kind : Kind)
  | unevenArity
  | noRouters
  | unindexable (kind : Kind)
  | tooManyNodes (kind : Kind) (nodes : UInt64)
  deriving DecidableEq, Repr

namespace Error

def kind : Error → Kind
  | zeroRadix kind => kind
  | dimensionOutOfRange kind => kind
  | zeroConcentration kind => kind
  | unevenArity => .fatTree
  | noRouters => .custom
  | unindexable kind => kind
  | tooManyNodes kind _ => kind

/-- What is wrong with the parameters themselves; `none` when only the size is at fault. -/
def reason? : Error → Option String
  | zeroRadix _ => some "radix k must be >= 1"
  | dimensionOutOfRange _ => some s!"dimension n must be in 1..={maxDimensions}"
  | zeroConcentration _ => some "concentration must be >= 1"
  | unevenArity => some "k must be even and >= 2"
  | noRouters => some "nodes need at least one router to attach to"
  | unindexable _ => none
  | tooManyNodes _ _ => none

def message (e : Error) : String :=
  match e.reason?, e with
  | some reason, _ => s!"invalid {e.kind.name} topology: {reason}"
  | none, tooManyNodes kind nodes =>
    s!"{kind.name} topology has {nodes} nodes, limit is {maxNodes}"
  | none, _ => s!"{e.kind.name} topology is too large to index"

end Error

end Interconnect.Topology
