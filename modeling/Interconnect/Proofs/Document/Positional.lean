import Interconnect.Proofs.Document.Contents
import Interconnect.Proofs.Document.Rearrangement

/-!
# Documents written as arrays

A document, its design and its network may each be written as an object or as an array of its values
in a fixed order, independently of how the others are written.  An array is read when it has the
values of the record, except that what has a default may be missing at the end
(`Document.ofItems_eq_ok_iff`, `Network.ofItems_eq_ok_iff`, `Design.ofItems_eq_ok_iff`).  So all
ways of writing a document are read as the document, and an array with too few values or too many is
read as none (`Document.array_form_agrees`).
-/

namespace Interconnect

open Document
open Interconnect.Topology (Kind)
open Json (Member Spelling SpellsPadded Value)

/-! ## Items -/

namespace Document

section

variable {item : Value} {items rest : List Value}

theorem nextItem_closed_eq_ok_iff {part : Part} {index : ℕ} :
    nextItem part index .closed items = .ok (item, rest) ↔ items = item :: rest := by
  cases items <;> simp [nextItem, rejectMismatch]

theorem nextItem?_closed_eq_ok_iff {item? : Option Value} :
    nextItem? .closed items = .ok (item?, rest) ↔
      (∃ item, item? = some item ∧ items = item :: rest) ∨
        item? = none ∧ items = [] ∧ rest = [] := by
  cases items with
  | nil => simp [nextItem?, eq_comm]
  | cons item items => grind [nextItem?]

theorem endItems_closed_eq_ok_iff : endItems items .closed = .ok () ↔ items = [] := by
  cases items <;> simp [endItems, rejectFault]

end

/-- A document is read from an array of three values. -/
theorem ofItems_eq_ok_iff {items : List Value} {document : Document} :
    ofItems items .closed = .ok document ↔ ∃ version design network,
      items = [version, design, network] ∧ readVersion version = .ok document.version ∧
        Design.ofValue 2 design = .ok document.design ∧
        Network.ofValue network = .ok document.network := by
  simp only [ofItems, bind_eq_ok_iff, Prod.exists, nextItem_closed_eq_ok_iff]
  constructor
  · intro h
    obtain ⟨version, _, rfl, v, hversion, design, _, rfl, d, hdesign, network, _, rfl, n, hnetwork,
      _, hend, h⟩ := h
    cases h
    obtain rfl := endItems_closed_eq_ok_iff.mp hend
    exact ⟨version, design, network, rfl, hversion, hdesign, hnetwork⟩
  · intro h
    obtain ⟨version, design, network, rfl, hversion, hdesign, hnetwork⟩ := h
    exact ⟨version, _, rfl, _, hversion, design, _, rfl, _, hdesign, network, _, rfl, _, hnetwork,
      (), rfl, rfl⟩

end Document

/-! ## Networks -/

namespace Network

/-- A network is read from an array of its router map and its path, or of the router map alone. -/
theorem ofItems_eq_ok_iff {items : List Value} {network : Network} :
    ofItems items .closed = .ok network ↔
      ∃ routers, readRouters routers = .ok network.routerMap ∧
        (items = [routers] ∧ network.configPath = defaultConfigPath ∨
          ∃ path, items = [routers, path] ∧ readPath path = .ok network.configPath) := by
  simp only [ofItems, bind_eq_ok_iff, Prod.exists, nextItem_closed_eq_ok_iff,
    nextItem?_closed_eq_ok_iff]
  constructor
  · intro h
    obtain ⟨routers, _, rfl, routerMap, hrouters, path?, rest, hpath, configPath?, hread, _, hend,
      h⟩ := h
    obtain rfl := endItems_closed_eq_ok_iff.mp hend
    obtain ⟨rfl, hconfigPath⟩ := ofFields_eq_ok_iff.mp h
    refine ⟨routers, hrouters, ?_⟩
    rcases hpath with ⟨path, rfl, rfl⟩ | ⟨rfl, rfl, -⟩
    · obtain ⟨configPath, hpath, rfl⟩ := fmap_eq_ok_iff.mp hread
      exact .inr ⟨path, rfl, by rw [hpath, hconfigPath, Option.getD_some]⟩
    · cases hread
      exact .inl ⟨rfl, hconfigPath⟩
  · intro h
    obtain ⟨routers, hrouters, ⟨rfl, hpath⟩ | ⟨path, rfl, hpath⟩⟩ := h
    · exact ⟨routers, _, rfl, _, hrouters, none, _, .inr ⟨rfl, rfl, rfl⟩, none, rfl, (), rfl,
        ofFields_eq_ok_iff.mpr ⟨rfl, hpath⟩⟩
    · exact ⟨routers, _, rfl, _, hrouters, some path, _, .inl ⟨path, rfl, rfl⟩,
        some network.configPath, fmap_eq_ok_iff.mpr ⟨_, hpath, rfl⟩, (), rfl,
        ofFields_eq_ok_iff.mpr ⟨rfl, rfl⟩⟩

end Network

/-! ## Designs -/

namespace Design

/-- A design is read from an array of its kind and the counts of its parameters, of which those with
a default may be missing at the end. -/
theorem ofItems_eq_ok_iff {kind : Kind} {items : List Value} {design : Design} :
    ofItems kind items = .ok design ↔
      kind.required ≤ items.length ∧ items.length ≤ kind.fields.length ∧
        ∃ counts, items.mapM readCount = .ok counts ∧
          ofParameters kind (kind.fields.zip counts) = .ok design := by
  rw [ofItems, bind_eq_ok_iff]
  constructor
  · intro h
    obtain ⟨counts, hcounts, h⟩ := h
    by_cases hshort : items.length < kind.required
    · rw [if_pos hshort] at h
      cases h
    by_cases hlong : kind.fields.length < items.length
    · rw [if_neg hshort, if_pos hlong] at h
      cases h
    rw [if_neg hshort, if_neg hlong] at h
    have hlength := Nat.le_of_not_lt hlong
    rw [List.take_of_length_le hlength] at hcounts
    exact ⟨Nat.le_of_not_lt hshort, hlength, counts, hcounts, h⟩
  · intro h
    obtain ⟨hshort, hlong, counts, hcounts, h⟩ := h
    refine ⟨counts, by rwa [List.take_of_length_le hlong], ?_⟩
    rw [if_neg (Nat.not_lt.mpr hshort), if_neg (Nat.not_lt.mpr hlong)]
    exact h

/-- An array of a design begins with its kind, and is read in full before its parameters are. -/
theorem ofValue_array_eq_ok_iff {depth : ℕ} {items : List Value} {design : Design} :
    ofValue depth (.array items .closed) = .ok design ↔
      ∃ first rest kind, items = first :: rest ∧ readKind first = .ok kind ∧
        readWhole depth (.array rest .closed) = .ok () ∧ ofItems kind rest = .ok design := by
  cases items with
  | nil => simp [ofValue, rejectMismatch]
  | cons first rest =>
    simp only [ofValue, bind_eq_ok_iff]
    constructor
    · intro h
      obtain ⟨kind, hkind, _, hwhole, h⟩ := h
      exact ⟨first, rest, kind, rfl, hkind, hwhole, h⟩
    · intro h
      obtain ⟨_, _, kind, heq, hkind, hwhole, h⟩ := h
      cases heq
      exact ⟨kind, hkind, (), hwhole, h⟩

/-! ## Ways to write a design -/

/-- The parameters of a design as values, without their names. -/
def parameterItems (parameters : List (String × UInt64)) : List Value :=
  parameters.map fun parameter ↦ countValue parameter.2

/-- The kind of a design as a value. -/
def kindItem (design : Design) : Value :=
  .string (.ofString design.kind.name)

/-- The ways to write a design: as an object, or as an array of its kind and its parameters, which
may lack a concentration of one at its end. -/
inductive WrittenAs (design : Design) : Value → Prop
  | object : WrittenAs design design.toValue
  | array : WrittenAs design (.array (design.kindItem :: parameterItems design.parameters) .closed)
  | arrayWithoutConcentration {parameters : List (String × UInt64)}
      (h : design.parameters = parameters ++ [("concentration", 1)]) :
    WrittenAs design (.array (design.kindItem :: parameterItems parameters) .closed)

theorem mapM_readCount_parameterItems (parameters : List (String × UInt64)) :
    (parameterItems parameters).mapM readCount = .ok (parameters.map (·.2)) := by
  have hitems : parameterItems parameters = (parameters.map (·.2)).map countValue := by
    rw [List.map_map]
    rfl
  rw [hitems, mapM_read_write readCount_countValue]

theorem areWhole_parameterItems (parameters : List (String × UInt64)) :
    Json.AreWhole (parameterItems parameters) := by
  have hparameter (parameter : String × UInt64) : (countValue parameter.2).IsWhole :=
    Json.Numeral.isProper_ofNat parameter.2.toNat
  exact areWhole_map hparameter parameters

theorem readWhole_parameterItems (parameters : List (String × UInt64)) :
    readWhole 2 (.array (parameterItems parameters) .closed) = .ok () := by
  have hreadable : Value.IsReadable 1 (.array (parameterItems parameters) .closed) := by
    refine .array fun item hitem ↦ ?_
    obtain ⟨parameter, -, rfl⟩ := List.mem_map.mp hitem
    exact .number (by rw [Json.Numeral.number?_ofNat]; rfl)
  exact readWhole_of_isReadable hreadable (by decide)

/-- Names are given to as many values as there are. -/
theorem zip_map_fst_append {α β : Type} (pairs : List (α × β)) (names : List α) :
    (pairs.map (·.1) ++ names).zip (pairs.map (·.2)) = pairs := by
  induction pairs with
  | nil => exact List.zip_nil_right
  | cons pair pairs ih =>
    rw [List.map_cons, List.map_cons, List.cons_append, List.zip_cons_cons, ih]

/-- The first parameters of a design are enough when the design is made from them. -/
theorem ofValue_parameterItems {design : Design} {parameters omitted : List (String × UInt64)}
    (hparameters : design.parameters = parameters ++ omitted)
    (hrequired : design.kind.required ≤ parameters.length)
    (hdesign : ofParameters design.kind parameters = .ok design) :
    ofValue 2 (.array (design.kindItem :: parameterItems parameters) .closed) = .ok design := by
  have hfields : design.kind.fields = parameters.map (·.1) ++ omitted.map (·.1) := by
    rw [← map_fst_parameters, hparameters, List.map_append]
  have hlength : (parameterItems parameters).length = parameters.length := List.length_map _
  refine ofValue_array_eq_ok_iff.mpr ⟨_, _, _, rfl, readKind_name design.kind,
    readWhole_parameterItems parameters, ofItems_eq_ok_iff.mpr ⟨?_, ?_, _,
      mapM_readCount_parameterItems parameters, ?_⟩⟩
  · rwa [hlength]
  · rw [hlength, hfields, List.length_append, List.length_map]
    exact Nat.le_add_right _ _
  · rwa [hfields, zip_map_fst_append]

/-- A design with a concentration of one is made from its other parameters. -/
theorem ofParameters_without_concentration {design : Design}
    {parameters : List (String × UInt64)}
    (h : design.parameters = parameters ++ [("concentration", 1)]) :
    design.kind.required ≤ parameters.length ∧
      ofParameters design.kind parameters = .ok design := by
  have hinit := congrArg List.dropLast h
  have hlast := congrArg List.getLast? h
  rw [List.dropLast_concat] at hinit
  rw [List.getLast?_concat] at hlast
  subst hinit
  cases design with
  | mesh radix dimension concentration =>
    obtain rfl : concentration = 1 := by simpa [Design.parameters] using hlast
    exact ⟨Nat.le_refl 2, rfl⟩
  | torus radix dimension concentration =>
    obtain rfl : concentration = 1 := by simpa [Design.parameters] using hlast
    exact ⟨Nat.le_refl 2, rfl⟩
  | fatTree arity => simp [Design.parameters] at hlast
  | dumbbell => simp [Design.parameters] at hlast
  | custom routers nodes => simp [Design.parameters] at hlast

theorem required_le_length_parameters (design : Design) :
    design.kind.required ≤ design.parameters.length := by
  have hlength := congrArg List.length design.map_fst_parameters
  rw [List.length_map] at hlength
  rw [hlength]
  cases design.kind <;> decide

theorem WrittenAs.ofValue_eq_ok {design : Design} {value : Value} (h : design.WrittenAs value) :
    ofValue 2 value = .ok design := by
  cases h with
  | object => exact ofValue_toValue 2 design
  | array =>
    exact ofValue_parameterItems (List.append_nil _).symm design.required_le_length_parameters
      design.ofParameters_parameters
  | arrayWithoutConcentration h =>
    obtain ⟨hrequired, hdesign⟩ := ofParameters_without_concentration h
    exact ofValue_parameterItems h hrequired hdesign

theorem WrittenAs.isWhole {design : Design} {value : Value} (h : design.WrittenAs value) :
    value.IsWhole := by
  cases h with
  | object => exact design.isWhole_toValue
  | _ => exact ⟨rfl, fun _ ↦ Spelling.isProper_of_mem_ofString, areWhole_parameterItems _⟩

end Design

/-! ## Ways to write a network -/

namespace Network

/-- The ways to write a network: as an object, or as an array of its router map and its path, which
may lack the path if this is the default one. -/
inductive WrittenAs (network : Network) : Value → Prop
  | object : WrittenAs network network.toValue
  | array : WrittenAs network
      (.array [network.routersValue, .string (.ofString network.configPath)] .closed)
  | arrayWithoutPath (h : network.configPath = defaultConfigPath) :
    WrittenAs network (.array [network.routersValue] .closed)

theorem WrittenAs.ofValue_eq_ok {network : Network} {value : Value} (h : network.WrittenAs value) :
    ofValue value = .ok network := by
  have hrouters := network.readRouters_routersValue
  cases h with
  | object => exact network.ofValue_toValue
  | array =>
    exact ofItems_eq_ok_iff.mpr ⟨_, hrouters, .inr ⟨_, rfl, readText_ofString network.configPath⟩⟩
  | arrayWithoutPath h => exact ofItems_eq_ok_iff.mpr ⟨_, hrouters, .inl ⟨rfl, h⟩⟩

theorem WrittenAs.isWhole {network : Network} {value : Value} (h : network.WrittenAs value) :
    value.IsWhole := by
  cases h with
  | object => exact network.isWhole_toValue
  | array =>
    exact ⟨rfl, network.isWhole_routersValue, fun _ ↦ Spelling.isProper_of_mem_ofString, trivial⟩
  | arrayWithoutPath => exact ⟨rfl, network.isWhole_routersValue, trivial⟩

end Network

/-! ## Ways to write a document -/

namespace Document

def versionItem (document : Document) : Value :=
  .number (.ofNat document.version.toNat)

/-- The ways to write a document: as an object or as an array, with the design and the network
written in any of their ways. -/
inductive WrittenAs (document : Document) : Value → Prop
  | object {design network : Value} (hdesign : document.design.WrittenAs design)
      (hnetwork : document.network.WrittenAs network) :
    WrittenAs document
      (.object
        [(.ofString "schema_version", document.versionItem), (.ofString "topology", design),
          (.ofString "network", network)]
        .closed)
  | array {design network : Value} (hdesign : document.design.WrittenAs design)
      (hnetwork : document.network.WrittenAs network) :
    WrittenAs document (.array [document.versionItem, design, network] .closed)

section

variable {document : Document} {value : Value}

theorem WrittenAs.ofValue_eq_ok (h : document.WrittenAs value) : ofValue value = .ok document := by
  cases h with
  | object hdesign hnetwork => exact ofMembers_written hdesign.ofValue_eq_ok hnetwork.ofValue_eq_ok
  | array hdesign hnetwork =>
    exact ofItems_eq_ok_iff.mpr ⟨_, _, _, rfl, readVersion_ofNat document.version,
      hdesign.ofValue_eq_ok, hnetwork.ofValue_eq_ok⟩

theorem WrittenAs.isWhole (h : document.WrittenAs value) : value.IsWhole := by
  have hversion : document.versionItem.IsWhole := Json.Numeral.isProper_ofNat _
  cases h with
  | object hdesign hnetwork =>
    exact ⟨rfl, fun _ ↦ Spelling.isProper_of_mem_ofString, hversion,
      fun _ ↦ Spelling.isProper_of_mem_ofString, hdesign.isWhole,
      fun _ ↦ Spelling.isProper_of_mem_ofString, hnetwork.isWhole, trivial⟩
  | array hdesign hnetwork => exact ⟨rfl, hversion, hdesign.isWhole, hnetwork.isWhole, trivial⟩

end

end Document

/-! ## Arrays of a wrong length -/

/-- How many parameters may follow the kind in an array. -/
def Topology.Kind.arrayLengths : Kind → List ℕ
  | .mesh => [2, 3]
  | .torus => [2, 3]
  | .fatTree => [1]
  | .dumbbell => [0]
  | .custom => [2]

theorem Topology.Kind.mem_arrayLengths {kind : Kind} {length : ℕ}
    (hrequired : kind.required ≤ length) (hfields : length ≤ kind.fields.length) :
    length ∈ kind.arrayLengths := by
  cases kind <;> simp only [required, fields, arrayLengths, List.length_cons, List.length_nil,
    List.mem_cons, List.not_mem_nil] at hrequired hfields ⊢ <;> omega

namespace Document

/-- The part stands in a document that is written as the value: under a name if the value is an
object, and at an index if it is an array. -/
inductive StandsAt (name : String) (index : ℕ) (part : Value) : Value → Prop
  | member {members : List Member} {key : Spelling} (hname : HasName (key, part) name)
      (h : (key, part) ∈ members) : StandsAt name index part (.object members .closed)
  | item {items : List Value} (h : items[index]? = some part) :
    StandsAt name index part (.array items .closed)

/-- An array in place of a document, its design or its network lacks a value or has one too many. -/
inductive HasMisfit : Value → Prop
  | document {items : List Value} (h : items.length ≠ 3) : HasMisfit (.array items .closed)
  | kind {value : Value} (h : StandsAt "topology" 1 (.array [] .closed) value) : HasMisfit value
  | design {value : Value} {kind : Kind} {name : Spelling} {items : List Value}
      (h : StandsAt "topology" 1 (.array (.string name :: items) .closed) value)
      (hname : name.text? = some kind.name) (hlength : items.length ∉ kind.arrayLengths) :
    HasMisfit value
  | network {value : Value} {items : List Value}
      (h : StandsAt "network" 2 (.array items .closed) value)
      (hlength : items.length ∉ [1, 2]) : HasMisfit value

section

variable {document : Document} {value part : Value}

theorem StandsAt.design_eq_ok (hplace : StandsAt "topology" 1 part value)
    (h : ofValue value = .ok document) : Design.ofValue 2 part = .ok document.design := by
  cases hplace with
  | member hname hmember =>
    have hheld : document.IsHeldBy _ := ofMembers_eq_ok_iff.mp h
    exact hheld.reads.read_of_holds hmember hname rfl hheld.design
  | item hitem =>
    obtain ⟨version, design, network, rfl, -, hdesign, -⟩ := ofItems_eq_ok_iff.mp h
    rwa [← Option.some.inj hitem]

theorem StandsAt.network_eq_ok (hplace : StandsAt "network" 2 part value)
    (h : ofValue value = .ok document) : Network.ofValue part = .ok document.network := by
  cases hplace with
  | member hname hmember =>
    have hheld : document.IsHeldBy _ := ofMembers_eq_ok_iff.mp h
    exact hheld.reads.read_of_holds hmember hname rfl hheld.network
  | item hitem =>
    obtain ⟨version, design, network, rfl, -, -, hnetwork⟩ := ofItems_eq_ok_iff.mp h
    rwa [← Option.some.inj hitem]

theorem HasMisfit.ofValue_ne_ok (hmisfit : HasMisfit value) (document : Document) :
    ofValue value ≠ .ok document := by
  intro h
  cases hmisfit with
  | document hlength =>
    obtain ⟨_, _, _, rfl, -⟩ := ofItems_eq_ok_iff.mp h
    exact hlength rfl
  | kind hplace =>
    obtain ⟨_, _, _, hitems, -⟩ := Design.ofValue_array_eq_ok_iff.mp (hplace.design_eq_ok h)
    cases hitems
  | @design _ kind name items hplace hname hlength =>
    obtain ⟨_, _, kind', hitems, hkind, -, hdesign⟩ :=
      Design.ofValue_array_eq_ok_iff.mp (hplace.design_eq_ok h)
    cases hitems
    have hread : Design.readKind (.string name) = .ok kind := by
      simp only [Design.readKind, readText_eq_ok_iff.mpr hname, bind, Except.bind,
        Topology.Kind.ofName?_name]
      rfl
    rw [hread] at hkind
    cases hkind
    obtain ⟨hrequired, hfields, -⟩ := Design.ofItems_eq_ok_iff.mp hdesign
    exact hlength (Topology.Kind.mem_arrayLengths hrequired hfields)
  | network hplace hlength =>
    have hnetwork := hplace.network_eq_ok h
    obtain ⟨_, -, ⟨rfl, -⟩ | ⟨_, rfl, -⟩⟩ := Network.ofItems_eq_ok_iff.mp hnetwork
    · exact hlength (by simp)
    · exact hlength (by simp)

end

/-- A document is read from every text of every value that it may be written as, be the document,
its design and its network objects or arrays, while no document is read from a text in which an
array in one of these three places lacks a value without a default or has one too many. -/
theorem array_form_agrees :
    (∀ (document : Document) (value : Value), document.WrittenAs value →
      read value.compact = .ok document ∧ read value.indented = .ok document ∧
        ∀ text : String, SpellsPadded value text.toList → read text = .ok document) ∧
    ∀ (value : Value) (text : String), HasMisfit value → SpellsPadded value text.toList →
      ∃ rejection, read text = .error rejection := by
  constructor
  · intro document value h
    have hread (text : String) (hspells : SpellsPadded value text.toList) :
        read text = .ok document :=
      read_eq_ok_iff.mpr ⟨value, hspells, h.ofValue_eq_ok⟩
    exact ⟨hread _ (Json.spells_compact h.isWhole).padded,
      hread _ (Json.spells_indented h.isWhole).padded, hread⟩
  · intro value text hmisfit hspells
    cases hread : read text with
    | error rejection => exact ⟨rejection, rfl⟩
    | ok document =>
      obtain ⟨value', hspells', h⟩ := read_eq_ok_iff.mp hread
      rw [hspells'.unique hspells] at h
      exact absurd h (hmisfit.ofValue_ne_ok document)

/-- The value of `pair` as an array, with the given parameters after the kind. -/
def pairArray (parameters : List (String × UInt64)) : Value :=
  .array
    [pair.versionItem,
      .array (pair.design.kindItem :: Design.parameterItems parameters) .closed,
      .array [pair.network.routersValue, .string (.ofString pair.network.configPath)] .closed]
    .closed

theorem read_pairArray :
    (pairArray [("k", 2), ("n", 1)]).compact = "[1,[\"mesh\",2,1],[[0,1],\"anynet\"]]" ∧
      read (pairArray [("k", 2), ("n", 1)]).compact = .ok pair ∧
      (pairArray [("k", 2)]).compact = "[1,[\"mesh\",2],[[0,1],\"anynet\"]]" ∧
      ∃ rejection, read (pairArray [("k", 2)]).compact = .error rejection := by
  have hwritten : pair.WrittenAs (pairArray [("k", 2), ("n", 1)]) :=
    .array (.arrayWithoutConcentration rfl) .array
  have hmisfit : HasMisfit (pairArray [("k", 2)]) :=
    .design (.item rfl) (Spelling.text?_ofString _) (by decide : 1 ∉ Kind.mesh.arrayLengths)
  have hnetwork : pair.network.WrittenAs
      (.array [pair.network.routersValue, .string (.ofString pair.network.configPath)] .closed) :=
    .array
  have hwhole : (pairArray [("k", 2)]).IsWhole :=
    ⟨rfl, Json.Numeral.isProper_ofNat _,
      ⟨rfl, fun _ ↦ Spelling.isProper_of_mem_ofString, Design.areWhole_parameterItems _⟩,
      hnetwork.isWhole, trivial⟩
  refine ⟨by decide +kernel, (array_form_agrees.1 pair _ hwritten).1, by decide +kernel, ?_⟩
  exact array_form_agrees.2 _ _ hmisfit (Json.spells_compact hwhole).padded

end Document

end Interconnect
