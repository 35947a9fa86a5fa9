import Interconnect.Proofs.Document.Records
import Interconnect.Proofs.Document.RoundTrip
import Interconnect.Proofs.Json.Soundness

/-!
# What documents hold

A document, a network and a design that are written as objects are told from their members without
going through them in order: each known name is carried at most once, and each field holds what the
member of its name reads as, or its default (`Document.ofMembers_eq_ok_iff`,
`Network.ofMembers_eq_ok_iff`, `Design.ofMembers_eq_ok_iff`).  The text of a document that is read is
a way to write the value that holds it (`Document.read_eq_ok_iff`).
-/

namespace Interconnect

open Document
open Interconnect.Topology (Kind)
open Json (Member Spelling SpellsPadded Value)

/-! ## Documents -/

namespace Document

section

variable {fields next : Fields} {name : String} {value : Value}

theorem record_isKnown_iff :
    record.isKnown name = true ↔ name = "schema_version" ∨ name = "topology" ∨ name = "network" := by
  simp [record, or_assoc]

theorem accept_version :
    record.accept fields "schema_version" value = .ok next ↔
      ∃ version, readVersion value = .ok version ∧
        { fields with version := some version } = next :=
  map_eq_ok_iff

theorem accept_design :
    record.accept fields "topology" value = .ok next ↔
      ∃ design, Design.ofValue 2 value = .ok design ∧
        { fields with design := some design } = next :=
  map_eq_ok_iff

theorem accept_network :
    record.accept fields "network" value = .ok next ↔
      ∃ network, Network.ofValue value = .ok network ∧
        { fields with network := some network } = next :=
  map_eq_ok_iff

end

theorem isLawful_record : record.IsLawful where
  exists_accept := by
    intro fields next name value hknown h other
    rcases record_isKnown_iff.mp hknown with rfl | rfl | rfl
    · obtain ⟨version, hversion, _⟩ := accept_version.mp h
      exact ⟨_, accept_version.mpr ⟨version, hversion, rfl⟩⟩
    · obtain ⟨design, hdesign, _⟩ := accept_design.mp h
      exact ⟨_, accept_design.mpr ⟨design, hdesign, rfl⟩⟩
    · obtain ⟨network, hnetwork, _⟩ := accept_network.mp h
      exact ⟨_, accept_network.mpr ⟨network, hnetwork, rfl⟩⟩
  isSeen_accept := by
    intro fields next name value hknown h other
    rcases record_isKnown_iff.mp hknown with rfl | rfl | rfl
    · obtain ⟨version, _, rfl⟩ := accept_version.mp h
      simp only [record, Option.isSome_some]
      grind
    · obtain ⟨design, _, rfl⟩ := accept_design.mp h
      simp only [record, Option.isSome_some]
      grind
    · obtain ⟨network, _, rfl⟩ := accept_network.mp h
      simp only [record, Option.isSome_some]
      grind

theorem isField_version : record.IsField Fields.version "schema_version" readVersion where
  isKnown := rfl
  accept_self := by
    intro fields next value _ h
    obtain ⟨version, hversion, rfl⟩ := accept_version.mp h
    exact ⟨version, hversion, rfl⟩
  accept_other := by
    intro fields next other value hknown hne h
    rcases record_isKnown_iff.mp hknown with rfl | rfl | rfl
    · exact absurd rfl hne
    · obtain ⟨_, _, rfl⟩ := accept_design.mp h
      rfl
    · obtain ⟨_, _, rfl⟩ := accept_network.mp h
      rfl

theorem isField_design : record.IsField Fields.design "topology" (Design.ofValue 2) where
  isKnown := rfl
  accept_self := by
    intro fields next value _ h
    obtain ⟨design, hdesign, rfl⟩ := accept_design.mp h
    exact ⟨design, hdesign, rfl⟩
  accept_other := by
    intro fields next other value hknown hne h
    rcases record_isKnown_iff.mp hknown with rfl | rfl | rfl
    · obtain ⟨_, _, rfl⟩ := accept_version.mp h
      rfl
    · exact absurd rfl hne
    · obtain ⟨_, _, rfl⟩ := accept_network.mp h
      rfl

theorem isField_network : record.IsField Fields.network "network" Network.ofValue where
  isKnown := rfl
  accept_self := by
    intro fields next value _ h
    obtain ⟨network, hnetwork, rfl⟩ := accept_network.mp h
    exact ⟨network, hnetwork, rfl⟩
  accept_other := by
    intro fields next other value hknown hne h
    rcases record_isKnown_iff.mp hknown with rfl | rfl | rfl
    · obtain ⟨_, _, rfl⟩ := accept_version.mp h
      rfl
    · obtain ⟨_, _, rfl⟩ := accept_design.mp h
      rfl
    · exact absurd rfl hne

/-- The members of an object that hold a document. -/
structure IsHeldBy (document : Document) (members : List Member) : Prop where
  reads : record.Reads members
  version : Holds members "schema_version" readVersion document.version
  design : Holds members "topology" (Design.ofValue 2) document.design
  network : Holds members "network" Network.ofValue document.network

theorem field_eq_ok_iff {α : Type} {name : String} {a? : Option α} {a : α} :
    field name a? = .ok a ↔ a? = some a := by
  cases a? <;> simp [field, rejectMismatch]

/-- A document is read from the members that hold it. -/
theorem ofMembers_eq_ok_iff {members : List Member} {document : Document} :
    ofMembers members .closed = .ok document ↔ document.IsHeldBy members := by
  have hread : (∃ next, record.read ⟨none, none, none⟩ members .closed = .ok next) ↔
      record.Reads members := Record.exists_read_eq_ok_iff isLawful_record fun _ ↦ rfl
  simp only [ofMembers, bind_eq_ok_iff, field_eq_ok_iff]
  constructor
  · intro h
    obtain ⟨next, hnext, version, hversion, design, hdesign, network, hnetwork, h⟩ := h
    cases h
    have hreads := hread.mp ⟨next, hnext⟩
    exact ⟨hreads, (isField_version.eq_some_iff hreads rfl hnext).mp hversion,
      (isField_design.eq_some_iff hreads rfl hnext).mp hdesign,
      (isField_network.eq_some_iff hreads rfl hnext).mp hnetwork⟩
  · intro h
    obtain ⟨next, hnext⟩ := hread.mpr h.reads
    exact ⟨next, hnext, _, (isField_version.eq_some_iff h.reads rfl hnext).mpr h.version, _,
      (isField_design.eq_some_iff h.reads rfl hnext).mpr h.design, _,
      (isField_network.eq_some_iff h.reads rfl hnext).mpr h.network, rfl⟩

section

variable {document : Document} {members : List Member} {key : Spelling} {value value' : Value}

/-- With another value for a field, the members hold the document with that field instead. -/
theorem IsHeldBy.with_version {version : UInt32} (h : document.IsHeldBy ((key, value) :: members))
    (hname : HasName (key, value) "schema_version") (hread : readVersion value' = .ok version) :
    { document with version }.IsHeldBy ((key, value') :: members) where
  reads := h.reads.replace hname rfl fun _ ↦ ⟨_, accept_version.mpr ⟨_, hread, rfl⟩⟩
  version := ⟨_, List.mem_cons_self, hname, hread⟩
  design := h.design.replace (fun hdesign ↦ absurd (hname.unique hdesign) (by decide)) value'
  network := h.network.replace (fun hnetwork ↦ absurd (hname.unique hnetwork) (by decide)) value'

theorem IsHeldBy.with_design {design : Design} (h : document.IsHeldBy ((key, value) :: members))
    (hname : HasName (key, value) "topology") (hread : Design.ofValue 2 value' = .ok design) :
    { document with design }.IsHeldBy ((key, value') :: members) where
  reads := h.reads.replace hname rfl fun _ ↦ ⟨_, accept_design.mpr ⟨_, hread, rfl⟩⟩
  version := h.version.replace (fun hversion ↦ absurd (hname.unique hversion) (by decide)) value'
  design := ⟨_, List.mem_cons_self, hname, hread⟩
  network := h.network.replace (fun hnetwork ↦ absurd (hname.unique hnetwork) (by decide)) value'

theorem IsHeldBy.with_network {network : Network}
    (h : document.IsHeldBy ((key, value) :: members)) (hname : HasName (key, value) "network")
    (hread : Network.ofValue value' = .ok network) :
    { document with network }.IsHeldBy ((key, value') :: members) where
  reads := h.reads.replace hname rfl fun _ ↦ ⟨_, accept_network.mpr ⟨_, hread, rfl⟩⟩
  version := h.version.replace (fun hversion ↦ absurd (hname.unique hversion) (by decide)) value'
  design := h.design.replace (fun hdesign ↦ absurd (hname.unique hdesign) (by decide)) value'
  network := ⟨_, List.mem_cons_self, hname, hread⟩

end

end Document

/-! ## Networks -/

namespace Network

section

variable {fields next : Fields} {name : String} {value : Value}

theorem record_isKnown_iff :
    record.isKnown name = true ↔ name = "attached_router_id" ∨ name = "booksim_config" := by
  simp [record]

theorem accept_routerMap :
    record.accept fields "attached_router_id" value = .ok next ↔
      ∃ routerMap, readRouters value = .ok routerMap ∧
        { fields with routerMap := some routerMap } = next :=
  map_eq_ok_iff

theorem accept_configPath :
    record.accept fields "booksim_config" value = .ok next ↔
      ∃ configPath, readPath value = .ok configPath ∧
        { fields with configPath := some configPath } = next :=
  map_eq_ok_iff

end

theorem isLawful_record : record.IsLawful where
  exists_accept := by
    intro fields next name value hknown h other
    rcases record_isKnown_iff.mp hknown with rfl | rfl
    · obtain ⟨routerMap, hrouterMap, _⟩ := accept_routerMap.mp h
      exact ⟨_, accept_routerMap.mpr ⟨routerMap, hrouterMap, rfl⟩⟩
    · obtain ⟨configPath, hconfigPath, _⟩ := accept_configPath.mp h
      exact ⟨_, accept_configPath.mpr ⟨configPath, hconfigPath, rfl⟩⟩
  isSeen_accept := by
    intro fields next name value hknown h other
    rcases record_isKnown_iff.mp hknown with rfl | rfl
    · obtain ⟨routerMap, _, rfl⟩ := accept_routerMap.mp h
      simp only [record, Option.isSome_some]
      grind
    · obtain ⟨configPath, _, rfl⟩ := accept_configPath.mp h
      simp only [record, Option.isSome_some]
      grind

theorem isField_routerMap : record.IsField Fields.routerMap "attached_router_id" readRouters where
  isKnown := rfl
  accept_self := by
    intro fields next value _ h
    obtain ⟨routerMap, hrouterMap, rfl⟩ := accept_routerMap.mp h
    exact ⟨routerMap, hrouterMap, rfl⟩
  accept_other := by
    intro fields next other value hknown hne h
    rcases record_isKnown_iff.mp hknown with rfl | rfl
    · exact absurd rfl hne
    · obtain ⟨_, _, rfl⟩ := accept_configPath.mp h
      rfl

theorem isField_configPath : record.IsField Fields.configPath "booksim_config" readPath where
  isKnown := rfl
  accept_self := by
    intro fields next value _ h
    obtain ⟨configPath, hconfigPath, rfl⟩ := accept_configPath.mp h
    exact ⟨configPath, hconfigPath, rfl⟩
  accept_other := by
    intro fields next other value hknown hne h
    rcases record_isKnown_iff.mp hknown with rfl | rfl
    · obtain ⟨_, _, rfl⟩ := accept_routerMap.mp h
      rfl
    · exact absurd rfl hne

/-- The members of an object that hold a network.  The path may be left out. -/
structure IsHeldBy (network : Network) (members : List Member) : Prop where
  reads : record.Reads members
  routerMap : Holds members "attached_router_id" readRouters network.routerMap
  configPath : HoldsOr members "booksim_config" readPath defaultConfigPath network.configPath

theorem ofFields_eq_ok_iff {routerMap : Array Int64} {configPath? : Option String}
    {network : Network} :
    ofFields routerMap configPath? = .ok network ↔
      network.routerMap = routerMap ∧
        network.configPath = configPath?.getD defaultConfigPath := by
  rw [← build_eq_ok_iff, ofFields]
  cases build routerMap (configPath?.getD defaultConfigPath) <;> simp [rejectMismatch]

theorem exists_read_eq_ok_iff {members : List Member} :
    (∃ next, record.read ⟨none, none⟩ members .closed = .ok next) ↔ record.Reads members :=
  Record.exists_read_eq_ok_iff isLawful_record fun _ ↦ rfl

/-- Members that hold a map, and hold a path or leave it out, are read as what is made of the two. -/
theorem ofMembers_eq_ofFields {members : List Member} {routerMap : Array Int64} {path : String}
    (hreads : record.Reads members)
    (hmap : Holds members "attached_router_id" readRouters routerMap)
    (hpath : HoldsOr members "booksim_config" readPath defaultConfigPath path) :
    ofMembers members .closed = ofFields routerMap (some path) := by
  obtain ⟨next, hnext⟩ := exists_read_eq_ok_iff.mpr hreads
  have hrouterMap := (isField_routerMap.eq_some_iff hreads rfl hnext).mpr hmap
  have hconfigPath := (isField_configPath.getD_eq_iff hreads rfl hnext).mpr hpath
  simp only [ofMembers, hnext, bind, Except.bind, hrouterMap, ofFields, hconfigPath,
    Option.getD_some]

/-- A network is read from the members that hold it. -/
theorem ofMembers_eq_ok_iff {members : List Member} {network : Network} :
    ofMembers members .closed = .ok network ↔ network.IsHeldBy members := by
  constructor
  · intro h
    rw [ofMembers, bind_eq_ok_iff] at h
    obtain ⟨next, hnext, h⟩ := h
    have hreads := exists_read_eq_ok_iff.mp ⟨next, hnext⟩
    split at h
    · cases h
    · next routerMap hrouterMap =>
      obtain ⟨hmap, hpath⟩ := ofFields_eq_ok_iff.mp h
      rw [← hmap] at hrouterMap
      exact ⟨hreads, (isField_routerMap.eq_some_iff hreads rfl hnext).mp hrouterMap,
        (isField_configPath.getD_eq_iff hreads rfl hnext).mp hpath.symm⟩
  · intro h
    rw [ofMembers_eq_ofFields h.reads h.routerMap h.configPath]
    exact network.ofFields_self

theorem IsHeldBy.with_routerMap {network : Network} {members : List Member} {key : Spelling}
    {value value' : Value} {routerMap : Array Int64} (h : network.IsHeldBy ((key, value) :: members))
    (hname : HasName (key, value) "attached_router_id")
    (hread : readRouters value' = .ok routerMap) :
    { network with routerMap }.IsHeldBy ((key, value') :: members) where
  reads := h.reads.replace hname rfl fun _ ↦ ⟨_, accept_routerMap.mpr ⟨_, hread, rfl⟩⟩
  routerMap := ⟨_, List.mem_cons_self, hname, hread⟩
  configPath := by
    have hpath (value : Value) : ¬ HasName (key, value) "booksim_config" := fun hpath ↦
      absurd (hname.unique hpath) (by decide)
    exact h.configPath.imp (·.replace (hpath value) value')
      (·.imp_left fun hlacks ↦ hlacks.of_cons.cons (hpath value'))

end Network

/-! ## Designs -/

namespace Design

theorem isLawful_kindRecord (depth : ℕ) : (kindRecord depth).IsLawful where
  exists_accept := by
    intro fields next name value _ h other
    exact ⟨next, h⟩
  isSeen_accept := by
    intro fields next name value hknown h other
    obtain ⟨kind, _, rfl⟩ := map_eq_ok_iff.mp h
    have hname : name = "kind" := by simpa [kindRecord] using hknown
    subst hname
    simp only [kindRecord, Option.isSome_some]
    grind

theorem isField_kind (depth : ℕ) : (kindRecord depth).IsField id "kind" readKind where
  isKnown := rfl
  accept_self := by
    intro fields next value _ h
    obtain ⟨kind, hkind, rfl⟩ := map_eq_ok_iff.mp h
    exact ⟨kind, hkind, rfl⟩
  accept_other := by
    intro fields next other value hknown hne h
    exact absurd (by simpa [kindRecord] using hknown) hne

variable {kind : Kind}

theorem isLawful_parameterRecord : (parameterRecord kind).IsLawful where
  exists_accept := by
    intro parameters next name value _ h other
    obtain ⟨n, hn, _⟩ := map_eq_ok_iff.mp h
    exact ⟨_, map_eq_ok_iff.mpr ⟨n, hn, rfl⟩⟩
  isSeen_accept := by
    intro parameters next name value _ h other
    obtain ⟨n, hn, rfl⟩ := map_eq_ok_iff.mp h
    simp [parameterRecord, Bool.or_comm, BEq.comm (a := name)]

theorem isField_parameter {name : String} (hname : name ∈ kind.fields) :
    (parameterRecord kind).IsField (List.lookup name) name readCount where
  isKnown := List.contains_iff_mem.mpr hname
  accept_self := by
    intro parameters next value hseen h
    obtain ⟨n, hn, rfl⟩ := map_eq_ok_iff.mp h
    have hlookup : parameters.lookup name = none := by
      refine List.lookup_eq_none_iff.mpr fun parameter hparameter ↦ ?_
      have hne := List.any_eq_false.mp hseen parameter hparameter
      rw [beq_iff_eq] at hne
      exact bne_iff_ne.mpr (Ne.symm hne)
    exact ⟨n, hn, by simp [List.lookup_append, hlookup]⟩
  accept_other := by
    intro parameters next other value _ hne h
    obtain ⟨n, hn, rfl⟩ := map_eq_ok_iff.mp h
    have hother : (name == other) = false := beq_eq_false_iff_ne.mpr (Ne.symm hne)
    simp [List.lookup_append, List.lookup_cons, hother]

/-- The parameter is held by a member, or left out where it has a default. -/
def HoldsParameter (members : List Member) (name : String) (n : UInt64) : Prop :=
  Holds members name readCount n ∨ Lacks members name ∧ name = "concentration" ∧ n = 1

theorem parameter_eq_ok_iff {parameters : List (String × UInt64)} {name : String} {n : UInt64} :
    parameter parameters name = .ok n ↔ parameters.lookup name = some n := by
  unfold parameter
  cases parameters.lookup name <;> simp [rejectMismatch]

theorem ofParameters_eq_ok_iff {parameters : List (String × UInt64)} {design : Design} :
    ofParameters kind parameters = .ok design ↔
      design.kind = kind ∧ ∀ parameter ∈ design.parameters,
        parameters.lookup parameter.1 = some parameter.2 ∨
          parameters.lookup parameter.1 = none ∧
            parameter.1 = "concentration" ∧ parameter.2 = 1 := by
  cases kind <;> cases design <;>
    simp [ofParameters, parameter_eq_ok_iff, bind_eq_ok_iff, fmap_eq_ok_iff, Design.kind,
      Design.parameters, Option.getD_eq_iff, -List.lookup_eq_none_iff]
  case mesh.mesh => grind
  case torus.torus => grind

theorem isKindKey_iff {member : Member} : isKindKey member = true ↔ HasName member "kind" := by
  rw [isKindKey, beq_iff_eq]
  rfl

section

variable {members : List Member} {name : String} {n : UInt64}

/-- The members other than the kind. -/
def others (members : List Member) : List Member :=
  members.filter (!isKindKey ·)

theorem mem_others {member : Member} :
    member ∈ others members ↔ member ∈ members ∧ ¬ HasName member "kind" := by
  simp [others, ← isKindKey_iff]

theorem holds_others_iff (hname : name ≠ "kind") :
    Holds (others members) name readCount n ↔ Holds members name readCount n := by
  refine exists_congr fun member ↦ ?_
  rw [mem_others, and_assoc]
  refine and_congr_right fun _ ↦ and_iff_right_of_imp fun h ↦ ?_
  intro hkind
  exact hname (h.1.unique hkind)

theorem lacks_others_iff (hname : name ≠ "kind") :
    Lacks (others members) name ↔ Lacks members name := by
  refine forall_congr' fun member ↦ ?_
  rw [mem_others]
  constructor
  · intro h hmember hmem
    exact h ⟨hmember, fun hkind ↦ hname (hmem.unique hkind)⟩ hmem
  · intro h hmember
    exact h hmember.1

theorem ne_kind_of_isKnown (h : (parameterRecord kind).isKnown name = true) : name ≠ "kind" := by
  rintro rfl
  exact kind.kind_notMem_fields (List.contains_iff_mem.mp h)

/-- Since the kind is no parameter, its member does not matter to the parameters. -/
theorem reads_others_iff :
    (parameterRecord kind).Reads (others members) ↔ (parameterRecord kind).Reads members := by
  constructor
  · intro h
    refine ⟨fun member hmember ↦ ?_, ?_⟩
    · by_cases hkind : HasName member "kind"
      · refine ⟨"kind", hkind, ?_⟩
        rw [if_neg fun hknown ↦ ne_kind_of_isKnown hknown rfl]
        rfl
      · exact h.takes member (mem_others.mpr ⟨hmember, hkind⟩)
    · refine (List.pairwise_filter.mp h.distinct).imp fun {a b} hab hclash ↦ ?_
      obtain ⟨name, hknown, ha, hb⟩ := hclash
      have hne := ne_kind_of_isKnown hknown
      refine hab ?_ ?_ ⟨name, hknown, ha, hb⟩
      · simpa [← isKindKey_iff] using fun hkind ↦ hne (ha.unique (isKindKey_iff.mp hkind))
      · simpa [← isKindKey_iff] using fun hkind ↦ hne (hb.unique (isKindKey_iff.mp hkind))
  · intro h
    exact ⟨fun member hmember ↦ h.takes member (mem_others.mp hmember).1, h.distinct.filter _⟩

end

/-- The members of an object that hold a design. -/
structure IsHeldBy (depth : ℕ) (design : Design) (members : List Member) : Prop where
  reads : (kindRecord depth).Reads members
  kind : Holds members "kind" readKind design.kind
  reads_parameters : (parameterRecord design.kind).Reads members
  parameters : ∀ parameter ∈ design.parameters, HoldsParameter members parameter.1 parameter.2

theorem mem_fields_of_mem_parameters {design : Design} {parameter : String × UInt64}
    (h : parameter ∈ design.parameters) : parameter.1 ∈ design.kind.fields := by
  rw [← map_fst_parameters]
  exact List.mem_map_of_mem h

/-- What the second pass takes in is what the members hold under the names of the parameters. -/
theorem lookup_read_parameterRecord {members : List Member} {name : String} {n : UInt64}
    {parameters : List (String × UInt64)} (hname : name ∈ kind.fields)
    (hreads : (parameterRecord kind).Reads (others members))
    (h : (parameterRecord kind).read [] (others members) .closed = .ok parameters) :
    (parameters.lookup name = some n ↔ Holds members name readCount n) ∧
      (parameters.lookup name = none ↔ Lacks members name) := by
  have hne : name ≠ "kind" := ne_kind_of_isKnown (List.contains_iff_mem.mpr hname)
  have hfield := isField_parameter hname
  rw [hfield.eq_some_iff hreads rfl h, hfield.eq_none_iff rfl h, holds_others_iff hne,
    lacks_others_iff hne]
  exact ⟨Iff.rfl, Iff.rfl⟩

theorem ofMembers_eq_ok_iff {depth : ℕ} {members : List Member} {design : Design} :
    ofMembers depth members .closed = .ok design ↔ design.IsHeldBy depth members := by
  have hread : (∃ next, (kindRecord depth).read none members .closed = .ok next) ↔
      (kindRecord depth).Reads members :=
    Record.exists_read_eq_ok_iff (isLawful_kindRecord depth) fun _ ↦ rfl
  have hreadOthers : (∃ next, (parameterRecord design.kind).read [] (others members) .closed =
      .ok next) ↔ (parameterRecord design.kind).Reads (others members) :=
    Record.exists_read_eq_ok_iff isLawful_parameterRecord fun _ ↦ rfl
  rw [ofMembers, bind_eq_ok_iff]
  constructor
  · intro h
    obtain ⟨kind?, hkind, h⟩ := h
    have hreads := hread.mp ⟨kind?, hkind⟩
    split at h
    · cases h
    · next kind =>
      obtain ⟨parameters, hparameters, h⟩ := bind_eq_ok_iff.mp h
      obtain ⟨rfl, hlookup⟩ := ofParameters_eq_ok_iff.mp h
      have hreadsOthers := hreadOthers.mp ⟨parameters, hparameters⟩
      refine ⟨hreads, ((isField_kind depth).eq_some_iff hreads rfl hkind).mp rfl,
        reads_others_iff.mp hreadsOthers, ?_⟩
      intro parameter hparameter
      obtain ⟨hsome, hnone⟩ := lookup_read_parameterRecord
        (mem_fields_of_mem_parameters hparameter) hreadsOthers hparameters
      rw [HoldsParameter, ← hsome, ← hnone]
      exact hlookup parameter hparameter
  · intro h
    obtain ⟨kind?, hkind⟩ := hread.mpr h.reads
    obtain rfl : kind? = some design.kind :=
      ((isField_kind depth).eq_some_iff h.reads rfl hkind).mpr h.kind
    have hreadsOthers := reads_others_iff.mpr h.reads_parameters
    obtain ⟨parameters, hparameters⟩ := hreadOthers.mpr hreadsOthers
    refine ⟨some design.kind, hkind, bind_eq_ok_iff.mpr ⟨parameters, hparameters, ?_⟩⟩
    refine ofParameters_eq_ok_iff.mpr ⟨rfl, fun parameter hparameter ↦ ?_⟩
    obtain ⟨hsome, hnone⟩ := lookup_read_parameterRecord
      (mem_fields_of_mem_parameters hparameter) hreadsOthers hparameters
    rw [hsome, hnone]
    exact h.parameters parameter hparameter

end Design

/-! ## Texts -/

namespace Document

theorem eq_closed_of_endItems {items : List Value} {ending : Json.Ending Json.ArrayRest}
    (h : endItems items ending = .ok ()) : ending = .closed := by
  unfold endItems at h
  split at h
  · rfl
  all_goals cases h

/-- What breaks is no document. -/
theorem isClosed_of_ofValue_eq_ok {value : Value} {document : Document}
    (h : ofValue value = .ok document) : value.IsClosed := by
  cases value with
  | object members ending =>
    obtain ⟨fields, hread, _⟩ := bind_eq_ok_iff.mp h
    exact Record.eq_closed_of_read hread
  | array items ending =>
    simp only [ofValue, ofItems, bind_eq_ok_iff] at h
    obtain ⟨_, _, _, _, _, _, _, _, _, _, _, _, _, hend, _⟩ := h
    exact eq_closed_of_endItems hend
  | _ => trivial

/-- A document is read from the texts of the values that hold it. -/
theorem read_eq_ok_iff {text : String} {document : Document} :
    read text = .ok document ↔
      ∃ value, SpellsPadded value text.toList ∧ ofValue value = .ok document := by
  constructor
  · intro h
    unfold read interpret at h
    split at h
    · cases h
    · next value trailing hscan =>
      obtain ⟨a, hvalue, h⟩ := bind_eq_ok_iff.mp h
      cases trailing with
      | true => cases h
      | false =>
        cases h
        exact ⟨value, Json.spellsPadded_of_scan hscan (isClosed_of_ofValue_eq_ok hvalue), hvalue⟩
  · intro h
    obtain ⟨value, hspells, hvalue⟩ := h
    rw [read_eq_ofValue hspells, hvalue]

end Document

end Interconnect
