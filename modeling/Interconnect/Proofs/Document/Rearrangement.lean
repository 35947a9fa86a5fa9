import Interconnect.Proofs.Document.Contents

/-!
# Documents laid out in another way

What a document means does not depend on how its objects are laid out.  `Rearranged` says which
members of an object may stand for which others: they may be put in any order, members of unknown
names may be added, members that say no more than the default may be left out, and the design and the
network of a document may be rearranged in turn.  Each of these steps keeps what the members hold, and
so does any number of them (`Document.read_eq_ok_of_rearranged`).
-/

namespace Interconnect

open Document
open Interconnect.Topology (Kind)
open Json (Member Spelling SpellsPadded Value)

/-! ## Values that may be added -/

/-- A value without breaks that can be read in full: its numbers are in range, no surrogate stands
alone in its strings, and arrays and objects are nested in it at most as deep as given. -/
inductive Json.Value.IsReadable : ℕ → Value → Prop
  | null {levels : ℕ} : IsReadable levels .null
  | bool {levels : ℕ} (b : Bool) : IsReadable levels (.bool b)
  | number {levels : ℕ} {numeral : Json.Numeral} (h : numeral.number?.isSome = true) :
    IsReadable levels (.number numeral)
  | string {levels : ℕ} {spelling : Spelling} (h : spelling.text?.isSome = true) :
    IsReadable levels (.string spelling)
  | array {levels : ℕ} {items : List Value} (h : ∀ item ∈ items, IsReadable levels item) :
    IsReadable (levels + 1) (.array items .closed)
  | object {levels : ℕ} {members : List Member}
      (hkeys : ∀ member ∈ members, member.1.text?.isSome = true)
      (h : ∀ member ∈ members, IsReadable levels member.2) :
    IsReadable (levels + 1) (.object members .closed)

namespace Document

theorem firstItemFault?_eq_none_iff {depth : ℕ} {items : List Value} :
    firstItemFault? depth items = none ↔ ∀ item ∈ items, firstFault? depth item = none := by
  induction items with
  | nil => simp [firstItemFault?]
  | cons item items ih =>
    rw [firstItemFault?, List.forall_mem_cons, ← ih]
    cases firstFault? depth item <;> simp

theorem firstMemberFault?_eq_none {depth : ℕ} {members : List Member}
    (hkeys : ∀ member ∈ members, member.1.text?.isSome = true)
    (h : ∀ member ∈ members, firstFault? depth member.2 = none) :
    firstMemberFault? depth members = none := by
  induction members with
  | nil => rfl
  | cons member members ih =>
    obtain ⟨key, value⟩ := member
    obtain ⟨hkey, hkeysRest⟩ := List.forall_mem_cons.mp hkeys
    obtain ⟨hvalue, hrest⟩ := List.forall_mem_cons.mp h
    rw [firstMemberFault?, if_pos hkey, hvalue]
    exact ih hkeysRest hrest

theorem firstFault?_eq_none {levels depth : ℕ} {value : Value} (h : value.IsReadable levels)
    (hdepth : depth + levels ≤ maxNesting + 1) : firstFault? depth value = none := by
  induction h generalizing depth with
  | null => rfl
  | bool b => rfl
  | number h => rw [firstFault?, if_pos h]
  | string h => rw [firstFault?, if_pos h]
  | @array levels items h ih =>
    have hitems : firstItemFault? (depth + 1) items = none :=
      firstItemFault?_eq_none_iff.mpr fun item hitem ↦ ih item hitem (by omega)
    have hshallow : ¬ maxNesting < depth := by omega
    simp only [firstFault?, if_neg hshallow, hitems]
  | @object levels members hkeys h ih =>
    have hmembers : firstMemberFault? (depth + 1) members = none :=
      firstMemberFault?_eq_none hkeys fun member hmember ↦ ih member hmember (by omega)
    have hshallow : ¬ maxNesting < depth := by omega
    simp only [firstFault?, if_neg hshallow, hmembers]

theorem readWhole_of_isReadable {levels depth : ℕ} {value : Value} (h : value.IsReadable levels)
    (hdepth : depth + levels ≤ maxNesting + 1) : readWhole depth value = .ok () := by
  rw [readWhole, firstFault?_eq_none h hdepth]

theorem skip_of_isClosed {value : Value} (h : value.IsClosed) : skip value = .ok () := by
  cases value with
  | array items ending =>
    cases ending with
    | closed => rfl
    | cut => cases h
  | object members ending =>
    cases ending with
    | closed => rfl
    | cut => cases h
  | _ => rfl

end Document

/-! ## Rearranged members -/

/-- What may change about the members of an object. -/
structure Document.Arrangement where
  isKnown : String → Bool
  /-- The value may be added under an unknown name. -/
  Ignorable : Value → Prop
  /-- A member with this name and this value may be left out. -/
  Omissible : String → Value → Prop
  /-- Under this name, the first value may give way to the second. -/
  Replaceable : String → Value → Value → Prop

/-- The second members may stand for the first. -/
inductive Document.Rearranged (arrangement : Arrangement) : List Member → List Member → Prop
  | permute {members members' : List Member} (h : members.Perm members') :
    Rearranged arrangement members members'
  | insert {members : List Member} {member : Member} {name : String} (hname : HasName member name)
      (hunknown : arrangement.isKnown name = false) (h : arrangement.Ignorable member.2) :
    Rearranged arrangement members (member :: members)
  | leaveOut {members : List Member} {member : Member} {name : String}
      (hname : HasName member name) (h : arrangement.Omissible name member.2) :
    Rearranged arrangement (member :: members) members
  | replace {members : List Member} {key : Spelling} {name : String} {value value' : Value}
      (hname : HasName (key, value) name) (h : arrangement.Replaceable name value value') :
    Rearranged arrangement ((key, value) :: members) ((key, value') :: members)
  | trans {a b c : List Member} (h : Rearranged arrangement a b)
      (h' : Rearranged arrangement b c) : Rearranged arrangement a c

/-- In a design, members of unknown names are read in full, and a concentration of one is the
default. -/
def Design.arrangement (depth : ℕ) (kind : Kind) : Arrangement where
  isKnown name := name == "kind" || kind.fields.contains name
  Ignorable value := value.IsReadable (maxNesting - depth)
  Omissible name value := name = "concentration" ∧ readCount value = .ok 1
  Replaceable _ _ _ := False

/-- In a network, members of unknown names are passed over. -/
def Network.arrangement : Arrangement where
  isKnown := record.isKnown
  Ignorable := Value.IsClosed
  Omissible name value := name = "booksim_config" ∧ readPath value = .ok defaultConfigPath
  Replaceable _ _ _ := False

/-- The design and the network of a document, written as objects, may be rearranged. -/
inductive Document.Replaceable (kind : Kind) : String → Value → Value → Prop
  | design {members members' : List Member}
      (h : Rearranged (Design.arrangement 2 kind) members members') :
    Replaceable kind "topology" (.object members .closed) (.object members' .closed)
  | network {members members' : List Member}
      (h : Rearranged Network.arrangement members members') :
    Replaceable kind "network" (.object members .closed) (.object members' .closed)

/-- In a document, members of unknown names are passed over, and no member can be left out. -/
def Document.arrangement (kind : Kind) : Arrangement where
  isKnown := record.isKnown
  Ignorable := Value.IsClosed
  Omissible _ _ := False
  Replaceable := Replaceable kind

/-! ## Designs -/

namespace Design

variable {depth : ℕ} {design : Design} {members members' : List Member} {member : Member}
  {name : String}

theorem IsHeldBy.perm (h : design.IsHeldBy depth members) (hperm : members.Perm members') :
    design.IsHeldBy depth members' where
  reads := h.reads.perm hperm
  kind := h.kind.perm hperm
  reads_parameters := h.reads_parameters.perm hperm
  parameters parameter hparameter :=
    (h.parameters parameter hparameter).imp (·.perm hperm) (·.imp_left (·.perm hperm))

theorem IsHeldBy.insert (h : design.IsHeldBy depth members) (hname : HasName member name)
    (hunknown : (arrangement depth design.kind).isKnown name = false)
    (hvalue : member.2.IsReadable (maxNesting - depth)) (hdepth : depth ≤ maxNesting) :
    design.IsHeldBy depth (member :: members) := by
  obtain ⟨hkind, hfields⟩ := Bool.or_eq_false_iff.mp hunknown
  have hread : readWhole (depth + 1) member.2 = .ok () :=
    readWhole_of_isReadable hvalue (by omega)
  refine ⟨h.reads.cons_unknown hname hkind hread, h.kind.cons member,
    h.reads_parameters.cons_unknown hname hfields rfl, ?_⟩
  intro parameter hparameter
  have hne : ¬ HasName member parameter.1 := by
    intro hname'
    have hmem := List.contains_iff_mem.mpr (mem_fields_of_mem_parameters hparameter)
    rw [← hname.unique hname', hfields] at hmem
    exact Bool.false_ne_true hmem
  exact (h.parameters parameter hparameter).imp (·.cons member) (·.imp_left (·.cons hne))

/-- What a design with a concentration of one holds, it holds without the concentration. -/
theorem IsHeldBy.leaveOut (h : design.IsHeldBy depth (member :: members))
    (hname : HasName member "concentration") (hvalue : readCount member.2 = .ok 1) :
    design.IsHeldBy depth members := by
  have hkind : ¬ HasName member "kind" := fun hkind ↦ absurd (hname.unique hkind) (by decide)
  refine ⟨h.reads.of_cons, h.kind.of_cons hkind, h.reads_parameters.of_cons, ?_⟩
  intro parameter hparameter
  have hmem := List.contains_iff_mem.mpr (mem_fields_of_mem_parameters hparameter)
  by_cases hsame : HasName member parameter.1
  · have hlacks := h.reads_parameters.lacks_of_cons hsame hmem
    refine .inr ⟨hlacks, hsame.unique hname, ?_⟩
    rcases h.parameters parameter hparameter with hholds | ⟨_, _, hone⟩
    · have hread := h.reads_parameters.read_of_holds List.mem_cons_self hsame hmem hholds
      exact Except.ok.inj (hread.symm.trans hvalue)
    · exact hone
  · exact (h.parameters parameter hparameter).imp (·.of_cons hsame) (·.imp_left (·.of_cons))

theorem IsHeldBy.rearranged (h : design.IsHeldBy depth members) (hdepth : depth ≤ maxNesting)
    (hrearranged : Rearranged (arrangement depth design.kind) members members') :
    design.IsHeldBy depth members' := by
  induction hrearranged with
  | permute hperm => exact h.perm hperm
  | insert hname hunknown hvalue => exact h.insert hname hunknown hvalue hdepth
  | leaveOut hname hvalue =>
    obtain ⟨rfl, hvalue⟩ := hvalue
    exact h.leaveOut hname hvalue
  | replace _ hvalue => exact hvalue.elim
  | trans _ _ ih ih' => exact ih' (ih h)

end Design

/-! ## Networks -/

namespace Network

variable {network : Network} {members members' : List Member} {member : Member} {name : String}

theorem IsHeldBy.perm (h : network.IsHeldBy members) (hperm : members.Perm members') :
    network.IsHeldBy members' where
  reads := h.reads.perm hperm
  routerMap := h.routerMap.perm hperm
  configPath := h.configPath.perm hperm

theorem IsHeldBy.insert (h : network.IsHeldBy members) (hname : HasName member name)
    (hunknown : record.isKnown name = false) (hvalue : member.2.IsClosed) :
    network.IsHeldBy (member :: members) where
  reads := h.reads.cons_unknown hname hunknown (skip_of_isClosed hvalue)
  routerMap := h.routerMap.cons member
  configPath := by
    refine h.configPath.cons fun hpath ↦ ?_
    rw [hname.unique hpath] at hunknown
    cases hunknown

theorem IsHeldBy.leaveOut (h : network.IsHeldBy (member :: members))
    (hname : HasName member "booksim_config") (hvalue : readPath member.2 = .ok defaultConfigPath) :
    network.IsHeldBy members where
  reads := h.reads.of_cons
  routerMap := h.routerMap.of_cons fun hmap ↦ absurd (hname.unique hmap) (by decide)
  configPath := by
    refine .inr ⟨h.reads.lacks_of_cons hname rfl, ?_⟩
    rcases h.configPath with hholds | ⟨_, hdefault⟩
    · have hread := h.reads.read_of_holds List.mem_cons_self hname rfl hholds
      exact Except.ok.inj (hread.symm.trans hvalue)
    · exact hdefault

theorem IsHeldBy.rearranged (h : network.IsHeldBy members)
    (hrearranged : Rearranged arrangement members members') : network.IsHeldBy members' := by
  induction hrearranged with
  | permute hperm => exact h.perm hperm
  | insert hname hunknown hvalue => exact h.insert hname hunknown hvalue
  | leaveOut hname hvalue =>
    obtain ⟨rfl, hvalue⟩ := hvalue
    exact h.leaveOut hname hvalue
  | replace _ hvalue => exact hvalue.elim
  | trans _ _ ih ih' => exact ih' (ih h)

end Network

/-! ## Documents -/

namespace Document

variable {document : Document} {members members' : List Member} {member : Member} {name : String}

theorem IsHeldBy.perm (h : document.IsHeldBy members) (hperm : members.Perm members') :
    document.IsHeldBy members' where
  reads := h.reads.perm hperm
  version := h.version.perm hperm
  design := h.design.perm hperm
  network := h.network.perm hperm

theorem IsHeldBy.insert (h : document.IsHeldBy members) (hname : HasName member name)
    (hunknown : record.isKnown name = false) (hvalue : member.2.IsClosed) :
    document.IsHeldBy (member :: members) where
  reads := h.reads.cons_unknown hname hunknown (skip_of_isClosed hvalue)
  version := h.version.cons member
  design := h.design.cons member
  network := h.network.cons member

theorem IsHeldBy.replace_design {key : Spelling} {inner inner' : List Member}
    (h : document.IsHeldBy ((key, .object inner .closed) :: members))
    (hname : HasName (key, .object inner .closed) "topology")
    (hinner : Rearranged (Design.arrangement 2 document.design.kind) inner inner') :
    document.IsHeldBy ((key, .object inner' .closed) :: members) := by
  have hheld : document.design.IsHeldBy 2 inner :=
    Design.ofMembers_eq_ok_iff.mp (h.reads.read_of_holds List.mem_cons_self hname rfl h.design)
  have hread : Design.ofValue 2 (.object inner' .closed) = .ok document.design :=
    Design.ofMembers_eq_ok_iff.mpr (hheld.rearranged (by decide) hinner)
  exact h.with_design hname hread

theorem IsHeldBy.replace_network {key : Spelling} {inner inner' : List Member}
    (h : document.IsHeldBy ((key, .object inner .closed) :: members))
    (hname : HasName (key, .object inner .closed) "network")
    (hinner : Rearranged Network.arrangement inner inner') :
    document.IsHeldBy ((key, .object inner' .closed) :: members) := by
  have hheld : document.network.IsHeldBy inner :=
    Network.ofMembers_eq_ok_iff.mp (h.reads.read_of_holds List.mem_cons_self hname rfl h.network)
  have hread : Network.ofValue (.object inner' .closed) = .ok document.network :=
    Network.ofMembers_eq_ok_iff.mpr (hheld.rearranged hinner)
  exact h.with_network hname hread

theorem IsHeldBy.rearranged (h : document.IsHeldBy members)
    (hrearranged : Rearranged (arrangement document.design.kind) members members') :
    document.IsHeldBy members' := by
  induction hrearranged with
  | permute hperm => exact h.perm hperm
  | insert hname hunknown hvalue => exact h.insert hname hunknown hvalue
  | leaveOut _ hvalue => exact hvalue.elim
  | replace hname hvalue =>
    cases hvalue with
    | design hinner => exact h.replace_design hname hinner
    | network hinner => exact h.replace_network hname hinner
  | trans _ _ ih ih' => exact ih' (ih h)

/-- A text of a document holds one value.  If this is an object, the document is read as well from
every text of every object that its members may be rearranged into, whichever blanks stand between
the tokens. -/
theorem read_eq_ok_of_rearranged {text : String} {document : Document}
    (h : read text = .ok document) :
    (∃ value, ∀ other, SpellsPadded other text.toList ↔ other = value) ∧
      ∀ members members' text', SpellsPadded (.object members .closed) text.toList →
        Rearranged (arrangement document.design.kind) members members' →
          SpellsPadded (.object members' .closed) text'.toList → read text' = .ok document := by
  obtain ⟨value, hspells, hvalue⟩ := read_eq_ok_iff.mp h
  refine ⟨⟨value, fun other ↦ ⟨(·.unique hspells), fun heq ↦ heq ▸ hspells⟩⟩, ?_⟩
  intro members members' text' hmembers hrearranged hmembers'
  have hobject : .object members .closed = value := hmembers.unique hspells
  rw [← hobject] at hvalue
  have hheld : document.IsHeldBy members := ofMembers_eq_ok_iff.mp hvalue
  have hread : ofValue (.object members' .closed) = .ok document :=
    ofMembers_eq_ok_iff.mpr (hheld.rearranged hrearranged)
  exact read_eq_ok_iff.mpr ⟨_, hmembers', hread⟩

/-- Two nodes in a row, each on a router of its own. -/
def pair : Document :=
  .current (.mesh 2 1 1) ⟨#[0, 1], "anynet", by decide⟩

/-- The members of the design of `pair` with the kind last, without the concentration, and with a
member that nobody asks for. -/
def pairDesignRearranged : List Member :=
  [(.ofString "color", .null), (.ofString "n", Design.countValue 1),
    (.ofString "k", Design.countValue 2), (.ofString "kind", .string (.ofString "mesh"))]

/-- The members of `pair` in another order, with the design laid out in another way and with a member
that nobody asks for. -/
def pairRearranged : List Member :=
  [(.ofString "network", pair.network.toValue), (.ofString "schema_version", .number (.ofNat 1)),
    (.ofString "topology", .object pairDesignRearranged .closed),
    (.ofString "author", .array [] .closed)]

theorem hasName_ofString (name : String) (value : Value) : HasName (.ofString name, value) name :=
  Spelling.text?_ofString name

theorem rearranged_pairDesign :
    Rearranged (Design.arrangement 2 .mesh)
      (pair.design.kindMember :: Design.parameterMembers pair.design.parameters)
      pairDesignRearranged := by
  refine .trans (.permute (List.reverse_perm _).symm) ?_
  refine .trans (.leaveOut (hasName_ofString "concentration" _) ⟨rfl, readCount_countValue 1⟩) ?_
  exact .insert (hasName_ofString "color" _) rfl .null

theorem rearranged_pair :
    Rearranged (arrangement .mesh)
      [(.ofString "schema_version", .number (.ofNat 1)), (.ofString "topology", pair.design.toValue),
        (.ofString "network", pair.network.toValue)] pairRearranged := by
  refine .trans (.permute (.swap _ _ _)) ?_
  refine .trans (.replace (hasName_ofString "topology" _) (.design rearranged_pairDesign)) ?_
  refine .trans (.insert (hasName_ofString "author" (.array [] .closed)) rfl rfl) ?_
  exact .permute (List.reverse_perm _).symm

theorem isWhole_pairRearranged : (Value.object pairRearranged .closed).IsWhole :=
  ⟨rfl, fun _ ↦ Spelling.isProper_of_mem_ofString, pair.network.isWhole_toValue,
    fun _ ↦ Spelling.isProper_of_mem_ofString, Json.Numeral.isProper_ofNat _,
    fun _ ↦ Spelling.isProper_of_mem_ofString,
    ⟨rfl, fun _ ↦ Spelling.isProper_of_mem_ofString, trivial,
      fun _ ↦ Spelling.isProper_of_mem_ofString, Json.Numeral.isProper_ofNat _,
      fun _ ↦ Spelling.isProper_of_mem_ofString, Json.Numeral.isProper_ofNat _,
      fun _ ↦ Spelling.isProper_of_mem_ofString, fun _ ↦ Spelling.isProper_of_mem_ofString,
      trivial⟩,
    fun _ ↦ Spelling.isProper_of_mem_ofString, ⟨rfl, trivial⟩, trivial⟩

theorem read_pairRearranged :
    read pair.toValue.compact = .ok pair ∧
      read (Value.object pairRearranged .closed).compact = .ok pair := by
  have hread := pair.read_compact
  refine ⟨hread, (read_eq_ok_of_rearranged hread).2 _ pairRearranged _ ?_ rearranged_pair ?_⟩
  · exact (Json.spells_compact pair.isWhole_toValue).padded
  · exact (Json.spells_compact isWhole_pairRearranged).padded

end Document

end Interconnect
