import Interconnect.Proofs.Document.Exchange

/-!
# Names that are repeated

A member of a known name may not return.  As soon as its key has been read a second time, the record
is rejected, whatever the value is worth (`Record.read_repeated`).  The design of a document is looked
through twice, first for its kind and then for its parameters, and the second time is enough to see a
parameter return.  So no document is read from a text that repeats a name which the document, its
design or its network knows, and the rejection says which name it is
(`Document.read_eq_error_of_repeated`).
-/

namespace Interconnect

open Document
open Interconnect.Topology (Kind)
open Json (HasToken Member Numeral Spelling SpellsMember SpellsPadded Value)

/-! ## Plain values -/

/-- A value with nothing in it that could break: an integer of 64 bits, a string with a text, a truth
value or null. -/
inductive Json.Value.IsPlain : Value → Prop
  | null : IsPlain .null
  | bool (b : Bool) : IsPlain (.bool b)
  | integer {numeral : Numeral} (h : numeral.IsIntegral) (hle : -2 ^ 63 ≤ numeral.toInt)
      (hlt : numeral.toInt < 2 ^ 64) : IsPlain (.number numeral)
  | string {spelling : Spelling} {text : String} (h : spelling.text? = some text) :
    IsPlain (.string spelling)

theorem Json.Value.IsPlain.isReadable {value : Value} (h : value.IsPlain) (levels : ℕ) :
    value.IsReadable levels := by
  cases h with
  | null => exact .null
  | bool b => exact .bool b
  | @integer numeral h hle hlt =>
    obtain ⟨hinteger, hne⟩ := h
    refine .number ?_
    cases hsign : numeral.negative with
    | false =>
      rw [Numeral.toInt_of_not_negative hsign] at hlt
      have hsize : numeral.magnitude < UInt64.size := by
        rw [UInt64.size]
        omega
      rw [Numeral.number?_of_not_negative hinteger hsign hsize]
      rfl
    | true =>
      rw [Numeral.toInt_of_negative hsign] at hle
      have hsize : numeral.magnitude ≤ Word.signedSize := by
        rw [Word.signedSize]
        omega
      rw [Numeral.number?_of_negative hinteger hsign (Nat.pos_of_ne_zero (hne hsign)) hsize]
      rfl
  | string h => exact .string (by rw [h]; rfl)

/-! ## Records -/

namespace Document.Record

variable {Fields : Type} {record : Record Fields} {fields next : Fields} {key : Spelling}
  {name : String} {before after : List Member} {rejection : Rejection}

theorem step_of_isSeen (hkey : key.text? = some name) (hseen : record.isSeen fields name = true)
    (value : Value) :
    record.step fields (key, value) = .error (.mismatch (.repeatedField name)) := by
  have hname : readText key = .ok name := readText_eq_ok_iff.mpr hkey
  simp only [step, acceptKey, hname, hseen, bind, Except.bind, if_true]
  rfl

/-- The members before the one that is rejected are taken in, and those behind it do not matter. -/
theorem read_of_step_eq_error {member : Member}
    (hbefore : before.foldlM record.step fields = .ok next)
    (hstep : record.step next member = .error rejection) :
    record.read fields (before ++ member :: after) .closed = .error rejection := by
  rw [read_closed, List.foldlM_append, hbefore]
  change (member :: after).foldlM record.step next = _
  rw [List.foldlM_cons, hstep]
  rfl

section

variable (hlaw : record.IsLawful)

include hlaw

theorem isSeen_foldlM (h : before.foldlM record.step fields = .ok next) :
    record.isSeen next name = true ↔
      record.isSeen fields name = true ∨
        record.isKnown name = true ∧ ∃ member ∈ before, HasName member name := by
  induction before generalizing fields with
  | nil =>
    cases h
    simp
  | cons member before ih =>
    rw [List.foldlM_cons] at h
    obtain ⟨mid, hstep, hrest⟩ := bind_eq_ok_iff.mp h
    rw [ih hrest, isSeen_step hlaw hstep, List.exists_mem_cons_iff, and_or_left, or_assoc]

/-- A member that repeats a known name is rejected, whatever its value. -/
theorem read_repeated {value : Value} {last : Fields}
    (h : record.read fields (before ++ after) .closed = .ok last)
    (hknown : record.isKnown name = true) (hpresent : ∃ member ∈ before, HasName member name)
    (hkey : key.text? = some name) :
    record.read fields (before ++ (key, value) :: after) .closed =
      .error (.mismatch (.repeatedField name)) := by
  rw [read_closed, List.foldlM_append] at h
  obtain ⟨next, hbefore, -⟩ := bind_eq_ok_iff.mp h
  have hseen : record.isSeen next name = true :=
    (isSeen_foldlM hlaw hbefore).mpr (.inr ⟨hknown, hpresent⟩)
  exact read_of_step_eq_error hbefore (step_of_isSeen hkey hseen value)

end

/-- A known value that is rejected makes the record be rejected, if it is in the stead of one that is
taken in. -/
theorem read_exchanged {part part' : Value} {last : Fields}
    (h : record.read fields (before ++ (key, part) :: after) .closed = .ok last)
    (hkey : key.text? = some name) (hknown : record.isKnown name = true)
    (hpart : ∀ fields, record.accept fields name part' = .error rejection) :
    record.read fields (before ++ (key, part') :: after) .closed = .error rejection := by
  rw [read_closed, List.foldlM_append] at h
  obtain ⟨next, hbefore, h⟩ := bind_eq_ok_iff.mp h
  rw [List.foldlM_cons] at h
  obtain ⟨mid, hstep, -⟩ := bind_eq_ok_iff.mp h
  have hname : HasName (key, part) name := hkey
  have hunseen := ((step_eq_ok_of_hasName hname).mp hstep).1
  have haccept : record.acceptKey next key = .ok name := acceptKey_eq_ok_iff.mpr ⟨hkey, hunseen⟩
  refine read_of_step_eq_error hbefore ?_
  rw [step, haccept]
  change (if record.isKnown name = true then record.accept next name part' else _) = _
  rw [if_pos hknown, hpart]

end Document.Record

/-! ## Designs -/

namespace Design

variable {depth : ℕ} {design : Design} {before after : List Member} {key : Spelling} {name : String}
  {value : Value}

theorem others_append_cons {member : Member} (hmember : ¬ HasName member "kind") :
    others (before ++ member :: after) = others before ++ member :: others after := by
  have hkept : (!isKindKey member) = true := by
    rw [Bool.not_eq_true', Bool.eq_false_iff, Ne, isKindKey_iff]
    exact hmember
  simp only [others, List.filter_append, List.filter_cons, hkept, if_true]

/-- The second pass stops at a parameter that returns. -/
theorem read_parameterRecord_repeated {kind : Kind}
    (h : (parameterRecord kind).Reads (before ++ after)) (hfield : name ∈ kind.fields)
    (hpresent : ∃ member ∈ before, HasName member name) (hkey : HasName (key, value) name) :
    (parameterRecord kind).read [] (others (before ++ (key, value) :: after)) .closed =
      .error (.mismatch (.repeatedField name)) := by
  have hknown : (parameterRecord kind).isKnown name = true := List.contains_iff_mem.mpr hfield
  have hne {member : Member} (hname : HasName member name) : ¬ HasName member "kind" := fun hkind ↦
    ne_kind_of_isKnown hknown (hname.unique hkind)
  obtain ⟨parameters, hparameters⟩ : ∃ parameters,
      (parameterRecord kind).read [] (others (before ++ after)) .closed = .ok parameters :=
    (Record.exists_read_eq_ok_iff isLawful_parameterRecord fun _ ↦ rfl).mpr (reads_others_iff.mpr h)
  rw [others, List.filter_append] at hparameters
  obtain ⟨member, hmember, hname⟩ := hpresent
  rw [others_append_cons (hne hkey)]
  exact Record.read_repeated isLawful_parameterRecord hparameters hknown
    ⟨member, mem_others.mpr ⟨hmember, hne hname⟩, hname⟩ hkey

/-- To the first pass, a parameter that returns is one of the members that are read in full. -/
theorem read_kindRecord_repeated (h : design.IsHeldBy depth (before ++ after))
    (hfield : name ∈ design.kind.fields) (hkey : HasName (key, value) name)
    (hvalue : readWhole (depth + 1) value = .ok ()) :
    (kindRecord depth).read none (before ++ (key, value) :: after) .closed =
      .ok (some design.kind) := by
  have hne : name ≠ "kind" := ne_kind_of_isKnown (List.contains_iff_mem.mpr hfield)
  have hreads : (kindRecord depth).Reads (before ++ (key, value) :: after) :=
    (h.reads.cons_unknown hkey (beq_eq_false_iff_ne.mpr hne) hvalue).perm List.perm_middle.symm
  have hkind : Holds (before ++ (key, value) :: after) "kind" readKind design.kind :=
    (h.kind.cons (key, value)).perm List.perm_middle.symm
  obtain ⟨kind?, hread⟩ : ∃ kind?,
      (kindRecord depth).read none (before ++ (key, value) :: after) .closed = .ok kind? :=
    (Record.exists_read_eq_ok_iff (isLawful_kindRecord depth) fun _ ↦ rfl).mpr hreads
  obtain rfl : kind? = some design.kind :=
    ((isField_kind depth).eq_some_iff hreads rfl hread).mpr hkind
  exact hread

theorem ofMembers_repeated (h : ofMembers depth (before ++ after) .closed = .ok design)
    (hknown : name ∈ "kind" :: design.kind.fields)
    (hpresent : ∃ member ∈ before, HasName member name) (hkey : HasName (key, value) name)
    (hvalue : readWhole (depth + 1) value = .ok ()) :
    ofMembers depth (before ++ (key, value) :: after) .closed =
      .error (.mismatch (.repeatedField name)) := by
  -- The first pass knows the kind alone, so it goes past a parameter that returns.
  rcases List.mem_cons.mp hknown with rfl | hfield
  · obtain ⟨kind?, hkind, -⟩ := bind_eq_ok_iff.mp h
    rw [ofMembers, Record.read_repeated (isLawful_kindRecord depth) hkind rfl hpresent hkey]
    rfl
  · have hheld := ofMembers_eq_ok_iff.mp h
    have hparameters : (parameterRecord design.kind).read []
        (others (before ++ (key, value) :: after)) .closed = .error _ :=
      read_parameterRecord_repeated hheld.reads_parameters hfield hpresent hkey
    rw [ofMembers, read_kindRecord_repeated hheld hfield hkey hvalue]
    change (parameterRecord design.kind).read [] (others _) .closed >>= _ = _
    rw [hparameters]
    rfl

end Design

/-! ## Networks -/

theorem Network.ofMembers_repeated {network : Network} {before after : List Member}
    {key : Spelling} {name : String} {value : Value}
    (h : ofMembers (before ++ after) .closed = .ok network)
    (hknown : record.isKnown name = true)
    (hpresent : ∃ member ∈ before, HasName member name) (hkey : HasName (key, value) name) :
    ofMembers (before ++ (key, value) :: after) .closed =
      .error (.mismatch (.repeatedField name)) := by
  obtain ⟨fields, hfields, -⟩ := bind_eq_ok_iff.mp h
  rw [ofMembers, Record.read_repeated isLawful_record hfields hknown hpresent hkey]
  rfl

/-! ## Documents -/

namespace Document

variable {document : Document} {around : Value → Value} {part part' : Value}
  {rejection : Rejection}

theorem ofMembers_repeated {before after : List Member} {key : Spelling} {name : String}
    {value : Value} (h : ofMembers (before ++ after) .closed = .ok document)
    (hknown : record.isKnown name = true)
    (hpresent : ∃ member ∈ before, HasName member name) (hkey : HasName (key, value) name) :
    ofMembers (before ++ (key, value) :: after) .closed =
      .error (.mismatch (.repeatedField name)) := by
  obtain ⟨fields, hfields, -⟩ := bind_eq_ok_iff.mp h
  rw [ofMembers, Record.read_repeated isLawful_record hfields hknown hpresent hkey]
  rfl

/-- A document is rejected for its design, if it is read with another one. -/
theorem ofValue_design_eq_error (haround : IsPlace "topology" 1 around)
    (h : ofValue (around part) = .ok document) (hpart : Design.ofValue 2 part' = .error rejection) :
    ofValue (around part') = .error rejection := by
  cases haround with
  | @member before after key hkey =>
    obtain ⟨fields, hfields, -⟩ := bind_eq_ok_iff.mp h
    have haccept (fields : Fields) :
        record.accept fields "topology" part' = .error rejection := by
      change Design.ofValue 2 part' >>= _ = _
      rw [hpart]
      rfl
    rw [ofValue, ofMembers, Record.read_exchanged hfields hkey rfl haccept]
    rfl
  | @item before after hindex =>
    obtain ⟨version, rfl⟩ := List.length_eq_one_iff.mp hindex
    obtain ⟨_, _, network, hitems, hversion, -⟩ := ofItems_eq_ok_iff.mp h
    cases hitems
    change readVersion version >>= _ = _
    rw [hversion]
    change Design.ofValue 2 part' >>= _ = _
    rw [hpart]
    rfl

theorem ofValue_network_eq_error (haround : IsPlace "network" 2 around)
    (h : ofValue (around part) = .ok document) (hpart : Network.ofValue part' = .error rejection) :
    ofValue (around part') = .error rejection := by
  cases haround with
  | @member before after key hkey =>
    obtain ⟨fields, hfields, -⟩ := bind_eq_ok_iff.mp h
    have haccept (fields : Fields) :
        record.accept fields "network" part' = .error rejection := by
      change Network.ofValue part' >>= _ = _
      rw [hpart]
      rfl
    rw [ofValue, ofMembers, Record.read_exchanged hfields hkey rfl haccept]
    rfl
  | @item before after hindex =>
    obtain ⟨version, design, rfl⟩ := List.length_eq_two.mp hindex
    obtain ⟨_, _, _, hitems, hversion, hdesign, -⟩ := ofItems_eq_ok_iff.mp h
    cases hitems
    change readVersion version >>= _ = _
    rw [hversion]
    change Design.ofValue 2 design >>= _ = _
    rw [hdesign]
    change Network.ofValue part' >>= _ = _
    rw [hpart]
    rfl

/-- The objects that a document may be made of. -/
inductive Level
  | document
  | design
  | network

namespace Level

/-- The names that the object knows in a document whose design is of the kind. -/
def names (kind : Kind) : Level → List String
  | .document => ["schema_version", "topology", "network"]
  | .design => "kind" :: kind.fields
  | .network => ["attached_router_id", "booksim_config"]

/-- What stands around the object in a document. -/
inductive IsAround : Level → (Value → Value) → Prop
  | document : IsAround .document id
  | design {around : Value → Value} (haround : IsPlace "topology" 1 around) :
    IsAround .design around
  | network {around : Value → Value} (haround : IsPlace "network" 2 around) :
    IsAround .network around

variable {level : Level}

theorem IsAround.hasToken {text : List Char} (h : level.IsAround around)
    (hspells : SpellsPadded (around part) text) :
    HasToken part (fun part ↦ SpellsPadded (around part)) text := by
  cases h with
  | document => exact hspells.hasToken
  | design haround => exact hspells.hasToken.descend around haround.hasToken
  | network haround => exact hspells.hasToken.descend around haround.hasToken

theorem IsAround.ofValue_repeated {before after : List Member} {key : Spelling} {name : String}
    {value : Value} (haround : level.IsAround around)
    (h : ofValue (around (.object (before ++ after) .closed)) = .ok document)
    (hknown : name ∈ level.names document.design.kind)
    (hpresent : ∃ member ∈ before, HasName member name) (hkey : HasName (key, value) name)
    (hvalue : level = .design → readWhole 3 value = .ok ()) :
    ofValue (around (.object (before ++ (key, value) :: after) .closed)) =
      .error (.mismatch (.repeatedField name)) := by
  cases haround with
  | document =>
    have hname : record.isKnown name = true := record_isKnown_iff.mpr (by simpa [names] using hknown)
    exact ofMembers_repeated h hname hpresent hkey
  | design haround =>
    have hdesign := (haround.standsAt _).design_eq_ok h
    exact ofValue_design_eq_error haround h
      (Design.ofMembers_repeated hdesign hknown hpresent hkey (hvalue rfl))
  | network haround =>
    have hname : Network.record.isKnown name = true :=
      Network.record_isKnown_iff.mpr (by simpa [names] using hknown)
    have hnetwork := (haround.standsAt _).network_eq_ok h
    exact ofValue_network_eq_error haround h
      (Network.ofMembers_repeated hnetwork hname hpresent hkey)

end Level

/-- In a text of a document, a member may be put in anywhere behind another one of the same object.
If the two have the same name, however it is spelled, and the object knows this name, then the new
text is rejected for the name, whatever is wrong with the value.  In a design the value has to be one
that can be read, as all plain values are. -/
theorem read_eq_error_of_repeated {text : String} {document : Document} {level : Level}
    {around : Value → Value} {before after : List Member} {key : Spelling} {name : String}
    {value : Value} (h : read text = .ok document) (haround : level.IsAround around)
    (hspells : SpellsPadded (around (.object (before ++ after) .closed)) text.toList)
    (hknown : name ∈ level.names document.design.kind)
    (hpresent : ∃ member ∈ before, HasName member name) (hkey : HasName (key, value) name)
    (hvalue : level = .design → value.IsReadable (maxNesting - 2)) :
    (∃ left right, text.toList = left ++ right ∧
      ∀ token, SpellsMember (key, value) token →
        SpellsPadded (around (.object (before ++ (key, value) :: after) .closed))
          (left ++ ',' :: (token ++ right))) ∧
    (∀ text' : String,
      SpellsPadded (around (.object (before ++ (key, value) :: after) .closed)) text'.toList →
        read text' = .error (.mismatch (.repeatedField name))) ∧
    (Mismatch.repeatedField name).message = "duplicate field `" ++ name ++ "`" := by
  have hread : ofValue (around (.object (before ++ after) .closed)) = .ok document :=
    (read_eq_ofValue hspells).symm.trans h
  have hwhole (hlevel : level = .design) : readWhole 3 value = .ok () :=
    readWhole_of_isReadable (hvalue hlevel) (by decide)
  have hrepeated := haround.ofValue_repeated hread hknown hpresent hkey hwhole
  refine ⟨?_, fun text' hspells' ↦ ?_, rfl⟩
  · have hbefore : before ≠ [] := by
      obtain ⟨member, hmember, -⟩ := hpresent
      exact List.ne_nil_of_mem hmember
    obtain ⟨left, right, heq, hgap⟩ := (haround.hasToken hspells).exists_gap hbefore
    exact ⟨left, right, heq, fun token ↦ hgap (key, value) token⟩
  · rw [read_eq_ofValue hspells', hrepeated]

/-- The nodes of `pair` on the first two switches of the smallest fat tree. -/
def smallTree : Document :=
  .current (.fatTree 2) pair.network

/-- `smallTree` as an array, with a value for its design. -/
def smallTreeAround (design : Value) : Value :=
  .array
    [smallTree.versionItem, design,
      .array [pair.network.routersValue, .string (.ofString pair.network.configPath)] .closed]
    .closed

theorem isAround_smallTreeAround : Level.IsAround .design smallTreeAround := by
  have haround : IsPlace "topology" 1 fun part ↦ .array ([smallTree.versionItem] ++ part ::
      [.array [pair.network.routersValue, .string (.ofString pair.network.configPath)] .closed])
      .closed := .item rfl
  exact .design haround

/-- The members of the design of `smallTree`. -/
def smallTreeMembers : List Member :=
  [smallTree.design.kindMember, (.ofString "k", Design.countValue 2)]

/-- A name may be spelled with an escape. -/
theorem spellsMember_escaped :
    SpellsMember (.ofString "k", .null) "\"\\u006b\":null".toList := by
  have hpiece : Json.Piece.Spells (.ofCode (((0 * 16 + 0) * 16 + 6) * 16 + 11))
      ['\\', 'u', '0', '0', '6', 'b'] := .code rfl rfl rfl rfl
  have hkey : Spelling.ofString "k" = [.ofCode (((0 * 16 + 0) * 16 + 6) * 16 + 11)] := by
    decide +kernel
  have htoken : "\"\\u006b\":null".toList =
      [] ++ '"' :: ((['\\', 'u', '0', '0', '6', 'b'] ++ []) ++ '"' ::
        ([] ++ ':' :: ['n', 'u', 'l', 'l'])) := by decide +kernel
  rw [hkey, htoken]
  exact .intro .nil (.cons hpiece .nil) .nil Json.Spells.null.padded

/-- A second arity is refused for its name, although the name is spelled with an escape, and although
no arity can be read from the value. -/
theorem read_eq_error_of_repeated_arity :
    read "[1,\x7b\"kind\":\"fat_tree\",\"k\":2\x7d,[[0,1],\"anynet\"]]" = .ok smallTree ∧
      ∃ left right, "[1,\x7b\"kind\":\"fat_tree\",\"k\":2\x7d,[[0,1],\"anynet\"]]".toList =
          left ++ right ∧
        read (.ofList (left ++ ',' :: ("\"\\u006b\":null".toList ++ right))) =
          .error (.mismatch (.repeatedField "k")) := by
  have hdesign : smallTree.design.WrittenAs (.object (smallTreeMembers ++ []) .closed) := .object
  have hwritten : smallTree.WrittenAs
      (smallTreeAround (.object (smallTreeMembers ++ []) .closed)) := .array hdesign .array
  have htext : (smallTreeAround (.object (smallTreeMembers ++ []) .closed)).compact =
      "[1,\x7b\"kind\":\"fat_tree\",\"k\":2\x7d,[[0,1],\"anynet\"]]" := by decide +kernel
  have hspells := (Json.spells_compact hwritten.isWhole).padded
  rw [htext] at hspells
  have hread : read _ = .ok smallTree := read_eq_ok_iff.mpr ⟨_, hspells, hwritten.ofValue_eq_ok⟩
  have hpresent : ∃ member ∈ smallTreeMembers, HasName member "k" :=
    ⟨_, .tail _ (.head _), hasName_ofString "k" (Design.countValue 2)⟩
  obtain ⟨⟨left, right, heq, hgap⟩, hrepeated, -⟩ := read_eq_error_of_repeated hread
    isAround_smallTreeAround hspells (by decide : "k" ∈ Level.names .fatTree .design) hpresent
    (hasName_ofString "k" .null) fun _ ↦ Json.Value.IsPlain.null.isReadable _
  refine ⟨hread, left, right, heq, hrepeated _ ?_⟩
  rw [String.toList_ofList]
  exact hgap _ spellsMember_escaped

end Document

end Interconnect
