import Interconnect.Proofs.Document.Scalars

/-!
# Designs that are written are read back

A record takes in its members one by one, which `Record.read_cons` follows.  A design is read in two
such passes: the first looks for the kind and reads everything else in full, the second takes in the
parameters of the kind.  What `Design.toValue` writes leads both passes back to the design
(`Design.ofValue_toValue`).
-/

namespace Interconnect

open Document
open Json (Member Spelling Value)

/-! ## Records -/

namespace Document.Record

variable {Fields : Type} (record : Record Fields) {fields : Fields} {name : String}

theorem acceptKey_ofString (hseen : record.isSeen fields name = false) :
    record.acceptKey fields (.ofString name) = .ok name := by
  rw [acceptKey, readText_ofString]
  change (if record.isSeen fields name = true then _ else _) = _
  rw [hseen, if_neg Bool.false_ne_true]
  rfl

theorem step_of_known (value : Value) (hseen : record.isSeen fields name = false)
    (hknown : record.isKnown name = true) :
    record.step fields (.ofString name, value) = record.accept fields name value := by
  rw [step, record.acceptKey_ofString hseen]
  exact if_pos hknown

theorem step_of_unknown (value : Value) (hseen : record.isSeen fields name = false)
    (hknown : record.isKnown name = false) (hpass : record.pass value = .ok ()) :
    record.step fields (.ofString name, value) = .ok fields := by
  rw [step, record.acceptKey_ofString hseen]
  change (if record.isKnown name = true then _ else _) = _
  rw [hknown, if_neg Bool.false_ne_true, hpass]
  rfl

@[simp]
theorem read_nil (fields : Fields) : record.read fields [] .closed = .ok fields :=
  rfl

theorem read_cons {next : Fields} {member : Member} (members : List Member)
    (ending : Json.Ending Json.ObjectRest) (h : record.step fields member = .ok next) :
    record.read fields (member :: members) ending = record.read next members ending := by
  rw [read, List.foldlM_cons, h]
  rfl

end Document.Record

/-! ## Designs -/

namespace Topology.Kind

theorem nodup_fields (kind : Kind) : kind.fields.Nodup := by
  cases kind <;> decide

theorem kind_notMem_fields (kind : Kind) : "kind" ∉ kind.fields := by
  cases kind <;> decide

end Topology.Kind

namespace Design

theorem map_fst_parameters (design : Design) :
    design.parameters.map (·.1) = design.kind.fields := by
  cases design <;> rfl

theorem ofParameters_parameters (design : Design) :
    ofParameters design.kind design.parameters = .ok design := by
  cases design <;> rfl

/-- The members that hold parameters. -/
def parameterMembers (parameters : List (String × UInt64)) : List Member :=
  parameters.map fun (name, n) ↦ (Spelling.ofString name, countValue n)

theorem name_ne_kind {design : Design} {parameter : String × UInt64}
    (h : parameter ∈ design.parameters) : parameter.1 ≠ "kind" := by
  intro heq
  apply design.kind.kind_notMem_fields
  rw [← map_fst_parameters, ← heq]
  exact List.mem_map_of_mem h

theorem readKind_name (kind : Topology.Kind) :
    readKind (.string (.ofString kind.name)) = .ok kind := by
  simp only [readKind, readText_ofString, bind, Except.bind, Topology.Kind.ofName?_name]
  rfl

theorem readWhole_countValue (depth : ℕ) (n : UInt64) :
    readWhole depth (countValue n) = .ok () := by
  rw [readWhole, countValue, firstFault?, Json.Numeral.number?_ofNat]
  rfl

/-- Parameters do not disturb the search for the kind. -/
theorem read_kindRecord_parameterMembers (depth : ℕ) (kind : Topology.Kind)
    {parameters : List (String × UInt64)} (h : ∀ parameter ∈ parameters, parameter.1 ≠ "kind") :
    (kindRecord depth).read (some kind) (parameterMembers parameters) .closed =
      .ok (some kind) := by
  induction parameters with
  | nil => rfl
  | cons parameter parameters ih =>
    obtain ⟨hname, hrest⟩ := List.forall_mem_cons.mp h
    have hbeq : (parameter.1 == "kind") = false := beq_eq_false_iff_ne.mpr hname
    have hseen : (kindRecord depth).isSeen (some kind) parameter.1 = false := hbeq
    have hstep := (kindRecord depth).step_of_unknown (countValue parameter.2) hseen hbeq
      (readWhole_countValue (depth + 1) parameter.2)
    rw [parameterMembers, List.map_cons, Record.read_cons _ _ _ hstep]
    exact ih hrest

/-- Parameters with names of their own are all taken in. -/
theorem read_parameterRecord_append (kind : Topology.Kind)
    (seen parameters : List (String × UInt64))
    (hknown : ∀ parameter ∈ parameters, parameter.1 ∈ kind.fields)
    (hnodup : ((seen ++ parameters).map (·.1)).Nodup) :
    (parameterRecord kind).read seen (parameterMembers parameters) .closed =
      .ok (seen ++ parameters) := by
  induction parameters generalizing seen with
  | nil =>
    rw [List.append_nil]
    rfl
  | cons parameter parameters ih =>
    obtain ⟨name, n⟩ := parameter
    obtain ⟨hname, hrest⟩ := List.forall_mem_cons.mp hknown
    have hfresh : ∀ earlier ∈ seen, earlier.1 ≠ name := by
      intro earlier hearlier heq
      rw [List.map_append, List.nodup_append] at hnodup
      exact hnodup.2.2 _ (List.mem_map_of_mem hearlier) _ List.mem_cons_self heq
    have hseen : (parameterRecord kind).isSeen seen name = false :=
      List.any_eq_false.mpr fun earlier hearlier ↦ by simpa using hfresh earlier hearlier
    have hcons : seen ++ (name, n) :: parameters = seen ++ [(name, n)] ++ parameters := by
      rw [List.append_assoc]
      rfl
    have haccept : (parameterRecord kind).accept seen name (countValue n) =
        .ok (seen ++ [(name, n)]) := by
      change (do return seen ++ [(name, ← readCount (countValue n))] : Result _) = _
      rw [readCount_countValue]
      rfl
    have hstep : (parameterRecord kind).step seen (.ofString name, countValue n) =
        .ok (seen ++ [(name, n)]) := by
      rw [(parameterRecord kind).step_of_known _ hseen (List.contains_iff_mem.mpr hname), haccept]
    rw [parameterMembers, List.map_cons, Record.read_cons _ _ _ hstep, hcons]
    exact ih (seen ++ [(name, n)]) hrest (hcons ▸ hnodup)

/-- The member that holds the kind. -/
def kindMember (design : Design) : Member :=
  (.ofString "kind", .string (.ofString design.kind.name))

theorem toValue_eq (design : Design) :
    design.toValue = .object (design.kindMember :: parameterMembers design.parameters) .closed :=
  rfl

theorem filter_not_isKindKey (design : Design) :
    (design.kindMember :: parameterMembers design.parameters).filter (!isKindKey ·) =
      parameterMembers design.parameters := by
  have hkind : isKindKey design.kindMember = true := by
    rw [kindMember, isKindKey, Spelling.text?_ofString]
    rfl
  rw [List.filter_cons_of_neg (by rw [hkind]; exact Bool.false_ne_true), List.filter_eq_self]
  intro member hmember
  obtain ⟨parameter, hparameter, rfl⟩ := List.mem_map.mp hmember
  change (!((Spelling.ofString parameter.1).text? == some "kind")) = true
  have hname := name_ne_kind hparameter
  simp [hname]

theorem read_kindRecord (depth : ℕ) (design : Design) :
    (kindRecord depth).read none (design.kindMember :: parameterMembers design.parameters) .closed =
      .ok (some design.kind) := by
  have haccept : (kindRecord depth).accept none "kind" design.kindMember.2 =
      .ok (some design.kind) := by
    change (do return some (← readKind design.kindMember.2) : Result _) = _
    rw [kindMember, readKind_name]
    rfl
  have hstep : (kindRecord depth).step none design.kindMember = .ok (some design.kind) := by
    rw [← haccept]
    exact (kindRecord depth).step_of_known _ rfl rfl
  rw [Record.read_cons _ _ _ hstep]
  exact read_kindRecord_parameterMembers depth design.kind fun _ ↦ name_ne_kind

theorem read_parameterRecord (design : Design) :
    (parameterRecord design.kind).read [] (parameterMembers design.parameters) .closed =
      .ok design.parameters := by
  refine read_parameterRecord_append design.kind [] design.parameters ?_ ?_
  · intro parameter hparameter
    rw [← map_fst_parameters]
    exact List.mem_map_of_mem hparameter
  · rw [List.nil_append, map_fst_parameters]
    exact design.kind.nodup_fields

theorem ofValue_toValue (depth : ℕ) (design : Design) :
    ofValue depth design.toValue = .ok design := by
  rw [toValue_eq, ofValue, ofMembers, read_kindRecord]
  change (do
    ofParameters design.kind (← (parameterRecord design.kind).read []
      (List.filter (!isKindKey ·) (design.kindMember :: parameterMembers design.parameters))
      .closed)) = _
  rw [filter_not_isKindKey, read_parameterRecord]
  exact ofParameters_parameters design

theorem membersAreWhole_parameterMembers (parameters : List (String × UInt64)) :
    Json.MembersAreWhole (parameterMembers parameters) := by
  induction parameters with
  | nil => trivial
  | cons parameter parameters ih =>
    exact ⟨fun _ ↦ Spelling.isProper_of_mem_ofString, Json.Numeral.isProper_ofNat _, ih⟩

theorem isWhole_toValue (design : Design) : design.toValue.IsWhole :=
  ⟨rfl, fun _ ↦ Spelling.isProper_of_mem_ofString, fun _ ↦ Spelling.isProper_of_mem_ofString,
    membersAreWhole_parameterMembers design.parameters⟩

end Design

end Interconnect
