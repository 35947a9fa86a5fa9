import Interconnect.Proofs.Document.Contents
import Interconnect.Proofs.Json.Truncation

/-!
# Documents that break off

Interpreting what remains of a written value goes well as far as it goes: nothing is wrong before
the place where the text ends (`IsPending`).  A record that takes in its members one after the other
therefore finds the break (`Record.Endures.read`), and so do a network, a design and a document.  No
part of a text of a document is accepted except the whole, and it is never blamed for anything but
its end (`Document.read_of_isPrefix`).
-/

namespace Interconnect

open Document
open Json (AreLegible Break Member MembersAreLegible Numeral Remains RemainsOfItems RemainsOfMembers
  Spelling Spells Value)

/-! ## Interpreting a part -/

namespace Document

/-- Nothing is wrong, unless the text ends too early. -/
def IsPending {α : Type} (result : Result α) : Prop :=
  ∀ e, result = .error e → e = .fault .truncated

namespace IsPending

variable {α β : Type}

theorem ok (a : α) : IsPending (.ok a) := fun _ h ↦ nomatch h

theorem of_eq_ok {x : Result α} {a : α} (h : x = .ok a) : IsPending x := h ▸ ok a

theorem truncated : IsPending (rejectFault .truncated : Result α) := by
  intro e h
  cases h
  rfl

theorem map {x : Result α} (h : IsPending x) (f : α → β) :
    IsPending (do return f (← x) : Result β) := by
  cases x with
  | ok a => exact ok (f a)
  | error e =>
    intro e' h'
    cases h'
    exact h e rfl

/-- What is pending is truncated when all that follows is. -/
theorem bind_eq {x : Result α} (h : IsPending x) {f : α → Result β}
    (hf : ∀ a, f a = rejectFault .truncated) : x >>= f = rejectFault .truncated := by
  cases x with
  | ok a => exact hf a
  | error e => exact congrArg Except.error (h e rfl)

theorem mapM {f : Value → Result α} {values : List Value}
    (h : ∀ value ∈ values, IsPending (f value)) : IsPending (values.mapM f) := by
  induction values with
  | nil => exact ok []
  | cons value values ih =>
    obtain ⟨hvalue, hvalues⟩ := List.forall_mem_cons.mp h
    rw [List.mapM_cons]
    cases hfirst : f value with
    | error e =>
      intro e' h'
      cases h'
      exact hvalue e hfirst
    | ok a => exact (ih hvalues).map (a :: ·)

end IsPending

/-! ## Scalars -/

/-- An integer leaves an integer of the same sign that is not larger. -/
theorem exists_of_remains_number {n : Numeral} {left : Value} (hn : n.IsProper)
    (hinteger : n.isInteger = true) (h : Remains (.number n) (some left)) :
    ∃ m : Numeral, left = .number m ∧ m.isInteger = true ∧ m.negative = n.negative ∧
      m.magnitude ≤ n.magnitude ∧ (0 < n.magnitude → 0 < m.magnitude) := by
  cases h with
  | whole => exact ⟨n, rfl, hinteger, rfl, Nat.le_refl _, id⟩
  | @number _ m text rest hm hspells =>
    obtain ⟨hminteger, hsign, hne, hwhole⟩ := hm.of_isPrefix hspells hinteger
    exact ⟨m, rfl, hminteger, hsign, hn.magnitude_of_isPrefix hne hwhole⟩

theorem exists_of_remains_ofNat {w : UInt64} {left : Value}
    (h : Remains (.number (.ofNat w.toNat)) (some left)) :
    ∃ (m : Numeral) (v : UInt64), left = .number m ∧ m.number? = some (.unsigned v) ∧ v ≤ w := by
  obtain ⟨m, rfl, hinteger, hsign, hle, _⟩ :=
    exists_of_remains_number (Numeral.isProper_ofNat _) rfl h
  rw [Numeral.magnitude_ofNat] at hle
  have hlt : m.magnitude < UInt64.size := Nat.lt_of_le_of_lt hle w.toNat_lt
  exact ⟨m, .ofNat m.magnitude, rfl, Numeral.number?_of_not_negative hinteger hsign hlt,
    (UInt64.ofNat_le_iff hlt).mpr hle⟩

theorem readWhole_of_remains_count {n : UInt64} {left : Value} (depth : ℕ)
    (h : Remains (Design.countValue n) (some left)) : readWhole depth left = .ok () := by
  obtain ⟨m, v, rfl, hnumber, _⟩ := exists_of_remains_ofNat h
  rw [readWhole, firstFault?, hnumber]
  rfl

theorem exists_readVersion_eq_ok {version : UInt32} {left : Value}
    (h : Remains (.number (.ofNat version.toNat)) (some left)) :
    ∃ v, readVersion left = .ok v := by
  rw [← UInt32.toNat_toUInt64] at h
  obtain ⟨m, v, rfl, hnumber, hle⟩ := exists_of_remains_ofNat h
  rw [UInt64.le_iff_toNat_le, UInt32.toNat_toUInt64] at hle
  have hlt : v.toNat < UInt32.size := Nat.lt_of_le_of_lt hle version.toNat_lt
  refine ⟨v.toUInt32, ?_⟩
  rw [readVersion, readNumber, hnumber]
  exact if_pos hlt

theorem exists_readRouterId_eq_ok {router : Int64} {left : Value}
    (h : Remains (Network.routerValue router) (some left)) : ∃ r, readRouterId left = .ok r := by
  rw [Network.routerValue] at h
  by_cases hneg : router.toInt < 0
  · obtain ⟨m, rfl, hinteger, hsign, hle, hpos⟩ :=
      exists_of_remains_number (Numeral.isProper_ofInt _) rfl h
    have hmagnitude : (Numeral.ofInt router.toInt).magnitude = router.toInt.natAbs :=
      Numeral.magnitude_ofNat _
    rw [hmagnitude] at hle hpos
    have hnegative : (Numeral.ofInt router.toInt).negative = true := decide_eq_true hneg
    have hnumber := Numeral.number?_of_negative hinteger (hsign.trans hnegative)
      (hpos (by omega)) (Nat.le_trans hle (Numeral.natAbs_toInt_le hneg))
    rw [readRouterId, readNumber, hnumber]
    exact ⟨_, rfl⟩
  · have hnonneg := Int.not_lt.mp hneg
    rw [Numeral.ofInt_toInt_of_nonneg hnonneg] at h
    obtain ⟨m, v, rfl, hnumber, hle⟩ := exists_of_remains_ofNat h
    have hlt : v.toNat < Word.signedSize :=
      Nat.lt_of_le_of_lt (UInt64.le_iff_toNat_le.mp hle)
        (Numeral.toNat_toUInt64_lt_signedSize hnonneg)
    refine ⟨v.toInt64, ?_⟩
    rw [readRouterId, readNumber, hnumber]
    exact if_pos hlt

theorem eq_string_of_remains {spelling : Spelling} {left : Value}
    (h : Remains (.string spelling) (some left)) : left = .string spelling := by
  cases h
  rfl

/-! ## Records -/

namespace Record

variable {Fields : Type} (record : Record Fields)

/-- The record takes in the members one after the other, and what remains of each is no reason to
reject it. -/
inductive Endures : Fields → List Member → Prop
  | nil (fields : Fields) : Endures fields []
  | cons {fields next : Fields} {name : String} {value : Value} {members : List Member}
      (hseen : record.isSeen fields name = false)
      (hbreak : record.isKnown name = true ∨ record.passFault = Break.read)
      (hpart : ∀ left, Remains value (some left) →
        IsPending (record.step fields (.ofString name, left)))
      (hnext : record.step fields (.ofString name, value) = .ok next)
      (hrest : Endures next members) : Endures fields ((.ofString name, value) :: members)

variable {record} {fields : Fields}

theorem Endures.cons_known {next : Fields} {name : String} {value : Value} {members : List Member}
    (hseen : record.isSeen fields name = false) (hknown : record.isKnown name = true)
    (hpart : ∀ left, Remains value (some left) → IsPending (record.accept fields name left))
    (hnext : record.accept fields name value = .ok next) (hrest : record.Endures next members) :
    record.Endures fields ((.ofString name, value) :: members) := by
  refine .cons hseen (.inl hknown) (fun left h ↦ ?_) ?_ hrest
  · rw [record.step_of_known left hseen hknown]
    exact hpart left h
  · rw [record.step_of_known value hseen hknown, hnext]

/-- A record finds the break and nothing else. -/
theorem Endures.read {members left : List Member} {key? : Option Spelling} {fault : Break}
    (h : record.Endures fields members) (hleft : RemainsOfMembers members left key?)
    (hfault : fault.read = .truncated) :
    record.read fields left (.cut key? fault) = rejectFault .truncated := by
  have hnone (fields : Fields) :
      record.finish fields (.cut none fault) = rejectFault .truncated := by
    rw [finish, hfault]
  induction h generalizing left with
  | nil fields =>
    cases hleft with
    | nothing => exact hnone fields
  | @cons fields next name value members hseen hbreak hpart hnext _ ih =>
    cases hleft with
    | nothing => exact hnone fields
    | key =>
      have hkey : record.finish fields (.cut (some (.ofString name)) fault) =
          rejectFault .truncated := by
        rw [finish, record.acceptKey_ofString hseen]
        change rejectFault (if record.isKnown name = true then fault.read else _) = _
        rcases hbreak with hknown | hpass
        · rw [if_pos hknown, hfault]
        · rw [hpass, ite_self, hfault]
      exact hkey
    | last hvalue =>
      change (List.foldlM record.step fields [_] >>= fun next ↦ record.finish next _) = _
      rw [List.foldlM_cons, bind_assoc]
      exact (hpart _ hvalue).bind_eq hnone
    | cons _ hrest =>
      rw [record.read_cons _ _ hnext]
      exact ih hrest

end Record

/-- What remains of an object is pending if the object is, and if it is truncated when it is cut. -/
theorem isPending_of_remains_object {α : Type} {ofValue : Value → Result α}
    {members : List Member} {left : Value} (h : Remains (.object members .closed) (some left))
    (hwhole : IsPending (ofValue (.object members .closed)))
    (hcut : ∀ left key? fault, RemainsOfMembers members left key? → fault.read = .truncated →
      ofValue (.object left (.cut key? fault)) = rejectFault .truncated) :
    IsPending (ofValue left) := by
  cases h with
  | whole => exact hwhole
  | object hleft hfault =>
    rw [hcut _ _ _ hleft hfault]
    exact .truncated

end Document

/-! ## Designs -/

namespace Design

theorem endures_parameterMembers (depth : ℕ) (kind : Topology.Kind)
    {parameters : List (String × UInt64)} (h : ∀ parameter ∈ parameters, parameter.1 ≠ "kind") :
    (kindRecord depth).Endures (some kind) (parameterMembers parameters) := by
  induction parameters with
  | nil => exact .nil (some kind)
  | cons parameter parameters ih =>
    obtain ⟨hname, hrest⟩ := List.forall_mem_cons.mp h
    have hbeq : (parameter.1 == "kind") = false := beq_eq_false_iff_ne.mpr hname
    have hstep {left : Value} (h : Remains (countValue parameter.2) (some left)) :
        (kindRecord depth).step (some kind) (.ofString parameter.1, left) = .ok (some kind) :=
      (kindRecord depth).step_of_unknown left hbeq hbeq (readWhole_of_remains_count (depth + 1) h)
    exact .cons hbeq (.inr rfl) (fun _ h ↦ .of_eq_ok (hstep h)) (hstep (.whole _)) (ih hrest)

theorem endures_kindRecord (depth : ℕ) (design : Design) :
    (kindRecord depth).Endures none
      (design.kindMember :: parameterMembers design.parameters) := by
  have haccept : (kindRecord depth).accept none "kind" design.kindMember.2 =
      .ok (some design.kind) :=
    map_eq_ok_iff.mpr ⟨design.kind, readKind_name design.kind, rfl⟩
  refine .cons_known rfl rfl (fun left h ↦ ?_) haccept
    (endures_parameterMembers depth design.kind fun _ ↦ name_ne_kind)
  rw [eq_string_of_remains h]
  exact .of_eq_ok haccept

theorem isPending_of_remains (depth : ℕ) {design : Design} {left : Value}
    (h : Remains design.toValue (some left)) : IsPending (ofValue depth left) := by
  refine isPending_of_remains_object h (.of_eq_ok (ofValue_toValue depth design)) ?_
  intro left key? fault hleft hfault
  rw [ofValue, ofMembers, (endures_kindRecord depth design).read hleft hfault]
  rfl

theorem areLegible_parameterMembers (parameters : List (String × UInt64)) :
    MembersAreLegible (parameterMembers parameters) := by
  induction parameters with
  | nil => trivial
  | cons parameter parameters ih => exact ⟨by simp, trivial, ih⟩

theorem isLegible_toValue (design : Design) : design.toValue.IsLegible :=
  ⟨by simp, by simp [Value.IsLegible], areLegible_parameterMembers design.parameters⟩

end Design

/-! ## Networks -/

namespace Network

theorem isPending_readRouters {network : Network} {left : Value}
    (h : Remains network.routersValue (some left)) : IsPending (readRouters left) := by
  rw [routersValue] at h
  cases h with
  | whole => exact .of_eq_ok network.readRouters_routersValue
  | @array _ left comma fault hleft hfault =>
    have hitems : IsPending (left.mapM readRouterId) := by
      refine .mapM fun item hitem ↦ ?_
      obtain ⟨value, hvalue, hremains⟩ := hleft.exists_mem hitem
      obtain ⟨router, _, rfl⟩ := List.mem_map.mp hvalue
      obtain ⟨r, hr⟩ := exists_readRouterId_eq_ok hremains
      exact .of_eq_ok hr
    have hcut : readRouters (.array left (.cut comma fault)) = rejectFault .truncated := by
      rw [readRouters]
      exact hitems.bind_eq fun _ ↦ congrArg rejectFault hfault
    rw [hcut]
    exact .truncated

theorem endures_record (network : Network) :
    record.Endures ⟨none, none⟩
      [(.ofString "attached_router_id", network.routersValue),
        (.ofString "booksim_config", .string (.ofString network.configPath))] := by
  have hrouters (left : Value) (h : Remains network.routersValue (some left)) :
      IsPending (record.accept ⟨none, none⟩ "attached_router_id" left) :=
    (isPending_readRouters h).map fun routerMap ↦ Fields.mk (some routerMap) none
  have hpath : record.accept ⟨some network.routerMap, none⟩ "booksim_config"
      (.string (.ofString network.configPath)) =
      .ok ⟨some network.routerMap, some network.configPath⟩ :=
    accept_configPath.mpr ⟨network.configPath, readText_ofString network.configPath, rfl⟩
  refine .cons_known rfl rfl hrouters
    (accept_routerMap.mpr ⟨network.routerMap, network.readRouters_routersValue, rfl⟩)
    (.cons_known rfl rfl (fun left h ↦ ?_) hpath (.nil _))
  rw [eq_string_of_remains h]
  exact .of_eq_ok hpath

theorem isPending_of_remains {network : Network} {left : Value}
    (h : Remains network.toValue (some left)) : IsPending (ofValue left) := by
  refine isPending_of_remains_object h (.of_eq_ok network.ofValue_toValue) ?_
  intro left key? fault hleft hfault
  rw [ofValue, ofMembers, network.endures_record.read hleft hfault]
  rfl

theorem areLegible_routerValue (routers : List Int64) :
    AreLegible (routers.map routerValue) := by
  induction routers with
  | nil => trivial
  | cons router routers ih => exact ⟨trivial, ih⟩

theorem isLegible_toValue (network : Network) : network.toValue.IsLegible :=
  ⟨by simp, areLegible_routerValue _, by simp, by simp [Value.IsLegible], trivial⟩

end Network

/-! ## Documents -/

namespace Document

/-- The members of a document in the order in which they are written. -/
def members (document : Document) : List Member :=
  [(.ofString "schema_version", .number (.ofNat document.version.toNat)),
    (.ofString "topology", document.design.toValue),
    (.ofString "network", document.network.toValue)]

theorem endures_record (document : Document) :
    record.Endures ⟨none, none, none⟩ document.members := by
  have hversion (left : Value)
      (h : Remains (.number (.ofNat document.version.toNat)) (some left)) :
      IsPending (record.accept ⟨none, none, none⟩ "schema_version" left) := by
    obtain ⟨version, hread⟩ := exists_readVersion_eq_ok h
    exact .of_eq_ok (accept_version.mpr ⟨version, hread, rfl⟩)
  have hdesign (left : Value) (h : Remains document.design.toValue (some left)) :
      IsPending (record.accept ⟨some document.version, none, none⟩ "topology" left) :=
    (Design.isPending_of_remains 2 h).map fun design ↦
      Fields.mk (some document.version) (some design) none
  have hnetwork (left : Value) (h : Remains document.network.toValue (some left)) :
      IsPending (record.accept ⟨some document.version, some document.design, none⟩ "network"
        left) :=
    (Network.isPending_of_remains h).map fun network ↦
      Fields.mk (some document.version) (some document.design) (some network)
  exact .cons_known rfl rfl hversion
    (accept_version.mpr ⟨document.version, readVersion_ofNat document.version, rfl⟩) <|
    .cons_known rfl rfl hdesign
      (accept_design.mpr ⟨document.design, Design.ofValue_toValue 2 document.design, rfl⟩) <|
    .cons_known rfl rfl hnetwork
      (accept_network.mpr ⟨document.network, document.network.ofValue_toValue, rfl⟩) (.nil _)

theorem membersAreLegible (document : Document) : MembersAreLegible document.members :=
  ⟨by simp, trivial, by simp, document.design.isLegible_toValue, by simp,
    document.network.isLegible_toValue, trivial⟩

/-- A text of a document that lacks its end is rejected because it ends too early. -/
theorem read_of_isPrefix {document : Document} {text pre : String}
    (h : Spells document.toValue text.toList) (hpre : pre.toList <+: text.toList)
    (hne : pre ≠ text) : read pre = rejectFault .truncated := by
  obtain ⟨fault, hfault, hscan | ⟨left, key?, hleft, hscan⟩⟩ :=
    Spells.scan_object h document.membersAreLegible hpre hne
  · rw [read, interpret, hscan, ← hfault]
  · have hcut : ofValue (.object left (.cut key? fault)) = rejectFault .truncated := by
      rw [ofValue, ofMembers, document.endures_record.read hleft hfault]
      rfl
    rw [read, interpret, hscan]
    change (do
      let a ← ofValue (.object left (.cut key? fault))
      _) = _
    rw [hcut]
    rfl

theorem load_eq_unusable {files : Files} {path text : String} {rejection : Rejection}
    (hfile : files.lookup path = .ok (.file text.toUTF8)) (hread : read text = .error rejection) :
    load files path = .error (.unusable path rejection) := by
  simp only [load, Files.readText_of_lookup hfile, hread]

/-- Whatever is missing at the end of a written document, its text is rejected for ending too early
and for nothing else, and a file with the text cannot be loaded. -/
theorem read_cut (document : Document) {pre rest : String} (hrest : rest ≠ "")
    (htext : pre ++ rest = document.toValue.compact ∨ pre ++ rest = document.toValue.indented) :
    read pre = .error (.fault .truncated) ∧
      ∀ (files : Files) (path : String), files.lookup path = .ok (.file pre.toUTF8) →
        load files path = .error (.unusable path (.fault .truncated)) := by
  have hspells : Spells document.toValue (pre ++ rest).toList := by
    rcases htext with htext | htext
    · exact htext ▸ Json.spells_compact document.isWhole_toValue
    · exact htext ▸ Json.spells_indented document.isWhole_toValue
  have hpre : pre.toList <+: (pre ++ rest).toList := by
    rw [String.toList_append]
    exact List.prefix_append _ _
  have hne : pre ≠ pre ++ rest := by
    intro heq
    have happend : pre ++ rest = pre ++ "" := by rw [String.append_empty, ← heq]
    exact hrest ((String.append_right_inj pre).mp happend)
  have hread : read pre = .error (.fault .truncated) := read_of_isPrefix hspells hpre hne
  exact ⟨hread, fun files path hfile ↦ load_eq_unusable hfile hread⟩

/-- A document that is cut inside the number of its only router. -/
theorem read_cut_routerNumber :
    let document : Document := .current .dumbbell ⟨#[12], "a", by decide⟩
    let pre := "\x7b\"schema_version\":1,\"topology\":\x7b\"kind\":\"dumbbell\"\x7d," ++
      "\"network\":\x7b\"attached_router_id\":[1"
    let rest := "2],\"booksim_config\":\"a\"\x7d\x7d"
    pre ++ rest = document.toValue.compact ∧ read pre = .error (.fault .truncated) := by
  intro document pre rest
  have htext : pre ++ rest = document.toValue.compact := by decide +kernel
  exact ⟨htext, (read_cut document (by decide) (.inl htext)).1⟩

end Document

end Interconnect
