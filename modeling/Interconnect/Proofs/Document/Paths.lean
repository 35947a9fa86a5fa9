import Interconnect.Proofs.Document.Contents

/-!
# The path of a network

The path of a network has a character that is no white space, however the network was come by, and
is otherwise kept as it was given.  A network is built from a map and such a path, and the object
that holds both is read as the same network, with its names and its path spelled in any of the ways
of JSON; from any other path nothing is built, and the object is rejected for the same reason
(`Network.path_rule`).
-/

namespace Interconnect

open Document
open Json (Member Piece Spelling SpellsPadded Value)

/-! ## White space -/

namespace Text

/-- The code points with the Unicode property White_Space. -/
def whiteSpaceCodes : List ℕ :=
  [0x9, 0xA, 0xB, 0xC, 0xD, 0x20, 0x85, 0xA0, 0x1680, 0x2000, 0x2001, 0x2002, 0x2003, 0x2004,
    0x2005, 0x2006, 0x2007, 0x2008, 0x2009, 0x200A, 0x2028, 0x2029, 0x202F, 0x205F, 0x3000]

/-- The text has a character that is no white space. -/
def IsVisible (text : String) : Prop :=
  ∃ c ∈ text.toList, c.toNat ∉ whiteSpaceCodes

theorem isWhiteSpace_iff {c : Char} : isWhiteSpace c = true ↔ c.toNat ∈ whiteSpaceCodes := by
  simp only [isWhiteSpace, whiteSpaceCodes, Bool.or_eq_true, Bool.and_eq_true, decide_eq_true_eq,
    beq_iff_eq, List.mem_cons, List.not_mem_nil, or_false]
  constructor <;> omega

theorem isVisible_iff {text : String} : IsVisible text ↔ isBlank text = false := by
  simp only [isBlank_eq_false_iff, IsVisible, ← isWhiteSpace_iff, Bool.not_eq_true]

theorem IsVisible.ne_empty {text : String} (h : IsVisible text) : text ≠ "" := by
  rintro rfl
  obtain ⟨c, hc, -⟩ := h
  exact List.not_mem_nil hc

end Text

/-! ## Networks in objects -/

namespace Network

/-- The members of an object hold the map and the path, and nothing else.  They stand in any order,
and their names and the path are spelled in any way. -/
inductive Presents (routerMap : Array Int64) (path : String) (members : List Member) : Prop
  | intro {mapKey pathKey spelling : Spelling}
      (hmapKey : mapKey.Denotes "attached_router_id".toList)
      (hpathKey : pathKey.Denotes "booksim_config".toList)
      (hpath : spelling.Denotes path.toList)
      (hmembers : members.Perm
        [(mapKey, .array (routerMap.toList.map routerValue) .closed),
          (pathKey, .string spelling)]) :
    Presents routerMap path members

section

variable {routerMap : Array Int64} {path text : String} {members : List Member}

theorem Presents.holds_routerMap (h : Presents routerMap path members) :
    Holds members "attached_router_id" readRouters routerMap := by
  obtain ⟨hmapKey, -, -, hmembers⟩ := h
  have hmember := hmembers.mem_iff.mpr List.mem_cons_self
  exact ⟨_, hmember, hmapKey.text?_eq, readRouters_array routerMap⟩

theorem Presents.holds_configPath (h : Presents routerMap path members) :
    Holds members "booksim_config" readPath path := by
  obtain ⟨-, hpathKey, hpath, hmembers⟩ := h
  have hmember := hmembers.mem_iff.mpr (List.mem_cons_of_mem _ List.mem_cons_self)
  exact ⟨_, hmember, hpathKey.text?_eq, readText_eq_ok_iff.mpr hpath.text?_eq⟩

theorem Presents.reads (h : Presents routerMap path members) : record.Reads members := by
  obtain ⟨hmapKey, hpathKey, hpath, hmembers⟩ := h
  refine Record.Reads.perm ⟨?_, ?_⟩ hmembers.symm
  · refine List.forall_mem_cons.mpr ⟨⟨_, hmapKey.text?_eq, ?_⟩,
      List.forall_mem_cons.mpr ⟨⟨_, hpathKey.text?_eq, ?_⟩, nofun⟩⟩
    · rw [if_pos isField_routerMap.isKnown]
      exact fun fields ↦ ⟨_, accept_routerMap.mpr ⟨_, readRouters_array routerMap, rfl⟩⟩
    · rw [if_pos isField_configPath.isKnown]
      exact fun fields ↦
        ⟨_, accept_configPath.mpr ⟨_, readText_eq_ok_iff.mpr hpath.text?_eq, rfl⟩⟩
  · refine List.pairwise_pair.mpr ?_
    rintro ⟨name, -, hmap, hpath⟩
    obtain rfl : name = "attached_router_id" := hmap.unique hmapKey.text?_eq
    have heq : "attached_router_id" = "booksim_config" := hpath.unique hpathKey.text?_eq
    exact absurd heq (by decide)

theorem Presents.read_eq_ofFields (h : Presents routerMap path members)
    (hspells : SpellsPadded (.object members .closed) text.toList) :
    read text = ofFields routerMap (some path) := by
  rw [read, interpret_of_spellsPadded ofValue hspells]
  exact ofMembers_eq_ofFields h.reads h.holds_routerMap (.inl h.holds_configPath)

theorem Presents.read_eq_ok_iff (h : Presents routerMap path members)
    (hspells : SpellsPadded (.object members .closed) text.toList) {network : Network} :
    read text = .ok network ↔ build routerMap path = .ok network := by
  rw [h.read_eq_ofFields hspells, ofFields_eq_ok_iff, build_eq_ok_iff, Option.getD_some]

theorem Presents.read_eq_error (h : Presents routerMap path members)
    (hspells : SpellsPadded (.object members .closed) text.toList) {e : Error}
    (hbuild : build routerMap path = .error e) :
    read text = .error (.mismatch (.network e)) := by
  rw [h.read_eq_ofFields hspells, ofFields, Option.getD_some, hbuild]
  rfl

end

/-! ## Where networks come from -/

/-- A network is built, read by itself, or part of a document that is read or loaded. -/
inductive Arises : Network → Prop
  | build {routerMap : Array Int64} {path : String} {network : Network}
      (h : build routerMap path = .ok network) : Arises network
  | withDefaultConfig (routerMap : Array Int64) : Arises (withDefaultConfig routerMap)
  | read {text : String} {network : Network} (h : read text = .ok network) : Arises network
  | readDocument {text : String} {document : Document} (h : Document.read text = .ok document) :
    Arises document.network
  | load {files : Files} {path : String} {document : Document}
      (h : Document.load files path = .ok document) : Arises document.network

theorem exists_build_eq_ok_iff {routerMap : Array Int64} {path : String} :
    (∃ network, build routerMap path = .ok network) ↔ Text.IsVisible path := by
  rw [Text.isVisible_iff]
  constructor
  · intro h
    obtain ⟨network, h⟩ := h
    rw [← (build_eq_ok_iff.mp h).2]
    exact network.path_visible
  · intro h
    exact ⟨⟨routerMap, path, h⟩, build_eq_ok_iff.mpr ⟨rfl, rfl⟩⟩

/-- A network is built from any map and any path that has a character other than white space, and
has them as they were given.  The object that holds the two is read, in each of its texts, as the
network that is built from them, and rejected with the message of the error if none is.  So no
network, wherever it comes from, has a path that is empty or all white space. -/
theorem path_rule :
    (∀ (routerMap : Array Int64) (path : String),
      ((∃ network, build routerMap path = .ok network) ↔ Text.IsVisible path) ∧
      (∀ network, build routerMap path = .ok network →
        network.routerMap = routerMap ∧ network.configPath = path) ∧
      ∀ (members : List Member) (text : String), Presents routerMap path members →
        SpellsPadded (.object members .closed) text.toList →
          (∀ network, read text = .ok network ↔ build routerMap path = .ok network) ∧
          ∀ e, build routerMap path = .error e → ∃ mismatch,
            read text = .error (.mismatch mismatch) ∧ mismatch.message = e.message) ∧
    ∀ network : Network, network.Arises →
      build network.routerMap network.configPath = .ok network ∧
        network.configPath ≠ "" ∧ Text.IsVisible network.configPath := by
  refine ⟨fun routerMap path ↦ ⟨exists_build_eq_ok_iff, fun _ ↦ build_eq_ok_iff.mp, ?_⟩, ?_⟩
  · intro members text h hspells
    exact ⟨fun _ ↦ h.read_eq_ok_iff hspells,
      fun e hbuild ↦ ⟨.network e, h.read_eq_error hspells hbuild, rfl⟩⟩
  · intro network _
    have hvisible := Text.isVisible_iff.mpr network.path_visible
    exact ⟨build_eq_ok_iff.mpr ⟨rfl, rfl⟩, hvisible.ne_empty, hvisible⟩

/-- An object with the map of two routers behind a path that is spelled in some way. -/
def pathFirst (spelling : Spelling) : List Member :=
  [(.ofString "booksim_config", .string spelling),
    (.ofString "attached_router_id", .array [routerValue 0, routerValue 1] .closed)]

theorem presents_pathFirst {path : String} {spelling : Spelling}
    (h : spelling.Denotes path.toList) : Presents #[0, 1] path (pathFirst spelling) :=
  .intro (Spelling.denotes_ofString _) (Spelling.denotes_ofString _) h (.swap ..)

theorem isWhole_pathFirst {spelling : Spelling} (h : ∀ piece ∈ spelling, piece.IsProper) :
    (Value.object (pathFirst spelling) .closed).IsWhole :=
  ⟨rfl, fun _ ↦ Spelling.isProper_of_mem_ofString, h, fun _ ↦ Spelling.isProper_of_mem_ofString,
    ⟨rfl, isWhole_routerValue 0, isWhole_routerValue 1, trivial⟩, trivial⟩

/-- A path may be spelled as a surrogate pair, and one that consists of an ideographic space is
rejected. -/
theorem read_pathFirst :
    (Value.object (pathFirst [.high 0x3D, .low 0x200]) .closed).compact =
        "\x7b\"booksim_config\":\"\\ud83d\\ude00\",\"attached_router_id\":[0,1]\x7d" ∧
      (∃ network,
        read (Value.object (pathFirst [.high 0x3D, .low 0x200]) .closed).compact = .ok network ∧
          network.routerMap = #[0, 1] ∧ network.configPath = "😀") ∧
      ∃ mismatch,
        read (Value.object (pathFirst (.ofString "\u3000")) .closed).compact =
            .error (.mismatch mismatch) ∧
          mismatch.message = "invalid network config: booksim config path must not be empty" := by
  have hpair : Spelling.Denotes [.high 0x3D, .low 0x200] "😀".toList := .pair (by decide) .nil
  have hproper : ∀ piece ∈ [Piece.high 0x3D, .low 0x200], piece.IsProper := by simp [Piece.IsProper]
  refine ⟨by decide +kernel, ?_, ?_⟩
  · obtain ⟨hbuild, hkept, hread⟩ := path_rule.1 #[0, 1] "😀"
    obtain ⟨network, hnetwork⟩ := hbuild.mpr ⟨'😀', by decide, by decide⟩
    obtain ⟨hok, -⟩ := hread _ _ (presents_pathFirst hpair)
      (Json.spells_compact (isWhole_pathFirst hproper)).padded
    exact ⟨network, (hok network).mpr hnetwork, hkept network hnetwork⟩
  · obtain ⟨-, -, hread⟩ := path_rule.1 #[0, 1] "\u3000"
    obtain ⟨-, herror⟩ := hread _ _ (presents_pathFirst (Spelling.denotes_ofString _))
      (Json.spells_compact (isWhole_pathFirst fun _ ↦ Spelling.isProper_of_mem_ofString)).padded
    have hblank : build #[0, 1] "\u3000" = .error .blankPath :=
      build_eq_error_iff.mpr ⟨by decide, rfl⟩
    exact herror .blankPath hblank

end Network

end Interconnect
