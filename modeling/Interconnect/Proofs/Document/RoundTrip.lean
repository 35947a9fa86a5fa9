import Interconnect.Document.Load
import Interconnect.Proofs.Document.Designs
import Interconnect.Proofs.Json.Reading

/-!
# Documents that are written are read back

Writing a document as a JSON value and interpreting the value gives the document back, whatever its
design and its network are (`Document.ofValue_toValue`).  The value is written as one of its texts
and each of its texts is read as the value, so that the same holds of text: in either layout, with
blanks around it, and in a file (`Document.load_of_lookup`).
-/

namespace Interconnect

open Document
open Json (IsBlank Spelling SpellsPadded Value)

/-! ## Networks -/

namespace Network

/-- The value of the router map. -/
def routersValue (network : Network) : Value :=
  .array (network.routerMap.toList.map routerValue) .closed

theorem readRouters_array (routerMap : Array Int64) :
    readRouters (.array (routerMap.toList.map routerValue) .closed) = .ok routerMap := by
  rw [readRouters, mapM_read_write readRouterId_routerValue]
  change (.ok routerMap.toList.toArray : Result _) = _
  rw [Array.toArray_toList]

theorem readRouters_routersValue (network : Network) :
    readRouters network.routersValue = .ok network.routerMap :=
  readRouters_array network.routerMap

theorem ofFields_self (network : Network) :
    ofFields network.routerMap (some network.configPath) = .ok network := by
  have hbuild : build network.routerMap network.configPath = .ok network :=
    build_eq_ok_iff.mpr ⟨rfl, rfl⟩
  simp only [ofFields, Option.getD_some, hbuild]

theorem ofValue_toValue (network : Network) : ofValue network.toValue = .ok network := by
  have hrouters : record.step ⟨none, none⟩ (.ofString "attached_router_id", network.routersValue) =
      .ok ⟨some network.routerMap, none⟩ := by
    rw [record.step_of_known _ rfl rfl]
    change (do return ⟨some (← readRouters network.routersValue), none⟩ : Result Fields) = _
    rw [readRouters_routersValue]
    rfl
  have hpath : record.step ⟨some network.routerMap, none⟩
      (.ofString "booksim_config", .string (.ofString network.configPath)) =
      .ok ⟨some network.routerMap, some network.configPath⟩ := by
    rw [record.step_of_known _ rfl rfl]
    change (do return ⟨some network.routerMap, some (← readText (.ofString network.configPath))⟩ :
      Result Fields) = _
    rw [readText_ofString]
    rfl
  rw [toValue, ofValue, ofMembers]
  change (do
    let fields ← record.read ⟨none, none⟩
      [(.ofString "attached_router_id", network.routersValue),
        (.ofString "booksim_config", .string (.ofString network.configPath))] .closed
    _) = _
  rw [record.read_cons _ _ hrouters, record.read_cons _ _ hpath, Record.read_nil]
  exact network.ofFields_self

theorem isWhole_routerValue (router : Int64) : (routerValue router).IsWhole :=
  Json.Numeral.isProper_ofInt router.toInt

theorem isWhole_routersValue (network : Network) : network.routersValue.IsWhole :=
  ⟨rfl, areWhole_map isWhole_routerValue network.routerMap.toList⟩

theorem isWhole_toValue (network : Network) : network.toValue.IsWhole :=
  ⟨rfl, fun _ ↦ Spelling.isProper_of_mem_ofString, network.isWhole_routersValue,
    fun _ ↦ Spelling.isProper_of_mem_ofString, fun _ ↦ Spelling.isProper_of_mem_ofString, trivial⟩

end Network

/-! ## Documents -/

namespace Document

/-- A document is read from the members of its object, in whichever way the design and the network
are written. -/
theorem ofMembers_written {document : Document} {design network : Value}
    (hdesign : Design.ofValue 2 design = .ok document.design)
    (hnetwork : Network.ofValue network = .ok document.network) :
    ofMembers
      [(.ofString "schema_version", .number (.ofNat document.version.toNat)),
        (.ofString "topology", design), (.ofString "network", network)]
      .closed = .ok document := by
  have hversion : record.step ⟨none, none, none⟩
      (.ofString "schema_version", .number (.ofNat document.version.toNat)) =
      .ok ⟨some document.version, none, none⟩ := by
    rw [record.step_of_known _ rfl rfl]
    change (do
      return ⟨some (← readVersion (.number (.ofNat document.version.toNat))), none, none⟩ :
      Result Fields) = _
    rw [readVersion_ofNat]
    rfl
  have hdesign : record.step ⟨some document.version, none, none⟩ (.ofString "topology", design) =
      .ok ⟨some document.version, some document.design, none⟩ := by
    rw [record.step_of_known _ rfl rfl]
    change (do
      return ⟨some document.version, some (← Design.ofValue 2 design), none⟩ :
      Result Fields) = _
    rw [hdesign]
    rfl
  have hnetwork : record.step ⟨some document.version, some document.design, none⟩
      (.ofString "network", network) =
      .ok ⟨some document.version, some document.design, some document.network⟩ := by
    rw [record.step_of_known _ rfl rfl]
    change (do
      return ⟨some document.version, some document.design,
        some (← Network.ofValue network)⟩ : Result Fields) = _
    rw [hnetwork]
    rfl
  rw [ofMembers, record.read_cons _ _ hversion, record.read_cons _ _ hdesign,
    record.read_cons _ _ hnetwork, Record.read_nil]
  rfl

theorem ofValue_toValue (document : Document) : ofValue document.toValue = .ok document :=
  ofMembers_written (Design.ofValue_toValue 2 document.design) document.network.ofValue_toValue

theorem isWhole_toValue (document : Document) : document.toValue.IsWhole :=
  ⟨rfl, fun _ ↦ Spelling.isProper_of_mem_ofString, Json.Numeral.isProper_ofNat _,
    fun _ ↦ Spelling.isProper_of_mem_ofString, document.design.isWhole_toValue,
    fun _ ↦ Spelling.isProper_of_mem_ofString, document.network.isWhole_toValue, trivial⟩

/-- A text of a value, with blanks around it, is interpreted like the value. -/
theorem interpret_of_spellsPadded {α : Type} (ofValue : Value → Result α) {value : Value}
    {text : String} (h : SpellsPadded value text.toList) :
    interpret ofValue text = ofValue value := by
  rw [interpret, Json.scan_of_spellsPadded h]
  change ofValue value >>= pure = _
  rw [bind_pure]

theorem read_eq_ofValue {value : Value} {text : String} (h : SpellsPadded value text.toList) :
    read text = ofValue value :=
  interpret_of_spellsPadded ofValue h

/-- Any text of a document is read as the document, with blanks around it or without. -/
theorem read_of_spellsPadded {document : Document} {text : String}
    (h : SpellsPadded document.toValue text.toList) : read text = .ok document := by
  rw [read_eq_ofValue h, ofValue_toValue]

/-- A value without breaks is interpreted alike by itself and in its compact text. -/
theorem interpret_compact {α : Type} (ofValue : Value → Result α) {value : Value}
    (h : value.IsWhole) : interpret ofValue value.compact = ofValue value :=
  interpret_of_spellsPadded ofValue (Json.spells_compact h).padded

theorem read_compact (document : Document) : read document.toValue.compact = .ok document := by
  rw [read, interpret_compact ofValue document.isWhole_toValue, ofValue_toValue]

theorem read_indented_append (document : Document) {after : String} (h : IsBlank after.toList) :
    read (document.toValue.indented ++ after) = .ok document := by
  have hpadded : SpellsPadded document.toValue
      ([] ++ (document.toValue.indented.toList ++ after.toList)) :=
    .intro .nil (Json.spells_indented document.isWhole_toValue) h
  rw [List.nil_append, ← String.toList_append] at hpadded
  exact read_of_spellsPadded hpadded

theorem read_indented (document : Document) : read document.toValue.indented = .ok document := by
  have hempty : IsBlank "".toList := .nil
  have happend := document.read_indented_append hempty
  rwa [String.append_empty] at happend

end Document

theorem Design.read_compact (design : Design) : read design.toValue.compact = .ok design := by
  rw [read, interpret_compact (ofValue 1) design.isWhole_toValue, ofValue_toValue]

theorem Network.read_compact (network : Network) : read network.toValue.compact = .ok network := by
  rw [read, interpret_compact ofValue network.isWhole_toValue, ofValue_toValue]

/-! ## Files -/

theorem Files.readText_of_lookup {files : Files} {path text : String}
    (h : files.lookup path = .ok (.file text.toUTF8)) : files.readText path = .ok text := by
  have hdecode : String.fromUTF8? text.toUTF8 = some text := dif_pos text.isValidUTF8
  simp only [readText, h, hdecode]

/-- Loading a file with a text of a document only compares the version. -/
theorem Document.load_eq_of_lookup {files : Files} {path text : String} {document : Document}
    (hfile : files.lookup path = .ok (.file text.toUTF8)) (hread : read text = .ok document) :
    load files path =
      if document.version = currentVersion then .ok document
      else .error (.unsupported document.version) := by
  simp only [load, Files.readText_of_lookup hfile, hread]

/-- A file with a text of a document in the current version is loaded as the document. -/
theorem Document.load_of_lookup {files : Files} {path text : String} {document : Document}
    (hfile : files.lookup path = .ok (.file text.toUTF8)) (hread : read text = .ok document)
    (hversion : document.version = currentVersion) : load files path = .ok document := by
  rw [load_eq_of_lookup hfile hread, if_pos hversion]

/-- Every document is read back from its compact text and from its indented one, and so are a design
and a network that are written alone, whether or not anything can be built from them.  A file with
one of the texts is loaded as the document if the version is 1, and refused with the version
otherwise. -/
theorem Document.reading_undoes_writing :
    (∀ document : Document, read document.toValue.compact = .ok document ∧
      read document.toValue.indented = .ok document) ∧
    (∀ design : Design, Design.read design.toValue.compact = .ok design) ∧
    (∀ network : Network, Network.read network.toValue.compact = .ok network) ∧
    ∀ (document : Document) (files : Files) (path text : String),
      text = document.toValue.compact ∨ text = document.toValue.indented →
        files.lookup path = .ok (.file text.toUTF8) →
          load files path =
            if document.version = 1 then .ok document
            else .error (.unsupported document.version) := by
  refine ⟨fun document ↦ ⟨document.read_compact, document.read_indented⟩, Design.read_compact,
    Network.read_compact, ?_⟩
  intro document files path text htext hfile
  have hread : read text = .ok document := by
    rcases htext with rfl | rfl
    · exact document.read_compact
    · exact document.read_indented
  exact load_eq_of_lookup hfile hread

end Interconnect
