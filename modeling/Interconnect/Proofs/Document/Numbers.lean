import Interconnect.Proofs.Document.Exchange

/-!
# The numbers of a document

The numbers of a document are its version, the parameters of its design and the routers of its nodes.
In a text that is read, each may be exchanged for a numeral of any length.  The new text is read
exactly when the numeral is an integer for which the number has room; then the number is this
integer, and all else in the document stays (`Document.number_is_exact`).  No numeral is ever wrapped,
cut off or rounded.
-/

namespace Interconnect.Document

open Interconnect.Topology (Kind)
open Json (HasToken Numeral Spelling Spells SpellsPadded Value)

/-- A number of a document. -/
inductive Slot
  | version
  | parameter (name : String)
  | router (node : ℕ)

namespace Slot

/-- There is room for the integer. -/
def Admits : Slot → ℤ → Prop
  | version, i => 0 ≤ i ∧ i < 2 ^ 32
  | parameter _, i => 0 ≤ i ∧ i < 2 ^ 64
  | router _, i => -2 ^ 63 ≤ i ∧ i < 2 ^ 63

instance decidableAdmits : (slot : Slot) → (i : ℤ) → Decidable (slot.Admits i)
  | version, _ => inferInstanceAs (Decidable (_ ∧ _))
  | parameter _, _ => inferInstanceAs (Decidable (_ ∧ _))
  | router _, _ => inferInstanceAs (Decidable (_ ∧ _))

/-- The second document has the integer as this number, and is the first document in all else. -/
def Sets (i : ℤ) (document document' : Document) : Slot → Prop
  | version =>
    ∃ version : UInt32, (version.toNat : ℤ) = i ∧ document' = { document with version }
  | parameter name =>
    name ∈ document.design.kind.fields ∧ ∃ n : UInt64, (n.toNat : ℤ) = i ∧
      document' = { document with design := document.design.withParameter name n }
  | router node =>
    node < document.network.routerMap.size ∧ ∃ router : Int64, router.toInt = i ∧
      document' = { document with network := { document.network with
        routerMap := document.network.routerMap.setIfInBounds node router } }

/-- What stands around the number in a document whose design is of the kind. -/
inductive IsAround (kind : Kind) : Slot → (Value → Value) → Prop
  | version {around : Value → Value} (haround : IsPlace "schema_version" 0 around) :
    IsAround kind .version around
  | parameter {name : String} {earlier later : List String} {around inner : Value → Value}
      (haround : IsPlace "topology" 1 around) (hfields : kind.fields = earlier ++ name :: later)
      (hinner : IsPlace name (earlier.length + 1) inner) :
    IsAround kind (.parameter name) (around ∘ inner)
  | router {before after : List Value} {around inner : Value → Value}
      (haround : IsPlace "network" 2 around) (hinner : IsPlace "attached_router_id" 0 inner) :
    IsAround kind (.router before.length)
      (around ∘ inner ∘ fun part ↦ .array (before ++ part :: after) .closed)

variable {slot : Slot} {kind : Kind} {around : Value → Value} {document : Document}

/-- In a text of the whole, the number has a token of its own. -/
theorem IsAround.hasToken {part : Value} {text : List Char} (h : slot.IsAround kind around)
    (hspells : SpellsPadded (around part) text) :
    HasToken part (fun part ↦ SpellsPadded (around part)) text := by
  cases h with
  | version haround => exact hspells.hasToken.descend around haround.hasToken
  | @parameter _ _ _ around inner haround _ hinner =>
    have houter : HasToken (inner part) (fun part ↦ SpellsPadded (around part)) text :=
      hspells.hasToken.descend around haround.hasToken
    exact houter.descend inner hinner.hasToken
  | @router before after around inner haround hinner =>
    have houter : HasToken (inner (.array (before ++ part :: after) .closed))
        (fun part ↦ SpellsPadded (around part)) text :=
      hspells.hasToken.descend around haround.hasToken
    have hitems := houter.descend inner hinner.hasToken
    exact hitems.descend (fun part ↦ .array (before ++ part :: after) .closed)
      Spells.hasToken_array

/-! ## Room for integers -/

theorem exists_toNat_eq_iff_version {i : ℤ} :
    (∃ version : UInt32, (version.toNat : ℤ) = i) ↔ 0 ≤ i ∧ i < 2 ^ 32 := by
  constructor
  · rintro ⟨version, rfl⟩
    have hlt := version.toNat_lt
    omega
  · rintro ⟨hnonneg, hlt⟩
    have hword : (UInt32.ofNat i.toNat).toNat = i.toNat :=
      UInt32.toNat_ofNat_of_lt' (by rw [UInt32.size]; omega)
    exact ⟨.ofNat i.toNat, by omega⟩

theorem exists_toNat_eq_iff_count {i : ℤ} :
    (∃ n : UInt64, (n.toNat : ℤ) = i) ↔ 0 ≤ i ∧ i < 2 ^ 64 := by
  constructor
  · rintro ⟨n, rfl⟩
    have hlt := n.toNat_lt
    omega
  · rintro ⟨hnonneg, hlt⟩
    have hword : (UInt64.ofNat i.toNat).toNat = i.toNat :=
      UInt64.toNat_ofNat_of_lt' (by rw [UInt64.size]; omega)
    exact ⟨.ofNat i.toNat, by omega⟩

theorem exists_toInt_eq_iff {i : ℤ} :
    (∃ router : Int64, router.toInt = i) ↔ -2 ^ 63 ≤ i ∧ i < 2 ^ 63 := by
  constructor
  · rintro ⟨router, rfl⟩
    exact ⟨router.le_toInt, router.toInt_lt⟩
  · rintro ⟨hle, hlt⟩
    exact ⟨.ofInt i, Int64.toInt_ofInt_of_le hle hlt⟩

theorem exists_sets_iff {document' : Document} {i j : ℤ} (h : slot.Sets j document document') :
    (∃ document', slot.Sets i document document') ↔ slot.Admits i := by
  cases slot with
  | version =>
    rw [Admits, ← exists_toNat_eq_iff_version]
    constructor
    · rintro ⟨_, version, hversion, -⟩
      exact ⟨version, hversion⟩
    · rintro ⟨version, hversion⟩
      exact ⟨_, version, hversion, rfl⟩
  | parameter name =>
    rw [Admits, ← exists_toNat_eq_iff_count]
    constructor
    · rintro ⟨_, -, n, hn, -⟩
      exact ⟨n, hn⟩
    · rintro ⟨n, hn⟩
      exact ⟨_, h.1, n, hn, rfl⟩
  | router node =>
    rw [Admits, ← exists_toInt_eq_iff]
    constructor
    · rintro ⟨_, -, router, hrouter, -⟩
      exact ⟨router, hrouter⟩
    · rintro ⟨router, hrouter⟩
      exact ⟨_, h.1, router, hrouter, rfl⟩

/-! ## Another numeral -/

theorem IsAround.ofValue_eq_ok_iff {old numeral : Numeral} {document' : Document}
    (h : slot.IsAround document.design.kind around)
    (hread : ofValue (around (.number old)) = .ok document) :
    ofValue (around (.number numeral)) = .ok document' ↔
      numeral.IsIntegral ∧ slot.Sets numeral.toInt document document' := by
  cases h with
  | version haround =>
    rw [reads_version haround hread (.number numeral) document']
    simp only [readVersion_number_iff, Sets, and_assoc, exists_and_left, @eq_comm _ document']
  | @parameter name earlier later around inner haround hfields hinner =>
    have hdesign := (haround.standsAt _).design_eq_ok hread
    have hreads := (reads_design haround hread).within (Design.reads_parameter hinner hfields hdesign)
    have hname : name ∈ document.design.kind.fields := hfields ▸ List.mem_append_cons_self
    rw [hreads (.number numeral) document']
    simp only [readCount_number_iff, Sets, hname, true_and, and_assoc, exists_and_left,
      Function.comp_apply, @eq_comm _ document']
  | @router before after around inner haround hinner =>
    -- The router stands in its map, the map in the network, and the network in the document.
    have hnetwork := (haround.standsAt _).network_eq_ok hread
    obtain ⟨routerMap, hrouters, hsame⟩ := (Network.reads_routerMap hinner hnetwork _ _).mp hnetwork
    obtain rfl : routerMap = document.network.routerMap := congrArg Network.routerMap hsame
    have hreads := (reads_network haround hread).within
      ((Network.reads_routerMap hinner hnetwork).within (Network.reads_router hrouters))
    have hnode : before.length < document.network.routerMap.size := by
      rw [← Array.length_toList,
        length_of_mapM_eq_ok (Network.readRouters_closed_eq_ok_iff.mp hrouters)]
      simp
    rw [hreads (.number numeral) document']
    simp only [readRouterId_number_iff, Sets, hnode, true_and, and_assoc, exists_and_left,
      Function.comp_apply, @eq_comm _ document']

end Slot

/-- In a text of a document, the token of any number may be exchanged for any numeral.  The new text
is read exactly when the numeral is an integer for which there is room, and then as the document that
has this integer as the number and is the same in all else. -/
theorem number_is_exact {text : String} {document : Document} {slot : Slot}
    {around : Value → Value} {old : Numeral} (h : read text = .ok document)
    (haround : slot.IsAround document.design.kind around)
    (hspells : SpellsPadded (around (.number old)) text.toList) :
    (∃ before token after, text.toList = before ++ token ++ after ∧ old.Spells token ∧
      ∀ (numeral : Numeral) (literal : List Char), numeral.Spells literal →
        SpellsPadded (around (.number numeral)) (before ++ literal ++ after)) ∧
    ∀ (numeral : Numeral) (text' : String),
      SpellsPadded (around (.number numeral)) text'.toList →
        ((∃ document', read text' = .ok document') ↔
          numeral.IsIntegral ∧ slot.Admits numeral.toInt) ∧
        ∀ document', read text' = .ok document' → slot.Sets numeral.toInt document document' := by
  have hvalue : ofValue (around (.number old)) = .ok document :=
    (read_eq_ofValue hspells).symm.trans h
  have hiff (numeral : Numeral) (document' : Document) :
      ofValue (around (.number numeral)) = .ok document' ↔
        numeral.IsIntegral ∧ slot.Sets numeral.toInt document document' :=
    haround.ofValue_eq_ok_iff hvalue
  constructor
  · obtain ⟨before, token, after, heq, htoken, hrest⟩ := haround.hasToken hspells
    cases htoken with
    | number htoken =>
      exact ⟨before, token, after, heq, htoken, fun numeral literal hliteral ↦
        hrest (.number numeral) literal (.number hliteral)⟩
  · intro numeral text' hspells'
    have hread (document' : Document) : read text' = .ok document' ↔
        numeral.IsIntegral ∧ slot.Sets numeral.toInt document document' := by
      rw [read_eq_ofValue hspells', hiff]
    simp only [hread, exists_and_left, Slot.exists_sets_iff ((hiff old document).mp hvalue).2,
      true_and]
    exact fun _ ↦ And.right

/-- `pair` as an array, with a value for its radix. -/
def pairAround (radix : Value) : Value :=
  .array
    [pair.versionItem,
      .array [pair.design.kindItem, radix, Design.countValue 1] .closed,
      .array [pair.network.routersValue, .string (.ofString pair.network.configPath)] .closed]
    .closed

theorem isAround_pairAround : Slot.IsAround .mesh (.parameter "k") pairAround := by
  have haround : IsPlace "topology" 1 fun part ↦ .array ([pair.versionItem] ++ part ::
      [.array [pair.network.routersValue, .string (.ofString pair.network.configPath)] .closed])
      .closed := .item rfl
  have hinner : IsPlace "k" 1 fun part ↦
      .array ([pair.design.kindItem] ++ part :: [Design.countValue 1]) .closed := .item rfl
  have hfields : Kind.mesh.fields = [] ++ "k" :: ["n", "concentration"] := rfl
  exact .parameter haround hfields hinner

theorem spellsPadded_pairAround (n : ℕ) :
    SpellsPadded (pairAround (.number (.ofNat n)))
      (pairAround (.number (.ofNat n))).compact.toList := by
  have hnumeral : (Value.number (.ofNat n)).IsWhole := Numeral.isProper_ofNat n
  have hnetwork : pair.network.WrittenAs
      (.array [pair.network.routersValue, .string (.ofString pair.network.configPath)] .closed) :=
    .array
  have hwhole : (pairAround (.number (.ofNat n))).IsWhole :=
    ⟨rfl, Numeral.isProper_ofNat _, ⟨rfl, fun _ ↦ Spelling.isProper_of_mem_ofString, hnumeral,
      Numeral.isProper_ofNat _, trivial⟩, hnetwork.isWhole, trivial⟩
  exact (Json.spells_compact hwhole).padded

/-- The largest word is read as the radix it spells, and the number after it is refused. -/
theorem number_is_exact_pair :
    read "[1,[\"mesh\",2,1],[[0,1],\"anynet\"]]" = .ok pair ∧
      read "[1,[\"mesh\",18446744073709551615,1],[[0,1],\"anynet\"]]" =
        .ok { pair with design := .mesh 18446744073709551615 1 1 } ∧
      ∃ rejection, read "[1,[\"mesh\",18446744073709551616,1],[[0,1],\"anynet\"]]" =
        .error rejection := by
  have htext : (pairAround (.number (.ofNat 2))).compact =
      "[1,[\"mesh\",2,1],[[0,1],\"anynet\"]]" := by decide +kernel
  have hlast : (pairAround (.number (.ofNat 18446744073709551615))).compact =
      "[1,[\"mesh\",18446744073709551615,1],[[0,1],\"anynet\"]]" := by decide +kernel
  have hbeyond : (pairAround (.number (.ofNat 18446744073709551616))).compact =
      "[1,[\"mesh\",18446744073709551616,1],[[0,1],\"anynet\"]]" := by decide +kernel
  have hdesign : pair.design.WrittenAs (.array
      (pair.design.kindItem :: Design.parameterItems [("k", 2), ("n", 1)]) .closed) :=
    .arrayWithoutConcentration rfl
  have hwritten : pair.WrittenAs (pairAround (.number (.ofNat 2))) := .array hdesign .array
  have hread : read (pairAround (.number (.ofNat 2))).compact = .ok pair :=
    read_eq_ok_iff.mpr ⟨_, spellsPadded_pairAround 2, hwritten.ofValue_eq_ok⟩
  have hexact := (number_is_exact hread isAround_pairAround (spellsPadded_pairAround 2)).2
  rw [← htext, ← hlast, ← hbeyond]
  refine ⟨hread, ?_, ?_⟩
  · obtain ⟨hiff, hsets⟩ := hexact _ _ (spellsPadded_pairAround 18446744073709551615)
    rw [Numeral.toInt_ofNat] at hiff hsets
    obtain ⟨document', hdocument'⟩ := hiff.mpr ⟨Numeral.isIntegral_ofNat _, by decide⟩
    obtain ⟨-, n, hn, rfl⟩ := hsets document' hdocument'
    obtain rfl : n = 18446744073709551615 := UInt64.toNat_inj.mp (by exact_mod_cast hn)
    exact hdocument'
  · obtain ⟨hiff, -⟩ := hexact _ _ (spellsPadded_pairAround 18446744073709551616)
    rw [Numeral.toInt_ofNat] at hiff
    cases hresult : read (pairAround (.number (.ofNat 18446744073709551616))).compact with
    | error rejection => exact ⟨rejection, rfl⟩
    | ok document' =>
      have hadmits := (hiff.mp ⟨document', hresult⟩).2
      exact absurd hadmits (by decide)

end Interconnect.Document
