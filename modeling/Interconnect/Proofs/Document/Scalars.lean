import Mathlib.Data.Nat.Notation
import Interconnect.Document.Design
import Interconnect.Document.Network
import Interconnect.Proofs.Json.Writing

/-!
# Scalars that are written are read back

Texts, counts, router numbers and versions are written as JSON strings and integers.  What is read
from them is what was written, for every text and every number of the type, and what is written has
the shape that JSON gives to strings and numerals.  A text has other spellings besides, since
surrogate pairs may stand for characters: it is read from the spellings that denote it, and from no
others (`Json.Spelling.text?_eq_some_iff`).
-/

namespace Interconnect

/-! ## Texts -/

namespace Json.Spelling

theorem push_append_ofList (text : String) (c : Char) (cs : List Char) :
    text.push c ++ String.ofList cs = text ++ String.ofList (c :: cs) := by
  apply String.toList_inj.mp
  simp only [String.toList_append, String.toList_push, String.toList_ofList, List.append_assoc,
    List.cons_append, List.nil_append]

/-- The pieces spell the characters: each by itself or, if its code has more than sixteen bits, by
the two halves of its surrogate pair. -/
inductive Denotes : Spelling → List Char → Prop
  | nil : Denotes [] []
  | char {c : Char} {pieces : Spelling} {cs : List Char} (h : Denotes pieces cs) :
    Denotes (.char c :: pieces) (c :: cs)
  | pair {c : Char} {high low : ℕ} {pieces : Spelling} {cs : List Char}
      (hcode : c.toNat = 0x10000 + high * 0x400 + low) (h : Denotes pieces cs) :
    Denotes (.high high :: .low low :: pieces) (c :: cs)

theorem Denotes.appendTo?_eq {pieces : Spelling} {cs : List Char} (h : pieces.Denotes cs)
    (text : String) : appendTo? text pieces = some (text ++ String.ofList cs) := by
  induction h generalizing text with
  | nil =>
    rw [String.ofList_nil, String.append_empty]
    rfl
  | char _ ih => rw [appendTo?, ih, push_append_ofList]
  | pair hcode _ ih => rw [appendTo?, ih, paired, ← hcode, Char.ofNat_toNat, push_append_ofList]

/-- A spelling has the text that it denotes. -/
theorem Denotes.text?_eq {pieces : Spelling} {text : String} (h : pieces.Denotes text.toList) :
    pieces.text? = some text := by
  rw [text?, h.appendTo?_eq, String.ofList_toList, String.empty_append]

theorem toNat_paired {high low : ℕ} (hhigh : high < 0x400) (hlow : low < 0x400) :
    (paired high low).toNat = 0x10000 + high * 0x400 + low := by
  have hvalid : (0x10000 + high * 0x400 + low).isValidChar := by
    right
    omega
  rw [paired, Char.ofNat, dif_pos hvalid]
  rfl

theorem exists_denotes {pieces : Spelling} (hproper : ∀ piece ∈ pieces, piece.IsProper)
    {text result : String} (h : appendTo? text pieces = some result) :
    ∃ cs, pieces.Denotes cs ∧ result = text ++ String.ofList cs := by
  fun_induction appendTo? text pieces with
  | case1 text =>
    cases h
    exact ⟨[], .nil, by rw [String.ofList_nil, String.append_empty]⟩
  | case2 text c rest ih =>
    obtain ⟨cs, hcs, rfl⟩ := ih (List.forall_mem_cons.mp hproper).2 h
    exact ⟨c :: cs, .char hcs, push_append_ofList text c cs⟩
  | case3 text high low rest ih =>
    obtain ⟨hhigh, hproper⟩ := List.forall_mem_cons.mp hproper
    obtain ⟨hlow, hproper⟩ := List.forall_mem_cons.mp hproper
    obtain ⟨cs, hcs, rfl⟩ := ih hproper h
    exact ⟨paired high low :: cs, .pair (toNat_paired hhigh hlow) hcs, push_append_ofList _ _ _⟩
  | case4 => cases h
  | case5 => cases h

/-- A spelling has no text but the one that it denotes. -/
theorem text?_eq_some_iff {pieces : Spelling} (hproper : ∀ piece ∈ pieces, piece.IsProper)
    {text : String} : pieces.text? = some text ↔ pieces.Denotes text.toList := by
  constructor
  · intro h
    obtain ⟨cs, hcs, rfl⟩ := exists_denotes hproper h
    rwa [String.empty_append, String.toList_ofList]
  · exact Denotes.text?_eq

theorem denotes_map_char (cs : List Char) : Denotes (cs.map .char) cs := by
  induction cs with
  | nil => exact .nil
  | cons c cs ih => exact .char ih

theorem denotes_ofString (text : String) : (ofString text).Denotes text.toList :=
  denotes_map_char text.toList

@[simp]
theorem text?_ofString (text : String) : (ofString text).text? = some text :=
  (denotes_ofString text).text?_eq

theorem isProper_of_mem_ofString {text : String} {piece : Piece} (h : piece ∈ ofString text) :
    piece.IsProper := by
  obtain ⟨c, -, rfl⟩ := List.mem_map.mp h
  trivial

end Json.Spelling

@[simp]
theorem Document.readText_ofString (text : String) :
    readText (.ofString text) = .ok text := by
  rw [readText, Json.Spelling.text?_ofString]

/-! ## Integers -/

namespace Json.Numeral

/-- The digits of a number start with a zero only when there is no more to them. -/
theorem eq_zero_of_toDigits_eq_cons {n : ℕ} {digits : List Char}
    (h : Nat.toDigits 10 n = '0' :: digits) : n = 0 := by
  induction n using Nat.strongRecOn generalizing digits with
  | ind n ih =>
    by_cases hlt : n < 10
    · rw [Nat.toDigits_of_lt_base hlt] at h
      have hvalue := @Nat.ofDigitChars_ten_toDigits n
      rw [Nat.toDigits_of_lt_base hlt, (List.cons.inj h).1] at hvalue
      exact hvalue.symm
    · have hge : 10 ≤ n := Nat.le_of_not_lt hlt
      rw [Nat.toDigits_of_base_le (by decide) hge] at h
      cases hhigh : Nat.toDigits 10 (n / 10) with
      | nil => exact absurd hhigh Nat.toDigits_ne_nil
      | cons c high =>
        rw [hhigh, List.cons_append] at h
        have hzero := @ih (n / 10) (by omega) high (by rw [hhigh, (List.cons.inj h).1])
        omega

theorem isProper_ofNat (n : ℕ) : (ofNat n).IsProper where
  whole_ne_nil := Nat.toDigits_ne_nil
  whole_digits _ hc := Nat.isDigit_of_mem_toDigits (by decide) (by decide) hc
  eq_nil_of_leading_zero digits h := by
    have h' : Nat.toDigits 10 n = '0' :: digits := h
    rw [eq_zero_of_toDigits_eq_cons h', Nat.toDigits_zero] at h'
    exact (List.cons.inj h').2.symm
  fraction_digits _ hc := absurd hc List.not_mem_nil
  exponent_digits _ hc := absurd hc List.not_mem_nil
  exponentNegative_eq_false _ := rfl

theorem isProper_ofInt (i : Int) : (ofInt i).IsProper :=
  { isProper_ofNat i.natAbs with }

theorem magnitude_ofNat (n : ℕ) : (ofNat n).magnitude = n :=
  Nat.ofDigitChars_ten_toDigits

/-- An integer without a sign that fits a word is this word. -/
theorem number?_of_not_negative {n : Numeral} (hinteger : n.isInteger = true)
    (hsign : n.negative = false) (hlt : n.magnitude < UInt64.size) :
    n.number? = some (.unsigned (UInt64.ofNat n.magnitude)) := by
  have hcond : (n.isInteger && !n.negative && decide (n.magnitude < UInt64.size)) = true := by
    rw [hinteger, hsign, decide_eq_true hlt]
    rfl
  rw [number?, if_pos hcond]

/-- An integer with a sign that fits a signed word is this word, unless it is zero. -/
theorem number?_of_negative {n : Numeral} (hinteger : n.isInteger = true)
    (hsign : n.negative = true) (hpos : 0 < n.magnitude) (hle : n.magnitude ≤ Word.signedSize) :
    n.number? = some (.negative (Int64.ofInt (-n.magnitude))) := by
  have hunsigned : ¬ (n.isInteger && !n.negative && decide (n.magnitude < UInt64.size)) = true := by
    rw [hsign, Bool.not_true, Bool.and_false, Bool.false_and]
    exact Bool.false_ne_true
  have hcond : (n.isInteger && n.negative && decide (0 < n.magnitude) &&
      decide (n.magnitude ≤ Word.signedSize)) = true := by
    rw [hinteger, hsign, decide_eq_true hpos, decide_eq_true hle]
    rfl
  rw [number?, if_neg hunsigned, if_pos hcond]

theorem number?_ofNat (w : UInt64) : (ofNat w.toNat).number? = some (.unsigned w) := by
  have hlt : (ofNat w.toNat).magnitude < UInt64.size := magnitude_ofNat _ ▸ w.toNat_lt
  rw [number?_of_not_negative rfl rfl hlt, magnitude_ofNat, UInt64.ofNat_toNat]

theorem ofInt_toInt_of_nonneg {i : Int64} (h : 0 ≤ i.toInt) :
    ofInt i.toInt = ofNat i.toUInt64.toNat := by
  have hvalue := Word.toNat_toUInt64_of_nonneg h
  have habs : i.toInt.natAbs = i.toUInt64.toNat := by omega
  rw [ofInt, habs, decide_eq_false (Int.not_lt.mpr h)]
  rfl

theorem number?_ofInt_of_nonneg {i : Int64} (h : 0 ≤ i.toInt) :
    (ofInt i.toInt).number? = some (.unsigned i.toUInt64) := by
  rw [ofInt_toInt_of_nonneg h, number?_ofNat]

theorem toNat_toUInt64_lt_signedSize {i : Int64} (h : 0 ≤ i.toInt) :
    i.toUInt64.toNat < Word.signedSize := by
  have hvalue := Word.toNat_toUInt64_of_nonneg h
  have hlt := i.toInt_lt
  rw [Word.signedSize]
  omega

theorem natAbs_toInt_le {i : Int64} (h : i.toInt < 0) : i.toInt.natAbs ≤ Word.signedSize := by
  have hge := i.le_toInt
  rw [Word.signedSize]
  omega

theorem number?_ofInt_of_neg {i : Int64} (h : i.toInt < 0) :
    (ofInt i.toInt).number? = some (.negative i) := by
  have hmagnitude : (ofInt i.toInt).magnitude = i.toInt.natAbs := magnitude_ofNat _
  have hpos : 0 < (ofInt i.toInt).magnitude := by omega
  have hle : (ofInt i.toInt).magnitude ≤ Word.signedSize := hmagnitude ▸ natAbs_toInt_le h
  have hback : -(i.toInt.natAbs : Int) = i.toInt := by omega
  rw [number?_of_negative rfl (decide_eq_true h) hpos hle, hmagnitude, hback, Int64.ofInt_toInt]

end Json.Numeral

namespace Document

open Json

theorem readCount_countValue (n : UInt64) : readCount (Design.countValue n) = .ok n := by
  rw [Design.countValue, readCount, readNumber, Numeral.number?_ofNat]
  rfl

theorem readRouterId_routerValue (router : Int64) :
    readRouterId (Network.routerValue router) = .ok router := by
  rw [Network.routerValue, readRouterId, readNumber]
  by_cases h : router.toInt < 0
  · rw [Numeral.number?_ofInt_of_neg h]
    rfl
  · have hnonneg := Int.not_lt.mp h
    rw [Numeral.number?_ofInt_of_nonneg hnonneg]
    change (if _ then _ else _) = _
    rw [if_pos (Numeral.toNat_toUInt64_lt_signedSize hnonneg), router.toInt64_toUInt64]
    rfl

theorem readVersion_ofNat (version : UInt32) :
    readVersion (.number (.ofNat version.toNat)) = .ok version := by
  have hword : version.toUInt64.toNat = version.toNat := UInt32.toNat_toUInt64 version
  rw [readVersion, readNumber, ← hword, Numeral.number?_ofNat]
  change (if _ then _ else _) = _
  rw [if_pos (by rw [hword]; exact version.toNat_lt), UInt32.toUInt32_toUInt64]
  rfl

/-- Values that are read back one by one are read back all together. -/
theorem mapM_read_write {α : Type} {write : α → Value} {read : Value → Result α}
    (h : ∀ a, read (write a) = .ok a) (as : List α) : (as.map write).mapM read = .ok as := by
  induction as with
  | nil => rfl
  | cons a as ih =>
    rw [List.map_cons, List.mapM_cons, h, ih]
    rfl

theorem areWhole_map {α : Type} {write : α → Value} (h : ∀ a, (write a).IsWhole)
    (as : List α) : AreWhole (as.map write) := by
  induction as with
  | nil => trivial
  | cons a as ih => exact ⟨h a, ih⟩

end Document

end Interconnect
