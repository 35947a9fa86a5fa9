import Mathlib.Algebra.Order.Ring.Int
import Interconnect.Proofs.Document.Records
import Interconnect.Proofs.Document.Scalars

/-!
# Which numerals are read as integers

A count, a router number and a version are read from the same numerals: those that spell an integer,
whatever its length, if the integer is in the range of the field.  What is read is then this integer.
No other numeral is read, since `-0`, a fraction, an exponent or too many digits make a
floating-point number of it (`readCount_number_iff`, `readRouterId_number_iff`,
`readVersion_number_iff`).
-/

namespace Interconnect

namespace Json.Numeral

variable {n : Numeral}

/-- The numeral spells an integer: it has neither fraction nor exponent, and it is not `-0`. -/
def IsIntegral (n : Numeral) : Prop :=
  n.isInteger = true ∧ (n.negative = true → n.magnitude ≠ 0)

theorem number?_eq_unsigned_iff {w : UInt64} :
    n.number? = some (.unsigned w) ↔
      n.isInteger = true ∧ n.negative = false ∧ w.toNat = n.magnitude := by
  constructor
  · intro h
    unfold number? at h
    split at h
    · next hcond =>
      simp only [Bool.and_eq_true, Bool.not_eq_true', decide_eq_true_eq] at hcond
      cases h
      exact ⟨hcond.1.1, hcond.1.2, UInt64.toNat_ofNat_of_lt' hcond.2⟩
    split at h
    · cases h
    · obtain ⟨x, -, hx⟩ := Option.map_eq_some_iff.mp h
      cases hx
  · rintro ⟨hinteger, hsign, hvalue⟩
    have hlt : n.magnitude < UInt64.size := hvalue ▸ w.toNat_lt
    rw [number?_of_not_negative hinteger hsign hlt, ← hvalue, UInt64.ofNat_toNat]

theorem number?_eq_negative_iff {i : Int64} :
    n.number? = some (.negative i) ↔
      n.isInteger = true ∧ n.negative = true ∧ 0 < n.magnitude ∧ i.toInt = -n.magnitude := by
  constructor
  · intro h
    unfold number? at h
    split at h
    · cases h
    split at h
    · next hcond =>
      simp only [Bool.and_eq_true, decide_eq_true_eq] at hcond
      cases h
      have hle : n.magnitude ≤ 2 ^ 63 := hcond.2
      exact ⟨hcond.1.1.1, hcond.1.1.2, hcond.1.2, Int64.toInt_ofInt_of_le (by omega) (by omega)⟩
    · obtain ⟨x, -, hx⟩ := Option.map_eq_some_iff.mp h
      cases hx
  · rintro ⟨hinteger, hsign, hpos, hvalue⟩
    have hge := i.le_toInt
    have hle : n.magnitude ≤ Word.signedSize := by
      rw [Word.signedSize]
      omega
    rw [number?_of_negative hinteger hsign hpos hle, ← hvalue, Int64.ofInt_toInt]

theorem toInt_of_not_negative (h : n.negative = false) : n.toInt = n.magnitude :=
  if_neg (by rw [h]; exact Bool.false_ne_true)

theorem toInt_of_negative (h : n.negative = true) : n.toInt = -n.magnitude :=
  if_pos h

theorem isIntegral_ofNat (m : ℕ) : (ofNat m).IsIntegral :=
  ⟨rfl, nofun⟩

theorem toInt_ofNat (m : ℕ) : (ofNat m).toInt = m := by
  rw [toInt_of_not_negative rfl, magnitude_ofNat]

end Json.Numeral

namespace Document

open Json (Number Numeral Value)

variable {n : Numeral}

theorem readNumber_eq_ok_iff {number : Number} :
    readNumber n = .ok number ↔ n.number? = some number := by
  unfold readNumber
  cases n.number? <;> simp [rejectFault]

/-! ## Counts -/

theorem readCount_eq_ok_iff {count : UInt64} :
    readCount (.number n) = .ok count ↔ n.number? = some (.unsigned count) := by
  rw [readCount, bind_eq_ok_iff]
  simp only [readNumber_eq_ok_iff]
  constructor
  · rintro ⟨number, hnumber, h⟩
    cases number with
    | unsigned w =>
      cases h
      exact hnumber
    | negative => cases h
    | float => cases h
  · intro h
    exact ⟨_, h, rfl⟩

theorem readCount_number_iff {count : UInt64} :
    readCount (.number n) = .ok count ↔ n.IsIntegral ∧ (count.toNat : ℤ) = n.toInt := by
  rw [readCount_eq_ok_iff, Numeral.number?_eq_unsigned_iff, Numeral.IsIntegral, and_assoc]
  refine and_congr_right fun _ ↦ ?_
  cases hsign : n.negative with
  | false => simp [Numeral.toInt_of_not_negative hsign]
  | true =>
    rw [Numeral.toInt_of_negative hsign]
    refine iff_of_false (fun h ↦ absurd h.1 (by decide)) ?_
    rintro ⟨hne, hvalue⟩
    have hpos := hne rfl
    omega

/-- Only a number is read as a count. -/
theorem exists_number_of_readCount {value : Value} {count : UInt64}
    (h : readCount value = .ok count) :
    ∃ n : Numeral, value = .number n ∧ n.number? = some (.unsigned count) := by
  cases value with
  | number n => exact ⟨n, rfl, readCount_eq_ok_iff.mp h⟩
  | _ =>
    obtain ⟨found, -, hfound⟩ := bind_eq_ok_iff.mp h
    cases hfound

/-! ## Router numbers -/

theorem readRouterId_eq_ok_iff {router : Int64} :
    readRouterId (.number n) = .ok router ↔
      n.number? = some (.negative router) ∨
        ∃ w, n.number? = some (.unsigned w) ∧ w.toNat < Word.signedSize ∧ w.toInt64 = router := by
  rw [readRouterId, bind_eq_ok_iff]
  simp only [readNumber_eq_ok_iff]
  constructor
  · rintro ⟨number, hnumber, h⟩
    cases number with
    | unsigned w =>
      change (if w.toNat < Word.signedSize then pure w.toInt64 else rejectMismatch _) = _ at h
      split at h
      · next hlt =>
        cases h
        exact .inr ⟨w, hnumber, hlt, rfl⟩
      · cases h
    | negative i =>
      cases h
      exact .inl hnumber
    | float => cases h
  · rintro (h | ⟨w, h, hlt, rfl⟩)
    · exact ⟨_, h, rfl⟩
    · exact ⟨_, h, if_pos hlt⟩

/-- A router number from zero on is that of the word with its value. -/
theorem toInt_eq_iff_exists_word {router : Int64} {magnitude : ℕ} :
    router.toInt = magnitude ↔
      ∃ w : UInt64, w.toNat = magnitude ∧ w.toNat < Word.signedSize ∧ w.toInt64 = router := by
  constructor
  · intro h
    have hnonneg : 0 ≤ router.toInt := by omega
    have hword := Word.toNat_toUInt64_of_nonneg hnonneg
    exact ⟨router.toUInt64, by omega, Numeral.toNat_toUInt64_lt_signedSize hnonneg,
      router.toInt64_toUInt64⟩
  · rintro ⟨w, rfl, hlt, rfl⟩
    exact Word.toInt_toInt64_of_lt hlt

theorem readRouterId_number_iff {router : Int64} :
    readRouterId (.number n) = .ok router ↔ n.IsIntegral ∧ router.toInt = n.toInt := by
  simp only [readRouterId_eq_ok_iff, Numeral.number?_eq_negative_iff,
    Numeral.number?_eq_unsigned_iff, Numeral.IsIntegral]
  cases hsign : n.negative with
  | false =>
    rw [Numeral.toInt_of_not_negative hsign, toInt_eq_iff_exists_word]
    simp [and_assoc]
  | true =>
    rw [Numeral.toInt_of_negative hsign]
    simp [and_assoc, Nat.pos_iff_ne_zero]

/-! ## Versions -/

theorem readVersion_eq_ok_iff {version : UInt32} :
    readVersion (.number n) = .ok version ↔
      ∃ w, n.number? = some (.unsigned w) ∧ w.toNat < UInt32.size ∧ w.toUInt32 = version := by
  rw [readVersion, bind_eq_ok_iff]
  simp only [readNumber_eq_ok_iff]
  constructor
  · rintro ⟨number, hnumber, h⟩
    cases number with
    | unsigned w =>
      change (if w.toNat < UInt32.size then pure w.toUInt32 else rejectMismatch _) = _ at h
      split at h
      · next hlt =>
        cases h
        exact ⟨w, hnumber, hlt, rfl⟩
      · cases h
    | negative => cases h
    | float => cases h
  · rintro ⟨w, h, hlt, rfl⟩
    exact ⟨_, h, if_pos hlt⟩

theorem readVersion_number_iff {version : UInt32} :
    readVersion (.number n) = .ok version ↔ n.IsIntegral ∧ (version.toNat : ℤ) = n.toInt := by
  have hword : (∃ w, n.number? = some (.unsigned w) ∧ w.toNat < UInt32.size ∧
      w.toUInt32 = version) ↔ readCount (.number n) = .ok version.toUInt64 := by
    rw [readCount_eq_ok_iff]
    constructor
    · rintro ⟨w, h, hlt, rfl⟩
      have hback : w.toUInt32.toUInt64 = w := by
        apply UInt64.toNat_inj.mp
        rw [UInt32.toNat_toUInt64, UInt64.toNat_toUInt32, Nat.mod_eq_of_lt hlt]
      rwa [hback]
    · intro h
      exact ⟨_, h, version.toUInt32_toUInt64 ▸ version.toNat_lt, version.toUInt32_toUInt64⟩
  rw [readVersion_eq_ok_iff, hword, readCount_number_iff, UInt32.toNat_toUInt64]

end Document

end Interconnect
