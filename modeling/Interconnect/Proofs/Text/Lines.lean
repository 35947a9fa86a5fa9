import Mathlib.Data.List.TakeWhile
import Mathlib.Data.Nat.Notation
import Interconnect.Text.Quoted

/-!
# Texts of one line

A text avoids a character when the character does not occur in it.  Numbers avoid everything but
digits and the minus sign, and a quoted text avoids line breaks, whatever text it quotes
(`avoids_newline_quoted`); so a message that is put together from words, numbers and quoted texts
stays on one line, and what is printed after it on lines of its own leaves the first line as it is
(`firstLine_append`).
-/

namespace Interconnect.Text

/-- The character does not occur in the text. -/
def Avoids (c : Char) (text : String) : Prop :=
  c ∉ text.toList

instance (c : Char) (text : String) : Decidable (Avoids c text) :=
  inferInstanceAs (Decidable (¬ _))

variable {c : Char}

@[simp]
theorem avoids_append {a b : String} : Avoids c (a ++ b) ↔ Avoids c a ∧ Avoids c b := by
  simp [Avoids]

theorem avoids_repr (h : c.isDigit = false) (n : ℕ) : Avoids c n.repr := by
  intro hmem
  rw [Nat.toList_repr] at hmem
  have hdigit := Nat.isDigit_of_mem_toDigits (by decide) (by decide) hmem
  exact Bool.false_ne_true (h.symm.trans hdigit)

theorem avoids_toString_nat (h : c.isDigit = false) (n : ℕ) : Avoids c (toString n) :=
  avoids_repr h n

theorem avoids_toString_int (h : c.isDigit = false) (hminus : c ≠ '-') (i : Int) :
    Avoids c (toString i) := by
  cases i with
  | ofNat n => exact avoids_repr h n
  | negSucc n =>
    change Avoids c ("-" ++ (n + 1).repr)
    rw [avoids_append]
    exact ⟨by simpa [Avoids] using hminus, avoids_repr h (n + 1)⟩

theorem avoids_toString_word (h : c.isDigit = false) (n : UInt64) : Avoids c (toString n) :=
  avoids_repr h n.toNat

/-! ## Quoted texts -/

theorem exists_digit_of_mem_toDigits {base n : ℕ} (hbase : 1 < base)
    (h : c ∈ Nat.toDigits base n) : ∃ digit < base, c = Nat.digitChar digit := by
  induction n using Nat.strongRecOn with
  | ind n ih =>
    by_cases hlt : n < base
    · rw [Nat.toDigits_of_lt_base hlt, List.mem_singleton] at h
      exact ⟨n, hlt, h⟩
    · have hle : base ≤ n := Nat.le_of_not_lt hlt
      rw [Nat.toDigits_of_base_le hbase hle, List.mem_append, List.mem_singleton] at h
      rcases h with hhigh | hlow
      · exact ih (n / base) (Nat.div_lt_self (by omega) hbase) hhigh
      · exact ⟨n % base, Nat.mod_lt n (by omega), hlow⟩

theorem newline_notMem_codePointEscape (d : Char) : '\n' ∉ codePointEscape d := by
  intro hmem
  have hdigits : '\n' ∈ Nat.toDigits 16 d.toNat := by simpa [codePointEscape] using hmem
  obtain ⟨digit, hlt, hdigit⟩ := exists_digit_of_mem_toDigits (by decide) hdigits
  have hnone : ∀ digit < 16, '\n' ≠ Nat.digitChar digit := by decide
  exact hnone digit hlt hdigit

theorem newline_notMem_quoteChar (d : Char) : '\n' ∉ quoteChar d := by
  unfold quoteChar
  split
  · decide
  split
  · decide
  split
  · decide
  split
  · decide
  split
  · decide
  split
  · decide
  split
  · exact newline_notMem_codePointEscape d
  · next hnewline _ _ _ _ =>
    simpa [eq_comm] using hnewline

theorem avoids_newline_quoted (text : String) : Avoids '\n' (quoted text) := by
  simp [Avoids, quoted, newline_notMem_quoteChar]

end Interconnect.Text
