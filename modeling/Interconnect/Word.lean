/-!
# 64-bit arithmetic that refuses to wrap

Sizes and switch numbers are 64-bit words.  The operations of this module return the exact result
or name the operation that left the range, so that no wrapped number is ever taken for a size.
The laws `Word.add_eq_ok_iff`, `Word.mul_eq_ok_iff` and `Word.pow_eq_ok_iff` say that a result is
returned exactly when the mathematical value is a word, and is then that value.
-/

namespace Interconnect

/-- The operation whose result does not fit a 64-bit word. -/
inductive Overflow
  | multiplication
  | addition
  deriving DecidableEq, Repr

def Overflow.message : Overflow → String
  | .multiplication => "attempt to multiply with overflow"
  | .addition => "attempt to add with overflow"

namespace Word

/-- How many natural numbers are signed 64-bit words: half of all words. -/
def signedSize : Nat := 0x8000000000000000

/-- The word with the value of a signed word; there is none below zero. -/
def ofSigned? (i : Int64) : Option UInt64 :=
  if i < 0 then none else some i.toUInt64

def add (a b : UInt64) : Except Overflow UInt64 :=
  if a.toNat + b.toNat < UInt64.size then .ok (a + b) else .error .addition

def mul (a b : UInt64) : Except Overflow UInt64 :=
  if a.toNat * b.toNat < UInt64.size then .ok (a * b) else .error .multiplication

def pow (base : UInt64) : Nat → Except Overflow UInt64
  | 0 => .ok 1
  | n + 1 => do
    let power ← pow base n
    mul power base

theorem ofSigned?_of_neg {i : Int64} (h : i.toInt < 0) : ofSigned? i = none :=
  if_pos (Int64.lt_iff_toInt_lt.mpr h)

theorem ofSigned?_of_nonneg {i : Int64} (h : 0 ≤ i.toInt) : ofSigned? i = some i.toUInt64 := by
  have hle : 0 ≤ i := Int64.le_iff_toInt_le.mpr h
  exact if_neg (Int64.not_lt.mpr hle)

/-- The word that a signed word from zero on is reinterpreted as has the same value. -/
theorem toNat_toUInt64_of_nonneg {i : Int64} (h : 0 ≤ i.toInt) :
    (i.toUInt64.toNat : Int) = i.toInt := by
  have hle : 0 ≤ i := Int64.le_iff_toInt_le.mpr h
  rw [Int64.toNat_toUInt64_of_le hle, Int64.cast_toNatClampNeg i hle]

/-- The signed word that a word in the signed range is reinterpreted as has the same value. -/
theorem toInt_toInt64_of_lt {w : UInt64} (h : w.toNat < signedSize) :
    w.toInt64.toInt = w.toNat := by
  have hnat : w.toInt64 = Int64.ofNat w.toNat := by
    rw [← UInt64.toInt64_ofNat', UInt64.ofNat_toNat]
  rw [hnat, Int64.toInt_ofNat_of_lt h]

theorem add_eq_ok_iff {a b c : UInt64} : add a b = .ok c ↔ c.toNat = a.toNat + b.toNat := by
  unfold add
  have hc := c.toNat_lt
  constructor
  · intro h
    split at h
    · next hlt =>
      cases h
      rw [UInt64.toNat_add, Nat.mod_eq_of_lt hlt]
    · cases h
  · intro h
    have hlt : a.toNat + b.toNat < UInt64.size := by rw [← h]; exact hc
    rw [if_pos hlt]
    congr 1
    apply UInt64.toNat_inj.mp
    rw [UInt64.toNat_add, h, Nat.mod_eq_of_lt hlt]

theorem mul_eq_ok_iff {a b c : UInt64} : mul a b = .ok c ↔ c.toNat = a.toNat * b.toNat := by
  unfold mul
  have hc := c.toNat_lt
  constructor
  · intro h
    split at h
    · next hlt =>
      cases h
      rw [UInt64.toNat_mul, Nat.mod_eq_of_lt hlt]
    · cases h
  · intro h
    have hlt : a.toNat * b.toNat < UInt64.size := by rw [← h]; exact hc
    rw [if_pos hlt]
    congr 1
    apply UInt64.toNat_inj.mp
    rw [UInt64.toNat_mul, h, Nat.mod_eq_of_lt hlt]

/-- A lower power of a word cannot be larger than a word when a higher one is not. -/
theorem pow_lt_size_of_succ {base : UInt64} {n : Nat}
    (h : base.toNat.pow (n + 1) < UInt64.size) : base.toNat.pow n < UInt64.size := by
  rcases Nat.eq_zero_or_pos base.toNat with hz | hpos
  · rw [hz]
    cases n with
    | zero => decide
    | succ n =>
      show Nat.pow 0 n * 0 < UInt64.size
      rw [Nat.mul_zero]
      decide
  · exact Nat.lt_of_le_of_lt (Nat.pow_le_pow_right hpos (Nat.le_succ n)) h

theorem pow_eq_ok_iff {base c : UInt64} {n : Nat} :
    pow base n = .ok c ↔ c.toNat = base.toNat.pow n := by
  induction n generalizing c with
  | zero =>
    simp only [pow, Except.ok.injEq]
    rw [← UInt64.toNat_inj]
    exact eq_comm
  | succ n ih =>
    constructor
    · intro h
      cases hp : pow base n with
      | error e => rw [pow, hp] at h; cases h
      | ok power =>
        rw [pow, hp] at h
        rw [mul_eq_ok_iff.mp h, ih.mp hp]
        rfl
    · intro h
      have hlt : base.toNat.pow n < UInt64.size :=
        pow_lt_size_of_succ (h ▸ c.toNat_lt)
      have hpower : pow base n = .ok (UInt64.ofNat (base.toNat.pow n)) :=
        ih.mpr (UInt64.toNat_ofNat_of_lt' hlt)
      rw [pow, hpower]
      refine mul_eq_ok_iff.mpr ?_
      rw [UInt64.toNat_ofNat_of_lt' hlt, h]
      rfl

end Word

end Interconnect
