/-!
# Blank text

A text is blank when it holds nothing but white space, in the sense of the Unicode property
White_Space.
-/

namespace Interconnect.Text

/-- The characters of the Unicode property White_Space. -/
def isWhiteSpace (c : Char) : Bool :=
  let code := c.toNat
  (0x9 ≤ code && code ≤ 0xD) || code == 0x20 || code == 0x85 || code == 0xA0 || code == 0x1680 ||
    (0x2000 ≤ code && code ≤ 0x200A) || code == 0x2028 || code == 0x2029 || code == 0x202F ||
    code == 0x205F || code == 0x3000

def isBlank (text : String) : Bool :=
  text.toList.all isWhiteSpace

@[simp]
theorem isBlank_empty : isBlank "" = true := rfl

theorem isBlank_eq_false_iff {text : String} :
    isBlank text = false ↔ ∃ c ∈ text.toList, isWhiteSpace c = false := by
  simp only [isBlank, List.all_eq_false, Bool.not_eq_true]

end Interconnect.Text
