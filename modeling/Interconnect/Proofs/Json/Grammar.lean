import Mathlib.Data.List.Basic
import Interconnect.Json.Reader
import Interconnect.Json.Writer

/-!
# The grammar of JSON

`Spells value text` says that a text is a way to write a value.  A value has many: blanks may stand
between its tokens, a character of a string may be escaped in several ways, and the exponent of a
numeral may have its mark and sign written in several ways.  The digits of a numeral and the order
of members belong to the value.  Only a value without breaks has a text at all.
-/

namespace Interconnect.Json

/-- Text that may stand between two tokens. -/
def IsBlank (text : List Char) : Prop :=
  ∀ c ∈ text, isSpace c = true

namespace IsBlank

theorem nil : IsBlank [] := fun _ hc ↦ absurd hc List.not_mem_nil

theorem cons {c : Char} {text : List Char} (hc : isSpace c = true) (h : IsBlank text) :
    IsBlank (c :: text) :=
  List.forall_mem_cons.mpr ⟨hc, h⟩

theorem append {a b : List Char} (ha : IsBlank a) (hb : IsBlank b) : IsBlank (a ++ b) :=
  List.forall_mem_append.mpr ⟨ha, hb⟩

end IsBlank

/-! ## Strings -/

/-- The ways to write a piece of a string. -/
inductive Piece.Spells : Piece → List Char → Prop
  | raw {c : Char} (hquote : c ≠ '"') (hslash : c ≠ '\\') (hcontrol : 0x20 ≤ c.toNat) :
    Piece.Spells (.char c) [c]
  | letter {letter c : Char} (h : escaped? letter = some c) :
    Piece.Spells (.char c) ['\\', letter]
  | code {a b c d : Char} {i j k l : ℕ} (ha : hexValue? a = some i) (hb : hexValue? b = some j)
      (hc : hexValue? c = some k) (hd : hexValue? d = some l) :
    Piece.Spells (.ofCode (((i * 16 + j) * 16 + k) * 16 + l)) ['\\', 'u', a, b, c, d]

/-- The ways to write a string between its quotes, piece by piece. -/
inductive Spelling.Spells : Spelling → List Char → Prop
  | nil : Spelling.Spells [] []
  | cons {piece : Piece} {pieces : Spelling} {text rest : List Char} (hpiece : piece.Spells text)
      (hrest : Spelling.Spells pieces rest) :
    Spelling.Spells (piece :: pieces) (text ++ rest)

/-! ## Numerals -/

/-- The shape of a numeral that JSON can write. -/
structure Numeral.IsProper (n : Numeral) : Prop where
  whole_ne_nil : n.whole ≠ []
  whole_digits : ∀ c ∈ n.whole, c.isDigit = true
  /-- A leading zero is the only digit. -/
  eq_nil_of_leading_zero : ∀ digits, n.whole = '0' :: digits → digits = []
  fraction_digits : ∀ c ∈ n.fraction, c.isDigit = true
  exponent_digits : ∀ c ∈ n.exponent, c.isDigit = true
  /-- Where there is no exponent, there is no sign of one. -/
  exponentNegative_eq_false : n.exponent = [] → n.exponentNegative = false

def Numeral.signChars (n : Numeral) : List Char :=
  if n.negative then ['-'] else []

/-- The ways to write the exponent of a numeral. -/
inductive Numeral.ExponentSpells (n : Numeral) : List Char → Prop
  | none (h : n.exponent = []) : Numeral.ExponentSpells n []
  | plain {mark : Char} (hmark : mark = 'e' ∨ mark = 'E') (h : n.exponent ≠ [])
      (hsign : n.exponentNegative = false) : Numeral.ExponentSpells n (mark :: n.exponent)
  | plus {mark : Char} (hmark : mark = 'e' ∨ mark = 'E') (h : n.exponent ≠ [])
      (hsign : n.exponentNegative = false) : Numeral.ExponentSpells n (mark :: '+' :: n.exponent)
  | minus {mark : Char} (hmark : mark = 'e' ∨ mark = 'E') (h : n.exponent ≠ [])
      (hsign : n.exponentNegative = true) : Numeral.ExponentSpells n (mark :: '-' :: n.exponent)

/-- The ways to write a numeral. -/
inductive Numeral.Spells (n : Numeral) : List Char → Prop
  | intro {exponent : List Char} (hn : n.IsProper) (he : n.ExponentSpells exponent) :
    Numeral.Spells n (n.signChars ++ n.whole ++ n.fractionChars ++ exponent)

/-! ## Values -/

mutual

/-- The ways to write a value. -/
inductive Spells : Value → List Char → Prop
  | null : Spells .null ['n', 'u', 'l', 'l']
  | wordTrue : Spells (.bool true) ['t', 'r', 'u', 'e']
  | wordFalse : Spells (.bool false) ['f', 'a', 'l', 's', 'e']
  | number {numeral : Numeral} {text : List Char} (h : numeral.Spells text) :
    Spells (.number numeral) text
  | string {spelling : Spelling} {text : List Char} (h : spelling.Spells text) :
    Spells (.string spelling) ('"' :: (text ++ ['"']))
  | emptyArray {blank : List Char} (h : IsBlank blank) :
    Spells (.array [] .closed) ('[' :: (blank ++ [']']))
  | array {items : List Value} {text : List Char} (h : SpellsItems items text) :
    Spells (.array items .closed) ('[' :: (text ++ [']']))
  | emptyObject {blank : List Char} (h : IsBlank blank) :
    Spells (.object [] .closed) ('\x7b' :: (blank ++ ['\x7d']))
  | object {members : List Member} {text : List Char} (h : SpellsMembers members text) :
    Spells (.object members .closed) ('\x7b' :: (text ++ ['\x7d']))

/-- The ways to write a value with blanks around it: an item of an array, what follows the colon of
a member, or a whole text. -/
inductive SpellsPadded : Value → List Char → Prop
  | intro {value : Value} {before text after : List Char} (hbefore : IsBlank before)
      (h : Spells value text) (hafter : IsBlank after) :
    SpellsPadded value (before ++ (text ++ after))

/-- The ways to write one or more items of an array. -/
inductive SpellsItems : List Value → List Char → Prop
  | last {value : Value} {text : List Char} (h : SpellsPadded value text) :
    SpellsItems [value] text
  | cons {value : Value} {values : List Value} {text rest : List Char}
      (h : SpellsPadded value text) (hrest : SpellsItems values rest) :
    SpellsItems (value :: values) (text ++ ',' :: rest)

/-- The ways to write a member of an object. -/
inductive SpellsMember : Member → List Char → Prop
  | intro {key : Spelling} {value : Value} {before name between text : List Char}
      (hbefore : IsBlank before) (hname : key.Spells name) (hbetween : IsBlank between)
      (h : SpellsPadded value text) :
    SpellsMember (key, value) (before ++ ('"' :: (name ++ '"' :: (between ++ ':' :: text))))

/-- The ways to write one or more members of an object. -/
inductive SpellsMembers : List Member → List Char → Prop
  | last {member : Member} {text : List Char} (h : SpellsMember member text) :
    SpellsMembers [member] text
  | cons {member : Member} {members : List Member} {text rest : List Char}
      (h : SpellsMember member text) (hrest : SpellsMembers members rest) :
    SpellsMembers (member :: members) (text ++ ',' :: rest)

end

theorem Spells.padded {value : Value} {text : List Char} (h : Spells value text) :
    SpellsPadded value text := by
  have hpadded := SpellsPadded.intro .nil h .nil
  rwa [List.nil_append, List.append_nil] at hpadded

end Interconnect.Json
