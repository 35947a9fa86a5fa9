import Interconnect.Proofs.Json.Scalars

/-!
# Numerals that may end are spelled

`Numeral.Begins` says at every stage of a numeral which text has been read of it.  Each character
keeps it true (`Numeral.Begins.push`), and where a numeral may end, the text read spells it
(`Numeral.Begins.spells`).
-/

namespace Interconnect.Json

namespace Numeral

/-- The text of a numeral before its exponent. -/
def sizeChars (n : Numeral) : List Char :=
  n.signChars ++ n.whole ++ n.fractionChars

/-- Neither a point nor the mark of an exponent has been read. -/
def IsWhole (n : Numeral) : Prop :=
  n.fraction = [] ∧ n.exponent = []

/-- The text that has been read of a numeral at a stage.  The digits are in the order of the text.
Behind the sign of an exponent the numeral is not proper yet, since the digits are missing. -/
inductive Begins (n : Numeral) : Stage → List Char → Prop
  | sign (h : n = ⟨true, [], [], false, []⟩) : Begins n .sign ['-']
  | zero (hn : n.IsProper) (h : n.IsWhole) : Begins n .zero n.sizeChars
  | whole (hn : n.IsProper) (h : n.IsWhole) (hhead : ∀ digits, n.whole ≠ '0' :: digits) :
    Begins n .whole n.sizeChars
  | point (hn : n.IsProper) (h : n.IsWhole) : Begins n .point (n.sizeChars ++ ['.'])
  | fraction (hn : n.IsProper) (h : n.fraction ≠ []) (he : n.exponent = []) :
    Begins n .fraction n.sizeChars
  | exponentMark {mark : Char} (hn : n.IsProper) (hmark : mark = 'e' ∨ mark = 'E')
      (he : n.exponent = []) : Begins n .exponentMark (n.sizeChars ++ [mark])
  | exponentSign {mark : Char} (hn : { n with exponentNegative := false }.IsProper)
      (hmark : mark = 'e' ∨ mark = 'E') (he : n.exponent = []) :
    Begins n .exponentSign (n.sizeChars ++ [mark, if n.exponentNegative then '-' else '+'])
  | exponent {text : List Char} (hn : n.IsProper) (h : n.exponent ≠ [])
      (he : n.ExponentSpells text) : Begins n .exponent (n.sizeChars ++ text)

/-! ## One digit more -/

section

variable {n : Numeral} {c : Char}

theorem sizeChars_of_fraction_eq_nil (h : n.fraction = []) :
    n.sizeChars = n.signChars ++ n.whole := by
  simp [sizeChars, fractionChars, h]

theorem sizeChars_push_whole (h : n.fraction = []) :
    { n with whole := n.whole ++ [c] }.sizeChars = n.sizeChars ++ [c] := by
  rw [sizeChars_of_fraction_eq_nil h, sizeChars_of_fraction_eq_nil (by exact h), List.append_assoc]
  rfl

theorem sizeChars_push_fraction (h : n.fraction ≠ []) :
    { n with fraction := n.fraction ++ [c] }.sizeChars = n.sizeChars ++ [c] := by
  simp [sizeChars, fractionChars, signChars, h]

theorem sizeChars_first_fraction (h : n.fraction = []) :
    { n with fraction := [c] }.sizeChars = n.sizeChars ++ ['.'] ++ [c] := by
  simp [sizeChars, fractionChars, signChars, h]

theorem ExponentSpells.push {text : List Char} (h : n.ExponentSpells text)
    (hne : n.exponent ≠ []) :
    { n with exponent := n.exponent ++ [c] }.ExponentSpells (text ++ [c]) := by
  have hpush : n.exponent ++ [c] ≠ [] := by simp
  cases h with
  | none h => exact absurd h hne
  | plain hmark _ hsign => exact .plain hmark hpush hsign
  | plus hmark _ hsign => exact .plus hmark hpush hsign
  | minus hmark _ hsign => exact .minus hmark hpush hsign

theorem ExponentSpells.signed {mark : Char} (hmark : mark = 'e' ∨ mark = 'E')
    (h : n.exponent ≠ []) :
    n.ExponentSpells ([mark, if n.exponentNegative then '-' else '+'] ++ n.exponent) := by
  cases hsign : n.exponentNegative with
  | false => exact .plus hmark h hsign
  | true => exact .minus hmark h hsign

/-- The sign of an exponent does not matter as long as there are no digits behind it. -/
theorem IsProper.with_exponentNegative_false (hn : n.IsProper) (he : n.exponent = []) :
    { n with exponentNegative := false }.IsProper := by
  have hsame : { n with exponentNegative := false } = n := by
    rw [← hn.exponentNegative_eq_false he]
  exact hsame ▸ hn

variable (hc : c.isDigit = true)

include hc

theorem digits_append {digits : List Char} (h : ∀ d ∈ digits, d.isDigit = true) :
    ∀ d ∈ digits ++ [c], d.isDigit = true := by
  intro d hd
  rcases List.mem_append.mp hd with hd | hd
  · exact h d hd
  · exact List.mem_singleton.mp hd ▸ hc

theorem isProper_digit (negative : Bool) : IsProper ⟨negative, [c], [], false, []⟩ where
  whole_ne_nil := by simp
  whole_digits := by simpa using hc
  eq_nil_of_leading_zero digits h := (List.cons.inj h).2.symm
  fraction_digits := by simp
  exponent_digits := by simp
  exponentNegative_eq_false _ := rfl

theorem IsProper.push_whole (hn : n.IsProper) (hhead : ∀ digits, n.whole ≠ '0' :: digits) :
    { n with whole := n.whole ++ [c] }.IsProper :=
  { hn with
    whole_ne_nil := by simp
    whole_digits := digits_append hc hn.whole_digits
    eq_nil_of_leading_zero := by
      intro digits h
      obtain ⟨d, rest, hwhole⟩ := List.exists_cons_of_ne_nil hn.whole_ne_nil
      rw [hwhole] at h
      injection h with hd _
      exact absurd (hd ▸ hwhole) (hhead rest) }

theorem IsProper.push_fraction (hn : n.IsProper) :
    { n with fraction := n.fraction ++ [c] }.IsProper :=
  { hn with fraction_digits := digits_append hc hn.fraction_digits }

/-- Where an exponent has begun, its sign is free. -/
theorem IsProper.push_exponent {exponentNegative : Bool}
    (hn : { n with exponentNegative }.IsProper) :
    { n with exponent := n.exponent ++ [c] }.IsProper :=
  { hn with
    exponent_digits := digits_append hc hn.exponent_digits
    exponentNegative_eq_false := by simp }

theorem IsProper.first_exponent {exponentNegative : Bool}
    (hn : { n with exponentNegative }.IsProper) (he : n.exponent = []) :
    { n with exponent := [c] }.IsProper := by
  have hproper := hn.push_exponent hc
  rwa [he] at hproper

end

/-! ## One character more -/

section

variable {n m : Numeral} {stage next : Stage} {c : Char} {text : List Char}

theorem inOrder_push_whole :
    inOrder { n with whole := c :: n.whole } =
      { n.inOrder with whole := n.inOrder.whole ++ [c] } := by
  simp [inOrder]

theorem inOrder_push_fraction :
    inOrder { n with fraction := c :: n.fraction } =
      { n.inOrder with fraction := n.inOrder.fraction ++ [c] } := by
  simp [inOrder]

theorem inOrder_push_exponent :
    inOrder { n with exponent := c :: n.exponent } =
      { n.inOrder with exponent := n.inOrder.exponent ++ [c] } := by
  simp [inOrder]

theorem eq_of_inOrder_eq {negative : Bool} (h : n.inOrder = ⟨negative, [], [], false, []⟩) :
    n = ⟨negative, [], [], false, []⟩ := by
  cases n
  simpa [inOrder] using h

/-- Where a numeral may end, its text spells it. -/
theorem Begins.spells (h : n.Begins stage text) (hend : stage.mayEnd = true) : n.Spells text := by
  cases h with
  | zero hn h =>
    have hspells := Spells.intro hn (.none h.2)
    rwa [List.append_nil] at hspells
  | whole hn h =>
    have hspells := Spells.intro hn (.none h.2)
    rwa [List.append_nil] at hspells
  | fraction hn _ he =>
    have hspells := Spells.intro hn (.none he)
    rwa [List.append_nil] at hspells
  | exponent hn _ he => exact .intro hn he
  | _ => cases hend

theorem begins_firstDigit (hc : c.isDigit = true) (negative : Bool) :
    Begins ⟨negative, [c], [], false, []⟩ (firstStage c)
      ((if negative then ['-'] else []) ++ [c]) := by
  have hn := isProper_digit hc negative
  unfold firstStage
  split
  · next hzero =>
    have hbegins := Begins.zero hn ⟨rfl, rfl⟩
    rwa [sizeChars_of_fraction_eq_nil rfl] at hbegins
  · next hzero =>
    have hbegins := Begins.whole hn ⟨rfl, rfl⟩ fun _ h ↦ hzero (List.cons.inj h).1
    rwa [sizeChars_of_fraction_eq_nil rfl] at hbegins

theorem begins_push_sign (h : n.inOrder = ⟨true, [], [], false, []⟩)
    (hnext : Stage.sign.next? n c = some (next, m)) :
    m.inOrder.Begins next (['-'] ++ [c]) := by
  have hn := eq_of_inOrder_eq h
  subst hn
  cases hdigit : c.isDigit with
  | true =>
    rw [next?_sign hdigit] at hnext
    cases hnext
    exact begins_firstDigit hdigit true
  | false =>
    have hzero : c ≠ '0' := by
      intro h
      simp [h] at hdigit
    simp [Stage.next?, hzero, hdigit] at hnext

theorem begins_push_zero (hn : n.inOrder.IsProper) (h : n.inOrder.IsWhole)
    (hnext : Stage.zero.next? n c = some (next, m)) :
    m.inOrder.Begins next (n.inOrder.sizeChars ++ [c]) := by
  simp only [Stage.next?] at hnext
  split at hnext
  · next hpoint =>
    cases hnext
    subst hpoint
    exact .point hn h
  split at hnext
  · next hmark =>
    cases hnext
    exact .exponentMark hn hmark h.2
  · cases hnext

theorem begins_push_whole (hn : n.inOrder.IsProper) (h : n.inOrder.IsWhole)
    (hhead : ∀ digits, n.inOrder.whole ≠ '0' :: digits)
    (hnext : Stage.whole.next? n c = some (next, m)) :
    m.inOrder.Begins next (n.inOrder.sizeChars ++ [c]) := by
  simp only [Stage.next?] at hnext
  split at hnext
  · next hdigit =>
    cases hnext
    rw [inOrder_push_whole, ← sizeChars_push_whole h.1]
    refine .whole (hn.push_whole hdigit hhead) h ?_
    intro digits hwhole
    obtain ⟨d, rest, hd⟩ := List.exists_cons_of_ne_nil hn.whole_ne_nil
    rw [hd] at hwhole
    exact hhead rest (hd.trans (congrArg (· :: rest) (List.cons.inj hwhole).1))
  split at hnext
  · next hpoint =>
    cases hnext
    subst hpoint
    exact .point hn h
  split at hnext
  · next hmark =>
    cases hnext
    exact .exponentMark hn hmark h.2
  · cases hnext

theorem begins_push_point (hn : n.inOrder.IsProper) (h : n.inOrder.IsWhole)
    (hnext : Stage.point.next? n c = some (next, m)) :
    m.inOrder.Begins next (n.inOrder.sizeChars ++ ['.'] ++ [c]) := by
  simp only [Stage.next?] at hnext
  split at hnext
  · next hdigit =>
    cases hnext
    have hproper := hn.push_fraction hdigit
    rw [h.1] at hproper
    rw [← sizeChars_first_fraction h.1]
    exact .fraction hproper (List.cons_ne_nil c []) h.2
  · cases hnext

theorem begins_push_fraction (hn : n.inOrder.IsProper) (h : n.inOrder.fraction ≠ [])
    (he : n.inOrder.exponent = [])
    (hnext : Stage.fraction.next? n c = some (next, m)) :
    m.inOrder.Begins next (n.inOrder.sizeChars ++ [c]) := by
  simp only [Stage.next?] at hnext
  split at hnext
  · next hdigit =>
    cases hnext
    rw [inOrder_push_fraction, ← sizeChars_push_fraction h]
    exact .fraction (hn.push_fraction hdigit) (by simp) he
  split at hnext
  · next hmark =>
    cases hnext
    exact .exponentMark hn hmark he
  · cases hnext

theorem begins_push_exponentMark {mark : Char} (hn : n.inOrder.IsProper)
    (hmark : mark = 'e' ∨ mark = 'E') (he : n.inOrder.exponent = [])
    (hnext : Stage.exponentMark.next? n c = some (next, m)) :
    m.inOrder.Begins next (n.inOrder.sizeChars ++ [mark] ++ [c]) := by
  have hnegative := hn.exponentNegative_eq_false he
  simp only [Stage.next?] at hnext
  split at hnext
  · next hplus =>
    cases hnext
    have hsign : (if n.inOrder.exponentNegative = true then '-' else '+') = c := by
      rw [hnegative, hplus]
      rfl
    rw [List.append_assoc, ← hsign]
    exact .exponentSign (hn.with_exponentNegative_false he) hmark he
  split at hnext
  · next hminus =>
    cases hnext
    rw [List.append_assoc, hminus]
    exact .exponentSign (n := { n.inOrder with exponentNegative := true })
      (hn.with_exponentNegative_false he) hmark he
  split at hnext
  · next hdigit =>
    cases hnext
    rw [List.append_assoc]
    exact .exponent (hn.first_exponent hdigit he) (List.cons_ne_nil c [])
      (.plain hmark (List.cons_ne_nil c []) hnegative)
  · cases hnext

theorem begins_push_exponentSign {mark : Char}
    (hn : { n.inOrder with exponentNegative := false }.IsProper)
    (hmark : mark = 'e' ∨ mark = 'E') (he : n.inOrder.exponent = [])
    (hnext : Stage.exponentSign.next? n c = some (next, m)) :
    m.inOrder.Begins next
      (n.inOrder.sizeChars ++ [mark, if n.inOrder.exponentNegative then '-' else '+'] ++ [c]) := by
  simp only [Stage.next?] at hnext
  split at hnext
  · next hdigit =>
    cases hnext
    rw [List.append_assoc]
    exact .exponent (hn.first_exponent hdigit he) (List.cons_ne_nil c [])
      (.signed hmark (List.cons_ne_nil c []))
  · cases hnext

theorem begins_push_exponent {exponent : List Char} (hn : n.inOrder.IsProper)
    (h : n.inOrder.exponent ≠ []) (he : n.inOrder.ExponentSpells exponent)
    (hnext : Stage.exponent.next? n c = some (next, m)) :
    m.inOrder.Begins next (n.inOrder.sizeChars ++ exponent ++ [c]) := by
  simp only [Stage.next?] at hnext
  split at hnext
  · next hdigit =>
    cases hnext
    rw [inOrder_push_exponent, List.append_assoc]
    exact .exponent (hn.push_exponent hdigit) (by simp) (he.push h)
  · cases hnext

/-- A character that a numeral goes on with is one more of its text. -/
theorem Begins.push (h : n.inOrder.Begins stage text)
    (hnext : stage.next? n c = some (next, m)) : m.inOrder.Begins next (text ++ [c]) := by
  cases h with
  | sign h => exact begins_push_sign h hnext
  | zero hn h => exact begins_push_zero hn h hnext
  | whole hn h hhead => exact begins_push_whole hn h hhead hnext
  | point hn h => exact begins_push_point hn h hnext
  | fraction hn h he => exact begins_push_fraction hn h he hnext
  | exponentMark hn hmark he => exact begins_push_exponentMark hn hmark he hnext
  | exponentSign hn hmark he => exact begins_push_exponentSign hn hmark he hnext
  | exponent hn h he => exact begins_push_exponent hn h he hnext

theorem Begins.advance {read : List Char} (h : n.inOrder.Begins stage read)
    (hadvance : stage.advance? n text = some (next, m)) :
    m.inOrder.Begins next (read ++ text) := by
  induction text generalizing stage n read with
  | nil =>
    cases hadvance
    rwa [List.append_nil]
  | cons c text ih =>
    cases hnext : stage.next? n c with
    | none =>
      rw [Stage.advance?, List.foldlM_cons, hnext] at hadvance
      cases hadvance
    | some reached =>
      rw [Stage.advance?_cons hnext] at hadvance
      rw [List.append_cons]
      exact ih (h.push hnext) hadvance

end

end Numeral

end Interconnect.Json
