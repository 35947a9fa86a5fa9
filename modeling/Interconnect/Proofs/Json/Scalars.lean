import Interconnect.Proofs.Json.Grammar

/-!
# Reading strings and numerals

What the reader does with the text of a string or a numeral, whatever arrays and objects are open
around it.  A string ends at its quote (`run_string`).  A numeral does not end by itself; at the end
of its text the reader holds it with its digits last first (`Numeral.Spells.run`).
-/

namespace Interconnect.Json

/-- The state after more text. -/
def State.run (state : State) (text : List Char) : State :=
  text.foldl State.step state

namespace State

@[simp]
theorem run_nil (state : State) : state.run [] = state := rfl

@[simp]
theorem run_cons (state : State) (c : Char) (text : List Char) :
    state.run (c :: text) = (state.step c).run text := rfl

@[simp]
theorem run_append (state : State) (a b : List Char) :
    state.run (a ++ b) = (state.run a).run b :=
  List.foldl_append

theorem run_blank (state : State) (h : ∀ c, isSpace c = true → state.step c = state)
    {blank : List Char} (hblank : IsBlank blank) : state.run blank = state := by
  induction blank with
  | nil => rfl
  | cons c blank ih =>
    obtain ⟨hc, hrest⟩ := List.forall_mem_cons.mp hblank
    rw [run_cons, h c hc]
    exact ih hrest

end State

theorem scan_eq_run (text : String) : scan text = (State.start.run text.toList).finish := by
  rw [scan, String.foldl_eq_foldl_toList]
  rfl

/-! ## Strings -/

theorem toNat_le_of_le {c d : Char} (h : c ≤ d) : c.toNat ≤ d.toNat :=
  UInt32.le_iff_toNat_le.mp (Char.le_def.mp h)

theorem toNat_le_of_hexValue? {c : Char} {n : ℕ} (h : hexValue? c = some n) : c.toNat ≤ 127 := by
  unfold hexValue? at h
  split at h
  · next hdigit => exact Nat.le_trans (Char.isDigit_iff_toNat.mp hdigit).2 (by decide)
  split at h
  · next hletter => exact Nat.le_trans (toNat_le_of_le hletter.2) (by decide)
  split at h
  · next hletter => exact Nat.le_trans (toNat_le_of_le hletter.2) (by decide)
  · cases h

theorem utf8Size_of_hexValue? {c : Char} {n : ℕ} (h : hexValue? c = some n) : c.utf8Size = 1 :=
  Char.utf8Size_eq_one_iff.mpr (UInt32.le_iff_toNat_le.mpr (toNat_le_of_hexValue? h))

section Strings

variable {role : Role} {pieces : Spelling} {frames : List Frame}

theorem stepString_hex {bytes code n : ℕ} {c : Char} (hc : hexValue? c = some n)
    (hbytes : bytes < 3) :
    stepString role pieces (.hex bytes (some code)) frames c =
      .reading (.string role pieces (.hex (bytes + 1) (some (code * 16 + n)))) frames := by
  simp only [stepString, utf8Size_of_hexValue? hc, hc]
  rw [if_pos (by omega)]
  rfl

theorem stepString_hex_last {code n : ℕ} {c : Char} (hc : hexValue? c = some n) :
    stepString role pieces (.hex 3 (some code)) frames c =
      .reading (.string role (Piece.ofCode (code * 16 + n) :: pieces) .none) frames := by
  simp only [stepString, utf8Size_of_hexValue? hc, hc]
  rfl

theorem run_piece {piece : Piece} {text : List Char} (h : piece.Spells text) :
    (State.reading (.string role pieces .none) frames).run text =
      .reading (.string role (piece :: pieces) .none) frames := by
  cases h with
  | @raw c hquote hslash hcontrol =>
    change stepString role pieces .none frames c = _
    rw [stepString, if_neg hquote, if_neg hslash, if_neg (Nat.not_lt.mpr hcontrol)]
  | @letter letter c hletter =>
    have hu : letter ≠ 'u' := by
      intro h
      rw [h] at hletter
      cases hletter
    change stepString role pieces .backslash frames letter = _
    simp only [stepString]
    rw [if_neg hu, hletter]
  | @code a b c d i j k l ha hb hc hd =>
    change (stepString role pieces (.hex 0 (some 0)) frames a).run [b, c, d] = _
    rw [stepString_hex ha (by omega), Nat.zero_mul, Nat.zero_add i]
    change (stepString role pieces (.hex 1 (some i)) frames b).run [c, d] = _
    rw [stepString_hex hb (by omega)]
    change (stepString role pieces (.hex 2 (some (i * 16 + j))) frames c).run [d] = _
    rw [stepString_hex hc (by omega)]
    exact stepString_hex_last hd

theorem run_spelling {spelling : Spelling} {text : List Char} (h : spelling.Spells text) :
    (State.reading (.string role pieces .none) frames).run text =
      .reading (.string role (spelling.reverse ++ pieces) .none) frames := by
  induction h generalizing pieces with
  | nil => rfl
  | cons hpiece _ ih =>
    rw [State.run_append, run_piece hpiece, ih, List.reverse_cons, List.append_assoc]
    rfl

/-- From behind its opening quote a string is read up to and including the closing one. -/
theorem run_string {spelling : Spelling} {text : List Char} (h : spelling.Spells text) :
    (State.reading (.string role [] .none) frames).run (text ++ ['"']) =
      completeString role spelling frames := by
  rw [State.run_append, run_spelling h, List.append_nil]
  change completeString role spelling.reverse.reverse frames = _
  rw [List.reverse_reverse]

end Strings

/-! ## Numerals -/

theorem ne_of_isDigit {c d : Char} (hd : d.isDigit = true) (hc : c.isDigit = false) : d ≠ c := by
  intro h
  rw [h, hc] at hd
  exact Bool.false_ne_true hd

namespace Stage

/-- The stage, and the numeral with its digits last first, after more characters. -/
def advance? (stage : Stage) (n : Numeral) (text : List Char) : Option (Stage × Numeral) :=
  text.foldlM (fun reached c ↦ reached.1.next? reached.2 c) (stage, n)

theorem advance?_nil (stage : Stage) (n : Numeral) : stage.advance? n [] = some (stage, n) := rfl

theorem advance?_cons {stage next : Stage} {n m : Numeral} {c : Char}
    (h : stage.next? n c = some (next, m)) (text : List Char) :
    stage.advance? n (c :: text) = next.advance? m text := by
  rw [advance?, List.foldlM_cons, h]
  rfl

/-- Digits stay in a stage that takes them in one after the other. -/
theorem advance?_digits {stage : Stage} (push : List Char → Numeral → Numeral)
    (hnil : ∀ n, push [] n = n)
    (hcons : ∀ n c digits, c.isDigit = true →
      stage.next? n c = some (stage, push [c] n) ∧ push digits (push [c] n) = push (c :: digits) n)
    (n : Numeral) {digits : List Char} (h : ∀ c ∈ digits, c.isDigit = true) :
    stage.advance? n digits = some (stage, push digits n) := by
  induction digits generalizing n with
  | nil => rw [advance?_nil, hnil]
  | cons c digits ih =>
    obtain ⟨hc, hdigits⟩ := List.forall_mem_cons.mp h
    obtain ⟨hnext, hpush⟩ := hcons n c digits hc
    rw [advance?_cons hnext, ih (push [c] n) hdigits, hpush]

theorem advance?_whole (n : Numeral) {digits : List Char}
    (h : ∀ c ∈ digits, c.isDigit = true) :
    whole.advance? n digits = some (whole, { n with whole := digits.reverse ++ n.whole }) := by
  refine advance?_digits (fun digits n ↦ { n with whole := digits.reverse ++ n.whole })
    (fun n ↦ rfl) (fun n c digits hc ↦ ⟨?_, ?_⟩) n h
  · rw [next?, if_pos hc]
    rfl
  · simp only [List.reverse_cons, List.append_assoc]
    rfl

theorem advance?_fraction (n : Numeral) {digits : List Char}
    (h : ∀ c ∈ digits, c.isDigit = true) :
    fraction.advance? n digits =
      some (fraction, { n with fraction := digits.reverse ++ n.fraction }) := by
  refine advance?_digits
    (fun digits n ↦ { n with fraction := digits.reverse ++ n.fraction })
    (fun n ↦ rfl) (fun n c digits hc ↦ ⟨?_, ?_⟩) n h
  · rw [next?, if_pos hc]
    rfl
  · simp only [List.reverse_cons, List.append_assoc]
    rfl

theorem advance?_exponent (n : Numeral) {digits : List Char}
    (h : ∀ c ∈ digits, c.isDigit = true) :
    exponent.advance? n digits =
      some (exponent, { n with exponent := digits.reverse ++ n.exponent }) := by
  refine advance?_digits
    (fun digits n ↦ { n with exponent := digits.reverse ++ n.exponent })
    (fun n ↦ rfl) (fun n c digits hc ↦ ⟨?_, ?_⟩) n h
  · rw [next?, if_pos hc]
    rfl
  · simp only [List.reverse_cons, List.append_assoc]
    rfl

end Stage

theorem run_number {stage next : Stage} {n m : Numeral} {text : List Char} {frames : List Frame}
    (h : stage.advance? n text = some (next, m)) :
    (State.reading (.number stage n) frames).run text = .reading (.number next m) frames := by
  induction text generalizing stage n with
  | nil =>
    cases h
    rfl
  | cons c text ih =>
    cases hnext : stage.next? n c with
    | none =>
      rw [Stage.advance?, List.foldlM_cons, hnext] at h
      cases h
    | some reached =>
      rw [Stage.advance?_cons hnext] at h
      rw [State.run_cons]
      change (stepNumber stage n frames c).run text = _
      rw [stepNumber, hnext]
      exact ih h

namespace Numeral

variable {n : Numeral}

/-- What has been read of a numeral before its fraction. -/
def beforePoint (n : Numeral) : Numeral :=
  ⟨n.negative, n.whole.reverse, [], false, []⟩

/-- What has been read of a numeral before its exponent. -/
def beforeMark (n : Numeral) : Numeral :=
  { n.beforePoint with fraction := n.fraction.reverse }

/-- What has been read of a numeral at its end. -/
def atEnd (n : Numeral) : Numeral :=
  { n.beforeMark with exponentNegative := n.exponentNegative, exponent := n.exponent.reverse }

theorem inOrder_atEnd (n : Numeral) : n.atEnd.inOrder = n := by
  simp only [inOrder, atEnd, beforeMark, beforePoint, List.reverse_reverse]

theorem advance?_fractionChars {stage : Stage} (hstage : stage = .zero ∨ stage = .whole)
    (hn : n.IsProper) :
    ∃ next, (next = .zero ∨ next = .whole ∨ next = .fraction) ∧
      stage.advance? n.beforePoint n.fractionChars = some (next, n.beforeMark) := by
  have hdigits := hn.fraction_digits
  cases hf : n.fraction with
  | nil =>
    refine ⟨stage, hstage.imp_right .inl, ?_⟩
    rw [fractionChars, beforeMark, hf]
    rfl
  | cons d digits =>
    rw [hf] at hdigits
    obtain ⟨hd, hdigits⟩ := List.forall_mem_cons.mp hdigits
    refine ⟨.fraction, .inr (.inr rfl), ?_⟩
    have hpoint : stage.next? n.beforePoint '.' = some (.point, n.beforePoint) := by
      rcases hstage with rfl | rfl <;> rfl
    have hfirst : Stage.point.next? n.beforePoint d =
        some (.fraction, { n.beforePoint with fraction := [d] }) := by
      rw [Stage.next?, if_pos hd]
    rw [fractionChars, beforeMark, hf]
    change stage.advance? n.beforePoint ('.' :: d :: digits) = _
    rw [Stage.advance?_cons hpoint, Stage.advance?_cons hfirst, Stage.advance?_fraction _ hdigits,
      List.reverse_cons]

/-- The digits of an exponent, right behind its mark or behind its sign. -/
theorem advance?_exponentDigits {stage : Stage}
    (hstage : stage = .exponentMark ∨ stage = .exponentSign) (m : Numeral) {digits : List Char}
    (hne : digits ≠ []) (hdigits : ∀ c ∈ digits, c.isDigit = true) :
    stage.advance? m digits = some (.exponent, { m with exponent := digits.reverse }) := by
  obtain ⟨d, digits, rfl⟩ := List.exists_cons_of_ne_nil hne
  obtain ⟨hd, hdigits⟩ := List.forall_mem_cons.mp hdigits
  have hplus : d ≠ '+' := ne_of_isDigit hd rfl
  have hminus : d ≠ '-' := ne_of_isDigit hd rfl
  have hfirst : stage.next? m d = some (.exponent, { m with exponent := [d] }) := by
    rcases hstage with rfl | rfl
    · rw [Stage.next?, if_neg hplus, if_neg hminus, if_pos hd]
    · rw [Stage.next?, if_pos hd]
  rw [Stage.advance?_cons hfirst, Stage.advance?_exponent _ hdigits, List.reverse_cons]

theorem advance?_exponentSpells {stage : Stage} {text : List Char}
    (hstage : stage = .zero ∨ stage = .whole ∨ stage = .fraction) (hn : n.IsProper)
    (h : n.ExponentSpells text) :
    ∃ next : Stage, next.mayEnd = true ∧
      stage.advance? n.beforeMark text = some (next, n.atEnd) := by
  have hmark {mark : Char} (hmark : mark = 'e' ∨ mark = 'E') :
      stage.next? n.beforeMark mark = some (.exponentMark, n.beforeMark) := by
    rcases hstage with rfl | rfl | rfl <;> rcases hmark with rfl | rfl <;> rfl
  have hdigits := hn.exponent_digits
  cases h with
  | none h =>
    refine ⟨stage, ?_, ?_⟩
    · rcases hstage with rfl | rfl | rfl <;> rfl
    · rw [atEnd, h, hn.exponentNegative_eq_false h]
      rfl
  | plain hm h hsign =>
    refine ⟨.exponent, rfl, ?_⟩
    rw [Stage.advance?_cons (hmark hm), advance?_exponentDigits (.inl rfl) _ h hdigits, atEnd,
      hsign]
    rfl
  | plus hm h hsign =>
    refine ⟨.exponent, rfl, ?_⟩
    have hplus : Stage.exponentMark.next? n.beforeMark '+' =
        some (.exponentSign, n.beforeMark) := rfl
    rw [Stage.advance?_cons (hmark hm), Stage.advance?_cons hplus,
      advance?_exponentDigits (.inr rfl) _ h hdigits, atEnd, hsign]
    rfl
  | minus hm h hsign =>
    refine ⟨.exponent, rfl, ?_⟩
    have hminus : Stage.exponentMark.next? n.beforeMark '-' =
        some (.exponentSign, { n.beforeMark with exponentNegative := true }) := rfl
    rw [Stage.advance?_cons (hmark hm), Stage.advance?_cons hminus,
      advance?_exponentDigits (.inr rfl) _ h hdigits, atEnd, hsign]

/-- Where a numeral stands behind its first digit. -/
def firstStage (d : Char) : Stage :=
  if d = '0' then .zero else .whole

theorem begin_digit {d : Char} (hd : d.isDigit = true) (frames : List Frame) :
    begin frames d = .reading (.number (firstStage d) ⟨false, [d], [], false, []⟩) frames := by
  have hne {c : Char} (hc : c.isDigit = false) : d ≠ c := ne_of_isDigit hd hc
  unfold begin firstStage
  rw [if_neg (hne rfl), if_neg (hne rfl), if_neg (hne rfl), if_neg (hne rfl), if_neg (hne rfl),
    if_neg (hne rfl), if_neg (hne rfl)]
  by_cases hzero : d = '0'
  · rw [if_pos hzero, if_pos hzero]
  · rw [if_neg hzero, if_neg hzero, if_pos hd]

theorem next?_sign {d : Char} (hd : d.isDigit = true) (m : Numeral) :
    Stage.sign.next? m d = some (firstStage d, { m with whole := [d] }) := by
  unfold Stage.next? firstStage
  by_cases hzero : d = '0'
  · simp only [if_pos hzero]
  · simp only [if_neg hzero, if_pos hd]

theorem isSpace_digit {d : Char} (hd : d.isDigit = true) : isSpace d = false := by
  have hne {c : Char} (hc : c.isDigit = false) : (d == c) = false :=
    beq_eq_false_iff_ne.mpr (ne_of_isDigit hd hc)
  rw [isSpace, hne rfl, hne rfl, hne rfl, hne rfl]
  rfl

/-- The digits behind the first one.  A leading zero is followed by none. -/
theorem advance?_whole_of_isProper (hn : n.IsProper) {d : Char} {digits : List Char}
    (hwhole : n.whole = d :: digits) :
    ∃ stage, (stage = Stage.zero ∨ stage = Stage.whole) ∧
      (firstStage d).advance? ⟨n.negative, [d], [], false, []⟩ digits =
        some (stage, n.beforePoint) := by
  have hdigits := hn.whole_digits
  rw [hwhole] at hdigits
  unfold firstStage beforePoint
  rw [hwhole]
  by_cases hzero : d = '0'
  · subst hzero
    have hnil := hn.eq_nil_of_leading_zero digits hwhole
    subst hnil
    exact ⟨.zero, .inl rfl, rfl⟩
  · refine ⟨.whole, .inr rfl, ?_⟩
    rw [if_neg hzero, Stage.advance?_whole _ (List.forall_mem_cons.mp hdigits).2,
      List.reverse_cons]

/-- The digits before the point, from the first character of the numeral on. -/
theorem run_whole (hn : n.IsProper) (frames : List Frame) :
    ∃ stage, (stage = Stage.zero ∨ stage = Stage.whole) ∧
      (State.reading .value frames).run (n.signChars ++ n.whole) =
        .reading (.number stage n.beforePoint) frames := by
  obtain ⟨d, digits, hwhole⟩ := List.exists_cons_of_ne_nil hn.whole_ne_nil
  have hd : d.isDigit = true := hn.whole_digits d (hwhole ▸ List.mem_cons_self)
  obtain ⟨stage, hstage, hadvance⟩ := advance?_whole_of_isProper hn hwhole
  refine ⟨stage, hstage, ?_⟩
  have hfirst : (State.reading .value frames).run (n.signChars ++ [d]) =
      .reading (.number (firstStage d) ⟨n.negative, [d], [], false, []⟩) frames := by
    unfold signChars
    cases n.negative with
    | false =>
      change (if isSpace d = true then State.reading .value frames else begin frames d) = _
      rw [isSpace_digit hd, if_neg Bool.false_ne_true, begin_digit hd]
    | true =>
      change stepNumber .sign ⟨true, [], [], false, []⟩ frames d = _
      rw [stepNumber, next?_sign hd]
  have happend : n.signChars ++ n.whole = n.signChars ++ [d] ++ digits := by
    rw [hwhole, List.append_assoc]
    rfl
  rw [happend, State.run_append, hfirst, run_number hadvance]

/-- A numeral is read to its last digit, at which it may end. -/
theorem Spells.run {text : List Char} (h : n.Spells text) (frames : List Frame) :
    ∃ stage : Stage, stage.mayEnd = true ∧
      (State.reading .value frames).run text = .reading (.number stage n.atEnd) frames := by
  obtain ⟨hn, he⟩ := h
  obtain ⟨stage, hstage, hwhole⟩ := run_whole hn frames
  obtain ⟨stage', hstage', hfraction⟩ := advance?_fractionChars hstage hn
  obtain ⟨last, hlast, hexponent⟩ := advance?_exponentSpells hstage' hn he
  refine ⟨last, hlast, ?_⟩
  rw [State.run_append, State.run_append, hwhole, run_number hfraction, run_number hexponent]

end Numeral

end Interconnect.Json
