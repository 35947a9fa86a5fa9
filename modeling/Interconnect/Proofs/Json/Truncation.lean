import Interconnect.Json.Number
import Interconnect.Proofs.Json.Soundness

/-!
# Texts that end too early

What the reader makes of the beginning of a text depends on the value of the whole text only.
`Remains` says what may be left of a value when its text breaks off: of an array or object the parts
that were read, and of a numeral its first digits.  Whatever part of a value has been read, the text
then ends in what remains of the value, and the break counts as truncation for whoever reads it
(`Spells.breaksOff`).  An object that lacks its last character is always cut (`Spells.scan_object`).

A lone surrogate would be malformed wherever the text ends.  The values spoken of here are therefore
legible: each of their strings is a text.
-/

namespace Interconnect.Json

/-! ## Legible values -/

mutual

/-- Every string in the value, keys included, is a text. -/
def Value.IsLegible : Value → Prop
  | .null => True
  | .bool _ => True
  | .number _ => True
  | .string spelling => spelling.text?.isSome = true
  | .array items _ => AreLegible items
  | .object members _ => MembersAreLegible members

def AreLegible : List Value → Prop
  | [] => True
  | item :: items => item.IsLegible ∧ AreLegible items

def MembersAreLegible : List Member → Prop
  | [] => True
  | (key, value) :: members =>
    key.text?.isSome = true ∧ value.IsLegible ∧ MembersAreLegible members

end

/-! ## What is left of a value -/

mutual

/-- What may be left of a value when the text ends in it or right behind it. -/
inductive Remains : Value → Option Value → Prop
  | nothing (value : Value) : Remains value none
  | whole (value : Value) : Remains value (some value)
  | number {n m : Numeral} {text rest : List Char} (hm : m.Spells text)
      (hn : n.Spells (text ++ rest)) : Remains (.number n) (some (.number m))
  | array {items left : List Value} {comma : Bool} {fault : Break}
      (h : RemainsOfItems items left) (hfault : fault.read = .truncated) :
    Remains (.array items .closed) (some (.array left (.cut comma fault)))
  | object {members left : List Member} {key? : Option Spelling} {fault : Break}
      (h : RemainsOfMembers members left key?) (hfault : fault.read = .truncated) :
    Remains (.object members .closed) (some (.object left (.cut key? fault)))

inductive RemainsOfItems : List Value → List Value → Prop
  | nothing (items : List Value) : RemainsOfItems items []
  | last {item left : Value} (h : Remains item (some left)) (items : List Value) :
    RemainsOfItems (item :: items) [left]
  | cons {items left : List Value} (item : Value) (h : RemainsOfItems items left) :
    RemainsOfItems (item :: items) (item :: left)

/-- What may be left of the members of an object, with the key that was read last if nothing is left
of its value. -/
inductive RemainsOfMembers : List Member → List Member → Option Spelling → Prop
  | nothing (members : List Member) : RemainsOfMembers members [] none
  | key (key : Spelling) (value : Value) (members : List Member) :
    RemainsOfMembers ((key, value) :: members) [] (some key)
  | last {value left : Value} (h : Remains value (some left)) (key : Spelling)
      (members : List Member) : RemainsOfMembers ((key, value) :: members) [(key, left)] none
  | cons {members left : List Member} {key? : Option Spelling} (member : Member)
      (h : RemainsOfMembers members left key?) :
    RemainsOfMembers (member :: members) (member :: left) key?

end

/-- Whatever is left of items is left of one of them. -/
theorem RemainsOfItems.exists_mem {items left : List Value} (h : RemainsOfItems items left)
    {value : Value} (hvalue : value ∈ left) : ∃ item ∈ items, Remains item (some value) := by
  induction items generalizing left with
  | nil =>
    cases h with
    | nothing => exact absurd hvalue List.not_mem_nil
  | cons item items ih =>
    cases h with
    | nothing => exact absurd hvalue List.not_mem_nil
    | last h => exact ⟨item, List.mem_cons_self, List.mem_singleton.mp hvalue ▸ h⟩
    | cons _ hrest =>
      rcases List.mem_cons.mp hvalue with rfl | hvalue
      · exact ⟨value, List.mem_cons_self, .whole value⟩
      · obtain ⟨other, hother, hremains⟩ := ih hrest hvalue
        exact ⟨other, List.mem_cons_of_mem item hother, hremains⟩

/-- The scan of a text that ends in a value, given what is left of the value and what is open around
it. -/
def leave (fault : Break) (frames : List Frame) : Option Value → Scan
  | none => cutLeaf fault frames
  | some value => .value (closeFrames fault value frames) false

/-! ## Prefixes -/

/-- The beginning of two texts ends within the first or goes on into the second. -/
theorem within_or_beyond {pre first second : List Char} (h : pre <+: first ++ second) :
    pre <+: first ∨ ∃ more, pre = first ++ more ∧ more <+: second := by
  rcases List.prefix_or_prefix_of_prefix h (List.prefix_append first second) with hwithin | hbeyond
  · exact .inl hwithin
  · obtain ⟨more, rfl⟩ := hbeyond
    exact .inr ⟨more, rfl, (List.prefix_append_right_inj first).mp h⟩

variable {frames : List Frame} {pre : List Char}

theorem IsBlank.of_isPrefix {blank : List Char} (h : IsBlank blank) (hpre : pre <+: blank) :
    IsBlank pre :=
  fun c hc ↦ h c (hpre.subset hc)

theorem eq_nil_of_isPrefix_singleton {c : Char} (hpre : pre <+: [c]) (hne : pre ≠ [c]) :
    pre = [] := by
  rcases List.prefix_cons_iff.mp hpre with rfl | ⟨p, rfl, hp⟩
  · rfl
  · rw [List.prefix_nil.mp hp] at hne
    exact absurd rfl hne

theorem finish_complete (value : Value) (frames : List Frame) :
    (complete value frames).finish = leave .truncated frames (some value) := by
  cases frames with
  | nil => rfl
  | cons frame frames => cases frame <;> rfl

theorem Holds.finish_eq_leave {value : Value} {state : State} (h : Holds value frames state) :
    state.finish = leave .truncated frames (some value) := by
  cases h with
  | complete => exact finish_complete value frames
  | number n _ hend =>
    rw [← finish_complete]
    simp only [State.finish, hend, if_true]
    cases frames with
    | nil => rfl
    | cons frame frames => cases frame <;> rfl

/-- In the state, the text may end in the value or right behind it. -/
def BreaksOff (value : Value) (frames : List Frame) (state : State) : Prop :=
  ∃ fault left?, fault.read = .truncated ∧ Remains value left? ∧
    state.finish = leave fault frames left?

/-- In the state, the text may end in the items of an array, others being done. -/
def BreaksOffItems (items done : List Value) (frames : List Frame) (state : State) : Prop :=
  ∃ fault left comma, fault.read = .truncated ∧ RemainsOfItems items left ∧
    state.finish =
      .value (closeFrames fault (.array (done.reverse ++ left) (.cut comma fault)) frames) false

/-- In the state, the text may end in the members of an object, others being done. -/
def BreaksOffMembers (members done : List Member) (frames : List Frame) (state : State) : Prop :=
  ∃ fault left key?, fault.read = .truncated ∧ RemainsOfMembers members left key? ∧
    state.finish =
      .value (closeFrames fault (.object (done.reverse ++ left) (.cut key? fault)) frames) false

theorem BreaksOffMembers.object {members : List Member} {state : State}
    (h : BreaksOffMembers members [] frames state) :
    BreaksOff (.object members .closed) frames state := by
  obtain ⟨fault, left, key?, hfault, hleft, hfinish⟩ := h
  exact ⟨fault, _, hfault, .object hleft hfault, hfinish⟩

theorem BreaksOff.nothing (value : Value) (frames : List Frame) :
    BreaksOff value frames (.reading .value frames) :=
  ⟨.truncated, none, rfl, .nothing value, rfl⟩

theorem BreaksOff.of_holds {value : Value} {state : State} (h : Holds value frames state) :
    BreaksOff value frames state :=
  ⟨.truncated, some value, rfl, .whole value, h.finish_eq_leave⟩

theorem BreaksOff.items {value : Value} {done : List Value} {state : State}
    (h : BreaksOff value (.array done :: frames) state) (values : List Value) :
    BreaksOffItems (value :: values) done frames state := by
  obtain ⟨fault, left?, hfault, hleft, hfinish⟩ := h
  cases left? with
  | none => exact ⟨fault, [], _, hfault, .nothing _, by rw [hfinish, List.append_nil]; rfl⟩
  | some left =>
    refine ⟨fault, [left], false, hfault, .last hleft values, ?_⟩
    rw [hfinish, ← List.reverse_cons]
    rfl

theorem BreaksOffMembers.noMember {blank : List Char} (h : IsBlank blank) (frames : List Frame) :
    BreaksOffMembers [] [] frames ((State.reading (.key true []) frames).run blank) := by
  rw [run_blank_key h]
  exact ⟨.truncated, [], none, rfl, .nothing [], rfl⟩

theorem BreaksOff.members {key : Spelling} {value : Value} {done : List Member} {state : State}
    (h : BreaksOff value (.object done key :: frames) state) (members : List Member) :
    BreaksOffMembers ((key, value) :: members) done frames state := by
  obtain ⟨fault, left?, hfault, hleft, hfinish⟩ := h
  cases left? with
  | none => exact ⟨fault, [], _, hfault, .key key value members, by rw [hfinish, List.append_nil]; rfl⟩
  | some left =>
    refine ⟨fault, [(key, left)], none, hfault, .last hleft key members, ?_⟩
    rw [hfinish, ← List.reverse_cons]
    rfl

theorem BreaksOffItems.cons {value : Value} {values done : List Value} {state : State}
    (h : BreaksOffItems values (value :: done) frames state) :
    BreaksOffItems (value :: values) done frames state := by
  obtain ⟨fault, left, comma, hfault, hleft, hfinish⟩ := h
  rw [List.reverse_cons, List.append_assoc] at hfinish
  exact ⟨fault, value :: left, comma, hfault, .cons value hleft, hfinish⟩

theorem BreaksOffMembers.cons {member : Member} {members done : List Member} {state : State}
    (h : BreaksOffMembers members (member :: done) frames state) :
    BreaksOffMembers (member :: members) done frames state := by
  obtain ⟨fault, left, key?, hfault, hleft, hfinish⟩ := h
  rw [List.reverse_cons, List.append_assoc] at hfinish
  exact ⟨fault, member :: left, key?, hfault, .cons member hleft, hfinish⟩

/-! ## Strings -/

namespace Spelling

/-- The beginning of a text can always be completed, be it in the middle of a surrogate pair. -/
theorem isCompletable_of_append {a b : Spelling} (h : (text? (a ++ b)).isSome = true) :
    isCompletable a = true := by
  unfold isCompletable text? at *
  generalize "" = start at *
  rw [Bool.or_eq_true]
  induction start, a using appendTo?.induct with
  | case1 start => exact .inl rfl
  | case2 start c rest ih => exact ih h
  | case3 start high low rest ih => exact ih h
  | case4 start high rest hne =>
    cases rest with
    | nil => exact .inr rfl
    | cons piece rest =>
      exfalso
      cases piece with
      | low bits => exact hne bits rest rfl
      | char c => cases h
      | high bits => cases h
  | case5 start low rest => cases h

end Spelling

section Strings

variable {role : Role} {pieces : Spelling}

/-- Before an escape sequence ends, nothing is added to the string. -/
theorem Escape.Ends.exists_run_of_isPrefix {escape : Escape} {piece : Piece} {text : List Char}
    (h : escape.Ends piece text) (hpre : pre <+: text) (hne : pre ≠ text) :
    ∃ escape', (State.reading (.string role pieces escape) frames).run pre =
      .reading (.string role pieces escape') frames := by
  induction h generalizing pre with
  | letter _ =>
    rw [eq_nil_of_isPrefix_singleton hpre hne]
    exact ⟨_, rfl⟩
  | code _ ih =>
    rcases List.prefix_cons_iff.mp hpre with rfl | ⟨p, rfl, hp⟩
    · exact ⟨_, rfl⟩
    · exact ih hp fun heq ↦ hne (heq ▸ rfl)
  | @digit bytes code n c piece digits hc hmore _ ih =>
    rcases List.prefix_cons_iff.mp hpre with rfl | ⟨p, rfl, hp⟩
    · exact ⟨_, rfl⟩
    · obtain ⟨escape', hrun⟩ := ih hp fun heq ↦ hne (heq ▸ rfl)
      refine ⟨escape', ?_⟩
      rw [← hrun, State.run_cons]
      change (stepString role pieces (.hex bytes (some code)) frames c).run p = _
      rw [stepString_hex hc (by omega)]
  | lastDigit _ _ =>
    rw [eq_nil_of_isPrefix_singleton hpre hne]
    exact ⟨_, rfl⟩

theorem Piece.Spells.exists_run_of_isPrefix {piece : Piece} {text : List Char} (h : piece.Spells text)
    (hpre : pre <+: text) (hne : pre ≠ text) :
    ∃ escape, (State.reading (.string role pieces .none) frames).run pre =
      .reading (.string role pieces escape) frames := by
  have hslash {piece : Piece} {digits : List Char} (hends : Escape.backslash.Ends piece digits)
      (hpre : pre <+: '\\' :: digits) (hne : pre ≠ '\\' :: digits) :
      ∃ escape, (State.reading (.string role pieces .none) frames).run pre =
        .reading (.string role pieces escape) frames := by
    rcases List.prefix_cons_iff.mp hpre with rfl | ⟨p, rfl, hp⟩
    · exact ⟨_, rfl⟩
    · exact hends.exists_run_of_isPrefix hp fun heq ↦ hne (heq ▸ rfl)
  cases h with
  | raw =>
    rw [eq_nil_of_isPrefix_singleton hpre hne]
    exact ⟨_, rfl⟩
  | letter h => exact hslash (.letter h) hpre hne
  | @code a b c d i j k l ha hb hc hd =>
    have hends : Escape.Ends (.hex 0 (some 0)) _ [a, b, c, d] :=
      .digit ha (by decide) (.digit hb (by decide) (.digit hc (by decide)
        (.lastDigit hd (by decide))))
    exact hslash (.code hends) hpre hne

/-- Whatever part of a string has been read, its pieces are the first of the string. -/
theorem Spelling.Spells.exists_run_of_isPrefix {spelling : Spelling} {text : List Char}
    (h : spelling.Spells text) (hpre : pre <+: text) :
    ∃ read escape, read <+: spelling ∧
      (State.reading (.string role pieces .none) frames).run pre =
        .reading (.string role (read.reverse ++ pieces) escape) frames := by
  induction h generalizing pieces pre with
  | nil =>
    rw [List.prefix_nil.mp hpre]
    exact ⟨[], .none, List.prefix_rfl, rfl⟩
  | @cons piece spelling text rest hpiece _ ih =>
    rcases within_or_beyond hpre with hp | ⟨q, rfl, hq⟩
    · by_cases heq : pre = text
      · rw [heq, run_piece hpiece]
        exact ⟨[piece], .none, List.prefix_append [piece] spelling, rfl⟩
      · obtain ⟨escape, hrun⟩ := hpiece.exists_run_of_isPrefix hp heq
        exact ⟨[], escape, List.nil_prefix, hrun⟩
    · obtain ⟨read, escape, hread, hrun⟩ := @ih q (piece :: pieces) hq
      refine ⟨piece :: read, escape, (List.prefix_cons_inj piece).mpr hread, ?_⟩
      rw [State.run_append, run_piece hpiece, hrun, List.reverse_cons, List.append_assoc]
      rfl

/-- A text that ends inside a string ends too early, whatever has been read of the string. -/
theorem finish_string {spelling read : Spelling} (escape : Escape) (hread : read <+: spelling)
    (htext : spelling.text?.isSome = true) :
    (State.reading (.string role (read.reverse ++ []) escape) frames).finish =
      cut .truncated (.string role (read.reverse ++ []) escape) frames := by
  obtain ⟨rest, rfl⟩ := hread
  have hfault : (Mode.string role (read.reverse ++ []) escape).faultAtEnd = .truncated := by
    refine if_pos ?_
    rw [List.append_nil, List.reverse_reverse]
    exact Spelling.isCompletable_of_append htext
  rw [State.finish, hfault]
  intro stage n hmode
  cases hmode

end Strings

/-! ## Numerals -/

namespace Stage

variable {stage mid last : Stage} {n m k : Numeral} {a b : List Char}

theorem advance?_append (ha : stage.advance? n a = some (mid, m))
    (hb : mid.advance? m b = some (last, k)) : stage.advance? n (a ++ b) = some (last, k) := by
  rw [advance?, List.foldlM_append]
  change stage.advance? n a >>= _ = _
  rw [ha]
  exact hb

theorem exists_advance?_of_append (h : stage.advance? n (a ++ b) = some (last, k)) :
    ∃ mid m, stage.advance? n a = some (mid, m) := by
  rw [advance?, List.foldlM_append] at h
  obtain ⟨⟨mid, m⟩, hmid, _⟩ := Option.bind_eq_some_iff.mp h
  exact ⟨mid, m, hmid⟩

end Stage

namespace Numeral

variable {n : Numeral} {text : List Char}

theorem Spells.isProper (h : n.Spells text) : n.IsProper := by
  obtain ⟨hn, _⟩ := h
  exact hn

/-- The digits of an integer are all there is to it apart from its sign. -/
theorem Spells.eq_of_isInteger (h : n.Spells text) (hinteger : n.isInteger = true) :
    text = n.signChars ++ n.whole := by
  rw [isInteger, Bool.and_eq_true, List.isEmpty_iff, List.isEmpty_iff] at hinteger
  obtain ⟨hfraction, hexponent⟩ := hinteger
  obtain ⟨hn, he⟩ := h
  cases he with
  | none => simp [fractionChars, hfraction]
  | plain _ hne => exact absurd hexponent hne
  | plus _ hne => exact absurd hexponent hne
  | minus _ hne => exact absurd hexponent hne

/-- A numeral has a fraction or an exponent only by a character that says so. -/
theorem Spells.isInteger_of_forall_mem (h : n.Spells text)
    (hchars : ∀ c ∈ text, c = '-' ∨ c.isDigit = true) : n.isInteger = true := by
  have hmark {c : Char} (hc : c ∈ text) (hne : c ≠ '-') (hdigit : c.isDigit = false) : False := by
    rcases hchars c hc with heq | hd
    · exact hne heq
    · exact Bool.false_ne_true (hdigit.symm.trans hd)
  obtain ⟨hn, he⟩ := h
  have hfraction : n.fraction = [] := by
    by_contra hne
    refine hmark (c := '.') ?_ (by decide) rfl
    simp [fractionChars, hne]
  have hexponent : n.exponent = [] := by
    by_contra hne
    cases he with
    | none h => exact hne h
    | @plain mark hmarks | @plus mark hmarks | @minus mark hmarks =>
      refine hmark (c := mark) (by simp) ?_ ?_ <;> rcases hmarks with rfl | rfl <;> decide
  rw [isInteger, hfraction, hexponent]
  rfl

/-- What remains of an integer is an integer with fewer digits. -/
theorem Spells.of_isPrefix {m : Numeral} {rest : List Char} (hm : m.Spells text)
    (hn : n.Spells (text ++ rest)) (hinteger : n.isInteger = true) :
    m.isInteger = true ∧ m.negative = n.negative ∧ m.whole ≠ [] ∧ m.whole <+: n.whole := by
  have hdigits := hn.isProper.whole_digits
  have htext := hn.eq_of_isInteger hinteger
  have hminteger : m.isInteger = true := by
    refine hm.isInteger_of_forall_mem fun c hc ↦ ?_
    have hmem : c ∈ n.signChars ++ n.whole := htext ▸ List.mem_append_left rest hc
    rcases List.mem_append.mp hmem with hsign | hwhole
    · unfold signChars at hsign
      split at hsign
      · exact .inl (List.mem_singleton.mp hsign)
      · exact absurd hsign List.not_mem_nil
    · exact .inr (hdigits c hwhole)
  rw [hm.eq_of_isInteger hminteger, List.append_assoc] at htext
  obtain ⟨d, digits, hd⟩ := List.exists_cons_of_ne_nil hm.isProper.whole_ne_nil
  obtain ⟨e, others, he⟩ := List.exists_cons_of_ne_nil hn.isProper.whole_ne_nil
  have hddigit : d.isDigit = true := hm.isProper.whole_digits d (hd ▸ List.mem_cons_self)
  have hedigit : e.isDigit = true := hdigits e (he ▸ List.mem_cons_self)
  -- A digit is no sign, so that either both numerals have a sign or none has.
  cases hmsign : m.negative <;> cases hnsign : n.negative <;>
    simp only [signChars, hmsign, hnsign, if_true, Bool.false_eq_true, if_false, List.nil_append,
      List.cons_append] at htext
  · exact ⟨hminteger, rfl, hm.isProper.whole_ne_nil, rest, htext⟩
  · rw [hd] at htext
    exact absurd (List.cons.inj htext).1 (ne_of_isDigit hddigit rfl)
  · rw [he] at htext
    exact absurd (List.cons.inj htext).1.symm (ne_of_isDigit hedigit rfl)
  · exact ⟨hminteger, rfl, hm.isProper.whole_ne_nil, rest, (List.cons.inj htext).2⟩

/-- Leaving out its last digits, and not all of them, makes an integer smaller, but not zero. -/
theorem IsProper.magnitude_of_isPrefix {m : Numeral} (hn : n.IsProper) (hm : m.whole ≠ [])
    (hwhole : m.whole <+: n.whole) :
    m.magnitude ≤ n.magnitude ∧ (0 < n.magnitude → 0 < m.magnitude) := by
  have hle (digits : List Char) (start : ℕ) : start ≤ Nat.ofDigitChars 10 digits start := by
    induction digits generalizing start with
    | nil => exact Nat.le_refl start
    | cons c digits ih =>
      rw [Nat.ofDigitChars_cons]
      exact Nat.le_trans (by omega) (ih _)
  obtain ⟨rest, hrest⟩ := hwhole
  have hmagnitude : n.magnitude = Nat.ofDigitChars 10 rest m.magnitude := by
    rw [magnitude, ← hrest, Nat.ofDigitChars_append]
    rfl
  refine ⟨hmagnitude ▸ hle rest m.magnitude, fun hpos ↦ ?_⟩
  obtain ⟨d, digits, hd⟩ := List.exists_cons_of_ne_nil hm
  rw [hd, List.cons_append] at hrest
  have hddigit : d.isDigit = true := hn.whole_digits d (hrest ▸ List.mem_cons_self)
  by_cases hzero : d = '0'
  · -- A leading zero is the only digit, and the number is zero.
    rw [hzero] at hrest
    have hnil := hn.eq_nil_of_leading_zero _ hrest.symm
    rw [magnitude, ← hrest, hnil] at hpos
    exact absurd hpos (by decide)
  · have hfirst : 0 < d.toNat - '0'.toNat := by
      have hne : d.toNat ≠ '0'.toNat := fun heq ↦ hzero (Char.toNat_inj.mp heq)
      have hge := (Char.isDigit_iff_toNat.mp hddigit).1
      omega
    rw [magnitude, hd, Nat.ofDigitChars_cons]
    exact Nat.lt_of_lt_of_le (by omega) (hle digits _)

/-- From its first character on, a numeral is read in stages. -/
theorem Spells.exists_advance (h : n.Spells text) :
    ∃ c rest stage m last, text = c :: rest ∧
      (∀ frames, (State.reading .value frames).step c = .reading (.number stage m) frames) ∧
      m.inOrder.Begins stage [c] ∧ stage.advance? m rest = some (last, n.atEnd) := by
  obtain @⟨exponent, hn, he⟩ := h
  obtain ⟨d, digits, hwhole⟩ := List.exists_cons_of_ne_nil hn.whole_ne_nil
  have hd : d.isDigit = true := hn.whole_digits d (hwhole ▸ List.mem_cons_self)
  obtain ⟨stage, hstage, hdigits⟩ := advance?_whole_of_isProper hn hwhole
  obtain ⟨stage', hstage', hfraction⟩ := advance?_fractionChars hstage hn
  obtain ⟨last, _, hexponent⟩ := advance?_exponentSpells hstage' hn he
  have hrest := Stage.advance?_append hdigits (Stage.advance?_append hfraction hexponent)
  cases hsign : n.negative with
  | false =>
    rw [hsign] at hrest
    have hbegins : (inOrder ⟨false, [d], [], false, []⟩).Begins (firstStage d) [d] :=
      begins_firstDigit hd false
    refine ⟨d, _, _, _, last, ?_, fun frames ↦ ?_, hbegins, hrest⟩
    · simp [signChars, hsign, hwhole]
    · change (if isSpace d = true then State.reading .value frames else begin frames d) = _
      rw [isSpace_digit hd, if_neg Bool.false_ne_true, begin_digit hd]
  | true =>
    rw [hsign] at hrest
    refine ⟨'-', d :: _, .sign, ⟨true, [], [], false, []⟩, last, ?_, fun frames ↦ rfl, .sign rfl,
      (Stage.advance?_cons (next?_sign hd _) _).trans hrest⟩
    simp [signChars, hsign, hwhole]

theorem Spells.breaksOff (h : n.Spells text) (hpre : pre <+: text) (frames : List Frame) :
    BreaksOff (.number n) frames ((State.reading .value frames).run pre) := by
  obtain ⟨rest, rfl⟩ := hpre
  obtain ⟨c, chars, stage, m, last, heq, hfirst, hbegins, hadvance⟩ := h.exists_advance
  cases pre with
  | nil => exact .nothing (.number n) frames
  | cons d p =>
    obtain ⟨rfl, rfl⟩ := List.cons.inj heq
    obtain ⟨mid, k, hmid⟩ := Stage.exists_advance?_of_append hadvance
    have hread := hbegins.advance hmid
    rw [State.run_cons, hfirst, run_number hmid]
    cases hend : mid.mayEnd with
    | true =>
      exact ⟨.truncated, some (.number k.inOrder), rfl, .number (hread.spells hend) h,
        (Holds.number k frames hend).finish_eq_leave⟩
    | false =>
      refine ⟨⟨.truncated, .malformed⟩, none, rfl, .nothing (.number n), ?_⟩
      simp only [State.finish, hend, Bool.false_eq_true, if_false]
      rfl

end Numeral

/-! ## Values -/

theorem exists_run_word {value : Value} {word : List Char} (hne : word ≠ [])
    (hpre : pre <+: word) :
    (State.reading (.word value word) frames).run pre = complete value frames ∨
      ∃ rest, (State.reading (.word value word) frames).run pre =
        .reading (.word value rest) frames := by
  induction word generalizing pre with
  | nil => exact absurd rfl hne
  | cons c word ih =>
    rcases List.prefix_cons_iff.mp hpre with rfl | ⟨p, rfl, hp⟩
    · exact .inr ⟨_, rfl⟩
    cases word with
    | nil =>
      rw [List.prefix_nil.mp hp]
      exact .inl (if_pos rfl)
    | cons d word =>
      have hstep : (State.reading (.word value (c :: d :: word)) frames).step c =
          .reading (.word value (d :: word)) frames := if_pos rfl
      rw [State.run_cons, hstep]
      exact ih (List.cons_ne_nil d word) hp

theorem breaksOff_word {value : Value} {c : Char} {word : List Char} (hne : word ≠ [])
    (hfirst : (State.reading .value frames).step c = .reading (.word value word) frames)
    (hpre : pre <+: c :: word) :
    BreaksOff value frames ((State.reading .value frames).run pre) := by
  rcases List.prefix_cons_iff.mp hpre with rfl | ⟨p, rfl, hp⟩
  · exact .nothing value frames
  · rw [State.run_cons, hfirst]
    rcases exists_run_word hne hp with hrun | ⟨rest, hrun⟩
    · rw [hrun]
      exact .of_holds (.complete value frames)
    · rw [hrun]
      exact ⟨.truncated, none, rfl, .nothing value, rfl⟩

theorem breaksOff_string {spelling : Spelling} {text : List Char} (h : spelling.Spells text)
    (htext : spelling.text?.isSome = true) (hpre : pre <+: '"' :: (text ++ ['"'])) :
    BreaksOff (.string spelling) frames ((State.reading .value frames).run pre) := by
  rcases List.prefix_cons_iff.mp hpre with rfl | ⟨p, rfl, hp⟩
  · exact .nothing (.string spelling) frames
  change BreaksOff _ frames ((State.reading (.string .value [] .none) frames).run p)
  rcases List.prefix_concat_iff.mp hp with rfl | hp
  · rw [run_string h]
    exact .of_holds (.complete (.string spelling) frames)
  · obtain ⟨read, escape, hread, hrun⟩ := h.exists_run_of_isPrefix hp
    refine ⟨.truncated, none, rfl, .nothing (.string spelling), ?_⟩
    rw [hrun, finish_string escape hread htext]
    rfl

/-- Behind an opening bracket a text ends as it does where an item has to begin. -/
theorem finish_firstItem {items : List Value} {text : List Char} (h : SpellsItems items text)
    (hpre : pre <+: text) :
    ((State.reading .firstItem frames).run pre).finish =
      ((State.reading .value (.array [] :: frames)).run pre).finish := by
  obtain ⟨value, first, more, ⟨hbefore, hvalue, _⟩, rfl⟩ := h.exists_padded
  obtain ⟨c, tail, rfl, hspace, hbracket⟩ := hvalue.exists_head
  rw [List.append_assoc] at hpre
  rcases within_or_beyond hpre with hp | ⟨p, rfl, hp⟩
  · rw [run_blank_firstItem (hbefore.of_isPrefix hp), run_blank_value (hbefore.of_isPrefix hp)]
    rfl
  rw [State.run_append, State.run_append, run_blank_firstItem hbefore, run_blank_value hbefore]
  rcases List.prefix_cons_iff.mp hp with rfl | ⟨q, rfl, _⟩
  · rfl
  · rw [State.run_cons, State.run_cons, step_firstItem hspace hbracket]

mutual

/-- A text that ends in a value leaves what may remain of the value. -/
theorem Spells.breaksOff : ∀ {value : Value} {text : List Char}, Spells value text →
    value.IsLegible → ∀ {pre : List Char}, pre <+: text → ∀ frames,
      BreaksOff value frames ((State.reading .value frames).run pre)
  | _, _, .null, _, pre, hpre, frames => breaksOff_word (List.cons_ne_nil _ _) rfl hpre
  | _, _, .wordTrue, _, pre, hpre, frames => breaksOff_word (List.cons_ne_nil _ _) rfl hpre
  | _, _, .wordFalse, _, pre, hpre, frames => breaksOff_word (List.cons_ne_nil _ _) rfl hpre
  | _, _, .number h, _, pre, hpre, frames => h.breaksOff hpre frames
  | _, _, .string h, htext, pre, hpre, frames => breaksOff_string h htext hpre
  | _, _, .emptyArray h, _, pre, hpre, frames => by
    rcases List.prefix_cons_iff.mp hpre with rfl | ⟨p, rfl, hp⟩
    · exact .nothing (.array [] .closed) frames
    change BreaksOff _ frames ((State.reading .firstItem frames).run p)
    rcases List.prefix_concat_iff.mp hp with rfl | hp
    · rw [State.run_append, run_blank_firstItem h]
      exact .of_holds (.complete (.array [] .closed) frames)
    · rw [run_blank_firstItem (h.of_isPrefix hp)]
      exact ⟨.truncated, _, rfl, .array (.nothing []) rfl, rfl⟩
  | _, _, @Spells.array items text h, hlegible, pre, hpre, frames => by
    rcases List.prefix_cons_iff.mp hpre with rfl | ⟨p, rfl, hp⟩
    · exact .nothing (.array items .closed) frames
    change BreaksOff _ frames ((State.reading .firstItem frames).run p)
    rcases List.prefix_concat_iff.mp hp with rfl | hp
    · rw [run_firstItem h, h.run [] frames]
      exact .of_holds (.complete (.array items .closed) frames)
    · obtain ⟨fault, left, comma, hfault, hleft, hfinish⟩ := h.breaksOff hlegible hp [] frames
      rw [← finish_firstItem h hp] at hfinish
      exact ⟨fault, _, hfault, .array hleft hfault, hfinish⟩
  | _, _, .emptyObject h, _, pre, hpre, frames => by
    rcases List.prefix_cons_iff.mp hpre with rfl | ⟨p, rfl, hp⟩
    · exact .nothing (.object [] .closed) frames
    change BreaksOff _ frames ((State.reading (.key true []) frames).run p)
    rcases List.prefix_concat_iff.mp hp with rfl | hp
    · rw [State.run_append, run_blank_key h]
      exact .of_holds (.complete (.object [] .closed) frames)
    · exact (BreaksOffMembers.noMember (h.of_isPrefix hp) frames).object
  | _, _, @Spells.object members text h, hlegible, pre, hpre, frames => by
    rcases List.prefix_cons_iff.mp hpre with rfl | ⟨p, rfl, hp⟩
    · exact .nothing (.object members .closed) frames
    change BreaksOff _ frames ((State.reading (.key true []) frames).run p)
    rcases List.prefix_concat_iff.mp hp with rfl | hp
    · rw [h.run true [] frames]
      exact .of_holds (.complete (.object members .closed) frames)
    · exact (h.breaksOff hlegible hp true [] frames).object

theorem SpellsPadded.breaksOff : ∀ {value : Value} {text : List Char}, SpellsPadded value text →
    value.IsLegible → ∀ {pre : List Char}, pre <+: text → ∀ frames,
      BreaksOff value frames ((State.reading .value frames).run pre)
  | value, _, .intro hbefore h hafter, hlegible, pre, hpre, frames => by
    rcases within_or_beyond hpre with hp | ⟨p, rfl, hp⟩
    · rw [run_blank_value (hbefore.of_isPrefix hp)]
      exact .nothing value frames
    rw [State.run_append, run_blank_value hbefore]
    rcases within_or_beyond hp with hp | ⟨q, rfl, hq⟩
    · exact h.breaksOff hlegible hp frames
    · rw [State.run_append]
      exact .of_holds ((h.run frames).run_blank (hafter.of_isPrefix hq))

theorem SpellsItems.breaksOff : ∀ {items : List Value} {text : List Char}, SpellsItems items text →
    AreLegible items → ∀ {pre : List Char}, pre <+: text → ∀ done frames,
      BreaksOffItems items done frames ((State.reading .value (.array done :: frames)).run pre)
  | _, _, .last h, hlegible, pre, hpre, done, frames =>
    (h.breaksOff hlegible.1 hpre _).items []
  | _, _, @SpellsItems.cons value values text rest h hrest, hlegible, pre, hpre, done, frames => by
    rcases within_or_beyond hpre with hp | ⟨p, rfl, hp⟩
    · exact (h.breaksOff hlegible.1 hp _).items values
    rcases List.prefix_cons_iff.mp hp with rfl | ⟨q, rfl, hq⟩
    · rw [List.append_nil]
      exact (h.breaksOff hlegible.1 List.prefix_rfl _).items values
    · rw [State.run_append, State.run_cons, (h.run _).step (.inr (.inl rfl))]
      exact (hrest.breaksOff hlegible.2 hq (value :: done) frames).cons

theorem SpellsMember.breaksOff : ∀ {member : Member} {text : List Char}, SpellsMember member text →
    MembersAreLegible [member] → ∀ {pre : List Char}, pre <+: text → ∀ mayClose done frames members,
      BreaksOffMembers (member :: members) done frames
        ((State.reading (.key mayClose done) frames).run pre)
  | _, _, @SpellsMember.intro key value before name between text hbefore hname hbetween h, hlegible,
      pre, hpre, mayClose, done, frames, members => by
    have hkey {p : List Char} (hp : p <+: name) :
        BreaksOffMembers ((key, value) :: members) done frames
          ((State.reading (.string (.key done) [] .none) frames).run p) := by
      obtain ⟨read, escape, hread, hrun⟩ := hname.exists_run_of_isPrefix hp
      refine ⟨.truncated, _, _, rfl, .nothing _, ?_⟩
      rw [hrun, finish_string escape hread hlegible.1, List.append_nil done.reverse]
      rfl
    have hcolon : BreaksOffMembers ((key, value) :: members) done frames
        (.reading (.colon done key) frames) :=
      ⟨.truncated, _, _, rfl, .key key value members, by rw [List.append_nil]; rfl⟩
    have hquote : BreaksOffMembers ((key, value) :: members) done frames
        (.reading (.key mayClose done) frames) :=
      ⟨.truncated, _, _, rfl, .nothing _, by rw [List.append_nil]; rfl⟩
    rcases within_or_beyond hpre with hp | ⟨p, rfl, hp⟩
    · rw [run_blank_key (hbefore.of_isPrefix hp)]
      exact hquote
    rw [State.run_append, run_blank_key hbefore]
    rcases List.prefix_cons_iff.mp hp with rfl | ⟨q, rfl, hq⟩
    · exact hquote
    change BreaksOffMembers _ _ _ ((State.reading (.string (.key done) [] .none) frames).run q)
    rcases within_or_beyond hq with hq' | ⟨r, rfl, hr⟩
    · exact hkey hq'
    rcases List.prefix_cons_iff.mp hr with rfl | ⟨s, rfl, hs⟩
    · rw [List.append_nil]
      exact hkey List.prefix_rfl
    rw [hname.run_key]
    rcases within_or_beyond hs with hs' | ⟨t, rfl, ht⟩
    · rw [run_blank_colon (hbetween.of_isPrefix hs')]
      exact hcolon
    rw [State.run_append, run_blank_colon hbetween]
    rcases List.prefix_cons_iff.mp ht with rfl | ⟨u, rfl, hu⟩
    · exact hcolon
    · exact (h.breaksOff hlegible.2.1 hu _).members members

theorem SpellsMembers.breaksOff : ∀ {members : List Member} {text : List Char},
    SpellsMembers members text → MembersAreLegible members → ∀ {pre : List Char}, pre <+: text →
      ∀ mayClose done frames, BreaksOffMembers members done frames
        ((State.reading (.key mayClose done) frames).run pre)
  | _, _, .last h, hlegible, pre, hpre, mayClose, done, frames =>
    h.breaksOff hlegible hpre mayClose done frames []
  | _, _, @SpellsMembers.cons member members text rest h hrest, hlegible, pre, hpre, mayClose,
      done, frames => by
    have hmember : MembersAreLegible [member] := ⟨hlegible.1, hlegible.2.1, trivial⟩
    rcases within_or_beyond hpre with hp | ⟨p, rfl, hp⟩
    · exact h.breaksOff hmember hp mayClose done frames members
    rcases List.prefix_cons_iff.mp hp with rfl | ⟨q, rfl, hq⟩
    · rw [List.append_nil]
      exact h.breaksOff hmember List.prefix_rfl mayClose done frames members
    · rw [State.run_append, State.run_cons, (h.run mayClose done frames).step (.inr (.inl rfl))]
      exact (hrest.breaksOff hlegible.2.2 hq false (member :: done) frames).cons

end

/-! ## Texts of objects -/

/-- Before its last character, an object is open. -/
theorem Spells.breaksOffMembers {members : List Member} {text : List Char}
    (h : Spells (.object members .closed) text) (hlegible : MembersAreLegible members)
    (hpre : pre <+: text) (hne : pre ≠ text) :
    pre = [] ∨ BreaksOffMembers members [] frames ((State.reading .value frames).run pre) := by
  have hopen {inner : List Char} (hpre : pre <+: '\x7b' :: (inner ++ ['\x7d']))
      (hne : pre ≠ '\x7b' :: (inner ++ ['\x7d']))
      (hinner : ∀ p, p <+: inner →
        BreaksOffMembers members [] frames ((State.reading (.key true []) frames).run p)) :
      pre = [] ∨ BreaksOffMembers members [] frames ((State.reading .value frames).run pre) := by
    rcases List.prefix_cons_iff.mp hpre with rfl | ⟨p, rfl, hp⟩
    · exact .inl rfl
    rcases List.prefix_concat_iff.mp hp with rfl | hp
    · exact absurd rfl hne
    · exact .inr (hinner p hp)
  cases h with
  | emptyObject h => exact hopen hpre hne fun p hp ↦ .noMember (h.of_isPrefix hp) frames
  | object h => exact hopen hpre hne fun p hp ↦ h.breaksOff hlegible hp true [] frames

/-- What the reader makes of the text of an object that lacks its end. -/
theorem Spells.scan_object {members : List Member} {text pre : String}
    (h : Spells (.object members .closed) text.toList) (hlegible : MembersAreLegible members)
    (hpre : pre.toList <+: text.toList) (hne : pre ≠ text) :
    ∃ fault, fault.read = .truncated ∧ (scan pre = .nothing fault ∨
      ∃ left key?, RemainsOfMembers members left key? ∧
        scan pre = .value (.object left (.cut key? fault)) false) := by
  have hne' : pre.toList ≠ text.toList := fun heq ↦ hne (String.toList_inj.mp heq)
  rw [scan_eq_run]
  rcases h.breaksOffMembers hlegible hpre hne' with hempty | h
  · rw [hempty]
    exact ⟨.truncated, rfl, .inl rfl⟩
  · obtain ⟨fault, left, key?, hfault, hleft, hfinish⟩ := h
    exact ⟨fault, hfault, .inr ⟨left, key?, hleft, hfinish⟩⟩

end Interconnect.Json
