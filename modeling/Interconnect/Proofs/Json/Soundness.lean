import Interconnect.Proofs.Json.Numerals
import Interconnect.Proofs.Json.Reading

/-!
# What is read is spelled

Every text that is read as a value without breaks is a way to write that value
(`spellsPadded_of_scan`).  The proof goes through the text from its end: `Completes` says which text
is still wanted in a state, in the words of the grammar, and a character that leads to a state from
which the rest completes a value completes it together with that rest (`Completes.of_step`).
-/

namespace Interconnect.Json

/-- The value does not end at a break.  Its parts may. -/
def Value.IsClosed : Value → Prop
  | .array _ ending => ending = .closed
  | .object _ ending => ending = .closed
  | _ => True

/-- The text that finishes an escape sequence, and the piece it then stands for. -/
inductive Escape.Ends : Escape → Piece → List Char → Prop
  | letter {letter c : Char} (h : escaped? letter = some c) : Ends .backslash (.char c) [letter]
  | code {piece : Piece} {digits : List Char} (h : Ends (.hex 0 (some 0)) piece digits) :
    Ends .backslash piece ('u' :: digits)
  | digit {bytes code n : ℕ} {c : Char} {piece : Piece} {digits : List Char}
      (hc : hexValue? c = some n) (hmore : bytes + 1 < 4)
      (h : Ends (.hex (bytes + 1) (some (code * 16 + n))) piece digits) :
    Ends (.hex bytes (some code)) piece (c :: digits)
  | lastDigit {bytes code n : ℕ} {c : Char} (hc : hexValue? c = some n) (hlast : ¬ bytes + 1 < 4) :
    Ends (.hex bytes (some code)) (.ofCode (code * 16 + n)) [c]

/-- The text that is wanted in a state, and the value that the whole text then holds. -/
inductive Completes : State → List Char → Value → Prop
  | finished {value : Value} {blank : List Char} (h : IsBlank blank) :
    Completes (.finished value) blank value
  | stopped {value : Value} {rest : List Char} (h : value.IsClosed) :
    Completes (.stopped (.value value false)) rest value
  | value {frames : List Frame} {inner result : Value} {text rest : List Char}
      (h : SpellsPadded inner text) (hrest : Completes (complete inner frames) rest result) :
    Completes (.reading .value frames) (text ++ rest) result
  | noItem {frames : List Frame} {result : Value} {blank rest : List Char} (hblank : IsBlank blank)
      (hrest : Completes (complete (.array [] .closed) frames) rest result) :
    Completes (.reading .firstItem frames) (blank ++ ']' :: rest) result
  | items {frames : List Frame} {items : List Value} {result : Value} {text rest : List Char}
      (h : SpellsItems items text)
      (hrest : Completes (complete (.array items .closed) frames) rest result) :
    Completes (.reading .firstItem frames) (text ++ ']' :: rest) result
  | endArray {frames : List Frame} {items : List Value} {result : Value} {blank rest : List Char}
      (hblank : IsBlank blank)
      (hrest : Completes (complete (.array items.reverse .closed) frames) rest result) :
    Completes (.reading (.afterItem items) frames) (blank ++ ']' :: rest) result
  | moreItems {frames : List Frame} {items more : List Value} {result : Value}
      {blank text rest : List Char} (hblank : IsBlank blank) (h : SpellsItems more text)
      (hrest : Completes (complete (.array (items.reverse ++ more) .closed) frames) rest result) :
    Completes (.reading (.afterItem items) frames) (blank ++ ',' :: (text ++ ']' :: rest)) result
  | noMember {frames : List Frame} {members : List Member} {result : Value}
      {blank rest : List Char} (hblank : IsBlank blank)
      (hrest : Completes (complete (.object members.reverse .closed) frames) rest result) :
    Completes (.reading (.key true members) frames) (blank ++ '\x7d' :: rest) result
  | members {frames : List Frame} {mayClose : Bool} {members more : List Member} {result : Value}
      {text rest : List Char} (h : SpellsMembers more text)
      (hrest :
        Completes (complete (.object (members.reverse ++ more) .closed) frames) rest result) :
    Completes (.reading (.key mayClose members) frames) (text ++ '\x7d' :: rest) result
  | colon {frames : List Frame} {members : List Member} {key : Spelling} {value result : Value}
      {blank text rest : List Char} (hblank : IsBlank blank) (h : SpellsPadded value text)
      (hrest : Completes (.reading (.afterMember ((key, value) :: members)) frames) rest result) :
    Completes (.reading (.colon members key) frames) (blank ++ ':' :: (text ++ rest)) result
  | endObject {frames : List Frame} {members : List Member} {result : Value}
      {blank rest : List Char} (hblank : IsBlank blank)
      (hrest : Completes (complete (.object members.reverse .closed) frames) rest result) :
    Completes (.reading (.afterMember members) frames) (blank ++ '\x7d' :: rest) result
  | moreMembers {frames : List Frame} {members more : List Member} {result : Value}
      {blank text rest : List Char} (hblank : IsBlank blank) (h : SpellsMembers more text)
      (hrest :
        Completes (complete (.object (members.reverse ++ more) .closed) frames) rest result) :
    Completes (.reading (.afterMember members) frames)
      (blank ++ ',' :: (text ++ '\x7d' :: rest)) result
  | string {frames : List Frame} {role : Role} {pieces more : Spelling} {result : Value}
      {text rest : List Char} (h : more.Spells text)
      (hrest : Completes (completeString role (pieces.reverse ++ more) frames) rest result) :
    Completes (.reading (.string role pieces .none) frames) (text ++ '"' :: rest) result
  | escape {frames : List Frame} {role : Role} {pieces : Spelling} {escape : Escape}
      {piece : Piece} {result : Value} {text rest : List Char} (h : escape.Ends piece text)
      (hrest : Completes (.reading (.string role (piece :: pieces) .none) frames) rest result) :
    Completes (.reading (.string role pieces escape) frames) (text ++ rest) result
  | word {frames : List Frame} {value result : Value} {word rest : List Char}
      (hrest : Completes (complete value frames) rest result) :
    Completes (.reading (.word value word) frames) (word ++ rest) result
  | number {frames : List Frame} {stage last : Stage} {n m : Numeral} {result : Value}
      {text rest : List Char} (h : stage.advance? n text = some (last, m))
      (hend : last.mayEnd = true)
      (hrest : Completes (complete (.number m.inOrder) frames) rest result) :
    Completes (.reading (.number stage n) frames) (text ++ rest) result

/-! ## Breaks -/

theorem not_isClosed_array {items : List Value} {rest : ArrayRest} {fault : Break} :
    ¬ (Value.array items (.cut rest fault)).IsClosed := by
  simp [Value.IsClosed]

theorem not_isClosed_object {members : List Member} {rest : ObjectRest} {fault : Break} :
    ¬ (Value.object members (.cut rest fault)).IsClosed := by
  simp [Value.IsClosed]

/-- What is open around a break breaks with it. -/
theorem not_isClosed_closeFrames {fault : Break} {inner : Value} (h : ¬ inner.IsClosed)
    (frames : List Frame) : ¬ (closeFrames fault inner frames).IsClosed := by
  induction frames generalizing inner with
  | nil => exact h
  | cons frame frames ih =>
    cases frame with
    | array items => exact ih not_isClosed_array
    | object members key => exact ih not_isClosed_object

variable {frames : List Frame} {mode : Mode} {result : Value} {rest : List Char} {c : Char}
  {fault : Break} {trailing : Bool}

theorem not_isClosed_of_cutLeaf (h : cutLeaf fault frames = .value result trailing) :
    ¬ result.IsClosed := by
  cases frames with
  | nil => cases h
  | cons frame frames =>
    cases frame with
    | array items =>
      cases h
      exact not_isClosed_closeFrames not_isClosed_array frames
    | object members key =>
      cases h
      exact not_isClosed_closeFrames not_isClosed_object frames

theorem not_isClosed_of_cut (h : cut fault mode frames = .value result trailing) :
    ¬ result.IsClosed := by
  unfold cut at h
  split at h
  case h_1 | h_2 =>
    cases h
    exact not_isClosed_closeFrames not_isClosed_array frames
  case h_3 | h_4 | h_5 | h_6 =>
    cases h
    exact not_isClosed_closeFrames not_isClosed_object frames
  all_goals exact not_isClosed_of_cutLeaf h

theorem not_completes_malformed : ¬ Completes (malformed mode frames) rest result := by
  intro h
  unfold malformed at h
  generalize hscan : cut .malformed mode frames = scan at h
  cases h with
  | stopped hclosed => exact not_isClosed_of_cut hscan hclosed

/-! ## Blanks -/

section

variable (hc : isSpace c = true)

include hc

theorem SpellsPadded.cons_blank {value : Value} {text : List Char} (h : SpellsPadded value text) :
    SpellsPadded value (c :: text) := by
  cases h with
  | intro hbefore h hafter => exact .intro (hbefore.cons hc) h hafter

theorem SpellsItems.cons_blank {items : List Value} {text : List Char}
    (h : SpellsItems items text) : SpellsItems items (c :: text) := by
  cases h with
  | last h => exact .last (h.cons_blank hc)
  | cons h hrest => exact .cons (h.cons_blank hc) hrest

theorem SpellsMember.cons_blank {member : Member} {text : List Char}
    (h : SpellsMember member text) : SpellsMember member (c :: text) := by
  cases h with
  | intro hbefore hname hbetween h => exact .intro (hbefore.cons hc) hname hbetween h

theorem SpellsMembers.cons_blank {members : List Member} {text : List Char}
    (h : SpellsMembers members text) : SpellsMembers members (c :: text) := by
  cases h with
  | last h => exact .last (h.cons_blank hc)
  | cons h hrest => exact .cons (h.cons_blank hc) hrest

theorem Completes.finished_blank {value : Value} (h : Completes (.finished value) rest result) :
    Completes (.finished value) (c :: rest) result := by
  cases h with
  | finished hblank => exact .finished (hblank.cons hc)

theorem Completes.value_blank (h : Completes (.reading .value frames) rest result) :
    Completes (.reading .value frames) (c :: rest) result := by
  cases h with
  | value h hrest => exact .value (h.cons_blank hc) hrest

theorem Completes.firstItem_blank (h : Completes (.reading .firstItem frames) rest result) :
    Completes (.reading .firstItem frames) (c :: rest) result := by
  cases h with
  | noItem hblank hrest => exact .noItem (hblank.cons hc) hrest
  | items h hrest => exact .items (h.cons_blank hc) hrest

theorem Completes.afterItem_blank {items : List Value}
    (h : Completes (.reading (.afterItem items) frames) rest result) :
    Completes (.reading (.afterItem items) frames) (c :: rest) result := by
  cases h with
  | endArray hblank hrest => exact .endArray (hblank.cons hc) hrest
  | moreItems hblank h hrest => exact .moreItems (hblank.cons hc) h hrest

theorem Completes.key_blank {mayClose : Bool} {members : List Member}
    (h : Completes (.reading (.key mayClose members) frames) rest result) :
    Completes (.reading (.key mayClose members) frames) (c :: rest) result := by
  cases h with
  | noMember hblank hrest => exact .noMember (hblank.cons hc) hrest
  | members h hrest => exact .members (h.cons_blank hc) hrest

theorem Completes.colon_blank {members : List Member} {key : Spelling}
    (h : Completes (.reading (.colon members key) frames) rest result) :
    Completes (.reading (.colon members key) frames) (c :: rest) result := by
  cases h with
  | colon hblank h hrest => exact .colon (hblank.cons hc) h hrest

theorem Completes.afterMember_blank {members : List Member}
    (h : Completes (.reading (.afterMember members) frames) rest result) :
    Completes (.reading (.afterMember members) frames) (c :: rest) result := by
  cases h with
  | endObject hblank hrest => exact .endObject (hblank.cons hc) hrest
  | moreMembers hblank h hrest => exact .moreMembers (hblank.cons hc) h hrest

end

theorem SpellsPadded.append_blank {value : Value} {text blank : List Char}
    (h : SpellsPadded value text) (hblank : IsBlank blank) :
    SpellsPadded value (text ++ blank) := by
  cases h with
  | intro hbefore h hafter =>
    rw [List.append_assoc, List.append_assoc]
    exact .intro hbefore h (hafter.append hblank)

/-! ## Items and members -/

/-- An item that completes an array may have others behind it. -/
theorem Completes.exists_items {items : List Value}
    (h : Completes (.reading .value (.array items :: frames)) rest result) :
    ∃ more text tail, rest = text ++ ']' :: tail ∧ SpellsItems more text ∧
      Completes (complete (.array (items.reverse ++ more) .closed) frames) tail result := by
  cases h with
  | @value _ inner _ text rest h hrest =>
    change Completes (.reading (.afterItem (inner :: items)) frames) _ _ at hrest
    cases hrest with
    | @endArray _ _ _ blank tail hblank hrest =>
      refine ⟨[inner], text ++ blank, tail, ?_, .last (h.append_blank hblank), ?_⟩
      · rw [List.append_assoc]
      · rwa [List.reverse_cons] at hrest
    | @moreItems _ _ more _ blank text' tail hblank hmore hrest =>
      refine ⟨inner :: more, text ++ blank ++ ',' :: text', tail, ?_,
        .cons (h.append_blank hblank) hmore, ?_⟩
      · simp
      · rwa [List.reverse_cons, List.append_assoc] at hrest

/-- A member that completes an object may have others behind it. -/
theorem Completes.exists_members {members : List Member}
    (h : Completes (.reading (.string (.key members) [] .none) frames) rest result) :
    ∃ more text tail, '"' :: rest = text ++ '\x7d' :: tail ∧ SpellsMembers more text ∧
      Completes (complete (.object (members.reverse ++ more) .closed) frames) tail result := by
  cases h with
  | escape h => cases h
  | @string _ _ _ key _ name rest hname hrest =>
    change Completes (.reading (.colon members key) frames) _ _ at hrest
    cases hrest with
    | @colon _ _ _ value _ between text rest hbetween h hrest =>
      have hmember (blank : List Char) (hblank : IsBlank blank) :
          SpellsMember (key, value) ('"' :: (name ++ '"' :: (between ++ ':' :: (text ++ blank)))) :=
        .intro .nil hname hbetween (h.append_blank hblank)
      cases hrest with
      | @endObject _ _ _ blank tail hblank hrest =>
        refine ⟨[(key, value)], _, tail, ?_, .last (hmember blank hblank), ?_⟩
        · simp
        · rwa [List.reverse_cons] at hrest
      | @moreMembers _ _ more _ blank text' tail hblank hmore hrest =>
        refine ⟨(key, value) :: more, _, tail, ?_, .cons (hmember blank hblank) hmore, ?_⟩
        · simp
        · rwa [List.reverse_cons, List.append_assoc] at hrest

/-! ## Strings -/

/-- Four hexadecimal digits, no more and no fewer, end an escape by code. -/
theorem Escape.Ends.spells {piece : Piece} {text : List Char} (h : Escape.backslash.Ends piece text) :
    piece.Spells ('\\' :: text) := by
  cases h with
  | letter h => exact .letter h
  | code h =>
    cases h with
    | lastDigit _ hlast => exact absurd (by decide) hlast
    | digit ha _ h =>
      cases h with
      | lastDigit _ hlast => exact absurd (by decide) hlast
      | digit hb _ h =>
        cases h with
        | lastDigit _ hlast => exact absurd (by decide) hlast
        | digit hc _ h =>
          cases h with
          | digit _ hmore _ => exact absurd hmore (by decide)
          | lastDigit hd _ => simpa using Piece.Spells.code ha hb hc hd

section

variable {role : Role} {pieces : Spelling}

theorem Completes.cons_piece {piece : Piece} {text : List Char} (hpiece : piece.Spells text)
    (h : Completes (.reading (.string role (piece :: pieces) .none) frames) rest result) :
    Completes (.reading (.string role pieces .none) frames) (text ++ rest) result := by
  cases h with
  | escape h => cases h
  | string hmore hrest =>
    rw [List.reverse_cons, List.append_assoc] at hrest
    rw [← List.append_assoc]
    exact .string (.cons hpiece hmore) hrest

theorem Completes.of_stepString {escape : Escape}
    (h : Completes (stepString role pieces escape frames c) rest result) :
    Completes (.reading (.string role pieces escape) frames) (c :: rest) result := by
  cases escape with
  | none =>
    simp only [stepString] at h
    split at h
    · next hquote =>
      rw [hquote]
      rw [← List.append_nil pieces.reverse] at h
      exact .string .nil h
    split at h
    · next hslash =>
      cases h with
      | escape hends hrest =>
        rw [hslash, ← List.cons_append]
        exact hrest.cons_piece hends.spells
    split at h
    · exact absurd h not_completes_malformed
    · next hquote hslash hcontrol =>
      exact h.cons_piece (.raw hquote hslash (Nat.not_lt.mp hcontrol))
  | backslash =>
    simp only [stepString] at h
    split at h
    · next hu =>
      cases h with
      | escape hends hrest =>
        rw [hu, ← List.cons_append]
        exact .escape (.code hends) hrest
    split at h
    · next d hd => exact .escape (.letter hd) h
    · exact absurd h not_completes_malformed
  | hex bytes code? =>
    cases hcode : code? with
    | none =>
      simp only [stepString, hcode] at h
      split at h
      · cases h with
        | escape hends => cases hends
      · exact absurd h not_completes_malformed
    | some code =>
      cases hdigit : hexValue? c with
      | none =>
        simp only [stepString, hcode, hdigit] at h
        split at h
        · cases h with
          | escape hends => cases hends
        · exact absurd h not_completes_malformed
      | some n =>
        simp only [stepString, hcode, hdigit, utf8Size_of_hexValue? hdigit] at h
        split at h
        · next hmore =>
          cases h with
          | escape hends hrest => exact .escape (.digit hdigit hmore hends) hrest
        · next hlast => exact .escape (.lastDigit hdigit hlast) h

end

/-! ## The first character of a value -/

theorem Completes.of_spells {inner : Value} {text : List Char} (h : Spells inner text)
    (hrest : Completes (complete inner frames) rest result) :
    Completes (.reading .value frames) (text ++ rest) result :=
  .value h.padded hrest

theorem Completes.of_number {stage : Stage} {n : Numeral} {text : List Char}
    (hbegins : n.inOrder.Begins stage text)
    (h : Completes (.reading (.number stage n) frames) rest result) :
    Completes (.reading .value frames) (text ++ rest) result := by
  cases h with
  | number hadvance hend hrest =>
    rw [← List.append_assoc]
    exact .of_spells (.number ((hbegins.advance hadvance).spells hend)) hrest

theorem Completes.of_firstDigit (hc : c.isDigit = true)
    (h : Completes (.reading (.number (Numeral.firstStage c) ⟨false, [c], [], false, []⟩) frames)
      rest result) : Completes (.reading .value frames) (c :: rest) result := by
  have hbegins : Numeral.Begins (Numeral.inOrder ⟨false, [c], [], false, []⟩)
      (Numeral.firstStage c) [c] := Numeral.begins_firstDigit hc false
  exact h.of_number hbegins

theorem Completes.of_begin (h : Completes (begin frames c) rest result) :
    Completes (.reading .value frames) (c :: rest) result := by
  unfold begin at h
  split at h
  · next hc =>
    subst hc
    cases h with
    | escape h => cases h
    | string hmore hrest => simpa using Completes.of_spells (.string hmore) hrest
  split at h
  · next hc =>
    subst hc
    cases h with
    | noItem hblank hrest => simpa using Completes.of_spells (.emptyArray hblank) hrest
    | items h hrest => simpa using Completes.of_spells (.array h) hrest
  split at h
  · next hc =>
    subst hc
    cases h with
    | noMember hblank hrest => simpa using Completes.of_spells (.emptyObject hblank) hrest
    | members h hrest => simpa using Completes.of_spells (.object h) hrest
  split at h
  · next hc =>
    subst hc
    cases h with
    | word hrest => exact .of_spells .null hrest
  split at h
  · next hc =>
    subst hc
    cases h with
    | word hrest => exact .of_spells .wordTrue hrest
  split at h
  · next hc =>
    subst hc
    cases h with
    | word hrest => exact .of_spells .wordFalse hrest
  split at h
  · next hc =>
    subst hc
    exact h.of_number (.sign rfl)
  split at h
  · next hc =>
    subst hc
    exact h.of_firstDigit rfl
  split at h
  · next hzero hdigit =>
    have hstage : Numeral.firstStage c = .whole := if_neg hzero
    rw [← hstage] at h
    exact h.of_firstDigit hdigit
  · exact absurd h not_completes_malformed

/-! ## Steps -/

theorem Completes.of_separate_finished {value : Value}
    (h : Completes (separate (.finished value) c) rest result) :
    Completes (.finished value) (c :: rest) result := by
  simp only [separate] at h
  split at h
  · next hc => exact h.finished_blank hc
  · cases h

theorem Completes.of_separate_afterItem {items : List Value}
    (h : Completes (separate (.reading (.afterItem items) frames) c) rest result) :
    Completes (.reading (.afterItem items) frames) (c :: rest) result := by
  simp only [separate] at h
  split at h
  · next hc => exact h.afterItem_blank hc
  split at h
  · next hc =>
    obtain ⟨more, text, tail, rfl, hmore, hrest⟩ := h.exists_items
    rw [hc]
    exact .moreItems .nil hmore hrest
  split at h
  · next hc =>
    rw [hc]
    exact .endArray .nil h
  · exact absurd h not_completes_malformed

theorem Completes.of_separate_afterMember {members : List Member}
    (h : Completes (separate (.reading (.afterMember members) frames) c) rest result) :
    Completes (.reading (.afterMember members) frames) (c :: rest) result := by
  simp only [separate] at h
  split at h
  · next hc => exact h.afterMember_blank hc
  split at h
  · next hc =>
    rw [hc]
    cases h with
    | members hmore hrest => exact .moreMembers .nil hmore hrest
  split at h
  · next hc =>
    rw [hc]
    exact .endObject .nil h
  · exact absurd h not_completes_malformed

theorem Completes.of_separate_complete {value : Value}
    (h : Completes (separate (complete value frames) c) rest result) :
    Completes (complete value frames) (c :: rest) result := by
  cases frames with
  | nil => exact h.of_separate_finished
  | cons frame frames =>
    cases frame with
    | array items => exact h.of_separate_afterItem
    | object members key => exact h.of_separate_afterMember

theorem Completes.of_stepNumber {stage : Stage} {n : Numeral}
    (h : Completes (stepNumber stage n frames c) rest result) :
    Completes (.reading (.number stage n) frames) (c :: rest) result := by
  unfold stepNumber at h
  split at h
  · next next m hnext =>
    cases h with
    | number hadvance hend hrest =>
      exact .number ((Stage.advance?_cons hnext _).trans hadvance) hend hrest
  split at h
  · next hnext hsafe =>
    have hend := (Bool.and_eq_true_iff.mp hsafe).1
    exact .number (Stage.advance?_nil stage n) hend h.of_separate_complete
  · exact absurd h not_completes_malformed

theorem Completes.of_stepWord {value : Value} {word : List Char}
    (h : Completes ((State.reading (.word value word) frames).step c) rest result) :
    Completes (.reading (.word value word) frames) (c :: rest) result := by
  have hword (rest : List Char) (h : Completes (complete value frames) rest result) :
      Completes (.reading (.word value word) frames) (word ++ rest) result := .word h
  simp only [State.step] at h
  split at h
  · exact absurd h not_completes_malformed
  · split at h
    · next hc =>
      rw [hc]
      exact hword rest h
    · exact absurd h not_completes_malformed
  · split at h
    · next hc =>
      rw [hc]
      cases h with
      | word hrest => exact hword _ hrest
    · exact absurd h not_completes_malformed

/-- What completes the state after a character completes, together with the character, the state
before it. -/
theorem Completes.of_step {state : State} (h : Completes (state.step c) rest result) :
    Completes state (c :: rest) result := by
  cases state with
  | stopped scan =>
    change Completes (.stopped scan) rest result at h
    cases h with
    | stopped hclosed => exact .stopped hclosed
  | finished value => exact h.of_separate_finished
  | reading mode frames =>
    cases mode with
    | afterItem items => exact h.of_separate_afterItem
    | afterMember members => exact h.of_separate_afterMember
    | value =>
      simp only [State.step] at h
      split at h
      · next hc => exact h.value_blank hc
      · exact h.of_begin
    | firstItem =>
      simp only [State.step] at h
      split at h
      · next hc => exact h.firstItem_blank hc
      split at h
      · next hc =>
        rw [hc]
        exact .noItem .nil h
      · obtain ⟨items, text, tail, heq, hitems, hrest⟩ := h.of_begin.exists_items
        rw [heq]
        exact .items hitems hrest
    | key mayClose members =>
      simp only [State.step] at h
      split at h
      · next hc => exact h.key_blank hc
      split at h
      · next hc =>
        obtain ⟨more, text, tail, heq, hmore, hrest⟩ := h.exists_members
        rw [hc, heq]
        exact .members hmore hrest
      split at h
      · next hc =>
        obtain ⟨rfl, rfl⟩ : c = '\x7d' ∧ mayClose = true := by simpa using hc
        exact .noMember .nil h
      · exact absurd h not_completes_malformed
    | colon members key =>
      simp only [State.step] at h
      split at h
      · next hc => exact h.colon_blank hc
      split at h
      · next hc =>
        rw [hc]
        cases h with
        | value hvalue hrest => exact .colon .nil hvalue hrest
      · exact absurd h not_completes_malformed
    | string role pieces escape => exact h.of_stepString
    | word value word => exact h.of_stepWord
    | number stage n => exact h.of_stepNumber

theorem Completes.of_run {state : State} {text : List Char}
    (h : Completes (state.run text) [] result) : Completes state text result := by
  induction text generalizing state with
  | nil => exact h
  | cons c text ih => exact (ih h).of_step

/-! ## Texts -/

theorem Completes.of_finish_number {stage : Stage} {n : Numeral}
    (h : (State.reading (.number stage n) frames).finish = .value result false)
    (hclosed : result.IsClosed) : Completes (.reading (.number stage n) frames) [] result := by
  simp only [State.finish] at h
  split at h
  · next hend =>
    cases frames with
    | nil =>
      cases h
      exact .number (Stage.advance?_nil stage n) hend (.finished .nil)
    | cons frame frames =>
      cases frame <;> exact absurd hclosed (not_isClosed_of_cut h)
  · exact absurd hclosed (not_isClosed_of_cut h)

theorem Completes.of_finish {state : State} (h : state.finish = .value result false)
    (hclosed : result.IsClosed) : Completes state [] result := by
  cases state with
  | stopped scan =>
    cases h
    exact .stopped hclosed
  | finished value =>
    cases h
    exact .finished .nil
  | reading mode frames =>
    cases mode with
    | number stage n => exact .of_finish_number h hclosed
    | _ =>
      rw [State.finish] at h
      · exact absurd hclosed (not_isClosed_of_cut h)
      · nofun

/-- A text that is read as a value without breaks spells this value. -/
theorem spellsPadded_of_scan {value : Value} {text : String} (h : scan text = .value value false)
    (hclosed : value.IsClosed) : SpellsPadded value text.toList := by
  rw [scan_eq_run] at h
  have hcompletes := (Completes.of_finish h hclosed).of_run
  change Completes (.reading .value []) text.toList value at hcompletes
  generalize text.toList = chars at hcompletes
  cases hcompletes with
  | value hinner hrest =>
    change Completes (.finished _) _ _ at hrest
    cases hrest with
    | finished hblank => exact hinner.append_blank hblank

/-- A text spells one value at most. -/
theorem SpellsPadded.unique {a b : Value} {text : String} (ha : SpellsPadded a text.toList)
    (hb : SpellsPadded b text.toList) : a = b := by
  have hscan := (scan_of_spellsPadded ha).symm.trans (scan_of_spellsPadded hb)
  cases hscan
  rfl

end Interconnect.Json
