import Interconnect.Proofs.Json.Scalars

/-!
# Reading what the grammar allows

Every text of a value is read as that value (`scan_of_spellsPadded`).  The proof follows the
grammar: what the reader does with a part of the text is said for every stack of open arrays and
objects.  Since a numeral does not end by itself, a value counts as read (`Holds`) as soon as the
separator after it would hand it on.
-/

namespace Interconnect.Json

/-- A character that ends a numeral without being a part of the value after it. -/
def IsSeparator (c : Char) : Prop :=
  isSpace c = true ∨ c = ',' ∨ c = ']' ∨ c = '\x7d'

/-- A value has been read to its last character. -/
inductive Holds : Value → List Frame → State → Prop
  | complete (value : Value) (frames : List Frame) : Holds value frames (complete value frames)
  | number {stage : Stage} (n : Numeral) (frames : List Frame) (hend : stage.mayEnd = true) :
    Holds (.number n.inOrder) frames (.reading (.number stage n) frames)

theorem step_complete (value : Value) (frames : List Frame) (c : Char) :
    (complete value frames).step c = separate (complete value frames) c := by
  cases frames with
  | nil => rfl
  | cons frame frames => cases frame <;> rfl

theorem isSpace_iff {c : Char} : isSpace c = true ↔ c = ' ' ∨ c = '\t' ∨ c = '\n' ∨ c = '\r' := by
  simp only [isSpace, Bool.or_eq_true, beq_iff_eq, or_assoc]

/-- No numeral goes on with a separator. -/
theorem next?_separator {stage : Stage} {n : Numeral} {c : Char} (hc : IsSeparator c)
    (hend : stage.mayEnd = true) : stage.next? n c = none ∧ c.isDigit = false := by
  unfold IsSeparator at hc
  rw [isSpace_iff] at hc
  rcases hc with (rfl | rfl | rfl | rfl) | rfl | rfl | rfl <;> cases stage <;> exact ⟨rfl, rfl⟩

namespace Holds

variable {value : Value} {frames : List Frame} {state : State}

theorem step (h : Holds value frames state) {c : Char} (hc : IsSeparator c) :
    state.step c = separate (Json.complete value frames) c := by
  cases h with
  | complete => exact step_complete value frames c
  | number n _ hend =>
    obtain ⟨hnext, hdigit⟩ := next?_separator (n := n) hc hend
    change stepNumber _ n frames c = _
    rw [stepNumber, hnext, hend, hdigit]
    rfl

theorem separate_space {c : Char} (hc : isSpace c = true) :
    separate (Json.complete value frames) c = Json.complete value frames := by
  cases frames with
  | nil => exact if_pos hc
  | cons frame frames => cases frame <;> exact if_pos hc

/-- Blanks after a value change nothing. -/
theorem run_blank (h : Holds value frames state) {blank : List Char} (hblank : IsBlank blank) :
    Holds value frames (state.run blank) := by
  induction blank generalizing state with
  | nil => exact h
  | cons c blank ih =>
    obtain ⟨hc, hrest⟩ := List.forall_mem_cons.mp hblank
    rw [State.run_cons, h.step (.inl hc), separate_space hc]
    exact ih (.complete value frames) hrest

theorem finish (h : Holds value [] state) : state.finish = .value value false := by
  cases h with
  | complete => rfl
  | number n _ hend => exact if_pos hend

end Holds

/-! ## Blanks before a token -/

variable {frames : List Frame} {blank : List Char}

theorem run_blank_value (h : IsBlank blank) :
    (State.reading .value frames).run blank = .reading .value frames :=
  State.run_blank (.reading .value frames) (fun _ hc ↦ if_pos hc) h

theorem run_blank_firstItem (h : IsBlank blank) :
    (State.reading .firstItem frames).run blank = .reading .firstItem frames :=
  State.run_blank (.reading .firstItem frames) (fun _ hc ↦ if_pos hc) h

theorem run_blank_key {mayClose : Bool} {members : List Member} (h : IsBlank blank) :
    (State.reading (.key mayClose members) frames).run blank =
      .reading (.key mayClose members) frames :=
  State.run_blank (.reading (.key mayClose members) frames) (fun _ hc ↦ if_pos hc) h

theorem run_blank_colon {members : List Member} {key : Spelling} (h : IsBlank blank) :
    (State.reading (.colon members key) frames).run blank = .reading (.colon members key) frames :=
  State.run_blank (.reading (.colon members key) frames) (fun _ hc ↦ if_pos hc) h

/-! ## The first character of a value -/

theorem Numeral.Spells.exists_head {n : Numeral} {text : List Char} (h : n.Spells text) :
    ∃ c rest, text = c :: rest ∧ (c = '-' ∨ c.isDigit = true) := by
  obtain ⟨hn, he⟩ := h
  obtain ⟨d, digits, hwhole⟩ := List.exists_cons_of_ne_nil hn.whole_ne_nil
  have hd : d.isDigit = true := hn.whole_digits d (hwhole ▸ List.mem_cons_self)
  rw [hwhole]
  unfold Numeral.signChars
  cases n.negative with
  | false => exact ⟨d, _, rfl, .inr hd⟩
  | true => exact ⟨'-', _, rfl, .inl rfl⟩

/-- A value begins neither with a blank nor with a closing bracket. -/
theorem Spells.exists_head {value : Value} {text : List Char} (h : Spells value text) :
    ∃ c rest, text = c :: rest ∧ isSpace c = false ∧ c ≠ ']' := by
  cases h with
  | null => exact ⟨_, _, rfl, rfl, by decide⟩
  | wordTrue => exact ⟨_, _, rfl, rfl, by decide⟩
  | wordFalse => exact ⟨_, _, rfl, rfl, by decide⟩
  | number hn =>
    obtain ⟨c, rest, rfl, hc⟩ := hn.exists_head
    refine ⟨c, rest, rfl, ?_, ?_⟩
    · rcases hc with rfl | hdigit
      · rfl
      · exact Numeral.isSpace_digit hdigit
    · rcases hc with rfl | hdigit
      · decide
      · exact ne_of_isDigit hdigit rfl
  | string => exact ⟨_, _, rfl, rfl, by decide⟩
  | emptyArray => exact ⟨_, _, rfl, rfl, by decide⟩
  | array => exact ⟨_, _, rfl, rfl, by decide⟩
  | emptyObject => exact ⟨_, _, rfl, rfl, by decide⟩
  | object => exact ⟨_, _, rfl, rfl, by decide⟩

theorem SpellsItems.exists_padded {items : List Value} {text : List Char}
    (h : SpellsItems items text) : ∃ value first rest,
      SpellsPadded value first ∧ text = first ++ rest := by
  cases h with
  | last hv => exact ⟨_, text, [], hv, (List.append_nil text).symm⟩
  | cons hv hrest => exact ⟨_, _, _, hv, rfl⟩

/-- Behind an opening bracket an item begins as it does behind a comma. -/
theorem step_firstItem {c : Char} (hspace : isSpace c = false) (hbracket : c ≠ ']') :
    (State.reading .firstItem frames).step c =
      (State.reading .value (.array [] :: frames)).step c := by
  change (if isSpace c = true then _ else if c = ']' then _ else begin _ c) =
    (if isSpace c = true then _ else begin _ c)
  rw [hspace, if_neg Bool.false_ne_true, if_neg hbracket, if_neg Bool.false_ne_true]

theorem run_firstItem {items : List Value} {text : List Char} (h : SpellsItems items text)
    (rest : List Char) :
    (State.reading .firstItem frames).run (text ++ rest) =
      (State.reading .value (.array [] :: frames)).run (text ++ rest) := by
  obtain ⟨value, first, more, ⟨hbefore, hvalue, _⟩, rfl⟩ := h.exists_padded
  obtain ⟨c, tail, rfl, hspace, hbracket⟩ := hvalue.exists_head
  simp only [List.append_assoc, State.run_append, run_blank_value hbefore,
    run_blank_firstItem hbefore, List.cons_append, State.run_cons]
  rw [step_firstItem hspace hbracket]

/-! ## Values -/

theorem Spelling.Spells.run_key {key : Spelling} {name : List Char} (h : key.Spells name)
    (members : List Member) (rest : List Char) :
    (State.reading (.string (.key members) [] .none) frames).run (name ++ '"' :: rest) =
      (State.reading (.colon members key) frames).run rest := by
  rw [List.append_cons, State.run_append, run_string h]
  rfl

mutual

/-- A value is read wherever one has to begin, whatever is open around it. -/
theorem Spells.run : ∀ {value : Value} {text : List Char}, Spells value text →
    ∀ frames, Holds value frames ((State.reading .value frames).run text)
  | _, _, .null, frames => .complete .null frames
  | _, _, .wordTrue, frames => .complete (.bool true) frames
  | _, _, .wordFalse, frames => .complete (.bool false) frames
  | _, _, @Spells.number n _ h, frames => by
    obtain ⟨stage, hend, hrun⟩ := h.run frames
    rw [hrun]
    have hholds := Holds.number n.atEnd frames hend
    rwa [n.inOrder_atEnd] at hholds
  | _, _, @Spells.string s _ h, frames => by
    change Holds _ frames ((State.reading (.string .value [] .none) frames).run _)
    rw [run_string h]
    exact .complete (.string s) frames
  | _, _, .emptyArray h, frames => by
    change Holds _ frames ((State.reading .firstItem frames).run _)
    rw [State.run_append, run_blank_firstItem h]
    exact .complete (.array [] .closed) frames
  | _, _, @Spells.array items _ h, frames => by
    change Holds _ frames ((State.reading .firstItem frames).run _)
    rw [run_firstItem h, h.run [] frames]
    exact .complete (.array items .closed) frames
  | _, _, .emptyObject h, frames => by
    change Holds _ frames ((State.reading (.key true []) frames).run _)
    rw [State.run_append, run_blank_key h]
    exact .complete (.object [] .closed) frames
  | _, _, @Spells.object members _ h, frames => by
    change Holds _ frames ((State.reading (.key true []) frames).run _)
    rw [h.run true [] frames]
    exact .complete (.object members .closed) frames

theorem SpellsPadded.run : ∀ {value : Value} {text : List Char}, SpellsPadded value text →
    ∀ frames, Holds value frames ((State.reading .value frames).run text)
  | _, _, .intro hbefore h hafter, frames => by
    rw [State.run_append, State.run_append, run_blank_value hbefore]
    exact (h.run frames).run_blank hafter

/-- Items and the closing bracket are read behind the items that are done. -/
theorem SpellsItems.run : ∀ {items : List Value} {text : List Char}, SpellsItems items text →
    ∀ done frames, (State.reading .value (.array done :: frames)).run (text ++ [']']) =
      complete (.array (done.reverse ++ items) .closed) frames
  | _, _, @SpellsItems.last value _ h, done, frames => by
    rw [State.run_append]
    change (State.run _ _).step ']' = _
    rw [(h.run _).step (.inr (.inr (.inl rfl)))]
    change complete (.array (value :: done).reverse .closed) frames = _
    rw [List.reverse_cons]
  | _, _, @SpellsItems.cons value _ _ _ h hrest, done, frames => by
    rw [List.append_assoc, State.run_append, List.cons_append, State.run_cons,
      (h.run _).step (.inr (.inl rfl))]
    change (State.reading .value (.array (value :: done) :: frames)).run _ = _
    rw [hrest.run, List.reverse_cons, List.append_assoc]
    rfl

/-- A member is read up to the end of its value. -/
theorem SpellsMember.run : ∀ {member : Member} {text : List Char}, SpellsMember member text →
    ∀ mayClose done frames, Holds member.2 (.object done member.1 :: frames)
      ((State.reading (.key mayClose done) frames).run text)
  | _, _, .intro hbefore hname hbetween h, mayClose, done, frames => by
    rw [State.run_append, run_blank_key hbefore]
    change Holds _ _ ((State.reading (.string (.key done) [] .none) frames).run _)
    rw [hname.run_key, State.run_append, run_blank_colon hbetween]
    exact h.run _

theorem SpellsMembers.run : ∀ {members : List Member} {text : List Char},
    SpellsMembers members text →
    ∀ mayClose done frames, (State.reading (.key mayClose done) frames).run (text ++ ['\x7d']) =
      complete (.object (done.reverse ++ members) .closed) frames
  | _, _, @SpellsMembers.last member _ h, mayClose, done, frames => by
    rw [State.run_append]
    change (State.run _ _).step '\x7d' = _
    rw [(h.run _ _ _).step (.inr (.inr (.inr rfl)))]
    change complete (.object (member :: done).reverse .closed) frames = _
    rw [List.reverse_cons]
  | _, _, @SpellsMembers.cons member _ _ _ h hrest, mayClose, done, frames => by
    rw [List.append_assoc, State.run_append, List.cons_append, State.run_cons,
      (h.run _ _ _).step (.inr (.inl rfl))]
    change (State.reading (.key false (member :: done)) frames).run _ = _
    rw [hrest.run, List.reverse_cons, List.append_assoc]
    rfl

end

/-- A text of a value, with blanks around it, is read as that value. -/
theorem scan_of_spellsPadded {value : Value} {text : String}
    (h : SpellsPadded value text.toList) : scan text = .value value false := by
  rw [scan_eq_run]
  exact (h.run []).finish

end Interconnect.Json
