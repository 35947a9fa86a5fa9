import Interconnect.Proofs.Json.Grammar

/-!
# What is written is grammatical

A value without breaks, the parts of which have the shape that JSON gives them, is written as a
text of that value, in either layout and at any depth (`exists_toList_write`).  The writer appends to
what has been written before, so each statement names the text that is appended.
-/

namespace Interconnect.Json

/-- The halves of a surrogate pair have ten bits each. -/
def Piece.IsProper : Piece → Prop
  | char _ => True
  | high bits => bits < 0x400
  | low bits => bits < 0x400

mutual

/-- A value that is not cut off anywhere and consists of proper parts. -/
def Value.IsWhole : Value → Prop
  | .null => True
  | .bool _ => True
  | .number numeral => numeral.IsProper
  | .string spelling => ∀ piece ∈ spelling, piece.IsProper
  | .array items ending => ending = .closed ∧ AreWhole items
  | .object members ending => ending = .closed ∧ MembersAreWhole members

def AreWhole : List Value → Prop
  | [] => True
  | item :: items => item.IsWhole ∧ AreWhole items

def MembersAreWhole : List Member → Prop
  | [] => True
  | (key, value) :: members =>
    (∀ piece ∈ key, piece.IsProper) ∧ value.IsWhole ∧ MembersAreWhole members

end

/-! ## Strings -/

theorem toList_pushAll (out : String) (cs : List Char) :
    (pushAll out cs).toList = out.toList ++ cs := by
  induction cs generalizing out with
  | nil => exact (List.append_nil _).symm
  | cons c cs ih =>
    change (pushAll (out.push c) cs).toList = _
    rw [ih, String.toList_push, List.append_assoc]
    rfl

theorem hexValue?_hexDigit (n : ℕ) : hexValue? (hexDigit n) = some (n % 16) := by
  have h : ∀ digit < 16, hexValue? (Nat.digitChar digit) = some digit := by decide
  exact h (n % 16) (Nat.mod_lt n (by decide))

theorem spells_unicodeEscape {code : ℕ} (h : code < 0x10000) :
    (Piece.ofCode code).Spells (unicodeEscape code) := by
  have hcode : ((code / 4096 % 16 * 16 + code / 256 % 16) * 16 + code / 16 % 16) * 16 + code % 16 =
      code := by omega
  have hspells := Piece.Spells.code (hexValue?_hexDigit (code / 4096))
    (hexValue?_hexDigit (code / 256)) (hexValue?_hexDigit (code / 16)) (hexValue?_hexDigit code)
  rw [hcode] at hspells
  exact hspells

theorem spells_escapeChar (c : Char) : (Piece.char c).Spells (escapeChar c) := by
  unfold escapeChar
  split
  · next h =>
    subst h
    exact .letter rfl
  split
  · next h =>
    subst h
    exact .letter rfl
  split
  · next h =>
    subst h
    exact .letter rfl
  split
  · next h =>
    subst h
    exact .letter rfl
  split
  · next h =>
    subst h
    exact .letter rfl
  split
  · next h =>
    subst h
    exact .letter rfl
  split
  · next h =>
    subst h
    exact .letter rfl
  split
  · next h =>
    have hcode : Piece.ofCode c.toNat = .char c := by
      rw [Piece.ofCode, if_neg (by omega), if_neg (by omega), Char.ofNat_toNat]
    exact hcode ▸ spells_unicodeEscape (by omega)
  · next hquote hslash _ _ _ _ _ hcontrol => exact .raw hquote hslash (Nat.le_of_not_lt hcontrol)

theorem spells_escape {piece : Piece} (h : piece.IsProper) : piece.Spells piece.escape := by
  cases piece with
  | char c => exact spells_escapeChar c
  | high bits =>
    have hbits : bits < 0x400 := h
    have hcode : Piece.ofCode (0xD800 + bits) = .high bits := by
      rw [Piece.ofCode, if_pos (by omega), Nat.add_sub_cancel_left]
    have hspells := @spells_unicodeEscape (0xD800 + bits) (by omega)
    rwa [hcode] at hspells
  | low bits =>
    have hbits : bits < 0x400 := h
    have hcode : Piece.ofCode (0xDC00 + bits) = .low bits := by
      rw [Piece.ofCode, if_neg (by omega), if_pos (by omega), Nat.add_sub_cancel_left]
    have hspells := @spells_unicodeEscape (0xDC00 + bits) (by omega)
    rwa [hcode] at hspells

theorem spells_flatMap_escape {spelling : Spelling} (h : ∀ piece ∈ spelling, piece.IsProper) :
    spelling.Spells (spelling.flatMap Piece.escape) := by
  induction spelling with
  | nil => exact .nil
  | cons piece spelling ih =>
    obtain ⟨hpiece, hrest⟩ := List.forall_mem_cons.mp h
    rw [List.flatMap_cons]
    exact .cons (spells_escape hpiece) (ih hrest)

theorem toList_foldl_escape (out : String) (spelling : Spelling) :
    (spelling.foldl (fun out piece ↦ pushAll out piece.escape) out).toList =
      out.toList ++ spelling.flatMap Piece.escape := by
  induction spelling generalizing out with
  | nil => exact (List.append_nil _).symm
  | cons piece spelling ih =>
    rw [List.foldl_cons, ih, toList_pushAll, List.append_assoc, List.flatMap_cons]

theorem toList_writeString (out : String) (spelling : Spelling) :
    (writeString out spelling).toList =
      out.toList ++ '"' :: (spelling.flatMap Piece.escape ++ ['"']) := by
  rw [writeString, String.toList_push, toList_foldl_escape, String.toList_push, List.append_assoc,
    List.append_assoc]
  rfl

/-! ## Numerals and layout -/

theorem Numeral.exponentSpells_exponentChars (n : Numeral) :
    n.ExponentSpells n.exponentChars := by
  unfold exponentChars
  by_cases hnil : n.exponent = []
  · rw [hnil]
    exact .none hnil
  · rw [List.isEmpty_eq_false_iff.mpr hnil, if_neg Bool.false_ne_true]
    cases hsign : n.exponentNegative with
    | true => exact .minus (.inl rfl) hnil hsign
    | false => exact .plain (.inl rfl) hnil hsign

theorem Numeral.spells_chars {n : Numeral} (h : n.IsProper) : n.Spells n.chars :=
  .intro h n.exponentSpells_exponentChars

theorem toList_repeat_push (n : ℕ) (out : String) :
    (n.repeat (·.push ' ') out).toList = out.toList ++ List.replicate n ' ' := by
  induction n with
  | zero => exact (List.append_nil _).symm
  | succ n ih => rw [Nat.repeat, String.toList_push, ih, List.append_assoc, List.replicate_succ']

/-- What starts the line of an item. -/
def Layout.lineStart : Layout → ℕ → List Char
  | compact, _ => []
  | indented, depth => '\n' :: List.replicate (2 * depth) ' '

theorem Layout.isBlank_lineStart (layout : Layout) (depth : ℕ) :
    IsBlank (layout.lineStart depth) := by
  cases layout with
  | compact => exact .nil
  | indented =>
    refine .cons rfl fun c hc ↦ ?_
    rw [List.eq_of_mem_replicate hc]
    rfl

theorem toList_startLine (layout : Layout) (depth : ℕ) (out : String) :
    (layout.startLine depth out).toList = out.toList ++ layout.lineStart depth := by
  cases layout with
  | compact => exact (List.append_nil _).symm
  | indented =>
    rw [Layout.startLine, toList_repeat_push, String.toList_push, List.append_assoc]
    rfl

theorem exists_toList_colon (layout : Layout) :
    ∃ blank, IsBlank blank ∧ layout.colon.toList = ':' :: blank := by
  cases layout with
  | compact => exact ⟨[], .nil, rfl⟩
  | indented => exact ⟨[' '], .cons rfl .nil, rfl⟩

/-! ## Values -/

/-- What stands before the value of a member, behind what has been written before. -/
theorem exists_toList_writeKey (layout : Layout) (depth : ℕ) (out : String) {key : Spelling}
    (hkey : ∀ piece ∈ key, piece.IsProper) :
    ∃ name blank, key.Spells name ∧ IsBlank blank ∧
      (writeString (layout.startLine depth out) key ++ layout.colon).toList =
        out.toList ++ (layout.lineStart depth ++ '"' :: (name ++ '"' :: ':' :: blank)) := by
  obtain ⟨blank, hblank, hcolon⟩ := exists_toList_colon layout
  refine ⟨_, blank, spells_flatMap_escape hkey, hblank, ?_⟩
  simp only [String.toList_append, toList_writeString, toList_startLine, hcolon, List.append_assoc,
    List.cons_append, List.nil_append]

mutual

/-- A whole value is written as one of its texts. -/
theorem exists_toList_write (layout : Layout) : ∀ (value : Value), value.IsWhole →
    ∀ (depth : ℕ) (out : String),
      ∃ text, (write layout depth out value).toList = out.toList ++ text ∧ Spells value text
  | .null, _, depth, out => ⟨_, String.toList_append, .null⟩
  | .bool true, _, depth, out => ⟨_, String.toList_append, .wordTrue⟩
  | .bool false, _, depth, out => ⟨_, String.toList_append, .wordFalse⟩
  | .number numeral, h, depth, out => ⟨_, toList_pushAll out _, .number (Numeral.spells_chars h)⟩
  | .string spelling, h, depth, out =>
    ⟨_, toList_writeString out spelling, .string (spells_flatMap_escape h)⟩
  | .array [] ending, h, depth, out => by
    obtain ⟨rfl, -⟩ := h
    exact ⟨_, String.toList_append, .emptyArray .nil⟩
  | .array (item :: items) ending, h, depth, out => by
    obtain ⟨rfl, hitems⟩ := h
    obtain ⟨text, hwrite, hspells⟩ := exists_toList_writeItems layout (item :: items)
      (List.cons_ne_nil item items) hitems (depth + 1) (out.push '[') _
      (layout.isBlank_lineStart depth)
    refine ⟨_, ?_, .array hspells⟩
    simp only [write, String.toList_push, toList_startLine, hwrite, List.append_assoc,
      List.cons_append, List.nil_append]
  | .object [] ending, h, depth, out => by
    obtain ⟨rfl, -⟩ := h
    exact ⟨_, String.toList_append, .emptyObject .nil⟩
  | .object (member :: members) ending, h, depth, out => by
    obtain ⟨rfl, hmembers⟩ := h
    obtain ⟨text, hwrite, hspells⟩ := exists_toList_writeMembers layout (member :: members)
      (List.cons_ne_nil member members) hmembers (depth + 1) (out.push '\x7b') _
      (layout.isBlank_lineStart depth)
    refine ⟨_, ?_, .object hspells⟩
    simp only [write, String.toList_push, toList_startLine, hwrite, List.append_assoc,
      List.cons_append, List.nil_append]

/-- Items are written with a blank before each of them; what comes after the last may be blank. -/
theorem exists_toList_writeItems (layout : Layout) : ∀ (items : List Value), items ≠ [] →
    AreWhole items → ∀ (depth : ℕ) (out : String) (after : List Char), IsBlank after →
      ∃ text, (writeItems layout depth out items).toList = out.toList ++ text ∧
        SpellsItems items (text ++ after)
  | [], hne, _, _, _, _, _ => absurd rfl hne
  | [item], _, h, depth, out, after, hafter => by
    obtain ⟨text, hwrite, hspells⟩ :=
      exists_toList_write layout item h.1 depth (layout.startLine depth out)
    refine ⟨layout.lineStart depth ++ text, ?_, ?_⟩
    · rw [writeItems, hwrite, toList_startLine, List.append_assoc]
    · rw [List.append_assoc]
      exact .last (.intro (layout.isBlank_lineStart depth) hspells hafter)
  | item :: next :: items, _, h, depth, out, after, hafter => by
    obtain ⟨text, hwrite, hspells⟩ :=
      exists_toList_write layout item h.1 depth (layout.startLine depth out)
    obtain ⟨rest, hwriteRest, hrest⟩ := exists_toList_writeItems layout (next :: items)
      (List.cons_ne_nil next items) h.2 depth
      ((write layout depth (layout.startLine depth out) item).push ',') after hafter
    refine ⟨layout.lineStart depth ++ (text ++ []) ++ ',' :: rest, ?_, ?_⟩
    · simp only [writeItems, hwriteRest, String.toList_push, hwrite, toList_startLine,
        List.append_assoc, List.cons_append, List.nil_append]
    · rw [List.append_assoc]
      exact .cons (.intro (layout.isBlank_lineStart depth) hspells .nil) hrest

theorem exists_toList_writeMembers (layout : Layout) : ∀ (members : List Member), members ≠ [] →
    MembersAreWhole members → ∀ (depth : ℕ) (out : String) (after : List Char), IsBlank after →
      ∃ text, (writeMembers layout depth out members).toList = out.toList ++ text ∧
        SpellsMembers members (text ++ after)
  | [], hne, _, _, _, _, _ => absurd rfl hne
  | [(key, value)], _, h, depth, out, after, hafter => by
    obtain ⟨name, blank, hname, hblank, hkey⟩ := exists_toList_writeKey layout depth out h.1
    obtain ⟨text, hwrite, hspells⟩ := exists_toList_write layout value h.2.1 depth
      (writeString (layout.startLine depth out) key ++ layout.colon)
    refine ⟨layout.lineStart depth ++ '"' :: (name ++ '"' :: ':' :: (blank ++ text)), ?_, ?_⟩
    · simp only [writeMembers, hwrite, hkey, List.append_assoc, List.cons_append]
    · simp only [List.append_assoc, List.cons_append]
      exact .last (.intro (layout.isBlank_lineStart depth) hname .nil
        (.intro hblank hspells hafter))
  | (key, value) :: next :: members, _, h, depth, out, after, hafter => by
    obtain ⟨name, blank, hname, hblank, hkey⟩ := exists_toList_writeKey layout depth out h.1
    obtain ⟨text, hwrite, hspells⟩ := exists_toList_write layout value h.2.1 depth
      (writeString (layout.startLine depth out) key ++ layout.colon)
    obtain ⟨rest, hwriteRest, hrest⟩ := exists_toList_writeMembers layout (next :: members)
      (List.cons_ne_nil next members) h.2.2 depth
      ((write layout depth (writeString (layout.startLine depth out) key ++ layout.colon)
        value).push ',') after hafter
    refine ⟨layout.lineStart depth ++ '"' :: (name ++ '"' :: ':' :: (blank ++ (text ++ []))) ++
      ',' :: rest, ?_, ?_⟩
    · simp only [writeMembers, hwriteRest, String.toList_push, hwrite, hkey, List.append_assoc,
        List.cons_append, List.nil_append]
    · rw [List.append_assoc]
      exact .cons (.intro (layout.isBlank_lineStart depth) hname .nil
        (.intro hblank hspells .nil)) hrest

end

theorem spells_compact {value : Value} (h : value.IsWhole) : Spells value value.compact.toList := by
  obtain ⟨text, hwrite, hspells⟩ := exists_toList_write .compact value h 0 ""
  rw [Value.compact, hwrite]
  exact hspells

theorem spells_indented {value : Value} (h : value.IsWhole) :
    Spells value value.indented.toList := by
  obtain ⟨text, hwrite, hspells⟩ := exists_toList_write .indented value h 0 ""
  rw [Value.indented, hwrite]
  exact hspells

end Interconnect.Json
