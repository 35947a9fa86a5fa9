import Interconnect.Proofs.Json.Grammar

/-!
# Parts of a text

In a text of an array or object, the text of each part stands in one piece.  It may be exchanged for
any text of any other value, and the whole is then a text of the array or object with that value as
its part (`HasToken`).  Behind each member of an object there is room for one member more
(`Spells.exists_gap`).
-/

namespace Interconnect.Json

/-- The text has a token of the part in it.  Whatever token of whatever part stands in its stead, the
text around it stays as it is, and `spells` is true of the whole. -/
def HasToken (part : Value) (spells : Value → List Char → Prop) (text : List Char) : Prop :=
  ∃ before token after, text = before ++ token ++ after ∧ Spells part token ∧
    ∀ part' token', Spells part' token' → spells part' (before ++ token' ++ after)

variable {part : Value} {text : List Char}

namespace HasToken

variable {spells wider : Value → List Char → Prop}

theorem imp (h : HasToken part spells text)
    (hwider : ∀ part text, spells part text → wider part text) : HasToken part wider text := by
  obtain ⟨before, token, after, heq, htoken, hrest⟩ := h
  exact ⟨before, token, after, heq, htoken, fun part' token' htoken' ↦
    hwider part' _ (hrest part' token' htoken')⟩

/-- What encloses the text encloses its tokens. -/
theorem enclose (h : HasToken part spells text) (left right : List Char)
    (hwider : ∀ part inner, spells part inner → wider part (left ++ inner ++ right)) :
    HasToken part wider (left ++ text ++ right) := by
  obtain ⟨before, token, after, rfl, htoken, hrest⟩ := h
  refine ⟨left ++ before, token, after ++ right, by simp only [List.append_assoc], htoken, ?_⟩
  intro part' token' htoken'
  have hwhole := hwider part' _ (hrest part' token' htoken')
  simpa only [List.append_assoc] using hwhole

theorem behind (h : HasToken part spells text) (left : List Char)
    (hwider : ∀ part inner, spells part inner → wider part (left ++ inner)) :
    HasToken part wider (left ++ text) := by
  rw [← List.append_nil (left ++ text)]
  apply h.enclose
  intro part' inner hinner
  rw [List.append_nil]
  exact hwider part' inner hinner

/-- A token of a part has the tokens of the parts of that part in it. -/
theorem descend (inner : Value → Value) (h : HasToken (inner part) spells text)
    (hinner : ∀ {token}, Spells (inner part) token →
      HasToken part (fun part ↦ Spells (inner part)) token) :
    HasToken part (fun part ↦ spells (inner part)) text := by
  obtain ⟨before, token, after, rfl, htoken, hrest⟩ := h
  exact (hinner htoken).enclose before after fun part' token' ↦ hrest (inner part') token'

end HasToken

theorem Spells.hasToken (h : Spells part text) : HasToken part Spells text := by
  refine ⟨[], text, [], (List.append_nil text).symm, h, ?_⟩
  intro part' token' htoken'
  rwa [List.nil_append, List.append_nil]

theorem SpellsPadded.hasToken (h : SpellsPadded part text) : HasToken part SpellsPadded text := by
  obtain ⟨hbefore, hpart, hafter⟩ := h
  rw [← List.append_assoc]
  apply hpart.hasToken.enclose
  intro part' token' htoken'
  rw [List.append_assoc]
  exact .intro hbefore htoken' hafter

/-! ## Items -/

section

variable {before after : List Value}

theorem SpellsItems.hasToken (h : SpellsItems (before ++ part :: after) text) :
    HasToken part (fun part ↦ SpellsItems (before ++ part :: after)) text := by
  induction before generalizing text with
  | nil =>
    change SpellsItems (part :: after) text at h
    cases h with
    | last hpart => exact hpart.hasToken.imp fun _ _ ↦ .last
    | @cons _ _ first rest hpart hrest =>
      exact hpart.hasToken.enclose [] (',' :: rest) fun _ _ hpart' ↦ .cons hpart' hrest
  | cons item before ih =>
    change SpellsItems (item :: (before ++ part :: after)) text at h
    generalize hitems : before ++ part :: after = items at h
    cases h with
    | last => exact absurd hitems (by simp)
    | @cons _ _ first rest hitem hrest =>
      subst hitems
      rw [List.append_cons]
      apply (ih hrest).behind
      intro part' rest' hrest'
      rw [← List.append_cons]
      exact .cons hitem hrest'

theorem Spells.hasToken_array (h : Spells (.array (before ++ part :: after) .closed) text) :
    HasToken part (fun part ↦ Spells (.array (before ++ part :: after) .closed)) text := by
  generalize hitems : before ++ part :: after = items at h
  cases h with
  | emptyArray => exact absurd hitems (by simp)
  | array h =>
    subst hitems
    exact h.hasToken.enclose ['['] [']'] fun _ _ ↦ .array

end

/-! ## Members -/

section

variable {before after : List Member} {key : Spelling}

theorem SpellsMember.hasToken (h : SpellsMember (key, part) text) :
    HasToken part (fun part ↦ SpellsMember (key, part)) text := by
  cases h with
  | @intro _ _ before name between value hbefore hname hbetween hvalue =>
    have hassoc (value : List Char) :
        before ++ '"' :: (name ++ '"' :: (between ++ ':' :: value)) =
          before ++ '"' :: (name ++ '"' :: (between ++ [':'])) ++ value := by simp
    rw [hassoc]
    apply hvalue.hasToken.behind
    intro part' value' hvalue'
    rw [← hassoc]
    exact .intro hbefore hname hbetween hvalue'

theorem SpellsMembers.hasToken (h : SpellsMembers (before ++ (key, part) :: after) text) :
    HasToken part (fun part ↦ SpellsMembers (before ++ (key, part) :: after)) text := by
  induction before generalizing text with
  | nil =>
    change SpellsMembers ((key, part) :: after) text at h
    cases h with
    | last hmember => exact hmember.hasToken.imp fun _ _ ↦ .last
    | @cons _ _ first rest hmember hrest =>
      exact hmember.hasToken.enclose [] (',' :: rest) fun _ _ hmember' ↦ .cons hmember' hrest
  | cons member before ih =>
    change SpellsMembers (member :: (before ++ (key, part) :: after)) text at h
    generalize hmembers : before ++ (key, part) :: after = members at h
    cases h with
    | last => exact absurd hmembers (by simp)
    | @cons _ _ first rest hmember hrest =>
      subst hmembers
      rw [List.append_cons]
      apply (ih hrest).behind
      intro part' rest' hrest'
      rw [← List.append_cons]
      exact .cons hmember hrest'

theorem Spells.hasToken_object
    (h : Spells (.object (before ++ (key, part) :: after) .closed) text) :
    HasToken part (fun part ↦ Spells (.object (before ++ (key, part) :: after) .closed)) text := by
  generalize hmembers : before ++ (key, part) :: after = members at h
  cases h with
  | emptyObject => exact absurd hmembers (by simp)
  | object h =>
    subst hmembers
    exact h.hasToken.enclose ['\x7b'] ['\x7d'] fun _ _ ↦ .object

/-! ## One member more -/

/-- Members and a member more, which is put in behind the first of them. -/
theorem SpellsMembers.exists_gap (h : SpellsMembers (before ++ after) text)
    (hbefore : before ≠ []) :
    ∃ left right, text = left ++ right ∧ ∀ member token, SpellsMember member token →
      SpellsMembers (before ++ member :: after) (left ++ ',' :: (token ++ right)) := by
  induction before generalizing text with
  | nil => exact absurd rfl hbefore
  | cons first before ih =>
    change SpellsMembers (first :: (before ++ after)) text at h
    generalize hmembers : before ++ after = members at h
    cases h with
    | last hfirst =>
      obtain ⟨rfl, rfl⟩ := List.append_eq_nil_iff.mp hmembers
      refine ⟨text, [], (List.append_nil text).symm, fun member token hmember ↦ ?_⟩
      rw [List.append_nil]
      exact .cons hfirst (.last hmember)
    | @cons _ _ head rest hfirst hrest =>
      subst hmembers
      cases before with
      | nil =>
        exact ⟨head, ',' :: rest, rfl, fun member token hmember ↦
          .cons hfirst (.cons hmember hrest)⟩
      | cons second before =>
        obtain ⟨left, right, rfl, hgap⟩ := ih hrest (List.cons_ne_nil second before)
        refine ⟨head ++ ',' :: left, right, by simp, fun member token hmember ↦ ?_⟩
        simpa using SpellsMembers.cons hfirst (hgap member token hmember)

/-- In a text of an object, another member may be put in behind any of its members. -/
theorem Spells.exists_gap (h : Spells (.object (before ++ after) .closed) text)
    (hbefore : before ≠ []) :
    ∃ left right, text = left ++ right ∧ ∀ member token, SpellsMember member token →
      Spells (.object (before ++ member :: after) .closed) (left ++ ',' :: (token ++ right)) := by
  generalize hmembers : before ++ after = members at h
  cases h with
  | emptyObject => exact absurd (List.append_eq_nil_iff.mp hmembers).1 hbefore
  | object h =>
    subst hmembers
    obtain ⟨left, right, rfl, hgap⟩ := h.exists_gap hbefore
    refine ⟨'\x7b' :: left, right ++ ['\x7d'], by simp, fun member token hmember ↦ ?_⟩
    simpa using Spells.object (hgap member token hmember)

/-- Wherever the object stands, another member may be put in. -/
theorem HasToken.exists_gap {spells : Value → List Char → Prop}
    (h : HasToken (.object (before ++ after) .closed) spells text) (hbefore : before ≠ []) :
    ∃ left right, text = left ++ right ∧ ∀ member token, SpellsMember member token →
      spells (.object (before ++ member :: after) .closed) (left ++ ',' :: (token ++ right)) := by
  obtain ⟨front, object, back, rfl, hobject, hrest⟩ := h
  obtain ⟨left, right, rfl, hgap⟩ := hobject.exists_gap hbefore
  refine ⟨front ++ left, right ++ back, by simp only [List.append_assoc], ?_⟩
  intro member token hmember
  have hwhole := hrest _ _ (hgap member token hmember)
  simpa only [List.append_assoc, List.cons_append] using hwhole

end

end Interconnect.Json
