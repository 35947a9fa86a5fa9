import Mathlib.Data.List.Pairwise
import Interconnect.Document.Record

/-!
# What a record makes of its members

A record goes through its members from left to right, but what becomes of them can be said without
any order.  The members are taken in when each of them can be taken in by itself and no two of them
carry the same known name (`Record.exists_foldlM_eq_ok_iff`), and a field then holds what the member
of its name reads as (`Record.IsField.eq_some_iff`, `Record.IsField.eq_none_iff`).
-/

namespace Interconnect.Document

open Json (Member Spelling Value)

/-! ## Members by name -/

/-- The key of the member, however it is spelled, is the name. -/
def HasName (member : Member) (name : String) : Prop :=
  member.1.text? = some name

/-- The members hold, under a name, a value that reads as `a`. -/
def Holds {α : Type} (members : List Member) (name : String) (read : Value → Result α) (a : α) :
    Prop :=
  ∃ member ∈ members, HasName member name ∧ read member.2 = .ok a

/-- No member has the name. -/
def Lacks (members : List Member) (name : String) : Prop :=
  ∀ member ∈ members, ¬ HasName member name

/-- What the members hold under a name that may be left out. -/
def HoldsOr {α : Type} (members : List Member) (name : String) (read : Value → Result α)
    (default a : α) : Prop :=
  Holds members name read a ∨ Lacks members name ∧ a = default

theorem HasName.unique {member : Member} {a b : String} (ha : HasName member a)
    (hb : HasName member b) : a = b :=
  Option.some.inj (ha.symm.trans hb)

theorem bind_eq_ok_iff {α β : Type} {x : Result α} {f : α → Result β} {b : β} :
    x >>= f = .ok b ↔ ∃ a, x = .ok a ∧ f a = .ok b := by
  cases x <;> simp [bind, Except.bind]

theorem map_eq_ok_iff {α β : Type} {x : Result α} {f : α → β} {b : β} :
    (do return f (← x)) = .ok b ↔ ∃ a, x = .ok a ∧ f a = b := by
  cases x <;> simp [bind, Except.bind, pure, Except.pure]

theorem fmap_eq_ok_iff {α β : Type} {x : Result α} {f : α → β} {b : β} :
    f <$> x = .ok b ↔ ∃ a, x = .ok a ∧ f a = b := by
  cases x <;> simp [Functor.map, Except.map]

theorem readText_eq_ok_iff {spelling : Spelling} {text : String} :
    readText spelling = .ok text ↔ spelling.text? = some text := by
  unfold readText
  cases spelling.text? with
  | none => simp [rejectFault]
  | some t => simp

section

variable {α : Type} {members members' : List Member} {member : Member} {name : String}
  {read : Value → Result α} {a : α}

theorem Holds.perm (h : Holds members name read a) (hperm : members.Perm members') :
    Holds members' name read a := by
  obtain ⟨m, hm, hread⟩ := h
  exact ⟨m, hperm.mem_iff.mp hm, hread⟩

theorem Lacks.perm (h : Lacks members name) (hperm : members.Perm members') :
    Lacks members' name :=
  fun m hm ↦ h m (hperm.mem_iff.mpr hm)

theorem Holds.cons (h : Holds members name read a) (member : Member) :
    Holds (member :: members) name read a := by
  obtain ⟨m, hm, hread⟩ := h
  exact ⟨m, List.mem_cons_of_mem member hm, hread⟩

theorem Holds.of_cons (h : Holds (member :: members) name read a)
    (hne : ¬ HasName member name) : Holds members name read a := by
  obtain ⟨m, hm, hname, hread⟩ := h
  rcases List.mem_cons.mp hm with rfl | hm
  · exact absurd hname hne
  · exact ⟨m, hm, hname, hread⟩

/-- The value of a member matters to its own name only. -/
theorem Holds.replace {key : Spelling} {value : Value}
    (h : Holds ((key, value) :: members) name read a) (hne : ¬ HasName (key, value) name)
    (value' : Value) : Holds ((key, value') :: members) name read a :=
  (h.of_cons hne).cons (key, value')

theorem Lacks.cons (h : Lacks members name) (hne : ¬ HasName member name) :
    Lacks (member :: members) name :=
  List.forall_mem_cons.mpr ⟨hne, h⟩

theorem Lacks.of_cons (h : Lacks (member :: members) name) : Lacks members name :=
  (List.forall_mem_cons.mp h).2

theorem HoldsOr.perm {default : α} (h : HoldsOr members name read default a)
    (hperm : members.Perm members') : HoldsOr members' name read default a :=
  h.imp (·.perm hperm) (·.imp_left (·.perm hperm))

theorem HoldsOr.cons {default : α} (h : HoldsOr members name read default a)
    (hne : ¬ HasName member name) : HoldsOr (member :: members) name read default a :=
  h.imp (·.cons member) (·.imp_left (·.cons hne))

end

namespace Record

variable {Fields : Type} (record : Record Fields)

/-! ## One member after the other -/

/-- What is asked of a record so that the order of its members does not matter. -/
structure IsLawful : Prop where
  /-- Whether a value is taken in does not depend on what was taken in before. -/
  exists_accept : ∀ {fields next : Fields} {name : String} {value : Value},
    record.isKnown name = true → record.accept fields name value = .ok next →
      ∀ other, ∃ next, record.accept other name value = .ok next
  isSeen_accept : ∀ {fields next : Fields} {name : String} {value : Value},
    record.isKnown name = true → record.accept fields name value = .ok next →
      ∀ other, record.isSeen next other = (other == name || record.isSeen fields other)

/-- The member is taken in, whatever was taken in before, unless it repeats a name. -/
def Takes (member : Member) : Prop :=
  ∃ name, HasName member name ∧
    if record.isKnown name = true then
      ∀ fields, ∃ next, record.accept fields name member.2 = .ok next
    else record.pass member.2 = .ok ()

/-- The members carry the same known name. -/
def Clash (a b : Member) : Prop :=
  ∃ name, record.isKnown name = true ∧ HasName a name ∧ HasName b name

/-- The members can be taken in one by one, and none repeats a known name. -/
structure Reads (members : List Member) : Prop where
  takes : ∀ member ∈ members, record.Takes member
  distinct : members.Pairwise fun a b ↦ ¬ record.Clash a b

variable {record} {fields next : Fields} {member : Member} {members : List Member}

theorem acceptKey_eq_ok_iff {key : Spelling} {name : String} :
    record.acceptKey fields key = .ok name ↔
      key.text? = some name ∧ record.isSeen fields name = false := by
  rw [acceptKey, bind_eq_ok_iff]
  constructor
  · intro h
    obtain ⟨text, htext, h⟩ := h
    split at h
    · cases h
    · next hseen =>
      cases h
      exact ⟨readText_eq_ok_iff.mp htext, Bool.not_eq_true _ ▸ hseen⟩
  · intro h
    obtain ⟨htext, hseen⟩ := h
    refine ⟨name, readText_eq_ok_iff.mpr htext, ?_⟩
    rw [if_neg (by rw [hseen]; exact Bool.false_ne_true)]
    rfl

theorem step_eq_ok_iff :
    record.step fields member = .ok next ↔
      ∃ name, HasName member name ∧ record.isSeen fields name = false ∧
        if record.isKnown name = true then record.accept fields name member.2 = .ok next
        else record.pass member.2 = .ok () ∧ next = fields := by
  rw [step, bind_eq_ok_iff]
  refine exists_congr fun name ↦ ?_
  rw [acceptKey_eq_ok_iff, and_assoc]
  refine and_congr_right fun _ ↦ and_congr_right fun _ ↦ ?_
  split
  · exact Iff.rfl
  · rw [bind_eq_ok_iff]
    constructor
    · intro h
      obtain ⟨_, hpass, h⟩ := h
      cases h
      exact ⟨hpass, rfl⟩
    · intro h
      obtain ⟨hpass, rfl⟩ := h
      exact ⟨(), hpass, rfl⟩

theorem step_eq_ok_of_hasName {name : String} (hname : HasName member name) :
    record.step fields member = .ok next ↔
      record.isSeen fields name = false ∧
        if record.isKnown name = true then record.accept fields name member.2 = .ok next
        else record.pass member.2 = .ok () ∧ next = fields := by
  rw [step_eq_ok_iff]
  constructor
  · intro h
    obtain ⟨name', hname', h⟩ := h
    cases hname.unique hname'
    exact h
  · intro h
    exact ⟨name, hname, h⟩

theorem Takes.exists_next (h : record.Takes member)
    (hfresh : ∀ name, HasName member name → record.isSeen fields name = false) :
    ∃ next, record.step fields member = .ok next := by
  obtain ⟨name, hname, h⟩ := h
  simp only [step_eq_ok_of_hasName hname, hfresh name hname, true_and]
  split at h
  · next hknown =>
    simp only [if_pos hknown]
    exact h fields
  · next hknown =>
    simp only [if_neg hknown]
    exact ⟨fields, h, rfl⟩

variable (hlaw : record.IsLawful)

include hlaw

theorem takes_of_step (h : record.step fields member = .ok next) : record.Takes member := by
  obtain ⟨name, hname, _, h⟩ := step_eq_ok_iff.mp h
  refine ⟨name, hname, ?_⟩
  split at h
  · next hknown =>
    rw [if_pos hknown]
    exact hlaw.exists_accept hknown h
  · next hknown =>
    rw [if_neg hknown]
    exact h.1

/-- After a member, its name has been seen if it is known, and no other name besides. -/
theorem isSeen_step (h : record.step fields member = .ok next) {name : String} :
    record.isSeen next name = true ↔
      record.isSeen fields name = true ∨ record.isKnown name = true ∧ HasName member name := by
  obtain ⟨name', hname, _, h⟩ := step_eq_ok_iff.mp h
  split at h
  · next hknown =>
    rw [hlaw.isSeen_accept hknown h, Bool.or_eq_true, beq_iff_eq, or_comm]
    refine or_congr_right ?_
    constructor
    · intro heq
      exact heq ▸ ⟨hknown, hname⟩
    · intro h
      exact h.2.unique hname
  · next hknown =>
    rw [h.2]
    refine (or_iff_left ?_).symm
    intro h
    exact hknown (hname.unique h.2 ▸ h.1)

/-- The members of a record are taken in, in any state of affairs in which none of their names has
been seen, when each of them can be taken in and no known name is repeated. -/
theorem exists_foldlM_eq_ok_iff :
    (∃ next, members.foldlM record.step fields = .ok next) ↔
      record.Reads members ∧
        ∀ member ∈ members, ∀ name, HasName member name → record.isSeen fields name = false := by
  induction members generalizing fields with
  | nil =>
    have hreads : record.Reads [] := ⟨nofun, .nil⟩
    have hempty : List.foldlM record.step fields [] = .ok fields := rfl
    simp [hreads, hempty]
  | cons member members ih =>
    rw [List.foldlM_cons]
    constructor
    · intro h
      obtain ⟨last, h⟩ := h
      obtain ⟨next, hstep, hrest⟩ := bind_eq_ok_iff.mp h
      obtain ⟨hreads, hfresh⟩ := ih.mp ⟨last, hrest⟩
      have hunseen {m : Member} (hm : m ∈ members) {name : String} (hname : HasName m name) :
          ¬ (record.isSeen fields name = true ∨
            record.isKnown name = true ∧ HasName member name) := by
        rw [← isSeen_step hlaw hstep, hfresh m hm name hname]
        exact Bool.false_ne_true
      refine ⟨⟨?_, ?_⟩, ?_⟩
      · exact List.forall_mem_cons.mpr ⟨takes_of_step hlaw hstep, hreads.takes⟩
      · refine hreads.distinct.cons fun m hm hclash ↦ ?_
        obtain ⟨name, hknown, hmember, hname⟩ := hclash
        exact hunseen hm hname (.inr ⟨hknown, hmember⟩)
      · refine List.forall_mem_cons.mpr ⟨?_, ?_⟩
        · intro name hname
          exact ((step_eq_ok_of_hasName hname).mp hstep).1
        · intro m hm name hname
          exact Bool.eq_false_iff.mpr fun hseen ↦ hunseen hm hname (.inl hseen)
    · intro h
      obtain ⟨hreads, hfresh⟩ := h
      obtain ⟨htakes, htakesRest⟩ := List.forall_mem_cons.mp hreads.takes
      obtain ⟨hdistinct, hdistinctRest⟩ := List.pairwise_cons.mp hreads.distinct
      obtain ⟨hfreshMember, hfreshRest⟩ := List.forall_mem_cons.mp hfresh
      obtain ⟨next, hstep⟩ := htakes.exists_next hfreshMember
      have hfreshNext : ∀ m ∈ members, ∀ name, HasName m name → record.isSeen next name = false := by
        intro m hm name hname
        rw [Bool.eq_false_iff, Ne, isSeen_step hlaw hstep, not_or]
        refine ⟨?_, fun h ↦ hdistinct m hm ⟨name, h.1, h.2, hname⟩⟩
        rw [hfreshRest m hm name hname]
        exact Bool.false_ne_true
      obtain ⟨last, hrest⟩ := ih.mpr ⟨⟨htakesRest, hdistinctRest⟩, hfreshNext⟩
      exact ⟨last, bind_eq_ok_iff.mpr ⟨next, hstep, hrest⟩⟩

omit hlaw in
theorem eq_closed_of_read {ending : Json.Ending Json.ObjectRest}
    (h : record.read fields members ending = .ok next) : ending = .closed := by
  obtain ⟨last, _, h⟩ := bind_eq_ok_iff.mp h
  cases ending with
  | closed => rfl
  | cut rest fault =>
    cases rest with
    | none => cases h
    | some key =>
      obtain ⟨name, _, h⟩ := bind_eq_ok_iff.mp h
      cases h

omit hlaw in
theorem read_closed (fields : Fields) (members : List Member) :
    record.read fields members .closed = members.foldlM record.step fields :=
  bind_pure _

theorem exists_read_eq_ok_iff (hfresh : ∀ name, record.isSeen fields name = false) :
    (∃ next, record.read fields members .closed = .ok next) ↔ record.Reads members := by
  simp only [read_closed, exists_foldlM_eq_ok_iff hlaw, hfresh, implies_true, and_true]

end Record

/-! ## What a field holds -/

/-- A field of a record that is set by the members of a name, and by no others. -/
structure Record.IsField {Fields α : Type} (record : Record Fields) (get : Fields → Option α)
    (name : String) (read : Value → Result α) : Prop where
  isKnown : record.isKnown name = true
  accept_self : ∀ {fields next : Fields} {value : Value}, record.isSeen fields name = false →
    record.accept fields name value = .ok next → ∃ a, read value = .ok a ∧ get next = some a
  accept_other : ∀ {fields next : Fields} {other : String} {value : Value},
    record.isKnown other = true → other ≠ name → record.accept fields other value = .ok next →
      get next = get fields

namespace Record

variable {Fields α : Type} {record : Record Fields} {fields next : Fields} {member : Member}
  {members members' : List Member} {get : Fields → Option α} {name : String}
  {read : Value → Result α} {a b : α}

/-- A known name is carried by one member at most. -/
theorem Reads.eq_of_hasName (h : record.Reads members) (hknown : record.isKnown name = true)
    {m m' : Member} (hm : m ∈ members) (hm' : m' ∈ members) (hname : HasName m name)
    (hname' : HasName m' name) : m = m' := by
  have hsymm : Std.Symm fun a b ↦ ¬ record.Clash a b :=
    ⟨fun a b hab hba ↦ hab (hba.imp fun _ h ↦ ⟨h.1, h.2.2, h.2.1⟩)⟩
  by_contra hne
  exact h.distinct.forall hm hm' hne ⟨name, hknown, hname, hname'⟩

/-- What the members hold under a known name is what each member of the name reads as. -/
theorem Reads.read_of_holds (h : record.Reads members) (hmember : member ∈ members)
    (hname : HasName member name) (hknown : record.isKnown name = true)
    (hholds : Holds members name read a) : read member.2 = .ok a := by
  obtain ⟨m, hm, hname', hread⟩ := hholds
  rwa [h.eq_of_hasName hknown hmember hm hname hname']

/-- A known name has one value at most. -/
theorem Reads.holds_unique (h : record.Reads members) (hknown : record.isKnown name = true)
    (ha : Holds members name read a) (hb : Holds members name read b) : a = b := by
  obtain ⟨m, hm, hname, hread⟩ := ha
  exact Except.ok.inj (hread.symm.trans (h.read_of_holds hm hname hknown hb))

namespace IsField

variable (hfield : record.IsField get name read)

include hfield

theorem get_step (h : record.step fields member = .ok next) :
    (HasName member name ∧ ∃ a, read member.2 = .ok a ∧ get next = some a) ∨
      ¬ HasName member name ∧ get next = get fields := by
  obtain ⟨name', hname, hseen, h⟩ := step_eq_ok_iff.mp h
  split at h
  · next hknown =>
    by_cases heq : name' = name
    · subst heq
      exact .inl ⟨hname, hfield.accept_self hseen h⟩
    · exact .inr ⟨fun h ↦ heq (hname.unique h), hfield.accept_other hknown heq h⟩
  · next hunknown =>
    refine .inr ⟨?_, congrArg get h.2⟩
    intro hname'
    exact hunknown (hname.unique hname' ▸ hfield.isKnown)

theorem get_foldlM (h : members.foldlM record.step fields = .ok next) :
    (∃ a, Holds members name read a ∧ get next = some a) ∨
      Lacks members name ∧ get next = get fields := by
  induction members generalizing fields with
  | nil =>
    cases h
    exact .inr ⟨nofun, rfl⟩
  | cons member members ih =>
    rw [List.foldlM_cons] at h
    obtain ⟨mid, hstep, hrest⟩ := bind_eq_ok_iff.mp h
    rcases ih hrest with ⟨a, hholds, hget⟩ | ⟨hlacks, hget⟩
    · exact .inl ⟨a, hholds.cons member, hget⟩
    · rcases hfield.get_step hstep with ⟨hname, a, hread, hmid⟩ | ⟨hname, hmid⟩
      · exact .inl ⟨a, ⟨member, List.mem_cons_self, hname, hread⟩, hget.trans hmid⟩
      · exact .inr ⟨hlacks.cons hname, hget.trans hmid⟩

variable (hreads : record.Reads members) (hempty : get fields = none)
  (h : record.read fields members .closed = .ok next)

include hempty h

theorem eq_none_iff : get next = none ↔ Lacks members name := by
  rw [read_closed] at h
  rcases hfield.get_foldlM h with ⟨a, ⟨m, hm, hname, _⟩, hget⟩ | ⟨hlacks, hget⟩
  · simp only [hget, reduceCtorEq, false_iff]
    exact fun hlacks ↦ hlacks m hm hname
  · exact iff_of_true (hget.trans hempty) hlacks

include hreads

theorem eq_some_iff : get next = some a ↔ Holds members name read a := by
  rw [read_closed] at h
  rcases hfield.get_foldlM h with ⟨b, hholds, hget⟩ | ⟨hlacks, hget⟩
  · rw [hget, Option.some_inj]
    constructor
    · rintro rfl
      exact hholds
    · exact hreads.holds_unique hfield.isKnown hholds
  · rw [hget, hempty]
    refine iff_of_false nofun ?_
    rintro ⟨m, hm, hname, _⟩
    exact hlacks m hm hname

theorem getD_eq_iff {default : α} :
    (get next).getD default = a ↔ HoldsOr members name read default a := by
  rw [HoldsOr, ← hfield.eq_some_iff hreads hempty h, ← hfield.eq_none_iff hempty h]
  cases get next <;> simp [eq_comm]

end IsField

/-! ## Members laid out in another way -/

theorem Reads.perm (h : record.Reads members) (hperm : members.Perm members') :
    record.Reads members' where
  takes m hm := h.takes m (hperm.mem_iff.mpr hm)
  distinct := by
    refine (hperm.pairwise_iff ?_).mp h.distinct
    intro a b hab hba
    exact hab (hba.imp fun _ h ↦ ⟨h.1, h.2.2, h.2.1⟩)

theorem Reads.of_cons (h : record.Reads (member :: members)) : record.Reads members where
  takes := (List.forall_mem_cons.mp h.takes).2
  distinct := (List.pairwise_cons.mp h.distinct).2

theorem Reads.cons_unknown (h : record.Reads members) (hname : HasName member name)
    (hunknown : record.isKnown name = false) (hpass : record.pass member.2 = .ok ()) :
    record.Reads (member :: members) where
  takes := by
    refine List.forall_mem_cons.mpr ⟨⟨name, hname, ?_⟩, h.takes⟩
    rwa [if_neg (by rw [hunknown]; exact Bool.false_ne_true)]
  distinct := by
    refine h.distinct.cons fun m _ ↦ ?_
    rintro ⟨name', hknown, hname', _⟩
    rw [hname'.unique hname, hunknown] at hknown
    exact Bool.false_ne_true hknown

/-- Behind a member, its name does not return if it is known. -/
theorem Reads.lacks_of_cons (h : record.Reads (member :: members)) (hname : HasName member name)
    (hknown : record.isKnown name = true) : Lacks members name :=
  fun m hm hname' ↦ (List.pairwise_cons.mp h.distinct).1 m hm ⟨name, hknown, hname, hname'⟩

/-- The value of a known name may be replaced by another that is taken in. -/
theorem Reads.replace {key : Spelling} {value value' : Value}
    (h : record.Reads ((key, value) :: members)) (hname : HasName (key, value) name)
    (hknown : record.isKnown name = true)
    (haccept : ∀ fields, ∃ next, record.accept fields name value' = .ok next) :
    record.Reads ((key, value') :: members) where
  takes := by
    refine List.forall_mem_cons.mpr ⟨⟨name, hname, ?_⟩, h.of_cons.takes⟩
    rwa [if_pos hknown]
  distinct := List.pairwise_cons.mpr (List.pairwise_cons.mp h.distinct)

end Record

end Interconnect.Document
