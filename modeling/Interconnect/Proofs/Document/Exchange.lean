import Interconnect.Proofs.Document.Integers
import Interconnect.Proofs.Document.Positional
import Interconnect.Proofs.Json.Tokens

/-!
# One value in the stead of another

In a text that is read as a document, a value may be exchanged for another one.  Whether the new text
is read depends on this value alone, and what is read differs from the document in one field at most
(`ReadsThrough`).  This holds of the places of a document, of a network and of a design, be they
objects or arrays, and of the items of a router map; so it holds of every place within places.
-/

namespace Interconnect

open Document
open Interconnect.Topology (Kind)
open Json (HasToken Member Numeral Spelling Spells Value)

namespace Document

/-! ## Places -/

/-- An array or object around a value, which stands there under a name or at an index. -/
inductive IsPlace (name : String) (index : ℕ) : (Value → Value) → Prop
  | member {before after : List Member} {key : Spelling} (hkey : key.text? = some name) :
    IsPlace name index fun part ↦ .object (before ++ (key, part) :: after) .closed
  | item {before after : List Value} (hindex : before.length = index) :
    IsPlace name index fun part ↦ .array (before ++ part :: after) .closed

theorem IsPlace.hasToken {name : String} {index : ℕ} {around : Value → Value} {part : Value}
    {text : List Char} (hplace : IsPlace name index around) (h : Spells (around part) text) :
    HasToken part (fun part ↦ Spells (around part)) text := by
  cases hplace with
  | member => exact h.hasToken_object
  | item => exact h.hasToken_array

theorem IsPlace.standsAt {name : String} {index : ℕ} {around : Value → Value}
    (hplace : IsPlace name index around) (part : Value) : StandsAt name index part (around part) := by
  cases hplace with
  | member hkey => exact .member hkey List.mem_append_cons_self
  | item hindex => exact .item (by rw [← hindex, List.getElem?_append_right le_rfl]; simp)

/-- With any value in its place, the whole is read when the value is, and then as what is set from
it. -/
def ReadsThrough {α β : Type} (read : Value → Result α) (around : Value → Value)
    (readPart : Value → Result β) (set : β → α) : Prop :=
  ∀ part a, read (around part) = .ok a ↔ ∃ b, readPart part = .ok b ∧ set b = a

section

variable {α β γ : Type} {read : Value → Result α} {readPart : Value → Result β}
  {readInner : Value → Result γ} {around inner : Value → Value} {set : β → α} {setInner : γ → β}

theorem ReadsThrough.of_read
    (hpart : ∀ {part a}, read (around part) = .ok a → ∃ b, readPart part = .ok b)
    (hset : ∀ {part b}, readPart part = .ok b → read (around part) = .ok (set b)) :
    ReadsThrough read around readPart set := by
  intro part a
  constructor
  · intro h
    obtain ⟨b, hb⟩ := hpart h
    exact ⟨b, hb, Except.ok.inj ((hset hb).symm.trans h)⟩
  · intro h
    obtain ⟨b, hb, rfl⟩ := h
    exact hset hb

/-- A place among members, when what the members hold does not depend on their order. -/
theorem ReadsThrough.of_member {holds : α → List Member → Prop} {before after : List Member}
    {key : Spelling}
    (hiff : ∀ {members a}, read (.object members .closed) = .ok a ↔ holds a members)
    (hperm : ∀ {members members' a}, holds a members → members.Perm members' → holds a members')
    (hpart : ∀ {part a}, holds a ((key, part) :: (before ++ after)) → ∃ b, readPart part = .ok b)
    (hset : ∀ {part b}, readPart part = .ok b → holds (set b) ((key, part) :: (before ++ after))) :
    ReadsThrough read (fun part ↦ .object (before ++ (key, part) :: after) .closed) readPart
      set := by
  refine .of_read (fun h ↦ ?_) fun h ↦ ?_
  · exact hpart (hperm (hiff.mp h) List.perm_middle)
  · exact hiff.mpr (hperm (hset h) List.perm_middle.symm)

/-- A place within a place is a place. -/
theorem ReadsThrough.within (h : ReadsThrough read around readPart set)
    (hinner : ReadsThrough readPart inner readInner setInner) :
    ReadsThrough read (around ∘ inner) readInner (set ∘ setInner) := by
  intro part a
  constructor
  · intro hread
    obtain ⟨b, hb, rfl⟩ := (h _ a).mp hread
    obtain ⟨c, hc, rfl⟩ := (hinner _ b).mp hb
    exact ⟨c, hc, rfl⟩
  · intro hread
    obtain ⟨c, hc, rfl⟩ := hread
    exact (h _ _).mpr ⟨_, (hinner _ _).mpr ⟨c, hc, rfl⟩, rfl⟩

end

/-! ## Items that are read one by one -/

section

variable {α : Type} {read : Value → Result α} {values before after : List Value} {part : Value}
  {as : List α}

theorem length_of_mapM_eq_ok (h : values.mapM read = .ok as) : as.length = values.length := by
  induction values generalizing as with
  | nil =>
    cases h
    rfl
  | cons value values ih =>
    rw [List.mapM_cons] at h
    obtain ⟨a, -, h⟩ := bind_eq_ok_iff.mp h
    obtain ⟨rest, hrest, rfl⟩ := map_eq_ok_iff.mp h
    rw [List.length_cons, List.length_cons, ih hrest]

theorem mapM_append_cons_eq_ok_iff :
    (before ++ part :: after).mapM read = .ok as ↔
      ∃ front a back, before.mapM read = .ok front ∧ read part = .ok a ∧
        after.mapM read = .ok back ∧ front ++ a :: back = as := by
  rw [List.mapM_append, List.mapM_cons]
  simp only [bind_eq_ok_iff]
  constructor
  · intro h
    obtain ⟨front, hfront, _, ⟨a, ha, back, hback, h⟩, h'⟩ := h
    cases h
    cases h'
    exact ⟨front, a, back, hfront, ha, hback, rfl⟩
  · intro h
    obtain ⟨front, a, back, hfront, ha, hback, rfl⟩ := h
    exact ⟨front, hfront, _, ⟨a, ha, back, hback, rfl⟩, rfl⟩

end

/-! ## Documents -/

section

variable {document : Document} {around : Value → Value} {part : Value}

theorem reads_version (hplace : IsPlace "schema_version" 0 around)
    (h : ofValue (around part) = .ok document) :
    ReadsThrough ofValue around readVersion fun version ↦ { document with version } := by
  cases hplace with
  | @member before after key hkey =>
    have hheld : document.IsHeldBy ((key, part) :: (before ++ after)) :=
      (ofMembers_eq_ok_iff.mp h).perm List.perm_middle
    refine .of_member ofMembers_eq_ok_iff IsHeldBy.perm (fun h' ↦ ?_) (hheld.with_version hkey)
    exact ⟨_, h'.reads.read_of_holds List.mem_cons_self hkey rfl h'.version⟩
  | @item before after hindex =>
    obtain rfl := List.length_eq_zero_iff.mp hindex
    obtain ⟨_, design, network, hitems, -, hdesign, hnetwork⟩ := ofItems_eq_ok_iff.mp h
    cases hitems
    refine .of_read (fun h' ↦ ?_) fun hread ↦ ?_
    · obtain ⟨_, _, _, hitems, hversion, -⟩ := ofItems_eq_ok_iff.mp h'
      cases hitems
      exact ⟨_, hversion⟩
    · exact ofItems_eq_ok_iff.mpr ⟨_, _, _, rfl, hread, hdesign, hnetwork⟩

theorem reads_design (hplace : IsPlace "topology" 1 around)
    (h : ofValue (around part) = .ok document) :
    ReadsThrough ofValue around (Design.ofValue 2) fun design ↦ { document with design } := by
  refine .of_read (fun {part' document'} h' ↦ ?_) fun {part' design} hread ↦ ?_
  · exact ⟨_, (hplace.standsAt part').design_eq_ok h'⟩
  cases hplace with
  | member hkey =>
    have hheld := (ofMembers_eq_ok_iff.mp h).perm List.perm_middle
    exact ofMembers_eq_ok_iff.mpr ((hheld.with_design hkey hread).perm List.perm_middle.symm)
  | @item before after hindex =>
    obtain ⟨version, rfl⟩ := List.length_eq_one_iff.mp hindex
    obtain ⟨_, _, network, hitems, hversion, -, hnetwork⟩ := ofItems_eq_ok_iff.mp h
    cases hitems
    exact ofItems_eq_ok_iff.mpr ⟨_, _, _, rfl, hversion, hread, hnetwork⟩

theorem reads_network (hplace : IsPlace "network" 2 around)
    (h : ofValue (around part) = .ok document) :
    ReadsThrough ofValue around Network.ofValue fun network ↦ { document with network } := by
  refine .of_read (fun {part' document'} h' ↦ ?_) fun {part' network} hread ↦ ?_
  · exact ⟨_, (hplace.standsAt part').network_eq_ok h'⟩
  cases hplace with
  | member hkey =>
    have hheld := (ofMembers_eq_ok_iff.mp h).perm List.perm_middle
    exact ofMembers_eq_ok_iff.mpr ((hheld.with_network hkey hread).perm List.perm_middle.symm)
  | @item before after hindex =>
    obtain ⟨version, design, rfl⟩ := List.length_eq_two.mp hindex
    obtain ⟨_, _, _, hitems, hversion, hdesign, -⟩ := ofItems_eq_ok_iff.mp h
    cases hitems
    exact ofItems_eq_ok_iff.mpr ⟨_, _, _, rfl, hversion, hdesign, hread⟩

end

end Document

/-! ## Networks -/

namespace Network

theorem readRouters_closed_eq_ok_iff {items : List Value} {routerMap : Array Int64} :
    readRouters (.array items .closed) = .ok routerMap ↔
      items.mapM readRouterId = .ok routerMap.toList := by
  refine map_eq_ok_iff.trans ?_
  constructor
  · intro h
    obtain ⟨routers, hrouters, rfl⟩ := h
    exact hrouters
  · intro h
    exact ⟨_, h, Array.toArray_toList⟩

variable {network : Network} {routerMap : Array Int64} {around : Value → Value} {part : Value}

theorem reads_routerMap (hplace : IsPlace "attached_router_id" 0 around)
    (h : ofValue (around part) = .ok network) :
    ReadsThrough ofValue around readRouters fun routerMap ↦ { network with routerMap } := by
  cases hplace with
  | @member before after key hkey =>
    have hheld : network.IsHeldBy ((key, part) :: (before ++ after)) :=
      (ofMembers_eq_ok_iff.mp h).perm List.perm_middle
    refine .of_member ofMembers_eq_ok_iff IsHeldBy.perm (fun h' ↦ ?_) (hheld.with_routerMap hkey)
    exact ⟨_, h'.reads.read_of_holds List.mem_cons_self hkey rfl h'.routerMap⟩
  | @item before after hindex =>
    obtain rfl := List.length_eq_zero_iff.mp hindex
    obtain ⟨_, -, hitems⟩ := ofItems_eq_ok_iff.mp h
    refine .of_read (fun h' ↦ ?_) fun hread ↦ ofItems_eq_ok_iff.mpr ⟨_, hread, ?_⟩
    · obtain ⟨_, hrouters, ⟨hitems, -⟩ | ⟨_, hitems, -⟩⟩ := ofItems_eq_ok_iff.mp h'
      · cases hitems
        exact ⟨_, hrouters⟩
      · cases hitems
        exact ⟨_, hrouters⟩
    · rcases hitems with ⟨hitems, hpath⟩ | ⟨path, hitems, hpath⟩
      · cases hitems
        exact .inl ⟨rfl, hpath⟩
      · cases hitems
        exact .inr ⟨path, rfl, hpath⟩

/-- The routers of a map are read one by one. -/
theorem reads_router {before after : List Value}
    (h : readRouters (.array (before ++ part :: after) .closed) = .ok routerMap) :
    ReadsThrough readRouters (fun part ↦ .array (before ++ part :: after) .closed) readRouterId
      (routerMap.setIfInBounds before.length) := by
  obtain ⟨front, old, back, hfront, -, hback, heq⟩ :=
    mapM_append_cons_eq_ok_iff.mp (readRouters_closed_eq_ok_iff.mp h)
  refine .of_read (fun h' ↦ ?_) fun {part router} hread ↦ ?_
  · obtain ⟨_, router, _, -, hrouter, -⟩ :=
      mapM_append_cons_eq_ok_iff.mp (readRouters_closed_eq_ok_iff.mp h')
    exact ⟨router, hrouter⟩
  · refine readRouters_closed_eq_ok_iff.mpr (mapM_append_cons_eq_ok_iff.mpr
      ⟨front, router, back, hfront, hread, hback, ?_⟩)
    rw [Array.toList_setIfInBounds, ← heq, ← length_of_mapM_eq_ok hfront]
    simp

end Network

/-! ## Designs -/

namespace Design

/-- The design with another value for the parameter of a name. -/
def withParameter (name : String) (n : UInt64) : Design → Design
  | mesh radix dimension concentration =>
    mesh (if name = "k" then n else radix) (if name = "n" then n else dimension)
      (if name = "concentration" then n else concentration)
  | torus radix dimension concentration =>
    torus (if name = "k" then n else radix) (if name = "n" then n else dimension)
      (if name = "concentration" then n else concentration)
  | fatTree arity => fatTree (if name = "k" then n else arity)
  | dumbbell => dumbbell
  | custom routers nodes =>
    custom (if name = "routers" then n else routers) (if name = "nodes" then n else nodes)

variable {design : Design} {kind : Kind} {name : String} {n : UInt64}

@[simp]
theorem kind_withParameter : (design.withParameter name n).kind = design.kind := by
  cases design <;> rfl

theorem parameters_withParameter :
    (design.withParameter name n).parameters =
      design.parameters.map fun parameter ↦
        (parameter.1, if name = parameter.1 then n else parameter.2) := by
  cases design <;> rfl

/-! ### Members -/

section

variable {depth : ℕ} {members : List Member} {key : Spelling} {part part' : Value}

/-- A member with the name of a parameter is a count. -/
theorem IsHeldBy.exists_count (h : design.IsHeldBy depth ((key, part) :: members))
    (hname : HasName (key, part) name) (hfield : name ∈ design.kind.fields) :
    ∃ n, readCount part = .ok n := by
  obtain ⟨name', hname', htakes⟩ := h.reads_parameters.takes _ List.mem_cons_self
  obtain rfl := hname.unique hname'
  have hknown : (parameterRecord design.kind).isKnown name = true :=
    List.contains_iff_mem.mpr hfield
  rw [if_pos hknown] at htakes
  obtain ⟨next, hnext⟩ := htakes []
  obtain ⟨n, hn, -⟩ := map_eq_ok_iff.mp hnext
  exact ⟨n, hn⟩

theorem firstFault?_of_readCount (h : readCount part = .ok n) :
    firstFault? depth part = none := by
  obtain ⟨numeral, rfl, hnumber⟩ := exists_number_of_readCount h
  rw [firstFault?, hnumber]
  rfl

theorem IsHeldBy.with_parameter (h : design.IsHeldBy depth ((key, part) :: members))
    (hname : HasName (key, part) name) (hfield : name ∈ design.kind.fields)
    (hread : readCount part' = .ok n) :
    (design.withParameter name n).IsHeldBy depth ((key, part') :: members) := by
  have hne : name ≠ "kind" := fun hkind ↦ design.kind.kind_notMem_fields (hkind ▸ hfield)
  have hkind : ¬ HasName (key, part) "kind" := fun hkind ↦ hne (hname.unique hkind)
  refine ⟨?_, ?_, ?_, ?_⟩
  -- To the first pass, a parameter is a member that is no kind and has to be read in full.
  · refine h.reads.of_cons.cons_unknown hname (beq_eq_false_iff_ne.mpr hne) ?_
    change readWhole (depth + 1) part' = .ok ()
    rw [readWhole, firstFault?_of_readCount hread]
  · rw [kind_withParameter]
    exact h.kind.replace hkind part'
  · rw [kind_withParameter]
    refine h.reads_parameters.replace hname (List.contains_iff_mem.mpr hfield) fun parameters ↦ ?_
    exact ⟨_, map_eq_ok_iff.mpr ⟨n, hread, rfl⟩⟩
  · rw [parameters_withParameter]
    refine List.forall_mem_map.mpr fun parameter hparameter ↦ ?_
    by_cases hsame : name = parameter.1
    · rw [if_pos hsame]
      exact .inl ⟨_, List.mem_cons_self, hsame ▸ hname, hread⟩
    · rw [if_neg hsame]
      have hother : ¬ HasName (key, part) parameter.1 := fun hother ↦ hsame (hname.unique hother)
      exact (h.parameters parameter hparameter).imp (·.replace hother part')
        (·.imp_left fun hlacks ↦ hlacks.of_cons.cons hother)

/-- The kind of a design does not depend on its parameters. -/
theorem IsHeldBy.kind_eq {design' : Design} (h : design.IsHeldBy depth ((key, part) :: members))
    (h' : design'.IsHeldBy depth ((key, part') :: members)) (hname : HasName (key, part) name)
    (hfield : name ∈ design.kind.fields) : design'.kind = design.kind := by
  have hne : ¬ HasName (key, part) "kind" := fun hkind ↦
    design.kind.kind_notMem_fields (hname.unique hkind ▸ hfield)
  exact h.reads.of_cons.holds_unique rfl (h'.kind.of_cons hne) (h.kind.of_cons hne)

end

/-! ### Items -/

/-- With another value in the place of a name, the others stay under their names. -/
theorem lookup_zip_exchange {earlier later : List String} {front back : List UInt64}
    (hlength : earlier.length = front.length) (hname : name ∉ earlier) (old : UInt64)
    (other : String) :
    ((earlier ++ name :: later).zip (front ++ n :: back)).lookup other =
      if name = other then some n
      else ((earlier ++ name :: later).zip (front ++ old :: back)).lookup other := by
  simp only [List.zip_append hlength, List.zip_cons_cons, List.lookup_append]
  split
  · next hsame =>
    subst hsame
    have hnone : (earlier.zip front).lookup name = none := by
      refine List.lookup_eq_none_iff.mpr fun pair hpair ↦ bne_iff_ne.mpr ?_
      rintro rfl
      exact hname (List.of_mem_zip hpair).1
    rw [hnone, List.lookup_cons_self, Option.none_or]
  · next hne =>
    have hother : (other == name) = false := beq_eq_false_iff_ne.mpr (Ne.symm hne)
    simp only [List.lookup_cons, hother]

theorem ofParameters_exchange {earlier later : List String} {front back : List UInt64}
    {old : UInt64} (hfields : kind.fields = earlier ++ name :: later)
    (hlength : earlier.length = front.length)
    (h : ofParameters kind (kind.fields.zip (front ++ old :: back)) = .ok design) :
    ofParameters kind (kind.fields.zip (front ++ n :: back)) =
      .ok (design.withParameter name n) := by
  have hname : name ∉ earlier := by
    have hnodup := kind.nodup_fields
    rw [hfields, List.nodup_append] at hnodup
    exact fun hmem ↦ hnodup.2.2 name hmem name List.mem_cons_self rfl
  rw [hfields] at h ⊢
  obtain ⟨hkind, hparameters⟩ := ofParameters_eq_ok_iff.mp h
  refine ofParameters_eq_ok_iff.mpr ⟨kind_withParameter.trans hkind, ?_⟩
  rw [parameters_withParameter]
  refine List.forall_mem_map.mpr fun parameter hparameter ↦ ?_
  rw [lookup_zip_exchange hlength hname old]
  by_cases hsame : name = parameter.1
  · exact .inl (by rw [if_pos hsame, if_pos hsame])
  · rw [if_neg hsame, if_neg hsame]
    exact hparameters parameter hparameter

section

variable {depth : ℕ} {before after : List Value} {part part' : Value}

theorem exists_count_of_ofItems (h : ofItems kind (before ++ part :: after) = .ok design) :
    ∃ n, readCount part = .ok n := by
  obtain ⟨-, -, _, hcounts, -⟩ := ofItems_eq_ok_iff.mp h
  obtain ⟨_, n, _, -, hn, -⟩ := mapM_append_cons_eq_ok_iff.mp hcounts
  exact ⟨n, hn⟩

theorem ofItems_exchange {earlier later : List String}
    (hfields : kind.fields = earlier ++ name :: later) (hindex : before.length = earlier.length)
    (h : ofItems kind (before ++ part :: after) = .ok design) (hread : readCount part' = .ok n) :
    ofItems kind (before ++ part' :: after) = .ok (design.withParameter name n) := by
  obtain ⟨hrequired, hfits, counts, hcounts, hparameters⟩ := ofItems_eq_ok_iff.mp h
  obtain ⟨front, old, back, hfront, -, hback, rfl⟩ := mapM_append_cons_eq_ok_iff.mp hcounts
  have hcounts' : (before ++ part' :: after).mapM readCount = .ok (front ++ n :: back) :=
    mapM_append_cons_eq_ok_iff.mpr ⟨front, n, back, hfront, hread, hback, rfl⟩
  have hitems : (before ++ part' :: after).length = (before ++ part :: after).length := by
    simp only [List.length_append, List.length_cons]
  have hlength : earlier.length = front.length := by
    rw [length_of_mapM_eq_ok hfront, hindex]
  exact ofItems_eq_ok_iff.mpr ⟨hitems ▸ hrequired, hitems ▸ hfits, _, hcounts',
    ofParameters_exchange hfields hlength hparameters⟩

theorem readWhole_array_eq_ok_iff {items : List Value} :
    readWhole depth (.array items .closed) = .ok () ↔
      depth ≤ maxNesting ∧ ∀ item ∈ items, firstFault? (depth + 1) item = none := by
  rw [← firstItemFault?_eq_none_iff]
  by_cases hdepth : maxNesting < depth
  · have hnle : ¬ depth ≤ maxNesting := Nat.not_le_of_lt hdepth
    simp [readWhole, firstFault?, rejectFault, hdepth, hnle]
  · have hle : depth ≤ maxNesting := Nat.le_of_not_lt hdepth
    cases hitems : firstItemFault? (depth + 1) items <;>
      simp [readWhole, firstFault?, rejectFault, hdepth, hle, hitems]

theorem readWhole_exchange
    (h : readWhole depth (.array (before ++ part :: after) .closed) = .ok ())
    (hpart : firstFault? (depth + 1) part' = none) :
    readWhole depth (.array (before ++ part' :: after) .closed) = .ok () := by
  rw [readWhole_array_eq_ok_iff, List.forall_mem_append, List.forall_mem_cons] at h ⊢
  obtain ⟨hdepth, hbefore, -, hafter⟩ := h
  exact ⟨hdepth, hbefore, hpart, hafter⟩

end

/-- The parameters of a design are read one by one, from members as well as from items. -/
theorem reads_parameter {depth : ℕ} {earlier later : List String} {around : Value → Value}
    {part : Value} (hplace : IsPlace name (earlier.length + 1) around)
    (hfields : design.kind.fields = earlier ++ name :: later)
    (h : ofValue depth (around part) = .ok design) :
    ReadsThrough (ofValue depth) around readCount (design.withParameter name) := by
  have hfield : name ∈ design.kind.fields := hfields ▸ List.mem_append_cons_self
  cases hplace with
  | @member before after key hkey =>
    have hheld : design.IsHeldBy depth ((key, part) :: (before ++ after)) :=
      (ofMembers_eq_ok_iff.mp h).perm List.perm_middle
    refine .of_member ofMembers_eq_ok_iff IsHeldBy.perm (fun {part' design'} h' ↦ ?_)
      (hheld.with_parameter hkey hfield)
    exact h'.exists_count hkey (hheld.kind_eq h' hkey hfield ▸ hfield)
  | @item before after hindex =>
    obtain ⟨first, rest, kind, hitems, hkind, hwhole, hdesign⟩ := ofValue_array_eq_ok_iff.mp h
    have hsame : design.kind = kind := by
      obtain ⟨-, -, _, -, hparameters⟩ := ofItems_eq_ok_iff.mp hdesign
      exact (ofParameters_eq_ok_iff.mp hparameters).1
    subst hsame
    -- The kind comes first, so a parameter stands one place behind its place among the fields.
    cases before with
    | nil => cases hindex
    | cons head before =>
      cases hitems
      refine .of_read (fun h' ↦ ?_) fun {part' n} hread ↦ ?_
      · obtain ⟨_, _, _, hitems, -, -, hdesign'⟩ := ofValue_array_eq_ok_iff.mp h'
        cases hitems
        exact exists_count_of_ofItems hdesign'
      · exact ofValue_array_eq_ok_iff.mpr ⟨_, before ++ part' :: after, _, rfl, hkind,
          readWhole_exchange hwhole (firstFault?_of_readCount hread),
          ofItems_exchange hfields (Nat.succ.inj hindex) hdesign hread⟩

end Design

end Interconnect
