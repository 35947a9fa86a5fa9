import Mathlib.Data.List.Basic
import Interconnect.Binding

/-!
# What the index of a binding holds

The index is built by one pass over the attachments that stops at the first router the topology does
not have.  `Binding.foldlM_place_eq_ok_iff` and `Binding.foldlM_place_eq_error_iff` say when that
happens and what the pass leaves behind otherwise: the nodes on a router are those of the
attachments to it, in the order of the attachments, behind the nodes it had before.
-/

namespace Interconnect

theorem Network.getElem?_attachments (network : Network) (node : ℕ) :
    network.attachments[node]? = network.routerMap[node]?.map (Attachment.mk node) :=
  Array.getElem?_mapIdx

namespace RouterIndex

/-- Takes in attachments to routers that are known to exist. -/
def pushAll (index : RouterIndex) (attachments : List Attachment) : RouterIndex :=
  attachments.foldl (fun index a ↦ index.push a.router.toUInt64 a.node) index

theorem nodesOn_pushAll (index : RouterIndex) (attachments : List Attachment) (router : Int64) :
    (index.pushAll attachments).nodesOn router.toUInt64 =
      index.nodesOn router.toUInt64 ++
        (attachments.filter (·.router = router)).map (·.node) := by
  induction attachments generalizing index with
  | nil => exact (List.append_nil _).symm
  | cons a rest ih =>
    have hstep : index.pushAll (a :: rest) =
        (index.push a.router.toUInt64 a.node).pushAll rest := rfl
    rw [hstep, ih, nodesOn_push]
    by_cases h : a.router = router
    · rw [if_pos (congrArg Int64.toUInt64 h), List.filter_cons_of_pos (by simpa using h),
        List.map_cons, List.append_assoc]
      rfl
    · have hword : a.router.toUInt64 ≠ router.toUInt64 := fun heq ↦ h (by
        rw [← a.router.toInt64_toUInt64, heq, router.toInt64_toUInt64])
      rw [if_neg hword, List.filter_cons_of_neg (by simpa using h)]

end RouterIndex

namespace Binding

variable {topology : Topology} {attachments : List Attachment}

theorem place_of_hasRouter {a : Attachment} (index : RouterIndex)
    (h : topology.HasRouter a.router) :
    place topology index a = .ok (index.push a.router.toUInt64 a.node) := by
  rw [place, topology.router?_of_hasRouter h]

theorem place_of_not_hasRouter {a : Attachment} (index : RouterIndex)
    (h : ¬ topology.HasRouter a.router) :
    place topology index a = .error (.unknownRouter a topology.routers.toNat) := by
  rw [place, topology.router?_of_not_hasRouter h]

/-- As long as the routers exist, the pass goes on. -/
theorem foldlM_place_append {known : List Attachment}
    (h : ∀ a ∈ known, topology.HasRouter a.router) (rest : List Attachment)
    (index : RouterIndex) :
    (known ++ rest).foldlM (place topology) index =
      rest.foldlM (place topology) (index.pushAll known) := by
  induction known generalizing index with
  | nil => rfl
  | cons a known ih =>
    have ha := h a List.mem_cons_self
    rw [List.cons_append, List.foldlM_cons, place_of_hasRouter index ha]
    exact ih (fun b hb ↦ h b (List.mem_cons_of_mem a hb)) _

/-- The attachments before the first one to an unknown router, and those from there on. -/
theorem exists_known_prefix (topology : Topology) (attachments : List Attachment) :
    (∀ a ∈ attachments, topology.HasRouter a.router) ∨
      ∃ known a rest, attachments = known ++ a :: rest ∧
        (∀ b ∈ known, topology.HasRouter b.router) ∧ ¬ topology.HasRouter a.router := by
  induction attachments with
  | nil => exact .inl fun a ha ↦ absurd ha List.not_mem_nil
  | cons a attachments ih =>
    by_cases ha : topology.HasRouter a.router
    · rcases ih with hall | ⟨known, b, rest, rfl, hknown, hb⟩
      · exact .inl (List.forall_mem_cons.mpr ⟨ha, hall⟩)
      · exact .inr ⟨a :: known, b, rest, rfl, List.forall_mem_cons.mpr ⟨ha, hknown⟩, hb⟩
    · exact .inr ⟨[], a, attachments, rfl, fun b hb ↦ absurd hb List.not_mem_nil, ha⟩

theorem foldlM_place_of_known (h : ∀ a ∈ attachments, topology.HasRouter a.router)
    (index : RouterIndex) :
    attachments.foldlM (place topology) index = .ok (index.pushAll attachments) := by
  have happend := foldlM_place_append h [] index
  rwa [List.append_nil] at happend

theorem foldlM_place_of_unknown {known rest : List Attachment} {a : Attachment}
    (h : ∀ b ∈ known, topology.HasRouter b.router) (ha : ¬ topology.HasRouter a.router)
    (index : RouterIndex) :
    (known ++ a :: rest).foldlM (place topology) index =
      .error (.unknownRouter a topology.routers.toNat) := by
  rw [foldlM_place_append h, List.foldlM_cons, place_of_not_hasRouter _ ha]
  rfl

theorem foldlM_place_eq_ok_iff {index result : RouterIndex} :
    attachments.foldlM (place topology) index = .ok result ↔
      (∀ a ∈ attachments, topology.HasRouter a.router) ∧ result = index.pushAll attachments := by
  constructor
  · intro h
    rcases exists_known_prefix topology attachments with hall | ⟨known, a, rest, rfl, hknown, ha⟩
    · rw [foldlM_place_of_known hall] at h
      exact ⟨hall, (Except.ok.inj h).symm⟩
    · rw [foldlM_place_of_unknown hknown ha] at h
      cases h
  · intro h
    rcases h with ⟨hall, rfl⟩
    exact foldlM_place_of_known hall index

theorem foldlM_place_eq_error_iff {index : RouterIndex} {e : Error} :
    attachments.foldlM (place topology) index = .error e ↔
      ∃ known a rest, attachments = known ++ a :: rest ∧
        (∀ b ∈ known, topology.HasRouter b.router) ∧ ¬ topology.HasRouter a.router ∧
        e = .unknownRouter a topology.routers.toNat := by
  constructor
  · intro h
    rcases exists_known_prefix topology attachments with hall | ⟨known, a, rest, rfl, hknown, ha⟩
    · rw [foldlM_place_of_known hall] at h
      cases h
    · rw [foldlM_place_of_unknown hknown ha] at h
      exact ⟨known, a, rest, rfl, hknown, ha, (Except.error.inj h).symm⟩
  · intro h
    rcases h with ⟨known, a, rest, rfl, hknown, ha, rfl⟩
    exact foldlM_place_of_unknown hknown ha index

theorem indexOf_eq (topology : Topology) (attachments : Array Attachment) :
    indexOf topology attachments = attachments.toList.foldlM (place topology) ∅ :=
  (Array.foldlM_toList).symm

end Binding

end Interconnect
