import Interconnect.Proofs.Binding.Index

/-!
# Which networks fit a topology

`Binding.Refusal` lists the reasons to refuse a network in the order in which they count: a wrong
number of nodes, whatever they are attached to; then the first negative router, even behind one past
the last; then the first router past the last.  `Binding.attach` gives the one reason there is, and
succeeds when there is none.  All comparisons are between integers, so that reading a signed router
number as a word changes no outcome.
-/

namespace Interconnect

/-- The attachment of the first node whose router is bad. -/
structure Network.IsFirst (network : Network) (bad : Int64 → Prop) (a : Attachment) : Prop where
  attached : network.routerMap[a.node]? = some a.router
  bad_router : bad a.router
  not_bad_of_lt : ∀ node < a.node, ∀ router, network.routerMap[node]? = some router → ¬ bad router

namespace Binding

/-- The reasons to refuse a network. -/
inductive Refusal (network : Network) (topology : Topology) : Error → Prop
  | nodeCount (hsize : network.size ≠ topology.nodes.toNat) :
    Refusal network topology (.nodeCount topology.nodes.toNat network.size)
  | negativeRouter {a : Attachment} (hsize : network.size = topology.nodes.toNat)
      (hfirst : network.IsFirst (fun router ↦ router.toInt < 0) a) :
    Refusal network topology (.negativeRouter a)
  | unknownRouter {a : Attachment} (hsize : network.size = topology.nodes.toNat)
      (hnonneg : ∀ router ∈ network.routerMap, 0 ≤ router.toInt)
      (hfirst : network.IsFirst (fun router ↦ topology.routers.toNat ≤ router.toInt) a) :
    Refusal network topology (.unknownRouter a topology.routers.toNat)

/-- A network that has a router for every node, all of which exist. -/
def Fits (network : Network) (topology : Topology) : Prop :=
  network.size = topology.nodes.toNat ∧ ∀ router ∈ network.routerMap, topology.HasRouter router

end Binding

/-! ## The first offender -/

namespace Network

variable {network : Network}

theorem IsFirst.mem {bad : Int64 → Prop} {a : Attachment} (h : network.IsFirst bad a) :
    a.router ∈ network.routerMap :=
  Array.mem_of_getElem? h.attached

theorem IsFirst.unique {bad : Int64 → Prop} {a b : Attachment} (ha : network.IsFirst bad a)
    (hb : network.IsFirst bad b) : a = b := by
  have hnode : a.node = b.node := by
    rcases Nat.lt_trichotomy a.node b.node with h | h | h
    · exact absurd ha.bad_router (hb.not_bad_of_lt _ h _ ha.attached)
    · exact h
    · exact absurd hb.bad_router (ha.not_bad_of_lt _ h _ hb.attached)
  have hrouter : some a.router = some b.router := by
    rw [← ha.attached, ← hb.attached, hnode]
  cases a
  cases b
  cases hnode
  cases hrouter
  rfl

/-- An attachment in the list of all stands at the place of its node. -/
theorem node_eq_of_getElem? {i : ℕ} {a : Attachment} (h : network.attachments[i]? = some a) :
    i = a.node ∧ network.routerMap[i]? = some a.router := by
  rw [getElem?_attachments] at h
  obtain ⟨router, hrouter, rfl⟩ := Option.map_eq_some_iff.mp h
  exact ⟨rfl, hrouter⟩

theorem getElem?_attachments_of_eq_some {node : ℕ} {router : Int64}
    (h : network.routerMap[node]? = some router) :
    network.attachments[node]? = some ⟨node, router⟩ := by
  rw [getElem?_attachments, h]
  rfl

/-- A split of the attachments at the first bad one. -/
theorem isFirst_of_split {bad : Int64 → Prop} {good rest : List Attachment} {a : Attachment}
    (hsplit : network.attachments.toList = good ++ a :: rest)
    (hgood : ∀ b ∈ good, ¬ bad b.router) (ha : bad a.router) : network.IsFirst bad a := by
  have hat : network.attachments[good.length]? = some a := by
    rw [← Array.getElem?_toList, hsplit, List.getElem?_append_right (Nat.le_refl _), Nat.sub_self]
    rfl
  obtain ⟨hnode, hrouter⟩ := node_eq_of_getElem? hat
  refine ⟨hnode ▸ hrouter, ha, ?_⟩
  intro node hlt router hnode'
  have hget := getElem?_attachments_of_eq_some hnode'
  rw [← Array.getElem?_toList, hsplit, List.getElem?_append_left (hnode ▸ hlt)] at hget
  exact hgood _ (List.mem_of_getElem? hget)

theorem isFirst_of_find? {bad : Int64 → Prop} {p : Attachment → Bool}
    (hp : ∀ a, p a = true ↔ bad a.router) {a : Attachment}
    (h : network.attachments.find? p = some a) : network.IsFirst bad a := by
  rw [← Array.find?_toList, List.find?_eq_some_iff_append] at h
  obtain ⟨ha, good, rest, hsplit, hgood⟩ := h
  refine isFirst_of_split hsplit (fun b hb ↦ ?_) ((hp a).mp ha)
  have hb' := hgood b hb
  rw [Bool.not_eq_true'] at hb'
  exact fun hbad ↦ Bool.false_ne_true (hb'.symm.trans ((hp b).mpr hbad))

theorem forall_mem_attachments {good : Int64 → Prop} :
    (∀ a ∈ network.attachments, good a.router) ↔ ∀ router ∈ network.routerMap, good router := by
  constructor
  · intro h router hrouter
    obtain ⟨node, hnode⟩ := Array.mem_iff_getElem?.mp hrouter
    exact h ⟨node, router⟩ (mem_attachments.mpr hnode)
  · intro h a ha
    exact h a.router (Array.mem_of_getElem? (mem_attachments.mp ha))

end Network

/-! ## The outcome of attaching -/

namespace Binding

variable {network : Network} {topology : Topology}

theorem isNegative_iff (a : Attachment) : isNegative a = true ↔ a.router.toInt < 0 := by
  rw [isNegative, decide_eq_true_iff, Int64.lt_iff_toInt_lt]
  rfl

theorem not_hasRouter_iff {router : Int64} (h : 0 ≤ router.toInt) :
    ¬ topology.HasRouter router ↔ topology.routers.toNat ≤ router.toInt := by
  unfold Topology.HasRouter
  omega

theorem fits_of_attach_eq_ok {binding : Binding} (h : attach network topology = .ok binding) :
    Fits network topology := by
  unfold attach at h
  split at h
  · cases h
  · next hsize =>
    split at h
    · cases h
    · split at h
      · cases h
      · next index hindex =>
        rw [indexOf_eq, foldlM_place_eq_ok_iff] at hindex
        have hall : ∀ a ∈ network.attachments, topology.HasRouter a.router :=
          fun a ha ↦ hindex.1 a (Array.mem_toList_iff.mpr ha)
        exact ⟨Decidable.of_not_not hsize, Network.forall_mem_attachments.mp hall⟩

theorem refusal_of_attach_eq_error {e : Error} (h : attach network topology = .error e) :
    Refusal network topology e := by
  unfold attach at h
  split at h
  · next hsize =>
    cases h
    exact .nodeCount hsize
  · next hsize =>
    have hsize' := Decidable.of_not_not hsize
    split at h
    · next a hfind =>
      cases h
      exact .negativeRouter hsize' (Network.isFirst_of_find? isNegative_iff hfind)
    · next hnone =>
      have hnonneg : ∀ router ∈ network.routerMap, 0 ≤ router.toInt := by
        refine Network.forall_mem_attachments.mp fun a ha ↦ ?_
        have hpos := Array.find?_eq_none.mp hnone a ha
        rw [isNegative_iff] at hpos
        exact Int.not_lt.mp hpos
      split at h
      · next e' hindex =>
        cases h
        rw [indexOf_eq, foldlM_place_eq_error_iff] at hindex
        obtain ⟨known, a, rest, hsplit, hknown, ha, rfl⟩ := hindex
        refine .unknownRouter hsize' hnonneg (Network.isFirst_of_split hsplit ?_ ?_)
        · intro b hb hpast
          exact absurd (hknown b hb).2 (Int.not_lt.mpr hpast)
        · have hmem : a ∈ network.attachments := by
            rw [← Array.mem_toList_iff, hsplit]
            exact List.mem_append_right _ List.mem_cons_self
          exact (not_hasRouter_iff (Network.forall_mem_attachments.mpr hnonneg a hmem)).mp ha
      · cases h

theorem Refusal.not_fits {e : Error} (h : Refusal network topology e) :
    ¬ Fits network topology := by
  intro hfits
  rcases hfits with ⟨hsize, hall⟩
  cases h with
  | nodeCount hne => exact hne hsize
  | negativeRouter _ hfirst => exact absurd (hall _ hfirst.mem).1 (Int.not_le.mpr hfirst.bad_router)
  | unknownRouter _ _ hfirst =>
    exact absurd (hall _ hfirst.mem).2 (Int.not_lt.mpr hfirst.bad_router)

/-- There is never more than one reason: each counts only in the absence of those before it. -/
theorem Refusal.unique {e e' : Error} (h : Refusal network topology e)
    (h' : Refusal network topology e') : e = e' := by
  cases h with
  | nodeCount hne =>
    cases h' with
    | nodeCount _ => rfl
    | negativeRouter hsize _ => exact absurd hsize hne
    | unknownRouter hsize _ _ => exact absurd hsize hne
  | negativeRouter hsize hfirst =>
    cases h' with
    | nodeCount hne => exact absurd hsize hne
    | negativeRouter _ hfirst' => rw [hfirst.unique hfirst']
    | unknownRouter _ hnonneg _ =>
      exact absurd (hnonneg _ hfirst.mem) (Int.not_le.mpr hfirst.bad_router)
  | unknownRouter hsize hnonneg hfirst =>
    cases h' with
    | nodeCount hne => exact absurd hsize hne
    | negativeRouter _ hfirst' =>
      exact absurd (hnonneg _ hfirst'.mem) (Int.not_le.mpr hfirst'.bad_router)
    | unknownRouter _ _ hfirst' => rw [hfirst.unique hfirst']

theorem attach_eq_error_iff {e : Error} :
    attach network topology = .error e ↔ Refusal network topology e := by
  constructor
  · exact refusal_of_attach_eq_error
  · intro h
    cases hattach : attach network topology with
    | error e' => rw [h.unique (refusal_of_attach_eq_error hattach)]
    | ok binding => exact absurd (fits_of_attach_eq_ok hattach) h.not_fits

theorem network_of_attach_eq_ok {binding : Binding} (h : attach network topology = .ok binding) :
    binding.network = network ∧ binding.topology = topology := by
  unfold attach at h
  split at h
  · cases h
  · split at h
    · cases h
    · split at h
      · cases h
      · cases h
        exact ⟨rfl, rfl⟩

theorem exists_attach_eq_ok (h : Fits network topology) :
    ∃ binding, attach network topology = .ok binding ∧
      binding.network = network ∧ binding.topology = topology := by
  cases hattach : attach network topology with
  | error e => exact absurd h (refusal_of_attach_eq_error hattach).not_fits
  | ok binding => exact ⟨binding, rfl, network_of_attach_eq_ok hattach⟩

theorem exists_refusal (h : ¬ Fits network topology) : ∃ e, Refusal network topology e := by
  cases hattach : attach network topology with
  | error e => exact ⟨e, refusal_of_attach_eq_error hattach⟩
  | ok binding => exact absurd (fits_of_attach_eq_ok hattach) h

theorem exists_nodeCount_iff :
    (∃ expected actual, Refusal network topology (.nodeCount expected actual)) ↔
      network.size ≠ topology.nodes.toNat := by
  constructor
  · intro hrefusal
    rcases hrefusal with ⟨_, _, ⟨hne⟩⟩
    exact hne
  · intro hne
    exact ⟨_, _, .nodeCount hne⟩

theorem exists_negativeRouter_iff (hsize : network.size = topology.nodes.toNat) :
    (∃ a, Refusal network topology (.negativeRouter a)) ↔
      ∃ router ∈ network.routerMap, router.toInt < 0 := by
  constructor
  · intro hrefusal
    rcases hrefusal with ⟨a, _ | ⟨_, hfirst⟩⟩
    exact ⟨a.router, hfirst.mem, hfirst.bad_router⟩
  · intro hbad
    rcases hbad with ⟨router, hmem, hneg⟩
    obtain ⟨e, he⟩ := exists_refusal fun hfits : Fits network topology ↦
      absurd (hfits.2 router hmem).1 (Int.not_le.mpr hneg)
    cases he with
    | nodeCount hne => exact absurd hsize hne
    | negativeRouter _ hfirst => exact ⟨_, .negativeRouter hsize hfirst⟩
    | unknownRouter _ hnonneg _ => exact absurd (hnonneg router hmem) (Int.not_le.mpr hneg)

theorem exists_unknownRouter_iff (hsize : network.size = topology.nodes.toNat)
    (hnonneg : ∀ router ∈ network.routerMap, 0 ≤ router.toInt) :
    (∃ a, Refusal network topology (.unknownRouter a topology.routers.toNat)) ↔
      ∃ router ∈ network.routerMap, topology.routers.toNat ≤ router.toInt := by
  constructor
  · intro hrefusal
    rcases hrefusal with ⟨a, _ | _ | ⟨_, _, hfirst⟩⟩
    exact ⟨a.router, hfirst.mem, hfirst.bad_router⟩
  · intro hbad
    rcases hbad with ⟨router, hmem, hpast⟩
    obtain ⟨e, he⟩ := exists_refusal fun hfits : Fits network topology ↦
      absurd (hfits.2 router hmem).2 (Int.not_lt.mpr hpast)
    cases he with
    | nodeCount hne => exact absurd hsize hne
    | negativeRouter _ hfirst =>
      exact absurd (hnonneg _ hfirst.mem) (Int.not_le.mpr hfirst.bad_router)
    | unknownRouter _ _ hfirst => exact ⟨_, .unknownRouter hsize hnonneg hfirst⟩

/-- Attaching succeeds exactly when there is a router for every node and each of them exists;
otherwise it names the first failing check, and the first node that fails it. -/
theorem attach_decides (network : Network) (topology : Topology) :
    (∀ e, attach network topology = .error e ↔ Refusal network topology e) ∧
      ((∃ expected actual, attach network topology = .error (.nodeCount expected actual)) ↔
        network.size ≠ topology.nodes.toNat) ∧
      (network.size = topology.nodes.toNat →
        ((∃ a, attach network topology = .error (.negativeRouter a)) ↔
          ∃ router ∈ network.routerMap, router.toInt < 0)) ∧
      (network.size = topology.nodes.toNat →
        (∀ router ∈ network.routerMap, 0 ≤ router.toInt) →
        ((∃ a, attach network topology =
            .error (.unknownRouter a topology.routers.toNat)) ↔
          ∃ router ∈ network.routerMap, topology.routers.toNat ≤ router.toInt)) ∧
      ((∃ binding, attach network topology = .ok binding ∧
          binding.network = network ∧ binding.topology = topology) ↔
        network.size = topology.nodes.toNat ∧
          ∀ router ∈ network.routerMap,
            0 ≤ router.toInt ∧ router.toInt < topology.routers.toNat) := by
  refine ⟨fun e ↦ attach_eq_error_iff, ?_⟩
  simp only [attach_eq_error_iff]
  refine ⟨exists_nodeCount_iff, exists_negativeRouter_iff, exists_unknownRouter_iff, ?_⟩
  constructor
  · intro hok
    rcases hok with ⟨binding, hattach, _⟩
    exact fits_of_attach_eq_ok hattach
  · exact exists_attach_eq_ok

/-- The negative router counts, although a node before it is attached past the last router. -/
example : attach (.withDefaultConfig #[5, -1]) .dumbbell = .error (.negativeRouter ⟨1, -1⟩) := by
  rfl

end Binding

end Interconnect
