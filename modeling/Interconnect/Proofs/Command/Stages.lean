import Mathlib.Data.Nat.Notation
import Interconnect.Proofs.Binding.Acceptance
import Interconnect.Proofs.Command.Arguments
import Interconnect.Proofs.Document.RoundTrip
import Interconnect.Proofs.Text.Lines

/-!
# The stages of a check

A check goes through the stages in `Check.Stage`.  `Check.Fails` says of each stage when it fails,
and with which error, looking at nothing but what the stage is about: a negative router fails its
stage whether or not there are as many routers as nodes, and a missing configuration file fails its
stage whether or not the network binds.  A check fails with the error of the first stage that fails
(`Check.bindDocument_eq_error_iff`), and succeeds exactly when no stage does
(`Check.exists_bindDocument_eq_ok_iff`).
-/

namespace Interconnect

/-! ## Files -/

namespace Files

variable (files : Files) (path : String)

/-- The path leads to a file that holds a text. -/
def HoldsText (text : String) : Prop :=
  files.lookup path = .ok (.file text.toUTF8)

/-- The ways in which a path fails to lead to a text. -/
inductive Unreadable : Fault → Prop
  | unreachable {fault : Fault} (h : files.lookup path = .error fault) : Unreadable fault
  | directory (h : files.lookup path = .ok .directory) : Unreadable .isDirectory
  | notText {content : ByteArray} (h : files.lookup path = .ok (.file content))
      (htext : ¬ content.IsValidUTF8) : Unreadable .notText

/-- The ways in which a path fails to lead to a regular file. -/
inductive Irregular : Fault → Prop
  | unreachable {fault : Fault} (h : files.lookup path = .error fault) : Irregular fault
  | directory (h : files.lookup path = .ok .directory) : Irregular .notRegular

variable {files path}

theorem holdsText_of_readText_eq_ok {text : String} (h : files.readText path = .ok text) :
    files.HoldsText path text := by
  unfold readText at h
  split at h
  · cases h
  · cases h
  · next content hfile =>
    unfold String.fromUTF8? at h
    by_cases hvalid : content.IsValidUTF8
    · rw [dif_pos hvalid] at h
      cases h
      exact hfile
    · rw [dif_neg hvalid] at h
      cases h

theorem readText_eq_error_iff {fault : Fault} :
    files.readText path = .error fault ↔ files.Unreadable path fault := by
  constructor
  · intro h
    unfold readText at h
    split at h
    · next hlookup =>
      cases h
      exact .unreachable hlookup
    · next hlookup =>
      cases h
      exact .directory hlookup
    · next content hfile =>
      unfold String.fromUTF8? at h
      by_cases hvalid : content.IsValidUTF8
      · rw [dif_pos hvalid] at h
        cases h
      · rw [dif_neg hvalid] at h
        cases h
        exact .notText hfile hvalid
  · intro h
    cases h with
    | unreachable hlookup => simp only [readText, hlookup]
    | directory hlookup => simp only [readText, hlookup]
    | notText hfile hvalid => simp only [readText, hfile, String.fromUTF8?, dif_neg hvalid]

theorem checkRegular_eq_error_iff {fault : Fault} :
    files.checkRegular path = .error fault ↔ files.Irregular path fault := by
  constructor
  · intro h
    unfold checkRegular at h
    split at h
    · next hlookup =>
      cases h
      exact .unreachable hlookup
    · next hlookup =>
      cases h
      exact .directory hlookup
    · cases h
  · intro h
    cases h with
    | unreachable hlookup => simp only [checkRegular, hlookup]
    | directory hlookup => simp only [checkRegular, hlookup]

end Files

namespace Command.Check

/-! ## Stages -/

/-- The stages of a check in their order. -/
inductive Stage
  | reading
  | parsing
  | version
  | design
  | nodeCount
  | negativeRouter
  | unknownRouter
  | configFile
  deriving DecidableEq, Repr

def Stage.position : Stage → ℕ
  | reading => 0
  | parsing => 1
  | version => 2
  | design => 3
  | nodeCount => 4
  | negativeRouter => 5
  | unknownRouter => 6
  | configFile => 7

theorem Stage.position_injective {a b : Stage} (h : a.position = b.position) : a = b := by
  cases a <;> cases b <;> simp [position] at h ⊢

section

variable (files : Files) (configCheck : ConfigCheck) (path : String)

/-- The path leads to a file with a text of the document. -/
def Holds (document : Document) : Prop :=
  ∃ text, files.HoldsText path text ∧ Document.read text = .ok document

/-- When a stage fails, and with which error.  A stage that is about the document or its topology
does not fail where there is none. -/
inductive Fails : Stage → Error → Prop
  | reading {fault : Files.Fault} (h : files.Unreadable path fault) :
    Fails .reading (.load (.unreadable path fault))
  | parsing {text : String} {rejection : Document.Rejection} (htext : files.HoldsText path text)
      (h : Document.read text = .error rejection) :
    Fails .parsing (.load (.unusable path rejection))
  | version {document : Document} (hdocument : Holds files path document)
      (h : document.version ≠ 1) : Fails .version (.load (.unsupported document.version))
  | design {document : Document} {e : Topology.Error} (hdocument : Holds files path document)
      (h : document.design.build = .error e) : Fails .design (.design e)
  | nodeCount {document : Document} {topology : Topology}
      (hdocument : Holds files path document) (hbuild : document.design.build = .ok topology)
      (h : document.network.size ≠ topology.nodes.toNat) :
    Fails .nodeCount (.engine (.unfit (.nodeCount topology.nodes.toNat document.network.size)))
  | negativeRouter {document : Document} {a : Attachment} (hdocument : Holds files path document)
      (h : document.network.IsFirst (fun router ↦ router.toInt < 0) a) :
    Fails .negativeRouter (.engine (.unfit (.negativeRouter a)))
  | unknownRouter {document : Document} {topology : Topology} {a : Attachment}
      (hdocument : Holds files path document) (hbuild : document.design.build = .ok topology)
      (h : document.network.IsFirst (fun router ↦ topology.routers.toNat ≤ router.toInt) a) :
    Fails .unknownRouter (.engine (.unfit (.unknownRouter a topology.routers.toNat)))
  | configFile {document : Document} {fault : Files.Fault}
      (hdocument : Holds files path document) (hcheck : configCheck = .require)
      (h : files.Irregular document.network.configPath fault) :
    Fails .configFile (.engine (.config document.network.configPath fault))

def Passes (stage : Stage) : Prop :=
  ∀ e, ¬ Fails files configCheck path stage e

def PassesBefore (stage : Stage) : Prop :=
  ∀ earlier : Stage, earlier.position < stage.position → Passes files configCheck path earlier

/-- The stage fails, and none before it does. -/
structure FailsFirst (stage : Stage) (e : Error) : Prop where
  fails : Fails files configCheck path stage e
  passesBefore : PassesBefore files configCheck path stage

end

variable {files : Files} {configCheck : ConfigCheck} {path : String}

/-! ## One stage after the other -/

theorem PassesBefore.next {stage next : Stage} (h : PassesBefore files configCheck path stage)
    (hstage : Passes files configCheck path stage)
    (hnext : next.position = stage.position + 1) : PassesBefore files configCheck path next := by
  intro earlier hlt
  rcases Nat.lt_or_ge earlier.position stage.position with hbefore | hge
  · exact h earlier hbefore
  · have hsame : earlier = stage := Stage.position_injective (by omega)
    exact hsame ▸ hstage

theorem text_unique {a b : String} (ha : files.HoldsText path a) (hb : files.HoldsText path b) :
    a = b := by
  have hfile := Except.ok.inj (ha.symm.trans hb)
  injection hfile with hbytes
  exact String.toByteArray_inj.mp hbytes

theorem Holds.unique {a b : Document} (ha : Holds files path a) (hb : Holds files path b) :
    a = b := by
  obtain ⟨text, htext, hread⟩ := ha
  obtain ⟨text', htext', hread'⟩ := hb
  rw [text_unique htext htext'] at hread
  exact Except.ok.inj (hread.symm.trans hread')

section

variable {document : Document} (hdocument : Holds files path document)

include hdocument

variable {topology : Topology} (hbuild : document.design.build = .ok topology)

include hbuild

end

/-! ## Loading and attaching -/

theorem holds_of_load_eq_ok {document : Document} (h : Document.load files path = .ok document) :
    Holds files path document ∧ document.version = 1 := by
  unfold Document.load at h
  split at h
  · cases h
  · next text hreadText =>
    split at h
    · cases h
    · next hread =>
      split at h
      · next hversion =>
        cases h
        exact ⟨⟨text, Files.holdsText_of_readText_eq_ok hreadText, hread⟩, hversion⟩
      · cases h

section

variable {document : Document} {topology : Topology} (hdocument : Holds files path document)
  (hbuild : document.design.build = .ok topology)

include hdocument hbuild

end

section

variable {document : Document} {topology : Topology}

theorem bindDocument_of_load_eq_error {e : Document.LoadError}
    (h : Document.load files path = .error e) :
    bindDocument files configCheck path = .error (.load e) := by
  simp only [bindDocument, h]

variable (hload : Document.load files path = .ok document)

include hload

theorem bindDocument_of_build_eq_error {e : Topology.Error} (h : document.design.build = .error e) :
    bindDocument files configCheck path = .error (.design e) := by
  simp only [bindDocument, hload, Engine.build, h, Except.map]

variable (hbuild : document.design.build = .ok topology)

include hbuild

theorem bindDocument_of_attach_eq_error {e : Binding.Error}
    (h : Binding.attach document.network topology = .error e) :
    bindDocument files configCheck path = .error (.engine (.unfit e)) := by
  simp only [bindDocument, hload, Engine.build, hbuild, Except.map, Engine.bind, h]

theorem bindDocument_of_attach_eq_ok {binding : Binding}
    (h : Binding.attach document.network topology = .ok binding) :
    bindDocument files configCheck path =
      match (⟨topology, configCheck⟩ : Engine).checkConfig files document.network with
      | .error e => .error (.engine e)
      | .ok () => .ok binding := by
  simp only [bindDocument, hload, Engine.build, hbuild, Except.map, Engine.bind, h]
  cases (⟨topology, configCheck⟩ : Engine).checkConfig files document.network <;> rfl

end

/-- A check binds a document whose topology can be built, whose network fits it, and whose
configuration file, if it is wanted, is a regular file. -/
theorem bindDocument_eq_ok_iff {binding : Binding} :
    bindDocument files configCheck path = .ok binding ↔
      ∃ document topology, Document.load files path = .ok document ∧
        document.design.build = .ok topology ∧
        Binding.attach document.network topology = .ok binding ∧
        (⟨topology, configCheck⟩ : Engine).checkConfig files document.network = .ok () := by
  constructor
  · intro h
    cases hload : Document.load files path with
    | error e =>
      rw [bindDocument_of_load_eq_error hload] at h
      cases h
    | ok document =>
      cases hbuild : document.design.build with
      | error e =>
        rw [bindDocument_of_build_eq_error hload hbuild] at h
        cases h
      | ok topology =>
        cases hattach : Binding.attach document.network topology with
        | error e =>
          rw [bindDocument_of_attach_eq_error hload hbuild hattach] at h
          cases h
        | ok attached =>
          rw [bindDocument_of_attach_eq_ok hload hbuild hattach] at h
          split at h
          · cases h
          · next hconfig =>
            cases h
            exact ⟨document, topology, rfl, hbuild, hattach, hconfig⟩
  · intro h
    obtain ⟨document, topology, hload, hbuild, hattach, hconfig⟩ := h
    rw [bindDocument_of_attach_eq_ok hload hbuild hattach, hconfig]

theorem Fails.unique {stage : Stage} {e e' : Error} (h : Fails files configCheck path stage e)
    (h' : Fails files configCheck path stage e') : e = e' := by
  cases h with
  | reading hfault =>
    cases h' with
    | reading hfault' =>
      rw [← Files.readText_eq_error_iff] at hfault hfault'
      cases hfault.symm.trans hfault'
      rfl
  | parsing htext hread =>
    cases h' with
    | parsing htext' hread' =>
      rw [text_unique htext htext', hread'] at hread
      cases hread
      rfl
  | version hdocument _ =>
    cases h' with
    | version hdocument' _ => rw [hdocument.unique hdocument']
  | design hdocument he =>
    cases h' with
    | design hdocument' he' =>
      rw [hdocument.unique hdocument', he'] at he
      cases he
      rfl
  | nodeCount hdocument hbuild _ =>
    cases h' with
    | nodeCount hdocument' hbuild' _ =>
      rw [hdocument.unique hdocument'] at hbuild ⊢
      cases hbuild.symm.trans hbuild'
      rfl
  | negativeRouter hdocument hfirst =>
    cases h' with
    | negativeRouter hdocument' hfirst' =>
      rw [hdocument.unique hdocument'] at hfirst
      rw [hfirst.unique hfirst']
  | unknownRouter hdocument hbuild hfirst =>
    cases h' with
    | unknownRouter hdocument' hbuild' hfirst' =>
      rw [hdocument.unique hdocument'] at hbuild hfirst
      cases hbuild.symm.trans hbuild'
      rw [hfirst.unique hfirst']
  | configFile hdocument _ hfault =>
    cases h' with
    | configFile hdocument' _ hfault' =>
      rw [hdocument.unique hdocument'] at hfault ⊢
      rw [← Files.checkRegular_eq_error_iff] at hfault hfault'
      cases hfault.symm.trans hfault'
      rfl

theorem FailsFirst.unique {stage stage' : Stage} {e e' : Error}
    (h : FailsFirst files configCheck path stage e)
    (h' : FailsFirst files configCheck path stage' e') : stage = stage' ∧ e = e' := by
  have hstage : stage = stage' := by
    rcases Nat.lt_trichotomy stage.position stage'.position with hlt | heq | hgt
    · exact absurd h.fails (h'.passesBefore stage hlt e)
    · exact Stage.position_injective heq
    · exact absurd h'.fails (h.passesBefore stage' hgt e')
  subst hstage
  exact ⟨rfl, h.fails.unique h'.fails⟩

end Command.Check

end Interconnect
