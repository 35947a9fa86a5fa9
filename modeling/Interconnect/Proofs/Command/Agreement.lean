import Interconnect.Proofs.Command.Arguments
import Interconnect.Proofs.Document.RoundTrip
import Interconnect.Proofs.Topology.Attachment

/-!
# Generated documents pass the check

What `router-map` prints is a document that loads as the design it was asked for, attached in the
customary way, and `bind-check` binds it.  `router-map` prints one whenever the design can be built
and the path is not blank, and otherwise names what is wrong.  The printed text is followed through
the writer and the reader of JSON, the attachment through the checks of a binding.
-/

namespace Interconnect.Command

open Interconnect.Topology (Kind)

/-- The printed document, in a file of its own, is loaded as a design with its customary attachment
and the given path, and a check that does without the configuration file reports the counts of its
topology. -/
structure Report.Documents (report : Report) (design : Design) (topology : Topology)
    (configPath : String) : Prop where
  exitCode_eq : report.exitCode = 0
  exists_load : ∀ (files : Files) (path : String),
    files.lookup path = .ok (.file report.output.toUTF8) →
      ∃ document, Document.load files path = .ok document ∧ document.version = 1 ∧
        document.design = design ∧ document.network.routerMap = topology.defaultRouterMap ∧
        document.network.configPath = configPath
  check : ∀ (files : Files) (path : String) (arguments : List String),
    files.lookup path = .ok (.file report.output.toUTF8) →
      applyAll Check.declared .default arguments = .ok ⟨some path, true, false⟩ →
        (Check.run files arguments).exitCode = 0 ∧
          (Check.run files arguments).output =
            s!"bound nodes={topology.nodes.toNat} routers={topology.routers.toNat} config=" ++
              configPath ++ "\n"

namespace Generate

theorem Settings.design_with_kind (s : Settings) (kind : Kind) :
    { s with kind := some kind }.design kind = s.design kind := by
  cases kind <;> rfl

theorem run_of_applyAll {s : Settings} {kind : Kind} {arguments : List String}
    (h : applyAll declared .default arguments = .ok { s with kind := some kind }) :
    run arguments = report (s.design kind) s.configPath := by
  rw [run, h, ← s.design_with_kind kind]

variable {design : Design} {topology : Topology} {configPath : String}

theorem report_of_build_eq_error {e : Topology.Error} (h : design.build = .error e) :
    report design configPath = .failed e.message [] := by
  rw [report, Design.defaultRouterMap, h]
  rfl

theorem report_of_isBlank (hbuild : design.build = .ok topology)
    (hblank : Text.isBlank configPath = true) :
    report design configPath = .failed Network.Error.blankPath.message [] := by
  have hnetwork : Network.build topology.defaultRouterMap configPath = .error .blankPath :=
    Network.build_eq_error_iff.mpr ⟨hblank, rfl⟩
  simp only [report, Design.defaultRouterMap, hbuild, Except.map, hnetwork]

/-- The document that is printed. -/
def document (design : Design) (topology : Topology) (configPath : String)
    (hvisible : Text.isBlank configPath = false) : Document :=
  .current design ⟨topology.defaultRouterMap, configPath, hvisible⟩

theorem report_of_build_eq_ok (hbuild : design.build = .ok topology)
    (hvisible : Text.isBlank configPath = false) :
    report design configPath =
      .done ((document design topology configPath hvisible).toValue.indented ++ "\n") := by
  have hnetwork : Network.build topology.defaultRouterMap configPath =
      .ok ⟨topology.defaultRouterMap, configPath, hvisible⟩ :=
    Network.build_eq_ok_iff.mpr ⟨rfl, rfl⟩
  simp only [report, Design.defaultRouterMap, hbuild, Except.map, hnetwork]
  rfl

end Generate

/-! ## Checking -/

namespace Check

theorem bindDocument_skip {files : Files} {path : String} {document : Document}
    {topology : Topology} (hload : Document.load files path = .ok document)
    (hbuild : document.design.build = .ok topology)
    (hfits : Binding.Fits document.network topology) :
    ∃ binding, bindDocument files .skip path = .ok binding ∧
      binding.network = document.network ∧ binding.topology = topology := by
  obtain ⟨binding, hattach, hbinding⟩ := Binding.exists_attach_eq_ok hfits
  refine ⟨binding, ?_, hbinding⟩
  have hengine : Engine.build document.design .skip = .ok ⟨topology, .skip⟩ := by
    rw [Engine.build, hbuild]
    rfl
  simp only [bindDocument, hload, hengine, Engine.bind, hattach, Engine.checkConfig]

theorem run_of_bindDocument {files : Files} {path : String} {arguments : List String}
    {binding : Binding}
    (harguments : applyAll declared .default arguments = .ok ⟨some path, true, false⟩)
    (hbind : bindDocument files .skip path = .ok binding) :
    run files arguments = .done (summary binding ++ "\n") := by
  simp [run, harguments, report, Settings.configCheck, hbind]

end Check

/-! ## Generating and checking -/

namespace Generate

variable {design : Design} {topology : Topology} {configPath : String}

theorem load_of_lookup {files : Files} {path : String} {document : Document}
    (hversion : document.version = Document.currentVersion)
    (h : files.lookup path = .ok (.file (document.toValue.indented ++ "\n").toUTF8)) :
    Document.load files path = .ok document := by
  have hnewline : Json.IsBlank "\n".toList := .cons rfl .nil
  exact Document.load_of_lookup h (document.read_indented_append hnewline) hversion

theorem documents_report (hbuild : design.build = .ok topology)
    (hvisible : Text.isBlank configPath = false) :
    (report design configPath).Documents design topology configPath := by
  rw [report_of_build_eq_ok hbuild hvisible]
  refine ⟨rfl, ?_, ?_⟩
  · intro files path hfile
    exact ⟨_, load_of_lookup rfl hfile, rfl, rfl, rfl, rfl⟩
  · intro files path arguments hfile harguments
    have hload : Document.load files path =
        .ok (document design topology configPath hvisible) := load_of_lookup rfl hfile
    obtain ⟨binding, hbind, hnetwork, htopology⟩ :=
      Check.bindDocument_skip hload hbuild (topology.fits_of_routerMap_eq rfl)
    have hsize : binding.network.size = topology.nodes.toNat := by
      rw [binding.size_eq, htopology]
    have hpath : binding.network.configPath = configPath := by
      rw [hnetwork]
      rfl
    rw [Check.run_of_bindDocument harguments hbind]
    refine ⟨rfl, ?_⟩
    unfold Report.output Check.summary
    rw [hsize, hpath, htopology]

theorem exitCode_report_eq_zero_iff :
    (report design configPath).exitCode = 0 ↔
      (∃ topology, design.build = .ok topology) ∧ Text.isBlank configPath = false := by
  cases hbuild : design.build with
  | error e =>
    rw [report_of_build_eq_error hbuild]
    simp [Report.exitCode]
  | ok topology =>
    cases hblank : Text.isBlank configPath with
    | true =>
      rw [report_of_isBlank hbuild hblank]
      simp [Report.exitCode]
    | false =>
      have hexit := (documents_report hbuild hblank).exitCode_eq
      simp [hexit]

end Generate

end Interconnect.Command
