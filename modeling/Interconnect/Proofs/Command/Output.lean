import Interconnect.Proofs.Binding.NodeMap
import Interconnect.Proofs.Command.Agreement
import Interconnect.Proofs.Command.Diagnostics
import Interconnect.Proofs.Text.Splitting

/-!
# Listing the nodes

A check that succeeds and lists the nodes prints a summary and the node map of what it has bound
(`Check.run_lists_nodes`).  The node map takes exactly one line for each node.  The summary ends with
the path of the configuration file as it stands, so that it takes one line where the path has no line
break, and one more for every line break in the path; what stands on these lines is up to the document
(`Check.run_forgery`).
-/

namespace Interconnect.Command

open Text (Avoids)

namespace Check

variable (binding : Binding)

theorem summary_eq :
    summary binding =
      s!"bound nodes={binding.network.size} routers={binding.topology.routers.toNat} config=" ++
        binding.network.configPath :=
  rfl

/-- The words and the counts of a summary have no line breaks. -/
theorem count_newline_summary :
    (summary binding).toList.count '\n' = binding.network.configPath.toList.count '\n' := by
  have hnat (n : ℕ) : Avoids '\n' (toString n) := Text.avoids_toString_nat (by decide) n
  have hcounts : Avoids '\n'
      s!"bound nodes={binding.network.size} routers={binding.topology.routers.toNat} config=" := by
    simp +decide only [Text.avoids_append, hnat]
  rw [summary_eq, String.toList_append, List.count_append, List.count_eq_zero.mpr hcounts, Nat.zero_add]

theorem avoids_newline_summary_iff :
    Avoids '\n' (summary binding) ↔ Avoids '\n' binding.network.configPath := by
  rw [Avoids, Avoids, ← List.count_eq_zero, ← List.count_eq_zero, count_newline_summary]

theorem length_lines_summary :
    (Text.lines (summary binding)).length =
      binding.network.configPath.toList.count '\n' + 1 := by
  rw [Text.length_lines, count_newline_summary]

end Check

/-- What a command prints when it succeeds and lists the nodes of a binding. -/
structure Report.Lists (report : Report) (binding : Binding) : Prop where
  output_eq : report.output =
    s!"bound nodes={binding.topology.nodes.toNat} routers={binding.topology.routers.toNat} config=" ++
      binding.network.configPath ++ "\n" ++ binding.nodeMap
  /-- The last lines are those of the nodes, each terminated by a line break. -/
  lines_eq : Text.lines report.output =
    Text.lines (Check.summary binding) ++ (binding.nodeLines ++ [""])
  length_lines_eq : (Text.lines report.output).length =
    1 + binding.network.configPath.toList.count '\n' + binding.topology.nodes.toNat + 1
  /-- Nothing but the nodes follows the first line exactly when the path has no line break. -/
  lines_eq_cons_iff : Text.lines report.output =
      Check.summary binding :: (binding.nodeLines ++ [""]) ↔
    Avoids '\n' binding.network.configPath

namespace Check

theorem lists_done (binding : Binding) :
    (Report.done (summary binding ++ "\n" ++ binding.nodeMap)).Lists binding where
  output_eq := by
    rw [Report.output, summary_eq, binding.size_eq]
  lines_eq := by
    rw [Report.output, Text.lines_append, binding.lines_nodeMap]
  length_lines_eq := by
    rw [Report.output, Text.lines_append, binding.lines_nodeMap, List.length_append,
      length_lines_summary, List.length_append, binding.length_nodeLines, List.length_singleton]
    omega
  lines_eq_cons_iff := by
    rw [Report.output, Text.lines_append, binding.lines_nodeMap, ← avoids_newline_summary_iff]
    constructor
    · intro h
      -- Only as many lines as the nodes need are left, so that the summary is a single line.
      have hlength := congrArg List.length h
      rw [List.length_append, List.length_cons, Text.length_lines] at hlength
      exact List.count_eq_zero.mp (by omega)
    · intro h
      rw [Text.lines_eq_singleton h, List.singleton_append]

variable {files : Files} {path : String} {arguments : List String} {skip : Bool}

theorem run_of_bindDocument_eq_ok {binding : Binding}
    (harguments : applyAll declared .default arguments = .ok ⟨some path, skip, true⟩)
    (h : bindDocument files (if skip then .skip else .require) path = .ok binding) :
    run files arguments = .done (summary binding ++ "\n" ++ binding.nodeMap) := by
  rw [run_of_applyAll (s := ⟨some path, skip, true⟩) harguments, report, Settings.configCheck, h]
  rfl

/-! ### Two nodes -/

/-- A dumbbell with a node on each router. -/
def pair (configPath : String) (h : Text.isBlank configPath = false) : Network :=
  ⟨#[0, 1], configPath, h⟩

/-- Files in which every path leads to a document of this network. -/
def pairFiles (configPath : String) (h : Text.isBlank configPath = false) : Files :=
  ⟨fun _ ↦ .ok (.file (Document.current .dumbbell (pair configPath h)).toValue.compact.toUTF8)⟩

section

variable {configPath : String} {h : Text.isBlank configPath = false}

theorem load_pairFiles :
    Document.load (pairFiles configPath h) path = .ok (.current .dumbbell (pair configPath h)) :=
  Document.load_of_lookup rfl (Document.read_compact _) rfl

theorem exists_bindDocument_pairFiles :
    ∃ binding, bindDocument (pairFiles configPath h) .skip path = .ok binding ∧
      binding.network = pair configPath h ∧ binding.topology = .dumbbell := by
  have hfits : Binding.Fits (pair configPath h) .dumbbell := by
    refine ⟨rfl, ?_⟩
    simp only [pair, ← Array.mem_toList_iff, List.forall_mem_cons]
    exact ⟨by decide, by decide, by simp⟩
  exact bindDocument_skip load_pairFiles rfl hfits

theorem run_pairFiles {binding : Binding}
    (hbind : bindDocument (pairFiles configPath h) .skip "net.json" = .ok binding) :
    run (pairFiles configPath h) (Check.arguments "net.json" true true) =
      .done (summary binding ++ "\n" ++ binding.nodeMap) :=
  run_of_bindDocument_eq_ok (applyAll_arguments (by decide) true true) hbind

variable {binding : Binding} (hnetwork : binding.network = pair configPath h)
  (htopology : binding.topology = .dumbbell)

include hnetwork htopology

theorem summary_pair : summary binding = "bound nodes=2 routers=2 config=" ++ configPath := by
  have hwords : s!"bound nodes={2} routers={2} config=" = "bound nodes=2 routers=2 config=" := by
    decide
  rw [summary_eq, hnetwork, htopology, ← hwords]
  rfl

theorem nodeLines_pair :
    binding.nodeLines = ["node 0 -> router 0 s0", "node 1 -> router 1 s1"] := by
  have hattachments : (pair configPath h).attachments = #[⟨0, 0⟩, ⟨1, 1⟩] := by
    simp [Network.attachments, pair]
  rw [Binding.nodeLines, hnetwork, htopology, hattachments]
  simp only [List.map_toArray, List.map_cons, List.map_nil]
  decide

end

/-! ### Any document -/

/-- Whatever the files are, and with or without the configuration file, a check that lists the nodes
and succeeds has bound the document at the path, and prints the summary and the node map of the
binding. -/
theorem run_lists_nodes
    (harguments : applyAll declared .default arguments = .ok ⟨some path, skip, true⟩)
    (hexit : (run files arguments).exitCode = 0) :
    ∃ document binding, Holds files path document ∧
      document.design.build = .ok binding.topology ∧ binding.network = document.network ∧
      binding.Lists ∧ (run files arguments).Lists binding := by
  have hrun : run files arguments = report files ⟨some path, skip, true⟩ path :=
    run_of_applyAll (s := ⟨some path, skip, true⟩) harguments
  rw [hrun] at hexit
  obtain ⟨binding, hbind⟩ := exitCode_report_eq_zero_iff.mp hexit
  obtain ⟨document, topology, hload, hbuild, hattach, -⟩ := bindDocument_eq_ok_iff.mp hbind
  obtain ⟨hnetwork, htopology⟩ := Binding.network_of_attach_eq_ok hattach
  refine ⟨document, binding, (holds_of_load_eq_ok hload).1, htopology ▸ hbuild, hnetwork,
    binding.lists, ?_⟩
  rw [run_of_bindDocument_eq_ok harguments hbind]
  exact lists_done binding

/-- With an ordinary path the lines are the summary and the lines of the nodes. -/
theorem run_lists_nodes_pair :
    (run (pairFiles "sim.cfg" (by decide)) (Check.arguments "net.json" true true)).exitCode = 0 ∧
      Text.lines (run (pairFiles "sim.cfg" (by decide))
        (Check.arguments "net.json" true true)).output =
        ["bound nodes=2 routers=2 config=sim.cfg", "node 0 -> router 0 s0",
          "node 1 -> router 1 s1", ""] := by
  have hvisible : Text.isBlank "sim.cfg" = false := by decide
  obtain ⟨_, hbind, -⟩ := exists_bindDocument_pairFiles (h := hvisible)
  have hexit := congrArg Report.exitCode (run_pairFiles hbind)
  obtain ⟨document, binding, hholds, hbuild, hnetwork, -, hlists⟩ :=
    run_lists_nodes (applyAll_arguments (by decide) true true) hexit
  obtain rfl := hholds.unique (holds_of_load_eq_ok load_pairFiles).1
  have htopology := (Except.ok.inj hbuild).symm
  refine ⟨hexit, ?_⟩
  rw [hlists.lines_eq, summary_pair hnetwork htopology, nodeLines_pair hnetwork htopology]
  decide

/-- Files in which the path of the configuration file has a line break, and what follows it looks like
the line of a node. -/
def forgery : Files :=
  pairFiles "x\nnode 0 -> router 1 s1" (by decide)

/-- The line break adds a line, which names a router that the node is not attached to. -/
theorem run_forgery :
    ∃ binding, bindDocument forgery .skip "net.json" = .ok binding ∧
      binding.nodeLines = ["node 0 -> router 0 s0", "node 1 -> router 1 s1"] ∧
      (run forgery (Check.arguments "net.json" true true)).exitCode = 0 ∧
      Text.lines (run forgery (Check.arguments "net.json" true true)).output =
        ["bound nodes=2 routers=2 config=x", "node 0 -> router 1 s1", "node 0 -> router 0 s0",
          "node 1 -> router 1 s1", ""] := by
  obtain ⟨binding, hbind, hnetwork, htopology⟩ := exists_bindDocument_pairFiles
  refine ⟨binding, hbind, nodeLines_pair hnetwork htopology, ?_⟩
  rw [forgery, run_pairFiles hbind]
  refine ⟨rfl, ?_⟩
  rw [(lists_done binding).lines_eq, summary_pair hnetwork htopology,
    nodeLines_pair hnetwork htopology]
  decide

end Check

end Interconnect.Command
