import Mathlib.Data.List.Basic
import Interconnect.Proofs.Text.Lines

/-!
# Taking texts apart

A text that is put together with a separator can be taken apart again where the parts avoid the
separator: the part before the first separator is known (`eq_of_append_separator`), and so are all
parts of a list that is joined with separators (`intercalate_inj`).  Splitting a text at its line
breaks (`lines`) undoes the writing of lines with a break after each (`lines_join`).
-/

namespace Interconnect.Text

variable {c : Char}

/-- Texts that agree have the same part before the first separator, and the same behind it. -/
theorem eq_of_append_separator {a a' b b' : String} (ha : Avoids c a) (ha' : Avoids c a')
    (h : a ++ String.singleton c ++ b = a' ++ String.singleton c ++ b') : a = a' ∧ b = b' := by
  have hlists := congrArg String.toList h
  simp only [String.toList_append, String.toList_singleton, List.append_assoc,
    List.singleton_append] at hlists
  have hsplits := congrArg (List.splitOn c) hlists
  rw [List.splitOn_append_cons_self_of_not_mem ha, List.splitOn_append_cons_self_of_not_mem ha']
    at hsplits
  have heq : a = a' := String.toList_inj.mp (List.cons.inj hsplits).1
  rw [heq] at h
  exact ⟨heq, (String.append_right_inj _).mp h⟩

theorem splitOn_intercalate {parts : List String} (h : ∀ part ∈ parts, Avoids c part)
    (hne : parts ≠ []) :
    ((String.singleton c).intercalate parts).toList.splitOn c = parts.map String.toList := by
  rw [String.toList_intercalate, String.toList_singleton, List.splitOn_intercalate]
  · intro part hpart
    obtain ⟨text, htext, rfl⟩ := List.mem_map.mp hpart
    exact h text htext
  · simpa using hne

/-- Parts that avoid the separator are known from their join. -/
theorem intercalate_inj {a b : List String} (ha : ∀ part ∈ a, Avoids c part)
    (hb : ∀ part ∈ b, Avoids c part) (hne : a ≠ []) (hne' : b ≠ [])
    (h : (String.singleton c).intercalate a = (String.singleton c).intercalate b) : a = b := by
  have hsplits := congrArg (List.splitOn c ·.toList) h
  simp only [splitOn_intercalate ha hne, splitOn_intercalate hb hne'] at hsplits
  exact List.map_injective_iff.mpr (fun _ _ ↦ String.toList_inj.mp) hsplits

theorem avoids_intercalate {separator : String} {parts : List String}
    (hseparator : Avoids c separator) (hparts : ∀ part ∈ parts, Avoids c part) :
    Avoids c (separator.intercalate parts) := by
  induction parts with
  | nil => exact List.not_mem_nil
  | cons part parts ih =>
    obtain ⟨hpart, hrest⟩ := List.forall_mem_cons.mp hparts
    cases parts with
    | nil => rwa [String.intercalate_singleton]
    | cons next parts =>
      rw [String.intercalate_cons_cons, avoids_append, avoids_append]
      exact ⟨⟨hpart, hseparator⟩, ih hrest⟩

/-! ## Lines -/

/-- The pieces of a text between its line breaks.  The last piece is what follows the last break. -/
def lines (text : String) : List String :=
  (text.toList.splitOn '\n').map String.ofList

theorem lines_append (a b : String) : lines (a ++ "\n" ++ b) = lines a ++ lines b := by
  have hbreak : "\n".toList = ['\n'] := rfl
  rw [lines, String.toList_append, String.toList_append, hbreak, List.append_assoc,
    List.singleton_append, List.splitOn_append_cons_self, List.map_append]
  rfl

theorem lines_eq_singleton {line : String} (h : Avoids '\n' line) : lines line = [line] := by
  rw [lines, List.splitOn_eq_singleton h, List.map_singleton, String.ofList_toList]

/-- Entries that are written with a break after each keep their lines, whatever comes behind them. -/
theorem lines_join_append (entries : List String) (rest : String) :
    lines (String.join (entries.map (· ++ "\n")) ++ rest) = entries.flatMap lines ++ lines rest := by
  induction entries with
  | nil => rw [List.map_nil, String.join_nil, String.empty_append, List.flatMap_nil, List.nil_append]
  | cons entry entries ih =>
    rw [List.map_cons, String.join_cons, String.append_assoc, lines_append, ih, List.flatMap_cons,
      List.append_assoc]

/-- Lines that are written with a break after each are the lines of the text. -/
theorem lines_join {written : List String} (h : ∀ line ∈ written, Avoids '\n' line) :
    lines (String.join (written.map (· ++ "\n"))) = written ++ [""] := by
  have hlines : written.flatMap lines = written := by
    rw [List.flatMap_congr fun line hline ↦ lines_eq_singleton (h line hline),
      List.flatMap_singleton']
  have hbehind : lines "" = [""] := lines_eq_singleton (by decide)
  have happend := lines_join_append written ""
  rwa [String.append_empty, hlines, hbehind] at happend

/-- There is one line more than there are line breaks. -/
theorem length_lines (text : String) : (lines text).length = text.toList.count '\n' + 1 := by
  rw [lines, List.length_map]
  induction text.toList with
  | nil => rfl
  | cons c text ih =>
    rw [List.splitOn_cons_eq_if_modifyHead, List.count_cons]
    split
    · rw [List.length_cons, ih]
    · rw [List.length_modifyHead, ih]

end Interconnect.Text
