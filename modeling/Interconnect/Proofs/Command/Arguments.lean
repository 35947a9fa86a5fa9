import Mathlib.Data.List.TakeWhile
import Interconnect.Command.Check
import Interconnect.Command.Generate

/-!
# Settings on the command line

Every choice of settings can be written on the command line: an argument of the form `--name=value`
sets one of them, whatever text the value is, and a number is written in decimal digits.  So
whatever is proved of settings is proved of something that can be asked for.
-/

namespace Interconnect.Command

/-! ## Single arguments -/

/-- The argument that gives a flag. -/
def mention (name : String) : String :=
  "--" ++ name

/-- The argument that gives an option a value. -/
def assignment (name value : String) : String :=
  mention name ++ "=" ++ value

theorem toList_mention (name : String) : (mention name).toList = '-' :: '-' :: name.toList := by
  simp [mention]

theorem toList_assignment (name value : String) :
    (assignment name value).toList = '-' :: '-' :: (name.toList ++ '=' :: value.toList) := by
  simp [assignment, mention]

theorem isOption_of_toList {argument : String} {rest : List Char}
    (h : argument.toList = '-' :: '-' :: rest) : isOption argument = true := by
  rw [isOption, String.startsWith_string_iff, h]
  exact ⟨rest, rfl⟩

theorem ne_equals_of_notMem {name : String} (h : '=' ∉ name.toList) :
    ∀ c ∈ name.toList, (c != '=') = true := by
  intro c hc
  apply bne_iff_ne.mpr
  intro heq
  exact h (heq ▸ hc)

theorem splitOption_mention {name : String} (h : '=' ∉ name.toList) :
    splitOption (mention name) = (name, none) := by
  have hall := ne_equals_of_notMem h
  have htake : name.toList.takeWhile (· != '=') = name.toList := List.takeWhile_eq_self_iff.mpr hall
  have hdrop : name.toList.dropWhile (· != '=') = [] := List.dropWhile_eq_nil_iff.mpr hall
  simp [splitOption, toList_mention, htake, hdrop]

theorem splitOption_assignment {name : String} (h : '=' ∉ name.toList) (value : String) :
    splitOption (assignment name value) = (name, some value) := by
  have hall := ne_equals_of_notMem h
  simp [splitOption, toList_assignment, List.takeWhile_append_of_pos hall,
    List.dropWhile_append_of_pos hall]

theorem assignment_ne_doubleDash (name value : String) : assignment name value ≠ "--" := by
  intro h
  have hlist := congrArg String.toList h
  simp [toList_assignment] at hlist

theorem options_of_getLast?_ne {arguments : List String} (h : arguments.getLast? ≠ some "--") :
    options arguments = arguments :=
  if_neg h

section Progress

variable {Settings : Type} {declared : List (Declared Settings)} {progress : Progress Settings}
  {name : String}

/-- A flag that has not been given yet is applied. -/
theorem Progress.take_mention {apply : Settings → Settings}
    (hawaiting : progress.awaiting = none) (hname : '=' ∉ name.toList)
    (hdeclared : declared.find? (·.name == name) = some ⟨name, .flag apply⟩)
    (hfresh : progress.given.contains name = false) :
    progress.take declared (mention name) =
      .ok ⟨apply progress.settings, name :: progress.given, none⟩ := by
  simp only [take, hawaiting, isOption_of_toList (toList_mention name), if_true, takeOption,
    splitOption_mention hname, hdeclared, hfresh, Bool.false_eq_true, if_false]

/-- An option that has not been given yet takes its value from its own argument. -/
theorem Progress.take_assignment {value : String} {assign? : Settings → String → Option Settings}
    {settings : Settings} (hawaiting : progress.awaiting = none) (hname : '=' ∉ name.toList)
    (hdeclared : declared.find? (·.name == name) = some ⟨name, .value assign?⟩)
    (hfresh : progress.given.contains name = false)
    (hassign : assign? progress.settings value = some settings) :
    progress.take declared (assignment name value) =
      .ok ⟨settings, name :: progress.given, none⟩ := by
  simp only [take, hawaiting, isOption_of_toList (toList_assignment name value), if_true,
    takeOption, splitOption_assignment hname, hdeclared, hfresh, takeValue, hassign,
    Bool.false_eq_true, if_false]

theorem Progress.foldlM_take_cons {next : Progress Settings} {argument : String}
    (arguments : List String) (h : progress.take declared argument = .ok next) :
    (argument :: arguments).foldlM (take declared) progress =
      arguments.foldlM (take declared) next := by
  rw [List.foldlM_cons, h]
  rfl

end Progress

/-! ## Numbers -/

theorem word?_of_toList {text : String} {n : UInt64}
    (h : text.toList = Nat.toDigits 10 n.toNat) : word? text = some n := by
  have hdigits : ∀ c ∈ Nat.toDigits 10 n.toNat, c.isDigit = true :=
    fun _ hc ↦ Nat.isDigit_of_mem_toDigits (by decide) (by decide) hc
  have hstart : ∀ rest, Nat.toDigits 10 n.toNat ≠ '+' :: rest := by
    intro rest heq
    have hplus := hdigits '+' (by rw [heq]; exact List.mem_cons_self)
    exact absurd hplus (by decide)
  have hnonempty : (Nat.toDigits 10 n.toNat).isEmpty = false :=
    List.isEmpty_eq_false_iff.mpr Nat.toDigits_ne_nil
  rw [word?, h]
  split
  next rest heq => exact absurd heq (hstart rest)
  next =>
    simp [hnonempty, List.all_eq_true.mpr hdigits, Nat.ofDigitChars_ten_toDigits, n.toNat_lt]

@[simp]
theorem word?_repr (n : UInt64) : word? n.toNat.repr = some n :=
  word?_of_toList Nat.toList_repr

/-! ## Generating -/

namespace Generate

theorem find?_kindOption (kind : Topology.Kind) :
    Topology.Kind.all.find? (kindOption · == kindOption kind) = some kind := by
  cases kind <;> decide

/-- Arguments that set everything but the log. -/
def Settings.assignments (s : Settings) (kind : Topology.Kind) : List String :=
  [assignment "topology" (kindOption kind), assignment "k" s.radix.toNat.repr,
    assignment "n" s.dimension.toNat.repr, assignment "concentration" s.concentration.toNat.repr,
    assignment "routers" s.routers.toNat.repr, assignment "nodes" s.nodes.toNat.repr,
    assignment "booksim-config" s.configPath]

/-- Arguments that ask for the given settings with the given kind. -/
def Settings.arguments (s : Settings) (kind : Topology.Kind) : List String :=
  s.assignments kind ++ if s.verbose then [mention "verbose"] else []

theorem foldlM_take_assignments (s : Settings) (kind : Topology.Kind) :
    (s.assignments kind).foldlM (Progress.take declared) (.start .default) =
      .ok ⟨{ s with kind := some kind, verbose := false },
        ["booksim-config", "nodes", "routers", "concentration", "n", "k", "topology"], none⟩ := by
  have hkind := congrArg (Option.map fun kind ↦ { Settings.default with kind := some kind })
    (find?_kindOption kind)
  have hword (set : UInt64 → Settings) (n : UInt64) :
      (word? n.toNat.repr).map set = some (set n) := by
    rw [word?_repr, Option.map_some]
  rw [Settings.assignments,
    Progress.foldlM_take_cons _ (Progress.take_assignment rfl (by decide) rfl rfl hkind),
    Progress.foldlM_take_cons _ (Progress.take_assignment rfl (by decide) rfl rfl (hword _ _)),
    Progress.foldlM_take_cons _ (Progress.take_assignment rfl (by decide) rfl rfl (hword _ _)),
    Progress.foldlM_take_cons _ (Progress.take_assignment rfl (by decide) rfl rfl (hword _ _)),
    Progress.foldlM_take_cons _ (Progress.take_assignment rfl (by decide) rfl rfl (hword _ _)),
    Progress.foldlM_take_cons _ (Progress.take_assignment rfl (by decide) rfl rfl (hword _ _)),
    Progress.foldlM_take_cons _ (Progress.take_assignment rfl (by decide) rfl rfl rfl)]
  rfl

/-- Any settings can be asked for, with any kind. -/
theorem applyAll_arguments (s : Settings) (kind : Topology.Kind) :
    applyAll declared .default (s.arguments kind) = .ok { s with kind := some kind } := by
  have hlast : (s.arguments kind).getLast? ≠ some "--" := by
    cases hverbose : s.verbose with
    | true =>
      rw [Settings.arguments, hverbose, if_pos rfl, List.getLast?_concat]
      decide
    | false =>
      rw [Settings.arguments, hverbose, if_neg Bool.false_ne_true, List.append_nil]
      simpa [Settings.assignments] using assignment_ne_doubleDash "booksim-config" s.configPath
  rw [applyAll, options_of_getLast?_ne hlast, Settings.arguments, List.foldlM_append,
    foldlM_take_assignments]
  cases hverbose : s.verbose with
  | true =>
    change (do (← [mention "verbose"].foldlM (Progress.take declared) _).finish) = _
    rw [Progress.foldlM_take_cons _ (Progress.take_mention rfl (by decide) rfl rfl)]
    rfl
  | false => rfl

end Generate

/-! ## Checking -/

namespace Check

/-- Arguments that ask for a check of the document at a path, with or without each of the flags. -/
def arguments (path : String) (skip dump : Bool) : List String :=
  assignment "spec" path :: ((if skip then [mention "skip-config-check"] else []) ++
    if dump then [mention "dump-node-map"] else [])

theorem getLast?_arguments_ne (path : String) (skip dump : Bool) :
    (arguments path skip dump).getLast? ≠ some "--" := by
  cases dump with
  | true =>
    rw [arguments, if_pos rfl, ← List.cons_append, List.getLast?_concat]
    decide
  | false =>
    cases skip with
    | true =>
      change some (mention "skip-config-check") ≠ some "--"
      decide
    | false => simpa [arguments] using assignment_ne_doubleDash "spec" path

theorem applyAll_arguments {path : String} (h : path ≠ "") (skip dump : Bool) :
    applyAll declared .default (arguments path skip dump) = .ok ⟨some path, skip, dump⟩ := by
  have hassign : Settings.setDocument? .default path = some ⟨some path, false, false⟩ := by
    simp [Settings.setDocument?, Settings.default, h]
  have hspec : (Progress.start .default).take declared (assignment "spec" path) =
      .ok ⟨⟨some path, false, false⟩, ["spec"], none⟩ :=
    Progress.take_assignment rfl (by decide) rfl rfl hassign
  rw [applyAll, options_of_getLast?_ne (getLast?_arguments_ne path skip dump), arguments,
    Progress.foldlM_take_cons _ hspec]
  cases skip with
  | true =>
    rw [if_pos rfl, List.singleton_append,
      Progress.foldlM_take_cons _ (Progress.take_mention rfl (by decide) rfl rfl)]
    cases dump with
    | true =>
      rw [if_pos rfl, Progress.foldlM_take_cons _ (Progress.take_mention rfl (by decide) rfl rfl)]
      rfl
    | false => rfl
  | false =>
    rw [if_neg Bool.false_ne_true, List.nil_append]
    cases dump with
    | true =>
      rw [if_pos rfl, Progress.foldlM_take_cons _ (Progress.take_mention rfl (by decide) rfl rfl)]
      rfl
    | false => rfl

end Check

end Interconnect.Command
