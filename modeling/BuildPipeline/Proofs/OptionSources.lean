import BuildPipeline.Options
import Mathlib.Data.List.Forall2
import Mathlib.Data.List.Nodup

/-! Where the options of a run come from. Each is taken from the first source that has
it, and a variable of the environment that cannot be used is reported and then counts
as unset. -/

namespace BuildPipeline

variable {α : Type _}

/-- The first source that has a value, or else the built-in one. -/
inductive FirstOf : List (Option α) → α → α → Prop
  | builtin (value : α) : FirstOf [] value value
  | given (value : α) (later : List (Option α)) (builtin : α) : FirstOf (some value :: later) builtin value
  | absent {later : List (Option α)} {builtin value : α} (next : FirstOf later builtin value) :
      FirstOf (none :: later) builtin value

theorem firstOf_getD (source : Option α) (builtin : α) : FirstOf [source] builtin (source.getD builtin) := by
  cases source with
  | none => exact .absent (.builtin _)
  | some value => exact .given value _ _

theorem FirstOf.cons {later : List (Option α)} {rest : Option α} {builtin : α}
    (chosen : FirstOf later builtin (rest.getD builtin)) (source : Option α) :
    FirstOf (source :: later) builtin ((source.or rest).getD builtin) := by
  cases source with
  | none => exact .absent chosen
  | some value => exact .given value _ _

/-- Digits behind an optional minus, with blanks around them, as the number they stand for. -/
def WritesDepth (text : Text) (depth : Number) : Prop :=
  ∃ digits : Text, digits ≠ [] ∧ (∀ digit ∈ digits, isDigit digit = true) ∧
    (text.trim = digits ∧ depth = .ofNat (digitsValue digits) ∨
      text.trim = CodeUnit.ofChar '-' :: digits ∧ depth = (Number.ofNat (digitsValue digits)).neg)

def IsDepth (text : Text) : Prop :=
  ∃ depth, WritesDepth text depth

/-- One of the words for a switch, in capitals or not, with blanks around it. -/
def MeansSwitch (text : Text) (switch : Bool) : Prop :=
  text.trim.map lowerUnit ∈ if switch then onWords else offWords

/-- The value that a text gives, if there is a text and it gives one. -/
def Reads (gives : Text → α → Prop) (source : Option Text) : Option α → Prop
  | some value => ∃ text, source = some text ∧ gives text value
  | none => ∀ text, source = some text → ∀ value, ¬ gives text value

/-- Every option from the flags, then from the environment where a variable is for it,
then from the manifest. -/
structure PipelineOptions.SettledBy (options : PipelineOptions) (flags : PipelineFlags) (config : CiConfig)
    (defaultOutput : Text) (environment : Environment) : Prop where
  platform : FirstOf [flags.platform, config.target] "gitlab" options.platform
  outputPath : FirstOf [flags.output] defaultOutput options.outputPath
  pruneUpToDate : ∃ set, Reads MeansSwitch (environment.lookup upToDateVariable) set ∧
    FirstOf [flags.pruneUpToDate, set, config.pruneUpToDate] false options.pruneUpToDate
  pruneBroken : FirstOf [flags.pruneBroken, config.pruneBroken] false options.pruneBroken
  pruneExternal : FirstOf [flags.pruneExternal, config.pruneExternal] true options.pruneExternal
  affectedOnly : ∃ set, Reads MeansSwitch (environment.lookup untouchedVariable) set ∧
    FirstOf [flags.affectedOnly, set, config.affectedOnly] false options.affectedOnly
  dependentDepth : ∃ given set, Reads WritesDepth flags.dependentDepth given ∧
    Reads WritesDepth (environment.lookup depthVariable) set ∧
    FirstOf [given.map some, set.map some] none options.dependentDepth
  printSummary : FirstOf [flags.summary] true options.printSummary
  artifactsRoot : FirstOf [flags.artifactsRoot, config.artifactsRoot] "jobs_scratch_dir" options.artifactsRoot

/-- A variable of the environment that stands in for a flag. -/
structure OptionVariable where
  name : Text
  isGiven : PipelineFlags → Bool
  /-- Values that set the option. -/
  sets : Text → Prop
  /-- Values that are passed over without a word. -/
  isSilent : Text → Prop
  warning : Text → Warning

namespace OptionVariable

def depth : OptionVariable where
  name := depthVariable
  isGiven flags := flags.dependentDepth.isSome
  sets := IsDepth
  isSilent _ := False
  warning := .unusableDepth

/-- A blank value leaves a switch alone. -/
def ofSwitch (name : Text) (flag : PipelineFlags → Option Bool) : OptionVariable where
  name
  isGiven flags := (flag flags).isSome
  sets text := ∃ switch, MeansSwitch text switch
  isSilent text := text.trim = []
  warning := .unusableSwitch name

def upToDate : OptionVariable := ofSwitch upToDateVariable PipelineFlags.pruneUpToDate

def untouched : OptionVariable := ofSwitch untouchedVariable PipelineFlags.affectedOnly

/-- In the order in which they are reported. -/
def all : List OptionVariable := [depth, upToDate, untouched]

/-- Only a variable that is consulted and has a value of no use is reported, and once. -/
structure Reports (source : OptionVariable) (flags : PipelineFlags) (environment : Environment)
    (warnings : List Warning) : Prop where
  unconsulted : source.isGiven flags = true → warnings = []
  unset : environment.lookup source.name = none → warnings = []
  accepted : ∀ value, environment.lookup source.name = some value →
    source.sets value ∨ source.isSilent value → warnings = []
  refused : source.isGiven flags = false → ∀ value, environment.lookup source.name = some value →
    ¬ source.sets value → ¬ source.isSilent value → warnings = [source.warning value]

/-- Environments that may differ in this variable alone. -/
def AgreeBeside (source : OptionVariable) (environment other : Environment) : Prop :=
  ∀ name, name ≠ source.name → environment.lookup name = other.lookup name

/-- The warnings with one more for the value, if it is reported at all. -/
def AddsWarning (source : OptionVariable) (value : Text) (fewer more : List Warning) : Prop :=
  source.isSilent value ∧ more = fewer ∨
    ¬ source.isSilent value ∧ ∃ before after, fewer = before ++ after ∧ more = before ++ source.warning value :: after

/-- What reading a variable gives. -/
inductive Consults (source : OptionVariable) (gives : Text → α → Prop) : Option Text → Consulted α → Prop
  | unset : Consults source gives none (none, [])
  | set {text : Text} {value : α} (given : gives text value) (usable : source.sets text) :
      Consults source gives (some text) (some value, [])
  | silent {text : Text} (useless : ¬ source.sets text) (nothing : ∀ value, ¬ gives text value)
      (quiet : source.isSilent text) : Consults source gives (some text) (none, [])
  | refused {text : Text} (useless : ¬ source.sets text) (nothing : ∀ value, ¬ gives text value)
      (loud : ¬ source.isSilent text) : Consults source gives (some text) (none, [source.warning text])

end OptionVariable

theorem parseDepth?_eq_some_iff {text : Text} {depth : Number} :
    parseDepth? text = some depth ↔ WritesDepth text depth := by
  have digit_ne_minus : isDigit (CodeUnit.ofChar '-') = false := by decide
  unfold WritesDepth
  generalize word : text.trim = trimmed
  constructor
  · intro read
    simp only [parseDepth?, word] at read
    by_cases negative : trimmed.head? = some (CodeUnit.ofChar '-')
    · obtain ⟨digits, rfl⟩ : ∃ digits, trimmed = CodeUnit.ofChar '-' :: digits := by
        cases trimmed with
        | nil => cases negative
        | cons first rest => exact ⟨rest, by rw [Option.some.inj negative]⟩
      simp [Option.ite_none_left_eq_some] at read
      obtain ⟨⟨filled, every⟩, rfl⟩ := read
      exact ⟨digits, filled, every, .inr ⟨rfl, rfl⟩⟩
    · simp [negative, Option.ite_none_left_eq_some] at read
      obtain ⟨⟨filled, every⟩, rfl⟩ := read
      exact ⟨trimmed, filled, every, .inl ⟨rfl, rfl⟩⟩
  · rintro ⟨digits, filled, every, ⟨rfl, value⟩ | ⟨rfl, value⟩⟩
    · have positive : trimmed.head? ≠ some (CodeUnit.ofChar '-') := by
        intro negative
        have minus := every _ (List.mem_of_mem_head? negative)
        rw [digit_ne_minus] at minus
        cases minus
      simpa [parseDepth?, word, positive, filled, value] using every
    · simpa [parseDepth?, word, filled, value] using every

theorem isDepth_iff {text : Text} : IsDepth text ↔ (parseDepth? text).isSome := by
  simp only [IsDepth, ← parseDepth?_eq_some_iff, Option.isSome_iff_exists]

theorem not_meansSwitch_of_blank {text : Text} (blank : text.trim = []) (switch : Bool) :
    ¬ MeansSwitch text switch := by
  rw [MeansSwitch, blank]
  cases switch <;> decide

theorem readSwitch_of_meansSwitch {text : Text} {switch : Bool} (means : MeansSwitch text switch) (name : Text) :
    readSwitch name text = (some switch, []) := by
  have some : text.trim.map lowerUnit ≠ [] := fun blank =>
    not_meansSwitch_of_blank (List.map_eq_nil_iff.1 blank) switch means
  have apart : ∀ word ∈ offWords, word ∉ onWords := by decide
  unfold MeansSwitch at means
  cases switch with
  | true => simp_all [readSwitch, Text.ofString, Text.ofChars]
  | false => simp_all [readSwitch, Text.ofString, Text.ofChars]

theorem readSwitch_of_blank {text : Text} (blank : text.trim = []) (name : Text) :
    readSwitch name text = (none, []) := by
  rw [readSwitch, blank]
  rfl

theorem readSwitch_of_useless {text : Text} (useless : ∀ switch, ¬ MeansSwitch text switch) (filled : text.trim ≠ [])
    (name : Text) : readSwitch name text = (none, [.unusableSwitch name text]) := by
  have on : text.trim.map lowerUnit ∉ onWords := useless true
  have off : text.trim.map lowerUnit ∉ offWords := useless false
  have some : text.trim.map lowerUnit ≠ [] := fun blank => filled (List.map_eq_nil_iff.1 blank)
  simp only [readSwitch, if_neg on, if_neg off]
  exact if_neg some

namespace OptionVariable

variable {gives : Text → α → Prop} {source : OptionVariable}

theorem Consults.reads {value : Option Text} {consulted : Consulted α} (consults : source.Consults gives value consulted) :
    Reads gives value consulted.1 := by
  cases consults with
  | unset => exact nofun
  | set given => exact ⟨_, rfl, given⟩
  | silent _ nothing _ | refused _ nothing _ => exact fun _ same => Option.some.inj same ▸ nothing

theorem Consults.of_unset {consulted : Consulted α} (consults : source.Consults gives none consulted) :
    consulted = (none, []) := by
  cases consults
  rfl

theorem Consults.of_useless {text : Text} {consulted : Consulted α} (consults : source.Consults gives (some text) consulted)
    (useless : ¬ source.sets text) : ∃ warnings, consulted = (none, warnings) ∧
      (source.isSilent text ∧ warnings = [] ∨ ¬ source.isSilent text ∧ warnings = [source.warning text]) := by
  cases consults with
  | set _ usable => exact absurd usable useless
  | silent _ _ quiet => exact ⟨_, rfl, .inl ⟨quiet, rfl⟩⟩
  | refused _ _ loud => exact ⟨_, rfl, .inr ⟨loud, rfl⟩⟩

theorem consults_switch (environment : Environment) (name : Text) (flag : PipelineFlags → Option Bool) :
    (ofSwitch name flag).Consults MeansSwitch (environment.lookup name) (switchFromEnvironment environment name) := by
  unfold switchFromEnvironment
  cases environment.lookup name with
  | none => exact .unset
  | some text =>
    simp only
    by_cases usable : ∃ switch, MeansSwitch text switch
    · obtain ⟨switch, means⟩ := usable
      rw [readSwitch_of_meansSwitch means]
      exact .set means ⟨switch, means⟩
    · have useless := not_exists.1 usable
      by_cases blank : text.trim = []
      · rw [readSwitch_of_blank blank]
        exact .silent usable useless blank
      · rw [readSwitch_of_useless useless blank]
        exact .refused usable useless blank

theorem consults_depth (environment : Environment) :
    depth.Consults WritesDepth (environment.lookup depthVariable) (depthFromEnvironment environment) := by
  unfold depthFromEnvironment
  cases environment.lookup depthVariable with
  | none => exact .unset
  | some text =>
    simp only
    cases read : parseDepth? text with
    | some value =>
      have writes := parseDepth?_eq_some_iff.1 read
      exact .set writes ⟨value, writes⟩
    | none =>
      have nothing : ∀ value, ¬ WritesDepth text value := by
        intro value writes
        rw [parseDepth?_eq_some_iff.2 writes] at read
        cases read
      exact .refused (not_exists.2 nothing) nothing id

/-- A flag keeps the variable from being consulted. -/
theorem reports_of_given {flags : PipelineFlags} (given : source.isGiven flags = true) (environment : Environment) :
    source.Reports flags environment [] := by
  refine ⟨fun _ => rfl, fun _ => rfl, fun _ _ _ => rfl, fun apart => ?_⟩
  rw [given] at apart
  cases apart

theorem Consults.reports {flags : PipelineFlags} {environment : Environment} {consulted : Consulted α}
    (consults : source.Consults gives (environment.lookup source.name) consulted)
    (absent : source.isGiven flags = false) : source.Reports flags environment consulted.2 := by
  generalize found : environment.lookup source.name = value at consults
  constructor
  case unconsulted =>
    intro given
    rw [absent] at given
    cases given
  case unset =>
    intro unset
    obtain rfl := found.symm.trans unset
    cases consults
    rfl
  case accepted =>
    intro text listed usable
    obtain rfl := found.symm.trans listed
    cases consults with
    | set | silent => rfl
    | refused useless _ loud => exact absurd usable (not_or.2 ⟨useless, loud⟩)
  case refused =>
    intro _ text listed useless loud
    obtain rfl := found.symm.trans listed
    cases consults with
    | set _ usable => exact absurd usable useless
    | silent _ _ quiet => exact absurd quiet loud
    | refused => rfl

end OptionVariable

variable {flags : PipelineFlags} {config : CiConfig} {defaultOutput : Text} {environment other : Environment}

/-- The depth flag is not given, or it is a depth. -/
def PipelineFlags.DepthUsable (flags : PipelineFlags) : Prop :=
  ∀ given, flags.dependentDepth = some given → IsDepth given

/-! What the three options are read from, each with its warnings. -/

def consultedDepth (flags : PipelineFlags) (environment : Environment) : Consulted Number :=
  orConsult (flags.dependentDepth.bind parseDepth?) (depthFromEnvironment environment)

def consultedSwitch (name : Text) (flag : PipelineFlags → Option Bool) (flags : PipelineFlags)
    (environment : Environment) : Consulted Bool :=
  orConsult (flag flags) (switchFromEnvironment environment name)

abbrev consultedUpToDate := consultedSwitch upToDateVariable PipelineFlags.pruneUpToDate

abbrev consultedUntouched := consultedSwitch untouchedVariable PipelineFlags.affectedOnly

theorem collectOptions_of_usable (usable : flags.DepthUsable) (config : CiConfig) (defaultOutput : Text)
    (environment : Environment) :
    collectOptions flags config defaultOutput environment = .ok
      (optionsWithDepth flags config defaultOutput (consultedUpToDate flags environment).1
        (consultedUntouched flags environment).1 (consultedDepth flags environment).1,
       (consultedDepth flags environment).2 ++ (consultedUpToDate flags environment).2 ++
        (consultedUntouched flags environment).2) := by
  have settled : settleDepth flags environment = .ok (consultedDepth flags environment) := by
    unfold settleDepth consultedDepth
    cases asked : flags.dependentDepth with
    | none => rfl
    | some given =>
      obtain ⟨depth, writes⟩ := usable given asked
      simp [parseDepth?_eq_some_iff.2 writes, orConsult]
  rw [collectOptions, settled]
  rfl

theorem collectOptions_of_useless {given : Text} (asked : flags.dependentDepth = some given) (useless : ¬ IsDepth given)
    (config : CiConfig) (defaultOutput : Text) (environment : Environment) :
    collectOptions flags config defaultOutput environment = .error ⟨given⟩ := by
  have nothing : parseDepth? given = none := by
    rwa [isDepth_iff, Option.not_isSome_iff_eq_none] at useless
  simp only [collectOptions, settleDepth, asked, nothing]
  rfl

theorem orConsult_fst (flag : Option α) (consulted : Consulted α) :
    (orConsult flag consulted).1 = flag.or consulted.1 := by
  cases flag <;> rfl

theorem settledBy_optionsWithDepth (usable : flags.DepthUsable) (config : CiConfig) (defaultOutput : Text)
    (environment : Environment) :
    (optionsWithDepth flags config defaultOutput (consultedUpToDate flags environment).1
      (consultedUntouched flags environment).1 (consultedDepth flags environment).1).SettledBy
      flags config defaultOutput environment := by
  have switch (name : Text) (flag : PipelineFlags → Option Bool) :=
    (OptionVariable.consults_switch environment name flag).reads
  constructor
  case platform => exact (firstOf_getD config.target _).cons _
  case outputPath => exact firstOf_getD _ _
  case pruneUpToDate =>
    refine ⟨_, switch upToDateVariable PipelineFlags.pruneUpToDate, ?_⟩
    simp only [optionsWithDepth, consultedSwitch, orConsult_fst, Option.or_assoc]
    exact ((firstOf_getD config.pruneUpToDate false).cons _).cons _
  case pruneBroken => exact (firstOf_getD config.pruneBroken _).cons _
  case pruneExternal => exact (firstOf_getD config.pruneExternal _).cons _
  case affectedOnly =>
    refine ⟨_, switch untouchedVariable PipelineFlags.affectedOnly, ?_⟩
    simp only [optionsWithDepth, consultedSwitch, orConsult_fst, Option.or_assoc]
    exact ((firstOf_getD config.affectedOnly false).cons _).cons _
  case dependentDepth =>
    refine ⟨flags.dependentDepth.bind parseDepth?, _, ?_, (OptionVariable.consults_depth environment).reads, ?_⟩
    · cases asked : flags.dependentDepth with
      | none => exact nofun
      | some given =>
        obtain ⟨depth, writes⟩ := usable given asked
        rw [Option.bind_some, parseDepth?_eq_some_iff.2 writes]
        exact ⟨given, rfl, writes⟩
    · simp only [optionsWithDepth, consultedDepth, orConsult_fst]
      cases flags.dependentDepth.bind parseDepth? with
      | some depth => exact .given _ _ _
      | none =>
        cases (depthFromEnvironment environment).1 with
        | some depth => exact .absent (.given _ _ _)
        | none => exact .absent (.absent (.builtin _))
  case printSummary => exact firstOf_getD _ _
  case artifactsRoot => exact (firstOf_getD config.artifactsRoot _).cons _

namespace OptionVariable

theorem reports_consultedDepth (usable : flags.DepthUsable) (environment : Environment) :
    depth.Reports flags environment (consultedDepth flags environment).2 := by
  unfold consultedDepth
  cases asked : flags.dependentDepth with
  | none => exact (consults_depth environment).reports (by simp [depth, asked])
  | some given =>
    obtain ⟨value, writes⟩ := usable given asked
    rw [Option.bind_some, parseDepth?_eq_some_iff.2 writes]
    exact reports_of_given (by simp [depth, asked]) environment

theorem reports_consultedSwitch (flags : PipelineFlags) (environment : Environment) (name : Text)
    (flag : PipelineFlags → Option Bool) :
    (ofSwitch name flag).Reports flags environment (consultedSwitch name flag flags environment).2 := by
  unfold consultedSwitch
  cases asked : flag flags with
  | none => exact (consults_switch environment name flag).reports (by simp [ofSwitch, asked])
  | some given => exact reports_of_given (by simp [ofSwitch, asked]) environment

end OptionVariable

theorem orConsult_of_isSome {flag : Option α} (given : flag.isSome = true) (left right : Consulted α) :
    orConsult flag left = orConsult flag right := by
  cases flag with
  | none => cases given
  | some value => rfl

/-! The environment matters to an option through one variable, and only without the flag. -/

theorem consultedSwitch_congr {name : Text} {flag : PipelineFlags → Option Bool}
    (same : (flag flags).isSome = true ∨ environment.lookup name = other.lookup name) :
    consultedSwitch name flag flags environment = consultedSwitch name flag flags other := by
  rcases same with given | agree
  · exact orConsult_of_isSome given _ _
  · rw [consultedSwitch, consultedSwitch, switchFromEnvironment, switchFromEnvironment, agree]

theorem consultedDepth_congr (usable : flags.DepthUsable)
    (same : flags.dependentDepth.isSome = true ∨ environment.lookup depthVariable = other.lookup depthVariable) :
    consultedDepth flags environment = consultedDepth flags other := by
  rcases same with given | agree
  · obtain ⟨text, asked⟩ := Option.isSome_iff_exists.1 given
    have read : (flags.dependentDepth.bind parseDepth?).isSome = true := by
      rw [asked, Option.bind_some]
      exact isDepth_iff.1 (usable text asked)
    exact orConsult_of_isSome read _ _
  · rw [consultedDepth, consultedDepth, depthFromEnvironment, depthFromEnvironment, agree]

theorem PipelineFlags.exists_useless (unusable : ¬ flags.DepthUsable) :
    ∃ given, flags.dependentDepth = some given ∧ ¬ IsDepth given := by
  simpa [DepthUsable] using unusable

theorem PipelineFlags.depthUsable_of_collected (flags : PipelineFlags) {result : PipelineOptions × List Warning}
    (collected : collectOptions flags config defaultOutput environment = .ok result) : flags.DepthUsable := by
  by_contra unusable
  obtain ⟨given, asked, refused⟩ := flags.exists_useless unusable
  rw [collectOptions_of_useless asked refused] at collected
  cases collected

theorem collectOptions_congr (same : ∀ source ∈ OptionVariable.all,
      source.isGiven flags = true ∨ environment.lookup source.name = other.lookup source.name)
    (config : CiConfig) (defaultOutput : Text) :
    collectOptions flags config defaultOutput environment = collectOptions flags config defaultOutput other := by
  by_cases usable : flags.DepthUsable
  · have depth := consultedDepth_congr usable (same .depth (by simp [OptionVariable.all]))
    have upToDate : consultedUpToDate flags environment = consultedUpToDate flags other :=
      consultedSwitch_congr (same .upToDate (by simp [OptionVariable.all]))
    have untouched : consultedUntouched flags environment = consultedUntouched flags other :=
      consultedSwitch_congr (same .untouched (by simp [OptionVariable.all]))
    rw [collectOptions_of_usable usable, collectOptions_of_usable usable, depth, upToDate, untouched]
  · obtain ⟨given, asked, useless⟩ := flags.exists_useless usable
    rw [collectOptions_of_useless asked useless, collectOptions_of_useless asked useless]

namespace OptionVariable

/-- The name tells the variables apart. -/
theorem eq_of_name_eq {left right : OptionVariable} (first : left ∈ all) (second : right ∈ all)
    (same : left.name = right.name) : left = right :=
  List.inj_on_of_nodup_map (by decide : (all.map OptionVariable.name).Nodup) first second same

variable {source : OptionVariable} {value : Text}

/-- Warnings around those of one variable. -/
theorem AddsWarning.of_added {added : List Warning}
    (reported : source.isSilent value ∧ added = [] ∨ ¬ source.isSilent value ∧ added = [source.warning value])
    (before after : List Warning) : source.AddsWarning value (before ++ after) (before ++ added ++ after) := by
  rcases reported with ⟨quiet, rfl⟩ | ⟨loud, rfl⟩
  · exact .inl ⟨quiet, by rw [List.append_nil]⟩
  · exact .inr ⟨loud, before, after, rfl, by rw [List.append_assoc, List.singleton_append]⟩

theorem exists_consultedSwitch {name : Text} {flag : PipelineFlags → Option Bool}
    (absent : (ofSwitch name flag).isGiven flags = false) (set : environment.lookup name = some value)
    (useless : ¬ (ofSwitch name flag).sets value) :
    ∃ added, consultedSwitch name flag flags environment = (none, added) ∧
      ((ofSwitch name flag).isSilent value ∧ added = [] ∨
        ¬ (ofSwitch name flag).isSilent value ∧ added = [(ofSwitch name flag).warning value]) := by
  have unflagged : flag flags = none := by simpa [ofSwitch] using absent
  rw [consultedSwitch, unflagged]
  exact (set ▸ consults_switch environment name flag).of_useless useless

theorem consultedSwitch_of_unset {name : Text} {flag : PipelineFlags → Option Bool}
    (absent : (ofSwitch name flag).isGiven flags = false) (unset : other.lookup name = none) :
    consultedSwitch name flag flags other = (none, []) := by
  have unflagged : flag flags = none := by simpa [ofSwitch] using absent
  rw [consultedSwitch, unflagged]
  exact (unset ▸ consults_switch other name flag).of_unset

/-- A variable that is consulted without use gives the options that it gives unset. -/
theorem collectOptions_useless (known : source ∈ all) (absent : source.isGiven flags = false)
    (set : environment.lookup source.name = some value) (useless : ¬ source.sets value)
    (beside : source.AgreeBeside environment other) (unset : other.lookup source.name = none)
    {options : PipelineOptions} {warnings : List Warning}
    (collected : collectOptions flags config defaultOutput other = .ok (options, warnings)) :
    ∃ more, collectOptions flags config defaultOutput environment = .ok (options, more) ∧
      source.AddsWarning value warnings more := by
  have usable := flags.depthUsable_of_collected collected
  rw [collectOptions_of_usable usable] at collected ⊢
  simp only [all, List.mem_cons, List.not_mem_nil, or_false] at known
  rcases known with rfl | rfl | rfl
  · have flag : flags.dependentDepth = none := by simpa [depth] using absent
    obtain ⟨added, found, reported⟩ := (set ▸ consults_depth environment).of_useless useless
    have nothing := (unset ▸ consults_depth other).of_unset
    have upToDate : consultedUpToDate flags environment = consultedUpToDate flags other :=
      consultedSwitch_congr (.inr (beside _ (by decide)))
    have untouched : consultedUntouched flags environment = consultedUntouched flags other :=
      consultedSwitch_congr (.inr (beside _ (by decide)))
    simp only [consultedDepth, flag, Option.bind_none, orConsult, found, nothing, upToDate, untouched] at collected ⊢
    obtain ⟨rfl, rfl⟩ := Prod.mk.inj (Except.ok.inj collected)
    refine ⟨_, rfl, ?_⟩
    rw [List.append_assoc, List.append_assoc]
    exact .of_added reported [] _
  · obtain ⟨added, found, reported⟩ := exists_consultedSwitch absent set useless
    have nothing := consultedSwitch_of_unset absent unset
    have depth := consultedDepth_congr usable (.inr (beside _ (by decide)))
    have untouched : consultedUntouched flags environment = consultedUntouched flags other :=
      consultedSwitch_congr (.inr (beside _ (by decide)))
    simp only [found, nothing, depth, untouched] at collected ⊢
    obtain ⟨rfl, rfl⟩ := Prod.mk.inj (Except.ok.inj collected)
    refine ⟨_, rfl, ?_⟩
    rw [List.append_nil]
    exact .of_added reported _ _
  · obtain ⟨added, found, reported⟩ := exists_consultedSwitch absent set useless
    have nothing := consultedSwitch_of_unset absent unset
    have depth := consultedDepth_congr usable (.inr (beside _ (by decide)))
    have upToDate : consultedUpToDate flags environment = consultedUpToDate flags other :=
      consultedSwitch_congr (.inr (beside _ (by decide)))
    simp only [found, nothing, depth, upToDate] at collected ⊢
    obtain ⟨rfl, rfl⟩ := Prod.mk.inj (Except.ok.inj collected)
    refine ⟨_, rfl, ?_⟩
    rw [← List.append_nil (_ ++ added)]
    exact .of_added reported _ _

end OptionVariable

/-- What options come to, whatever the environment holds. -/
structure OptionsCollected (flags : PipelineFlags) (config : CiConfig) (defaultOutput : Text) : Prop where
  fails : ∀ environment error, collectOptions flags config defaultOutput environment = .error error ↔
    ∃ given, flags.dependentDepth = some given ∧ ¬ IsDepth given ∧ error = ⟨given⟩
  settled : ∀ environment options warnings,
    collectOptions flags config defaultOutput environment = .ok (options, warnings) →
    options.SettledBy flags config defaultOutput environment ∧
    ∃ parts, List.Forall₂ (fun source part => OptionVariable.Reports source flags environment part)
      OptionVariable.all parts ∧ warnings = parts.flatten
  unconsulted : ∀ source ∈ OptionVariable.all, source.isGiven flags = true →
    ∀ environment other, source.AgreeBeside environment other →
    collectOptions flags config defaultOutput environment = collectOptions flags config defaultOutput other
  useless : ∀ source ∈ OptionVariable.all, source.isGiven flags = false → ∀ environment value,
    environment.lookup source.name = some value → ¬ source.sets value →
    ∀ other, source.AgreeBeside environment other → other.lookup source.name = none → ∀ options warnings,
    collectOptions flags config defaultOutput other = .ok (options, warnings) →
    ∃ more, collectOptions flags config defaultOutput environment = .ok (options, more) ∧
      source.AddsWarning value warnings more

/-- Only a depth that is asked for and is none makes a run fail. -/
theorem collectOptions_eq_error_iff {flags : PipelineFlags} {config : CiConfig} {defaultOutput : Text}
    {environment : Environment} {error : DepthError} :
    collectOptions flags config defaultOutput environment = .error error ↔
      ∃ given, flags.dependentDepth = some given ∧ ¬ IsDepth given ∧ error = ⟨given⟩ := by
  by_cases usable : flags.DepthUsable
  · rw [collectOptions_of_usable usable]
    refine ⟨nofun, ?_⟩
    rintro ⟨given, asked, useless, _⟩
    exact absurd (usable given asked) useless
  · obtain ⟨given, asked, useless⟩ := flags.exists_useless usable
    rw [collectOptions_of_useless asked useless]
    constructor
    · intro failed
      exact ⟨given, asked, useless, (Except.error.inj failed).symm⟩
    · rintro ⟨other, same, _, rfl⟩
      rw [Option.some.inj (asked.symm.trans same)]

/-- Options come from the first source that has them, and only a depth flag that is no
depth stops the run. What the environment holds in vain costs one warning, and what a
flag stands in for is not looked at. -/
theorem options_from_first_source (flags : PipelineFlags) (config : CiConfig) (defaultOutput : Text) :
    OptionsCollected flags config defaultOutput := by
  constructor
  case fails => exact fun _ _ => collectOptions_eq_error_iff
  case settled =>
    intro environment options warnings collected
    have usable : flags.DepthUsable := flags.depthUsable_of_collected collected
    rw [collectOptions_of_usable usable] at collected
    obtain ⟨rfl, rfl⟩ := Prod.mk.inj (Except.ok.inj collected)
    refine ⟨settledBy_optionsWithDepth usable config defaultOutput environment, [_, _, _],
      .cons (OptionVariable.reports_consultedDepth usable environment)
        (.cons (OptionVariable.reports_consultedSwitch flags environment _ _)
          (.cons (OptionVariable.reports_consultedSwitch flags environment _ _) .nil)), by simp⟩
  case unconsulted =>
    intro source known given environment other beside
    refine collectOptions_congr (fun each listed => ?_) config defaultOutput
    by_cases same : each.name = source.name
    · exact .inl (OptionVariable.eq_of_name_eq listed known same ▸ given)
    · exact .inr (beside _ same)
  case useless =>
    intro source known absent environment value set useless other beside unset options warnings collected
    exact OptionVariable.collectOptions_useless known absent set useless beside unset collected

end BuildPipeline
