import Mathlib.Data.List.Nodup
import ScopeMetrics.Proofs.Variables

/-!
# Which of several sources counts

Settings come from a document, from variables and from a caller, whole sections at a time.  Still
each setting is decided by itself: it is what the caller says of it, else what the variables say,
else what the document says, else its default; and what is said of it is checked as if nothing else
were there.

* `Settings.check_eq_ok`: checking settings is checking each of them.
* `Settings.alike_merged`: what is left of a setting after the sections were merged.
* **`Settings.load_precedence`**: settings are loaded exactly if each of them is taken from the
  first source that says something of it.
-/

namespace ScopeMetrics

open Checked Entries Settings
open Value (Alike AlikeOr)

/-! ### One setting -/

namespace Setting

/-- What can be chosen for a setting. -/
def Kind : Setting → Type
  | .logLevel => Log.Level
  | .logOutputs => List Log.Output
  | .maxFileSize | .maxWorkers | .indent => Int
  | .languages => Option (List Language)
  | .outputFormat => OutputFormat
  | .maxDepth => Option Int

/-- How a value for a setting is checked. -/
def check (homes : Homes) : (k : Setting) → Value → Checked k.Kind
  | .logLevel => choice Log.Level.all Log.Level.name
  | .logOutputs => list (Checked.group "LogOutputConfig" (Log.Output.check homes))
  | .maxFileSize => positive "max_file_size_mb"
  | .maxWorkers => positive "max_workers"
  | .languages => optional (list (choice Language.all Language.id))
  | .outputFormat => choice OutputFormat.all OutputFormat.name
  | .maxDepth => optional integer
  | .indent => integer

end Setting

/-- One of the settings. -/
def Settings.value (s : Settings) : (k : Setting) → k.Kind
  | .logLevel => s.logging.level
  | .logOutputs => s.logging.outputs
  | .maxFileSize => s.analysis.maxFileSizeMb
  | .maxWorkers => s.analysis.maxWorkers
  | .languages => s.analysis.languages
  | .outputFormat => s.output.format
  | .maxDepth => s.output.maxDepth
  | .indent => s.output.indent

namespace Setting

/-- What a setting is if nothing is said of it. -/
def default (k : Setting) : k.Kind := ({} : Settings).value k

/-- Whether a setting is `a` after `said?` was said of it. -/
def Takes (homes : Homes) (k : Setting) (said? : Option Value) (a : k.Kind) : Prop :=
  match said? with
  | none => a = k.default
  | some v => k.check homes v = .ok a

variable {homes : Homes} {k : Setting} {a : k.Kind}

/-- No setting is a map. -/
theorem check_map (es : Entries) : k.check homes (.map es) ≠ .ok a := by
  cases k <;> exact fun h => by cases h

theorem check_congr {v w : Value} (h : Alike v w) (hv : k.check homes v = .ok a) :
    k.check homes w = .ok a := by
  rcases h with rfl | ⟨⟨es, rfl⟩, -⟩
  · exact hv
  · exact absurd hv (check_map es)

theorem Takes.congr {x y : Option Value} (h : AlikeOr x y) (hx : k.Takes homes x a) :
    k.Takes homes y a := by
  cases h with
  | none => exact hx
  | some h => exact check_congr h hx

theorem takes_congr {x y : Option Value} (h : AlikeOr x y) :
    k.Takes homes x a ↔ k.Takes homes y a :=
  ⟨.congr h, .congr (AlikeOr.symm h)⟩

end Setting

/-! ### All settings by themselves -/

namespace Checked

variable {α : Type} {es : Entries} {name : String} {default a : α}

theorem field_eq_ok_iff {check : Value → Checked α} : field es name default check = .ok a ↔
    match get? es name with
    | none => a = default
    | some v => check v = .ok a := by
  rw [field]
  cases get? es name with
  | none => simp [eq_comm]
  | some v => exact within_eq_ok

/-- A group that has its defaults when it is empty is checked like its entries, if it is a map. -/
theorem field_group_eq_ok {label : String} {check : Entries → Checked α}
    (hdefault : check [] = .ok default) :
    field es name default (Checked.group label check) = .ok a ↔
      (∀ v, get? es name = some v → v.IsMap) ∧ check (entriesIn (get? es name)) = .ok a := by
  rw [field_eq_ok_iff]
  cases get? es name with
  | none => simp [entriesIn, hdefault, eq_comm]
  | some v =>
      cases v with
      | map es => simp [Checked.group, entriesIn, Value.IsMap]
      | _ => simp [Checked.group, Checked.reject, Value.IsMap]

end Checked

namespace Settings

variable {homes : Homes} {es : Entries} {s : Settings}

theorem takes_iff {k : Setting} {a : k.Kind} : k.Takes homes (get? es k.name) a ↔
    field es k.name k.default (k.check homes) = .ok a := by
  rw [field_eq_ok_iff]
  rfl

theorem logging_check {l : Log.Setup} : Log.Setup.check homes es = .ok l ↔
    Setting.logLevel.Takes homes (get? es "level") l.level ∧
      Setting.logOutputs.Takes homes (get? es "outputs") l.outputs := by
  constructor
  · intro h
    obtain ⟨level, outputs, hlevel, houtputs, rfl⟩ := both_eq_ok.mp h
    exact ⟨(takes_iff (k := .logLevel)).mpr hlevel, (takes_iff (k := .logOutputs)).mpr houtputs⟩
  · rintro ⟨hlevel, houtputs⟩
    exact both_eq_ok.mpr ⟨_, _, (takes_iff (k := .logLevel)).mp hlevel,
      (takes_iff (k := .logOutputs)).mp houtputs, rfl⟩

theorem analysis_check (homes : Homes) {a : AnalysisSettings} : AnalysisSettings.check es = .ok a ↔
    Setting.maxFileSize.Takes homes (get? es "max_file_size_mb") a.maxFileSizeMb ∧
      Setting.maxWorkers.Takes homes (get? es "max_workers") a.maxWorkers ∧
      Setting.languages.Takes homes (get? es "languages") a.languages := by
  constructor
  · intro h
    obtain ⟨size, rest, hsize, hrest, rfl⟩ := both_eq_ok.mp h
    obtain ⟨workers, languages, hworkers, hlanguages, rfl⟩ := both_eq_ok.mp hrest
    exact ⟨(takes_iff (k := .maxFileSize)).mpr hsize, (takes_iff (k := .maxWorkers)).mpr hworkers,
      (takes_iff (k := .languages)).mpr hlanguages⟩
  · rintro ⟨hsize, hworkers, hlanguages⟩
    exact both_eq_ok.mpr ⟨_, _, (takes_iff (k := .maxFileSize)).mp hsize,
      both_eq_ok.mpr ⟨_, _, (takes_iff (k := .maxWorkers)).mp hworkers,
        (takes_iff (k := .languages)).mp hlanguages, rfl⟩, rfl⟩

theorem output_check (homes : Homes) {p : OutputSettings} : OutputSettings.check es = .ok p ↔
    Setting.outputFormat.Takes homes (get? es "format") p.format ∧
      Setting.maxDepth.Takes homes (get? es "max_depth") p.maxDepth ∧
      Setting.indent.Takes homes (get? es "indent") p.indent := by
  constructor
  · intro h
    obtain ⟨format, rest, hformat, hrest, rfl⟩ := both_eq_ok.mp h
    obtain ⟨depth, indent, hdepth, hindent, rfl⟩ := both_eq_ok.mp hrest
    exact ⟨(takes_iff (k := .outputFormat)).mpr hformat, (takes_iff (k := .maxDepth)).mpr hdepth,
      (takes_iff (k := .indent)).mpr hindent⟩
  · rintro ⟨hformat, hdepth, hindent⟩
    exact both_eq_ok.mpr ⟨_, _, (takes_iff (k := .outputFormat)).mp hformat,
      both_eq_ok.mpr ⟨_, _, (takes_iff (k := .maxDepth)).mp hdepth,
        (takes_iff (k := .indent)).mp hindent, rfl⟩, rfl⟩

theorem check_groups : Settings.check homes es = .ok s ↔
    field es "logging" {} (Checked.group "LoggingConfig" (Log.Setup.check homes)) = .ok s.logging ∧
      field es "analysis" {} (Checked.group "AnalysisConfig" AnalysisSettings.check) =
        .ok s.analysis ∧
      field es "output" {} (Checked.group "OutputConfig" OutputSettings.check) = .ok s.output := by
  constructor
  · intro h
    obtain ⟨logging, rest, hlogging, hrest, rfl⟩ := both_eq_ok.mp h
    obtain ⟨analysis, output, hanalysis, houtput, rfl⟩ := both_eq_ok.mp hrest
    exact ⟨hlogging, hanalysis, houtput⟩
  · rintro ⟨hlogging, hanalysis, houtput⟩
    exact both_eq_ok.mpr ⟨_, _, hlogging, both_eq_ok.mpr ⟨_, _, hanalysis, houtput, rfl⟩, rfl⟩

/-- Whether every group that is there is a map. -/
def HasSections (es : Entries) : Prop :=
  ∀ group ∈ groups, ∀ v, get? es group = some v → v.IsMap

/-- **Checking settings is checking each of them.** -/
theorem check_eq_ok : Settings.check homes es = .ok s ↔
    HasSections es ∧ ∀ k : Setting,
      k.Takes homes (get? (entriesIn (get? es k.group)) k.name) (s.value k) := by
  have hlogging : Log.Setup.check homes [] = .ok {} := rfl
  have hanalysis : AnalysisSettings.check [] = .ok {} := rfl
  have houtput : OutputSettings.check [] = .ok {} := rfl
  rw [check_groups, field_group_eq_ok hlogging, field_group_eq_ok hanalysis,
    field_group_eq_ok houtput, logging_check, analysis_check homes, output_check homes]
  constructor
  · rintro ⟨⟨hl, hlevel, houtputs⟩, ⟨ha, hsize, hworkers, hlanguages⟩, ho, hformat, hdepth, hindent⟩
    refine ⟨fun group hgroup => ?_, fun k => ?_⟩
    · simp only [groups, List.mem_cons, List.not_mem_nil, or_false] at hgroup
      rcases hgroup with rfl | rfl | rfl
      · exact hl
      · exact ha
      · exact ho
    · cases k <;> assumption
  · rintro ⟨hsections, htakes⟩
    exact ⟨⟨hsections _ (by decide), htakes .logLevel, htakes .logOutputs⟩,
      ⟨hsections _ (by decide), htakes .maxFileSize, htakes .maxWorkers, htakes .languages⟩,
      hsections _ (by decide), htakes .outputFormat, htakes .maxDepth, htakes .indent⟩

/-- Names that are not those of groups are refused. -/
theorem checkClosed_eq_ok : checkClosed homes es = .ok s ↔
    Settings.check homes es = .ok s ∧ ∀ name ∈ es.names, name ∈ groups := by
  have hknown : (∀ name ∈ es.names, name ∈ groups) ↔
      es.find? (fun e => !groups.contains e.1) = none := by
    simp [names, List.find?_eq_none]
  rw [hknown, checkClosed]
  cases hextra : es.find? (fun e => !groups.contains e.1) with
  | none => simp [both_eq_ok]
  | some e => simp [both_eq_ok, Checked.reject]

/-! ### Sections by the names of groups -/

/-- The sections that a function gives for groups, in their order. -/
def sectionsOf (section? : String → Option Value) (names : List String) : Entries :=
  names.filterMap fun name => (section? name).map (Prod.mk name)

theorem mem_of_mem_sectionsOf {section? : String → Option Value} {all : List String} {name : String}
    (h : name ∈ (sectionsOf section? all).names) : name ∈ all := by
  obtain ⟨e, he, rfl⟩ := List.mem_map.mp h
  obtain ⟨g, hg, hsome⟩ := List.mem_filterMap.mp he
  obtain ⟨v, -, rfl⟩ := Option.map_eq_some_iff.mp hsome
  exact hg

theorem distinct_sectionsOf (section? : String → Option Value) {all : List String}
    (hall : all.Nodup) : Distinct (sectionsOf section? all) := by
  induction all with
  | nil => exact distinct_nil
  | cons name all ih =>
      obtain ⟨hname, hall⟩ := List.nodup_cons.mp hall
      rw [sectionsOf, List.filterMap_cons]
      cases section? name with
      | none => exact ih hall
      | some v => exact List.nodup_cons.mpr ⟨fun h => hname (mem_of_mem_sectionsOf h), ih hall⟩

theorem get?_sectionsOf {section? : String → Option Value} {all : List String} {name : String}
    (h : name ∈ all) : get? (sectionsOf section? all) name = section? name := by
  induction all with
  | nil => cases h
  | cons n all ih =>
      rw [sectionsOf, List.filterMap_cons]
      by_cases hn : name = n
      · subst hn
        cases hv : section? name with
        | none =>
            -- the name may come again, and has nothing then either
            refine get?_eq_none.mpr fun hmem => ?_
            obtain ⟨e, he, hfst⟩ := List.mem_map.mp hmem
            obtain ⟨g, hg, hsome⟩ := List.mem_filterMap.mp he
            obtain ⟨v, hgv, rfl⟩ := Option.map_eq_some_iff.mp hsome
            rw [← hfst, hgv] at hv
            cases hv
        | some v => exact get?_cons.trans (if_pos rfl)
      · have hrest := ih ((List.mem_cons.mp h).resolve_left hn)
        cases section? n with
        | none => exact hrest
        | some v => exact (get?_cons.trans (if_neg hn)).trans hrest

/-- What the variables say of a group, if they can be read. -/
def variableSection? (deepest : Nat) (vars : List (String × String)) (group : String) :
    Option Value :=
  (ofVariables deepest vars group).toOption.join

theorem ofEnvironment_eq_ok {deepest : Nat} {environment : List (String × String)}
    (h : ofEnvironment deepest environment = .ok es) :
    es = sectionsOf (variableSection? deepest (lowered environment)) groups ∧
      ∀ group ∈ groups, ofVariables deepest (lowered environment) group =
        .ok (variableSection? deepest (lowered environment) group) := by
  rw [ofEnvironment] at h
  refine foldlM_induct (motive := fun front es =>
    es = sectionsOf (variableSection? deepest (lowered environment)) front ∧
      ∀ group ∈ front, ofVariables deepest (lowered environment) group =
        .ok (variableSection? deepest (lowered environment) group)) ?_ ?_ h
  · exact ⟨rfl, fun _ hmem => by cases hmem⟩
  rintro front group es es' ⟨rfl, hfront⟩ hstep
  cases hv : ofVariables deepest (lowered environment) group with
  | error fault =>
      rw [hv] at hstep
      cases hstep
  | ok v? =>
      have hsection : variableSection? deepest (lowered environment) group = v? := by
        simp [variableSection?, hv, Except.toOption]
      refine ⟨?_, fun g hg => ?_⟩
      · rw [hv] at hstep
        rw [sectionsOf, List.filterMap_append, List.filterMap_cons, hsection]
        cases v? <;> cases hstep
        · exact (List.append_nil _).symm
        · rfl
      · rcases List.mem_append.mp hg with hg | hg
        · exact hfront g hg
        · rw [List.mem_singleton.mp hg, hv, hsection]

/-- The section that a caller gives.  Of several spellings of its name the first counts. -/
def givenSection? (given : Entries) (group : String) : Option Value :=
  (given.find? fun e => Text.lower e.1 == group).map Prod.snd

theorem canonical_eq (given : Entries) : canonical given =
    sectionsOf (givenSection? given) groups ++
      given.filter fun e => !groups.contains (Text.lower e.1) := by
  simp only [canonical, sectionsOf, givenSection?, Option.map_map]
  rfl

theorem lower_group {group : String} (h : group ∈ groups) : Text.lower group = group := by
  simp only [groups, List.mem_cons, List.not_mem_nil, or_false] at h
  rcases h with rfl | rfl | rfl <;> decide

/-- Only groups are given exactly if each name spells that of one. -/
theorem names_canonical {given : Entries} : (∀ name ∈ (canonical given).names, name ∈ groups) ↔
    ∀ e ∈ given, Text.lower e.1 ∈ groups := by
  rw [canonical_eq]
  constructor
  · intro h e he
    by_contra hunknown
    have hmem : e.1 ∈ groups := h e.1 (List.mem_map_of_mem (List.mem_append_right _
      (List.mem_filter.mpr ⟨he, by simpa using hunknown⟩)))
    rw [lower_group hmem] at hunknown
    exact hunknown hmem
  · intro h name hname
    rw [names, List.map_append] at hname
    rcases List.mem_append.mp hname with hname | hname
    · exact mem_of_mem_sectionsOf hname
    · obtain ⟨e, he, -⟩ := List.mem_map.mp hname
      obtain ⟨he, hunknown⟩ := List.mem_filter.mp he
      exact absurd (h e he) (by simpa using hunknown)

theorem canonical_of_known {given : Entries} (h : ∀ e ∈ given, Text.lower e.1 ∈ groups) :
    canonical given = sectionsOf (givenSection? given) groups := by
  have hnone : given.filter (fun e => !groups.contains (Text.lower e.1)) = [] := by
    rw [List.filter_eq_nil_iff]
    intro e he
    simpa using h e he
  rw [canonical_eq, hnone, List.append_nil]

/-! ### One source over the other -/

/-- Whether the groups are maps wherever they are given. -/
structure AreSectioned (deepest : Nat) (given : Entries) (vars : List (String × String))
    (document : Entries) : Prop where
  inGiven : ∀ group ∈ groups, IsSection (givenSection? given group)
  inVars : ∀ group ∈ groups, HoldsMap deepest vars group
  inDocument : HasSections document

end Settings

/-- What is said of a setting: what the caller says, else the variables, else the document. -/
def Setting.said? (k : Setting) (deepest : Nat) (given : Entries) (vars : List (String × String))
    (document : Entries) : Option Value :=
  (get? (entriesIn (givenSection? given k.group)) k.name).or
    ((k.inVariables? deepest vars).or (get? (entriesIn (get? document k.group)) k.name))

namespace Settings

variable {deepest : Nat} {homes : Homes} {given document environment : Entries}
  {env : List (String × String)}

theorem nodup_groups : groups.Nodup := by
  decide

/-- The sections of the environment and those of a caller over them are maps, no name twice. -/
theorem isSection_upper (h : AreSectioned deepest given (lowered env) document)
    (hknown : ∀ e ∈ given, Text.lower e.1 ∈ groups)
    (henv : ofEnvironment deepest env = .ok environment) {group : String}
    (hgroup : group ∈ groups) :
    Distinct environment ∧ Distinct (canonical given) ∧
      get? environment group = variableSection? deepest (lowered env) group ∧
      get? (canonical given) group = givenSection? given group ∧
      IsSection (get? environment group) ∧ IsSection (get? (canonical given) group) := by
  obtain ⟨rfl, hvars⟩ := ofEnvironment_eq_ok henv
  rw [canonical_of_known hknown, get?_sectionsOf hgroup, get?_sectionsOf hgroup]
  exact ⟨distinct_sectionsOf _ nodup_groups, distinct_sectionsOf _ nodup_groups, rfl, rfl,
    isSection_ofVariables (h.inVars group hgroup) (hvars group hgroup), h.inGiven group hgroup⟩

/-- **What is left of a setting after the merge is what is said of it first.** -/
theorem alike_merged (h : AreSectioned deepest given (lowered env) document)
    (hknown : ∀ e ∈ given, Text.lower e.1 ∈ groups)
    (henv : ofEnvironment deepest env = .ok environment) (k : Setting) :
    AlikeOr (get? (entriesIn (get? (mergeOver document (mergeOver environment (canonical given)))
      k.group)) k.name) (k.said? deepest given (lowered env) document) := by
  obtain ⟨hdistinct, hdistinct', hvars, hgiven, hsection, hsection'⟩ :=
    isSection_upper h hknown henv k.group_mem
  have hupper : AlikeOr (get? (entriesIn (get? (mergeOver environment (canonical given)) k.group))
      k.name) ((get? (entriesIn (givenSection? given k.group)) k.name).or
        (k.inVariables? deepest (lowered env))) := by
    refine (alike_entriesIn_mergeOver hdistinct' hsection').trans ?_
    rw [hgiven, hvars]
    exact (AlikeOr.refl _).or (Setting.alike_ofVariables (areLowered_lowered env)
      (h.inVars _ k.group_mem) ((ofEnvironment_eq_ok henv).2 _ k.group_mem))
  rw [Setting.said?, ← Option.or_assoc]
  have hmerged := hsection.mergeOver hdistinct' hsection'
  exact (alike_entriesIn_mergeOver (hdistinct.mergeOver _) hmerged).trans (hupper.or (.refl _))

theorem hasSections_merged (h : AreSectioned deepest given (lowered env) document)
    (hknown : ∀ e ∈ given, Text.lower e.1 ∈ groups)
    (henv : ofEnvironment deepest env = .ok environment) :
    HasSections (mergeOver document (mergeOver environment (canonical given))) := by
  intro group hgroup
  obtain ⟨hdistinct, hdistinct', -, -, hsection, hsection'⟩ := isSection_upper h hknown henv hgroup
  have hupper := hsection.mergeOver hdistinct' hsection'
  rw [get?_mergeOver (hdistinct.mergeOver _)]
  intro v hv
  split at hv
  · exact h.inDocument group hgroup v hv
  · rename_i w hw
    obtain ⟨es, rfl, -⟩ := hupper w hw
    cases hv
    exact isMap_overValue _ es

/-- The variables give groups only. -/
theorem names_merged (henv : ofEnvironment deepest env = .ok environment) :
    (∀ name ∈ (mergeOver document (mergeOver environment (canonical given))).names,
        name ∈ groups) ↔
      (∀ name ∈ document.names, name ∈ groups) ∧ ∀ e ∈ given, Text.lower e.1 ∈ groups := by
  have hvars : ∀ name ∈ environment.names, name ∈ groups := by
    obtain ⟨rfl, -⟩ := ofEnvironment_eq_ok henv
    exact fun name hname => mem_of_mem_sectionsOf hname
  rw [← names_canonical]
  simp only [mem_names_mergeOver]
  constructor
  · exact fun h => ⟨fun name hname => h name (.inl hname),
      fun name hname => h name (.inr (.inr hname))⟩
  · rintro ⟨hdocument, hgiven⟩ name (hname | hname | hname)
    · exact hdocument name hname
    · exact hvars name hname
    · exact hgiven name hname

theorem eq_ok_of_toOption {ε α : Type} {x : Except ε α} {a : α} (h : x.toOption = some a) :
    x = .ok a := by
  cases x with
  | error fault => cases h
  | ok b => exact congrArg Except.ok (Option.some.inj h)

/-- What has entries is a map. -/
theorem exists_map_of_entriesIn {ε : Type} {x : Except ε Value} (h : entriesIn x.toOption ≠ []) :
    ∃ es, x = .ok (.map es) := by
  cases x with
  | error fault => exact absurd rfl h
  | ok v =>
      cases v with
      | map es => exact ⟨es, rfl⟩
      | _ => exact absurd rfl h

/-- **Settings are loaded exactly if all variables can be read, only groups are named, and each
setting passes its check as the first of the caller, the variables and the document says it, or is
its default where none does.  What was loaded is given again when it is checked once more.** -/
theorem load_precedence {o : Origin} {folder : Path}
    (hdocument : documented o.disk folder = .ok document)
    (h : AreSectioned o.deepest given (lowered o.environment) document) (s : Settings) :
    (load o folder given = .ok s ↔
      ¬ Blocked o.deepest (lowered o.environment) ∧
      (∀ name ∈ document.names, name ∈ groups) ∧ (∀ e ∈ given, Text.lower e.1 ∈ groups) ∧
      ∀ k : Setting,
        k.Takes o.homes (k.said? o.deepest given (lowered o.environment) document) (s.value k)) ∧
    (load o folder given = .ok s →
      Checked.group "CodeGaugeConfig" (Settings.check o.homes) s.toValue = .ok s) := by
  refine ⟨?_, fun hload => check_toValue (isValid_of_load hload)⟩
  have hblocked := escapesIff_ofEnvironment o.deepest o.environment
  rw [load_eq, merged, hdocument]
  cases henv : ofEnvironment o.deepest o.environment with
  | error fault =>
      rw [henv] at hblocked
      constructor
      · intro hload
        cases hload
      · exact fun hok => absurd hblocked.1 hok.1
  | ok environment =>
      rw [henv] at hblocked
      have hload : ∀ x : Checked Settings, x.mapError loadFault = .ok s ↔ x = .ok s := by
        rintro (fault | t) <;> simp [Except.mapError]
      refine (hload _).trans ?_
      rw [checkClosed_eq_ok, check_eq_ok, names_merged henv]
      constructor
      · rintro ⟨⟨-, htakes⟩, hdoc, hknown⟩
        exact ⟨hblocked, hdoc, hknown, fun k =>
          (Setting.takes_congr (alike_merged h hknown henv k)).mp (htakes k)⟩
      · rintro ⟨-, hdoc, hknown, htakes⟩
        exact ⟨⟨hasSections_merged h hknown henv, fun k =>
          (Setting.takes_congr (alike_merged h hknown henv k)).mpr (htakes k)⟩, hdoc, hknown⟩

/-- Three sources: the caller has the workers over a variable and the document, the JSON of a group
has the indent, and the document still has the size of files and the format beside them. -/
theorem load_precedence_three_sources :
    let document : Entries :=
      [("analysis", .map [("max_workers", .int 2), ("max_file_size_mb", .int 5)]),
        ("output", .map [("format", .text "json"), ("indent", .int 8)])]
    let o : Origin :=
      { disk := { root := .folder [(".codegauge.yaml", .file { document := .ok (.map document) })] }
        environment := [("CODEGAUGE__ANALYSIS__MAX_WORKERS", "6"),
          ("CODEGAUGE__OUTPUT", "\x7b\"Indent\": 4\x7d")] }
    let given : Entries := [("analysis", .map [("max_workers", .text " 8 ")])]
    let s : Settings :=
      { analysis := { maxWorkers := 8, maxFileSizeMb := 5 }
        output := { format := .json, indent := 4 } }
    documented o.disk ⟨"", []⟩ = .ok document ∧
      AreSectioned o.deepest given (lowered o.environment) document ∧
      load o ⟨"", []⟩ given = .ok s ∧
      (∀ k : Setting,
        k.Takes o.homes (k.said? o.deepest given (lowered o.environment) document) (s.value k)) ∧
      Checked.group "CodeGaugeConfig" (Settings.check o.homes) s.toValue = .ok s := by
  intro document o given s
  have hdocument : documented o.disk ⟨"", []⟩ = .ok document := rfl
  have hsections : AreSectioned o.deepest given (lowered o.environment) document := by
    refine ⟨fun group hgroup => ?_, fun group hgroup => ?_, fun group hgroup => ?_⟩ <;>
      simp only [groups, List.mem_cons, List.not_mem_nil, or_false] at hgroup <;>
      rcases hgroup with rfl | rfl | rfl
    · rintro v ⟨⟩
    · rintro v ⟨⟩
      exact ⟨_, rfl, List.nodup_singleton _⟩
    · rintro v ⟨⟩
    · rintro text ⟨⟩
    · rintro text ⟨⟩
    · rintro text ⟨⟩
      refine exists_map_of_entriesIn (fun hnil => ?_)
      exact absurd (congrArg List.length hnil) (by decide +kernel)
    · rintro v ⟨⟩
    · rintro v ⟨⟩
      exact ⟨_, rfl⟩
    · rintro v ⟨⟩
      exact ⟨_, rfl⟩
  have hload : load o ⟨"", []⟩ given = .ok s := by
    have hsome : (load o ⟨"", []⟩ given).toOption = some s := by decide +kernel
    exact eq_ok_of_toOption hsome
  obtain ⟨hfirst, hagain⟩ := load_precedence hdocument hsections s
  exact ⟨hdocument, hsections, hload, (hfirst.mp hload).2.2.2, hagain hload⟩

end Settings

end ScopeMetrics
