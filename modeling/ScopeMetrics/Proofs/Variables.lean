import Mathlib.Data.List.Nodup
import ScopeMetrics.Proofs.Loading
import ScopeMetrics.Proofs.Overlays
import ScopeMetrics.Proofs.SmallLetters

/-!
# What the variables say of a setting

A setting has a variable of its own, and its group has one that holds JSON for several settings.
The variables are gone through one after the other, put in place by the parts of their names, and
laid over the JSON of the group; then all names are made small.  For one setting this comes down to
two look-ups (`Setting.inVariables?`).

* `Settings.areLowered_lowered`: the variables have small names, each once.
* `Setting.alike_singles`: the variables of single settings give a setting what its own says.
* **`Setting.alike_ofVariables`**: what all variables together say of a setting.
-/

namespace ScopeMetrics

/-! ### Small names -/

namespace Settings

/-- Whether variables have small letters in their names, each name once. -/
structure AreLowered (vars : List (String × String)) : Prop where
  nodup : (vars.map Prod.fst).Nodup
  small : ∀ e ∈ vars, ∃ s, e.1 = Text.lower s

/-- Takes one more variable, in place of one with its name. -/
def taken (vars : List (String × String)) (e : String × String) : List (String × String) :=
  let k := Text.lower e.1
  if vars.any (fun e => e.1 == k) then vars.map fun e' => if e'.1 == k then (k, e.2) else e'
  else vars ++ [(k, e.2)]

theorem lowered_eq (environment : List (String × String)) :
    lowered environment = environment.foldl taken [] := rfl

theorem AreLowered.taken {vars : List (String × String)} (h : AreLowered vars)
    (e : String × String) : AreLowered (taken vars e) := by
  rw [Settings.taken]
  by_cases hk : vars.any (fun e' => e'.1 == Text.lower e.1) = true
  · simp only [hk, if_true]
    have hnames : (vars.map fun e' =>
        if e'.1 == Text.lower e.1 then (Text.lower e.1, e.2) else e').map Prod.fst =
          vars.map Prod.fst := by
      rw [List.map_map]
      refine List.map_congr_left fun e' _ => ?_
      by_cases he : e'.1 = Text.lower e.1 <;> simp [he]
    refine ⟨hnames ▸ h.nodup, fun e' he' => ?_⟩
    have hname := List.mem_map_of_mem (f := Prod.fst) he'
    rw [hnames] at hname
    obtain ⟨old, hold, hfst⟩ := List.mem_map.mp hname
    rw [← hfst]
    exact h.small old hold
  · simp only [hk, Bool.false_eq_true, if_false]
    refine ⟨?_, fun e' he' => ?_⟩
    · rw [List.map_append, List.map_singleton, List.nodup_append]
      refine ⟨h.nodup, List.nodup_singleton _, fun name hname other hother heq => hk ?_⟩
      obtain ⟨e', he', rfl⟩ := List.mem_map.mp hname
      rw [List.mem_singleton.mp hother] at heq
      exact List.any_eq_true.mpr ⟨e', he', by simpa using heq⟩
    · rcases List.mem_append.mp he' with he' | he'
      · exact h.small e' he'
      · exact ⟨e.1, by rw [List.mem_singleton.mp he']⟩

theorem areLowered_lowered (environment : List (String × String)) :
    AreLowered (lowered environment) := by
  rw [lowered_eq]
  refine List.foldlRecOn environment taken ⟨List.nodup_nil, fun e he => by cases he⟩ ?_
  exact fun vars h e _ => h.taken e

end Settings

/-! ### Settings by name -/

/-- What can be set, one by one. -/
inductive Setting where
  | logLevel | logOutputs
  | maxFileSize | maxWorkers | languages
  | outputFormat | maxDepth | indent
  deriving DecidableEq, Repr

open Settings Entries
open Value (Alike AlikeOr)

namespace Setting

/-- The name of the group that a setting is in. -/
def group : Setting → String
  | .logLevel | .logOutputs => "logging"
  | .maxFileSize | .maxWorkers | .languages => "analysis"
  | .outputFormat | .maxDepth | .indent => "output"

/-- The name of a setting in its group. -/
def name : Setting → String
  | .logLevel => "level"
  | .logOutputs => "outputs"
  | .maxFileSize => "max_file_size_mb"
  | .maxWorkers => "max_workers"
  | .languages => "languages"
  | .outputFormat => "format"
  | .maxDepth => "max_depth"
  | .indent => "indent"

/-- The name of the variable of a setting, in small letters. -/
def variableName (k : Setting) : String := variableStart ++ k.group ++ "__" ++ k.name

theorem group_mem (k : Setting) : k.group ∈ groups := by
  cases k <;> decide

theorem name_mem (k : Setting) : k.name ∈ namesIn k.group := by
  cases k <;> decide

theorem lower_name (k : Setting) : Text.lower k.name = k.name := by
  cases k <;> decide

theorem plain_name (k : Setting) : ∀ c ∈ k.name.toList, c.toNat < 128 := by
  -- as a test of each character, so that not all characters there are get tried
  have hall : k.name.toList.all (fun c => decide (c.toNat < 128)) = true := by
    cases k <;> rfl
  simpa using hall

theorem splitName_name (k : Setting) : splitName [] k.name.toList = [k.name] := by
  cases k <;> rfl

theorem splitName_name_append (k : Setting) (rest : List Char) :
    splitName [] (k.name.toList ++ '_' :: '_' :: rest) = k.name :: splitName [] rest := by
  cases k <;> rfl

end Setting

/-! ### One variable after the other -/

/-- What holds at the start of a loop and is kept by its steps holds at its end. -/
theorem foldlM_induct {σ β ε : Type} {step : σ → β → Except ε σ} {motive : List β → σ → Prop}
    {s t : σ} {bs : List β} (hnil : motive [] s)
    (hstep : ∀ bs b s t, motive bs s → step s b = .ok t → motive (bs ++ [b]) t)
    (h : bs.foldlM step s = .ok t) : motive bs t := by
  suffices hfront : ∀ (bs front : List β) (s : σ), motive front s → bs.foldlM step s = .ok t →
      motive (front ++ bs) t from hfront bs [] s hnil h
  intro bs
  induction bs with
  | nil =>
      intro front s hs h
      cases h
      rwa [List.append_nil]
  | cons b bs ih =>
      intro front s hs h
      rw [List.foldlM_cons] at h
      cases hb : step s b with
      | error e =>
          rw [hb] at h
          cases h
      | ok u =>
          rw [hb] at h
          have hall := ih (front ++ [b]) u (hstep front b s u hs hb) h
          rwa [List.append_assoc, List.singleton_append] at hall

namespace Settings

variable {deepest : Nat} {group : String} {vars : List (String × String)} {es es' : Entries}

/-- Takes one variable, if it is one of the group. -/
def single (deepest : Nat) (group : String) (es : Entries) (e : String × String) :
    Except LoadFault Entries :=
  match after? (variableStart ++ group ++ "__") e.1 with
  | none => .ok es
  | some rest => do
    let parts := splitName [] rest.toList
    return putDeep (← decode deepest group (decodingOf group parts) e.2) parts es

theorem singles_eq : singles deepest vars group = vars.foldlM (single deepest group) [] := rfl

/-- A variable of the group is decoded and put under the parts of its name; another one is passed
over. -/
theorem single_cases {e : String × String} (h : single deepest group es e = .ok es') :
    (after? (variableStart ++ group ++ "__") e.1 = none ∧ es' = es) ∨
      ∃ rest v, e.1 = variableStart ++ group ++ "__" ++ rest ∧
        decode deepest group (decodingOf group (splitName [] rest.toList)) e.2 = .ok v ∧
        es' = putDeep v (splitName [] rest.toList) es := by
  rw [single] at h
  split at h
  · rename_i hnone
    cases h
    exact .inl ⟨hnone, rfl⟩
  · rename_i rest hrest
    right
    dsimp only at h
    cases hv : decode deepest group (decodingOf group (splitName [] rest.toList)) e.2 with
    | error fault =>
        rw [hv] at h
        cases h
    | ok v =>
        rw [hv] at h
        cases h
        exact ⟨rest, v, after?_eq_some.mp hrest, hv, rfl⟩

/-! ### Under the parts of a name -/

/-- The first part of a name gets the value, or a map if there are more parts; what is there and is
no map stays. -/
theorem putDeep_cases (v : Value) (n : String) (parts : List String) (es : Entries) :
    (∃ w, putDeep v (n :: parts) es = put es n w ∧
      (parts = [] ∧ w = v ∨ parts ≠ [] ∧ w.IsMap ∧ ((get? es n).getD (.map [])).IsMap)) ∨
    parts ≠ [] ∧ putDeep v (n :: parts) es = es ∧ get? es n ≠ none := by
  cases parts with
  | nil => exact .inl ⟨v, rfl, .inl ⟨rfl, rfl⟩⟩
  | cons p ps =>
      have hne : p :: ps ≠ [] := List.cons_ne_nil p ps
      rw [putDeep]
      · split
        · rename_i inner hinner
          exact .inl ⟨_, rfl, .inr ⟨hne, ⟨_, rfl⟩, inner, hinner⟩⟩
        · rename_i hmap
          refine .inr ⟨hne, rfl, fun hnone => ?_⟩
          rw [hnone] at hmap
          exact hmap [] rfl
      · exact hne

theorem mem_names_putDeep {v : Value} {parts : List String} {n : String}
    (h : n ∈ (putDeep v parts es).names) : n ∈ es.names ∨ parts.head? = some n := by
  cases parts with
  | nil => exact .inl h
  | cons p ps =>
      obtain ⟨w, hput, -⟩ | ⟨-, hput, -⟩ := putDeep_cases v p ps es
      · rw [hput] at h
        rcases mem_names_put.mp h with rfl | h
        · exact .inr rfl
        · exact .inl h
      · rw [hput] at h
        exact .inl h

theorem distinct_putDeep {v : Value} {parts : List String} (h : Distinct es) :
    Distinct (putDeep v parts es) := by
  cases parts with
  | nil => exact h
  | cons p ps =>
      obtain ⟨w, hput, -⟩ | ⟨-, hput, -⟩ := putDeep_cases v p ps es
      · rw [hput]
        exact h.put p w
      · rwa [hput]

theorem get?_putDeep_ne {v : Value} {n name : String} {parts : List String} (hn : n ≠ name) :
    get? (putDeep v (n :: parts) es) name = get? es name := by
  obtain ⟨w, hput, -⟩ | ⟨-, hput, -⟩ := putDeep_cases v n parts es
  · rw [hput, get?_put, if_neg hn.symm]
  · rw [hput]

/-- What is put deeper under a name leaves a map there, or the value that is no map. -/
theorem alike_get?_putDeep {v : Value} {name : String} {parts : List String} (hparts : parts ≠ []) :
    AlikeOr (get? (putDeep v (name :: parts) es) name)
      (some ((get? es name).getD (.map []))) := by
  obtain ⟨w, hput, ⟨hnil, -⟩ | ⟨-, hw, hold⟩⟩ | ⟨-, hput, hthere⟩ := putDeep_cases v name parts es
  · exact absurd hnil hparts
  · rw [hput, get?_put, if_pos rfl]
    exact .some (.inr ⟨hw, hold⟩)
  · obtain ⟨w, hw⟩ := Option.ne_none_iff_exists'.mp hthere
    rw [hput, hw]
    exact .refl _

theorem mem_of_splitName {part cs : List Char} {p : String} {c : Char}
    (hp : p ∈ splitName part cs) (hc : c ∈ p.toList) : c ∈ part ∨ c ∈ cs := by
  fun_induction splitName part cs with
  | case1 part cs ih =>
      rcases List.mem_cons.mp hp with rfl | hp
      · left
        simpa using hc
      · rcases ih hp with h | h
        · cases h
        · exact .inr (List.mem_cons_of_mem _ (List.mem_cons_of_mem _ h))
  | case2 part d cs hd ih =>
      rcases ih hp with h | h
      · rcases List.mem_cons.mp h with rfl | h
        · exact .inr List.mem_cons_self
        · exact .inl h
      · exact .inr (List.mem_cons_of_mem _ h)
  | case3 part =>
      left
      rw [List.mem_singleton.mp hp] at hc
      simpa using hc

theorem splitName_eq_cons_cons {part cs : List Char} {p q : String} {ps : List String}
    (h : splitName part cs = p :: q :: ps) :
    ∃ rest, part.reverse ++ cs = p.toList ++ '_' :: '_' :: rest := by
  fun_induction splitName part cs with
  | case1 part cs ih =>
      refine ⟨cs, ?_⟩
      rw [← (List.cons.inj h).1, String.toList_ofList]
  | case2 part c cs hc ih =>
      obtain ⟨rest, hrest⟩ := ih h
      exact ⟨rest, by rw [← hrest, List.reverse_cons, List.append_assoc, List.singleton_append]⟩
  | case3 part => cases h

/-! ### All single variables -/

theorem distinct_singles (h : singles deepest vars group = .ok es) : Distinct es := by
  rw [singles_eq] at h
  refine foldlM_induct (motive := fun _ es => Distinct es) distinct_nil ?_ h
  intro _ e es es' hes hstep
  obtain ⟨-, rfl⟩ | ⟨rest, v, -, -, rfl⟩ := single_cases hstep
  · exact hes
  · exact distinct_putDeep hes

/-- The names that single variables give are parts of theirs. -/
theorem exists_of_mem_singles {n : String} (h : singles deepest vars group = .ok es)
    (hn : n ∈ es.names) : ∃ e ∈ vars, ∀ c ∈ n.toList, c ∈ e.1.toList := by
  rw [singles_eq] at h
  revert hn
  refine foldlM_induct (motive := fun vars es => n ∈ Entries.names es →
    ∃ e ∈ vars, ∀ c ∈ n.toList, c ∈ e.1.toList) (fun hn => by cases hn) ?_ h
  intro front e es es' ih hstep hn
  have hfront : n ∈ Entries.names es → ∃ e' ∈ front ++ [e], ∀ c ∈ n.toList, c ∈ e'.1.toList :=
    fun hn => by
      obtain ⟨e', he', hchars⟩ := ih hn
      exact ⟨e', List.mem_append_left _ he', hchars⟩
  obtain ⟨-, rfl⟩ | ⟨rest, v, hname, -, rfl⟩ := single_cases hstep
  · exact hfront hn
  · rcases mem_names_putDeep hn with hn | hhead
    · exact hfront hn
    · refine ⟨e, List.mem_append_right _ (List.mem_singleton.mpr rfl), fun c hc => ?_⟩
      rcases mem_of_splitName (List.mem_of_head? hhead) hc with hc | hc
      · cases hc
      · rw [hname, String.toList_append]
        exact List.mem_append_right _ hc

end Settings

namespace Setting

variable {k : Setting} {deepest : Nat} {vars : List (String × String)} {es : Entries}

/-- The rest of the name of a variable is the name of the setting, or goes on after it, or has
another part first. -/
theorem rest_cases (k : Setting) (rest : String) :
    rest = k.name ∨ (∃ more, rest = k.name ++ "__" ++ more) ∨
      ∃ n ps, splitName [] rest.toList = n :: ps ∧ n ≠ k.name := by
  cases hparts : splitName [] rest.toList with
  | nil => exact absurd hparts (splitName_ne_nil _ _)
  | cons n ps =>
      by_cases hn : n = k.name
      · subst hn
        cases ps with
        | nil => exact .inl (String.toList_inj.mp (eq_of_splitName hparts).symm)
        | cons q qs =>
            obtain ⟨more, hmore⟩ := splitName_eq_cons_cons hparts
            refine .inr (.inl ⟨String.ofList more, String.toList_inj.mp ?_⟩)
            simpa [String.toList_append] using hmore
      · exact .inr (.inr ⟨n, ps, rfl, hn⟩)

/-- How the text of the variable of a setting is read. -/
def decoded (k : Setting) (deepest : Nat) (text : String) : Except LoadFault Value :=
  decode deepest k.group (decodingOf k.group [k.name]) text

/-- Whether a variable is for something inside the value of a setting. -/
def isInside (k : Setting) (e : String × String) : Bool :=
  (after? (k.variableName ++ "__") e.1).isSome

/-- What the variable of a setting says.  Variables for something inside the value say that it is
a map. -/
def ownValue? (k : Setting) (deepest : Nat) (vars : List (String × String)) : Option Value :=
  match vars.lookup k.variableName with
  | some text => (k.decoded deepest text).toOption
  | none => if vars.any k.isInside then some (.map []) else none

theorem eq_variableName_iff {n : String} :
    n = k.variableName ↔ after? (variableStart ++ k.group ++ "__") n = some k.name :=
  after?_eq_some.symm

theorem isInside_iff {e : String × String} : k.isInside e = true ↔
    ∃ more, after? (variableStart ++ k.group ++ "__") e.1 = some (k.name ++ "__" ++ more) := by
  rw [isInside, Option.isSome_iff_exists]
  refine exists_congr fun more => ?_
  rw [after?_eq_some, after?_eq_some, variableName]
  simp only [String.append_assoc]

/-- What one variable does to the value under the name of a setting. -/
theorem single_get? {e : String × String} {es' : Entries}
    (h : single deepest k.group es e = .ok es') :
    (e.1 = k.variableName ∧ ∃ v, k.decoded deepest e.2 = .ok v ∧ get? es' k.name = some v) ∨
    e.1 ≠ k.variableName ∧
      (k.isInside e = true ∧ AlikeOr (get? es' k.name) (some ((get? es k.name).getD (.map []))) ∨
        k.isInside e = false ∧ get? es' k.name = get? es k.name) := by
  rw [Ne, eq_variableName_iff, ← Bool.not_eq_true, isInside_iff]
  obtain ⟨hnone, rfl⟩ | ⟨rest, v, hname, hv, rfl⟩ := single_cases h
  · simp [hnone]
  · rw [after?_eq_some.mpr hname]
    obtain rfl | ⟨more, rfl⟩ | ⟨n, ps, hparts, hn⟩ := rest_cases k rest
    · rw [splitName_name] at hv ⊢
      exact .inl ⟨rfl, v, hv, by rw [putDeep, get?_put, if_pos rfl]⟩
    · have hparts : splitName [] (k.name ++ "__" ++ more).toList =
          k.name :: splitName [] more.toList := by
        rw [String.toList_append, String.toList_append, List.append_assoc]
        exact splitName_name_append k more.toList
      have hmore := splitName_ne_nil [] more.toList
      refine .inr ⟨fun hsame => ?_, .inl ⟨⟨more, rfl⟩, ?_⟩⟩
      · rw [Option.some.inj hsame, splitName_name] at hparts
        exact hmore (List.cons.inj hparts).2.symm
      · rw [hparts]
        exact alike_get?_putDeep hmore
    · refine .inr ⟨fun hsame => ?_, .inr ⟨?_, ?_⟩⟩
      · rw [Option.some.inj hsame, splitName_name] at hparts
        exact hn (List.cons.inj hparts).1.symm
      · rintro ⟨more, hmore⟩
        rw [Option.some.inj hmore, String.toList_append, String.toList_append,
          List.append_assoc] at hparts
        have hhead := (splitName_name_append k more.toList).symm.trans hparts
        exact hn (List.cons.inj hhead).1.symm
      · rw [hparts]
        exact get?_putDeep_ne hn

theorem lookup_concat (front : List (String × String)) (e : String × String) (n : String) :
    (front ++ [e]).lookup n = (front.lookup n).or (if n = e.1 then some e.2 else none) := by
  obtain ⟨m, text⟩ := e
  rw [List.lookup_append]
  by_cases hn : n = m
  · rw [if_pos hn, hn, List.lookup_cons_self]
  · rw [if_neg hn, List.lookup_cons, beq_eq_false_iff_ne.mpr hn, List.lookup_nil]

/-- One more variable, not that of the setting, can only say that the value is a map. -/
theorem ownValue?_concat {e : String × String} (he : e.1 ≠ k.variableName)
    (hdecoded : ∀ text, vars.lookup k.variableName = some text →
      ∃ v, k.decoded deepest text = .ok v) :
    k.ownValue? deepest (vars ++ [e]) =
      if k.isInside e then some ((k.ownValue? deepest vars).getD (.map []))
      else k.ownValue? deepest vars := by
  rw [ownValue?, ownValue?, lookup_concat, if_neg he.symm, Option.or_none, List.any_append]
  cases hown : vars.lookup k.variableName with
  | none => cases vars.any k.isInside <;> cases hinside : k.isInside e <;> simp [hinside]
  | some text =>
      obtain ⟨v, hv⟩ := hdecoded text hown
      cases k.isInside e <;> simp [hv, Except.toOption]

/-- **The single variables give a setting what its own says.** -/
theorem alike_singles (hvars : (vars.map Prod.fst).Nodup)
    (h : singles deepest vars k.group = .ok es) :
    AlikeOr (get? es k.name) (k.ownValue? deepest vars) := by
  rw [singles_eq] at h
  -- the text of the variable, once it was met, could be decoded
  suffices hall : (vars.map Prod.fst).Nodup →
      (∀ text, vars.lookup k.variableName = some text → ∃ v, k.decoded deepest text = .ok v) ∧
        AlikeOr (get? es k.name) (k.ownValue? deepest vars) from (hall hvars).2
  refine foldlM_induct (motive := fun vars es => (vars.map Prod.fst).Nodup →
    (∀ text, vars.lookup k.variableName = some text → ∃ v, k.decoded deepest text = .ok v) ∧
      AlikeOr (Entries.get? es k.name) (k.ownValue? deepest vars)) ?_ ?_ h
  · intro _
    exact ⟨fun text htext => (by cases htext), .none⟩
  · intro front e es es' ih hstep hnodup
    rw [List.map_append, List.nodup_append] at hnodup
    obtain ⟨hfront, -, hnew⟩ := hnodup
    obtain ⟨hdecoded, hes⟩ := ih hfront
    obtain ⟨hown, v, hv, hget⟩ | ⟨hother, hinside⟩ := single_get? hstep
    · -- the variable was not met before
      have hnone : front.lookup k.variableName = none := by
        rw [List.lookup_eq_none_iff]
        intro e' he'
        have hne := hnew e'.1 (List.mem_map_of_mem he') e.1 (by simp)
        simpa [← hown] using hne.symm
      rw [ownValue?, lookup_concat, hnone, if_pos hown.symm, hget]
      refine ⟨fun text htext => ⟨v, ?_⟩, ?_⟩
      · rwa [← Option.some.inj htext]
      · simp only [Option.none_or, hv]
        exact .refl _
    · rw [lookup_concat, if_neg hother.symm, Option.or_none, ownValue?_concat hother hdecoded]
      refine ⟨hdecoded, ?_⟩
      obtain ⟨hin, hget⟩ | ⟨hout, hget⟩ := hinside
      · rw [if_pos hin]
        exact hget.trans (.some (hes.getD _))
      · rw [hout, hget]
        exact hes

end Setting

/-! ### The variable of a group -/

namespace Settings

variable {deepest : Nat} {group : String} {vars : List (String × String)}

/-- Whether the variable of a group, if there is one, holds a map. -/
def HoldsMap (deepest : Nat) (vars : List (String × String)) (group : String) : Prop :=
  ∀ text, vars.lookup (variableStart ++ group) = some text →
    ∃ es, Json.parse deepest text = .ok (.map es)

/-- The entries in the JSON of a group. -/
def whole (deepest : Nat) (vars : List (String × String)) (group : String) : Entries :=
  match vars.lookup (variableStart ++ group) with
  | none => []
  | some text => entriesIn (Json.parse deepest text).toOption

/-- The name under which an entry of a group counts. -/
def settled (group name : String) : String :=
  if (namesIn group).contains (Text.lower name) then Text.lower name else name

theorem renamed_eq (group : String) (es : Entries) :
    renamed group es = es.foldl (fun acc e => put acc (settled group e.1) e.2) [] := rfl

/-- The single variables are over the JSON of the group, and then all names are made small; without
that JSON the names are already small. -/
theorem ofVariables_cases {v? : Option Value} (hmap : HoldsMap deepest vars group)
    (h : ofVariables deepest vars group = .ok v?) : ∃ es, singles deepest vars group = .ok es ∧
      (whole deepest vars group = [] ∧ v? = (if es.isEmpty then none else some (.map es)) ∨
        v? = some (.map (renamed group (mergeOver (whole deepest vars group) es)))) := by
  rw [ofVariables] at h
  unfold whole
  cases htext : vars.lookup (variableStart ++ group) with
  | none =>
      simp only [htext] at h
      cases hes : singles deepest vars group with
      | error fault =>
          rw [hes] at h
          cases h
      | ok es =>
          rw [hes] at h
          cases h
          exact ⟨es, rfl, .inl ⟨rfl, rfl⟩⟩
  | some text =>
      obtain ⟨whole, hwhole⟩ := hmap text htext
      have hspelled : spelled deepest text = .ok (some (.map whole)) := spelled_eq_some.mpr hwhole
      simp only [htext, hspelled] at h
      cases hes : singles deepest vars group with
      | error fault =>
          rw [hes] at h
          cases h
      | ok es =>
          rw [hes] at h
          cases h
          exact ⟨es, rfl, .inr (by simp only [hwhole]; rfl)⟩

theorem isSection_ofVariables {v? : Option Value} (hmap : HoldsMap deepest vars group)
    (h : ofVariables deepest vars group = .ok v?) : IsSection v? := by
  obtain ⟨es, hes, ⟨-, rfl⟩ | rfl⟩ := ofVariables_cases hmap h
  · intro v hv
    split at hv
    · cases hv
    · cases hv
      exact ⟨es, rfl, distinct_singles hes⟩
  · rintro v ⟨⟩
    exact ⟨_, rfl, distinct_nil.foldl_put (settled group) _⟩

end Settings

namespace Setting

variable {k : Setting} {deepest : Nat} {vars : List (String × String)} {es : Entries}

theorem settled_eq_name {n : String} : settled k.group n = k.name ↔ Text.lower n = k.name := by
  rw [settled]
  constructor
  · intro h
    split at h
    · exact h
    · rw [h, lower_name]
  · intro h
    rw [h, if_pos (by simpa using k.name_mem)]

/-- The entries whose names spell the name of a setting. -/
def spellings (k : Setting) (es : Entries) : Entries :=
  es.filter fun e => Text.lower e.1 == k.name

/-- When all names are made small, the last spelling counts. -/
theorem get?_renamed (k : Setting) (es : Entries) :
    get? (renamed k.group es) k.name = (k.spellings es).getLast?.map Prod.snd := by
  have htest : (fun e : String × Value => settled k.group e.1 == k.name) =
      fun e => Text.lower e.1 == k.name := by
    funext e
    rw [Bool.eq_iff_iff, beq_iff_eq, beq_iff_eq, settled_eq_name]
  rw [renamed_eq, get?_foldl_put, htest]
  exact Option.or_none

/-- A name that single variables give spells the name of a setting only if it is that. -/
theorem eq_name_of_mem_singles {n : String} (hvars : AreLowered vars)
    (h : singles deepest vars k.group = .ok es) (hn : n ∈ es.names)
    (hlower : Text.lower n = k.name) : n = k.name := by
  obtain ⟨e, he, hchars⟩ := exists_of_mem_singles h hn
  obtain ⟨s, hs⟩ := hvars.small e he
  have hsmall : Text.lowerFrom [] n.toList = k.name.toList := by
    rw [← hlower, Text.lower, String.toList_ofList]
  exact String.toList_inj.mp (Text.eq_of_lowerFrom (hs ▸ hchars) k.plain_name hsmall)

/-- What the variables say of a setting: what its own one says, else what the JSON of its group has
under its name.  Of several spellings there the last counts, and the own variable takes the place
of the exact one. -/
def inVariables? (k : Setting) (deepest : Nat) (vars : List (String × String)) : Option Value :=
  let spelled := k.spellings (whole deepest vars k.group)
  if spelled.dropLast.any fun e => e.1 == k.name then spelled.getLast?.map Prod.snd
  else (k.ownValue? deepest vars).or (spelled.getLast?.map Prod.snd)

/-- The last spelling, after the single variables were put over the JSON of a group. -/
theorem alike_spellings (hvars : AreLowered vars) (h : singles deepest vars k.group = .ok es) :
    AlikeOr ((k.spellings (mergeOver (whole deepest vars k.group) es)).getLast?.map Prod.snd)
      (k.inVariables? deepest vars) := by
  have hown := alike_singles (k := k) hvars.nodup h
  have hover := filter_mergeOver (whole deepest vars k.group) (fun n => Text.lower n == k.name)
    (distinct_singles h) (fun n hn hp => eq_name_of_mem_singles hvars h hn (by simpa using hp))
    (by simpa using k.lower_name)
  rw [spellings, hover]
  unfold inVariables? spellings
  generalize k.ownValue? deepest vars = own at hown
  generalize (whole deepest vars k.group).filter (fun e => Text.lower e.1 == k.name) = spelled
  cases hv : get? es k.name with
  | none =>
      rw [hv] at hown
      cases hown
      simp only [Option.none_or, ite_self]
      exact .refl _
  | some v =>
      rw [hv] at hown
      cases hown with
      | some hvw =>
          dsimp only
          rw [getLast?_put]
          -- an exact spelling before the last one is replaced, and so does not count
          by_cases hexact : spelled.dropLast.any (fun e => e.1 == k.name) = true
          · rw [if_pos hexact, if_pos hexact]
            exact .refl _
          · rw [if_neg hexact, if_neg hexact]
            exact .some ((alike_overValue _ v).trans hvw)

/-- **What all variables together say of a setting.** -/
theorem alike_ofVariables {v? : Option Value} (hvars : AreLowered vars)
    (hmap : HoldsMap deepest vars k.group) (h : ofVariables deepest vars k.group = .ok v?) :
    AlikeOr (get? (entriesIn v?) k.name) (k.inVariables? deepest vars) := by
  obtain ⟨es, hes, ⟨hnil, rfl⟩ | rfl⟩ := ofVariables_cases hmap h
  · have hinner : entriesIn (if es.isEmpty then none else some (.map es)) = es := by
      cases es <;> rfl
    rw [hinner, inVariables?, hnil]
    simpa [spellings] using alike_singles hvars.nodup hes
  · show AlikeOr (get? (renamed k.group _) k.name) _
    rw [get?_renamed]
    exact alike_spellings hvars hes

end Setting

end ScopeMetrics
