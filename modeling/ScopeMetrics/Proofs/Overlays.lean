import Mathlib.Data.List.Nodup
import ScopeMetrics.Settings.Load

/-!
# Entries over entries

Entries are put over others name by name; where both have a map, the maps are merged in the same
way.  A name has the value that the upper entries give it, and if they give none, that of the lower
ones.  This is exact up to what maps hold (`Value.Alike`), and no setting is a map.

* `Entries.get?_mergeOver`: what is under a name after one merge.
* `Entries.alike_get?_mergeOver`: the upper entries win, name by name.
* **`Entries.alike_entriesIn_mergeOver`**: the same in a section that is under a name in both.
-/

namespace ScopeMetrics

/-! ### Up to what maps hold -/

namespace Value

def IsMap (v : Value) : Prop := ∃ es, v = .map es

/-- Whether two values are the same, or two maps. -/
def Alike (v w : Value) : Prop := v = w ∨ v.IsMap ∧ w.IsMap

theorem Alike.refl (v : Value) : Alike v v := .inl rfl

theorem Alike.symm {v w : Value} (h : Alike v w) : Alike w v :=
  h.imp Eq.symm And.symm

theorem Alike.trans {u v w : Value} (h : Alike u v) (h' : Alike v w) : Alike u w := by
  rcases h with rfl | ⟨hu, hv⟩
  · exact h'
  · rcases h' with rfl | ⟨-, hw⟩
    · exact .inr ⟨hu, hv⟩
    · exact .inr ⟨hu, hw⟩

/-- Whether there are values that are alike, or none on both sides. -/
abbrev AlikeOr (x y : Option Value) : Prop := Option.Rel Alike x y

theorem AlikeOr.refl : ∀ x : Option Value, AlikeOr x x
  | none => .none
  | some v => .some (.refl v)

theorem AlikeOr.symm {x y : Option Value} (h : AlikeOr x y) : AlikeOr y x := by
  cases h with
  | none => exact .none
  | some h => exact .some h.symm

theorem AlikeOr.trans {x y z : Option Value} (h : AlikeOr x y) (h' : AlikeOr y z) :
    AlikeOr x z := by
  cases h with
  | none => exact h'
  | some h =>
      cases h' with
      | some h' => exact .some (h.trans h')

theorem AlikeOr.or {x x' y y' : Option Value} (h : AlikeOr x x') (h' : AlikeOr y y') :
    AlikeOr (x.or y) (x'.or y') := by
  cases h with
  | none => exact h'
  | some h => exact .some h

theorem AlikeOr.getD {x y : Option Value} (h : AlikeOr x y) (v : Value) :
    Alike (x.getD v) (y.getD v) := by
  cases h with
  | none => exact .refl v
  | some h => exact h

end Value

open Value (Alike AlikeOr)

namespace Entries

variable {es old new : Entries} {name n : String} {v : Value}

/-- The names in the order of their entries. -/
def names (es : Entries) : List String := es.map Prod.fst

/-- Whether no name has two entries. -/
def Distinct (es : Entries) : Prop := es.names.Nodup

theorem distinct_nil : Distinct [] := List.nodup_nil

theorem get?_cons : get? ((n, v) :: es) name = if name = n then some v else get? es name := by
  by_cases h : name = n
  · simp [get?, h]
  · have hne : (name == n) = false := by simpa using h
    simp [get?, List.lookup_cons, h, hne]

theorem get?_eq_none : get? es name = none ↔ name ∉ es.names := by
  induction es with
  | nil => simp [get?, names]
  | cons e es ih =>
      obtain ⟨n, v⟩ := e
      rw [get?_cons]
      by_cases h : name = n
      · simp [h, names]
      · simpa [h, names] using ih

/-! ### One entry -/

theorem get?_put : get? (put es n v) name = if name = n then some v else get? es name := by
  induction es with
  | nil => rw [put, get?_cons]
  | cons e es ih =>
      obtain ⟨m, w⟩ := e
      rw [put]
      by_cases hm : m = n
      · rw [if_pos hm, hm, get?_cons, get?_cons]
        by_cases h : name = n <;> simp [h]
      · rw [if_neg hm, get?_cons, get?_cons, ih]
        by_cases h : name = n
        · simp [h, Ne.symm hm]
        · simp [h]

theorem mem_names_put : name ∈ (put es n v).names ↔ name = n ∨ name ∈ es.names := by
  rw [← not_iff_not, not_or, ← get?_eq_none, ← get?_eq_none, get?_put]
  by_cases h : name = n <;> simp [h]

theorem Distinct.put (h : Distinct es) (n : String) (v : Value) : Distinct (put es n v) := by
  induction es with
  | nil => exact List.nodup_singleton n
  | cons e es ih =>
      obtain ⟨m, w⟩ := e
      obtain ⟨hm, hes⟩ := List.nodup_cons.mp h
      rw [Entries.put]
      by_cases hmn : m = n
      · rw [if_pos hmn]
        exact h
      · rw [if_neg hmn]
        refine List.nodup_cons.mpr ⟨fun hmem => ?_, ih hes⟩
        rcases mem_names_put.mp hmem with he | hmem
        · exact hmn he
        · exact hm hmem

theorem filter_put (p : String → Bool) : (put es n v).filter (fun e => p e.1) =
    if p n then put (es.filter fun e => p e.1) n v else es.filter fun e => p e.1 := by
  induction es with
  | nil => cases hn : p n <;> simp [put, hn]
  | cons e es ih =>
      obtain ⟨m, w⟩ := e
      rw [put]
      by_cases hm : m = n
      · subst hm
        cases hn : p m <;> simp [put, hn]
      · cases hpm : p m <;> cases hn : p n <;> simp [hpm, hn, hm, ih, put]

/-- A value takes the place of the one that its name had, and otherwise comes last. -/
theorem getLast?_put : ∀ es : Entries, (put es n v).getLast?.map Prod.snd =
    if es.dropLast.any (fun e => e.1 == n) then es.getLast?.map Prod.snd else some v
  | [] => rfl
  | [(m, w)] => by
      by_cases hm : m = n <;> simp [put, hm]
  | (m, w) :: e :: es => by
      by_cases hm : m = n
      · simp [put, hm, List.getLast?_cons_cons]
      · have ih := getLast?_put (e :: es)
        obtain ⟨e', es', hput⟩ : ∃ e' es', put (e :: es) n v = e' :: es' := by
          obtain ⟨m', w'⟩ := e
          rw [put]
          split <;> exact ⟨_, _, rfl⟩
        rw [put, if_neg hm, hput, List.getLast?_cons_cons, ← hput, ih, List.getLast?_cons_cons,
          List.dropLast_cons_cons, List.any_cons, beq_eq_false_iff_ne.mpr hm, Bool.false_or]

/-- The values of entries put one after the other under names `f`: for each name the last. -/
theorem get?_foldl_put (f : String → String) : ∀ (es acc : Entries),
    get? (es.foldl (fun acc e => put acc (f e.1) e.2) acc) name =
      ((es.filter fun e => f e.1 == name).getLast?.map Prod.snd).or (get? acc name)
  | [], acc => rfl
  | (n, v) :: es, acc => by
      rw [List.foldl_cons, get?_foldl_put f es, get?_put]
      by_cases hn : f n = name
      · rw [List.filter_cons_of_pos (by simpa using hn), List.getLast?_cons, if_pos hn.symm]
        cases (es.filter fun e => f e.1 == name).getLast? <;> rfl
      · rw [List.filter_cons_of_neg (by simpa using hn), if_neg (Ne.symm hn)]

theorem Distinct.foldl_put (f : String → String) (es : Entries) {acc : Entries}
    (h : Distinct acc) : Distinct (es.foldl (fun acc e => Entries.put acc (f e.1) e.2) acc) := by
  induction es generalizing acc with
  | nil => exact h
  | cons e es ih => exact ih (h.put _ _)

/-! ### Many entries -/

theorem isMap_overValue (u : Value) (es : Entries) : (overValue u (.map es)).IsMap := by
  cases u with
  | map olds => exact ⟨mergeOver olds es, by rw [overValue]⟩
  | _ => exact ⟨es, by simp [overValue]⟩

/-- What is put over a value is itself, up to what a map holds. -/
theorem alike_overValue (u v : Value) : Alike (overValue u v) v := by
  cases v with
  | map es => exact .inr ⟨isMap_overValue u es, es, rfl⟩
  | _ => exact .inl (by rw [overValue]; simp)

/-- **After a merge a name has the upper value, put over the lower one.** -/
theorem get?_mergeOver (h : Distinct new) : get? (mergeOver old new) name =
    match get? new name with
    | none => get? old name
    | some v => some (overValue ((get? old name).getD .null) v) := by
  induction new generalizing old with
  | nil =>
      rw [mergeOver]
      rfl
  | cons e new ih =>
      obtain ⟨n, v⟩ := e
      obtain ⟨hn, hnew⟩ := List.nodup_cons.mp h
      rw [mergeOver, ih hnew, get?_cons, get?_put]
      by_cases he : name = n
      · -- the name does not come again
        subst he
        simp [get?_eq_none.mpr hn]
      · simp [he]

theorem alike_get?_mergeOver (h : Distinct new) :
    AlikeOr (get? (mergeOver old new) name) ((get? new name).or (get? old name)) := by
  rw [get?_mergeOver h]
  cases get? new name with
  | none => exact .refl _
  | some v => exact .some (alike_overValue _ v)

theorem mem_names_mergeOver :
    name ∈ (mergeOver old new).names ↔ name ∈ old.names ∨ name ∈ new.names := by
  induction new generalizing old with
  | nil => simp [mergeOver, names]
  | cons e new ih =>
      obtain ⟨n, v⟩ := e
      rw [mergeOver, ih, mem_names_put]
      simp only [names, List.map_cons, List.mem_cons]
      tauto

theorem Distinct.mergeOver (h : Distinct old) (new : Entries) : Distinct (mergeOver old new) := by
  induction new generalizing old with
  | nil => rwa [Entries.mergeOver]
  | cons e new ih =>
      rw [Entries.mergeOver]
      exact ih (h.put _ _)

/-- Of the names with some property a merge changes the only one that the upper entries have. -/
theorem filter_mergeOver (old : Entries) (p : String → Bool) (h : Distinct new)
    (honly : ∀ n ∈ new.names, p n → n = name) (hname : p name) :
    (mergeOver old new).filter (fun e => p e.1) =
      match get? new name with
      | none => old.filter fun e => p e.1
      | some v => put (old.filter fun e => p e.1) name
          (overValue ((get? old name).getD .null) v) := by
  induction new generalizing old with
  | nil =>
      rw [mergeOver]
      rfl
  | cons e new ih =>
      obtain ⟨n, v⟩ := e
      obtain ⟨hn, hnew⟩ := List.nodup_cons.mp h
      have honly' : ∀ n ∈ names new, p n → n = name := fun m hm =>
        honly m (List.mem_cons_of_mem n hm)
      rw [mergeOver, ih _ hnew honly', get?_cons, filter_put, get?_put]
      by_cases he : name = n
      · subst he
        simp [get?_eq_none.mpr hn, hname]
      · have hpn : p n = false := by
          by_contra hpn
          exact he (honly n List.mem_cons_self (by simpa using hpn)).symm
        simp [he, hpn]

/-! ### Sections -/

/-- The entries of what is under a name, none if that is no map or nothing. -/
def entriesIn : Option Value → Entries
  | some (.map es) => es
  | _ => []

/-- Whether there is nothing under a name or a map, no name twice in it. -/
def IsSection (v? : Option Value) : Prop := ∀ v, v? = some v → ∃ es, v = .map es ∧ Distinct es

theorem IsSection.distinct_entriesIn {v? : Option Value} (h : IsSection v?) :
    Distinct (entriesIn v?) := by
  cases v? with
  | none => exact distinct_nil
  | some v =>
      obtain ⟨es, rfl, hes⟩ := h v rfl
      exact hes

/-- What is put over a map are entries over its entries. -/
theorem overValue_map (old : Option Value) (es : Entries) :
    overValue (old.getD .null) (.map es) = .map es ∧ entriesIn old = [] ∨
      overValue (old.getD .null) (.map es) = .map (mergeOver (entriesIn old) es) := by
  cases old with
  | none => exact .inl ⟨by simp [overValue], rfl⟩
  | some v =>
      cases v with
      | map olds => exact .inr (by simp [overValue, entriesIn])
      | _ => exact .inl ⟨by simp [overValue], rfl⟩

theorem IsSection.mergeOver (hnew : Distinct new) (hold : IsSection (get? old name))
    (h : IsSection (get? new name)) : IsSection (get? (mergeOver old new) name) := by
  rw [get?_mergeOver hnew]
  cases hv : get? new name with
  | none => exact hold
  | some v =>
      obtain ⟨es, rfl, hes⟩ := h v hv
      rintro w ⟨⟩
      rcases overValue_map (get? old name) es with ⟨hover, -⟩ | hover
      · exact ⟨es, hover, hes⟩
      · exact ⟨_, hover, hold.distinct_entriesIn.mergeOver es⟩

/-- **Of two sections under one name, one over the other, the upper one wins name by name.** -/
theorem alike_entriesIn_mergeOver (hnew : Distinct new) (h : IsSection (get? new name)) :
    AlikeOr (get? (entriesIn (get? (mergeOver old new) name)) n)
      ((get? (entriesIn (get? new name)) n).or (get? (entriesIn (get? old name)) n)) := by
  rw [get?_mergeOver hnew]
  cases hv : get? new name with
  | none => exact .refl _
  | some v =>
      obtain ⟨es, rfl, hes⟩ := h v hv
      dsimp only
      rcases overValue_map (get? old name) es with ⟨hover, hnil⟩ | hover
      · have hnone : get? [] n = none := rfl
        rw [hover, hnil, hnone, Option.or_none]
        exact .refl _
      · rw [hover]
        exact alike_get?_mergeOver hes

end Entries

end ScopeMetrics
