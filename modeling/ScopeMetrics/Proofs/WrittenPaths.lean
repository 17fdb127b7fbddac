import Mathlib.Data.List.Basic
import ScopeMetrics.Path
import ScopeMetrics.Proofs.SourceLines

/-!
# Written paths

A path that was read, or seen from a home directory, is in normal form: its anchor is nothing, one
slash or two, and no part is empty, is the directory itself or holds a slash (`Path.IsNormal`).

* `Text.splitBy_intercalate`: parts without separators are found again between separators.
* **`Path.ofString_text`**: an absolute path in normal form is read again from what is written.
-/

namespace ScopeMetrics

/-! ### Splitting -/

namespace Text

variable {α : Type} [BEq α] [LawfulBEq α] {sep : α}

theorem splitFrom_of_not_mem : ∀ {xs : List α} (part : List α), sep ∉ xs →
    splitFrom (· == sep) part xs = [part.reverse ++ xs]
  | [], part, _ => by rw [splitFrom, List.append_nil]
  | x :: xs, part, h => by
      have hx : ¬ (x == sep) = true := fun he => h (eq_of_beq he ▸ List.mem_cons_self)
      rw [splitFrom, if_neg hx, splitFrom_of_not_mem _ fun hs => h (List.mem_cons_of_mem x hs),
        List.reverse_cons, List.append_assoc, List.singleton_append]

theorem splitFrom_append (rest : List α) : ∀ {xs : List α} (part : List α), sep ∉ xs →
    splitFrom (· == sep) part (xs ++ sep :: rest) =
      (part.reverse ++ xs) :: splitBy (· == sep) rest
  | [], part, _ => by
      rw [List.nil_append, splitFrom, if_pos (beq_self_eq_true sep), List.append_nil]
      rfl
  | x :: xs, part, h => by
      have hx : ¬ (x == sep) = true := fun he => h (eq_of_beq he ▸ List.mem_cons_self)
      rw [List.cons_append, splitFrom, if_neg hx,
        splitFrom_append rest _ fun hs => h (List.mem_cons_of_mem x hs), List.reverse_cons,
        List.append_assoc, List.singleton_append]

/-- Parts without separators are found again between separators. -/
theorem splitBy_intercalate : ∀ {part : List α} {parts : List (List α)},
    (∀ q ∈ part :: parts, sep ∉ q) →
      splitBy (· == sep) ([sep].intercalate (part :: parts)) = part :: parts
  | part, [], h => by
      rw [List.intercalate_singleton]
      exact splitFrom_of_not_mem [] (h part List.mem_cons_self)
  | part, next :: parts, h => by
      have hrest := splitBy_intercalate fun q hq => h q (List.mem_cons_of_mem part hq)
      rw [List.intercalate_cons_cons, List.append_assoc, List.singleton_append, splitBy,
        splitFrom_append _ [] (h part List.mem_cons_self), hrest]
      rfl

end Text

/-! ### Paths -/

namespace Path

/-- Whether a path is as reading one gives it. -/
structure IsNormal (p : Path) : Prop where
  anchor : p.anchor = "" ∨ p.anchor = "/" ∨ p.anchor = "//"
  parts : ∀ part ∈ p.parts, part ≠ "" ∧ part ≠ "." ∧ '/' ∉ part.toList

theorem isNormal_ofString (s : String) : (ofString s).IsNormal where
  anchor := by
    show anchorOf s.toList = "" ∨ anchorOf s.toList = "/" ∨ anchorOf s.toList = "//"
    unfold anchorOf
    split
    · exact .inl rfl
    · exact .inr (.inr rfl)
    · exact .inr (.inl rfl)
  parts part hpart := by
    obtain ⟨hmem, hkept⟩ := List.mem_filter.mp hpart
    obtain ⟨cs, hcs, rfl⟩ := List.mem_map.mp hmem
    rw [Bool.and_eq_true, bne_iff_ne, bne_iff_ne] at hkept
    refine ⟨hkept.1, hkept.2, fun hslash => ?_⟩
    rw [String.toList_ofList] at hslash
    exact Text.not_mem_of_mem_splitFrom s.toList List.not_mem_nil hcs hslash

theorem IsNormal.join {p q : Path} (hp : p.IsNormal) (hq : q.IsNormal) : (p.join q).IsNormal := by
  unfold Path.join
  split
  · exact hq
  · exact ⟨hp.anchor, fun part h => (List.mem_append.mp h).elim (hp.parts part) (hq.parts part)⟩

/-- Expanding a home keeps the normal form. -/
theorem IsNormal.expandHome? {homes : Homes} {p q : Path} (hp : p.IsNormal)
    (h : p.expandHome? homes = some q) : q.IsNormal := by
  unfold Path.expandHome? at h
  split at h
  · rename_i first rest hanchor hparts
    split at h
    · rename_i user huser
      obtain ⟨home, -, h⟩ := Option.bind_eq_some_iff.mp h
      have hrest : (⟨"", rest⟩ : Path).IsNormal :=
        ⟨.inl rfl, fun part hpart => hp.parts part (hparts ▸ List.mem_cons_of_mem first hpart)⟩
      simp only at h
      split at h
      · cases h
      · obtain rfl := Option.some.inj h
        refine IsNormal.join ?_ hrest
        split
        · exact ⟨.inr (.inl rfl), fun _ hpart => absurd hpart List.not_mem_nil⟩
        · exact isNormal_ofString _
    · exact Option.some.inj h ▸ hp
  · exact Option.some.inj h ▸ hp

/-- **An absolute path is read again from what is written.** -/
theorem ofString_text {p : Path} (hp : p.IsNormal) (habs : p.isAbsolute = true) :
    ofString p.text = p := by
  obtain ⟨anchor, parts⟩ := p
  have hanchor : anchor = "/" ∨ anchor = "//" :=
    hp.anchor.resolve_left (bne_iff_ne.mp habs)
  have hslash : ∀ q ∈ parts.map String.toList, '/' ∉ q := by
    intro q hq
    obtain ⟨part, hpart, rfl⟩ := List.mem_map.mp hq
    exact (hp.parts part hpart).2.2
  have htext : (text ⟨anchor, parts⟩).toList =
      anchor.toList ++ ['/'].intercalate (parts.map String.toList) := by
    have hne : (anchor == "") = false := beq_eq_false_iff_ne.mpr (bne_iff_ne.mp habs)
    rw [text, hne, Bool.false_and, if_neg Bool.false_ne_true, String.toList_append,
      String.toList_intercalate]
    rfl
  have hbody : (['/'].intercalate (parts.map String.toList)).takeWhile (· == '/') = [] := by
    cases parts with
    | nil => rfl
    | cons part parts =>
        obtain ⟨hne, -, hno⟩ := hp.parts part List.mem_cons_self
        obtain ⟨c, cs, hc⟩ := List.exists_cons_of_ne_nil (String.toList_eq_nil_iff.not.mpr hne)
        have hfirst : ¬ (c == '/') = true := fun he =>
          hno (by rw [hc, eq_of_beq he]; exact List.mem_cons_self)
        rw [List.map_cons, hc]
        cases parts with
        | nil =>
            rw [List.map_nil, List.intercalate_singleton,
              List.takeWhile_cons_of_neg (p := (· == '/')) hfirst]
        | cons next parts =>
            rw [List.map_cons, List.intercalate_cons_cons, List.cons_append, List.cons_append,
              List.takeWhile_cons_of_neg (p := (· == '/')) hfirst]
  have hkept : ((Text.splitBy (· == '/') (['/'].intercalate (parts.map String.toList))).map
      String.ofList).filter (fun q => q != "" && q != ".") = parts := by
    cases parts with
    | nil => rfl
    | cons part parts =>
        have hid : String.ofList ∘ String.toList = id := funext fun _ => String.ofList_toList
        rw [List.map_cons, Text.splitBy_intercalate hslash, ← List.map_cons, List.map_map, hid,
          List.map_id, List.filter_eq_self]
        intro q hq
        rw [Bool.and_eq_true, bne_iff_ne, bne_iff_ne]
        exact ⟨(hp.parts q hq).1, (hp.parts q hq).2.1⟩
  have hfront : anchorOf (anchor.toList ++ ['/'].intercalate (parts.map String.toList)) =
      anchor := by
    have hall : ∀ c ∈ anchor.toList, (c == '/') = true := by
      have hchars : anchor.toList = ['/'] ∨ anchor.toList = ['/', '/'] := by
        rcases hanchor with rfl | rfl
        · exact .inl rfl
        · exact .inr rfl
      rcases hchars with h | h <;> simp [h]
    rw [anchorOf, List.takeWhile_append_of_pos hall, hbody, List.append_nil]
    rcases hanchor with rfl | rfl <;> rfl
  -- each slash of the anchor puts an empty part before the others, which is left out
  have hempty : ∀ cs : List Char, ((Text.splitBy (· == '/') ('/' :: cs)).map
      String.ofList).filter (fun q => q != "" && q != ".") =
        ((Text.splitBy (· == '/') cs).map String.ofList).filter (fun q => q != "" && q != ".") := by
    intro cs
    rw [Text.splitBy, Text.splitFrom, if_pos (beq_self_eq_true '/')]
    rfl
  rw [ofString, htext, hfront]
  rcases hanchor with rfl | rfl
  · exact congrArg (Path.mk "/") ((hempty _).trans hkept)
  · exact congrArg (Path.mk "//") ((hempty _).trans ((hempty _).trans hkept))

end Path

end ScopeMetrics
