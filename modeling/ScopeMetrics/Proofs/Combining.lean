import ScopeMetrics.Bundle
import ScopeMetrics.Proofs.Counting

/-!
# Combining metrics

Every family of metrics combines commutatively and associatively.  A bundle combines associatively
(`Bundle.combine_assoc`), but it keeps the index of its left part, so it commutes only once the
index is derived again (`Bundle.derive_combine_comm`).  Deriving early changes nothing
(`Bundle.derive_combine_left`, `Bundle.derive_combine_right`): what a derived bundle is depends on
the parts through their derived forms alone.
-/

namespace ScopeMetrics

/-! ### Families -/

theorem Cyclomatic.combine_comm (a b : Cyclomatic) : a.combine b = b.combine a := by
  simp only [combine, Cyclomatic.mk.injEq]
  omega

theorem Cyclomatic.combine_assoc (a b c : Cyclomatic) :
    (a.combine b).combine c = a.combine (b.combine c) := by
  simp only [combine, Cyclomatic.mk.injEq]
  omega

theorem Cognitive.combine_comm (a b : Cognitive) : a.combine b = b.combine a := by
  simp only [combine, Cognitive.mk.injEq]
  omega

theorem Cognitive.combine_assoc (a b c : Cognitive) :
    (a.combine b).combine c = a.combine (b.combine c) := by
  simp only [combine, Cognitive.mk.injEq]
  omega

theorem Halstead.combine_comm (a b : Halstead) : a.combine b = b.combine a := by
  rw [combine, combine, Bag.merge_comm a.operators, Bag.merge_comm a.operands]

theorem Halstead.combine_assoc (a b c : Halstead) :
    (a.combine b).combine c = a.combine (b.combine c) := by
  simp only [combine, Bag.merge_assoc]

theorem Abc.combine_comm (a b : Abc) : a.combine b = b.combine a := by
  simp only [combine, Abc.mk.injEq]
  omega

theorem Abc.combine_assoc (a b c : Abc) : (a.combine b).combine c = a.combine (b.combine c) := by
  simp only [combine, Abc.mk.injEq]
  omega

theorem Loc.combine_comm (a b : Loc) : a.combine b = b.combine a := by
  simp only [combine, Loc.mk.injEq]
  omega

theorem Loc.combine_assoc (a b c : Loc) : (a.combine b).combine c = a.combine (b.combine c) := by
  simp only [combine, Loc.mk.injEq]
  omega

theorem Methods.combine_comm (a b : Methods) : a.combine b = b.combine a := by
  simp only [combine, Methods.mk.injEq]
  omega

theorem Methods.combine_assoc (a b c : Methods) :
    (a.combine b).combine c = a.combine (b.combine c) := by
  simp only [combine, Methods.mk.injEq]
  omega

theorem Arguments.combine_comm (a b : Arguments) : a.combine b = b.combine a := by
  simp only [combine, Arguments.mk.injEq]
  omega

theorem Arguments.combine_assoc (a b c : Arguments) :
    (a.combine b).combine c = a.combine (b.combine c) := by
  simp only [combine, Arguments.mk.injEq]
  omega

theorem Exits.combine_comm (a b : Exits) : a.combine b = b.combine a := by
  simp only [combine, Exits.mk.injEq]
  omega

theorem Exits.combine_assoc (a b c : Exits) :
    (a.combine b).combine c = a.combine (b.combine c) := by
  simp only [combine, Exits.mk.injEq]
  omega

theorem Members.combine_comm (a b : Members) : a.combine b = b.combine a := by
  simp only [combine, Members.mk.injEq]
  omega

theorem Members.combine_assoc (a b c : Members) :
    (a.combine b).combine c = a.combine (b.combine c) := by
  simp only [combine, Members.mk.injEq]
  omega

theorem Weighted.combine_comm (a b : Weighted) : a.combine b = b.combine a := by
  simp only [combine, Weighted.mk.injEq]
  omega

theorem Weighted.combine_assoc (a b c : Weighted) :
    (a.combine b).combine c = a.combine (b.combine c) := by
  simp only [combine, Weighted.mk.injEq]
  omega

/-! ### Bundles -/

namespace Bundle

theorem combine_assoc (a b c : Bundle) : (a.combine b).combine c = a.combine (b.combine c) := by
  simp only [combine, Cyclomatic.combine_assoc, Cognitive.combine_assoc, Halstead.combine_assoc,
    Abc.combine_assoc, Loc.combine_assoc, Methods.combine_assoc, Arguments.combine_assoc,
    Exits.combine_assoc, Members.combine_assoc, Weighted.combine_assoc]

/-- Two bundles combine to the same either way, up to the index that the left one leaves. -/
theorem combine_comm (a b : Bundle) :
    a.combine b = { b.combine a with maintainability := a.maintainability } := by
  rw [combine, combine, Cyclomatic.combine_comm a.cyclomatic, Cognitive.combine_comm a.cognitive,
    Halstead.combine_comm a.halstead, Abc.combine_comm a.abc, Loc.combine_comm a.loc,
    Methods.combine_comm a.methods, Arguments.combine_comm a.arguments,
    Exits.combine_comm a.exits, Members.combine_comm a.publicMethods,
    Members.combine_comm a.publicAttributes, Weighted.combine_comm a.weighted]

theorem derive_derive (b : Bundle) : b.derive.derive = b.derive := rfl

theorem derive_combine_comm (a b : Bundle) : (a.combine b).derive = (b.combine a).derive := by
  rw [combine_comm]
  rfl

theorem derive_combine_left (a b : Bundle) : (a.derive.combine b).derive = (a.combine b).derive :=
  rfl

theorem derive_combine_right (a b : Bundle) : (a.combine b.derive).derive = (a.combine b).derive :=
  rfl

/-- A combined bundle depends on its parts through their derived forms. -/
theorem derive_combine_congr {a a' b b' : Bundle} (ha : a.derive = a'.derive)
    (hb : b.derive = b'.derive) : (a.combine b).derive = (a'.combine b').derive := by
  rw [← derive_combine_left, ← derive_combine_right, ha, hb, derive_combine_left,
    derive_combine_right]

/-! ### Many bundles -/

/-- The bundle of a first part and further parts, combined from left to right. -/
def joined (b : Bundle) (bs : List Bundle) : Bundle := bs.foldl combine b

theorem joined_append (b : Bundle) (bs cs : List Bundle) :
    b.joined (bs ++ cs) = (b.joined bs).joined cs :=
  List.foldl_append

/-- Parts joined to a combined bundle may be joined to its right half instead. -/
theorem combine_joined (a b : Bundle) : ∀ bs : List Bundle,
    a.combine (b.joined bs) = (a.combine b).joined bs := by
  intro bs
  induction bs generalizing b with
  | nil => rfl
  | cons c bs ih =>
      show a.combine ((b.combine c).joined bs) = ((a.combine b).combine c).joined bs
      rw [ih, combine_assoc]

theorem derive_joined_congr {a b : Bundle} (h : a.derive = b.derive) (bs : List Bundle) :
    (a.joined bs).derive = (b.joined bs).derive := by
  induction bs generalizing a b with
  | nil => exact h
  | cons c bs ih => exact ih (derive_combine_congr h rfl)

/-- A part that derives to what a group does may be replaced by the group. -/
theorem derive_joined_groups {α : Type} {part first : α → Bundle} {rest : α → List Bundle}
    {xs : List α} (h : ∀ x ∈ xs, (part x).derive = ((first x).joined (rest x)).derive)
    (b : Bundle) :
    (b.joined (xs.map part)).derive =
      (b.joined (xs.flatMap fun x => first x :: rest x)).derive := by
  induction xs generalizing b with
  | nil => rfl
  | cons x xs ih =>
      have hx : (b.combine (part x)).derive = (b.joined (first x :: rest x)).derive := by
        rw [derive_combine_congr rfl (h x List.mem_cons_self), combine_joined]
        rfl
      rw [List.flatMap_cons, joined_append, ← ih fun y hy => h y (List.mem_cons_of_mem x hy)]
      exact derive_joined_congr hx _

/-- What parts derive to does not depend on their order. -/
theorem derive_joined_perm {bs cs : List Bundle} (h : bs.Perm cs) (a : Bundle) :
    (a.joined bs).derive = (a.joined cs).derive := by
  induction h generalizing a with
  | nil => rfl
  | cons b _ ih => exact ih (a.combine b)
  | swap b c bs =>
      refine derive_joined_congr ?_ bs
      show ((a.combine c).combine b).derive = ((a.combine b).combine c).derive
      rw [combine_assoc, combine_assoc]
      exact derive_combine_congr rfl (derive_combine_comm c b)
  | trans _ _ ih₁ ih₂ => exact (ih₁ a).trans (ih₂ a)

/-- The first part may be any of them. -/
theorem derive_joined_cons_perm {b c : Bundle} {bs cs : List Bundle}
    (h : (b :: bs).Perm (c :: cs)) : (b.joined bs).derive = (c.joined cs).derive := by
  rcases List.mem_cons.mp (h.symm.subset List.mem_cons_self) with rfl | hc
  · exact derive_joined_perm h.cons_inv c
  · obtain ⟨front, back, rfl⟩ := List.append_of_mem hc
    have hrest : (b :: (front ++ back)).Perm cs :=
      ((List.Perm.swap c b _).symm.trans ((List.perm_middle.symm.cons b).trans h)).cons_inv
    calc (b.joined (front ++ c :: back)).derive
        = (b.joined (c :: (front ++ back))).derive := derive_joined_perm List.perm_middle b
      _ = ((b.combine c).joined (front ++ back)).derive := rfl
      _ = ((c.combine b).joined (front ++ back)).derive :=
          derive_joined_congr (derive_combine_comm b c) _
      _ = (c.joined cs).derive := derive_joined_perm hrest c

end Bundle

end ScopeMetrics
