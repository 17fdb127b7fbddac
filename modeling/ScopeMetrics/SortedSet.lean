/-!
# Sorted sets

A finite set over a linear order, stored in strictly increasing order so that equal sets are the
same value.

- `mem_insert`, `mem_ofList`, `mem_union`: the members after each operation.
- `ext_mem`: sets with the same members are equal.
-/

namespace ScopeMetrics

/-- A finite set, its elements in strictly increasing order. -/
structure SortedSet (α : Type) [LT α] where
  toList : List α
  increasing : toList.Pairwise (· < ·)

namespace SortedSet

instance {α : Type} [LT α] [DecidableEq α] : DecidableEq (SortedSet α) := fun a b =>
  if h : a.toList = b.toList then
    isTrue (by cases a; cases b; cases h; rfl)
  else isFalse (fun e => h (e ▸ rfl))

instance {α : Type} [LT α] : EmptyCollection (SortedSet α) := ⟨⟨[], .nil⟩⟩

instance {α : Type} [LT α] : Membership α (SortedSet α) := ⟨fun s x => x ∈ s.toList⟩

theorem mem_toList {α : Type} [LT α] {s : SortedSet α} {x : α} : x ∈ s.toList ↔ x ∈ s := Iff.rfl

theorem not_mem_empty {α : Type} [LT α] {x : α} : x ∉ (∅ : SortedSet α) := List.not_mem_nil

def contains {α : Type} [LT α] [DecidableEq α] (s : SortedSet α) (x : α) : Bool :=
  decide (x ∈ s.toList)

@[simp] theorem contains_iff {α : Type} [LT α] [DecidableEq α] {s : SortedSet α} {x : α} :
    s.contains x = true ↔ x ∈ s :=
  decide_eq_true_iff

/-- Puts an element in its place; one that is there already is not put again. -/
def place {α : Type} [LT α] [DecidableLT α] [DecidableEq α] (x : α) : List α → List α
  | [] => [x]
  | y :: ys => if x < y then x :: y :: ys else if x = y then y :: ys else y :: place x ys

theorem mem_place {α : Type} [LT α] [DecidableLT α] [DecidableEq α] {x z : α} :
    ∀ {ys : List α}, z ∈ place x ys ↔ z = x ∨ z ∈ ys
  | [] => by simp [place]
  | y :: ys => by
      unfold place
      split
      · simp
      · split
        · rename_i h
          subst h
          simp
        · simp only [List.mem_cons, mem_place]
          constructor <;> rintro (h | h | h) <;> simp [h]

theorem increasing_place {α : Type} [LT α] [LE α] [DecidableLT α] [DecidableEq α]
    [Std.IsLinearOrder α] [Std.LawfulOrderLT α] {x : α} :
    ∀ {ys : List α}, ys.Pairwise (· < ·) → (place x ys).Pairwise (· < ·)
  | [], _ => by simp [place]
  | y :: ys, h => by
      obtain ⟨hy, hs⟩ := List.pairwise_cons.mp h
      unfold place
      split
      · rename_i hxy
        refine List.pairwise_cons.mpr ⟨fun z hz => ?_, h⟩
        rcases List.mem_cons.mp hz with rfl | hz
        · exact hxy
        · exact Std.lt_trans hxy (hy z hz)
      · split
        · exact h
        · rename_i hxy hne
          refine List.pairwise_cons.mpr ⟨fun z hz => ?_, increasing_place hs⟩
          rcases mem_place.mp hz with rfl | hz
          · exact Std.lt_of_le_of_ne (Std.not_lt.mp hxy) (Ne.symm hne)
          · exact hy z hz

section

variable {α : Type} [LT α] [LE α] [DecidableLT α] [DecidableEq α] [Std.IsLinearOrder α]
  [Std.LawfulOrderLT α]

def insert (s : SortedSet α) (x : α) : SortedSet α :=
  ⟨place x s.toList, increasing_place s.increasing⟩

/-- The set of the listed elements. -/
def ofList (xs : List α) : SortedSet α := xs.foldl insert ∅

/-- The elements of either set. -/
def union (a b : SortedSet α) : SortedSet α := b.toList.foldl insert a

@[simp] theorem mem_insert {s : SortedSet α} {x z : α} : z ∈ s.insert x ↔ z = x ∨ z ∈ s :=
  mem_place

theorem mem_foldl_insert {z : α} :
    ∀ {xs : List α} {s : SortedSet α}, z ∈ xs.foldl insert s ↔ z ∈ xs ∨ z ∈ s
  | [], s => by simp
  | x :: xs, s => by
      rw [List.foldl_cons, mem_foldl_insert, mem_insert, List.mem_cons]
      constructor
      · rintro (h | h | h) <;> simp [h]
      · rintro ((h | h) | h) <;> simp [h]

@[simp] theorem mem_ofList {xs : List α} {z : α} : z ∈ ofList xs ↔ z ∈ xs := by
  rw [ofList, mem_foldl_insert]
  simp [not_mem_empty]

@[simp] theorem mem_union {a b : SortedSet α} {z : α} : z ∈ a.union b ↔ z ∈ a ∨ z ∈ b := by
  rw [union, mem_foldl_insert, mem_toList, Or.comm]

theorem mem_foldl_union {β : Type} {f : β → SortedSet α} {z : α} :
    ∀ {xs : List β} {s : SortedSet α},
      z ∈ xs.foldl (fun s x => s.union (f x)) s ↔ z ∈ s ∨ ∃ x ∈ xs, z ∈ f x
  | [], s => by simp
  | x :: xs, s => by
      rw [List.foldl_cons, mem_foldl_union, mem_union]
      simp only [List.mem_cons, exists_eq_or_imp, or_assoc]

end

/-! ### Equality -/

section

variable {α : Type} [LT α] [LE α] [Std.IsLinearOrder α] [Std.LawfulOrderLT α]

/-- Increasing lists with the same members are equal. -/
theorem eq_of_increasing :
    ∀ {xs ys : List α}, xs.Pairwise (· < ·) → ys.Pairwise (· < ·) → (∀ z, z ∈ xs ↔ z ∈ ys) →
      xs = ys
  | [], [], _, _, _ => rfl
  | [], y :: _, _, _, h => absurd ((h y).mpr List.mem_cons_self) List.not_mem_nil
  | x :: _, [], _, _, h => absurd ((h x).mp List.mem_cons_self) List.not_mem_nil
  | x :: xs, y :: ys, hx, hy, h => by
      obtain ⟨hxs, hx'⟩ := List.pairwise_cons.mp hx
      obtain ⟨hys, hy'⟩ := List.pairwise_cons.mp hy
      have hxy : x = y := by
        rcases List.mem_cons.mp ((h x).mp List.mem_cons_self) with e | hxm
        · exact e
        · rcases List.mem_cons.mp ((h y).mpr List.mem_cons_self) with e | hym
          · exact e.symm
          · exact absurd (Std.lt_trans (hys x hxm) (hxs y hym)) Std.lt_irrefl
      subst hxy
      have tails : ∀ z, z ∈ xs ↔ z ∈ ys := fun z => by
        constructor
        · intro hz
          rcases List.mem_cons.mp ((h z).mp (List.mem_cons_of_mem _ hz)) with rfl | hz'
          · exact absurd (hxs z hz) Std.lt_irrefl
          · exact hz'
        · intro hz
          rcases List.mem_cons.mp ((h z).mpr (List.mem_cons_of_mem _ hz)) with rfl | hz'
          · exact absurd (hys z hz) Std.lt_irrefl
          · exact hz'
      rw [eq_of_increasing hx' hy' tails]

/-- Sets with the same members are equal. -/
theorem ext_mem {a b : SortedSet α} (h : ∀ z, z ∈ a ↔ z ∈ b) : a = b := by
  obtain ⟨xs, hx⟩ := a
  obtain ⟨ys, hy⟩ := b
  have e : xs = ys := eq_of_increasing hx hy h
  subst e
  rfl

end

end SortedSet

end ScopeMetrics
