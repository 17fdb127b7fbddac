/-!
# Bags of texts

A bag counts texts.  It is stored as pairs of a text and a positive count, the texts in strictly
increasing order by code point, so that equal bags are the same value.
-/

namespace ScopeMetrics

/-- Pairs in strictly increasing order of the texts, with positive counts. -/
def Bag.Canonical (entries : List (String × Nat)) : Prop :=
  entries.Pairwise (fun a b => a.1 < b.1) ∧ ∀ e ∈ entries, 0 < e.2

/-- A finite bag of texts. -/
structure Bag where
  entries : List (String × Nat)
  canonical : Bag.Canonical entries

namespace Bag

instance : DecidableEq Bag := fun a b =>
  if h : a.entries = b.entries then
    isTrue (by cases a; cases b; cases h; rfl)
  else isFalse (fun e => h (e ▸ rfl))

instance : EmptyCollection Bag := ⟨⟨[], by simp [Canonical]⟩⟩

/-- Adds `n` to the count of `t` in ordered pairs. -/
def bump (t : String) (n : Nat) : List (String × Nat) → List (String × Nat)
  | [] => [(t, n)]
  | (u, m) :: es =>
    if t < u then (t, n) :: (u, m) :: es
    else if t = u then (u, m + n) :: es
    else (u, m) :: bump t n es

/-- The texts after a bump are the old ones and the bumped one. -/
theorem fst_of_mem_bump {t : String} {n : Nat} {e : String × Nat} :
    ∀ {es : List (String × Nat)}, e ∈ bump t n es → e.1 = t ∨ ∃ e' ∈ es, e'.1 = e.1
  | [], h => by
      simp only [bump, List.mem_singleton] at h
      exact .inl (h ▸ rfl)
  | (u, m) :: es, h => by
      unfold bump at h
      split at h
      · rcases List.mem_cons.mp h with rfl | h
        · exact .inl rfl
        · exact .inr ⟨e, h, rfl⟩
      · split at h
        · rcases List.mem_cons.mp h with rfl | h
          · exact .inr ⟨(u, m), List.mem_cons_self, rfl⟩
          · exact .inr ⟨e, List.mem_cons_of_mem _ h, rfl⟩
        · rcases List.mem_cons.mp h with rfl | h
          · exact .inr ⟨(u, m), List.mem_cons_self, rfl⟩
          · rcases fst_of_mem_bump h with h | ⟨e', he', h⟩
            · exact .inl h
            · exact .inr ⟨e', List.mem_cons_of_mem _ he', h⟩

/-- A bump by a positive number keeps pairs canonical. -/
theorem Canonical.bump {t : String} {n : Nat} (hn : 0 < n) :
    ∀ {es : List (String × Nat)}, Canonical es → Canonical (bump t n es)
  | [], _ => by simp [Bag.bump, Canonical, hn]
  | (u, m) :: es, ⟨hs, hp⟩ => by
      obtain ⟨hu, hs'⟩ := List.pairwise_cons.mp hs
      have hm : 0 < m := hp (u, m) List.mem_cons_self
      have hp' : ∀ e ∈ es, 0 < e.2 := fun e he => hp e (List.mem_cons_of_mem _ he)
      unfold Bag.bump
      split
      · rename_i htu
        refine ⟨List.pairwise_cons.mpr ⟨fun e he => ?_, hs⟩, fun e he => ?_⟩
        · rcases List.mem_cons.mp he with rfl | he
          · exact htu
          · exact String.lt_trans htu (hu e he)
        · rcases List.mem_cons.mp he with rfl | he
          · exact hn
          · exact hp e he
      · rename_i htu
        split
        · refine ⟨List.pairwise_cons.mpr ⟨hu, hs'⟩, fun e he => ?_⟩
          rcases List.mem_cons.mp he with rfl | he
          · exact Nat.add_pos_left hm n
          · exact hp' e he
        · rename_i hne
          have hut : u < t :=
            Decidable.byContradiction fun h =>
              hne (String.le_antisymm (String.not_lt.mp h) (String.not_lt.mp htu))
          obtain ⟨ihs, ihp⟩ := Canonical.bump (t := t) hn ⟨hs', hp'⟩
          refine ⟨List.pairwise_cons.mpr ⟨fun e he => ?_, ihs⟩, fun e he => ?_⟩
          · rcases fst_of_mem_bump he with h | ⟨e', he', h⟩
            · exact h ▸ hut
            · exact h ▸ hu e' he'
          · rcases List.mem_cons.mp he with rfl | he
            · exact hm
            · exact ihp e he

/-- Adds `n` copies of a text. -/
def add (b : Bag) (t : String) (n : Nat) : Bag :=
  if h : 0 < n then ⟨bump t n b.entries, b.canonical.bump h⟩ else b

/-- The bag of one text. -/
def single (t : String) : Bag := (∅ : Bag).add t 1

/-- The bag of a table of counts; counts that are not positive are left out. -/
def ofCounts (counts : List (String × Int)) : Bag :=
  counts.foldl (fun b (t, n) => b.add t n.toNat) ∅

/-- The bag with the copies of both. -/
def merge (a b : Bag) : Bag :=
  b.entries.foldl (fun c (t, n) => c.add t n) a

/-- How many copies of a text are in the bag. -/
def count (b : Bag) (t : String) : Nat :=
  (b.entries.lookup t).getD 0

/-- How many different texts are in the bag. -/
def distinct (b : Bag) : Nat := b.entries.length

/-- How many copies of texts are in the bag. -/
def total (b : Bag) : Nat := (b.entries.map Prod.snd).foldr (· + ·) 0

end Bag

end ScopeMetrics
