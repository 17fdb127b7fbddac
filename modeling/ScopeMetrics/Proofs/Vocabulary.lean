import Mathlib.Data.Finset.Card
import ScopeMetrics.Proofs.Combining

/-!
# Vocabularies

The vocabulary of a bag is the set of its texts.  A bag is made from a table, which may give a text
any integer, and keeps the positive ones in the order of the texts; bags that are merged count every
text as often as both together, so the vocabularies are united and not added up.

* `Bag.count_ofCounts`, `Bag.mem_ofCounts`: the bag of a table, by its counts and by its pairs.
* `Bag.merge_eq_ofCounts`: merging is adding up the tables and dropping what is not positive.
* `Bag.texts_merge`: the vocabulary of merged bags.
* **`Halstead.canonical_multisets`**: operators and operands are multisets in normal form, combined
  commutatively and associatively, with totals that add up and vocabularies that are united.
-/

namespace ScopeMetrics

/-! ### Tables of counts -/

/-- In a table that has each text once, a text has the value that stands beside it. -/
theorem lookup_eq_some_iff_mem {β : Type} {t : String} {v : β} : ∀ {es : List (String × β)},
    (es.map Prod.fst).Nodup → (es.lookup t = some v ↔ (t, v) ∈ es)
  | [], _ => by simp
  | (u, w) :: es, h => by
      obtain ⟨hu, hes⟩ := List.nodup_cons.mp h
      by_cases htu : t = u
      · subst htu
        have hnot : (t, v) ∉ es := fun hmem => hu (List.mem_map.mpr ⟨(t, v), hmem, rfl⟩)
        rw [List.lookup_cons_self, List.mem_cons, or_iff_left hnot, Option.some.injEq,
          Prod.mk.injEq]
        exact ⟨fun e => ⟨rfl, e.symm⟩, fun e => e.2.symm⟩
      · have hne : (t, v) ≠ (u, w) := fun e => htu (Prod.mk.inj e).1
        rw [List.lookup_cons, beq_eq_false_iff_ne.mpr htu, List.mem_cons, or_iff_right hne]
        exact lookup_eq_some_iff_mem hes

/-- A table that gives texts integers, each text once. -/
structure CountTable where
  entries : List (String × Int)
  nodup : (entries.map Prod.fst).Nodup

namespace CountTable

/-- The integer of a text, zero for a text that is not in the table. -/
def get (c : CountTable) (t : String) : Int := (c.entries.lookup t).getD 0

/-- Whether a text is in the table. -/
def has (c : CountTable) (t : String) : Bool := (c.entries.lookup t).isSome

theorem get_of_mem {c : CountTable} {t : String} {n : Int} (h : (t, n) ∈ c.entries) :
    c.get t = n := by
  rw [get, (lookup_eq_some_iff_mem c.nodup).mpr h, Option.getD_some]

theorem has_iff {c : CountTable} {t : String} : c.has t = true ↔ ∃ n, (t, n) ∈ c.entries := by
  simp only [has, Option.isSome_iff_exists, lookup_eq_some_iff_mem c.nodup]

theorem get_of_not_has {c : CountTable} {t : String} (h : ¬ c.has t = true) : c.get t = 0 := by
  rw [has, Bool.not_eq_true, Option.isSome_eq_false_iff, Option.isNone_iff_eq_none] at h
  rw [get, h, Option.getD_none]

/-- A text has a positive integer exactly if the pair of both is in the table. -/
theorem mem_iff_get_of_pos {c : CountTable} {t : String} {n : Int} (hn : 0 < n) :
    (t, n) ∈ c.entries ↔ c.get t = n := by
  refine ⟨get_of_mem, fun h => ?_⟩
  by_cases hc : c.has t = true
  · obtain ⟨m, hm⟩ := has_iff.mp hc
    rwa [← h, get_of_mem hm]
  · rw [get_of_not_has hc] at h
    omega

/-- The integers of both tables added up: first those of the texts in the first table, then those of
the texts that only the second has.  A sum that is not positive is left out. -/
def plusEntries (a b : CountTable) : List (String × Int) :=
  (a.entries.map fun e => (e.1, e.2 + b.get e.1)).filter (0 < ·.2) ++
    b.entries.filter fun e => !a.has e.1 && decide (0 < e.2)

theorem nodup_plusEntries (a b : CountTable) : ((plusEntries a b).map Prod.fst).Nodup := by
  have hkeys : (a.entries.map fun e => (e.1, e.2 + b.get e.1)).map Prod.fst =
      a.entries.map Prod.fst := by
    rw [List.map_map]
    rfl
  rw [plusEntries, List.map_append, List.nodup_append]
  refine ⟨?_, b.nodup.sublist (List.filter_sublist.map _), fun t ht u hu htu => ?_⟩
  · exact (hkeys ▸ a.nodup).sublist (List.filter_sublist.map _)
  · subst htu
    obtain ⟨e, he, rfl⟩ := List.mem_map.mp hu
    have hnot := (Bool.and_eq_true_iff.mp (List.mem_filter.mp he).2).1
    have hin : e.1 ∈ a.entries.map Prod.fst := hkeys ▸ (List.filter_sublist.map _).subset ht
    obtain ⟨d, hd, hde⟩ := List.mem_map.mp hin
    rw [has_iff.mpr ⟨d.2, hde ▸ hd⟩] at hnot
    cases hnot

/-- The sum of two tables. -/
def plus (a b : CountTable) : CountTable := ⟨plusEntries a b, nodup_plusEntries a b⟩

theorem mem_plus {a b : CountTable} {t : String} {n : Int} :
    (t, n) ∈ (plus a b).entries ↔ 0 < n ∧ a.get t + b.get t = n := by
  show (t, n) ∈ plusEntries a b ↔ _
  rw [plusEntries, List.mem_append, List.mem_filter, List.mem_filter, List.mem_map]
  by_cases ha : a.has t = true
  · obtain ⟨m, hm⟩ := has_iff.mp ha
    simp only [ha, Bool.not_true, Bool.false_and, Bool.false_eq_true, and_false, or_false,
      decide_eq_true_eq, get_of_mem hm]
    constructor
    · rintro ⟨⟨⟨u, k⟩, hu, huk⟩, hn⟩
      obtain ⟨rfl, rfl⟩ := Prod.mk.inj huk
      exact ⟨hn, by rw [← get_of_mem hm, get_of_mem hu]⟩
    · rintro ⟨hn, rfl⟩
      exact ⟨⟨(t, m), hm, rfl⟩, hn⟩
  · have hnone : ∀ e ∈ a.entries, (e.1, e.2 + b.get e.1) ≠ (t, n) := by
      rintro ⟨u, k⟩ hu huk
      obtain ⟨rfl, -⟩ := Prod.mk.inj huk
      exact ha (has_iff.mpr ⟨k, hu⟩)
    have hfirst : ¬ ∃ e ∈ a.entries, (e.1, e.2 + b.get e.1) = (t, n) :=
      fun ⟨e, he, heq⟩ => hnone e he heq
    rw [Bool.not_eq_true] at ha
    simp only [hfirst, false_and, false_or, ha, Bool.not_false, Bool.true_and, decide_eq_true_eq]
    rw [get_of_not_has (by rw [ha]; exact Bool.false_ne_true), Int.zero_add, and_comm]
    exact and_congr_right mem_iff_get_of_pos

end CountTable

/-! ### Bags of tables -/

namespace Bag

theorem nodup_entries (b : Bag) : (b.entries.map Prod.fst).Nodup :=
  List.pairwise_map.mpr (b.canonical.1.imp String.ne_of_lt)

/-- The pairs of a bag are the texts in it with their counts. -/
theorem mem_entries {b : Bag} {t : String} {n : Nat} :
    (t, n) ∈ b.entries ↔ 0 < n ∧ b.count t = n := by
  rw [← lookup_eq_some_iff_mem b.nodup_entries, count]
  constructor
  · intro h
    exact ⟨b.canonical.2 _ ((lookup_eq_some_iff_mem b.nodup_entries).mp h), by rw [h]; rfl⟩
  · rintro ⟨hn, h⟩
    cases hl : b.entries.lookup t with
    | none =>
        rw [hl, Option.getD_none] at h
        omega
    | some m =>
        rw [hl, Option.getD_some] at h
        rw [h]

/-- The counts of a bag as a table. -/
def table (b : Bag) : CountTable where
  entries := b.entries.map fun e => (e.1, (e.2 : Int))
  nodup := by
    rw [List.map_map]
    exact b.nodup_entries

theorem get_table (b : Bag) (t : String) : b.table.get t = b.count t := by
  by_cases ht : b.table.has t = true
  · obtain ⟨n, hn⟩ := CountTable.has_iff.mp ht
    obtain ⟨⟨u, m⟩, hm, hum⟩ := List.mem_map.mp hn
    obtain ⟨rfl, rfl⟩ := Prod.mk.inj hum
    rw [CountTable.get_of_mem hn, (mem_entries.mp hm).2]
  · have hzero : b.count t = 0 := by
      by_contra hne
      have hmem : (t, b.count t) ∈ b.entries := mem_entries.mpr ⟨Nat.pos_of_ne_zero hne, rfl⟩
      exact ht (CountTable.has_iff.mpr ⟨_, List.mem_map_of_mem hmem⟩)
    rw [CountTable.get_of_not_has ht, hzero]
    rfl

theorem count_foldl_ofCounts (t : String) : ∀ (es : List (String × Int)) (b : Bag),
    (es.map Prod.fst).Nodup →
      (es.foldl (fun b e => b.add e.1 e.2.toNat) b).count t =
        b.count t + ((es.lookup t).getD 0).toNat
  | [], b, _ => rfl
  | (u, n) :: es, b, h => by
      obtain ⟨hu, hes⟩ := List.nodup_cons.mp h
      rw [List.foldl_cons, count_foldl_ofCounts t es _ hes, count_add]
      by_cases htu : t = u
      · subst htu
        have hnone : es.lookup t = none := by
          rw [List.lookup_eq_none_iff]
          exact fun e he => bne_iff_ne.mpr fun hte => hu (List.mem_map.mpr ⟨e, he, hte.symm⟩)
        rw [if_pos rfl, hnone, List.lookup_cons_self, Option.getD_none, Option.getD_some]
        rfl
      · rw [if_neg htu, List.lookup_cons, beq_eq_false_iff_ne.mpr htu, Nat.add_zero]

/-- In the bag of a table, a text is as often as the table says, and not at all if it says a
negative number. -/
theorem count_ofCounts (c : CountTable) (t : String) :
    (ofCounts c.entries).count t = (c.get t).toNat :=
  (count_foldl_ofCounts t c.entries ∅ c.nodup).trans (Nat.zero_add _)

/-- The pairs of the bag of a table are those with a positive count. -/
theorem mem_ofCounts {c : CountTable} {t : String} {n : Nat} :
    (t, n) ∈ (ofCounts c.entries).entries ↔ 0 < n ∧ (t, (n : Int)) ∈ c.entries := by
  rw [mem_entries, count_ofCounts]
  refine and_congr_right fun hn => ?_
  rw [CountTable.mem_iff_get_of_pos (by omega)]
  omega

/-- Merging is adding up the tables. -/
theorem merge_eq_ofCounts (a b : Bag) : a.merge b = ofCounts (a.table.plus b.table).entries := by
  refine ext_count fun t => ?_
  rw [count_merge, count_ofCounts]
  by_cases hsum : 0 < a.count t + b.count t
  · have hmem : (t, ((a.count t + b.count t : Nat) : Int)) ∈ (a.table.plus b.table).entries := by
      rw [CountTable.mem_plus, get_table, get_table]
      omega
    rw [CountTable.get_of_mem hmem, Int.toNat_natCast]
  · have hnot : ¬ (a.table.plus b.table).has t = true := by
      rw [CountTable.has_iff]
      rintro ⟨n, hn⟩
      rw [CountTable.mem_plus, get_table, get_table] at hn
      omega
    rw [CountTable.get_of_not_has hnot]
    omega

/-! ### Texts -/

/-- The texts in a bag. -/
def texts (b : Bag) : Finset String := (b.entries.map Prod.fst).toFinset

theorem mem_texts {b : Bag} {t : String} : t ∈ b.texts ↔ 0 < b.count t := by
  rw [texts, List.mem_toFinset, List.mem_map]
  constructor
  · rintro ⟨⟨u, n⟩, hmem, rfl⟩
    obtain ⟨hn, hcount⟩ := mem_entries.mp hmem
    rwa [hcount]
  · exact fun h => ⟨(t, b.count t), mem_entries.mpr ⟨h, rfl⟩, rfl⟩

theorem card_texts (b : Bag) : b.texts.card = b.distinct := by
  rw [texts, List.toFinset_card_of_nodup b.nodup_entries, List.length_map]
  rfl

theorem texts_merge (a b : Bag) : (a.merge b).texts = a.texts ∪ b.texts := by
  ext t
  rw [Finset.mem_union, mem_texts, mem_texts, mem_texts, count_merge]
  omega

/-! ### Many bags -/

/-- The texts that are in one of some bags. -/
def textsOf (bs : List Bag) : Finset String := bs.foldr (fun b s => b.texts ∪ s) ∅

theorem texts_foldl_merge (bs : List Bag) : ∀ a : Bag,
    (bs.foldl merge a).texts = a.texts ∪ textsOf bs := by
  induction bs with
  | nil => exact fun a => (Finset.union_empty _).symm
  | cons b bs ih =>
      intro a
      rw [List.foldl_cons, ih, texts_merge, Finset.union_assoc]
      rfl

theorem total_foldl_merge (bs : List Bag) : ∀ a : Bag,
    (bs.foldl merge a).total = a.total + (bs.map total).foldr (· + ·) 0 := by
  induction bs with
  | nil => exact fun a => rfl
  | cons b bs ih =>
      intro a
      rw [List.foldl_cons, ih, total_merge, List.map_cons, List.foldr_cons, Nat.add_assoc]

theorem texts_subset_textsOf {b : Bag} {bs : List Bag} (hb : b ∈ bs) : b.texts ⊆ textsOf bs := by
  induction bs with
  | nil => cases hb
  | cons c bs ih =>
      rcases List.mem_cons.mp hb with rfl | hb
      · exact Finset.subset_union_left
      · exact (ih hb).trans Finset.subset_union_right

theorem card_textsOf_le (bs : List Bag) :
    (textsOf bs).card ≤ (bs.map distinct).foldr (· + ·) 0 := by
  induction bs with
  | nil => exact Nat.le_refl 0
  | cons b bs ih =>
      calc (b.texts ∪ textsOf bs).card
          ≤ b.texts.card + (textsOf bs).card := Finset.card_union_le _ _
        _ ≤ b.distinct + (bs.map distinct).foldr (· + ·) 0 := by
            rw [card_texts]
            exact Nat.add_le_add_left ih _

/-- Whether a bag is the normal form of a table: its texts are in strictly increasing order, its
counts are positive, and its pairs are those of the table with a positive count. -/
structure IsNormalFormOf (b : Bag) (c : CountTable) : Prop where
  canonical : Canonical b.entries
  mem_iff : ∀ t n, (t, n) ∈ b.entries ↔ 0 < n ∧ (t, (n : Int)) ∈ c.entries

theorem isNormalFormOf_ofCounts (c : CountTable) : (ofCounts c.entries).IsNormalFormOf c :=
  ⟨(ofCounts c.entries).canonical, fun _ _ => mem_ofCounts⟩

/-- Whether a bag holds what some bags hold together: it has as many copies as all of them, and its
texts are the texts of all of them, each once. -/
structure IsUnionOf (u : Bag) (bs : List Bag) : Prop where
  total : u.total = (bs.map Bag.total).foldr (· + ·) 0
  distinct : u.distinct = (textsOf bs).card
  distinct_ge : ∀ b ∈ bs, b.distinct ≤ u.distinct
  distinct_le : u.distinct ≤ (bs.map Bag.distinct).foldr (· + ·) 0

theorem isUnionOf_foldl_merge (bs : List Bag) : (bs.foldl merge ∅).IsUnionOf bs := by
  have htexts : (bs.foldl merge ∅).texts = textsOf bs :=
    (texts_foldl_merge bs ∅).trans (Finset.empty_union _)
  have hdistinct : (bs.foldl merge ∅).distinct = (textsOf bs).card := by
    rw [← card_texts, htexts]
  refine ⟨(total_foldl_merge bs ∅).trans (Nat.zero_add _), hdistinct, fun b hb => ?_, ?_⟩
  · rw [hdistinct, ← card_texts]
    exact Finset.card_le_card (texts_subset_textsOf hb)
  · rw [hdistinct]
    exact card_textsOf_le bs

end Bag

/-! ### Operators and operands -/

namespace Halstead

/-- The operators and operands of two tables. -/
def ofTables (operators operands : CountTable) : Halstead :=
  ⟨.ofCounts operators.entries, .ofCounts operands.entries⟩

/-- Some operators and operands combined, one after the other. -/
def combineAll (hs : List Halstead) : Halstead := hs.foldl combine {}

theorem operators_combineAll (hs : List Halstead) :
    (combineAll hs).operators = (hs.map operators).foldl Bag.merge ∅ := by
  rw [combineAll, List.foldl_map]
  exact (List.foldl_hom operators fun _ _ => rfl).symm

theorem operands_combineAll (hs : List Halstead) :
    (combineAll hs).operands = (hs.map operands).foldl Bag.merge ∅ := by
  rw [combineAll, List.foldl_map]
  exact (List.foldl_hom operands fun _ _ => rfl).symm

theorem combine_eq_ofTables (a b : Halstead) :
    a.combine b = ofTables (a.operators.table.plus b.operators.table)
      (a.operands.table.plus b.operands.table) := by
  rw [combine, Bag.merge_eq_ofCounts, Bag.merge_eq_ofCounts]
  rfl

theorem eq_iff_count {a b : Halstead} : a = b ↔
    (∀ t, a.operators.count t = b.operators.count t) ∧
      ∀ t, a.operands.count t = b.operands.count t := by
  refine ⟨fun h => h ▸ ⟨fun _ => rfl, fun _ => rfl⟩, fun ⟨hoperators, hoperands⟩ => ?_⟩
  rw [Halstead.mk.injEq]
  exact ⟨Bag.ext_count hoperators, Bag.ext_count hoperands⟩

/-- **A pair of multisets in normal form.**  Whatever integers two tables hold, what is made from
them holds the positive ones, each beside its text, in the order of the texts.  Combining adds the
tables up and makes such a pair again; it adds the counts of every text, is commutative and
associative, and nothing changes when nothing is combined.  Of any list that is combined, the totals
are added, the numbers of different texts are the sizes of the united vocabularies, and two pairs
are equal exactly if they count every text alike. -/
theorem canonical_multisets :
    (∀ operators operands : CountTable,
      (ofTables operators operands).operators.IsNormalFormOf operators ∧
        (ofTables operators operands).operands.IsNormalFormOf operands) ∧
    (∀ a b : Halstead,
      a.combine b = ofTables (a.operators.table.plus b.operators.table)
          (a.operands.table.plus b.operands.table) ∧
        Bag.Canonical (a.combine b).operators.entries ∧
        Bag.Canonical (a.combine b).operands.entries ∧
        (∀ t, (a.combine b).operators.count t = a.operators.count t + b.operators.count t) ∧
        (∀ t, (a.combine b).operands.count t = a.operands.count t + b.operands.count t) ∧
        a.combine b = b.combine a) ∧
    (∀ a b c : Halstead, (a.combine b).combine c = a.combine (b.combine c)) ∧
    (∀ a : Halstead, a.combine {} = a ∧ combine {} a = a) ∧
    (∀ hs : List Halstead,
      (combineAll hs).operators.IsUnionOf (hs.map operators) ∧
        (combineAll hs).operands.IsUnionOf (hs.map operands)) ∧
    (∀ a b : Halstead, a = b ↔
      (∀ t, a.operators.count t = b.operators.count t) ∧
        ∀ t, a.operands.count t = b.operands.count t) := by
  refine ⟨fun operators operands => ?_, fun a b => ?_, combine_assoc, fun a => ?_, fun hs => ?_,
    fun _ _ => eq_iff_count⟩
  · exact ⟨Bag.isNormalFormOf_ofCounts operators, Bag.isNormalFormOf_ofCounts operands⟩
  · exact ⟨combine_eq_ofTables a b, (a.combine b).operators.canonical,
      (a.combine b).operands.canonical, Bag.count_merge _ _, Bag.count_merge _ _, combine_comm a b⟩
  · exact ⟨rfl, combine_comm {} a⟩
  · rw [operators_combineAll, operands_combineAll]
    exact ⟨Bag.isUnionOf_foldl_merge _, Bag.isUnionOf_foldl_merge _⟩

end Halstead

end ScopeMetrics
