import ScopeMetrics.Metric.Halstead

/-!
# Counting in bags

A bag is determined by how often each text is in it (`Bag.ext_count`), and merging adds the counts
of every text (`Bag.count_merge`); so merging is commutative and associative, and the order in
which texts arrive leaves no trace (`Bag.ofList_perm`).
-/

namespace ScopeMetrics.Bag

/-- How often a text is in some pairs. -/
def countIn (es : List (String × Nat)) (t : String) : Nat := (es.lookup t).getD 0

theorem countIn_cons (u : String) (m : Nat) (es : List (String × Nat)) (t : String) :
    countIn ((u, m) :: es) t = if t = u then m else countIn es t := by
  unfold countIn
  by_cases h : t = u
  · subst h
    rw [List.lookup_cons_self, if_pos rfl, Option.getD_some]
  · rw [if_neg h, List.lookup_cons, beq_eq_false_iff_ne.mpr h]

/-- A text below all texts of the pairs is not in them. -/
theorem countIn_eq_zero {t : String} :
    ∀ {es : List (String × Nat)}, (∀ e ∈ es, t < e.1) → countIn es t = 0
  | [], _ => rfl
  | (u, m) :: es, h => by
      have hne : t ≠ u := fun e =>
        absurd (e ▸ h (u, m) List.mem_cons_self) (String.lt_irrefl _)
      rw [countIn_cons, if_neg hne]
      exact countIn_eq_zero fun e he => h e (List.mem_cons_of_mem _ he)

theorem countIn_bump {t : String} {n : Nat} {u : String} :
    ∀ {es : List (String × Nat)}, es.Pairwise (fun a b => a.1 < b.1) →
      countIn (bump t n es) u = countIn es u + if u = t then n else 0
  | [], _ => by
      rw [bump, countIn_cons]
      by_cases h : u = t
      · rw [if_pos h, if_pos h]
        exact (Nat.zero_add n).symm
      · rw [if_neg h, if_neg h]
        rfl
  | (v, m) :: es, hs => by
      obtain ⟨hv, hs'⟩ := List.pairwise_cons.mp hs
      unfold bump
      split
      · rename_i htv
        -- nothing counts `t` yet: it is below every text
        have hzero : countIn ((v, m) :: es) t = 0 := countIn_eq_zero fun e he => by
          rcases List.mem_cons.mp he with rfl | he
          · exact htv
          · exact String.lt_trans htv (hv e he)
        rw [countIn_cons]
        by_cases h : u = t
        · rw [if_pos h, if_pos h, h, hzero, Nat.zero_add]
        · rw [if_neg h, if_neg h, Nat.add_zero]
      · split
        · rename_i htv
          subst htv
          rw [countIn_cons, countIn_cons]
          by_cases h : u = t
          · rw [if_pos h, if_pos h, if_pos h]
          · rw [if_neg h, if_neg h, if_neg h, Nat.add_zero]
        · rename_i hne
          rw [countIn_cons, countIn_cons, countIn_bump hs']
          by_cases h : u = v
          · have hut : u ≠ t := fun e => hne (e.symm.trans h)
            rw [if_pos h, if_pos h, if_neg hut, Nat.add_zero]
          · rw [if_neg h, if_neg h]

/-- The first text of some pairs is not below all texts of others that count it as often. -/
theorem not_lt_of_countIn {u v : String} {m n : Nat} {es fs : List (String × Nat)} (hm : 0 < m)
    (hv : ∀ e ∈ fs, v < e.1) (h : countIn ((u, m) :: es) u = countIn ((v, n) :: fs) u) :
    ¬ u < v := by
  intro huv
  have hzero : countIn ((v, n) :: fs) u = 0 := countIn_eq_zero fun e he => by
    rcases List.mem_cons.mp he with rfl | he
    · exact huv
    · exact String.lt_trans huv (hv e he)
  rw [countIn_cons, if_pos rfl, hzero] at h
  exact absurd h.symm (Nat.ne_of_lt hm)

/-- A canonical list of pairs is determined by its counts. -/
theorem eq_of_countIn : ∀ {es fs : List (String × Nat)}, Canonical es → Canonical fs →
    (∀ t, countIn es t = countIn fs t) → es = fs
  | [], [], _, _, _ => rfl
  | [], (v, n) :: fs, _, hf, h => by
      have := h v
      rw [countIn_cons, if_pos rfl] at this
      exact absurd this (Nat.ne_of_lt (hf.2 _ List.mem_cons_self))
  | (u, m) :: es, [], he, _, h => by
      have := h u
      rw [countIn_cons, if_pos rfl] at this
      exact absurd this.symm (Nat.ne_of_lt (he.2 _ List.mem_cons_self))
  | (u, m) :: es, (v, n) :: fs, ⟨hes, hep⟩, ⟨hfs, hfp⟩, h => by
      obtain ⟨hu, hes'⟩ := List.pairwise_cons.mp hes
      obtain ⟨hv, hfs'⟩ := List.pairwise_cons.mp hfs
      have huv : u = v := String.le_antisymm
        (String.not_lt.mp (not_lt_of_countIn (hfp _ List.mem_cons_self) hu (h v).symm))
        (String.not_lt.mp (not_lt_of_countIn (hep _ List.mem_cons_self) hv (h u)))
      subst huv
      have hm : m = n := by
        have := h u
        rwa [countIn_cons, countIn_cons, if_pos rfl, if_pos rfl] at this
      subst hm
      refine congrArg _ (eq_of_countIn ⟨hes', fun e he => hep e (List.mem_cons_of_mem _ he)⟩
        ⟨hfs', fun e he => hfp e (List.mem_cons_of_mem _ he)⟩ fun t => ?_)
      by_cases ht : t = u
      · subst ht
        rw [countIn_eq_zero hu, countIn_eq_zero hv]
      · have := h t
        rwa [countIn_cons, countIn_cons, if_neg ht, if_neg ht] at this

/-! ### Bags -/

/-- Bags in which every text is as often are the same. -/
theorem ext_count {a b : Bag} (h : ∀ t, a.count t = b.count t) : a = b := by
  obtain ⟨es, he⟩ := a
  obtain ⟨fs, hf⟩ := b
  obtain rfl : es = fs := eq_of_countIn he hf h
  rfl

theorem count_add (b : Bag) (t : String) (n : Nat) (u : String) :
    (b.add t n).count u = b.count u + if u = t then n else 0 := by
  unfold add
  split
  · exact countIn_bump b.canonical.1
  · rename_i hn
    have hn' : n = 0 := Nat.eq_zero_of_not_pos hn
    rw [hn']
    split <;> rfl

theorem count_foldl_add (t : String) : ∀ (es : List (String × Nat)) (a : Bag),
    es.Pairwise (fun a b => a.1 < b.1) →
      (es.foldl (fun c e => c.add e.1 e.2) a).count t = a.count t + countIn es t
  | [], a, _ => rfl
  | (u, m) :: es, a, h => by
      obtain ⟨hu, hs⟩ := List.pairwise_cons.mp h
      rw [List.foldl_cons, count_foldl_add t es _ hs, count_add, countIn_cons]
      by_cases ht : t = u
      · subst ht
        rw [if_pos rfl, if_pos rfl, countIn_eq_zero hu, Nat.add_zero]
      · rw [if_neg ht, if_neg ht, Nat.add_zero]

/-- Merging adds the counts of every text. -/
theorem count_merge (a b : Bag) (t : String) : (a.merge b).count t = a.count t + b.count t :=
  count_foldl_add t b.entries a b.canonical.1

theorem merge_comm (a b : Bag) : a.merge b = b.merge a :=
  ext_count fun t => by rw [count_merge, count_merge, Nat.add_comm]

theorem merge_assoc (a b c : Bag) : (a.merge b).merge c = a.merge (b.merge c) :=
  ext_count fun t => by simp only [count_merge, Nat.add_assoc]

/-! ### Bags of lists -/

/-- The bag of a list of texts. -/
def ofList (ts : List String) : Bag := ts.foldl (fun b t => b.add t 1) ∅

theorem count_ofList (ts : List String) (t : String) : (ofList ts).count t = ts.count t := by
  have hfold : ∀ b : Bag, (ts.foldl (fun b t => b.add t 1) b).count t = b.count t + ts.count t := by
    induction ts with
    | nil => exact fun b => rfl
    | cons u ts ih =>
        intro b
        have hsame : (if t = u then 1 else 0) = if u == t then 1 else 0 := by
          simp only [beq_iff_eq, eq_comm (a := t)]
        rw [List.foldl_cons, ih, count_add, List.count_cons, hsame, Nat.add_assoc,
          Nat.add_comm (ts.count t)]
  rw [ofList, hfold]
  exact Nat.zero_add _

theorem ofList_append (ts us : List String) : ofList (ts ++ us) = (ofList ts).merge (ofList us) :=
  ext_count fun t => by
    rw [count_merge, count_ofList, count_ofList, count_ofList, List.count_append]

/-- The order of a list does not show in its bag. -/
theorem ofList_perm {ts us : List String} (h : ts.Perm us) : ofList ts = ofList us :=
  ext_count fun t => by rw [count_ofList, count_ofList, h.count_eq]

/-- The texts of members with one of two properties that exclude each other. -/
theorem ofList_filter_or {α : Type} {text : α → String} {a b : α → Bool} {xs : List α}
    (h : ∀ x ∈ xs, b x = true → a x = false) :
    ofList ((xs.filter fun x => a x || b x).map text) =
      (ofList ((xs.filter a).map text)).merge (ofList ((xs.filter b).map text)) := by
  refine ext_count fun t => ?_
  rw [count_merge, count_ofList, count_ofList, count_ofList]
  induction xs with
  | nil => rfl
  | cons x xs ih =>
      have hx := h x List.mem_cons_self
      have hrest := ih fun y hy => h y (List.mem_cons_of_mem x hy)
      cases ha : a x <;> cases hb : b x
      · simp [ha, hb, hrest]
      · simp only [List.filter_cons, ha, hb, Bool.or_true, if_true, Bool.false_eq_true, if_false,
          List.map_cons, List.count_cons, hrest]
        omega
      · simp only [List.filter_cons, ha, hb, Bool.or_false, if_true, Bool.false_eq_true, if_false,
          List.map_cons, List.count_cons, hrest]
        omega
      · rw [ha] at hx
        cases hx hb

/-- How many copies are in some pairs. -/
def totalIn (es : List (String × Nat)) : Nat := (es.map Prod.snd).foldr (· + ·) 0

theorem totalIn_bump (t : String) (n : Nat) :
    ∀ es : List (String × Nat), totalIn (bump t n es) = totalIn es + n
  | [] => Nat.add_comm n 0
  | (u, m) :: es => by
      have hcons : ∀ v k fs, totalIn ((v, k) :: fs) = k + totalIn fs := fun _ _ _ => rfl
      unfold bump
      split
      · rw [hcons, hcons]
        omega
      · split
        · rw [hcons, hcons]
          omega
        · rw [hcons, hcons, totalIn_bump t n es]
          omega

theorem total_add (b : Bag) (t : String) (n : Nat) : (b.add t n).total = b.total + n := by
  unfold add
  split
  · exact totalIn_bump t n b.entries
  · omega

theorem total_merge (a b : Bag) : (a.merge b).total = a.total + b.total := by
  have hfold : ∀ (es : List (String × Nat)) (c : Bag),
      (es.foldl (fun c e => c.add e.1 e.2) c).total = c.total + totalIn es := by
    intro es
    induction es with
    | nil => exact fun _ => rfl
    | cons e es ih =>
        intro c
        have hcons : totalIn (e :: es) = e.2 + totalIn es := rfl
        rw [List.foldl_cons, ih, total_add, hcons, Nat.add_assoc]
  exact hfold b.entries a

theorem total_ofList (ts : List String) : (ofList ts).total = ts.length := by
  have hfold : ∀ b : Bag, (ts.foldl (fun b t => b.add t 1) b).total = b.total + ts.length := by
    induction ts with
    | nil => exact fun b => rfl
    | cons t ts ih =>
        intro b
        rw [List.foldl_cons, ih, total_add, List.length_cons]
        omega
  rw [ofList, hfold]
  exact Nat.zero_add _

end ScopeMetrics.Bag
