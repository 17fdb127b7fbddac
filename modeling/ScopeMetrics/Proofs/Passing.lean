import ScopeMetrics.Proofs.Insertion

/-!
# Walking past a node

A walk over a tree and a walk over the same tree with a node `x` put into it go along together.
Above `x` the places differ in their nodes, which read alike; beside `x` they differ in their
neighbours, and below its siblings in what is further up (`Shadows`).  Where `x` is overlooked, the
places stand alike in all three cases.

* `standsAlike_of_siblings`: what a node beside `x`, or beside a node that holds `x`, has to find
  again.
* **`simulation_shadows`**: the places of the two trees are a simulation, so the walks give the
  same, up to what visiting `x` gives (`alike_visit_of_inserts`).
-/

namespace ScopeMetrics

namespace Reading

variable {r : Reading} {x n m : Node} {p q : Place} {lang : Language} {l : Label}
  {before before' after after' front back : List Node} {above : List Crumb}

/-! ### Standing -/

/-- Whether an operator below `parent` opens a new sequence. -/
def opensSequence (parent : Node) (operator : String) : Bool :=
  match leftOperand? parent with
  | none => true
  | some left =>
    left.kind != parent.kind || !left.children.any fun c => !c.named && c.kind == operator

/-- A logical operator finds the left operand again. -/
theorem opensSequence_of_inserts (hx : x.IsInert) (h : Inserts x (r.Overlooks x) n m)
    (hn : (n.children.any fun c => (r.flags c).has .logical) = true) (operator : String) :
    opensSequence n operator = opensSequence m operator := by
  have hkind : n.kind = m.kind := congrArg Label.kind h.label
  have hfound : Found x (r.Overlooks x) (leftOperand? n) (leftOperand? m) :=
    h.first? (field_of_inserts h _ (mem_fieldNames (by decide)))
      fun hsplit hspot => hspot.left (hsplit ▸ hn)
  rw [opensSequence, opensSequence]
  generalize leftOperand? n = o at hfound
  generalize leftOperand? m = o' at hfound
  cases hfound with
  | none => rfl
  | @some a b h =>
      have hleft : a.kind = b.kind := congrArg Label.kind h.label
      have hoperators : (a.children.any fun c => !c.named && c.kind == operator) =
          b.children.any fun c => !c.named && c.kind == operator := by
        rcases h with rfl | h
        · rfl
        · refine h.any_label (q := fun l => !l.named && l.kind == operator) ?_
          have hnamed : x.label.named = true := hx.named
          rw [hnamed]
          rfl
      simp only [hkind, hleft, hoperators]

theorem startsSequence_eq (n : Node) (c : Crumb) (above : List Crumb) :
    startsSequence ⟨n, c :: above⟩ =
      opensSequence (.mk c.label (c.before.reverse ++ n :: c.after)) n.kind := rfl

/-- A node into which `x` is put stands as before. -/
theorem standsAlike_of_inserts (hx : x.IsInert) (h : Inserts x (r.Overlooks x) n m) :
    r.StandsAlike ⟨n, above⟩ ⟨m, above⟩ where
  chain _ _ := rfl
  elseToken _ _ := rfl
  below _ _ := rfl
  sequence hn := by
    have hkind : n.kind = m.kind := congrArg Label.kind h.label
    cases above with
    | nil => rfl
    | cons c above =>
        rw [startsSequence_eq, startsSequence_eq, ← hkind]
        refine opensSequence_of_inserts hx (.within h) ?_ _
        have hn : (r.flags n).has .logical = true := hn
        simp [Node.children, hn]

/-- A node beside `x`, or beside a node that holds `x`, stands as before if it finds an `else` right
before it and an if after it exactly as before. -/
theorem standsAlike_of_siblings (hx : x.IsInert)
    (h : Inserts x (r.Overlooks x) (.mk l (before.reverse ++ n :: after))
      (.mk l (before'.reverse ++ n :: after')))
    (hchain : r.pack.elseContainers.contains l.kind = false → (r.flags n).has .branch = true →
      (r.flags n).has .nesting = true → before.head?.any isElse = before'.head?.any isElse)
    (hnext : n.named = false → (r.flags n).has .else_ = true →
      (after.find? r.isCode).any (fun c => r.pack.isBranch c.label) =
        (after'.find? r.isCode).any fun c => r.pack.isBranch c.label) :
    r.StandsAlike ⟨n, ⟨l, before, after⟩ :: above⟩ ⟨n, ⟨l, before', after'⟩ :: above⟩ where
  chain hb hs := by
    show (r.pack.elseContainers.contains l.kind || before.head?.any isElse) =
      (r.pack.elseContainers.contains l.kind || before'.head?.any isElse)
    cases hl : r.pack.elseContainers.contains l.kind with
    | true => rfl
    | false => rw [hchain hl hb hs]
  elseToken he hn := by
    have hcode : ∀ p : Place, r.nextCode? p = p.following.find? r.isCode := fun _ => rfl
    rw [elseScores, elseScores, hcode, hcode]
    exact congrArg (fun b => _ && !b) (hnext hn he)
  below _ _ := rfl
  sequence hn := by
    rw [startsSequence_eq, startsSequence_eq]
    refine opensSequence_of_inserts hx h ?_ _
    have hn : (r.flags n).has .logical = true := hn
    simp [Node.children, hn]

/-- An anonymous node is no comment. -/
theorem isCode_of_token (hr : r.pack = lang.pack) (hn : n.named = false) : r.isCode n = true := by
  rw [isCode, Bool.not_eq_true', Bool.eq_false_iff]
  intro h
  rw [Reading.flags, hr] at h
  rw [Node.named, (Language.kind_of_comment h).1] at hn
  cases hn

/-- A sibling before `x` stands as before.  If it is an `else` token and only comments part it from
`x`, then no if follows. -/
theorem standsAlike_of_front (hr : r.pack = lang.pack) (hx : x.IsInert) {f₁ f₂ : List Node}
    (hback : back ≠ []) (hspot : r.Overlooks x l (f₁ ++ n :: f₂) back) :
    r.StandsAlike ⟨n, ⟨l, f₁.reverse, f₂ ++ back⟩ :: above⟩
      ⟨n, ⟨l, f₁.reverse, f₂ ++ x :: back⟩ :: above⟩ := by
  refine standsAlike_of_siblings hx ?_ (fun _ _ _ => rfl) fun hn he => ?_
  · simpa using Inserts.here (x := x) (by simp) hback hspot
  · rw [List.find?_append, List.find?_append]
    cases hfind : f₂.find? r.isCode with
    | some a => rfl
    | none =>
        rw [Option.none_or, Option.none_or, List.find?_cons]
        cases hcode : r.isCode x with
        | false => rfl
        | true =>
            have hbranch : r.pack.isBranch x.label = false := hr ▸ hx.not_branch
            -- between `n` and `x` are comments alone: `n` is the last code before `x`
            have hlast : (f₁ ++ n :: f₂).reverse.find? r.isCode = some n := by
              have hcomments : f₂.reverse.find? r.isCode = none := by
                rw [List.find?_eq_none] at hfind ⊢
                exact fun a ha => hfind a (List.mem_reverse.mp ha)
              rw [List.reverse_append, List.reverse_cons, List.append_assoc, List.find?_append,
                hcomments, Option.none_or]
              exact List.find?_cons_of_pos (isCode_of_token hr hn)
            rcases hspot.next with h | h | h
            · rw [hcode] at h
              cases h
            · rw [hlast, Option.any_some, hn, he] at h
              cases h
            · rw [h, Option.any_some, hbranch]

/-- A sibling after `x` stands as before.  If it is an if right behind `x`, then no `else` token is
right before `x`. -/
theorem standsAlike_of_back (hx : x.IsInert) {b₁ b₂ : List Node} (hfront : front ≠ [])
    (hspot : r.Overlooks x l front (b₁ ++ n :: b₂)) :
    r.StandsAlike ⟨n, ⟨l, b₁.reverse ++ front.reverse, b₂⟩ :: above⟩
      ⟨n, ⟨l, b₁.reverse ++ x :: front.reverse, b₂⟩ :: above⟩ := by
  refine standsAlike_of_siblings hx ?_ (fun hl hb hs => ?_) fun _ _ => rfl
  · simpa using Inserts.here (x := x) hfront (by simp) hspot
  · cases b₁ with
    | cons b b₁ => simp [List.head?_append]
    | nil =>
        have helse : isElse x = false := by rw [isElse, hx.named]; rfl
        simp only [List.reverse_nil, List.nil_append, List.head?_reverse, List.head?_cons,
          Option.any_some, helse]
        rcases hspot.chain with h | h | h
        · rw [hl] at h
          cases h
        · exact h
        · rw [List.nil_append, List.head?_cons, Option.any_some, hb, hs] at h
          cases h

/-- A sibling before a node that holds `x` stands as before. -/
theorem standsAlike_before_grown (hx : x.IsInert) {c d : Node} {f₁ f₂ : List Node}
    (h : Inserts x (r.Overlooks x) c d) :
    r.StandsAlike ⟨n, ⟨l, f₁.reverse, f₂ ++ c :: back⟩ :: above⟩
      ⟨n, ⟨l, f₁.reverse, f₂ ++ d :: back⟩ :: above⟩ := by
  refine standsAlike_of_siblings hx ?_ (fun _ _ _ => rfl) fun _ _ => ?_
  · have hparent : Inserts x (r.Overlooks x) (.mk l ((f₁ ++ n :: f₂) ++ c :: back))
        (.mk l ((f₁ ++ n :: f₂) ++ d :: back)) := .within h
    simpa using hparent
  · exact (Found.find?_grown (q := fun l => !(r.pack.flags l).has .comment) h f₂ back).any_label

/-- So does a sibling after it. -/
theorem standsAlike_after_grown (hx : x.IsInert) {c d : Node} {b₁ b₂ : List Node}
    (h : Inserts x (r.Overlooks x) c d) :
    r.StandsAlike ⟨n, ⟨l, b₁.reverse ++ c :: front.reverse, b₂⟩ :: above⟩
      ⟨n, ⟨l, b₁.reverse ++ d :: front.reverse, b₂⟩ :: above⟩ := by
  refine standsAlike_of_siblings hx ?_ (fun _ _ _ => ?_) fun _ _ => rfl
  · have hparent : Inserts x (r.Overlooks x) (.mk l (front ++ c :: (b₁ ++ n :: b₂)))
        (.mk l (front ++ d :: (b₁ ++ n :: b₂))) := .within h
    simpa using hparent
  · cases b₁ with
    | cons b b₁ => simp [List.head?_append]
    | nil => exact congrArg (fun l : Label => !l.named && l.kind == "else") h.label

end Reading

/-! ### Walking along -/

section

variable {R : Place → Place → Prop} {silent : Place → Prop} {l : Label} {above : List Crumb}

/-- The children up to some point, if they are related one by one. -/
theorem Aligned.front {tail tail' : List Node} : ∀ (front before : List Node),
    (∀ f₁ c f₂, front = f₁ ++ c :: f₂ →
      R ⟨c, ⟨l, f₁.reverse ++ before, f₂ ++ tail⟩ :: above⟩
        ⟨c, ⟨l, f₁.reverse ++ before, f₂ ++ tail'⟩ :: above⟩) →
    Aligned R silent (Place.childrenFrom l above (front.reverse ++ before) tail)
      (Place.childrenFrom l above (front.reverse ++ before) tail') →
    Aligned R silent (Place.childrenFrom l above before (front ++ tail))
      (Place.childrenFrom l above before (front ++ tail'))
  | [], _, _, htail => htail
  | c :: front, before, h, htail => by
      refine .cons (h [] c front rfl)
        (Aligned.front front (c :: before) (fun f₁ d f₂ hsplit => ?_) ?_)
      · simpa using h (c :: f₁) d f₂ (by rw [hsplit]; rfl)
      · simpa using htail

/-- The children from some point on, if they are related one by one. -/
theorem Aligned.back : ∀ (back before before' : List Node),
    (∀ b₁ c b₂, back = b₁ ++ c :: b₂ → R ⟨c, ⟨l, b₁.reverse ++ before, b₂⟩ :: above⟩
      ⟨c, ⟨l, b₁.reverse ++ before', b₂⟩ :: above⟩) →
    Aligned R silent (Place.childrenFrom l above before back)
      (Place.childrenFrom l above before' back)
  | [], _, _, _ => .nil
  | c :: back, before, before', h => by
      refine .cons (h [] c back rfl) (Aligned.back back _ _ fun b₁ d b₂ hsplit => ?_)
      simpa using h (c :: b₁) d b₂ (by rw [hsplit]; rfl)

theorem Aligned.mono {R' : Place → Place → Prop} (hR : ∀ p q, R p q → R' p q) {ps qs : List Place}
    (h : Aligned R silent ps qs) : Aligned R' silent ps qs := by
  induction h with
  | nil => exact .nil
  | cons hpq _ ih => exact .cons (hR _ _ hpq) ih
  | extra hq _ ih => exact .extra hq ih

end

namespace Reading

variable {r : Reading} {x : Node} {lang : Language} {keep : Event → Bool}

/-- How a place of a tree is found again when `x` is put into the tree: `x` is put into its node, or
the node is the same and stands as before. -/
inductive Shadows (r : Reading) (x : Node) : Place → Place → Prop where
  | above {n m : Node} {above : List Crumb} (h : Inserts x (r.Overlooks x) n m) :
      Shadows r x ⟨n, above⟩ ⟨m, above⟩
  | beside {n : Node} {above above' : List Crumb}
      (hparent : above.head?.map (·.label.bare) = above'.head?.map (·.label.bare))
      (hstands : r.StandsAlike ⟨n, above⟩ ⟨n, above'⟩) : Shadows r x ⟨n, above⟩ ⟨n, above'⟩

/-- The children of a node into which `x` is put are found again, and `x` is passed over. -/
theorem aligned_of_inserts (hr : r.pack = lang.pack) (hx : x.IsInert)
    (hsilent : ∀ above, r.IsSilent keep ⟨x, above⟩) {n m : Node}
    (h : Inserts x (r.Overlooks x) n m) (above : List Crumb) :
    Aligned (r.Shadows x) (r.IsSilent keep) (Place.children ⟨n, above⟩)
      (Place.children ⟨m, above⟩) := by
  cases h with
  | @here l front back hfront hback hspot =>
      refine .front front [] (fun f₁ c f₂ hsplit => ?_) (.extra (hsilent _) (.back _ _ _ ?_))
      · subst hsplit
        rw [List.append_nil]
        exact .beside rfl (standsAlike_of_front hr hx hback hspot)
      · intro b₁ c b₂ hsplit
        subst hsplit
        rw [List.append_nil]
        exact .beside rfl (standsAlike_of_back hx hfront hspot)
  | @within l front back c d h =>
      refine .front front [] (fun f₁ a f₂ _ => ?_) (.cons (.above h) (.back _ _ _ ?_))
      · rw [List.append_nil]
        exact .beside rfl (standsAlike_before_grown hx h)
      · intro b₁ a b₂ _
        rw [List.append_nil]
        exact .beside rfl (standsAlike_after_grown hx h)

/-- **A walk passes over a node that is overlooked.**  The places of a tree and those of the tree
with the node put into it are a simulation. -/
theorem simulation_shadows (hr : r.pack = lang.pack) (hx : x.IsInert)
    (hsilent : ∀ above, r.IsSilent keep ⟨x, above⟩) : r.Simulation keep (r.Shadows x) where
  reads h := by
    cases h with
    | above h => exact readsAlike_of_inserts hr hx h
    | beside => exact .refl r _
  stands h := by
    cases h with
    | above h => exact standsAlike_of_inserts hx h
    | beside _ h => exact h
  below h := by
    cases h with
    | above h => exact aligned_of_inserts hr hx hsilent h _
    | beside hparent =>
        -- further down, the crumbs differ in the neighbours of nodes above the parent alone
        refine (aligned_children rfl (fun _ => hparent) []).mono ?_
        rintro ⟨n, above⟩ ⟨m, above'⟩ ⟨rfl, hsees⟩
        refine .beside ?_ (standsAlike_of_seesAlike hsees _)
        obtain ⟨hlabel, -⟩ := hsees
        exact congrArg some hlabel

/-- So walking a whole tree gives the same, up to what visiting the node gives. -/
theorem alike_visit_of_inserts (hr : r.pack = lang.pack) (hx : x.IsInert)
    (hsilent : ∀ above, r.IsSilent keep ⟨x, above⟩) {root root' : Node}
    (h : Inserts x (r.Overlooks x) root root') :
    Yield.Alike keep (r.visit [] { kind := .unit, opener := root } none root)
      (r.visit [] { kind := .unit, opener := root' } none root') := by
  have hs : Surroundings.Alike { kind := .unit, opener := root }
      { kind := .unit, opener := root' } := ⟨rfl, congrArg Label.kind h.label, rfl, rfl⟩
  exact (simulation_shadows hr hx hsilent).visit hr (.root root) (.root root') (.above h) hs none

end Reading

end ScopeMetrics
