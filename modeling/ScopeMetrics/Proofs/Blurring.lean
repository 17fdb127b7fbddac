import ScopeMetrics.Proofs.Forgetting
import ScopeMetrics.Proofs.Tokens

/-!
# Metrics that do not tell operators from operands

Whether a token is an operator or an operand shows in the two bags of the Halstead measures and in
the index derived from them.  Put into one bag, the tokens are the same.

* `Category.Alike`: categories with the same flags apart from those of tokens.
* `Tally.pooled_ofEvents`: a tally with its bags pooled does not tell operators from operands.
* `Draft.pooled_spaces`: nor do the spaces of a unit.
-/

namespace ScopeMetrics

/-! ### Categories up to tokens -/

namespace Category

/-- Whether two categories have the same flags, those of tokens apart. -/
def Alike (c d : Category) : Prop := ∀ f, token.has f = false → c.has f = d.has f

/-- A category that does not tell operators from operands. -/
def blurred (c : Category) : Category := if c.meets .token then c ∪ .token else c

variable {b b' : Bool} {c d : Category}

theorem Alike.meets_scope (h : c.Alike d) : c.meets .scope = d.meets .scope :=
  meets_congr fun f hf => h f (not_token_of_scope hf)

theorem Alike.ite_diff (h : c.Alike d) (hb : b = b') (e : Category) :
    (if b then c \ e else c).Alike (if b' then d \ e else d) := by
  subst hb
  intro f hf
  split
  · rw [has_diff, has_diff, h f hf]
  · exact h f hf

theorem has_blurred {f : Flag} (hf : token.has f = false) (c : Category) :
    c.blurred.has f = c.has f := by
  unfold blurred
  split
  · rw [has_union, hf, Bool.or_false]
  · rfl

theorem has_blurred_of_token {f : Flag} (hf : token.has f = true) (c : Category) :
    c.blurred.has f = c.meets .token := by
  unfold blurred
  cases hm : c.meets .token with
  | true => rw [if_pos rfl, has_union, hf, Bool.or_true]
  | false =>
      rw [if_neg Bool.false_ne_true, Bool.eq_false_iff]
      intro h
      rw [meets_iff.mpr ⟨f, h, hf⟩] at hm
      cases hm

/-- Categories that are alike, and both or neither that of a token, blur to the same. -/
theorem Alike.blurred (h : c.Alike d) (ht : c.meets .token = d.meets .token) :
    c.blurred = d.blurred := by
  refine ext_has fun f => ?_
  cases hf : token.has f with
  | false => rw [has_blurred hf, has_blurred hf, h f hf]
  | true => rw [has_blurred_of_token hf, has_blurred_of_token hf, ht]

theorem blurred_eq_empty : c.blurred = ∅ ↔ c = ∅ := by
  constructor
  · intro h
    refine ext_has fun f => ?_
    rw [has_empty, Bool.eq_false_iff]
    intro hf
    have hblurred : c.blurred.has f = true := by
      unfold blurred
      split
      · rw [has_union, hf, Bool.true_or]
      · exact hf
    rw [h, has_empty] at hblurred
    cases hblurred
  · rintro rfl
    rfl

theorem meets_code_blurred (c : Category) : c.blurred.meets .code = c.meets .code := by
  have hblurred : c.blurred.meets .code =
      (c.meets .token || (c.meets .token || (c.has .terminator || c.has .delimiter))) := by
    simp only [code, meets_insert, meets_singleton, has_blurred_of_token (f := .operator) rfl,
      has_blurred_of_token (f := .operand) rfl, has_blurred (f := .terminator) rfl,
      has_blurred (f := .delimiter) rfl]
  rw [hblurred, meets_token]
  simp only [code, meets_insert, meets_singleton]
  cases c.has .operator <;> cases c.has .operand <;> rfl

end Category

/-! ### Metrics up to tokens -/

/-- An event that does not tell operators from operands. -/
def Event.blurred (e : Event) : Event := { e with category := e.category.blurred }

theorem Event.has_blurred {f : Flag} (hf : Category.token.has f = false) (e : Event) :
    e.blurred.has f = e.has f :=
  Category.has_blurred hf e.category

/-- One bag for the operators and the operands. -/
def Halstead.pooled (h : Halstead) : Halstead where
  operators := h.operators.merge h.operands

theorem Halstead.pooled_combine (a b : Halstead) :
    (a.combine b).pooled = (a.pooled.combine b.pooled).pooled := by
  have hbag : (a.combine b).pooled.operators = (a.pooled.combine b.pooled).pooled.operators := by
    refine Bag.ext_count fun t => ?_
    simp only [pooled, combine, Bag.count_merge]
    have hempty : (∅ : Bag).count t = 0 := rfl
    omega
  exact congrArg (fun bag => Halstead.mk bag ∅) hbag

theorem Halstead.length_pooled (h : Halstead) : h.pooled.length = h.length :=
  Bag.total_merge h.operators h.operands

namespace Tally

/-- A tally with one bag for the operators and the operands. -/
def pooled (t : Tally) : Tally := { t with halstead := t.halstead.pooled }

theorem pooled_halsteadOf (e : Event) : (halsteadOf e.blurred).pooled = (halsteadOf e).pooled := by
  have hblurred : ∀ f, Category.token.has f = true →
      e.blurred.has f = (e.has .operator || e.has .operand) := fun f hf =>
    (Category.has_blurred_of_token hf e.category).trans (Category.meets_token e.category)
  have htext : e.blurred.text = e.text := rfl
  rw [halsteadOf, halsteadOf, hblurred .operator rfl, hblurred .operand rfl, htext]
  cases e.has .operator with
  | true => rfl
  | false =>
      cases e.has .operand with
      | true => exact congrArg (fun bag => Halstead.mk bag ∅) (Bag.merge_comm (.single e.text) ∅)
      | false => rfl

theorem pooled_ofEvent (e : Event) : (ofEvent e.blurred).pooled = (ofEvent e).pooled := by
  have hcallable : e.blurred.category.meets .callable = e.category.meets .callable := by
    rw [Category.meets_callable, Category.meets_callable, Event.blurred,
      Category.has_blurred (f := .function) rfl, Category.has_blurred (f := .closure) rfl]
  have hcode : e.blurred.category.meets .code = e.category.meets .code :=
    Category.meets_code_blurred _
  simp only [pooled, ofEvent, scoreOf, methodsOf, argumentsOf, membersOf, Event.opensCallable,
    Event.opensClass, hcallable, hcode, pooled_halsteadOf, Event.has_blurred (f := .decision) rfl,
    Event.has_blurred (f := .nesting) rfl, Event.has_blurred (f := .else_) rfl,
    Event.has_blurred (f := .logical) rfl, Event.has_blurred (f := .assignment) rfl,
    Event.has_blurred (f := .call) rfl, Event.has_blurred (f := .condition) rfl,
    Event.has_blurred (f := .comment) rfl, Event.has_blurred (f := .statement) rfl,
    Event.has_blurred (f := .closure) rfl, Event.has_blurred (f := .exit) rfl,
    Event.has_blurred (f := .class_) rfl, Event.has_blurred (f := .function) rfl,
    Event.has_blurred (f := .attribute) rfl]
  rfl

theorem pooled_merge (a b : Tally) : (a.merge b).pooled = (a.pooled.merge b.pooled).pooled :=
  congrArg (fun h => { a.merge b with halstead := h }) (a.halstead.pooled_combine b.halstead)

/-- A tally with its bags pooled does not tell operators from operands. -/
theorem pooled_ofEvents (es : List Event) :
    (ofEvents (es.map Event.blurred)).pooled = (ofEvents es).pooled := by
  have hfold : ∀ {t u : Tally}, t.pooled = u.pooled →
      ((es.map Event.blurred).foldl observe t).pooled = (es.foldl observe u).pooled := by
    induction es with
    | nil => exact fun h => h
    | cons e es ih =>
        intro t u h
        refine ih ?_
        rw [observe, observe, pooled_merge, h, pooled_ofEvent, ← pooled_merge]
  exact hfold rfl

end Tally

/-- A bundle with one bag for the operators and the operands, and without the index that is derived
from them. -/
def Bundle.pooled (b : Bundle) : Bundle :=
  { b with halstead := b.halstead.pooled, maintainability := .ok {} }

theorem Bundle.forgets_pooled : Forgets pooled where
  combine a b := congrArg
    (fun h => { a.combine b with halstead := h, maintainability := .ok {} })
    (a.halstead.pooled_combine b.halstead)
  derive _ := rfl
  cyclomatic _ := rfl

namespace Frame

/-- A body with other events. -/
def Body.mapEvents (t : Event → Event) (b : Body) : Body := { b with events := b.events.map t }

theorem mapBodies_id (f : Frame) : f.mapBodies (Body.mapEvents id) = f := by
  induction f with
  | mk body inside ih =>
      rw [mapBodies_mk, List.map_congr_left ih, List.map_id', Body.mapEvents, List.map_id]

/-- A body whose events do not tell operators from operands. -/
def Body.blurred : Body → Body := mapEvents Event.blurred

theorem Body.pooled_blurred (b : Body) : b.blurred.tally.pooled = b.tally.pooled :=
  Tally.pooled_ofEvents b.events

/-- With the bags pooled it does not show which tokens are operators. -/
theorem hides_blurred (use : LineUse) : Hides Bundle.pooled Body.blurred use use where
  forgets := Bundle.forgets_pooled
  scope _ := rfl
  own b lines inside := by
    have hscope : b.blurred.scope = b.scope := rfl
    have htally := b.pooled_blurred
    simp only [Tally.pooled, Tally.mk.injEq] at htally
    simp only [Parcel.ownBundle, Bundle.pooled, Bundle.derive, Tally.cognitive,
      Tally.exitCounts, hscope, htally]

theorem codeLines_blurred (f : Frame) : (f.mapBodies Body.blurred).codeLines = f.codeLines := by
  have hlines : ∀ b : Body, b.blurred.tally.codeLines = b.tally.codeLines := by
    intro b
    have htally := congrArg Tally.codeLines b.pooled_blurred
    exact htally
  exact foldl_union_mapBodies hlines f

theorem commentLines_blurred (f : Frame) :
    (f.mapBodies Body.blurred).commentLines = f.commentLines := by
  have hlines : ∀ b : Body, b.blurred.tally.commentLines = b.tally.commentLines := by
    intro b
    have htally := congrArg Tally.commentLines b.pooled_blurred
    exact htally
  exact foldl_union_mapBodies hlines f

end Frame

/-- Drafts that differ in which tokens are operators have the same spaces, with the bags pooled
and the index apart. -/
theorem Draft.pooled_spaces {d d' : Draft}
    (hunit : d.unit.mapBodies Frame.Body.blurred = d'.unit.mapBodies Frame.Body.blurred)
    (hblank : d.blankLines = d'.blankLines) :
    (d.unit.survey.space d.lineUse).mapBundles Bundle.pooled =
      (d'.unit.survey.space d'.lineUse).mapBundles Bundle.pooled := by
  have huse : d.lineUse = d'.lineUse := by
    rw [lineUse, lineUse, ← d.unit.codeLines_blurred, ← d.unit.commentLines_blurred, hunit, hblank,
      d'.unit.codeLines_blurred, d'.unit.commentLines_blurred]
  rw [← (Frame.hides_blurred _).mapBundles_survey d.unit, hunit,
    (Frame.hides_blurred _).mapBundles_survey d'.unit, huse]

end ScopeMetrics
