import ScopeMetrics.Proofs.Classification
import ScopeMetrics.Proofs.Places

/-!
# One step of the walk

What a walk does at a place, in the four cases that it tells apart: an error, a scope opener, a
comment and any other node (`visit_error`, `visit_opener`, `visit_comment`, `visit_plain`).  The
nodes below are visited one after the other, each with the access that those before it leave
(`visitEach`).

So what holds of the three kinds of event a node can give holds of every event of a walk
(`forall_mem_bodies_walk`).
-/

namespace ScopeMetrics

namespace Reading

variable {r : Reading} {s : Surroundings} {access : Option Bool} {p : Place}

/-- Whether a node opens a scope.  An error has no category and opens none. -/
def opensScope (r : Reading) (p : Place) : Bool := (r.classify p).meets .scope

/-- Whether what is inside a node is looked at. -/
def isEntered (r : Reading) (p : Place) : Bool :=
  !p.node.isError && !(r.classify p).has .comment

theorem isError_of_opensScope (h : r.opensScope p = true) : p.node.isError = false := by
  rw [Bool.eq_false_iff]
  intro he
  rw [opensScope, classify_of_isError he] at h
  revert h
  decide

theorem not_comment_of_opensScope (h : r.opensScope p = true) :
    (r.classify p).has .comment = false := by
  rw [Bool.eq_false_iff]
  intro hc
  rw [opensScope, classify_eq_comment hc] at h
  revert h
  decide

theorem isError_of_comment (h : (r.classify p).has .comment = true) : p.node.isError = false := by
  rw [Bool.eq_false_iff]
  intro he
  rw [classify_of_isError he, Category.has_empty] at h
  cases h

theorem opensScope_of_comment (h : (r.classify p).has .comment = true) :
    r.opensScope p = false := by
  rw [Bool.eq_false_iff]
  intro ho
  rw [not_comment_of_opensScope ho] at h
  cases h

/-- A scope opener is entered. -/
theorem isEntered_of_opensScope (h : r.opensScope p = true) : r.isEntered p = true := by
  rw [isEntered, isError_of_opensScope h, not_comment_of_opensScope h]
  rfl

/-- A scope opener has the flag of a scope in the tables. -/
theorem meets_scope_flags (ho : r.opensScope p = true) : (r.flags p.node).meets .scope = true := by
  obtain ⟨f, hf, hs⟩ := Category.meets_iff.mp ho
  refine Category.meets_iff.mpr ⟨f, ?_, hs⟩
  rcases has_classify hf with rfl | rfl | rfl | hf
  · cases hs
  · cases hs
  · cases hs
  · exact hf

/-- A node is an error, a comment, a scope opener, or none of these and entered. -/
theorem place_cases (r : Reading) (p : Place) :
    p.node.isError = true ∨ (r.classify p).has .comment = true ∨ r.opensScope p = true ∨
      r.isEntered p = true ∧ r.opensScope p = false := by
  by_cases he : p.node.isError = true
  · exact .inl he
  by_cases hc : (r.classify p).has .comment = true
  · exact .inr (.inl hc)
  by_cases ho : r.opensScope p = true
  · exact .inr (.inr (.inl ho))
  · rw [Bool.not_eq_true] at he hc ho
    refine .inr (.inr (.inr ⟨?_, ho⟩))
    rw [isEntered, he, hc]
    rfl

theorem not_isEntered_of_isError (h : p.node.isError = true) : r.isEntered p = false := by
  rw [isEntered, h]
  rfl

theorem not_isEntered_of_comment (h : (r.classify p).has .comment = true) :
    r.isEntered p = false := by
  rw [isEntered, h, Bool.not_true, Bool.and_false]

theorem isError_of_isEntered (h : r.isEntered p = true) : p.node.isError = false := by
  rw [isEntered, Bool.and_eq_true, Bool.not_eq_true'] at h
  exact h.1

theorem not_comment_of_isEntered (h : r.isEntered p = true) :
    (r.classify p).has .comment = false := by
  rw [isEntered, Bool.and_eq_true, Bool.not_eq_true', Bool.not_eq_true'] at h
  exact h.2

theorem opensScope_of_isError (h : p.node.isError = true) : r.opensScope p = false := by
  rw [opensScope, classify_of_isError h]
  decide

/-! ### The nodes below -/

/-- What places add that are visited one after the other. -/
def visitEach (r : Reading) (s : Surroundings) : Option Bool → List Place → Yield
  | access, [] => { access }
  | access, p :: ps =>
    let first := r.visit p.above s access p.node
    first.andThen (r.visitEach s first.access ps)

theorem visitAll_eq (r : Reading) (l : Label) (above : List Crumb) (s : Surroundings) :
    ∀ (cs before : List Node) (access : Option Bool),
      r.visitAll l above s before access cs =
        r.visitEach s access (Place.childrenFrom l above before cs)
  | [], _, _ => by
      rw [visitAll]
      rfl
  | c :: cs, before, access => by
      rw [visitAll, Place.childrenFrom, visitEach, visitAll_eq r l above s cs]

/-! ### The cases -/

theorem visit_error (he : p.node.isError = true) :
    r.visit p.above s access p.node = { access, visited := 1, skipped := 1 } := by
  obtain ⟨⟨l, cs⟩, above⟩ := p
  have he' : l.isError = true := he
  rw [visit, if_pos he']

/-- A scope opener starts a frame, and tells the frame around it of a method. -/
theorem visit_opener (ho : r.opensScope p = true) :
    r.visit p.above s access p.node =
      let c := r.categoryIn s p
      let after := r.accessAfter s access p.node
      let inner := r.visitEach (opened s p.node c) (r.startAccess p.node (.ofCategory c)) p.children
      { access := after
        events := r.methodEvent s after p.node c
        frames := [.mk { scope := r.scopeOf p.node c
                         access := inner.access
                         events := r.openingEvent p.node c :: inner.events } inner.frames]
        visited := inner.visited + 1
        skipped := inner.skipped } := by
  have he := isError_of_opensScope ho
  obtain ⟨⟨l, cs⟩, above⟩ := p
  have he' : ¬ l.isError = true := by rw [Bool.not_eq_true]; exact he
  have ho' : (r.categoryIn s ⟨.mk l cs, above⟩).meets .scope = true := by
    rw [meets_scope_categoryIn]
    exact ho
  simp only [visit, if_neg he', if_pos ho', visitAll_eq]
  rfl

/-- A comment gives its event and is not entered. -/
theorem visit_comment (hc : (r.classify p).has .comment = true) :
    r.visit p.above s access p.node =
      let after := r.accessAfter s access p.node
      { access := after, events := r.nodeEvent s after p (r.categoryIn s p), visited := 1 } := by
  have he := isError_of_comment hc
  have ho := opensScope_of_comment hc
  obtain ⟨⟨l, cs⟩, above⟩ := p
  have he' : ¬ l.isError = true := by rw [Bool.not_eq_true]; exact he
  have ho' : ¬ (r.categoryIn s ⟨.mk l cs, above⟩).meets .scope = true := by
    rw [meets_scope_categoryIn, Bool.not_eq_true]
    exact ho
  have hc' : (r.categoryIn s ⟨.mk l cs, above⟩).has .comment = true := by
    rw [has_categoryIn (by decide)]
    exact hc
  simp only [visit, if_neg he', if_neg ho', if_pos hc']

/-- Any other node gives its event, and then what is below it adds to the same frame. -/
theorem visit_plain (hi : r.isEntered p = true) (ho : r.opensScope p = false) :
    r.visit p.above s access p.node =
      let c := r.categoryIn s p
      let after := r.accessAfter s access p.node
      Yield.andThen { access := after, events := r.nodeEvent s after p c, visited := 1 }
        (r.visitEach (r.entered s p.node c) after p.children) := by
  have he := isError_of_isEntered hi
  have hc := not_comment_of_isEntered hi
  obtain ⟨⟨l, cs⟩, above⟩ := p
  have he' : ¬ l.isError = true := by rw [Bool.not_eq_true]; exact he
  have ho' : ¬ (r.categoryIn s ⟨.mk l cs, above⟩).meets .scope = true := by
    rw [meets_scope_categoryIn, Bool.not_eq_true]
    exact ho
  have hc' : ¬ (r.categoryIn s ⟨.mk l cs, above⟩).has .comment = true := by
    rw [has_categoryIn (by decide), Bool.not_eq_true]
    exact hc
  simp only [visit, if_neg he', if_neg ho', if_neg hc', visitAll_eq]
  rfl

/-! ### What all events have in common -/

/-- Whether `P` holds of every event that nodes add to their frame or put into frames of their own,
and these frames are all closed. -/
structure Emits (P : Event → Prop) (y : Yield) : Prop where
  events : ∀ e ∈ y.events, P e
  frames : ∀ f ∈ y.frames, ∀ b ∈ f.bodies, b.closed = true ∧ ∀ e ∈ b.events, P e

variable {P : Event → Prop}

theorem Emits.andThen {y z : Yield} (hy : Emits P y) (hz : Emits P z) : Emits P (y.andThen z) where
  events e he := (List.mem_append.mp he).elim (hy.events e) (hz.events e)
  frames f hf := (List.mem_append.mp hf).elim (hy.frames f) (hz.frames f)

theorem emits_visitEach : ∀ (ps : List Place) (access : Option Bool),
    (∀ p ∈ ps, ∀ access, Emits P (r.visit p.above s access p.node)) →
      Emits P (r.visitEach s access ps)
  | [], _, _ => ⟨fun _ he => absurd he List.not_mem_nil, fun _ hf => absurd hf List.not_mem_nil⟩
  | p :: ps, access, h =>
      (h p List.mem_cons_self access).andThen
        (emits_visitEach ps _ fun q hq => h q (List.mem_cons_of_mem p hq))

/-- What holds of the three kinds of event holds of every event of a visit. -/
theorem emits_visit (hopening : ∀ n c, P (r.openingEvent n c))
    (hmethod : ∀ s access n c, ∀ e ∈ r.methodEvent s access n c, P e)
    (hnode : ∀ s access p, ∀ e ∈ r.nodeEvent s access p (r.categoryIn s p), P e) :
    ∀ (p : Place) (s : Surroundings) (access : Option Bool),
      Emits P (r.visit p.above s access p.node) := by
  intro p
  induction p using Place.induct with
  | h p ih =>
      intro s access
      rcases r.place_cases p with he | hc | ho | ⟨hi, ho⟩
      · rw [visit_error he]
        exact ⟨fun _ he => absurd he List.not_mem_nil, fun _ hf => absurd hf List.not_mem_nil⟩
      · rw [visit_comment hc]
        exact ⟨hnode _ _ _, fun _ hf => absurd hf List.not_mem_nil⟩
      · rw [visit_opener ho]
        have hinner := emits_visitEach (s := opened s p.node (r.categoryIn s p)) p.children
          (r.startAccess p.node (.ofCategory (r.categoryIn s p))) fun q hq => ih q hq _
        refine ⟨hmethod _ _ _ _, fun f hf b hb => ?_⟩
        obtain rfl := List.mem_singleton.mp hf
        rw [Frame.bodies, Frame.bodiesAll_eq] at hb
        rcases List.mem_cons.mp hb with rfl | hb
        · refine ⟨rfl, fun e he => ?_⟩
          rcases List.mem_cons.mp he with rfl | he
          · exact hopening _ _
          · exact hinner.events e he
        · obtain ⟨g, hg, hb⟩ := List.mem_flatMap.mp hb
          exact hinner.frames g hg b hb
      · rw [visit_plain hi ho]
        exact Emits.andThen ⟨hnode _ _ _, fun _ hf => absurd hf List.not_mem_nil⟩
          (emits_visitEach _ _ fun q hq => ih q hq _)

/-- All frames of a walk are closed, and what holds of the three kinds of event holds of every
event in them. -/
theorem forall_mem_bodies_walk (hopening : ∀ n c, P (r.openingEvent n c))
    (hmethod : ∀ s access n c, ∀ e ∈ r.methodEvent s access n c, P e)
    (hnode : ∀ s access p, ∀ e ∈ r.nodeEvent s access p (r.categoryIn s p), P e)
    (name : Option String) (root : Node) :
    ∀ b ∈ (r.walk name root).draft.unit.bodies, b.closed = true ∧ ∀ e ∈ b.events, P e := by
  have hinner :=
    emits_visit hopening hmethod hnode ⟨root, []⟩ { kind := .unit, opener := root } none
  intro b hb
  rw [walk, Frame.bodies, Frame.bodiesAll_eq] at hb
  rcases List.mem_cons.mp hb with rfl | hb
  · exact ⟨rfl, hinner.events⟩
  · obtain ⟨f, hf, hb⟩ := List.mem_flatMap.mp hb
    exact hinner.frames f hf b hb

end Reading

end ScopeMetrics
