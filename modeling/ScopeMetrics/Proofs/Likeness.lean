import ScopeMetrics.Proofs.Tables

/-!
# Walks over trees that read alike

A walk reads little of a tree at each step: the label of a node, a few children, its parent and its
neighbours.  Two nodes *read alike* (`ReadsAlike`) when what is read of them and their children is
the same, and two places *stand alike* (`StandsAlike`) when what is read around them is the same.
Then they have the same category (`classify_congr`).

A relation between places is a *simulation* when related places read and stand alike and their
children are related in order; on the right there may be further children, if visiting them gives
nothing but events that are not kept.

**Simulations carry over to walks** (`Simulation.visit`).  Visiting related places gives the same
access, the same events and the same frames, up to events that are not kept.  The same node is
related to itself in two surroundings that look the same to it (`simulation_seesAlike`).
-/

namespace ScopeMetrics

/-- A label without the field under which the parent holds the node. -/
def Label.bare (l : Label) : Label := { l with field := none }

/-- Labels that are the same without their fields differ in the field alone. -/
theorem Label.exists_of_bare {l m : Label} (h : l.bare = m.bare) : ∃ f, m = { l with field := f } :=
  ⟨m.field, by cases l; cases m; simp_all [bare]⟩

namespace Reading

/-- Whether two nodes read alike: the label apart from the field, and what the rules look up among
the children. -/
structure ReadsAlike (r : Reading) (n m : Node) : Prop where
  label : n.label.bare = m.label.bare
  leaf : n.isLeaf = m.isLeaf
  body : (n.field? "body").isNone = (m.field? "body").isNone
  defaultLabel : isDefaultLabel n = isDefaultLabel m
  wildcard : r.pack.wildcardArms.contains n.kind = true → r.isWildcardArm n = r.isWildcardArm m
  value : givesValue n = givesValue m
  exitValue : r.pack.valuedExits.contains n.kind = true → carriesValue n = carriesValue m
  method : r.declaresMethod n = r.declaresMethod m
  name : ∀ c, r.spaceName n c = r.spaceName m c
  arity : r.arity n = r.arity m
  visible : ∀ container access, r.isPublic n container access = r.isPublic m container access

/-- Whether two places stand alike.  A rule that looks around applies to nodes with some flag, so
only for these nodes it matters what it finds. -/
structure StandsAlike (r : Reading) (p q : Place) : Prop where
  chain : (r.flags p.node).has .branch = true → (r.flags p.node).has .nesting = true →
    r.continuesChain p = r.continuesChain q
  elseToken : (r.flags p.node).has .else_ = true → p.named = false →
    r.elseScores p = r.elseScores q
  below : (r.flags p.node).has .condition = true → ∀ kinds, isBelow p kinds = isBelow q kinds
  sequence : (r.flags p.node).has .logical = true → startsSequence p = startsSequence q

variable {r : Reading} {n m : Node} {p q : Place} {lang : Language}

namespace ReadsAlike

section

variable (h : r.ReadsAlike n m)
include h

theorem read {α : Type} (f : Label → α) : f n.label.bare = f m.label.bare := congrArg f h.label

theorem kind : n.kind = m.kind := h.read Label.kind
theorem named : n.named = m.named := h.read Label.named
theorem isError : n.isError = m.isError := h.read Label.isError
theorem text : r.text n = r.text m := h.read r.source.text
theorem flags : r.flags n = r.flags m := h.read r.pack.flags
theorem isComposite : r.isComposite n = r.isComposite m := h.read r.pack.isComposite

theorem startLine : r.source.startLine n.label = r.source.startLine m.label :=
  h.read r.source.startLine

theorem endLine : r.source.endLine n.label = r.source.endLine m.label := h.read r.source.endLine

theorem tokenRule (c : Category) : r.tokenRule n c = r.tokenRule m c := by
  have hempty : n.isEmpty = m.isEmpty := h.read fun l => l.start == l.stop
  have hmacro : r.isMacro n = r.isMacro m := by rw [isMacro, isMacro, h.text]
  rw [Reading.tokenRule, Reading.tokenRule, h.isComposite, h.leaf, h.named, hmacro, hempty]

end

/-! ### Categories

The rules that look at a node and its children alone. -/

variable (h : r.ReadsAlike p.node q.node)
include h

theorem placeKind : p.kind = q.kind := h.kind
theorem placeNamed : p.named = q.named := h.named

theorem bodyRule (c : Category) : r.bodyRule p c = r.bodyRule q c := by
  rw [Reading.bodyRule, Reading.bodyRule, h.placeKind, h.body]

theorem defaultLabelRule (c : Category) : r.defaultLabelRule p c = r.defaultLabelRule q c := by
  rw [Reading.defaultLabelRule, Reading.defaultLabelRule, h.placeKind, h.defaultLabel]

theorem wildcardRule (c : Category) : r.wildcardRule p c = r.wildcardRule q c := by
  rw [Reading.wildcardRule, Reading.wildcardRule, ← h.placeKind]
  cases hk : r.pack.wildcardArms.contains p.kind with
  | true => rw [h.wildcard hk]
  | false => rw [Bool.and_false, Bool.false_and, Bool.false_and]

theorem assignmentRule (c : Category) : r.assignmentRule p c = r.assignmentRule q c := by
  rw [Reading.assignmentRule, Reading.assignmentRule, h.placeKind, h.value]

theorem exitRule (c : Category) : r.exitRule p c = r.exitRule q c := by
  rw [Reading.exitRule, Reading.exitRule, ← h.placeKind]
  cases hk : r.pack.valuedExits.contains p.kind with
  | true => rw [h.exitValue hk]
  | false => rw [Bool.and_false, Bool.false_and, Bool.false_and]

theorem attributeRule (c : Category) : r.attributeRule p c = r.attributeRule q c := by
  rw [Reading.attributeRule, Reading.attributeRule, h.method]

end ReadsAlike

/-! The rules that look around. -/

namespace StandsAlike

variable (h : r.StandsAlike p q) {c : Category}
include h

theorem chainRule (hb : c.has .branch = true → (r.flags p.node).has .branch = true)
    (hs : c.has .nesting = true → (r.flags p.node).has .nesting = true) :
    r.chainRule p c = r.chainRule q c := by
  rw [Reading.chainRule, Reading.chainRule]
  by_cases hcb : c.has .branch = true
  · by_cases hcs : c.has .nesting = true
    · rw [h.chain (hb hcb) (hs hcs)]
    · simp [hcs]
  · simp [hcb]

theorem elseRule (hn : p.named = q.named)
    (he : p.named = false → c.has .else_ = true → (r.flags p.node).has .else_ = true) :
    r.elseRule p c = r.elseRule q c := by
  rw [Reading.elseRule, Reading.elseRule, ← hn]
  by_cases hc : c.has .else_ = true
  · cases hp : p.named with
    | true => simp
    | false => rw [h.elseToken (he hp hc) hp]
  · simp [hc]

theorem comparisonRule (hk : p.kind = q.kind)
    (hc : c.has .condition = true → (r.flags p.node).has .condition = true) :
    r.comparisonRule p c = r.comparisonRule q c := by
  rw [Reading.comparisonRule, Reading.comparisonRule, ← hk]
  by_cases hcc : c.has .condition = true
  · rw [h.below (hc hcc)]
  · simp [hcc]

theorem defaultTokenRule (hk : p.kind = q.kind) (hn : p.named = q.named)
    (hc : c.has .condition = true → (r.flags p.node).has .condition = true) :
    r.defaultTokenRule p c = r.defaultTokenRule q c := by
  rw [Reading.defaultTokenRule, Reading.defaultTokenRule, ← hk, ← hn]
  by_cases hcc : c.has .condition = true
  · rw [h.below (hc hcc)]
  · simp [hcc]

end StandsAlike

/-- What the rules up to the one about chains leave of a flag was in the base flags. -/
theorem has_of_has_bodyRule {c : Category} {f : Flag} (hf : Category.token.has f = false)
    (h : (r.bodyRule p (r.tokenRule p.node c)).has f = true) : c.has f = true := by
  rcases has_tokenRule (Category.has_of_ite_diff h) with rfl | rfl | h
  · cases hf
  · cases hf
  · exact h

/-- The rule about chains gives the flag of an `else` only to an if. -/
theorem else_of_has_chainRule {c : Category} (h : (r.chainRule p c).has .else_ = true) :
    c.has .else_ = true ∨ c.has .branch = true := by
  unfold chainRule at h
  split at h
  · rename_i hc
    rw [Bool.and_eq_true, Bool.and_eq_true] at hc
    exact .inr hc.1.1
  · exact .inl h

/-- Places that read and stand alike have the same category. -/
theorem classify_congr (hr : r.pack = lang.pack) (hn : r.ReadsAlike p.node q.node)
    (ha : r.StandsAlike p q) : r.classify p = r.classify q := by
  have hchain : r.chainRule p (r.bodyRule p (r.tokenRule p.node (r.flags p.node))) =
      r.chainRule q (r.bodyRule q (r.tokenRule q.node (r.flags q.node))) := by
    rw [ha.chainRule (has_of_has_bodyRule rfl) (has_of_has_bodyRule rfl), hn.bodyRule,
      hn.tokenRule, hn.flags]
  have helse : p.named = false →
      (r.chainRule p (r.bodyRule p (r.tokenRule p.node (r.flags p.node)))).has .else_ = true →
      (r.flags p.node).has .else_ = true := fun hp h => by
    rcases else_of_has_chainRule h with h | h
    · exact has_of_has_bodyRule rfl h
    · have hb := has_of_has_bodyRule rfl h
      rw [Reading.flags, hr, Language.not_branch_of_token hp] at hb
      cases hb
  have hcondition : ∀ {c}, (r.elseRule p (r.chainRule p
      (r.bodyRule p (r.tokenRule p.node c)))).has .condition = true → c.has .condition = true :=
    fun h => has_of_has_bodyRule rfl
      ((has_chainRule (Category.has_of_ite_diff h)).resolve_left (by decide))
  have hcompared : ∀ {c}, (r.comparisonRule p (r.elseRule p (r.chainRule p
      (r.bodyRule p (r.tokenRule p.node c))))).has .condition = true → c.has .condition = true :=
    fun h => hcondition (Category.has_of_ite_diff h)
  rw [classify, classify, ← hn.isError]
  split
  · rfl
  simp only
  rw [ha.defaultTokenRule hn.placeKind hn.placeNamed hcompared,
    ha.comparisonRule hn.placeKind hcondition, ha.elseRule hn.placeNamed helse, hchain,
    hn.defaultLabelRule, hn.wildcardRule, hn.assignmentRule, hn.exitRule, hn.attributeRule,
    hn.flags]

/-! ### Same children, same surroundings -/

/-- Nodes with the same children read alike if their labels differ in the field alone. -/
theorem readsAlike_of_children (hl : n.label.bare = m.label.bare) (hc : n.children = m.children) :
    r.ReadsAlike n m := by
  obtain ⟨l, cs⟩ := n
  obtain ⟨l', ds⟩ := m
  obtain ⟨f, rfl⟩ : ∃ f, l' = { l with field := f } := Label.exists_of_bare hl
  obtain rfl : cs = ds := hc
  have hmember : memberName? (.mk l cs) = memberName? (.mk { l with field := f } cs) := by
    rw [memberName?, memberName?]
    rfl
  refine ⟨rfl, rfl, rfl, rfl, fun _ => rfl, rfl, fun _ => rfl, rfl, fun _ => rfl, rfl,
    fun container access => ?_⟩
  simp only [isPublic, hmember]
  rfl

theorem ReadsAlike.refl (r : Reading) (n : Node) : r.ReadsAlike n n :=
  readsAlike_of_children rfl rfl

/-- Whether nodes see the same above them: parents alike with the same other children, and, where
the parent only wraps an `else`, grandparents alike. -/
inductive SeesAlike (r : Reading) : List Crumb → List Crumb → Prop where
  | mk {l m : Label} {before after : List Node} {above above' : List Crumb}
      (parent : l.bare = m.bare)
      (wrapped : r.pack.elseContainers.contains l.kind = true →
        above.head?.map (·.label.bare) = above'.head?.map (·.label.bare)) :
      SeesAlike r (⟨l, before, after⟩ :: above) (⟨m, before, after⟩ :: above')

theorem standsAlike_of_seesAlike {above above' : List Crumb} (h : r.SeesAlike above above')
    (n : Node) : r.StandsAlike ⟨n, above⟩ ⟨n, above'⟩ := by
  obtain @⟨l, m, before, after, above, above', hl, hwrapped⟩ := h
  obtain ⟨f, rfl⟩ := Label.exists_of_bare hl
  have hgovernor : (r.governor? ⟨n, ⟨l, before, after⟩ :: above⟩).any r.pack.isBranch =
      (r.governor? ⟨n, ⟨{ l with field := f }, before, after⟩ :: above'⟩).any r.pack.isBranch := by
    unfold governor?
    dsimp only
    split
    · have := congrArg (Option.any r.pack.isBranch) (hwrapped ‹_›)
      rw [Option.any_map, Option.any_map] at this ⊢
      exact this
    · rfl
  refine ⟨fun _ _ => rfl, fun _ _ => ?_, fun _ _ => rfl, fun _ => rfl⟩
  rw [elseScores, elseScores, hgovernor]
  rfl
end Reading

/-! ### Frames up to some events -/

namespace Frame

mutual

/-- A frame with only the events that are kept, and likewise the frames inside it. -/
def sift (keep : Event → Bool) : Frame → Frame
  | .mk b fs => .mk { b with events := b.events.filter keep } (siftAll keep fs)

def siftAll (keep : Event → Bool) : List Frame → List Frame
  | [] => []
  | f :: fs => f.sift keep :: siftAll keep fs

end

theorem siftAll_eq (keep : Event → Bool) (fs : List Frame) :
    siftAll keep fs = fs.map (sift keep) := by
  induction fs with
  | nil => rfl
  | cons f fs ih => rw [siftAll, ih, List.map_cons]

/-- Keeping every event changes nothing. -/
theorem sift_of_forall {keep : Event → Bool} (hkeep : ∀ e, keep e = true) (f : Frame) :
    f.sift keep = f := by
  induction f with
  | mk body inside ih =>
      have hinside : inside.map (sift keep) = inside :=
        (List.map_congr_left ih).trans (List.map_id _)
      rw [sift, siftAll_eq, hinside, List.filter_eq_self.mpr fun e _ => hkeep e]

end Frame

/-- Whether nodes add the same to their frame, up to events that are not kept. -/
structure Yield.Alike (keep : Event → Bool) (y z : Yield) : Prop where
  access : y.access = z.access
  events : y.events.filter keep = z.events.filter keep
  frames : y.frames.map (Frame.sift keep) = z.frames.map (Frame.sift keep)

theorem Yield.Alike.andThen {keep : Event → Bool} {y y' z z' : Yield} (hy : Alike keep y y')
    (hz : Alike keep z z') : Alike keep (y.andThen z) (y'.andThen z') where
  access := hz.access
  events := by simp only [Yield.andThen, List.filter_append, hy.events, hz.events]
  frames := by simp only [Yield.andThen, List.map_append, hy.frames, hz.frames]

/-- Nodes that add the same up to no events add the same. -/
theorem Yield.Alike.of_forall {keep : Event → Bool} {y z : Yield} (h : Alike keep y z)
    (hkeep : ∀ e, keep e = true) : y.events = z.events ∧ y.frames = z.frames := by
  have hevents : ∀ es : List Event, es.filter keep = es := fun es =>
    List.filter_eq_self.mpr fun e _ => hkeep e
  have hframes : ∀ fs : List Frame, fs.map (Frame.sift keep) = fs := fun fs =>
    (List.map_congr_left fun f _ => f.sift_of_forall hkeep).trans (List.map_id fs)
  have he := h.events
  have hf := h.frames
  rw [hevents, hevents] at he
  rw [hframes, hframes] at hf
  exact ⟨he, hf⟩

/-- Whether nodes are told the same.  Of the node that opened the frame only the kind is asked. -/
structure Surroundings.Alike (s t : Surroundings) : Prop where
  kind : s.kind = t.kind
  opener : s.opener.kind = t.opener.kind
  nesting : s.nesting = t.nesting
  inOperand : s.inOperand = t.inOperand

/-! ### Simulations -/

/-- Places that are related in order, with places on the right that are passed over. -/
inductive Aligned (R : Place → Place → Prop) (silent : Place → Prop) :
    List Place → List Place → Prop where
  | nil : Aligned R silent [] []
  | cons {p q ps qs} : R p q → Aligned R silent ps qs → Aligned R silent (p :: ps) (q :: qs)
  | extra {q ps qs} : silent q → Aligned R silent ps qs → Aligned R silent ps (q :: qs)

namespace Reading

/-- Whether visiting a place gives nothing but events that are not kept. -/
def IsSilent (r : Reading) (keep : Event → Bool) (p : Place) : Prop :=
  ∀ s access, Yield.Alike keep { access } (r.visit p.above s access p.node)

/-- A relation between places that the walk cannot tell apart. -/
structure Simulation (r : Reading) (keep : Event → Bool) (R : Place → Place → Prop) : Prop where
  reads : ∀ {p q}, R p q → r.ReadsAlike p.node q.node
  stands : ∀ {p q}, R p q → r.StandsAlike p q
  below : ∀ {p q}, R p q → Aligned R (r.IsSilent keep) p.children q.children

variable {r : Reading} {p q : Place} {s t : Surroundings} {lang : Language} {keep : Event → Bool}
  {access : Option Bool} {c : Category}

/-- Visiting an error gives nothing. -/
theorem isSilent_of_isError (h : p.node.isError = true) : r.IsSilent keep p := by
  intro s access
  rw [visit_error h]
  exact ⟨rfl, rfl, rfl⟩

/-- Of the container only the kind is asked whether a member is public. -/
theorem isPublic_container {n container other : Node} (h : container.kind = other.kind) :
    r.isPublic n container access = r.isPublic n other access := by
  have hd : r.defaultAccess container = r.defaultAccess other := by
    rw [defaultAccess, defaultAccess, h]
  simp only [isPublic, hd]

theorem accessAfter_congr (hn : r.ReadsAlike p.node q.node) (hs : s.Alike t) :
    r.accessAfter s access p.node = r.accessAfter t access q.node := by
  rw [accessAfter, accessAfter, accessChange?, accessChange?, hs.kind, hn.kind, hn.text]

theorem nodeEvent_congr (hn : r.ReadsAlike p.node q.node) (hs : s.Alike t)
    (hseq : c.has .logical = true → startsSequence p = startsSequence q) :
    r.nodeEvent s access p c = r.nodeEvent t access q c := by
  have hvisible : r.isPublic p.node s.opener access = r.isPublic q.node t.opener access :=
    (hn.visible _ _).trans (isPublic_container hs.opener)
  have hsequence : (if c.has .logical = true then startsSequence p else true) =
      if c.has .logical = true then startsSequence q else true := by
    split
    · exact hseq ‹_›
    · rfl
  rw [nodeEvent, nodeEvent, hn.placeKind, hn.text, hn.startLine, hn.endLine, hs.nesting, hs.kind,
    hvisible, hsequence]

theorem methodEvent_congr (hn : r.ReadsAlike p.node q.node) (hs : s.Alike t) :
    r.methodEvent s access p.node c = r.methodEvent t access q.node c := by
  have hvisible : r.isPublic p.node s.opener access = r.isPublic q.node t.opener access :=
    (hn.visible _ _).trans (isPublic_container hs.opener)
  rw [methodEvent, methodEvent, hn.kind, hn.startLine, hs.kind, hvisible, hn.name]

theorem scopeOf_congr (hn : r.ReadsAlike p.node q.node) :
    r.scopeOf p.node c = r.scopeOf q.node c := by
  have hstart : p.node.label.start = q.node.label.start := hn.read Label.start
  have hstop : p.node.label.stop = q.node.label.stop := hn.read Label.stop
  rw [scopeOf, scopeOf, hn.startLine, hn.endLine, hn.name, hstart, hstop]

theorem openingEvent_congr (hn : r.ReadsAlike p.node q.node) :
    r.openingEvent p.node c = r.openingEvent q.node c := by
  rw [openingEvent, openingEvent, hn.kind, hn.startLine, hn.endLine, hn.arity]

theorem startAccess_congr (hn : r.ReadsAlike p.node q.node) {kind : SpaceKind} :
    r.startAccess p.node kind = r.startAccess q.node kind := by
  rw [startAccess, startAccess, defaultAccess, defaultAccess, hn.kind]

theorem opened_congr (hn : r.ReadsAlike p.node q.node) (hs : s.Alike t) :
    (opened s p.node c).Alike (opened t q.node c) :=
  ⟨rfl, hn.kind, rfl, hs.inOperand⟩

theorem entered_congr (hn : r.ReadsAlike p.node q.node) (hs : s.Alike t) :
    (r.entered s p.node c).Alike (r.entered t q.node c) := by
  refine ⟨hs.kind, hs.opener, ?_, ?_⟩
  · simp only [entered, hs.nesting]
  · simp only [entered, hs.inOperand, hn.isComposite]

/-- Visiting related places one after the other gives the same. -/
theorem alike_visitEach {R : Place → Place → Prop} {ps qs : List Place}
    (h : Aligned R (r.IsSilent keep) ps qs)
    (hvisit : ∀ p ∈ ps, ∀ q, R p q → ∀ access,
      Yield.Alike keep (r.visit p.above s access p.node) (r.visit q.above t access q.node)) :
    ∀ access, Yield.Alike keep (r.visitEach s access ps) (r.visitEach t access qs) := by
  induction h with
  | nil => exact fun _ => ⟨rfl, rfl, rfl⟩
  | cons hpq _ ih =>
      intro access
      have hfirst := hvisit _ List.mem_cons_self _ hpq access
      rw [visitEach, visitEach, ← hfirst.access]
      exact hfirst.andThen (ih (fun p hp => hvisit p (List.mem_cons_of_mem _ hp)) _)
  | extra hq _ ih =>
      intro access
      have hfirst := hq t access
      have hrest := ih hvisit access
      -- `q` leaves the access as it is, so the rest is visited with the same one
      rw [visitEach, ← hfirst.access]
      exact ⟨hrest.access, by simpa [Yield.andThen, ← hfirst.events] using hrest.events,
        by simpa [Yield.andThen, ← hfirst.frames] using hrest.frames⟩

/-- **Simulations carry over to walks.**  Visiting related places gives the same, up to events that
are not kept. -/
theorem Simulation.visit (hr : r.pack = lang.pack) {R : Place → Place → Prop}
    (hsim : r.Simulation keep R) : ∀ p q, R p q → ∀ {s t : Surroundings}, s.Alike t → ∀ access,
      Yield.Alike keep (r.visit p.above s access p.node) (r.visit q.above t access q.node) := by
  intro p
  induction p using Place.induct with
  | h p ih =>
      intro q hpq s t hs access
      have hn := hsim.reads hpq
      have hclass := classify_congr hr hn (hsim.stands hpq)
      have hcat : r.categoryIn s p = r.categoryIn t q := by
        rw [categoryIn, categoryIn, hs.inOperand, hclass]
      have hafter : r.accessAfter s access p.node = r.accessAfter t access q.node :=
        accessAfter_congr hn hs
      have hevent : r.nodeEvent s (r.accessAfter s access p.node) p (r.categoryIn s p) =
          r.nodeEvent t (r.accessAfter t access q.node) q (r.categoryIn t q) := by
        rw [← hcat, ← hafter]
        -- no rule adds the flag of a logical operator, so it is there from the tables
        refine nodeEvent_congr hn hs fun hl => (hsim.stands hpq).sequence ?_
        rw [has_categoryIn (by decide)] at hl
        rcases has_classify hl with h | h | h | h
        · cases h
        · cases h
        · cases h
        · exact h
      have hbelow : ∀ {s t : Surroundings}, s.Alike t → ∀ access,
          Yield.Alike keep (r.visitEach s access p.children) (r.visitEach t access q.children) :=
        fun hs => alike_visitEach (hsim.below hpq) fun c hc d hcd => ih c hc d hcd hs
      rcases r.place_cases p with he | hc | ho | ⟨hi, ho⟩
      · rw [visit_error he, visit_error (hn.isError ▸ he)]
        exact ⟨rfl, rfl, rfl⟩
      · rw [visit_comment hc, visit_comment (hclass ▸ hc)]
        simp only [hevent]
        exact ⟨hafter, rfl, rfl⟩
      · rw [visit_opener ho, visit_opener (by rw [opensScope, ← hclass]; exact ho)]
        simp only [hcat, hafter, startAccess_congr hn, scopeOf_congr hn, openingEvent_congr hn,
          methodEvent_congr hn hs]
        have hinner := hbelow (opened_congr (c := r.categoryIn t q) hn hs)
          (r.startAccess q.node (.ofCategory (r.categoryIn t q)))
        refine ⟨rfl, rfl, ?_⟩
        simp only [List.map_cons, List.map_nil, Frame.sift, Frame.siftAll_eq, List.filter_cons,
          hinner.access, hinner.events, hinner.frames]
      · have hi' : r.isEntered q = true := by rw [isEntered, ← hclass, ← hn.isError]; exact hi
        have ho' : r.opensScope q = false := by rw [opensScope, ← hclass]; exact ho
        rw [visit_plain hi ho, visit_plain hi' ho']
        simp only [hevent]
        rw [hcat, hafter]
        exact Yield.Alike.andThen ⟨rfl, rfl, rfl⟩ (hbelow (entered_congr hn hs) _)

/-! ### The same subtree in other surroundings -/

/-- What stands below nodes with the same children sees the same, if the parents do not differ in
what an `else` below them could look for. -/
theorem aligned_children {keep : Event → Bool} {l m : Label} {cs : List Node}
    {above above' : List Crumb} (hl : l.bare = m.bare)
    (hwrapped : r.pack.elseContainers.contains l.kind = true →
      above.head?.map (·.label.bare) = above'.head?.map (·.label.bare)) :
    ∀ before, Aligned (fun p q => p.node = q.node ∧ r.SeesAlike p.above q.above) (r.IsSilent keep)
      (Place.childrenFrom l above before cs) (Place.childrenFrom m above' before cs) := by
  induction cs with
  | nil => exact fun _ => .nil
  | cons c cs ih => exact fun before => .cons ⟨rfl, .mk hl hwrapped⟩ (ih (c :: before))

/-- Nodes that see the same above them are a simulation. -/
theorem simulation_seesAlike (r : Reading) (keep : Event → Bool) :
    r.Simulation keep fun p q => p.node = q.node ∧ r.SeesAlike p.above q.above where
  reads := by
    rintro p q ⟨h, -⟩
    exact h ▸ .refl r p.node
  stands := by
    rintro ⟨n, above⟩ ⟨m, above'⟩ ⟨h, hsees⟩
    obtain rfl : n = m := h
    exact standsAlike_of_seesAlike hsees n
  below := by
    rintro ⟨n, above⟩ ⟨m, above'⟩ ⟨h, hsees⟩
    obtain rfl : n = m := h
    obtain ⟨hparent, -⟩ := hsees
    refine aligned_children rfl (fun _ => ?_) []
    exact congrArg some hparent

end Reading

end ScopeMetrics
