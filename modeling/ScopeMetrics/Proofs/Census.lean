import ScopeMetrics.Proofs.FlatLines
import ScopeMetrics.Proofs.Routing
import ScopeMetrics.Proofs.Tables

/-!
# A census of spaces

Several metrics count spaces, each by its own test on events: a callable that opens its space has
an arity, a class that opens its space has no visibility, and a class hears of its methods by
events that have both a visibility and the flag of a function.

The events of a frame are the one by which it opens (`Event.Opens`) and those of its members
(`Event.IsMember`), and a class has as many events of methods as functions directly inside it
(`Frame.Registers`).  A part of the tally that gives one for an opening of some kind and nothing
for a member (`Tally.Counts`) counts the frames of that kind.

* `registers_walk`: every frame of a walk registers.
* `Space.part_metrics`: a part of a bundle that adds up is, rolled up, the sum over the subtree.
* **`census_walk`**: in every space of a walk the counters agree with the spaces below it.
-/

namespace ScopeMetrics

/-! ### Sums -/

/-- The sum of what the members of a list give. -/
def sumOf {α : Type} (f : α → Int) (xs : List α) : Int := xs.foldr (fun x n => f x + n) 0

section

variable {α β : Type} {f g : α → Int}

theorem sumOf_cons (f : α → Int) (x : α) (xs : List α) : sumOf f (x :: xs) = f x + sumOf f xs := rfl

theorem sumOf_singleton (f : α → Int) (x : α) : sumOf f [x] = f x := Int.add_zero _

theorem sumOf_append (f : α → Int) (xs ys : List α) :
    sumOf f (xs ++ ys) = sumOf f xs + sumOf f ys := by
  induction xs with
  | nil => exact (Int.zero_add _).symm
  | cons x xs ih => rw [List.cons_append, sumOf_cons, sumOf_cons, ih, Int.add_assoc]

theorem sumOf_congr {xs : List α} (h : ∀ x ∈ xs, f x = g x) : sumOf f xs = sumOf g xs := by
  induction xs with
  | nil => rfl
  | cons x xs ih =>
      rw [sumOf_cons, sumOf_cons, h x List.mem_cons_self,
        ih fun y hy => h y (List.mem_cons_of_mem x hy)]

theorem sumOf_zero {xs : List α} (h : ∀ x ∈ xs, f x = 0) : sumOf f xs = 0 := by
  induction xs with
  | nil => rfl
  | cons x xs ih =>
      rw [sumOf_cons, h x List.mem_cons_self, ih fun y hy => h y (List.mem_cons_of_mem x hy)]
      rfl

theorem sumOf_map (f : β → Int) (g : α → β) (xs : List α) :
    sumOf f (xs.map g) = sumOf (fun x => f (g x)) xs := List.foldr_map

theorem sumOf_one (xs : List α) : sumOf (fun _ => 1) xs = xs.length := by
  induction xs with
  | nil => rfl
  | cons x xs ih =>
      rw [sumOf_cons, ih, List.length_cons]
      omega

theorem sumOf_flatMap (f : β → Int) (g : α → List β) (xs : List α) :
    sumOf f (xs.flatMap g) = sumOf (fun x => sumOf f (g x)) xs := by
  induction xs with
  | nil => rfl
  | cons x xs ih => rw [List.flatMap_cons, sumOf_append, ih, sumOf_cons]

theorem sumOf_add (f g : α → Int) (xs : List α) :
    sumOf (fun x => f x + g x) xs = sumOf f xs + sumOf g xs := by
  induction xs with
  | nil => rfl
  | cons x xs ih =>
      rw [sumOf_cons, sumOf_cons, sumOf_cons, ih]
      omega

theorem sumOf_filter (f : α → Int) (p : α → Bool) (xs : List α) :
    sumOf f (xs.filter p) = sumOf (fun x => if p x then f x else 0) xs := by
  induction xs with
  | nil => rfl
  | cons x xs ih =>
      rw [List.filter_cons, sumOf_cons, ← ih]
      split
      · rfl
      · exact (Int.zero_add _).symm

end

theorem Members.total_combine (a b : Members) : (a.combine b).total = a.total + b.total := by
  simp only [combine, total]
  omega

/-! ### Events of a frame -/

namespace Event

/-- Whether an event opens a space of some kind. -/
structure Opens (e : Event) (kind : SpaceKind) : Prop where
  function : e.has .function = decide (kind = .function)
  closure : e.has .closure = decide (kind = .closure)
  class_ : e.has .class_ = decide (kind = .class_)
  arity : e.arity.isSome = kind.isCallable
  visible : e.visible = none

/-- Whether an event is about something inside the space that hears of it. -/
structure IsMember (e : Event) : Prop where
  arity : e.arity = none
  category : e.has .class_ = false

end Event

namespace Tally

/-- A part of a tally that counts the openings of one kind of space and nothing else. -/
structure Counts (part : Tally → Int) (kind : SpaceKind) : Prop where
  empty : part {} = 0
  merge : ∀ a b, part (a.merge b) = part a + part b
  opening : ∀ {e k}, e.Opens k → part (ofEvent e) = one (k = kind)
  member : ∀ {e}, e.IsMember → part (ofEvent e) = 0
  kind : kind ≠ .unit

/-- A part of a tally that adds up is the sum over the events. -/
theorem part_ofEvents (part : Tally → Int) (hempty : part {} = 0)
    (hmerge : ∀ a b, part (a.merge b) = part a + part b) (es : List Event) :
    part (.ofEvents es) = sumOf (fun e => part (ofEvent e)) es := by
  have hfold : ∀ t : Tally, part (es.foldl observe t) =
      part t + sumOf (fun e => part (ofEvent e)) es := by
    induction es with
    | nil => exact fun t => (Int.add_zero _).symm
    | cons e es ih =>
        intro t
        rw [List.foldl_cons, ih, observe, hmerge, sumOf_cons, Int.add_assoc]
  rw [ofEvents, hfold, hempty, Int.zero_add]

/-- The counters of callables ask for an arity, and tell closures by their flag. -/
theorem callable_of_opens {e : Event} {k : SpaceKind} (h : e.Opens k) :
    methodsOf e = ⟨one (k = .function), one (k = .closure)⟩ ∧
      (argumentsOf e).functions = one (k = .function) ∧
      (argumentsOf e).closures = one (k = .closure) := by
  have hcallable : e.opensCallable = k.isCallable := by
    rw [Event.opensCallable, h.arity, Category.meets_callable, ← Event.has, ← Event.has,
      h.function, h.closure]
    cases k <;> rfl
  simp only [methodsOf, argumentsOf, hcallable, h.closure]
  cases k <;> exact ⟨rfl, rfl, rfl⟩

/-- The counters of classes ask for the flag of a class without a visibility. -/
theorem classes_of_opens {e : Event} {k : SpaceKind} (h : e.Opens k) (flag : Flag) :
    membersOf flag e = { classes := one (k = .class_) } := by
  rw [membersOf, Event.opensClass, h.class_, h.visible]
  cases k <;> simp [one]

theorem callable_of_isMember {e : Event} (h : e.IsMember) :
    methodsOf e = {} ∧ argumentsOf e = {} := by
  simp [methodsOf, argumentsOf, Event.opensCallable, h.arity]

theorem classes_of_isMember {e : Event} (h : e.IsMember) (flag : Flag) :
    (membersOf flag e).classes = 0 := by
  rw [membersOf, Event.opensClass, h.category]
  simp only [Bool.false_and, Bool.false_eq_true, if_false]
  split
  · split <;> rfl
  · rfl

theorem counts_functions : Counts (·.methods.functions) .function where
  empty := rfl
  merge _ _ := rfl
  opening h := congrArg Methods.functions (callable_of_opens h).1
  member h := congrArg Methods.functions (callable_of_isMember h).1
  kind := by decide

theorem counts_closures : Counts (·.methods.closures) .closure where
  empty := rfl
  merge _ _ := rfl
  opening h := congrArg Methods.closures (callable_of_opens h).1
  member h := congrArg Methods.closures (callable_of_isMember h).1
  kind := by decide

theorem counts_functions_arguments : Counts (·.arguments.functions) .function where
  empty := rfl
  merge _ _ := rfl
  opening h := (callable_of_opens h).2.1
  member h := congrArg Arguments.functions (callable_of_isMember h).2
  kind := by decide

theorem counts_closures_arguments : Counts (·.arguments.closures) .closure where
  empty := rfl
  merge _ _ := rfl
  opening h := (callable_of_opens h).2.2
  member h := congrArg Arguments.closures (callable_of_isMember h).2
  kind := by decide

theorem counts_classes_methods : Counts (·.publicMethods.classes) .class_ where
  empty := rfl
  merge _ _ := rfl
  opening h := congrArg Members.classes (classes_of_opens h _)
  member h := classes_of_isMember h _
  kind := by decide

theorem counts_classes_attributes : Counts (·.publicAttributes.classes) .class_ where
  empty := rfl
  merge _ _ := rfl
  opening h := congrArg Members.classes (classes_of_opens h _)
  member h := classes_of_isMember h _
  kind := by decide

theorem total_merge (a b : Tally) :
    (a.merge b).publicMethods.total = a.publicMethods.total + b.publicMethods.total := by
  exact Members.total_combine _ _

end Tally

/-! ### Frames of a walk -/

namespace Frame

/-- Whether the counters of a frame agree with its kind and with what is directly inside it. -/
structure Registers (f : Frame) : Prop where
  openings : ∀ {part kind}, Tally.Counts part kind →
    part f.body.tally = Tally.one (f.scope.kind = kind)
  methods : f.body.tally.publicMethods.total =
    if f.scope.kind = .class_ then
      ((f.inside.filter fun g => g.scope.kind = .function).length : Int)
    else 0

end Frame

/-- Whether what nodes add to a frame of some kind is about members, and all methods are counted. -/
structure Yield.Registers (kind : SpaceKind) (y : Yield) : Prop where
  members : ∀ e ∈ y.events, e.IsMember
  methods : sumOf (fun e => (Tally.membersOf .function e).total) y.events =
    if kind = .class_ then ((y.frames.filter fun g => g.scope.kind = .function).length : Int) else 0
  frames : ∀ f ∈ y.frames, ∀ g ∈ f.frames, g.Registers

namespace Yield.Registers

theorem empty (kind : SpaceKind) (access : Option Bool) : Registers kind { access } where
  members _ he := absurd he List.not_mem_nil
  methods := by split <;> rfl
  frames _ hf := absurd hf List.not_mem_nil

theorem andThen {kind : SpaceKind} {y z : Yield} (hy : Registers kind y) (hz : Registers kind z) :
    Registers kind (y.andThen z) where
  members e he := (List.mem_append.mp he).elim (hy.members e) (hz.members e)
  methods := by
    simp only [Yield.andThen, sumOf_append, List.filter_append, List.length_append, hy.methods,
      hz.methods]
    split <;> omega
  frames f hf := (List.mem_append.mp hf).elim (hy.frames f) (hz.frames f)

/-- A frame registers whose own members do, after the event by which it opens. -/
theorem frame {y : Yield} {b : Frame.Body} {e : Event} (hy : Registers b.scope.kind y)
    (he : e.Opens b.scope.kind) (hb : b.events = e :: y.events) :
    (Frame.mk b y.frames).Registers where
  openings {part kind} h := by
    show part (.ofEvents b.events) = Tally.one (b.scope.kind = kind)
    rw [Tally.part_ofEvents part h.empty h.merge, hb, sumOf_cons, h.opening he,
      sumOf_zero fun e he => h.member (hy.members e he), Int.add_zero]
  methods := by
    have hopening : (Tally.membersOf .function e).total = 0 := by
      rw [Tally.classes_of_opens he]
      rfl
    show (Tally.ofEvents b.events).publicMethods.total = _
    rw [Tally.part_ofEvents (fun t => t.publicMethods.total) rfl Tally.total_merge, hb,
      sumOf_cons]
    show (Tally.membersOf .function e).total + _ = _
    rw [hopening, Int.zero_add]
    exact hy.methods

/-- So does the frame of the unit, which no event opens. -/
theorem unit {y : Yield} {b : Frame.Body} (hy : Registers .unit y) (hk : b.scope.kind = .unit)
    (hb : b.events = y.events) : (Frame.mk b y.frames).Registers where
  openings {part kind} h := by
    show part (.ofEvents b.events) = Tally.one (b.scope.kind = kind)
    rw [Tally.part_ofEvents part h.empty h.merge, hb,
      sumOf_zero fun e he => h.member (hy.members e he), hk,
      decide_eq_false fun hk => h.kind hk.symm]
    rfl
  methods := by
    show (Tally.ofEvents b.events).publicMethods.total = if b.scope.kind = .class_ then _ else 0
    rw [Tally.part_ofEvents (fun t => t.publicMethods.total) rfl Tally.total_merge, hb, hk]
    exact hy.methods

end Yield.Registers

theorem SpaceKind.ofCategory_eq_function {c : Category} :
    ofCategory c = .function ↔ c.has .function = true := by
  unfold ofCategory
  split_ifs <;> simp_all

namespace Reading

variable {r : Reading} {s : Surroundings} {access : Option Bool} {p : Place} {lang : Language}

/-- A scope opener has one flag of a scope, the one it has in the tables. -/
theorem exists_scope_flag (hr : r.pack = lang.pack) (ho : r.opensScope p = true) :
    ∃ f, Category.scope.has f = true ∧
      ∀ g, Category.scope.has g = true → (r.categoryIn s p).has g = decide (f = g) := by
  have hbase := meets_scope_flags ho
  rw [Reading.flags, hr] at hbase
  obtain ⟨f, hf, hflags⟩ := Language.flags_of_scope hbase
  have honly : ∀ g, Category.scope.has g = true → (r.classify p).has g = true → f = g := by
    intro g hg h
    rcases has_classify h with rfl | rfl | rfl | h
    · cases hg
    · cases hg
    · cases hg
    · rw [Reading.flags, hr, hflags, Category.has_singleton] at h
      exact of_decide_eq_true h
  obtain ⟨g, hg, hs⟩ := Category.meets_iff.mp ho
  obtain rfl := honly g hs hg
  refine ⟨f, hf, fun g hscope => ?_⟩
  rw [has_categoryIn (Category.not_token_of_scope hscope), Bool.eq_iff_iff, decide_eq_true_iff]
  exact ⟨honly g hscope, fun h => h ▸ hg⟩

/-- The event by which a scope opener starts its frame opens a space of the frame's kind. -/
theorem opens_openingEvent (hr : r.pack = lang.pack) (ho : r.opensScope p = true) :
    (r.openingEvent p.node (r.categoryIn s p)).Opens (.ofCategory (r.categoryIn s p)) := by
  obtain ⟨f, hf, hc⟩ := exists_scope_flag (s := s) hr ho
  have hhas : ∀ g, Category.scope.has g = true →
      (r.openingEvent p.node (r.categoryIn s p)).has g = decide (f = g) := fun g hg => by
    rw [Event.has, openingEvent, Category.has_inter, hg, Bool.and_true, hc g hg]
  have harity : (r.openingEvent p.node (r.categoryIn s p)).arity.isSome =
      (decide (f = .function) || decide (f = .closure)) := by
    rw [openingEvent, Category.meets_callable, hc .function rfl, hc .closure rfl]
    split <;> simp_all
  have hkind : SpaceKind.ofCategory (r.categoryIn s p) = .ofCategory {f} := by
    simp only [SpaceKind.ofCategory, hc .function rfl, hc .closure rfl, hc .class_ rfl,
      hc .module rfl, Category.has_singleton]
  have hflag : f = .function ∨ f = .closure ∨ f = .class_ ∨ f = .module := by
    revert hf
    cases f <;> decide
  rw [hkind]
  refine ⟨(hhas _ rfl).trans ?_, (hhas _ rfl).trans ?_, (hhas _ rfl).trans ?_, harity.trans ?_, rfl⟩
  all_goals rcases hflag with rfl | rfl | rfl | rfl <;> decide

theorem isMember_of_mem_methodEvent {n : Node} {c : Category} {e : Event}
    (he : e ∈ r.methodEvent s access n c) : e.IsMember := by
  unfold methodEvent at he
  split at he
  · obtain rfl := List.mem_singleton.mp he
    exact ⟨rfl, by rw [Event.has, Category.has_singleton]; decide⟩
  · cases he

/-- A class hears of a scope opener exactly if it is a function. -/
theorem sumOf_methodEvent {n : Node} {c : Category} :
    sumOf (fun e => (Tally.membersOf .function e).total) (r.methodEvent s access n c) =
      if s.kind = .class_ && c.has .function then 1 else 0 := by
  unfold methodEvent
  split
  · cases r.isPublic n s.opener access <;>
      simp [sumOf, Tally.membersOf, Event.opensClass, Event.has, Members.total]
  · rfl

/-- What a node tells its frame that opens no scope is about a member that is no method. -/
theorem isMember_of_mem_nodeEvent (ho : r.opensScope p = false) {e : Event}
    (he : e ∈ r.nodeEvent s access p (r.categoryIn s p)) :
    e.IsMember ∧ (Tally.membersOf .function e).total = 0 := by
  have hno : ∀ f, Category.scope.has f = true → (r.categoryIn s p).has f = false := fun f hf => by
    rw [Bool.eq_false_iff]
    intro h
    have := Category.meets_iff.mpr ⟨f, h, hf⟩
    rw [meets_scope_categoryIn, ← opensScope, ho] at this
    cases this
  have hfunction := hno .function rfl
  have hclass := hno .class_ rfl
  unfold nodeEvent at he
  split at he
  · cases he
  · obtain rfl := List.mem_singleton.mp he
    refine ⟨⟨rfl, hclass⟩, ?_⟩
    simp only [Tally.membersOf, Event.opensClass, Event.has, hclass, hfunction]
    rfl

theorem registers_nodeEvent (ho : r.opensScope p = false) (kind : SpaceKind) (after : Option Bool)
    (visited : Nat) : Yield.Registers kind
      { access := after, events := r.nodeEvent s access p (r.categoryIn s p), visited } where
  members e he := (isMember_of_mem_nodeEvent ho he).1
  methods := by
    rw [sumOf_zero fun e he => (isMember_of_mem_nodeEvent ho he).2]
    split <;> rfl
  frames _ hf := absurd hf List.not_mem_nil

theorem registers_visitEach {kind : SpaceKind} : ∀ (ps : List Place) (access : Option Bool),
    (∀ p ∈ ps, ∀ access, Yield.Registers kind (r.visit p.above s access p.node)) →
      Yield.Registers kind (r.visitEach s access ps)
  | [], access, _ => .empty kind access
  | p :: ps, access, h =>
      (h p List.mem_cons_self access).andThen
        (registers_visitEach ps _ fun q hq => h q (List.mem_cons_of_mem p hq))

/-- What a visit adds registers with the frame it is added to. -/
theorem registers_visit (hr : r.pack = lang.pack) : ∀ (p : Place) (s : Surroundings)
    (access : Option Bool), Yield.Registers s.kind (r.visit p.above s access p.node) := by
  intro p
  induction p using Place.induct with
  | h p ih =>
      intro s access
      rcases r.place_cases p with he | hc | ho | ⟨hi, ho⟩
      · rw [visit_error he]
        exact ⟨fun _ he => absurd he List.not_mem_nil, by split <;> rfl,
          fun _ hf => absurd hf List.not_mem_nil⟩
      · rw [visit_comment hc]
        exact registers_nodeEvent (opensScope_of_comment hc) _ _ _
      · rw [visit_opener ho]
        have hinner := registers_visitEach (s := opened s p.node (r.categoryIn s p)) p.children
          (r.startAccess p.node (.ofCategory (r.categoryIn s p))) fun q hq => ih q hq _
        refine ⟨fun e he => isMember_of_mem_methodEvent he, ?_, fun f hf g hg => ?_⟩
        -- the frame around hears of one method exactly if the new frame is that of a function
        · simp only [sumOf_methodEvent, ← SpaceKind.ofCategory_eq_function, List.filter_cons,
            List.filter_nil, Frame.scope, Frame.body, scopeOf, Bool.and_eq_true, decide_eq_true_iff]
          split <;> split <;> simp_all
        · obtain rfl := List.mem_singleton.mp hf
          rw [Frame.frames, Frame.framesAll_eq] at hg
          rcases List.mem_cons.mp hg with rfl | hg
          · exact hinner.frame (opens_openingEvent hr ho) rfl
          · obtain ⟨f, hf, hg⟩ := List.mem_flatMap.mp hg
            exact hinner.frames f hf g hg
      · rw [visit_plain hi ho]
        exact (registers_nodeEvent ho _ _ _).andThen
          (registers_visitEach _ _ fun q hq => ih q hq (r.entered s p.node (r.categoryIn s p)))

/-- Every frame of a walk registers. -/
theorem registers_walk (hr : r.pack = lang.pack) (name : Option String) (root : Node) :
    ∀ f ∈ (r.walk name root).draft.unit.frames, f.Registers := by
  have hinner := registers_visit hr ⟨root, []⟩ { kind := .unit, opener := root } none
  intro f hf
  rw [walk, Frame.frames, Frame.framesAll_eq] at hf
  rcases List.mem_cons.mp hf with rfl | hf
  · exact hinner.unit rfl rfl
  · obtain ⟨g, hg, hf⟩ := List.mem_flatMap.mp hf
    exact hinner.frames g hg f hf

end Reading

/-! ### Spaces -/

/-- A part of a bundle that is added when bundles are combined. -/
structure Bundle.AddsUp (part : Bundle → Int) : Prop where
  combine : ∀ a b, part (a.combine b) = part a + part b := by exact fun _ _ => rfl
  derive : ∀ b, part b.derive = part b := by exact fun _ => rfl

namespace Space

/-- The spaces of one kind in a space, itself included. -/
def ofKind (s : Space) (kind : SpaceKind) : List Space := s.all.filter fun t => t.scope.kind = kind

/-- The functions directly inside a class, for all classes in a space, itself included. -/
def methods (s : Space) : List Space :=
  (s.ofKind .class_).flatMap fun t => t.inside.filter fun u => u.scope.kind = .function

/-- A part of a bundle that adds up is, rolled up, the sum over the subtree. -/
theorem part_metrics {part : Bundle → Int} (hpart : Bundle.AddsUp part) {s : Space}
    (hs : s.IsRolled) : part s.metrics = sumOf (fun t => part t.own) s.all := by
  have hjoined : ∀ (bs : List Bundle) (b : Bundle),
      part (b.joined bs) = part b + sumOf part bs := by
    intro bs
    induction bs with
    | nil => exact fun b => (Int.add_zero _).symm
    | cons c bs ih =>
        intro b
        rw [sumOf_cons, ← Int.add_assoc, ← hpart.combine, ← ih]
        rfl
  rw [metrics_of_isRolled hs, hpart.derive, hjoined, sumOf_map, all_eq, sumOf_cons]

end Space

namespace Frame

/-- The spaces directly inside that of a frame have the kinds of the frames directly inside. -/
theorem map_kind_inside (use : LineUse) (f : Frame) (span : Span) :
    ((f.surveyIn span).space use).inside.map (fun s => s.scope.kind) =
      f.inside.map fun g => g.scope.kind := by
  have hscopes := congrArg (List.map Scope.kind) (map_scope_inside use f span)
  rwa [List.map_map, List.map_map] at hscopes

/-- How many have a kind depends on their kinds alone. -/
theorem length_filter_kind {α : Type} (kindOf : α → SpaceKind) (kind : SpaceKind) (xs : List α) :
    (xs.filter fun x => kindOf x = kind).length = (xs.map kindOf).countP (· = kind) := by
  rw [List.countP_map, List.countP_eq_length_filter]
  rfl

namespace Registers

variable {f : Frame} (h : f.Registers) (use : LineUse) (span : Span)
include h

/-- A counter of a space alone that comes from its tally. -/
theorem counter_own {counter : Tally → Int} {kind : SpaceKind}
    (hcounter : Tally.Counts counter kind) (part : Bundle → Int)
    (hown : ∀ body lines inside,
      part (Parcel.ownBundle use body lines inside) = counter body.tally) :
    part ((f.surveyIn span).space use).own =
      if ((f.surveyIn span).space use).scope.kind = kind then 1 else 0 := by
  have hopening := h.openings hcounter
  simp only [Tally.one, decide_eq_true_iff] at hopening
  rw [scope_space_surveyIn, ← hopening]
  obtain ⟨body, inside⟩ := f
  rw [surveyIn, Parcel.space, Space.own, hown]
  rfl

/-- The methods that a class hears of are the functions directly inside it. -/
theorem total_own :
    ((f.surveyIn span).space use).own.publicMethods.total =
      if ((f.surveyIn span).space use).scope.kind = .class_ then
        ((((f.surveyIn span).space use).inside.filter
          fun u => u.scope.kind = .function).length : Int)
      else 0 := by
  have hown : ((f.surveyIn span).space use).own.publicMethods = f.body.tally.publicMethods := by
    obtain ⟨body, inside⟩ := f
    rw [surveyIn, Parcel.space]
    rfl
  rw [hown, h.methods, scope_space_surveyIn, length_filter_kind (fun s : Space => s.scope.kind),
    map_kind_inside, ← length_filter_kind]

end Registers

end Frame

/-- The weighted methods of a space alone. -/
theorem Parcel.weighted_own (use : LineUse) (p : Parcel) :
    (p.space use).own.weighted = weighted (p.space use).scope.kind (p.space use).inside := by
  obtain ⟨body, span, inside⟩ := p
  rw [space]
  rfl

/-- A part that is one in every space counts them all. -/
theorem Parcel.count_spaces (part : Bundle → Int) (hpart : Bundle.AddsUp part) {use : LineUse}
    (hown : ∀ body lines inside, part (ownBundle use body lines inside) = 1) (p : Parcel) :
    part (p.space use).metrics = (p.space use).all.length := by
  rw [Space.part_metrics hpart (isRolled_space use p), ← sumOf_one]
  refine sumOf_congr fun t ht => ?_
  rw [all_space] at ht
  obtain ⟨⟨body, span, inside⟩, -, rfl⟩ := List.mem_map.mp ht
  rw [space, Space.own, hown]

namespace Frame

variable {f : Frame} (h : ∀ g ∈ f.frames, g.Registers) {use : LineUse} {span : Span}
include h

/-- A part that only the spaces of one kind have is, rolled up, the sum over these. -/
theorem sum_ofKind (part : Bundle → Int) (hpart : Bundle.AddsUp part) (kind : SpaceKind)
    (value : Space → Int)
    (hown : ∀ g : Frame, g.Registers → ∀ span, part ((g.surveyIn span).space use).own =
      if ((g.surveyIn span).space use).scope.kind = kind then
        value ((g.surveyIn span).space use) else 0) :
    part ((f.surveyIn span).space use).metrics =
      sumOf value (((f.surveyIn span).space use).ofKind kind) := by
  rw [Space.part_metrics hpart (Parcel.isRolled_space use _), Space.ofKind, sumOf_filter]
  simp only [decide_eq_true_iff]
  refine sumOf_congr fun t ht => ?_
  rw [Parcel.all_space] at ht
  obtain ⟨q, hq, rfl⟩ := List.mem_map.mp ht
  obtain ⟨g, hg, span, rfl⟩ := exists_mem_frames_of_mem_all hq
  exact hown g (h g hg) span

/-- A part that comes from a counter of the tally counts the spaces of its kind. -/
theorem count_ofKind (part : Bundle → Int) (hpart : Bundle.AddsUp part) {counter : Tally → Int}
    {kind : SpaceKind} (hcounter : Tally.Counts counter kind)
    (hown : ∀ body lines inside,
      part (Parcel.ownBundle use body lines inside) = counter body.tally) :
    part ((f.surveyIn span).space use).metrics =
      (((f.surveyIn span).space use).ofKind kind).length := by
  rw [← sumOf_one]
  exact sum_ofKind h part hpart kind _ fun g hg span => hg.counter_own use span hcounter part hown

/-- Public and private methods together are the functions directly inside a class. -/
theorem total_metrics : ((f.surveyIn span).space use).metrics.publicMethods.total =
    ((f.surveyIn span).space use).methods.length := by
  rw [Space.methods, ← sumOf_one, sumOf_flatMap]
  refine sum_ofKind h (fun b => b.publicMethods.total)
    { combine := fun a b => Members.total_combine _ _ } .class_ _ fun g hg span => ?_
  rw [sumOf_one]
  exact hg.total_own use span

theorem classes_weighted_metrics : ((f.surveyIn span).space use).metrics.weighted.classes =
    (((f.surveyIn span).space use).ofKind .class_).length := by
  rw [← sumOf_one]
  refine sum_ofKind h (fun b => b.weighted.classes) {} .class_ _ fun g hg span => ?_
  rw [Parcel.weighted_own, Parcel.weighted]
  split <;> rfl

/-- The weights of classes add up the complexities of the functions directly inside them. -/
theorem sum_weighted_metrics : ((f.surveyIn span).space use).metrics.weighted.sum =
    sumOf (fun s => s.metrics.cyclomatic.sum) ((f.surveyIn span).space use).methods := by
  rw [Space.methods, sumOf_flatMap]
  refine sum_ofKind h (fun b => b.weighted.sum) {} .class_ _ fun g hg span => ?_
  rw [Parcel.weighted_own, Parcel.weighted]
  split
  · exact List.foldr_map
  · rfl

end Frame

namespace Reading

/-- **Structural counters agree with the spaces.**  For the pack of every language, every source,
every set of macros and every tree, the walk gives spaces; and in each of them, rolled up, what
counts spaces gives the number of spaces below it, itself included; what counts functions, closures
or classes gives the number of these; public and private methods together are the functions
directly inside a class; and the weights of classes add up the complexities of these functions. -/
theorem census_walk (lang : Language) (source : Source) (macros : SortedSet String)
    (name : Option String) (root : Node) :
    let r : Reading := { pack := lang.pack, source, macros }
    ∃ unit, (r.walk name root).draft.spaces = .ok unit ∧ ∀ s ∈ unit.all,
      (s.metrics.cyclomatic.spaces = s.all.length ∧ s.metrics.cognitive.spaces = s.all.length ∧
        s.metrics.exits.spaces = s.all.length) ∧
      (s.metrics.methods.functions = (s.ofKind .function).length ∧
        s.metrics.arguments.functions = (s.ofKind .function).length) ∧
      (s.metrics.methods.closures = (s.ofKind .closure).length ∧
        s.metrics.arguments.closures = (s.ofKind .closure).length) ∧
      (s.metrics.publicMethods.classes = (s.ofKind .class_).length ∧
        s.metrics.publicAttributes.classes = (s.ofKind .class_).length ∧
        s.metrics.weighted.classes = (s.ofKind .class_).length) ∧
      s.metrics.publicMethods.public_ + s.metrics.publicMethods.private_ = s.methods.length ∧
      s.metrics.weighted.sum = sumOf (fun t => t.metrics.cyclomatic.sum) s.methods := by
  intro r
  have hwalk := registers_walk (r := r) rfl name root
  have hspaces := r.spaces_walk name root
  generalize hd : (r.walk name root).draft = d at *
  refine ⟨d.unit.survey.space d.lineUse, hspaces, fun s hs => ?_⟩
  rw [Parcel.all_space] at hs
  obtain ⟨p, hp, rfl⟩ := List.mem_map.mp hs
  obtain ⟨f, hf, span, rfl⟩ := Frame.exists_mem_frames_of_mem_all hp
  have hbelow : ∀ g ∈ f.frames, g.Registers := fun g hg =>
    hwalk g (Frame.mem_frames_trans hf hg)
  refine ⟨⟨?_, ?_, ?_⟩, ⟨?_, ?_⟩, ⟨?_, ?_⟩, ⟨?_, ?_, ?_⟩, ?_, ?_⟩
  · exact Parcel.count_spaces (·.cyclomatic.spaces) {} (fun _ _ _ => rfl) _
  · exact Parcel.count_spaces (·.cognitive.spaces) {} (fun _ _ _ => rfl) _
  · exact Parcel.count_spaces (·.exits.spaces) {} (fun _ _ _ => rfl) _
  · exact Frame.count_ofKind hbelow (·.methods.functions) {} Tally.counts_functions
      fun _ _ _ => rfl
  · exact Frame.count_ofKind hbelow (·.arguments.functions) {} Tally.counts_functions_arguments
      fun _ _ _ => rfl
  · exact Frame.count_ofKind hbelow (·.methods.closures) {} Tally.counts_closures fun _ _ _ => rfl
  · exact Frame.count_ofKind hbelow (·.arguments.closures) {} Tally.counts_closures_arguments
      fun _ _ _ => rfl
  · exact Frame.count_ofKind hbelow (·.publicMethods.classes) {} Tally.counts_classes_methods
      fun _ _ _ => rfl
  · exact Frame.count_ofKind hbelow (·.publicAttributes.classes) {} Tally.counts_classes_attributes
      fun _ _ _ => rfl
  · exact Frame.classes_weighted_metrics hbelow
  · exact Frame.total_metrics hbelow
  · exact Frame.sum_weighted_metrics hbelow

/-- A class with two methods, one of them with an if and a closure in it. -/
theorem census_walk_methods :
    let node (kind : String) (start stop : Nat) (field : Option String) (cs : List Node) : Node :=
      .mk ⟨kind, true, false, start, stop, field⟩ cs
    let method (start stop : Nat) (cs : List Node) : Node :=
      node "method_declaration" start stop none
        [node "identifier" start (start + 1) (some "name") [],
         node "block" (start + 1) stop (some "body") cs]
    let root : Node := node "program" 0 20 none
      [node "class_declaration" 0 20 none
        [node "identifier" 0 1 (some "name") [],
         node "class_body" 1 20 (some "body")
          [method 2 5 [],
           method 6 19
            [node "if_statement" 8 18 none
              [node "lambda_expression" 9 17 (some "consequence") []]]]]]
    let r : Reading := { pack := Language.java.pack, source := ⟨List.replicate 20 120⟩ }
    ∃ unit, (r.walk none root).draft.spaces = .ok unit ∧ unit ∈ unit.all ∧
      unit.metrics.cyclomatic.spaces = 5 ∧ unit.metrics.publicMethods.total = 2 ∧
      unit.metrics.publicMethods.public_ + unit.metrics.publicMethods.private_ =
        unit.methods.length ∧
      unit.metrics.weighted.sum = sumOf (fun t => t.metrics.cyclomatic.sum) unit.methods := by
  intro node method root r
  obtain ⟨unit, hunit, hcensus⟩ := census_walk .java ⟨List.replicate 20 120⟩ ∅ none root
  have hself : unit ∈ unit.all := by
    rw [Space.all_eq]
    exact List.mem_cons_self
  have hspaces : (r.walk none root).draft.spaces.toOption.map
      (fun s => (s.metrics.cyclomatic.spaces, s.metrics.publicMethods.total)) = some (5, 2) := by
    decide +kernel
  rw [hunit] at hspaces
  obtain ⟨hcount, htotal⟩ := Prod.mk.inj (Option.some.inj hspaces)
  exact ⟨unit, hunit, hself, hcount, htotal, (hcensus unit hself).2.2.2.2⟩

end Reading

end ScopeMetrics
