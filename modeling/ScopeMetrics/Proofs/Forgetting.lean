import ScopeMetrics.Proofs.Partition

/-!
# Forgetting parts of metrics

A change to the events of frames may show in some metrics and not in others.  Forgetting the metrics
in which it shows (`Bundle.Forgets`) gives the same spaces before and after, if it does so for the
bundle of a single frame (`Frame.Hides`): which lines a frame owns depends on scopes alone, and
bundles with the same parts forgotten roll up to bundles that agree in the rest.

* `Frame.Hides.mapBundles_space`: a change that is hidden in each frame is hidden in the spaces.
-/

namespace ScopeMetrics

/-- Forgetting parts of a bundle, so that the rest of a combination depends on the rest of its
parts.  The index is one of the forgotten parts, and cyclomatic complexity, which the weight of a
class is taken from, is none. -/
structure Bundle.Forgets (forget : Bundle → Bundle) : Prop where
  combine : ∀ a b, forget (a.combine b) = forget ((forget a).combine (forget b))
  derive : ∀ b, forget b.derive = forget b
  cyclomatic : ∀ b, (forget b).cyclomatic = b.cyclomatic

/-! ### Spaces -/

namespace Space

mutual

/-- A space with other bundles, and likewise the spaces inside it. -/
def mapBundles (g : Bundle → Bundle) : Space → Space
  | .mk scope own metrics inside => .mk scope (g own) (g metrics) (mapBundlesAll g inside)

def mapBundlesAll (g : Bundle → Bundle) : List Space → List Space
  | [] => []
  | s :: ss => s.mapBundles g :: mapBundlesAll g ss

end

variable {g : Bundle → Bundle}

theorem mapBundlesAll_eq (ss : List Space) : mapBundlesAll g ss = ss.map (mapBundles g) := by
  induction ss with
  | nil => rfl
  | cons s ss ih => rw [mapBundlesAll, ih, List.map_cons]

theorem scope_mapBundles (s : Space) : (s.mapBundles g).scope = s.scope := by
  cases s
  rfl

theorem own_mapBundles (s : Space) : (s.mapBundles g).own = g s.own := by
  cases s
  rfl

theorem metrics_mapBundles (s : Space) : (s.mapBundles g).metrics = g s.metrics := by
  cases s
  rfl

theorem all_mapBundles (s : Space) : (s.mapBundles g).all = s.all.map (mapBundles g) := by
  induction s with
  | mk scope own metrics inside ih =>
      rw [mapBundles, mapBundlesAll_eq, all_mk, all_mk, List.map_cons, mapBundles, mapBundlesAll_eq,
        List.flatMap_map, List.map_flatMap]
      congr 1
      exact List.flatMap_congr ih

/-- Spaces that are the same once parts are forgotten agree, one by one, in what the rest shows. -/
theorem map_all_eq_of_mapBundles {β : Type} (part : Bundle → β) {s t : Space}
    (h : s.mapBundles g = t.mapBundles g) (hpart : ∀ b, part (g b) = part b) :
    s.all.map (fun u => (part u.own, part u.metrics)) =
      t.all.map fun u => (part u.own, part u.metrics) := by
  have hforget : ∀ s : Space, s.all.map (fun u => (part u.own, part u.metrics)) =
      (s.mapBundles g).all.map fun u => (part u.own, part u.metrics) := by
    intro s
    rw [all_mapBundles, List.map_map]
    refine List.map_congr_left fun u _ => ?_
    rw [Function.comp_apply, own_mapBundles, metrics_mapBundles, hpart, hpart]
  rw [hforget s, h, ← hforget t]

end Space

namespace Parcel

section

variable {forget : Bundle → Bundle} (h : Bundle.Forgets forget) {own own' : Bundle}
  {inside inside' : List Space}
  (hinside : inside.map (Space.mapBundles forget) = inside'.map (Space.mapBundles forget))
include h

theorem weighted_mapBundles (kind : SpaceKind) (inside : List Space) :
    weighted kind (inside.map (Space.mapBundles forget)) = weighted kind inside := by
  rw [weighted, weighted, List.filter_map, List.map_map]
  simp only [Function.comp_def, Space.scope_mapBundles, Space.metrics_mapBundles, h.cyclomatic]

include hinside in
/-- The bundle of a space alone depends on the spaces inside up to what is forgotten. -/
theorem ownBundle_congr (use : LineUse) (body : Frame.Body) (lines : List Int) :
    ownBundle use body lines inside = ownBundle use body lines inside' := by
  have hweighted : weighted body.scope.kind inside = weighted body.scope.kind inside' := by
    rw [← weighted_mapBundles h, hinside, weighted_mapBundles h]
  have hempty : inside.isEmpty = inside'.isEmpty := by
    rw [← List.isEmpty_map, hinside, List.isEmpty_map]
  rw [ownBundle, ownBundle, hweighted, hempty]

theorem forget_foldl_combine (ss : List Space) : ∀ b : Bundle,
    forget (ss.foldl (fun b s => b.combine s.metrics) b) =
      (ss.map (Space.mapBundles forget)).foldl (fun b s => forget (b.combine s.metrics))
        (forget b) := by
  induction ss with
  | nil => exact fun _ => rfl
  | cons s ss ih =>
      intro b
      rw [List.foldl_cons, ih, h.combine, List.map_cons, List.foldl_cons, Space.metrics_mapBundles]

include hinside in
theorem forget_rolledUp (hown : forget own = forget own') :
    forget (rolledUp own inside) = forget (rolledUp own' inside') := by
  rw [rolledUp, rolledUp, h.derive, h.derive, forget_foldl_combine h, forget_foldl_combine h, hown,
    hinside]

end

theorem remaining_congr {ps qs : List Parcel} (h : ps.map span = qs.map span) (s : Span) :
    remaining s ps = remaining s qs := by
  have hany : ∀ (ps : List Parcel) (n : Int),
      (ps.any fun p => p.span.contains n) = (ps.map span).any fun s => s.contains n := by
    intro ps n
    rw [List.any_map]
    rfl
  simp only [remaining, hany, h]

end Parcel

/-! ### Frames -/

namespace Frame

mutual

/-- A frame with another body, and likewise the frames inside it. -/
def mapBodies (t : Body → Body) : Frame → Frame
  | .mk b fs => .mk (t b) (mapBodiesAll t fs)

def mapBodiesAll (t : Body → Body) : List Frame → List Frame
  | [] => []
  | f :: fs => f.mapBodies t :: mapBodiesAll t fs

end

section

variable (t : Body → Body)

theorem mapBodiesAll_eq (fs : List Frame) : mapBodiesAll t fs = fs.map (mapBodies t) := by
  induction fs with
  | nil => rfl
  | cons f fs ih => rw [mapBodiesAll, ih, List.map_cons]

theorem mapBodies_mk (b : Body) (fs : List Frame) :
    (mk b fs).mapBodies t = .mk (t b) (fs.map (mapBodies t)) := by
  rw [mapBodies, mapBodiesAll_eq]

theorem bodies_mapBodies (f : Frame) : (f.mapBodies t).bodies = f.bodies.map t := by
  induction f with
  | mk body inside ih =>
      rw [mapBodies_mk, bodies, bodies, bodiesAll_eq, bodiesAll_eq, List.map_cons,
        List.map_flatMap, List.flatMap_map]
      congr 1
      exact List.flatMap_congr ih

variable {t}

/-- Lines that are collected over all frames stay the same if they do for each. -/
theorem foldl_union_mapBodies {lines : Tally → LineSet}
    (h : ∀ b, lines (t b).tally = lines b.tally) (f : Frame) :
    (f.mapBodies t).bodies.foldl (fun s b => s.union (lines b.tally)) (∅ : LineSet) =
      f.bodies.foldl (fun s b => s.union (lines b.tally)) ∅ := by
  rw [bodies_mapBodies, List.foldl_map]
  exact List.foldl_ext _ _ _ fun s b _ => congrArg s.union (h b)

end

/-- A change of bodies that shows only in what is forgotten.  The lines may be used differently
before and after. -/
structure Hides (forget : Bundle → Bundle) (t : Body → Body) (use use' : LineUse) : Prop where
  forgets : Bundle.Forgets forget
  scope : ∀ b, (t b).scope = b.scope
  own : ∀ b lines inside, forget (Parcel.ownBundle use (t b) lines inside) =
    forget (Parcel.ownBundle use' b lines inside)

namespace Hides

variable {forget : Bundle → Bundle} {t : Body → Body} {use use' : LineUse}
  (h : Hides forget t use use')
include h

theorem scope_mapBodies (f : Frame) : (f.mapBodies t).scope = f.scope := by
  obtain ⟨body, inside⟩ := f
  rw [mapBodies_mk]
  exact h.scope body

theorem reach_mapBodies (f : Frame) (cursor high : Int) :
    (f.mapBodies t).reach cursor high = f.reach cursor high := by
  rw [reach, reach, h.scope_mapBodies]

theorem span_surveyAll (high : Int) : ∀ (fs : List Frame) (cursor : Int),
    (surveyAll high cursor (fs.map (mapBodies t))).map Parcel.span =
      (surveyAll high cursor fs).map Parcel.span
  | [], _ => rfl
  | f :: fs, cursor => by
      simp only [List.map_cons, surveyAll, h.reach_mapBodies, span_surveyIn, span_surveyAll high fs]

theorem mapBundles_surveyAll (high : Int) : ∀ (fs : List Frame) (cursor : Int),
    (∀ f ∈ fs, ∀ span, (((f.mapBodies t).surveyIn span).space use).mapBundles forget =
      ((f.surveyIn span).space use').mapBundles forget) →
    ((surveyAll high cursor (fs.map (mapBodies t))).map (Parcel.space use)).map
        (Space.mapBundles forget) =
      ((surveyAll high cursor fs).map (Parcel.space use')).map (Space.mapBundles forget)
  | [], _, _ => rfl
  | f :: fs, cursor, hfs => by
      have hrest := mapBundles_surveyAll high fs ((f.reach cursor high).freeAfter cursor)
        fun g hg => hfs g (List.mem_cons_of_mem f hg)
      simp only [List.map_cons, surveyAll, h.reach_mapBodies, hfs f List.mem_cons_self, hrest]

/-- A change that is hidden in the bundle of each frame is hidden in the spaces. -/
theorem mapBundles_space (f : Frame) : ∀ span : Span,
    (((f.mapBodies t).surveyIn span).space use).mapBundles forget =
      ((f.surveyIn span).space use').mapBundles forget := by
  induction f with
  | mk body inside ih =>
      intro span
      have hspans := h.span_surveyAll span.high inside span.low
      have hinside := h.mapBundles_surveyAll span.high inside span.low ih
      have hown := h.own body (Parcel.remaining span (surveyAll span.high span.low inside))
        ((surveyAll span.high span.low (inside.map (mapBodies t))).map (Parcel.space use))
      rw [Parcel.ownBundle_congr h.forgets hinside use'] at hown
      have hmetrics := Parcel.forget_rolledUp h.forgets hinside hown
      rw [mapBodies_mk, surveyIn, surveyIn, Parcel.space, Parcel.space, Parcel.spaceAll_eq,
        Parcel.spaceAll_eq, Parcel.remaining_congr hspans, Space.mapBundles, Space.mapBundles,
        Space.mapBundlesAll_eq, Space.mapBundlesAll_eq, h.scope, hown, hmetrics, hinside]

theorem mapBundles_survey (f : Frame) :
    ((f.mapBodies t).survey.space use).mapBundles forget =
      (f.survey.space use').mapBundles forget := by
  rw [survey, survey, h.scope_mapBodies]
  exact h.mapBundles_space f _

end Hides

end Frame

end ScopeMetrics
