import ScopeMetrics.Proofs.Combining
import ScopeMetrics.Space

/-!
# Rolled-up metrics

The metrics of a space are made from inside out: its own bundle, combined with the metrics of each
space inside, and derived.  The tree they are made along does not show in them.

* `Space.metrics_of_isRolled`: the metrics of a space are its own bundle joined with the own
  bundles of all spaces below it, and derived.
* `Merge.derive_total`: bundles may be put together in any order and in any groups.
* **`Draft.metrics_of_any_merge`**: every space of a closed unit has the metrics that any merge of
  the own bundles of its subtree derives to, and any other tree rolled up over the same own
  bundles has them too.
-/

namespace ScopeMetrics

/-! ### Trees of frames, of spaces and of parcels -/

namespace Frame

mutual

/-- A frame and all frames inside it, in preorder. -/
def frames : Frame → List Frame
  | .mk b fs => .mk b fs :: framesAll fs

def framesAll : List Frame → List Frame
  | [] => []
  | f :: fs => f.frames ++ framesAll fs

end

theorem framesAll_eq (fs : List Frame) : framesAll fs = fs.flatMap frames := by
  induction fs with
  | nil => rfl
  | cons f fs ih => rw [framesAll, ih, List.flatMap_cons]

/-- What is inside a frame that is inside another is inside the other. -/
theorem mem_frames_trans {f g h : Frame} (hg : g ∈ f.frames) (hh : h ∈ g.frames) :
    h ∈ f.frames := by
  induction f with
  | mk body inside ih =>
      rw [frames, framesAll_eq] at hg ⊢
      rcases List.mem_cons.mp hg with rfl | hg
      · rwa [frames, framesAll_eq] at hh
      · obtain ⟨k, hk, hg⟩ := List.mem_flatMap.mp hg
        exact List.mem_cons_of_mem _ (List.mem_flatMap.mpr ⟨k, hk, ih k hk hg⟩)

end Frame

namespace Space

/-- A space and all spaces inside it, in preorder. -/
def all (s : Space) : List Space := s.withDepth.map Prod.snd

theorem map_withDepthAll {depth : Nat} {ss : List Space}
    (h : ∀ s ∈ ss, (s.withDepthFrom depth).map Prod.snd = s.all) :
    (withDepthAll depth ss).map Prod.snd = ss.flatMap all := by
  induction ss with
  | nil => rfl
  | cons s ss ih =>
      rw [withDepthAll, List.map_append, h s List.mem_cons_self,
        ih fun t ht => h t (List.mem_cons_of_mem s ht), List.flatMap_cons]

theorem map_withDepthFrom (s : Space) : ∀ depth, (s.withDepthFrom depth).map Prod.snd = s.all := by
  induction s with
  | mk scope own metrics inside ih =>
      intro depth
      rw [all, withDepth, withDepthFrom, withDepthFrom, List.map_cons, List.map_cons,
        map_withDepthAll fun s hs => ih s hs _, map_withDepthAll fun s hs => ih s hs _]

theorem all_mk (scope : Scope) (own metrics : Bundle) (inside : List Space) :
    (mk scope own metrics inside).all = .mk scope own metrics inside :: inside.flatMap all := by
  rw [all, withDepth, withDepthFrom, List.map_cons,
    map_withDepthAll fun s _ => s.map_withDepthFrom _]

/-- The spaces inside a space, at any depth. -/
def descendants (s : Space) : List Space := s.inside.flatMap all

theorem all_eq (s : Space) : s.all = s :: s.descendants := by
  cases s
  exact all_mk _ _ _ _

end Space

namespace Parcel

/-- A parcel and all parcels inside it, in preorder. -/
def all (p : Parcel) : List Parcel := (p.withDepth 0).map Prod.snd

theorem map_withDepthAll {depth : Nat} {ps : List Parcel}
    (h : ∀ p ∈ ps, (p.withDepth depth).map Prod.snd = p.all) :
    (withDepthAll depth ps).map Prod.snd = ps.flatMap all := by
  induction ps with
  | nil => rfl
  | cons p ps ih =>
      rw [withDepthAll, List.map_append, h p List.mem_cons_self,
        ih fun q hq => h q (List.mem_cons_of_mem p hq), List.flatMap_cons]

theorem map_withDepth (p : Parcel) : ∀ depth, (p.withDepth depth).map Prod.snd = p.all := by
  induction p with
  | mk body span inside ih =>
      intro depth
      rw [all, withDepth, withDepth, List.map_cons, List.map_cons,
        map_withDepthAll fun p hp => ih p hp _, map_withDepthAll fun p hp => ih p hp _]

theorem all_mk (body : Frame.Body) (span : Span) (inside : List Parcel) :
    (mk body span inside).all = .mk body span inside :: inside.flatMap all := by
  rw [all, withDepth, List.map_cons, map_withDepthAll fun p _ => p.map_withDepth _]

theorem all_eq (p : Parcel) : p.all = p :: p.inside.flatMap all := by
  cases p
  exact all_mk _ _ _

theorem spaceAll_eq (use : LineUse) (ps : List Parcel) : spaceAll use ps = ps.map (space use) := by
  induction ps with
  | nil => rfl
  | cons p ps ih => rw [spaceAll, ih, List.map_cons]

/-- The spaces of a unit are those of its parcels, in the same order. -/
theorem all_space (use : LineUse) (p : Parcel) : (p.space use).all = p.all.map (space use) := by
  induction p with
  | mk body span inside ih =>
      have hinside : (inside.map (space use)).flatMap Space.all =
          (inside.flatMap all).map (space use) := by
        rw [List.flatMap_map, List.map_flatMap]
        exact congrArg List.flatten (List.map_congr_left ih)
      rw [all_mk, List.map_cons, space, Space.all_mk, spaceAll_eq, hinside]

theorem descendants_space (use : LineUse) (p : Parcel) :
    (p.space use).descendants = (p.inside.flatMap all).map (space use) := by
  have h := p.all_space use
  rw [Space.all_eq, all_eq, List.map_cons] at h
  exact (List.cons.inj h).2

end Parcel

/-! ### Rolling up -/

namespace Space

/-- Whether a space and all spaces inside it have the metrics that rolling up gives them. -/
def IsRolled (t : Space) : Prop := ∀ s ∈ t.all, s.metrics = Parcel.rolledUp s.own s.inside

theorem IsRolled.inside {scope : Scope} {own metrics : Bundle} {inside : List Space}
    (h : (mk scope own metrics inside).IsRolled) : ∀ s ∈ inside, s.IsRolled := by
  intro s hs u hu
  refine h u ?_
  rw [all_mk]
  exact List.mem_cons_of_mem _ (List.mem_flatMap.mpr ⟨s, hs, hu⟩)

end Space

theorem Parcel.rolledUp_eq (own : Bundle) (inside : List Space) :
    rolledUp own inside = (own.joined (inside.map Space.metrics)).derive := by
  rw [rolledUp, Bundle.joined, List.foldl_map]

/-- A draft's spaces are rolled up. -/
theorem Parcel.isRolled_space (use : LineUse) (p : Parcel) : (p.space use).IsRolled := by
  intro s hs
  rw [all_space] at hs
  obtain ⟨⟨_, _, _⟩, -, rfl⟩ := List.mem_map.mp hs
  rfl

namespace Space

/-- The metrics of a space are those of its subtree, put together in preorder. -/
theorem metrics_of_isRolled {s : Space} (h : s.IsRolled) :
    s.metrics = (s.own.joined (s.descendants.map own)).derive := by
  induction s with
  | mk scope own metrics inside ih =>
      have hmetrics : metrics = Parcel.rolledUp own inside :=
        h (.mk scope own metrics inside) (by rw [all_eq]; exact List.mem_cons_self)
      have hgroups : ∀ s ∈ inside,
          s.metrics.derive = (s.own.joined (s.descendants.map Space.own)).derive := fun s hs => by
        rw [ih s hs (h.inside s hs), Bundle.derive_derive]
      show metrics = (own.joined ((inside.flatMap all).map Space.own)).derive
      rw [hmetrics, Parcel.rolledUp_eq, Bundle.derive_joined_groups hgroups, List.map_flatMap]
      simp only [all_eq, List.map_cons]

end Space

/-! ### Merging in any order and grouping -/

/-- A way to put bundles together: one bundle alone, two merges combined, or a merge whose index
is derived before it goes on. -/
inductive Merge where
  | one (b : Bundle)
  | both (left right : Merge)
  | derived (m : Merge)

namespace Merge

/-- The bundle that a merge gives. -/
def total : Merge → Bundle
  | one b => b
  | both l r => l.total.combine r.total
  | derived m => m.total.derive

/-- The bundles that a merge puts together. -/
def parts : Merge → List Bundle
  | one b => [b]
  | both l r => l.parts ++ r.parts
  | derived m => m.parts

/-- What a merge derives to is what its parts give from left to right. -/
theorem derive_total (m : Merge) :
    ∃ b bs, m.parts = b :: bs ∧ m.total.derive = (b.joined bs).derive := by
  induction m with
  | one b => exact ⟨b, [], rfl, rfl⟩
  | both l r ihl ihr =>
      obtain ⟨b, bs, hl, hltotal⟩ := ihl
      obtain ⟨c, cs, hr, hrtotal⟩ := ihr
      refine ⟨b, bs ++ c :: cs, by rw [parts, hl, hr, List.cons_append], ?_⟩
      calc (l.total.combine r.total).derive
          = ((b.joined bs).combine (c.joined cs)).derive :=
            Bundle.derive_combine_congr hltotal hrtotal
        _ = (b.joined (bs ++ c :: cs)).derive := by
            rw [Bundle.combine_joined, Bundle.joined_append]; rfl
  | derived m ih => exact ih

end Merge

namespace Space

/-- The metrics of a space are what any merge of the own bundles of its subtree derives to. -/
theorem derive_total_of_perm {s : Space} (h : s.IsRolled) {m : Merge}
    (hm : m.parts.Perm (s.all.map own)) : s.metrics = m.total.derive := by
  obtain ⟨b, bs, hparts, htotal⟩ := m.derive_total
  rw [hparts, all_eq, List.map_cons] at hm
  rw [metrics_of_isRolled h, htotal, Bundle.derive_joined_cons_perm hm]

/-- Trees that are rolled up over the same own bundles have the same metrics. -/
theorem metrics_eq_of_perm {s t : Space} (hs : s.IsRolled) (ht : t.IsRolled)
    (h : (t.all.map own).Perm (s.all.map own)) : t.metrics = s.metrics := by
  rw [all_eq, all_eq, List.map_cons, List.map_cons] at h
  rw [metrics_of_isRolled hs, metrics_of_isRolled ht, Bundle.derive_joined_cons_perm h]

/-- Some of the spaces inside may be rolled up by themselves and be merged in at the end. -/
theorem derive_combine_rolledUp {s : Space} (hs : s.IsRolled) {kept : List Space} {t : Space}
    {apart : List Space} (h : (kept ++ t :: apart).Perm s.inside) :
    ((Parcel.rolledUp s.own kept).combine (Parcel.rolledUp t.metrics apart)).derive =
      s.metrics := by
  have hmetrics : s.metrics = Parcel.rolledUp s.own s.inside :=
    hs s (by rw [all_eq]; exact List.mem_cons_self)
  rw [hmetrics, Parcel.rolledUp_eq, Parcel.rolledUp_eq, Parcel.rolledUp_eq,
    Bundle.derive_combine_left, Bundle.derive_combine_right, Bundle.combine_joined,
    ← Bundle.derive_joined_perm (h.map metrics), List.map_append, Bundle.joined_append]
  rfl

end Space

namespace Draft

/-- **Rolling up does not depend on order or grouping.**  The spaces of a unit whose frames are
closed exist, and each has the metrics that every merge of the own bundles of its subtree derives
to.  Any tree that is rolled up over the same own bundles, its spaces permuted at any depth, has
the same metrics; so has the space itself if some of the spaces inside are rolled up apart. -/
theorem metrics_of_any_merge (d : Draft) (hclosed : d.unit.open? = none) :
    ∃ root, d.spaces = .ok root ∧ ∀ s ∈ root.all,
      (∀ m : Merge, m.parts.Perm (s.all.map Space.own) → s.metrics = m.total.derive) ∧
      (∀ t : Space, t.IsRolled → (t.all.map Space.own).Perm (s.all.map Space.own) →
        t.metrics = s.metrics) ∧
      ∀ kept t apart, (kept ++ t :: apart).Perm s.inside →
        ((Parcel.rolledUp s.own kept).combine (Parcel.rolledUp t.metrics apart)).derive =
          s.metrics := by
  refine ⟨d.unit.survey.space d.lineUse, by rw [spaces, hclosed], fun s hs => ?_⟩
  rw [Parcel.all_space] at hs
  obtain ⟨p, -, rfl⟩ := List.mem_map.mp hs
  have hrolled := p.isRolled_space d.lineUse
  exact ⟨fun m => Space.derive_total_of_perm hrolled, fun t => Space.metrics_eq_of_perm hrolled,
    fun kept t apart => Space.derive_combine_rolledUp hrolled⟩

/-- Two methods of a class, one with an operand and one with a comment, and a function after it. -/
theorem metrics_of_any_merge_methods :
    let frame (kind : SpaceKind) (low high : Int) (events : List Event) :=
      Frame.mk { scope := { kind, name := none, startLine := low, endLine := high }, events }
    let d : Draft :=
      ⟨frame .unit 1 9 []
        [frame .class_ 1 6 []
          [frame .function 2 3 [{ kind := "name", category := {.operand}, text := "x" }] [],
           frame .function 4 6 [{ kind := "comment", category := {.comment} }] []],
         frame .function 6 8 [] []], [9]⟩
    d.unit.open? = none ∧
    ∃ root, d.spaces = .ok root ∧ ∀ s ∈ root.all,
      (∀ m : Merge, m.parts.Perm (s.all.map Space.own) → s.metrics = m.total.derive) ∧
      (∀ t : Space, t.IsRolled → (t.all.map Space.own).Perm (s.all.map Space.own) →
        t.metrics = s.metrics) ∧
      ∀ kept t apart, (kept ++ t :: apart).Perm s.inside →
        ((Parcel.rolledUp s.own kept).combine (Parcel.rolledUp t.metrics apart)).derive =
          s.metrics :=
  ⟨rfl, metrics_of_any_merge _ rfl⟩

end Draft

end ScopeMetrics
