import Mathlib.Data.List.Nodup
import Mathlib.Data.List.Perm.Basic
import ScopeMetrics.Proofs.Rollup

/-!
# Every line has one owner

A survey divides the lines of a unit among its frames, wherever the frames start and end: out of
order, overlapping, sticking out of their parent or of negative length.

* `Frame.divides_surveyAll`: neighbours get ranges that lie in what was free and do not meet.
* `Frame.perm_ownLines`: the own lines of a frame and of all frames inside it are, in some order,
  the lines of its range.
* `Parcel.loc_metrics`: the rolled-up line counts of a space are the counts over the own lines of
  its subtree.
* **`Frame.survey_partitions`**: own lines do not meet, together they are the lines of the unit,
  and a space has as many lines, rolled up, as its range.
-/

namespace ScopeMetrics

namespace Span

theorem mem_lines {s : Span} {n : Int} : n ∈ s.lines ↔ s.low ≤ n ∧ n ≤ s.high := mem_linesFrom

theorem contains_iff {s : Span} {n : Int} : s.contains n = true ↔ n ∈ s.lines := by
  rw [contains, Bool.and_eq_true, decide_eq_true_iff, decide_eq_true_iff, mem_lines]

theorem nodup_lines (s : Span) : s.lines.Nodup :=
  (increasing_linesFrom s.low s.high).imp Int.ne_of_lt

theorem length_lines (s : Span) : Int.ofNat s.lines.length = max 0 (s.high + 1 - s.low) := by
  rw [lines, linesFrom, List.length_map, List.length_range, Int.ofNat_eq_natCast, Int.toNat_eq_max,
    Int.max_comm]

end Span

/-! ### One level -/

namespace Parcel

/-- Whether parcels take their lines from a range, and no line twice. -/
structure Divides (s : Span) (ps : List Parcel) : Prop where
  within : ∀ p ∈ ps, ∀ n ∈ p.span.lines, n ∈ s.lines
  apart : ps.Pairwise fun p q => p.span.lines.Disjoint q.span.lines

theorem mem_remaining {s : Span} {ps : List Parcel} {n : Int} :
    n ∈ remaining s ps ↔ n ∈ s.lines ∧ ∀ p ∈ ps, n ∉ p.span.lines := by
  rw [remaining, List.mem_filter, Bool.not_eq_true', List.any_eq_false]
  simp only [Span.contains_iff]

/-- What parcels take of a range and what they leave is the range. -/
theorem Divides.perm {s : Span} {ps : List Parcel} (h : Divides s ps) :
    (remaining s ps ++ ps.flatMap fun p => p.span.lines).Perm s.lines := by
  have hleft : (remaining s ps).Nodup := s.nodup_lines.filter _
  have htaken : (ps.flatMap fun p => p.span.lines).Nodup :=
    List.nodup_flatMap.mpr ⟨fun p _ => p.span.nodup_lines, h.apart⟩
  have hdisjoint : (remaining s ps).Disjoint (ps.flatMap fun p => p.span.lines) := by
    intro n hn hp
    obtain ⟨p, hp, hnp⟩ := List.mem_flatMap.mp hp
    exact (mem_remaining.mp hn).2 p hp hnp
  refine (List.perm_ext_iff_of_nodup (hleft.append htaken hdisjoint) s.nodup_lines).mpr ?_
  intro n
  rw [List.mem_append, mem_remaining, List.mem_flatMap]
  constructor
  · rintro (⟨hn, -⟩ | ⟨p, hp, hn⟩)
    · exact hn
    · exact h.within p hp n hn
  · intro hn
    by_cases htaken : ∃ p ∈ ps, n ∈ p.span.lines
    · exact .inr htaken
    · exact .inl ⟨hn, fun p hp hnp => htaken ⟨p, hp, hnp⟩⟩

end Parcel

namespace Frame

theorem span_surveyIn (f : Frame) (s : Span) : (f.surveyIn s).span = s := by
  cases f
  rw [surveyIn, Parcel.span]

/-- Neighbours take their lines from those that are free, and no line twice.  What is free begins
behind the last neighbour that took a line, so an empty range must leave the cursor alone. -/
theorem divides_surveyAll (fs : List Frame) (high : Int) : ∀ cursor,
    Parcel.Divides ⟨cursor, high⟩ (surveyAll high cursor fs) := by
  induction fs with
  | nil => exact fun _ => ⟨fun p hp => absurd hp List.not_mem_nil, .nil⟩
  | cons f fs ih =>
      intro cursor
      have hrest := ih ((f.reach cursor high).freeAfter cursor)
      have hlow : cursor ≤ (f.reach cursor high).low := Int.le_max_right _ _
      have hhigh : (f.reach cursor high).high ≤ high := Int.min_le_right _ _
      have hfree : cursor ≤ (f.reach cursor high).freeAfter cursor := by
        unfold Span.freeAfter
        split <;> omega
      have hbehind : ∀ n ∈ (f.reach cursor high).lines,
          n < (f.reach cursor high).freeAfter cursor := by
        intro n hn
        rw [Span.mem_lines] at hn
        rw [Span.freeAfter, if_pos (by omega)]
        omega
      constructor
      · intro p hp n hn
        rcases List.mem_cons.mp hp with rfl | hp
        · rw [span_surveyIn, Span.mem_lines] at hn
          exact Span.mem_lines.mpr ⟨Int.le_trans hlow hn.1, Int.le_trans hn.2 hhigh⟩
        · have hn := Span.mem_lines.mp (hrest.within p hp n hn)
          exact Span.mem_lines.mpr ⟨Int.le_trans hfree hn.1, hn.2⟩
      · refine List.pairwise_cons.mpr ⟨fun p hp n hf hn => ?_, hrest.apart⟩
        rw [span_surveyIn] at hf
        have hn := Span.mem_lines.mp (hrest.within p hp n hn)
        exact absurd (hbehind n hf) (Int.not_lt.mpr hn.1)

theorem exists_of_mem_surveyAll {p : Parcel} {high : Int} {fs : List Frame} : ∀ {cursor : Int},
    p ∈ surveyAll high cursor fs → ∃ f ∈ fs, ∃ s, p = f.surveyIn s := by
  induction fs with
  | nil => exact fun hp => absurd hp List.not_mem_nil
  | cons f fs ih =>
      intro cursor hp
      rcases List.mem_cons.mp hp with rfl | hp
      · exact ⟨f, List.mem_cons_self, _, rfl⟩
      · obtain ⟨g, hg, s, rfl⟩ := ih hp
        exact ⟨g, List.mem_cons_of_mem f hg, s, rfl⟩

/-! ### All levels -/

/-- The own lines of a frame and of all frames inside it are the lines it was given. -/
theorem perm_ownLines (f : Frame) : ∀ s : Span,
    ((f.surveyIn s).all.flatMap Parcel.ownLines).Perm s.lines := by
  induction f with
  | mk body inside ih =>
      intro s
      have hinside : ∀ p ∈ surveyAll s.high s.low inside,
          (p.all.flatMap Parcel.ownLines).Perm p.span.lines := by
        intro p hp
        obtain ⟨f, hf, t, rfl⟩ := exists_of_mem_surveyAll hp
        rw [span_surveyIn]
        exact ih f hf t
      rw [surveyIn, Parcel.all_mk, List.flatMap_cons, List.flatMap_assoc]
      exact ((List.Perm.flatMap_left _ hinside).append_left _).trans
        (divides_surveyAll inside s.high s.low).perm

/-- Every parcel of a survey is the survey of a frame inside, in some range. -/
theorem exists_mem_frames_of_mem_all {p : Parcel} {f : Frame} : ∀ {s : Span},
    p ∈ (f.surveyIn s).all → ∃ g ∈ f.frames, ∃ t, p = surveyIn t g := by
  induction f with
  | mk body inside ih =>
      intro s hp
      rw [surveyIn, Parcel.all_mk] at hp
      rw [frames, framesAll_eq]
      rcases List.mem_cons.mp hp with rfl | hp
      · exact ⟨.mk body inside, List.mem_cons_self, s, by rw [surveyIn]⟩
      · obtain ⟨q, hq, hp⟩ := List.mem_flatMap.mp hp
        obtain ⟨f, hf, t, rfl⟩ := exists_of_mem_surveyAll hq
        obtain ⟨g, hg, u, rfl⟩ := ih f hf hp
        exact ⟨g, List.mem_cons_of_mem _ (List.mem_flatMap.mpr ⟨f, hf, hg⟩), u, rfl⟩

/-- Every parcel of a survey is the survey of a frame in a range. -/
theorem exists_of_mem_all {p : Parcel} {f : Frame} {s : Span} (hp : p ∈ (f.surveyIn s).all) :
    ∃ g t, p = surveyIn t g := by
  obtain ⟨g, -, t, h⟩ := exists_mem_frames_of_mem_all hp
  exact ⟨g, t, h⟩

theorem map_body_surveyAll {fs : List Frame}
    (h : ∀ f ∈ fs, ∀ s, (f.surveyIn s).all.map Parcel.body = f.bodies) (high : Int) :
    ∀ cursor, ((surveyAll high cursor fs).flatMap Parcel.all).map Parcel.body = bodiesAll fs := by
  induction fs with
  | nil => exact fun _ => rfl
  | cons f fs ih =>
      intro cursor
      rw [surveyAll, List.flatMap_cons, List.map_append, h f List.mem_cons_self,
        ih (fun g hg => h g (List.mem_cons_of_mem f hg)), bodiesAll]

/-- A survey has one parcel for each frame, in the same order. -/
theorem map_body_surveyIn (f : Frame) : ∀ s : Span,
    (f.surveyIn s).all.map Parcel.body = f.bodies := by
  induction f with
  | mk body inside ih =>
      intro s
      rw [surveyIn, Parcel.all_mk, List.map_cons, map_body_surveyAll ih, bodies, Parcel.body]

end Frame

/-! ### Line counts -/

namespace Loc

theorem ofLines_combine (xs ys : List Int) (code comments blank : Int → Bool) (m n : Int) :
    (ofLines xs code comments m blank).combine (ofLines ys code comments n blank) =
      ofLines (xs ++ ys) code comments (m + n) blank := by
  simp only [ofLines, combine, tallyOf, List.length_append, List.countP_append,
    Int.ofNat_eq_natCast, Int.natCast_add]

theorem ofLines_perm {xs ys : List Int} (h : xs.Perm ys) (code comments blank : Int → Bool)
    (n : Int) : ofLines xs code comments n blank = ofLines ys code comments n blank := by
  simp only [ofLines, tallyOf, h.length_eq, h.countP_eq]

end Loc

/-- The line counts of some lines in a unit. -/
def LineUse.count (use : LineUse) (lines : List Int) (lloc : Int) : Loc :=
  .ofLines lines use.code.contains use.comments.contains lloc use.blank.contains

namespace Parcel

theorem loc_own (use : LineUse) (p : Parcel) :
    (p.space use).own.loc = use.count p.ownLines p.body.tally.lloc := by
  cases p
  rfl

/-- The number of statements in a list of parcels. -/
def statements (ps : List Parcel) : Int := ps.foldr (fun p n => p.body.tally.lloc + n) 0

theorem loc_joined (use : LineUse) (ps : List Parcel) : ∀ {b : Bundle} {lines : List Int}
    {lloc : Int}, b.loc = use.count lines lloc →
      (b.joined (ps.map fun p => (p.space use).own)).loc =
        use.count (lines ++ ps.flatMap ownLines) (lloc + statements ps) := by
  induction ps with
  | nil =>
      intro b lines lloc h
      rw [List.flatMap_nil, List.append_nil, statements, List.foldr_nil, Int.add_zero]
      exact h
  | cons p ps ih =>
      intro b lines lloc h
      have hp : (b.combine (p.space use).own).loc =
          use.count (lines ++ p.ownLines) (lloc + p.body.tally.lloc) := by
        show b.loc.combine (p.space use).own.loc = _
        rw [h, loc_own]
        exact Loc.ofLines_combine _ _ _ _ _ _ _
      rw [List.map_cons, List.flatMap_cons, ← List.append_assoc, statements, List.foldr_cons,
        ← Int.add_assoc]
      exact ih hp

/-- The rolled-up line counts are the counts over the own lines of the subtree. -/
theorem loc_metrics (use : LineUse) (p : Parcel) :
    (p.space use).metrics.loc = use.count (p.all.flatMap ownLines) (statements p.all) := by
  rw [Space.metrics_of_isRolled (p.isRolled_space use), descendants_space, List.map_map, all_eq]
  exact loc_joined use _ (p.loc_own use)

end Parcel

/-- The rolled-up line counts of a frame are the counts over its range. -/
theorem Frame.loc_metrics_surveyIn (use : LineUse) (f : Frame) (s : Span) :
    ((f.surveyIn s).space use).metrics.loc =
      use.count s.lines (Parcel.statements (f.surveyIn s).all) := by
  rw [Parcel.loc_metrics]
  exact Loc.ofLines_perm (f.perm_ownLines s) _ _ _ _

theorem Parcel.scope_space (use : LineUse) (p : Parcel) : (p.space use).scope = p.body.scope := by
  cases p
  rfl

namespace Frame

theorem scope_space_surveyIn (use : LineUse) (f : Frame) (span : Span) :
    ((f.surveyIn span).space use).scope = f.scope := by
  obtain ⟨body, inside⟩ := f
  rw [surveyIn, Parcel.scope_space]
  rfl

theorem map_scope_surveyAll (use : LineUse) (high : Int) (fs : List Frame) : ∀ cursor,
    ((surveyAll high cursor fs).map (Parcel.space use)).map Space.scope = fs.map scope := by
  induction fs with
  | nil => exact fun _ => rfl
  | cons f fs ih =>
      intro cursor
      rw [surveyAll, List.map_cons, List.map_cons, List.map_cons, ih, scope_space_surveyIn]

/-- The spaces directly inside that of a frame have the scopes of the frames directly inside. -/
theorem map_scope_inside (use : LineUse) (f : Frame) (span : Span) :
    ((f.surveyIn span).space use).inside.map Space.scope = f.inside.map scope := by
  obtain ⟨body, inside⟩ := f
  rw [surveyIn, Parcel.space, Space.inside, Parcel.spaceAll_eq, map_scope_surveyAll, Frame.inside]

/-- **Every line has one owner.**  Frames may start and end anywhere.  There is one parcel for each
frame; no two own the same line; a line of the unit, and no other, has an owner.  If the frames are
closed their spaces exist, and each has as many lines, rolled up, as the range of its frame. -/
theorem survey_partitions (f : Frame) (blankLines : List Int) :
    f.survey.all.map Parcel.body = f.bodies ∧
    f.survey.all.Pairwise (fun p q => p.ownLines.Disjoint q.ownLines) ∧
    (∀ n, (∃ p ∈ f.survey.all, n ∈ p.ownLines) ↔ f.scope.startLine ≤ n ∧ n ≤ f.scope.endLine) ∧
    (f.open? = none → ∃ root, Draft.spaces ⟨f, blankLines⟩ = .ok root ∧
      root.all.map (fun s => (s.scope, s.metrics.loc.sloc)) =
        f.survey.all.map fun p => (p.body.scope, max 0 (p.span.high + 1 - p.span.low))) := by
  have hlines := f.perm_ownLines ⟨f.scope.startLine, f.scope.endLine⟩
  refine ⟨f.map_body_surveyIn _, ?_, fun n => ?_, fun hclosed => ?_⟩
  · exact (List.nodup_flatMap.mp (hlines.nodup_iff.mpr (Span.nodup_lines _))).2
  · rw [← List.mem_flatMap]
    exact hlines.mem_iff.trans Span.mem_lines
  · refine ⟨_, by rw [Draft.spaces, hclosed], ?_⟩
    rw [Parcel.all_space, List.map_map]
    refine List.map_congr_left fun p hp => ?_
    obtain ⟨g, s, rfl⟩ := exists_of_mem_all hp
    rw [Function.comp_apply, Parcel.scope_space, loc_metrics_surveyIn, span_surveyIn,
      ← s.length_lines]
    rfl

/-- A unit of ten lines: the first function holds a closure that sticks out of it and one of
negative length, the second starts inside the first, and the third lies before both. -/
theorem survey_partitions_overlapping :
    let frame (kind : SpaceKind) (low high : Int) :=
      Frame.mk { scope := { kind, name := none, startLine := low, endLine := high } }
    let f : Frame := frame .unit 1 10
      [frame .function 3 6 [frame .closure 5 9 [], frame .closure 4 2 []],
       frame .function 6 8 [], frame .function 1 4 []]
    f.open? = none ∧
    f.survey.all.map Parcel.ownLines = [[1, 2, 9, 10], [3, 4], [5, 6], [], [7, 8], []] ∧
    ∃ root, Draft.spaces ⟨f, []⟩ = .ok root ∧
      root.all.map (fun s => (s.scope, s.metrics.loc.sloc)) =
        f.survey.all.map fun p => (p.body.scope, max 0 (p.span.high + 1 - p.span.low)) :=
  ⟨rfl, by decide, (survey_partitions _ []).2.2.2 rfl⟩

end Frame

end ScopeMetrics
