import ScopeMetrics.Proofs.Partition
import ScopeMetrics.Proofs.SourceLines
import ScopeMetrics.Proofs.Walk

/-!
# The line counts of a unit

Lines with code and with comments are collected frame by frame, are compared with the lines of the
whole unit, and are counted where the frames own them.  Rolled up over the unit this is one count
over its lines, as if it had no frames.

* `Tally.Collects.contains_foldl`: a line is collected if an event of the right kind lies on it.
* `Reading.bodies_walk`: all frames of a walk are closed, and no event in them carries both code
  and a comment.
* `Loc.isConsistent_ofLines`: what holds between the counts of any lines.
* **`Reading.loc_walk`**: the counts of the unit are those of the lines of its source, and the
  counts of every space are consistent.
-/

namespace ScopeMetrics

/-! ### Lines that events touch -/

/-- Whether an event lies on a line. -/
def Event.covers (e : Event) (n : Int) : Bool := e.startLine ≤ n && n ≤ e.endLine

theorem Event.covers_iff {e : Event} {n : Int} :
    e.covers n = true ↔ n ∈ LineSet.range e.startLine e.endLine := by
  rw [covers, Bool.and_eq_true, decide_eq_true_iff, decide_eq_true_iff]
  exact mem_linesFrom.symm

namespace Frame

/-- The events of a frame and of all frames inside it. -/
def events (f : Frame) : List Event := f.bodies.flatMap Body.events

/-- Whether an event that satisfies `p` lies on a line, in the frame or in one inside it. -/
def touches (f : Frame) (p : Event → Bool) (n : Int) : Bool :=
  f.events.any fun e => p e && e.covers n

theorem touches_congr {f : Frame} {p q : Event → Bool} (h : ∀ e ∈ f.events, p e = q e) :
    f.touches p = f.touches q := by
  funext n
  rw [touches, touches, Bool.eq_iff_iff, List.any_eq_true, List.any_eq_true]
  exact exists_congr fun e => and_congr_right fun he => by rw [h e he]

end Frame

/-! ### Collecting lines

The lines with code and the lines with comments are two parts of a tally that are collected in the
same way: an event that satisfies some `p` gives its lines, and merging unites. -/

/-- A part of a tally that holds the lines of the events that satisfy `p`. -/
structure Tally.Collects (part : Tally → LineSet) (p : Event → Bool) : Prop where
  empty : part {} = ∅
  merge : ∀ a b, part (a.merge b) = (part a).union (part b)
  event : ∀ e, part (.ofEvent e) = if p e then LineSet.range e.startLine e.endLine else ∅

theorem Tally.collects_codeLines :
    Collects codeLines fun e => !e.has .comment && e.category.meets .code :=
  ⟨rfl, fun _ _ => rfl, fun _ => rfl⟩

theorem Tally.collects_commentLines : Collects commentLines fun e => e.has .comment :=
  ⟨rfl, fun _ _ => rfl, fun _ => rfl⟩

namespace Tally.Collects

variable {part : Tally → LineSet} {p : Event → Bool} {n : Int}

theorem mem_event (h : Collects part p) (e : Event) :
    n ∈ part (.ofEvent e) ↔ p e = true ∧ e.covers n = true := by
  rw [h.event, Event.covers_iff]
  split
  · rename_i hp
    exact ⟨fun hn => ⟨hp, hn⟩, And.right⟩
  · rename_i hp
    exact ⟨fun hn => absurd hn SortedSet.not_mem_empty, fun hn => absurd hn.1 hp⟩

theorem mem_foldl_observe (h : Collects part p) (es : List Event) : ∀ {t : Tally},
    n ∈ part (es.foldl observe t) ↔ n ∈ part t ∨ ∃ e ∈ es, p e = true ∧ e.covers n = true := by
  induction es with
  | nil => simp
  | cons e es ih =>
      intro t
      rw [List.foldl_cons, ih, observe, h.merge, SortedSet.mem_union, h.mem_event]
      simp only [List.mem_cons, exists_eq_or_imp, or_assoc]

/-- Over all frames, the part holds the lines of the events in any of them. -/
theorem contains_foldl (h : Collects part p) (f : Frame) :
    (f.bodies.foldl (fun (s : LineSet) b => s.union (part b.tally)) ∅).contains = f.touches p := by
  have hbody : ∀ {n : Int} (b : Frame.Body),
      n ∈ part b.tally ↔ ∃ e ∈ b.events, p e = true ∧ e.covers n = true := fun b => by
    rw [Frame.Body.tally, ofEvents, h.mem_foldl_observe, h.empty]
    exact or_iff_right SortedSet.not_mem_empty
  funext n
  rw [Bool.eq_iff_iff, SortedSet.contains_iff, SortedSet.mem_foldl_union,
    or_iff_right SortedSet.not_mem_empty, Frame.touches, List.any_eq_true]
  simp only [hbody, Frame.events, List.mem_flatMap, Bool.and_eq_true]
  constructor
  · rintro ⟨b, hb, e, he, hn⟩
    exact ⟨e, ⟨b, hb, he⟩, hn⟩
  · rintro ⟨e, ⟨b, hb, he⟩, hn⟩
    exact ⟨b, hb, e, he, hn⟩

end Tally.Collects

/-! ### Events of a walk -/

namespace Reading

variable {r : Reading}

/-- No event of a node carries both a comment and code. -/
theorem code_categoryIn_of_comment {s : Surroundings} {p : Place}
    (h : (r.categoryIn s p).has .comment = true) : (r.categoryIn s p).meets .code = false := by
  rw [has_categoryIn (by decide)] at h
  rw [categoryIn_of_comment h]
  decide

theorem bodies_walk (r : Reading) (name : Option String) (root : Node) :
    ∀ b ∈ (r.walk name root).draft.unit.bodies, b.closed = true ∧
      ∀ e ∈ b.events, e.has .comment = true → e.category.meets .code = false := by
  refine forall_mem_bodies_walk ?_ ?_ ?_ name root
  · intro n c h
    rw [Event.has, openingEvent, Category.has_inter, Bool.and_eq_true] at h
    exact absurd h.2 (by decide)
  · intro s access n c e he h
    obtain ⟨-, he⟩ := List.mem_ite_nil_right.mp he
    obtain rfl := List.mem_singleton.mp he
    have hcomment : ({.function} : Category).has .comment = true := h
    exact absurd hcomment (by decide)
  · intro s access p e he h
    obtain ⟨-, he⟩ := List.mem_ite_nil_left.mp he
    obtain rfl := List.mem_singleton.mp he
    exact code_categoryIn_of_comment h

theorem open?_walk (r : Reading) (name : Option String) (root : Node) :
    (r.walk name root).draft.unit.open? = none := by
  refine List.find?_eq_none.mpr fun b hb => ?_
  rw [(r.bodies_walk name root b hb).1]
  decide

/-- A walk always gives spaces. -/
theorem spaces_walk (r : Reading) (name : Option String) (root : Node) :
    let d := (r.walk name root).draft
    d.spaces = .ok (d.unit.survey.space d.lineUse) := by
  intro d
  rw [Draft.spaces, r.open?_walk]

/-- What the lines of a walk carry. -/
theorem lineUse_walk (r : Reading) (name : Option String) (root : Node) :
    let d := (r.walk name root).draft
    d.lineUse.code.contains = d.unit.touches (fun e => e.category.meets .code) ∧
      d.lineUse.comments.contains = d.unit.touches fun e => e.has .comment := by
  refine ⟨?_, Tally.collects_commentLines.contains_foldl _⟩
  refine (Tally.collects_codeLines.contains_foldl _).trans (Frame.touches_congr fun e he => ?_)
  obtain ⟨b, hb, he⟩ := List.mem_flatMap.mp he
  by_cases hc : e.has .comment = true
  · rw [hc, (r.bodies_walk name root b hb).2 e he hc]
    rfl
  · rw [Bool.not_eq_true] at hc
    rw [hc]
    rfl

end Reading

/-! ### Counts -/

namespace Loc

/-- What holds between the line counts of any lines: none is negative, and a blank line carries
neither code nor a comment. -/
structure IsConsistent (l : Loc) : Prop where
  ploc_nonneg : 0 ≤ l.ploc
  cloc_nonneg : 0 ≤ l.cloc
  blank_nonneg : 0 ≤ l.blank
  blank_add_ploc : l.blank + l.ploc ≤ l.sloc
  blank_add_cloc : l.blank + l.cloc ≤ l.sloc

/-- Lines that satisfy one of two properties that exclude each other. -/
theorem tallyOf_add_le {lines : List Int} {p q : Int → Bool}
    (h : ∀ n, p n = true → q n = false) : tallyOf lines p + tallyOf lines q ≤ lines.length := by
  have hle : lines.countP q ≤ lines.countP fun n => ¬ p n = true :=
    List.countP_mono_left fun n _ hq => by
      rw [decide_eq_true_iff]
      intro hp
      rw [h n hp] at hq
      cases hq
  have hlength := List.length_eq_countP_add_countP p (l := lines)
  simp only [tallyOf, Int.ofNat_eq_natCast]
  omega

theorem isConsistent_ofLines (lines : List Int) (code comments blank : Int → Bool) (lloc : Int) :
    (ofLines lines code comments lloc blank).IsConsistent where
  ploc_nonneg := Int.natCast_nonneg _
  cloc_nonneg := Int.natCast_nonneg _
  blank_nonneg := Int.natCast_nonneg _
  blank_add_ploc := tallyOf_add_le fun n h => by revert h; cases code n <;> simp
  blank_add_cloc := tallyOf_add_le fun n h => by revert h; cases comments n <;> simp

/-- The counts of the lines of a source, if `code` and `comment` say what a line carries. -/
structure CountsLines (l : Loc) (s : Source) (code comment : Int → Bool) : Prop where
  sloc : l.sloc = s.lines.length
  ploc : l.ploc = (linesFrom 1 s.lines.length).countP code
  cloc : l.cloc = (linesFrom 1 s.lines.length).countP comment
  blank : l.blank = (s.lines.zipIdx 1).countP fun (line, n) =>
    line.all Text.isBlankByte && !(code n || comment n)

theorem countsLines_ofLines (s : Source) (code comment : Int → Bool) (lloc : Int) :
    (ofLines (linesFrom 1 s.lines.length) code comment lloc s.blankLines.contains).CountsLines s
      code comment where
  sloc := by
    show Int.ofNat (Span.lines ⟨1, s.lines.length⟩).length = _
    rw [Span.length_lines, Int.add_sub_cancel]
    exact Int.max_eq_right (Int.natCast_nonneg _)
  ploc := rfl
  cloc := rfl
  blank := congrArg Int.ofNat (s.countP_blankLines fun n => !(code n || comment n))

end Loc

namespace Reading

/-- A unit whose root spans a byte of the source has the lines of the source. -/
theorem endLine_unitScope {r : Reading} {root : Node} (name : Option String)
    (hroot : root.label.start < root.label.stop) (hstop : root.label.stop ≤ r.source.length) :
    (r.unitScope name root).endLine = r.source.lines.length := by
  rw [Source.length_lines]
  exact Int.max_eq_right (Int.ofNat_le.mpr (Source.endLine_le_lineCount hroot hstop))

/-- **The line counts of a unit are flat.**  If the root of a tree spans a byte and ends within the
source, the unit has spaces, and its rolled-up counts are those of the lines of the source: lines
with code are those on which an event with the flag of a token, a terminator or a delimiter lies,
in whichever frame, and likewise for comments.  The counts of every space are consistent, its own
and those rolled up. -/
theorem loc_walk (r : Reading) (name : Option String) (root : Node)
    (hroot : root.label.start < root.label.stop) (hstop : root.label.stop ≤ r.source.length) :
    let d := (r.walk name root).draft
    ∃ unit, d.spaces = .ok unit ∧
      unit.metrics.loc.CountsLines r.source (d.unit.touches fun e => e.category.meets .code)
        (d.unit.touches fun e => e.has .comment) ∧
      ∀ s ∈ unit.all, s.own.loc.IsConsistent ∧ s.metrics.loc.IsConsistent := by
  intro d
  refine ⟨d.unit.survey.space d.lineUse, by rw [Draft.spaces, r.open?_walk], ?_, fun s hs => ?_⟩
  · obtain ⟨hcode, hcomments⟩ := r.lineUse_walk name root
    have hspan : Span.lines ⟨d.unit.scope.startLine, d.unit.scope.endLine⟩ =
        linesFrom 1 r.source.lines.length :=
      congrArg (linesFrom 1) (endLine_unitScope name hroot hstop)
    rw [Frame.survey, Frame.loc_metrics_surveyIn, LineUse.count, hcode, hcomments, hspan]
    exact Loc.countsLines_ofLines r.source _ _ _
  · rw [Parcel.all_space] at hs
    obtain ⟨p, -, rfl⟩ := List.mem_map.mp hs
    rw [p.loc_own, p.loc_metrics]
    exact ⟨Loc.isConsistent_ofLines _ _ _ _ _, Loc.isConsistent_ofLines _ _ _ _ _⟩

/-- A name on the first line, an empty line and a comment that ends at the very end of the source;
the root ends behind the last line feed. -/
theorem loc_walk_comment :
    let leaf (kind : String) (start stop : Nat) : Node :=
      .mk ⟨kind, true, false, start, stop, none⟩ []
    let r : Reading := { pack := Language.python.pack, source := ⟨[120, 10, 10, 35, 120, 10]⟩ }
    let root : Node :=
      .mk ⟨"module", true, false, 0, 6, none⟩ [leaf "identifier" 0 1, leaf "comment" 3 5]
    let d := (r.walk none root).draft
    root.label.start < root.label.stop ∧ root.label.stop ≤ r.source.length ∧
    ∃ unit, d.spaces = .ok unit ∧
      unit.metrics.loc.CountsLines r.source (d.unit.touches fun e => e.category.meets .code)
        (d.unit.touches fun e => e.has .comment) ∧
      ∀ s ∈ unit.all, s.own.loc.IsConsistent ∧ s.metrics.loc.IsConsistent :=
  ⟨by decide, by decide, loc_walk _ none _ (by decide) (by decide)⟩

end Reading

end ScopeMetrics
