import Mathlib.Data.List.Chain
import ScopeMetrics.Proofs.FlatLines

/-!
# Ranges of spaces

A parser gives every node a range of bytes, the children of a node in order within it.  The spaces
of a unit inherit this: each lies in the one around it, and neighbours do not overlap.  Their lines
follow from their bytes, with one subtlety: a node that ends right behind a line feed stops on the
line before, unless it is empty.

* `Source.row_lt_of_startsLine`: between a byte and a later start of a line is a line feed.
* `Source.endLine_le_endLine`: so lines nest as bytes do, for nodes that are not empty.
* `Frame.Fits`: frames that lie one after the other between two offsets, with their own inside.
* `fits_visit`: the frames of a visit fit between the ends of the visited node.
* **`ranges_nest`**: the spaces of a well-formed tree nest, their neighbours are in order, and the
  unit covers the source.
-/

namespace ScopeMetrics

/-! ### From bytes to lines -/

namespace Source

variable {s : Source} {l m : Label}

theorem row_mono {a b : Nat} (h : a ≤ b) : s.row a ≤ s.row b :=
  (List.take_sublist_take_left h).count_le _

/-- Between a byte and a later start of a line is a line feed. -/
theorem row_lt_of_startsLine {a b : Nat} (h : a < b) (hb : s.startsLine b = true) :
    s.row a < s.row b := by
  unfold startsLine at hb
  split at hb
  · have : b = 0 := eq_of_beq hb
    omega
  · rename_i last hlast
    rw [Bool.and_eq_true, decide_eq_true_iff] at hb
    obtain ⟨hlength, hfeed⟩ := hb
    obtain rfl : last = lineFeed := eq_of_beq hfeed
    obtain ⟨front, hfront⟩ := List.getLast?_eq_some_iff.mp hlast
    have hcount : b = front.length + 1 := by
      have := congrArg List.length hfront
      rwa [List.length_take, List.length_append, ← length, Nat.min_eq_left hlength] at this
    have htake : s.bytes.take a = front.take a := by
      rw [← List.take_append_of_le_length (by omega : a ≤ front.length), ← hfront, List.take_take,
        Nat.min_eq_left (by omega)]
    rw [row, row, htake, hfront, List.count_append, List.count_singleton_self]
    exact Nat.lt_succ_of_le ((List.take_sublist _ _).count_le _)

/-- A node ends on the line of its last offset, or on the one before if it ends with a feed. -/
theorem endLine_cases (s : Source) (l : Label) :
    s.endLine l = s.row l.stop + 1 ∨
      s.startsLine l.stop = true ∧ s.row l.start < s.row l.stop ∧ s.endLine l = s.row l.stop := by
  unfold endLine
  split
  · rename_i h
    rw [Bool.and_eq_true, decide_eq_true_iff] at h
    exact .inr ⟨h.1, h.2, rfl⟩
  · exact .inl rfl

theorem endLine_of_startsLine (h : l.start < l.stop) (hstarts : s.startsLine l.stop = true) :
    s.endLine l = s.row l.stop := by
  have hfeed := row_lt_of_startsLine h hstarts
  rw [endLine, hstarts, if_pos (by simpa using hfeed)]

theorem endLine_le (s : Source) (l : Label) : s.endLine l ≤ s.row l.stop + 1 := by
  rcases s.endLine_cases l with h | ⟨-, -, h⟩ <;> omega

theorem startLine_mono (h : m.start ≤ l.start) : s.startLine m ≤ s.startLine l :=
  Nat.succ_le_succ (row_mono h)

theorem startLine_le_endLine (h : l.start ≤ l.stop) : s.startLine l ≤ s.endLine l := by
  have hrow := row_mono (s := s) h
  rw [startLine]
  rcases s.endLine_cases l with hend | ⟨-, hfeed, hend⟩ <;> omega

/-- What is inside a node ends on a line of it, if it is not empty. -/
theorem endLine_le_endLine (hl : l.start < l.stop) (h : l.stop ≤ m.stop) :
    s.endLine l ≤ s.endLine m := by
  have hrow := row_mono (s := s) h
  have hle := s.endLine_le l
  rcases s.endLine_cases m with hm | ⟨hstarts, -, hm⟩
  · omega
  · rcases Nat.eq_or_lt_of_le h with heq | hlt
    · -- both end behind the same line feed, and `l` holds it
      rw [endLine_of_startsLine hl (heq ▸ hstarts)]
      omega
    · have hfeed := row_lt_of_startsLine hlt hstarts
      omega

/-- What comes after a node starts on its last line or behind it. -/
theorem endLine_le_startLine (h : l.stop ≤ m.start) : s.endLine l ≤ s.startLine m :=
  Nat.le_trans (s.endLine_le l) (Nat.succ_le_succ (row_mono h))

end Source

/-! ### Scopes in their places -/

namespace Scope

/-- Whether a scope is where a node is. -/
structure Spans (scope : Scope) (s : Source) (l : Label) : Prop where
  startByte : scope.startByte = l.start
  endByte : scope.endByte = l.stop
  startLine : scope.startLine = s.startLine l
  endLine : scope.endLine = s.endLine l

/-- Whether a scope lies inside another, by bytes and by lines. -/
structure Within (inner outer : Scope) : Prop where
  startByte : outer.startByte ≤ inner.startByte
  endByte : inner.endByte ≤ outer.endByte
  startLine : outer.startLine ≤ inner.startLine
  endLine : inner.endLine ≤ outer.endLine

/-- Whether a scope ends before another starts, by bytes; they may share a line. -/
structure Before (a b : Scope) : Prop where
  bytes : a.endByte ≤ b.startByte
  lines : a.endLine ≤ b.startLine

/-- Whether a scope is a range of lines, and those right inside it lie in it in order. -/
structure Holds (outer : Scope) (inside : List Scope) : Prop where
  lines : outer.startLine ≤ outer.endLine
  within : ∀ inner ∈ inside, inner.Within outer
  inOrder : inside.Pairwise Before

namespace Spans

variable {a b : Scope} {s : Source} {l m : Label}

theorem startLine_le_endLine (h : a.Spans s l) (hl : l.start < l.stop) :
    a.startLine ≤ a.endLine := by
  rw [h.startLine, h.endLine, Int.ofNat_le]
  exact Source.startLine_le_endLine (Nat.le_of_lt hl)

theorem before (ha : a.Spans s l) (hb : b.Spans s m) (h : l.stop ≤ m.start) : a.Before b where
  bytes := by
    rw [ha.endByte, hb.startByte]
    exact Int.ofNat_le.mpr h
  lines := by
    rw [ha.endLine, hb.startLine]
    exact Int.ofNat_le.mpr (Source.endLine_le_startLine h)

/-- A scope lies inside another if its node does and is not empty. -/
theorem within (ha : a.Spans s l) (hb : b.Spans s m) (hstart : l.start ≤ m.start)
    (hspan : m.start < m.stop) (hstop : m.stop ≤ l.stop) : b.Within a where
  startByte := by
    rw [ha.startByte, hb.startByte]
    exact Int.ofNat_le.mpr hstart
  endByte := by
    rw [ha.endByte, hb.endByte]
    exact Int.ofNat_le.mpr hstop
  startLine := by
    rw [ha.startLine, hb.startLine]
    exact Int.ofNat_le.mpr (Source.startLine_mono hstart)
  endLine := by
    rw [ha.endLine, hb.endLine]
    exact Int.ofNat_le.mpr (Source.endLine_le_endLine hspan hstop)

end Spans

end Scope

/-! ### Frames in their places -/

namespace Frame

/-- Whether frames lie one after the other between two offsets, none of them empty, and the frames
inside each lie in the same way between its ends. -/
inductive Fits (s : Source) : Nat → Nat → List Frame → Prop where
  | nil {low high : Nat} (h : low ≤ high) : Fits s low high []
  | cons {low high : Nat} {l : Label} {body : Body} {inside fs : List Frame} (hlow : low ≤ l.start)
      (hspan : l.start < l.stop) (hscope : body.scope.Spans s l)
      (hinside : Fits s l.start l.stop inside) (hrest : Fits s l.stop high fs) :
      Fits s low high (.mk body inside :: fs)

namespace Fits

variable {s : Source} {low mid high : Nat} {fs gs : List Frame}

theorem le (h : Fits s low high fs) : low ≤ high := by
  induction h with
  | nil h => exact h
  | cons hlow hspan _ _ _ _ ih => omega

theorem widen {low' : Nat} (h : Fits s low high fs) (hlow : low' ≤ low) : Fits s low' high fs := by
  cases h with
  | nil h => exact .nil (Nat.le_trans hlow h)
  | cons hstart hspan hscope hinside hrest =>
      exact .cons (Nat.le_trans hlow hstart) hspan hscope hinside hrest

theorem append (h : Fits s low mid fs) (hgs : Fits s mid high gs) : Fits s low high (fs ++ gs) := by
  induction h with
  | nil h => exact hgs.widen h
  | cons hlow hspan hscope hinside _ _ ih => exact .cons hlow hspan hscope hinside (ih hgs)

/-- Each of the frames is where a node between the two offsets is. -/
theorem exists_spans (h : Fits s low high fs) : ∀ f ∈ fs, ∃ l : Label, f.scope.Spans s l ∧
    low ≤ l.start ∧ l.start < l.stop ∧ l.stop ≤ high := by
  induction h with
  | nil => exact fun f hf => absurd hf List.not_mem_nil
  | @cons low high l body inside fs hlow hspan hscope _ hrest _ ih =>
      intro f hf
      rcases List.mem_cons.mp hf with rfl | hf
      · exact ⟨l, hscope, hlow, hspan, hrest.le⟩
      · obtain ⟨m, hm, hstart, hstop⟩ := ih f hf
        exact ⟨m, hm, by omega, hstop⟩

/-- Each of the frames ends before the next starts. -/
theorem pairwise_before (h : Fits s low high fs) : (fs.map scope).Pairwise Scope.Before := by
  induction h with
  | nil => exact .nil
  | @cons low high l body inside fs _ _ hscope _ hrest _ ih =>
      refine List.pairwise_cons.mpr ⟨fun b hb => ?_, ih⟩
      obtain ⟨f, hf, rfl⟩ := List.mem_map.mp hb
      obtain ⟨m, hm, hstart, -⟩ := hrest.exists_spans f hf
      exact hscope.before hm hstart

/-- What has the frames inside holds their scopes, if it covers what is between the offsets. -/
theorem holds (h : Fits s low high fs) {outer : Scope} (hlines : outer.startLine ≤ outer.endLine)
    (hwithin : ∀ (inner : Scope) (l : Label), inner.Spans s l → low ≤ l.start → l.start < l.stop →
      l.stop ≤ high → inner.Within outer) : outer.Holds (fs.map scope) where
  lines := hlines
  within inner hinner := by
    obtain ⟨f, hf, rfl⟩ := List.mem_map.mp hinner
    obtain ⟨l, hl, hstart, hspan, hstop⟩ := h.exists_spans f hf
    exact hwithin _ l hl hstart hspan hstop
  inOrder := h.pairwise_before

/-- The frames, and those inside them at any depth, hold the frames right inside. -/
theorem holds_inside (h : Fits s low high fs) :
    ∀ f ∈ fs, ∀ g ∈ f.frames, g.scope.Holds (g.inside.map scope) := by
  induction h with
  | nil => exact fun f hf => absurd hf List.not_mem_nil
  | cons _ hspan hscope hinside _ ihinside ih =>
      intro f hf g hg
      rcases List.mem_cons.mp hf with rfl | hf
      · rw [frames, framesAll_eq] at hg
        rcases List.mem_cons.mp hg with rfl | hg
        · exact hinside.holds (hscope.startLine_le_endLine hspan) fun _ _ => hscope.within
        · obtain ⟨k, hk, hg⟩ := List.mem_flatMap.mp hg
          exact ihinside k hk g hg
      · exact ih f hf g hg

end Fits

end Frame

/-! ### Frames of a walk -/

namespace Reading

variable {r : Reading} {root : Node}

/-- What a parser promises of a node: its children lie inside it, each ending no later than the
next starts, and it is not empty if it opens a scope. -/
structure IsLaidOut (r : Reading) (p : Place) : Prop where
  span : p.node.label.start ≤ p.node.label.stop
  within : ∀ c ∈ p.node.children,
    p.node.label.start ≤ c.label.start ∧ c.label.stop ≤ p.node.label.stop
  inOrder : p.node.children.IsChain fun c d => c.label.stop ≤ d.label.start
  opener : r.opensScope p = true → p.node.label.start < p.node.label.stop

instance (r : Reading) (p : Place) : Decidable (r.IsLaidOut p) :=
  decidable_of_iff (p.node.label.start ≤ p.node.label.stop ∧
      (∀ c ∈ p.node.children,
        p.node.label.start ≤ c.label.start ∧ c.label.stop ≤ p.node.label.stop) ∧
      p.node.children.IsChain (fun c d => c.label.stop ≤ d.label.start) ∧
      (r.opensScope p = true → p.node.label.start < p.node.label.stop))
    ⟨fun ⟨h₁, h₂, h₃, h₄⟩ => ⟨h₁, h₂, h₃, h₄⟩, fun ⟨h₁, h₂, h₃, h₄⟩ => ⟨h₁, h₂, h₃, h₄⟩⟩

theorem fits_visitEach {s : Surroundings} {high : Nat} :
    ∀ (ps : List Place) (access : Option Bool) {low : Nat},
      (∀ p ∈ ps, ∀ access, Frame.Fits r.source p.node.label.start p.node.label.stop
        (r.visit p.above s access p.node).frames) →
      (ps.map Place.node).IsChain (fun c d => c.label.stop ≤ d.label.start) →
      (∀ c ∈ (ps.map Place.node).head?, low ≤ c.label.start) →
      (∀ p ∈ ps, p.node.label.stop ≤ high) → low ≤ high →
        Frame.Fits r.source low high (r.visitEach s access ps).frames
  | [], _, _, _, _, _, _, h => .nil h
  | p :: ps, access, low, hfits, hchain, hlow, hhigh, _ => by
      rw [List.map_cons, List.isChain_cons] at hchain
      have hfirst := (hfits p List.mem_cons_self access).widen (hlow p.node rfl)
      exact hfirst.append (fits_visitEach ps _ (fun q hq => hfits q (List.mem_cons_of_mem p hq))
        hchain.2 hchain.1 (fun q hq => hhigh q (List.mem_cons_of_mem p hq))
        (hhigh p List.mem_cons_self))

/-- The frames that a visit opens fit between the ends of the visited node. -/
theorem fits_visit : ∀ p : Place, (∀ q ∈ p.subtree, r.IsLaidOut q) →
    ∀ (s : Surroundings) (access : Option Bool),
      Frame.Fits r.source p.node.label.start p.node.label.stop
        (r.visit p.above s access p.node).frames := by
  intro p
  induction p using Place.induct with
  | h p ih =>
      intro hall s access
      have hp := hall p p.self_mem_subtree
      have below : ∀ (s : Surroundings) (access : Option Bool),
          Frame.Fits r.source p.node.label.start p.node.label.stop
            (r.visitEach s access p.children).frames := by
        intro s access
        have hnode : ∀ q ∈ p.children, q.node ∈ p.node.children := fun q hq => by
          rw [← p.map_node_children]
          exact List.mem_map_of_mem hq
        refine fits_visitEach p.children access ?_ ?_ ?_ ?_ hp.span
        · intro q hq access
          refine ih q hq (fun q' hq' => hall q' ?_) s access
          exact Place.mem_subtree.mpr (.inr (Place.mem_descendants.mpr ⟨q, hq, hq'⟩))
        · rw [p.map_node_children]
          exact hp.inOrder
        · rw [p.map_node_children]
          exact fun c hc => (hp.within c (List.mem_of_mem_head? hc)).1
        · exact fun q hq => (hp.within q.node (hnode q hq)).2
      rcases r.place_cases p with he | hc | ho | ⟨hi, ho⟩
      · rw [visit_error he]
        exact .nil hp.span
      · rw [visit_comment hc]
        exact .nil hp.span
      · rw [visit_opener ho]
        exact .cons (Nat.le_refl _) (hp.opener ho) ⟨rfl, rfl, rfl, rfl⟩ (below _ _)
          (.nil (Nat.le_refl _))
      · rw [visit_plain hi ho]
        exact below _ _

/-- The scope of a unit holds the frames that fit in its root. -/
theorem holds_unitScope (name : Option String) (hspan : root.label.start ≤ root.label.stop)
    (hstop : root.label.stop ≤ r.source.length) {fs : List Frame}
    (h : Frame.Fits r.source root.label.start root.label.stop fs) :
    (r.unitScope name root).Holds (fs.map Frame.scope) := by
  have hlines : r.source.startLine root.label ≤ r.source.endLine root.label :=
    Source.startLine_le_endLine hspan
  refine h.holds ?_ fun inner l hl hstart hlspan hlstop => ?_
  · show (1 : Int) ≤ max (r.source.endLine root.label : Int) r.source.lineCount
    rw [Source.startLine] at hlines
    omega
  · have hend := Source.endLine_le_lineCount hlspan (Nat.le_trans hlstop hstop)
    constructor
    · rw [hl.startByte]
      exact Int.natCast_nonneg _
    · rw [hl.endByte]
      exact Int.ofNat_le.mpr (Nat.le_trans hlstop hstop)
    · rw [hl.startLine]
      exact Int.ofNat_le.mpr (Nat.succ_le_succ (Nat.zero_le _))
    · rw [hl.endLine]
      exact Int.le_trans (Int.ofNat_le.mpr hend) (Int.le_max_right _ _)

/-- All frames of a walk hold the frames right inside them. -/
theorem holds_walk (name : Option String) (hlaid : ∀ p ∈ root.places, r.IsLaidOut p)
    (hstop : root.label.stop ≤ r.source.length) :
    ∀ f ∈ (r.walk name root).draft.unit.frames, f.scope.Holds (f.inside.map Frame.scope) := by
  intro f hf
  have hfits := fits_visit (.root root) hlaid { kind := .unit, opener := root } none
  rw [walk, Frame.frames, Frame.framesAll_eq] at hf
  rcases List.mem_cons.mp hf with rfl | hf
  · exact holds_unitScope name (hlaid (.root root) (Place.self_mem_subtree _)).span hstop hfits
  · obtain ⟨g, hg, hf⟩ := List.mem_flatMap.mp hf
    exact hfits.holds_inside g hg f hf

/-- A unit ends with the last line of the source, unless its root is empty and stands behind
everything. -/
theorem endLine_unitScope_of_lt (name : Option String) (hspan : root.label.start ≤ root.label.stop)
    (hstop : root.label.stop ≤ r.source.length) (hstart : root.label.start < r.source.length) :
    (r.unitScope name root).endLine = r.source.lines.length := by
  rcases Nat.lt_or_eq_of_le hspan with hspan | hempty
  · exact endLine_unitScope name hspan hstop
  · rw [hempty] at hstart
    have hend : r.source.endLine root.label ≤ r.source.lineCount :=
      Nat.le_trans (Source.endLine_le _ _) (Source.row_lt_lineCount hstart)
    rw [Source.length_lines]
    exact Int.max_eq_right (Int.ofNat_le.mpr hend)

/-- **The ranges of spaces nest.**  For every pack and every source: if a parser laid out the nodes
of a tree as it should and the root ends within the source, the unit has spaces.  Every one of them
is a range of lines; those right inside lie in its bytes and in its lines, and each ends no later
than the next starts, by bytes and by lines.  The unit has all bytes of the source and reaches from
its first line to its last; it ends there if anything of the source is behind the start of the
root. -/
theorem ranges_nest (r : Reading) (name : Option String) (root : Node)
    (hlaid : ∀ p ∈ root.places, r.IsLaidOut p) (hstop : root.label.stop ≤ r.source.length) :
    ∃ unit, (r.walk name root).draft.spaces = .ok unit ∧
      (∀ s ∈ unit.all, s.scope.Holds (s.inside.map Space.scope)) ∧
      unit.scope.startByte = 0 ∧ unit.scope.endByte = r.source.length ∧
      unit.scope.startLine = 1 ∧ r.source.lines.length ≤ unit.scope.endLine ∧
      (root.label.start < r.source.length → unit.scope.endLine = r.source.lines.length) := by
  refine ⟨_, r.spaces_walk name root, fun s hs => ?_, ?_⟩
  · rw [Parcel.all_space] at hs
    obtain ⟨p, hp, rfl⟩ := List.mem_map.mp hs
    obtain ⟨f, hf, span, rfl⟩ := Frame.exists_mem_frames_of_mem_all hp
    rw [Frame.scope_space_surveyIn, Frame.map_scope_inside]
    exact holds_walk name hlaid hstop f hf
  · have hunit : (r.walk name root).draft.unit.scope = r.unitScope name root := rfl
    have hspan := (hlaid (.root root) (Place.self_mem_subtree _)).span
    rw [Frame.survey, Frame.scope_space_surveyIn, hunit]
    refine ⟨rfl, rfl, rfl, ?_, endLine_unitScope_of_lt name hspan hstop⟩
    rw [Source.length_lines]
    exact Int.le_max_right _ _

/-- A class on three lines with two methods, each of which ends right behind a line feed and so on
the line before. -/
theorem ranges_nest_methods :
    let leaf (kind : String) (start stop : Nat) (field : Option String) : Node :=
      .mk ⟨kind, true, false, start, stop, field⟩ []
    let method (start stop : Nat) : Node :=
      .mk ⟨"function_definition", true, false, start, stop, none⟩
        [leaf "identifier" start (start + 1) (some "name")]
    let r : Reading :=
      { pack := Language.python.pack, source := ⟨[99, 10, 32, 102, 10, 32, 103, 10]⟩ }
    let root : Node := .mk ⟨"module", true, false, 0, 8, none⟩
      [.mk ⟨"class_definition", true, false, 0, 8, none⟩
        [leaf "identifier" 0 1 (some "name"), .mk ⟨"block", true, false, 3, 8, some "body"⟩
          [method 3 5, method 6 8]]]
    (∀ p ∈ root.places, r.IsLaidOut p) ∧ root.label.stop ≤ r.source.length ∧
    (r.walk none root).draft.unit.bodies.map (fun b => (b.scope.startLine, b.scope.endLine)) =
      [(1, 3), (1, 3), (2, 2), (3, 3)] ∧
    ∃ unit, (r.walk none root).draft.spaces = .ok unit ∧
      (∀ s ∈ unit.all, s.scope.Holds (s.inside.map Space.scope)) ∧
      unit.scope.startByte = 0 ∧ unit.scope.endByte = r.source.length ∧
      unit.scope.startLine = 1 ∧ r.source.lines.length ≤ unit.scope.endLine ∧
      (root.label.start < r.source.length → unit.scope.endLine = r.source.lines.length) := by
  intro leaf method r root
  have hlaid : ∀ p ∈ root.places, r.IsLaidOut p := by decide +kernel
  have hstop : root.label.stop ≤ r.source.length := by decide
  exact ⟨hlaid, hstop, by decide +kernel, ranges_nest r none root hlaid hstop⟩

end Reading

end ScopeMetrics
