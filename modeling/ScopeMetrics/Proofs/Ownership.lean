import ScopeMetrics.Proofs.Partition
import ScopeMetrics.Proofs.Ranges
import ScopeMetrics.Proofs.Routing

/-!
# Who owns a line

A survey never looks a line up: it clips the range of each frame by those of its neighbours and of
the frame around it.  If neighbours start in order, what it gives is the answer to a search.  From
the unit down, enter the first frame inside that covers the line, as long as there is one
(`Frame.descent`): where the search stops is the owner of the line.

A place in a tree of frames is a route, the list of the positions to enter from the outermost one
down (`follow`).

* `Frame.mem_lines_surveyAll`: of neighbours in order, the first that covers a free line gets it.
* `Frame.mem_ownLines_surveyIn`: the parcel at a route owns a line if the route is the descent.
* `Reading.inOrder_walk`: frames of a walk start in order if the nodes of the tree do.
* **`Frame.owner_iff_descent`**: the owner of a line is where the descent ends.
-/

namespace ScopeMetrics

/-! ### Routes -/

/-- What a route leads to, when `inside` gives what is directly inside something. -/
def follow {α : Type} (inside : α → List α) : α → List Nat → Option α
  | x, [] => some x
  | x, i :: route => (inside x)[i]?.bind fun y => follow inside y route

theorem follow_concat {α : Type} (inside : α → List α) (route : List Nat) (i : Nat) : ∀ x,
    follow inside x (route ++ [i]) = (follow inside x route).bind fun y => (inside y)[i]? := by
  induction route with
  | nil => exact fun x => Option.bind_fun_some _
  | cons j route ih =>
      intro x
      rw [List.cons_append, follow, follow]
      cases (inside x)[j]? with
      | none => rfl
      | some y => exact ih y

/-- The parcel at the end of a route. -/
def Parcel.at? (p : Parcel) (route : List Nat) : Option Parcel := follow Parcel.inside p route

theorem Parcel.mem_all_of_at? {q : Parcel} : ∀ {route : List Nat} {p : Parcel},
    p.at? route = some q → q ∈ p.all := by
  intro route
  induction route with
  | nil =>
      intro p h
      rw [at?, follow, Option.some.injEq] at h
      rw [all_eq, h]
      exact List.mem_cons_self
  | cons i route ih =>
      intro p h
      rw [at?, follow, Option.bind_eq_some_iff] at h
      obtain ⟨c, hc, hq⟩ := h
      rw [all_eq]
      exact List.mem_cons_of_mem _
        (List.mem_flatMap.mpr ⟨c, List.mem_of_getElem? hc, ih hq⟩)

/-- Every parcel has a route. -/
theorem Parcel.exists_at?_of_mem_all {q p : Parcel} (h : q ∈ p.all) :
    ∃ route, p.at? route = some q := by
  induction p with
  | mk body span inside ih =>
      rw [all_mk] at h
      rcases List.mem_cons.mp h with rfl | h
      · exact ⟨[], rfl⟩
      · obtain ⟨c, hc, hq⟩ := List.mem_flatMap.mp h
        obtain ⟨i, hi⟩ := List.mem_iff_getElem?.mp hc
        obtain ⟨route, hroute⟩ := ih c hc hq
        exact ⟨i :: route, by rw [at?, follow, Parcel.inside, hi, Option.bind_some, ← hroute, at?]⟩

namespace Frame

/-- The frame at the end of a route. -/
def at? (f : Frame) (route : List Nat) : Option Frame := follow Frame.inside f route

/-- The parcel at a position among neighbours is that of the frame there. -/
theorem getElem?_surveyAll (high : Int) (fs : List Frame) : ∀ (cursor : Int) (i : Nat),
    ∃ c, (surveyAll high cursor fs)[i]? = fs[i]?.map fun f => f.surveyIn (f.reach c high) := by
  induction fs with
  | nil => exact fun cursor _ => ⟨cursor, rfl⟩
  | cons f fs ih =>
      intro cursor i
      cases i with
      | zero => exact ⟨cursor, rfl⟩
      | succ i => exact ih _ i

/-- The parcel at a route is that of the frame there. -/
theorem at?_surveyIn (route : List Nat) : ∀ (f : Frame) (s : Span),
    ∃ t, (f.surveyIn s).at? route = (f.at? route).map (surveyIn t) := by
  induction route with
  | nil => exact fun _ s => ⟨s, rfl⟩
  | cons i route ih =>
      rintro ⟨body, inside⟩ s
      obtain ⟨c, hc⟩ := getElem?_surveyAll s.high inside s.low i
      rw [Parcel.at?, follow, surveyIn, Parcel.inside, hc, at?, follow, Frame.inside]
      cases inside[i]? with
      | none => exact ⟨s, rfl⟩
      | some g => exact ih g (g.reach c s.high)

/-! ### The descent -/

/-- Whether a line is in the range of a frame. -/
def covers (n : Int) (f : Frame) : Bool := f.scope.startLine ≤ n && n ≤ f.scope.endLine

theorem covers_iff {n : Int} {f : Frame} :
    f.covers n = true ↔ f.scope.startLine ≤ n ∧ n ≤ f.scope.endLine := by
  rw [covers, Bool.and_eq_true, decide_eq_true_iff, decide_eq_true_iff]

mutual

/-- The route from a frame that enters the first frame inside that covers a line, again and again,
and stops where no frame inside covers it. -/
def descent (n : Int) : Frame → List Nat
  | .mk _ fs => descentAmong n 0 fs

/-- The same among the neighbours that are left, the first of them at position `i`. -/
def descentAmong (n : Int) (i : Nat) : List Frame → List Nat
  | [] => []
  | f :: fs => if f.covers n then i :: f.descent n else descentAmong n (i + 1) fs

end

theorem descentAmong_of_none {n : Int} {fs : List Frame} : ∀ {i : Nat},
    fs.findIdx? (covers n) = none → descentAmong n i fs = [] := by
  induction fs with
  | nil => exact fun _ => rfl
  | cons f fs ih =>
      intro i h
      rw [List.findIdx?_cons] at h
      cases hf : f.covers n with
      | true => simp [hf] at h
      | false =>
          rw [descentAmong, hf, if_neg Bool.false_ne_true]
          rw [hf, if_neg Bool.false_ne_true, Option.map_eq_none_iff] at h
          exact ih h

theorem descentAmong_of_some {n : Int} {g : Frame} {fs : List Frame} : ∀ {i k : Nat},
    fs.findIdx? (covers n) = some k → fs[k]? = some g →
      descentAmong n i fs = (i + k) :: g.descent n := by
  induction fs with
  | nil => exact fun h => nomatch h
  | cons f fs ih =>
      intro i k h hg
      rw [List.findIdx?_cons] at h
      rw [descentAmong]
      cases hf : f.covers n with
      | true =>
          rw [hf, if_pos rfl, Option.some.injEq] at h
          subst h
          rw [if_pos rfl, ← Option.some.inj hg, Nat.add_zero]
      | false =>
          rw [hf, if_neg Bool.false_ne_true, Option.map_eq_some_iff] at h
          obtain ⟨j, hj, rfl⟩ := h
          rw [if_neg Bool.false_ne_true, ih hj hg, Nat.add_assoc, Nat.add_comm 1 j]

/-- The descent stops where no frame inside covers the line. -/
theorem nil_eq_descent {n : Int} {body : Body} {inside : List Frame} :
    [] = (mk body inside).descent n ↔ inside.findIdx? (covers n) = none := by
  rw [descent]
  cases hfind : inside.findIdx? (covers n) with
  | none => rw [descentAmong_of_none hfind, eq_self_iff_true, eq_self_iff_true]
  | some k =>
      obtain ⟨hk, -, -⟩ := List.findIdx?_eq_some_iff_getElem.mp hfind
      rw [descentAmong_of_some hfind (List.getElem?_eq_getElem hk)]
      simp

/-- Else it enters the first that does, and goes on there. -/
theorem cons_eq_descent {n : Int} {body : Body} {inside : List Frame} {i : Nat} {g : Frame}
    (hg : inside[i]? = some g) {route : List Nat} :
    i :: route = (mk body inside).descent n ↔
      inside.findIdx? (covers n) = some i ∧ route = g.descent n := by
  rw [descent]
  cases hfind : inside.findIdx? (covers n) with
  | none =>
      rw [descentAmong_of_none hfind]
      simp
  | some k =>
      obtain ⟨hk, -, -⟩ := List.findIdx?_eq_some_iff_getElem.mp hfind
      rw [descentAmong_of_some hfind (List.getElem?_eq_getElem hk), Nat.zero_add, List.cons.injEq,
        Option.some.injEq, eq_comm (a := i)]
      refine and_congr_right fun hik => ?_
      subst hik
      rw [List.getElem?_eq_getElem hk, Option.some.injEq] at hg
      rw [hg]

/-! ### One level -/

/-- Whether neighbours start in order. -/
def Sorted (fs : List Frame) : Prop := fs.Pairwise fun f g => f.scope.startLine ≤ g.scope.startLine

theorem mem_lines_reach {n cursor high : Int} {f : Frame} :
    n ∈ (f.reach cursor high).lines ↔ f.covers n = true ∧ cursor ≤ n ∧ n ≤ high := by
  rw [Span.mem_lines, covers_iff]
  show max f.scope.startLine cursor ≤ n ∧ n ≤ min f.scope.endLine high ↔ _
  omega

/-- A frame gets no line that it does not cover. -/
theorem covers_of_mem_lines {n high cursor : Int} {fs : List Frame} {i : Nat} {p : Parcel}
    (hp : (surveyAll high cursor fs)[i]? = some p) (hn : n ∈ p.span.lines) :
    ∃ f ∈ fs, f.covers n = true := by
  obtain ⟨c, hc⟩ := getElem?_surveyAll high fs cursor i
  rw [hc, Option.map_eq_some_iff] at hp
  obtain ⟨f, hf, rfl⟩ := hp
  rw [span_surveyIn] at hn
  exact ⟨f, List.mem_of_getElem? hf, (mem_lines_reach.mp hn).1⟩

/-- A line behind a frame is free after it if it was before. -/
theorem freeAfter_reach_le {n high cursor : Int} {f : Frame} (hcursor : cursor ≤ n)
    (hend : f.scope.endLine < n) : (f.reach cursor high).freeAfter cursor ≤ n := by
  unfold Span.freeAfter
  split
  · show min f.scope.endLine high + 1 ≤ n
    omega
  · exact hcursor

/-- Of neighbours in order, the first that covers a free line gets it. -/
theorem mem_lines_surveyAll {n high : Int} (hhigh : n ≤ high) {fs : List Frame} (hfs : Sorted fs) :
    ∀ {cursor : Int} {i : Nat} {p : Parcel}, cursor ≤ n → (surveyAll high cursor fs)[i]? = some p →
      (n ∈ p.span.lines ↔ fs.findIdx? (covers n) = some i) := by
  induction fs with
  | nil => exact fun _ h => nomatch h
  | cons f fs ih =>
      intro cursor i p hcursor hp
      obtain ⟨hfirst, hsorted⟩ := List.pairwise_cons.mp hfs
      have hreach : n ∈ (f.reach cursor high).lines ↔ f.covers n = true := by
        rw [mem_lines_reach, and_iff_left ⟨hcursor, hhigh⟩]
      rw [List.findIdx?_cons]
      cases i with
      | zero =>
          rw [← Option.some.inj hp, span_surveyIn, hreach]
          cases f.covers n <;> simp
      | succ i =>
          change (surveyAll high _ fs)[i]? = some p at hp
          cases hf : f.covers n with
          | true =>
              -- the first neighbour has the line, and no line is given twice
              have hdivides := divides_surveyAll (f :: fs) high cursor
              have hapart := (List.pairwise_cons.mp hdivides.apart).1 p (List.mem_of_getElem? hp)
              rw [span_surveyIn] at hapart
              exact iff_of_false (hapart (hreach.mpr hf)) (by simp)
          | false =>
              have hshift : (fs.findIdx? (covers n)).map (· + 1) = some (i + 1) ↔
                  fs.findIdx? (covers n) = some i := by
                rw [Option.map_eq_some_iff]
                simp
              rw [if_neg Bool.false_ne_true, hshift]
              rw [← Bool.not_eq_true, covers_iff] at hf
              by_cases hbefore : n < f.scope.startLine
              · -- all that follow start behind the line
                have hlater : ∀ g ∈ fs, g.covers n ≠ true := by
                  intro g hg hcovers
                  have := hfirst g hg
                  rw [covers_iff] at hcovers
                  omega
                refine iff_of_false (fun hn => ?_) fun hfind => ?_
                · obtain ⟨g, hg, hcovers⟩ := covers_of_mem_lines hp hn
                  exact hlater g hg hcovers
                · obtain ⟨hi, hcovers, -⟩ := List.findIdx?_eq_some_iff_getElem.mp hfind
                  exact hlater _ (List.getElem_mem hi) hcovers
              · exact ih hsorted (freeAfter_reach_le hcursor (by omega)) hp

/-- What neighbours in order leave of a range are the lines that none of them covers. -/
theorem mem_remaining_surveyAll {n : Int} {s : Span} (hs : n ∈ s.lines) {fs : List Frame}
    (hfs : Sorted fs) :
    n ∈ Parcel.remaining s (surveyAll s.high s.low fs) ↔ fs.findIdx? (covers n) = none := by
  obtain ⟨hlow, hhigh⟩ := Span.mem_lines.mp hs
  rw [Parcel.mem_remaining, and_iff_right hs]
  constructor
  · intro hleft
    cases hfind : fs.findIdx? (covers n) with
    | none => rfl
    | some k =>
        obtain ⟨hk, -, -⟩ := List.findIdx?_eq_some_iff_getElem.mp hfind
        obtain ⟨c, hc⟩ := getElem?_surveyAll s.high fs s.low k
        rw [List.getElem?_eq_getElem hk, Option.map_some] at hc
        have htaken := (mem_lines_surveyAll hhigh hfs hlow hc).mpr hfind
        exact absurd htaken (hleft _ (List.mem_of_getElem? hc))
  · intro hfind p hp hn
    obtain ⟨i, hi⟩ := List.mem_iff_getElem?.mp hp
    rw [mem_lines_surveyAll hhigh hfs hlow hi, hfind] at hn
    cases hn

/-! ### All levels -/

/-- Whether neighbours start in order, in a frame and in all frames inside it. -/
def InOrder (f : Frame) : Prop := ∀ g ∈ f.frames, Sorted g.inside

instance (f : Frame) : Decidable f.InOrder :=
  inferInstanceAs (Decidable (∀ g ∈ f.frames,
    g.inside.Pairwise fun a b => a.scope.startLine ≤ b.scope.startLine))

theorem InOrder.sorted {body : Body} {inside : List Frame} (h : (mk body inside).InOrder) :
    Sorted inside := h (.mk body inside) List.mem_cons_self

theorem InOrder.inside {body : Body} {inside : List Frame} (h : (mk body inside).InOrder) :
    ∀ f ∈ inside, f.InOrder := by
  intro f hf g hg
  refine h g ?_
  rw [frames, framesAll_eq]
  exact List.mem_cons_of_mem _ (List.mem_flatMap.mpr ⟨f, hf, hg⟩)

/-- What a parcel of a survey owns is in the range of the survey. -/
theorem mem_lines_of_mem_ownLines {f : Frame} {s : Span} {p : Parcel} {n : Int}
    (hp : p ∈ (f.surveyIn s).all) (hn : n ∈ p.ownLines) : n ∈ s.lines :=
  (f.perm_ownLines s).subset (List.mem_flatMap.mpr ⟨p, hp, hn⟩)

/-- The parcel at a route owns a line if the route is the descent to the line. -/
theorem mem_ownLines_surveyIn {n : Int} {f : Frame} (hf : f.InOrder) : ∀ {s : Span}, n ∈ s.lines →
    ∀ {route : List Nat} {p : Parcel}, (f.surveyIn s).at? route = some p →
      (n ∈ p.ownLines ↔ route = f.descent n) := by
  induction f with
  | mk body inside ih =>
      intro s hs route p hp
      rw [surveyIn] at hp
      cases route with
      | nil =>
          rw [← Option.some.inj hp, Parcel.ownLines, Parcel.span, Parcel.inside, nil_eq_descent]
          exact mem_remaining_surveyAll hs hf.sorted
      | cons i route =>
          obtain ⟨hlow, hhigh⟩ := Span.mem_lines.mp hs
          rw [Parcel.at?, follow, Parcel.inside, Option.bind_eq_some_iff] at hp
          obtain ⟨q, hq, hp⟩ := hp
          have hspan := mem_lines_surveyAll hhigh hf.sorted hlow hq
          obtain ⟨c, hc⟩ := getElem?_surveyAll s.high inside s.low i
          rw [hc, Option.map_eq_some_iff] at hq
          obtain ⟨g, hg, rfl⟩ := hq
          rw [span_surveyIn] at hspan
          rw [cons_eq_descent hg, ← hspan]
          by_cases hn : n ∈ (g.reach c s.high).lines
          · rw [and_iff_right hn]
            exact ih g (List.mem_of_getElem? hg) (hf.inside g (List.mem_of_getElem? hg)) hn hp
          · -- who does not have the line cannot have an owner inside
            refine iff_of_false (fun hown => hn ?_) fun h => hn h.1
            exact mem_lines_of_mem_ownLines (Parcel.mem_all_of_at? hp) hown

/-! ### Frames of a walk -/

theorem sublist_bodiesAll {f : Frame} {fs : List Frame} (hf : f ∈ fs) :
    f.bodies.Sublist (bodiesAll fs) := by
  rw [bodiesAll_eq, List.flatMap_def]
  exact List.sublist_flatten_of_mem (List.mem_map_of_mem hf)

theorem map_body_sublist (fs : List Frame) : (fs.map body).Sublist (bodiesAll fs) := by
  induction fs with
  | nil => exact List.Sublist.refl _
  | cons f fs ih =>
      obtain ⟨b, inside⟩ := f
      rw [List.map_cons, bodiesAll, bodies, List.cons_append]
      exact (ih.trans (List.sublist_append_right _ _)).cons_cons b

/-- Frames are in order if their bodies start in order, that of the outermost apart. -/
theorem inOrder_of_bodies {f : Frame}
    (h : (bodiesAll f.inside).Pairwise fun a b => a.scope.startLine ≤ b.scope.startLine) :
    f.InOrder := by
  induction f with
  | mk body inside ih =>
      intro g hg
      rw [frames, framesAll_eq] at hg
      rcases List.mem_cons.mp hg with rfl | hg
      · have hbodies := h.sublist (map_body_sublist inside)
        rw [List.pairwise_map] at hbodies
        exact hbodies
      · obtain ⟨c, hc, hg⟩ := List.mem_flatMap.mp hg
        refine ih c hc (h.sublist ?_) g hg
        obtain ⟨b, fs⟩ := c
        exact (List.sublist_cons_self b _).trans (sublist_bodiesAll hc)

end Frame

/-- Frames of a walk start in order if the nodes of the tree do. -/
theorem Reading.inOrder_walk {r : Reading} {lang : Language} (hr : r.pack = lang.pack)
    (name : Option String) {root : Node}
    (h : (root.places.map fun p => p.node.label.start).Pairwise (· ≤ ·)) :
    (r.walk name root).draft.unit.InOrder := by
  refine Frame.inOrder_of_bodies ?_
  have hbodies := bodies_eq_routing hr name root
  generalize (r.walk name root).draft.unit = unit at hbodies ⊢
  obtain ⟨b, fs⟩ := unit
  rw [Frame.bodies, List.cons.injEq] at hbodies
  rw [Frame.inside, hbodies.2, List.pairwise_map]
  have hopeners := (List.pairwise_map.mp h).sublist (List.filter_sublist (p := r.opensFrame))
  exact hopeners.imp fun hstart => Int.ofNat_le.mpr (Source.startLine_mono hstart)

namespace Frame

/-- **A line belongs to the innermost frame that covers it, and among neighbours to the earliest.**
If neighbours start in order, every line of the unit has one owner, the parcel of the frame at which
the descent to the line ends.  Neighbours may overlap, stick out of the frame around them or be of
negative length.  The frames of a walk are in order if the nodes of the tree, in preorder, start in
order. -/
theorem owner_iff_descent :
    (∀ f : Frame, f.InOrder → ∀ n, f.scope.startLine ≤ n → n ≤ f.scope.endLine →
      (∃ owner p, f.at? (f.descent n) = some owner ∧ f.survey.at? (f.descent n) = some p ∧
        p.body = owner.body ∧ n ∈ p.ownLines) ∧
      (∀ route p, f.survey.at? route = some p → (n ∈ p.ownLines ↔ route = f.descent n)) ∧
      ∀ p ∈ f.survey.all, n ∈ p.ownLines → f.survey.at? (f.descent n) = some p) ∧
    ∀ (lang : Language) (source : Source) (macros : SortedSet String) (name : Option String)
      (root : Node), (root.places.map fun p => p.node.label.start).Pairwise (· ≤ ·) →
        (Reading.walk { pack := lang.pack, source, macros } name root).draft.unit.InOrder := by
  refine ⟨fun f hf n hlow hhigh => ?_, fun lang source macros name root h =>
    Reading.inOrder_walk rfl name h⟩
  have hline : n ∈ (⟨f.scope.startLine, f.scope.endLine⟩ : Span).lines :=
    Span.mem_lines.mpr ⟨hlow, hhigh⟩
  have howner : ∀ route p, f.survey.at? route = some p →
      (n ∈ p.ownLines ↔ route = f.descent n) := fun route p hp =>
    mem_ownLines_surveyIn hf hline hp
  have hroute : ∀ p ∈ f.survey.all, n ∈ p.ownLines → f.survey.at? (f.descent n) = some p := by
    intro p hp hn
    obtain ⟨route, hroute⟩ := Parcel.exists_at?_of_mem_all hp
    rw [← (howner route p hroute).mp hn, hroute]
  refine ⟨?_, howner, hroute⟩
  obtain ⟨p, hp, hn⟩ := List.mem_flatMap.mp ((f.perm_ownLines _).symm.subset hline)
  have hp' := hroute p hp hn
  obtain ⟨s, hs⟩ := at?_surveyIn (f.descent n) f ⟨f.scope.startLine, f.scope.endLine⟩
  obtain ⟨owner, howner, rfl⟩ := Option.map_eq_some_iff.mp (hs.symm.trans hp')
  refine ⟨owner, _, howner, hp', ?_, hn⟩
  cases owner
  rfl

/-- Line 6 is the closure's that sticks out of the first function, though two more functions cover
it.  Line 8 is out of its reach and belongs to a closure of the second function, which has lost the
lines before to the first.  The frames of a small tree are in order. -/
theorem owner_iff_descent_overlapping :
    let frame (kind : SpaceKind) (low high : Int) :=
      Frame.mk { scope := { kind, name := none, startLine := low, endLine := high } }
    let f : Frame := frame .unit 1 10
      [frame .function 3 6 [frame .closure 4 2 [], frame .closure 5 9 []],
       frame .function 5 8 [frame .closure 5 6 [], frame .closure 8 20 []],
       frame .function 6 7 []]
    let node (kind : String) (start stop : Nat) (cs : List Node) : Node :=
      .mk ⟨kind, true, false, start, stop, none⟩ cs
    let root : Node := node "module" 0 9
      [node "function_definition" 1 5 [node "lambda" 1 3 []], node "function_definition" 4 9 []]
    let source : Source := ⟨[10, 120, 10, 120, 10, 120, 120, 120, 120]⟩
    f.InOrder ∧ f.descent 6 = [0, 1] ∧ f.descent 8 = [1, 1] ∧ f.descent 9 = [] ∧
      (∀ route p, f.survey.at? route = some p → (6 ∈ p.ownLines ↔ route = [0, 1])) ∧
      (∀ route p, f.survey.at? route = some p → (8 ∈ p.ownLines ↔ route = [1, 1])) ∧
      (Reading.walk { pack := Language.python.pack, source } none root).draft.unit.InOrder := by
  intro frame f node root source
  obtain ⟨howner, hwalk⟩ := owner_iff_descent
  have hf : f.InOrder := by decide
  exact ⟨hf, by decide, by decide, by decide, (howner f hf 6 (by decide) (by decide)).2.1,
    (howner f hf 8 (by decide) (by decide)).2.1, hwalk .python source ∅ none root (by decide)⟩

end Frame

end ScopeMetrics
