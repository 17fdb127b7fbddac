import ScopeMetrics.Proofs.FlatLines
import ScopeMetrics.Proofs.Forgetting
import ScopeMetrics.Proofs.Passing
import ScopeMetrics.Proofs.Tallying

/-!
# Comments

A comment gives one event, which has the flag of a comment and no other.  To a tally such an event
adds lines with comments and nothing else (`Tally.ofEvent_comment`), so frames that differ in such
events have spaces that differ in their counts of lines with comments and of blank lines, and in the
index derived from them (`Draft.uncommented_spaces`).

* **`walk_past_comment`**: where a comment is overlooked, the tree has the spaces that it has
  without the comment, up to these.
* `comment_parts_else_if`: between an `else` and its if a comment is not overlooked, and the if
  scores as a nested one.
-/

namespace ScopeMetrics

/-- Whether an event is that of a comment. -/
def Event.isComment (e : Event) : Bool := e.category = {.comment}

/-! ### Tallies -/

namespace Tally

/-- A tally without the lines of comments. -/
def uncommented (t : Tally) : Tally := { t with commentLines := ∅ }

/-- A comment adds its lines and nothing else. -/
theorem ofEvent_comment {e : Event} (he : e.isComment = true) :
    ofEvent e = { commentLines := LineSet.range e.startLine e.endLine } := by
  have hc : e.category = {.comment} := of_decide_eq_true he
  have hcallable : ({.comment} : Category).meets .callable = false := by decide
  simp [ofEvent, scoreOf, halsteadOf, methodsOf, argumentsOf, membersOf, Event.opensCallable,
    Event.opensClass, Event.has, hc, hcallable, one]

theorem uncommented_observe_comment {t : Tally} (ht : t.IsBased) {e : Event}
    (he : e.isComment = true) : (t.observe e).uncommented = t.uncommented := by
  have hnesting : max t.maxNesting 0 = t.maxNesting := Int.max_eq_left ht.maxNesting
  have harguments : max t.arguments.max 0 = t.arguments.max := Int.max_eq_left ht.arguments
  rw [observe, ofEvent_comment he]
  simp only [uncommented, merge, hnesting, Int.add_zero, Abc.combine, Methods.combine,
    Arguments.combine, harguments, Members.combine]
  rfl

theorem uncommented_foldl (es : List Event) : ∀ {t u : Tally}, u.IsBased →
    t.uncommented = u.uncommented →
      ((es.filter fun e => !e.isComment).foldl observe t).uncommented =
        (es.foldl observe u).uncommented := by
  induction es with
  | nil => exact fun _ h => h
  | cons e es ih =>
      -- `u` also observes the comments, which `t` is spared
      intro t u hu h
      cases he : e.isComment with
      | true =>
          rw [List.filter_cons_of_neg (by simp [he]), List.foldl_cons]
          exact ih (hu.observe e) (h.trans (uncommented_observe_comment hu he).symm)
      | false =>
          rw [List.filter_cons_of_pos (by simp [he]), List.foldl_cons, List.foldl_cons]
          refine ih (hu.observe e) ?_
          show (t.uncommented.observe e).uncommented = (u.uncommented.observe e).uncommented
          rw [h]

/-- Leaving out the events of comments changes the lines of comments alone. -/
theorem uncommented_ofEvents (es : List Event) :
    (ofEvents (es.filter fun e => !e.isComment)).uncommented = (ofEvents es).uncommented :=
  uncommented_foldl es ⟨Int.le_refl 0, Int.le_refl 0⟩ rfl

end Tally

/-! ### Bundles and spaces -/

/-- A bundle without what comments change: the lines with comments, the blank lines, and the index
that is derived from the former. -/
def Bundle.uncommented (b : Bundle) : Bundle :=
  { b with loc := { b.loc with cloc := 0, blank := 0 }, maintainability := .ok {} }

theorem Bundle.forgets_uncommented : Forgets uncommented where
  combine _ _ := rfl
  derive _ := rfl
  cyclomatic _ := rfl

namespace Space

mutual

/-- A space without what comments change, in its bundles and in the spaces inside it. -/
def uncommented : Space → Space
  | .mk scope own metrics inside =>
    .mk scope own.uncommented metrics.uncommented (uncommentedAll inside)

def uncommentedAll : List Space → List Space
  | [] => []
  | s :: ss => s.uncommented :: uncommentedAll ss

end

theorem uncommentedAll_eq (ss : List Space) : uncommentedAll ss = ss.map uncommented := by
  induction ss with
  | nil => rfl
  | cons s ss ih => rw [uncommentedAll, ih, List.map_cons]

theorem uncommented_eq (s : Space) : s.uncommented = s.mapBundles Bundle.uncommented := by
  induction s with
  | mk scope own metrics inside ih =>
      rw [uncommented, mapBundles, uncommentedAll_eq, mapBundlesAll_eq, List.map_congr_left ih]

end Space

/-! ### Frames without the events of comments -/

namespace Frame

/-- A body without the events of comments. -/
def Body.uncommented (b : Body) : Body :=
  { b with events := b.events.filter fun e => !e.isComment }

theorem Body.uncommented_tally (b : Body) : b.uncommented.tally.uncommented = b.tally.uncommented :=
  Tally.uncommented_ofEvents b.events

/-- A frame without the events of comments, and likewise the frames inside it. -/
def uncommented (f : Frame) : Frame := f.sift fun e => !e.isComment

theorem uncommented_eq (f : Frame) : f.uncommented = f.mapBodies Body.uncommented := by
  induction f with
  | mk body inside ih =>
      rw [mapBodies_mk, ← List.map_congr_left ih, uncommented, sift, siftAll_eq]
      rfl

/-- Comments put no code on a line. -/
theorem codeLines_uncommented (f : Frame) : f.uncommented.codeLines = f.codeLines := by
  have hlines : ∀ b : Body, b.uncommented.tally.codeLines = b.tally.codeLines := by
    intro b
    have htally := congrArg Tally.codeLines b.uncommented_tally
    exact htally
  rw [uncommented_eq]
  exact foldl_union_mapBodies hlines f

/-- In what comments do not change, their events do not show. -/
theorem hides_uncommented {use use' : LineUse} (hcode : use.code = use'.code) :
    Hides Bundle.uncommented Body.uncommented use use' where
  forgets := Bundle.forgets_uncommented
  scope _ := rfl
  own b lines inside := by
    have hscope : b.uncommented.scope = b.scope := rfl
    have htally := b.uncommented_tally
    simp only [Tally.uncommented, Tally.mk.injEq] at htally
    simp only [Parcel.ownBundle, Bundle.uncommented, Bundle.derive, Loc.ofLines, Tally.cognitive,
      Tally.exitCounts, hcode, hscope, htally]

end Frame

/-- Drafts that differ in events of comments have the same spaces up to what comments change. -/
theorem Draft.uncommented_spaces {d d' : Draft} (h : d.unit.uncommented = d'.unit.uncommented) :
    (d.unit.survey.space d.lineUse).uncommented =
      (d'.unit.survey.space d'.lineUse).uncommented := by
  -- which lines carry comments or are blank does not matter: let it be none
  have hsame : ∀ d : Draft,
      (d.unit.uncommented.survey.space ⟨d.unit.uncommented.codeLines, ∅, []⟩).uncommented =
        (d.unit.survey.space d.lineUse).uncommented := fun d => by
    rw [Space.uncommented_eq, Space.uncommented_eq, Frame.uncommented_eq]
    refine (Frame.hides_uncommented ?_).mapBundles_survey d.unit
    rw [← Frame.uncommented_eq]
    exact d.unit.codeLines_uncommented
  rw [← hsame, ← hsame, h]

namespace Reading

variable {r : Reading} {lang : Language} {p : Place}

/-- What is a comment in some language is inert. -/
theorem isInert_of_comment (hr : r.pack = lang.pack) {x : Node}
    (h : (r.flags x).has .comment = true) : x.IsInert := by
  rw [flags, hr] at h
  exact ⟨(Language.kind_of_comment h).1, List.mem_cons_of_mem _ (Language.kind_of_comment h).2⟩

theorem accessAfter_of_isInert {x : Node} (hx : x.IsInert) (s : Surroundings)
    (access : Option Bool) : r.accessAfter s access x = access := by
  have hkind : (x.kind == "access_specifier") = false :=
    beq_eq_false_iff_ne.mpr (hx.kind_ne (by decide))
  rw [accessAfter, accessChange?, hkind, Bool.and_false, if_neg Bool.false_ne_true, Option.none_or,
    ite_self]

/-- A comment gives nothing but the event of a comment. -/
theorem isSilent_of_comment (hr : r.pack = lang.pack) (h : (r.flags p.node).has .comment = true) :
    r.IsSilent (fun e => !e.isComment) p := by
  cases he : p.node.isError with
  | true => exact isSilent_of_isError he
  | false =>
      have hc : (r.classify p).has .comment = true := by simp [classify, he, h]
      intro s access
      rw [visit_comment hc, categoryIn_of_comment hc,
        accessAfter_of_isInert (isInert_of_comment hr h)]
      -- the category is not empty, so there is one event, and it is not kept
      exact ⟨rfl, rfl, rfl⟩

/-- **A comment that is overlooked changes lines alone.**  For the pack of every language, every
source and every set of macros: if a comment stands between two children of a node, and no rule
reads it there, then the tree has the spaces that it has without the comment, and each of them has
the same metrics of its own and with those inside, up to the lines with comments, the blank lines
and the index derived from them. -/
theorem walk_past_comment (lang : Language) (source : Source) (macros : SortedSet String)
    (name : Option String) (root root' x : Node) :
    let r : Reading := { pack := lang.pack, source, macros }
    (r.flags x).has .comment = true → Inserts x (r.Overlooks x) root root' →
      ∃ unit unit', (r.walk name root).draft.spaces = .ok unit ∧
        (r.walk name root').draft.spaces = .ok unit' ∧ unit.uncommented = unit'.uncommented := by
  intro r hcomment h
  have hr : r.pack = lang.pack := rfl
  have hsilent : ∀ above, r.IsSilent (fun e => !e.isComment) ⟨x, above⟩ := fun _ =>
    isSilent_of_comment hr hcomment
  have hunit : (r.walk name root).draft.unit.uncommented =
      (r.walk name root').draft.unit.uncommented := by
    have hvisit := alike_visit_of_inserts hr (isInert_of_comment hr hcomment) hsilent h
    simp only [walk, unitScope, Frame.uncommented, Frame.sift, Frame.siftAll_eq, hvisit.events,
      hvisit.frames, h.label]
  exact ⟨_, _, r.spaces_walk name root, r.spaces_walk name root', Draft.uncommented_spaces hunit⟩

/-- A method with an `else` and a comment before the block that it runs. -/
theorem walk_past_comment_before_block :
    let node (kind : String) (start stop : Nat) (field : Option String) (cs : List Node) : Node :=
      .mk ⟨kind, true, false, start, stop, field⟩ cs
    let token (kind : String) (start stop : Nat) : Node :=
      .mk ⟨kind, false, false, start, stop, none⟩ []
    let branch : Label := ⟨"if_statement", true, false, 4, 20, none⟩
    let front := [token "if" 4 6, node "identifier" 7 8 (some "condition") [],
      node "block" 9 11 (some "consequence") [], token "else" 11 15]
    let back := [node "block" 18 20 (some "alternative") []]
    let comment := node "block_comment" 15 18 none []
    let unit (statement : Node) := node "program" 0 21 none
      [node "method_declaration" 0 21 none
        [node "identifier" 0 1 (some "name") [],
          node "formal_parameters" 1 3 (some "parameters") [token "(" 1 2, token ")" 2 3],
          node "block" 3 21 (some "body") [statement]]]
    let without := unit (.mk branch (front ++ back))
    let commented := unit (.mk branch (front ++ comment :: back))
    let r : Reading := { pack := Language.java.pack, source := ⟨List.replicate 21 120⟩ }
    (r.flags comment).has .comment = true ∧
      Inserts comment (r.Overlooks comment) without commented ∧
      ∃ s s', (r.walk none without).draft.spaces = .ok s ∧
        (r.walk none commented).draft.spaces = .ok s' ∧ s.uncommented = s'.uncommented := by
  intro node token branch front back comment unit without commented r
  have hspot : r.Overlooks comment branch front back :=
    ⟨by decide +kernel, by decide +kernel, by decide +kernel, by decide +kernel, by decide +kernel,
      by decide +kernel, by decide +kernel, by decide +kernel, by decide +kernel⟩
  have hbranch : Inserts comment (r.Overlooks comment) (.mk branch (front ++ back))
      (.mk branch (front ++ comment :: back)) := .here (by simp [front]) (by simp [back]) hspot
  have hbody := @Inserts.within comment (r.Overlooks comment)
    ⟨"block", true, false, 3, 21, some "body"⟩ [] [] _ _ hbranch
  have hmethod := @Inserts.within comment (r.Overlooks comment)
    ⟨"method_declaration", true, false, 0, 21, none⟩
    [node "identifier" 0 1 (some "name") [],
      node "formal_parameters" 1 3 (some "parameters") [token "(" 1 2, token ")" 2 3]] [] _ _ hbody
  have h : Inserts comment (r.Overlooks comment) without commented :=
    @Inserts.within comment (r.Overlooks comment) ⟨"program", true, false, 0, 21, none⟩ [] [] _ _
      hmethod
  have hcomment : (r.flags comment).has .comment = true := by decide +kernel
  exact ⟨hcomment, h, walk_past_comment .java _ ∅ none _ _ comment hcomment h⟩

/-- A comment between an `else` and the if that continues the chain makes it score as a nested
one. -/
theorem comment_parts_else_if :
    let node (kind : String) (start stop : Nat) (field : Option String) (cs : List Node) : Node :=
      .mk ⟨kind, true, false, start, stop, field⟩ cs
    let token (kind : String) (start stop : Nat) : Node :=
      .mk ⟨kind, false, false, start, stop, none⟩ []
    let branch : Label := ⟨"if_statement", true, false, 0, 19, none⟩
    let front := [token "if" 0 2, node "identifier" 3 4 (some "condition") [],
      node "block" 5 7 (some "consequence") [], token "else" 7 11]
    let back := [node "if_statement" 14 19 (some "alternative")
      [token "if" 14 16, node "identifier" 16 17 (some "condition") [],
        node "block" 17 19 (some "consequence") []]]
    let comment := node "block_comment" 11 14 none []
    let unit (statement : Node) := node "program" 0 19 none [statement]
    let r : Reading := { pack := Language.java.pack, source := ⟨List.replicate 19 120⟩ }
    let cognitive (root : Node) : Option Int :=
      (r.walk none root).draft.spaces.toOption.map (·.metrics.cognitive.sum)
    (r.flags comment).has .comment = true ∧
      Inserts comment (fun _ _ _ => True) (unit (.mk branch (front ++ back)))
        (unit (.mk branch (front ++ comment :: back))) ∧
      cognitive (unit (.mk branch (front ++ back))) = some 2 ∧
      cognitive (unit (.mk branch (front ++ comment :: back))) = some 3 := by
  intro node token branch front back comment unit r cognitive
  have hbranch : Inserts comment (fun _ _ _ => True) (.mk branch (front ++ back))
      (.mk branch (front ++ comment :: back)) := .here (by simp [front]) (by simp [back]) trivial
  exact ⟨by decide +kernel,
    @Inserts.within comment (fun _ _ _ => True) ⟨"program", true, false, 0, 19, none⟩ [] [] _ _
      hbranch, by decide +kernel, by decide +kernel⟩

end Reading

end ScopeMetrics
