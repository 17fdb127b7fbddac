import ScopeMetrics.Proofs.Census
import ScopeMetrics.Proofs.Tokens

/-!
# Tokens without a text

An anonymous leaf that covers no byte is no token.  The rule for tokens asks this of anonymous
leaves alone: a named leaf and a composite are tokens whatever they cover, and one that covers no
byte puts the empty text into the bags of its space.

* `Text.decode_eq_empty_iff`: only no bytes at all are read as the empty text.
* `countsAs_empty_iff`: a node that covers no byte is counted if it is a named leaf or a composite.
* `map_counts_own`: how often a space alone has a text.
* **`empty_texts_counted`**: where the empty text is counted, for every tree in every language.
* `empty_block_counted`: a function without statements has the empty text among its operands.
-/

namespace ScopeMetrics

/-! ### Empty texts -/

namespace Text

/-- From the middle of a character something is read, whatever follows. -/
theorem decodeFrom_some_ne_nil (bs : List UInt8) : ∀ p : Partial, decodeFrom (some p) bs ≠ [] := by
  induction bs with
  | nil => exact fun _ => List.cons_ne_nil _ _
  | cons b bs ih =>
      intro p
      rw [decodeFrom]
      split
      · simp only
        split
        · exact List.cons_ne_nil _ _
        · exact ih _
      · split <;> exact List.cons_ne_nil _ _

/-- Only no bytes at all are read as the empty text. -/
theorem decode_eq_empty_iff {bs : List UInt8} : decode bs = "" ↔ bs = [] := by
  rw [decode, ← String.ofList_nil, String.ofList_inj]
  cases bs with
  | nil => exact iff_of_true rfl rfl
  | cons b bs =>
      refine iff_of_false ?_ (List.cons_ne_nil _ _)
      rw [decodeFrom]
      split
      · exact List.cons_ne_nil _ _
      · exact decodeFrom_some_ne_nil bs _
      · exact List.cons_ne_nil _ _

end Text

namespace Source

variable {s : Source} {l : Label}

/-- Whether the range of a node is one of the source. -/
def Covers (s : Source) (l : Label) : Prop := l.start ≤ l.stop ∧ l.stop ≤ s.length

theorem text_eq_empty_iff : s.text l = "" ↔ min l.stop s.length ≤ l.start := by
  rw [text, Text.decode_eq_empty_iff, List.drop_eq_nil_iff, List.length_take, length]

/-- A node has no text if it covers no byte. -/
theorem text_of_eq (h : l.start = l.stop) : s.text l = "" :=
  text_eq_empty_iff.mpr (h ▸ Nat.min_le_left _ _)

/-- A node whose range is one of the source has a text if it covers a byte. -/
theorem Covers.eq_of_text (h : s.Covers l) (htext : s.text l = "") : l.start = l.stop := by
  rw [text_eq_empty_iff, Nat.min_eq_left h.2] at htext
  exact Nat.le_antisymm h.1 htext

end Source

/-! ### Counting a text -/

/-- How often a text is in the bag of some tokens of a list. -/
theorem Bag.count_ofList_filter (side : Token → Bool) (ts : List Token) (t : String) :
    (ofList ((ts.filter side).map Token.text)).count t =
      ts.countP fun u => side u && u.text == t := by
  rw [count_ofList, List.count_eq_countP, List.countP_map, List.countP_filter]
  refine List.countP_congr fun u _ => ?_
  rw [Function.comp_apply, Bool.and_comm]

namespace Halstead

/-- How often a text is among the operators, and how often among the operands. -/
def counts (h : Halstead) (t : String) : Nat × Nat := (h.operators.count t, h.operands.count t)

/-- Whether a text is neither among the operators nor among the operands. -/
def Lacks (h : Halstead) (t : String) : Prop := h.counts t = (0, 0)

theorem lacks_iff {h : Halstead} {t : String} :
    h.Lacks t ↔ h.operators.count t = 0 ∧ h.operands.count t = 0 :=
  Prod.mk.injEq _ _ _ _ ▸ Iff.rfl

end Halstead

/-- How often a text is among the operators, or among the operands, adds up. -/
theorem Bundle.addsUp_count (bag : Halstead → Bag)
    (hbag : ∀ a b, bag (a.combine b) = (bag a).merge (bag b)) (t : String) :
    AddsUp fun b => ((bag b.halstead).count t : Int) where
  combine a b := by
    show ((bag (a.halstead.combine b.halstead)).count t : Int) = _
    rw [hbag, Bag.count_merge, Int.natCast_add]

namespace Space

/-- What is inside a space of a space is inside the space. -/
theorem mem_all_trans {s t u : Space} (ht : t ∈ s.all) (hu : u ∈ t.all) : u ∈ s.all := by
  induction s with
  | mk scope own metrics inside ih =>
      rw [all_mk] at ht ⊢
      rcases List.mem_cons.mp ht with rfl | ht
      · rwa [all_mk] at hu
      · obtain ⟨v, hv, ht⟩ := List.mem_flatMap.mp ht
        exact List.mem_cons_of_mem _ (List.mem_flatMap.mpr ⟨v, hv, ih v hv ht⟩)

theorem IsRolled.of_mem {s t : Space} (hs : s.IsRolled) (ht : t ∈ s.all) : t.IsRolled :=
  fun u hu => hs u (mem_all_trans ht hu)

/-- Rolled up, a space has a text as often as the spaces of its subtree have it by themselves. -/
theorem count_metrics {s : Space} (hs : s.IsRolled) (t : String) :
    (s.metrics.halstead.operators.count t : Int) =
        sumOf (fun u => (u.own.halstead.operators.count t : Int)) s.all ∧
      (s.metrics.halstead.operands.count t : Int) =
        sumOf (fun u => (u.own.halstead.operands.count t : Int)) s.all :=
  ⟨part_metrics (Bundle.addsUp_count Halstead.operators (fun _ _ => rfl) t) hs,
    part_metrics (Bundle.addsUp_count Halstead.operands (fun _ _ => rfl) t) hs⟩

/-- A text that no space of a subtree has by itself is not in its rolled-up bags. -/
theorem lacks_metrics {s : Space} (hs : s.IsRolled) {t : String}
    (h : ∀ u ∈ s.all, u.own.halstead.Lacks t) : s.metrics.halstead.Lacks t := by
  obtain ⟨hoperators, hoperands⟩ := count_metrics hs t
  rw [sumOf_zero fun u hu => by rw [(Halstead.lacks_iff.mp (h u hu)).1]; rfl] at hoperators
  rw [sumOf_zero fun u hu => by rw [(Halstead.lacks_iff.mp (h u hu)).2]; rfl] at hoperands
  exact Halstead.lacks_iff.mpr
    ⟨Int.ofNat_eq_zero.mp hoperators, Int.ofNat_eq_zero.mp hoperands⟩

end Space

namespace Reading

variable {r : Reading} {root : Node} {p : Place} {lang : Language}

/-! ### Counted places by their text -/

/-- Whether a place is counted with a text. -/
def countsAs (r : Reading) (t : String) (p : Place) : Bool := r.isCounted p && r.text p.node == t

/-- How many of some places are operators, and how many are operands. -/
def sides (r : Reading) (ps : List Place) : Nat × Nat :=
  (ps.countP fun p => (r.tokenAt p).isOperator, ps.countP fun p => !(r.tokenAt p).isOperator)

theorem sides_eq_zero_iff {ps : List Place} : r.sides ps = (0, 0) ↔ ps = [] := by
  rw [sides, Prod.mk.injEq, List.countP_eq_zero, List.countP_eq_zero]
  constructor
  · rintro ⟨hoperator, hoperand⟩
    refine List.eq_nil_iff_forall_not_mem.mpr fun p hp => ?_
    have hnot := hoperand p hp
    rw [Bool.not_eq_true', Bool.not_eq_false] at hnot
    exact hoperator p hp hnot
  · rintro rfl
    exact ⟨fun _ hp => absurd hp List.not_mem_nil, fun _ hp => absurd hp List.not_mem_nil⟩

/-- How often a space alone has a text: as often as the places that its frame owns are counted with
it. -/
theorem map_counts_own (hr : r.pack = lang.pack) (name : Option String) (root : Node)
    (use : LineUse) (t : String) :
    ((r.walk name root).draft.unit.survey.space use).all.map (fun s => s.own.halstead.counts t) =
      (r.frameAddresses root).map fun k =>
        r.sides ((root.places.filter (r.countsAs t)).filter fun p => r.ownerAddress p == k) := by
  have hside : ∀ (k : Option (List Nat)) (side : Token → Bool),
      ((((root.places.filter r.isCounted).filter fun p => r.ownerAddress p == k).map
          r.tokenAt).countP fun u => side u && u.text == t) =
        ((root.places.filter (r.countsAs t)).filter fun p => r.ownerAddress p == k).countP
          fun p => side (r.tokenAt p) := by
    intro k side
    rw [List.countP_map, List.countP_filter, List.countP_filter, List.countP_filter,
      List.countP_filter]
    refine List.countP_congr fun p _ => ?_
    simp only [Function.comp_apply, countsAs, tokenAt, Bool.and_eq_true]
    tauto
  refine (map_part_walk (·.counts t) hr name root use).trans (List.map_congr_left fun k _ => ?_)
  rw [Halstead.counts, Halstead.ofTokens, Bag.count_ofList_filter,
    Bag.count_ofList_filter, hside k Token.isOperator, hside k fun u => !u.isOperator]
  rfl

/-- A named leaf or a composite that the walk tells its frame of: it is reached, neither an error
nor a comment nor a scope opener, and not part of a composite. -/
structure IsNamedToken (r : Reading) (p : Place) : Prop where
  reached : r.isReached p = true
  entered : r.isEntered p = true
  opener : r.opensScope p = false
  outside : r.isInOperand p.ancestors = false
  named : p.node.named = true
  shape : p.node.isLeaf = true ∨ r.isComposite p.node = true

/-- A node that covers no byte is a token if it is a named leaf or a composite. -/
theorem isSome_tokenOf?_of_isEmpty {n : Node} (he : n.isEmpty = true) :
    (r.tokenOf? n).isSome = true ↔
      n.named = true ∧ (n.isLeaf = true ∨ r.isComposite n = true) := by
  unfold tokenOf?
  split_ifs with hcomposite hleaf hnamed hout
  · exact iff_of_true rfl ⟨named_of_isComposite hcomposite, .inr hcomposite⟩
  · rw [Bool.not_eq_true'] at hleaf
    simp [hleaf, hcomposite]
  · rw [Bool.not_eq_true', Bool.not_eq_false] at hleaf
    exact iff_of_true rfl ⟨hnamed, .inl hleaf⟩
  · simp [hnamed]
  · rw [he, Bool.or_true] at hout
    exact absurd rfl hout

theorem text_of_isEmpty {n : Node} (he : n.isEmpty = true) : r.text n = "" :=
  Source.text_of_eq (beq_iff_eq.mp he)

/-- A node that covers no byte is counted, with the empty text, if it is a named leaf or a
composite. -/
theorem countsAs_empty_iff (hr : r.pack = lang.pack) (he : p.node.isEmpty = true) :
    r.countsAs "" p = true ↔ r.IsNamedToken p := by
  rw [countsAs, text_of_isEmpty he, beq_self_eq_true, Bool.and_true, isCounted_iff hr,
    isSome_tokenOf?_of_isEmpty he]
  constructor
  · rintro ⟨hreached, hentered, hopener, houtside, hnamed, hshape⟩
    exact ⟨hreached, hentered, hopener, houtside, hnamed, hshape⟩
  · exact fun h => ⟨h.reached, h.entered, h.opener, h.outside, h.named, h.shape⟩

/-- A named token is an operator if it is the name of a macro and no composite. -/
theorem IsNamedToken.isOperator (hr : r.pack = lang.pack) (h : r.IsNamedToken p) :
    (r.tokenAt p).isOperator = (!r.isComposite p.node && r.isMacro p.node) := by
  have htoken : (r.tokenOf? p.node).isSome = true := by
    rcases h.shape with hleaf | hcomposite
    · rw [tokenOf?, hleaf, h.named]
      split <;> rfl
    · exact isSome_tokenOf?_of_isComposite hcomposite
  have hcounted : r.isCounted p = true :=
    (isCounted_iff hr).mpr ⟨h.reached, h.entered, h.opener, h.outside, htoken⟩
  have hat := tokenOf?_of_isCounted hr hcounted
  unfold tokenOf? at hat
  split_ifs at hat with hcomposite hleaf hnamed hout
  · rw [hcomposite, ← Option.some.inj hat]
    rfl
  · rw [Bool.eq_false_iff.mpr hcomposite, ← Option.some.inj hat]
    rfl
  · exact absurd h.named hnamed

/-- What no counted place is counted with is in no space, and the other way round. -/
theorem lacks_walk_iff (hr : r.pack = lang.pack) (name : Option String) (root : Node)
    (use : LineUse) (t : String) :
    (∀ s ∈ ((r.walk name root).draft.unit.survey.space use).all,
      s.own.halstead.Lacks t ∧ s.metrics.halstead.Lacks t) ↔
        root.places.filter (r.countsAs t) = [] := by
  have hcounts := map_counts_own hr name root use t
  constructor
  · intro h
    refine List.eq_nil_iff_forall_not_mem.mpr fun p hp => ?_
    -- the frame that owns the place has a space, and that space counts it
    obtain ⟨hplace, hcounted⟩ := List.mem_filter.mp hp
    rw [countsAs, Bool.and_eq_true] at hcounted
    have howner := ownerAddress_mem_frameAddresses hplace ((isCounted_iff hr).mp hcounted.1).1
    have hsides := List.mem_map_of_mem (f := fun k =>
      r.sides ((root.places.filter (r.countsAs t)).filter fun p => r.ownerAddress p == k)) howner
    rw [← hcounts] at hsides
    obtain ⟨s, hs, hsame⟩ := List.mem_map.mp hsides
    have hnone := sides_eq_zero_iff.mp (hsame.symm.trans (h s hs).1)
    exact List.filter_eq_nil_iff.mp hnone p hp (beq_self_eq_true _)
  · intro h
    have hown : ∀ s ∈ ((r.walk name root).draft.unit.survey.space use).all,
        s.own.halstead.Lacks t := by
      intro s hs
      have hmem := List.mem_map_of_mem (f := fun s : Space => s.own.halstead.counts t) hs
      rw [hcounts, h] at hmem
      obtain ⟨k, -, hk⟩ := List.mem_map.mp hmem
      exact hk.symm
    intro s hs
    have hrolled := (Parcel.isRolled_space use _).of_mem hs
    exact ⟨hown s hs, Space.lacks_metrics hrolled fun u hu => hown u (Space.mem_all_trans hs hu)⟩

/-- **Where the empty text is counted.**  In every language, for every source, set of macros and
tree: a node that covers no byte is counted, with the empty text, exactly if it is a named leaf or a
composite that the walk tells its frame of, so never if it is anonymous; it is an operand, unless it
is a leaf of C or C++ and some macro has no name.  A counted place without a text covers no byte, if
its range is one of the source.  The unit has spaces.  Each has by itself the empty text as often as
its frame owns such places, and rolled up as often as the spaces of its subtree have it by
themselves; and no space has it, by itself or rolled up, exactly if the tree has no such place. -/
theorem empty_texts_counted (lang : Language) (source : Source) (macros : SortedSet String)
    (name : Option String) (root : Node) :
    let r : Reading := { pack := lang.pack, source, macros }
    let d := (r.walk name root).draft
    let empty := root.places.filter (r.countsAs "")
    (∀ p ∈ root.places, p.node.isEmpty = true → (p ∈ empty ↔ r.IsNamedToken p)) ∧
    (∀ p ∈ empty, p.node.isEmpty = true → (r.tokenAt p).isOperator =
      (!r.isComposite p.node && (lang == .cpp && macros.contains ""))) ∧
    (∀ p ∈ empty, source.Covers p.node.label → p.node.isEmpty = true) ∧
    ∃ unit, d.spaces = .ok unit ∧
      unit.all.map (fun s => s.own.halstead.counts "") = (r.frameAddresses root).map (fun k =>
        r.sides (empty.filter fun p => r.ownerAddress p == k)) ∧
      (∀ s ∈ unit.all,
        (s.metrics.halstead.operators.count "" : Int) =
          sumOf (fun t => (t.own.halstead.operators.count "" : Int)) s.all ∧
        (s.metrics.halstead.operands.count "" : Int) =
          sumOf (fun t => (t.own.halstead.operands.count "" : Int)) s.all) ∧
      ((∀ s ∈ unit.all, s.own.halstead.Lacks "" ∧ s.metrics.halstead.Lacks "") ↔ empty = []) := by
  intro r d empty
  have hempty : ∀ p ∈ root.places, p.node.isEmpty = true → (p ∈ empty ↔ r.IsNamedToken p) := by
    intro p hp he
    rw [← countsAs_empty_iff (rfl : r.pack = lang.pack) he, List.mem_filter, and_iff_right hp]
  refine ⟨hempty, fun p hp he => ?_, fun p hp hcovers => ?_, _, r.spaces_walk name root,
    map_counts_own rfl name root _ "", fun s hs => ?_, lacks_walk_iff rfl name root _ ""⟩
  · have hnamed := (hempty p (List.mem_filter.mp hp).1 he).mp hp
    rw [hnamed.isOperator rfl, isMacro, text_of_isEmpty he, lang.pack_language]
  · have hcounted := (List.mem_filter.mp hp).2
    rw [countsAs, Bool.and_eq_true, beq_iff_eq] at hcounted
    exact beq_iff_eq.mpr (hcovers.eq_of_text hcounted.2)
  · have hrolled := (Parcel.isRolled_space d.lineUse _).of_mem hs
    exact Space.count_metrics hrolled ""

/-- A program of three nodes that cover no byte, after a first byte: the name and the template are
counted, the bare token between them is not. -/
theorem empty_texts_counted_template :
    let leaf (kind : String) (named : Bool) : Node := .mk ⟨kind, named, false, 1, 1, none⟩ []
    let name := leaf "identifier" true
    let token := leaf "+" false
    let template := leaf "template_string" true
    let root : Node := .mk ⟨"program", true, false, 0, 1, none⟩ [name, token, template]
    let r : Reading := { pack := Language.javascript.pack, source := ⟨[59]⟩ }
    let empty := root.places.filter (r.countsAs "")
    let p : Place := ⟨name, [⟨root.label, [], [token, template]⟩]⟩
    let q : Place := ⟨token, [⟨root.label, [name], [template]⟩]⟩
    p ∈ root.places ∧ p.node.isEmpty = true ∧ p ∈ empty ∧ r.source.Covers p.node.label ∧
      (r.tokenAt p).isOperator = false ∧ q ∈ root.places ∧ q.node.isEmpty = true ∧ q ∉ empty ∧
    ∃ unit, (r.walk none root).draft.spaces = .ok unit ∧
      unit.all.map (fun s => s.own.halstead.counts "") = [(0, 2)] ∧
      ¬∀ s ∈ unit.all, s.own.halstead.Lacks "" ∧ s.metrics.halstead.Lacks "" := by
  intro leaf name token template root r empty p q
  obtain ⟨hempty, hside, -, unit, hunit, hcounts, -, hlacks⟩ :=
    empty_texts_counted .javascript r.source ∅ none root
  have hp : p ∈ root.places := .tail _ (.head _)
  have hq : q ∈ root.places := .tail _ (.tail _ (.head _))
  have hnamed : r.IsNamedToken p :=
    ⟨by decide +kernel, by decide +kernel, by decide +kernel, by decide +kernel, rfl, .inl rfl⟩
  have hmem : p ∈ empty := (hempty p hp rfl).mpr hnamed
  have hnot : q ∉ empty := fun h => Bool.false_ne_true ((hempty q hq rfl).mp h).named
  refine ⟨hp, rfl, hmem, ⟨Nat.le_refl 1, Nat.le_refl 1⟩, hside p hmem rfl, hq, rfl, hnot, unit,
    hunit, hcounts.trans (by decide +kernel), fun h => ?_⟩
  have hnone : empty = [] := hlacks.mp h
  rw [hnone] at hmem
  exact List.not_mem_nil hmem

/-- A function of Python without statements: its block covers no byte and is no error, and the
function has the empty text among its operands, and so has the unit. -/
theorem empty_block_counted :
    let leaf (kind : String) (named : Bool) (start stop : Nat) (field : Option String) : Node :=
      .mk ⟨kind, named, false, start, stop, field⟩ []
    let block := leaf "block" true 8 8 (some "body")
    let function : Node := .mk ⟨"function_definition", true, false, 0, 8, none⟩
      [leaf "def" false 0 3 none, leaf "identifier" true 4 5 (some "name"),
        .mk ⟨"parameters", true, false, 5, 7, some "parameters"⟩
          [leaf "(" false 5 6 none, leaf ")" false 6 7 none],
        leaf ":" false 7 8 none, block]
    let root : Node := .mk ⟨"module", true, false, 0, 12, none⟩
      [function, .mk ⟨"expression_statement", true, false, 10, 11, none⟩
        [leaf "identifier" true 10 11 none]]
    let r : Reading :=
      { pack := Language.python.pack
        source := ⟨[100, 101, 102, 32, 97, 40, 41, 58, 10, 10, 120, 10]⟩ }
    let counts (bundle : Space → Bundle) : Option (List (Nat × Nat)) :=
      (r.walk none root).draft.spaces.toOption.map fun unit =>
        unit.all.map fun s => (bundle s).halstead.counts ""
    block.isEmpty = true ∧ block.isError = false ∧
      counts Space.own = some [(0, 0), (0, 1)] ∧
      counts Space.metrics = some [(0, 1), (0, 1)] := by
  intro leaf block function root r counts
  exact ⟨rfl, by decide, by decide +kernel, by decide +kernel⟩

end Reading

end ScopeMetrics
