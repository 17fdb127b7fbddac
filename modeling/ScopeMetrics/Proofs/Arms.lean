import Mathlib.Data.List.Flatten
import ScopeMetrics.Proofs.Ledger

/-!
# Arms of a match

An arm is a decision unless its pattern is the wildcard, and a guard is one again.  Three grammars
have such arms, and each puts the guard somewhere else: in a clause that is a decision of its own,
inside the pattern, and in a clause of which the tables say nothing.

* `Text.mem_decode`: a byte of ASCII in a source is a character of its text, whatever is around it.
* `strip_text_ne_wildcard`: a pattern that holds a guard is not the wildcard.
* `arm_adds`, `guard_adds`: what an arm and its guard add.
* **`guarded_arms_decide`**: an arm adds a decision exactly if its first pattern is not the wildcard
  or, in the languages where the guard is a decision or part of the pattern, it has a guard.
-/

namespace ScopeMetrics

/-! ### Bytes and characters -/

namespace Text

/-- A character that starts with a byte goes on with bytes that are no ASCII. -/
theorem Lead.low_of_first {b : UInt8} {p : Partial} (h : ofByte b = .first p) : 0x80 ≤ p.low := by
  unfold ofByte at h
  simp only at h
  split_ifs at h <;> (cases h; exact Nat.le_of_ble_eq_true rfl)

theorem Lead.ofByte_of_ascii {b : UInt8} (hb : b < 0x80) :
    ofByte b = .whole (Char.ofNat b.toNat) := if_pos hb

/-- A byte that does not go on with a character is read again after the replacement. -/
theorem decodeFrom_of_broken {p : Partial} {b : UInt8} (h : ¬(p.low ≤ b ∧ b ≤ p.high))
    (bs : List UInt8) :
    decodeFrom (some p) (b :: bs) = replacement :: decodeFrom none (b :: bs) := by
  rw [decodeFrom, decodeFrom, if_neg h]
  cases Lead.ofByte b <;> rfl

/-- A byte of ASCII is no part of a longer character, so it is read as its own character from
wherever reading stands. -/
theorem mem_decodeFrom {b : UInt8} (hb : b < 0x80) : ∀ {bs : List UInt8}, b ∈ bs →
    Char.ofNat b.toNat ∈ decodeFrom none bs ∧
      ∀ p : Partial, 0x80 ≤ p.low → Char.ofNat b.toNat ∈ decodeFrom (some p) bs
  | x :: bs, h => by
      have hbetween : Char.ofNat b.toNat ∈ decodeFrom none (x :: bs) := by
        rw [decodeFrom]
        rcases List.mem_cons.mp h with rfl | h
        · rw [Lead.ofByte_of_ascii hb]
          exact List.mem_cons_self
        · obtain ⟨hnone, hsome⟩ := mem_decodeFrom hb h
          split
          · exact List.mem_cons_of_mem _ hnone
          · rename_i p hp
            exact hsome p (Lead.low_of_first hp)
          · exact List.mem_cons_of_mem _ hnone
      refine ⟨hbetween, fun p hp => ?_⟩
      by_cases hrange : p.low ≤ x ∧ x ≤ p.high
      · -- a byte that goes on with a character is no ASCII, so `b` comes later
        have hne : b ≠ x := by
          rintro rfl
          exact absurd (UInt8.le_trans hp hrange.1) (UInt8.not_le.mpr hb)
        obtain ⟨hnone, hsome⟩ := mem_decodeFrom hb ((List.mem_cons.mp h).resolve_left hne)
        rw [decodeFrom, if_pos hrange]
        dsimp only
        split
        · exact List.mem_cons_of_mem _ hnone
        · exact hsome _ (UInt8.le_refl _)
      · rw [decodeFrom_of_broken hrange]
        exact List.mem_cons_of_mem _ hbetween

theorem mem_decode {b : UInt8} (hb : b < 0x80) {bs : List UInt8} (h : b ∈ bs) :
    Char.ofNat b.toNat ∈ (decode bs).toList := by
  rw [decode, String.toList_ofList]
  exact (mem_decodeFrom hb h).1

theorem mem_dropWhile_of_not {α : Type} {blank : α → Bool} {x : α} {xs : List α}
    (hx : blank x = false) (h : x ∈ xs) : x ∈ xs.dropWhile blank := by
  rw [← List.takeWhile_append_dropWhile (p := blank) (l := xs), List.mem_append] at h
  refine h.resolve_left fun htake => ?_
  rw [List.all_eq_true.mp List.all_takeWhile x htake] at hx
  cases hx

/-- What is no blank is not stripped. -/
theorem mem_strip {s : String} {c : Char} (hc : isBlank c = false) (h : c ∈ s.toList) :
    c ∈ (strip s).toList := by
  rw [strip, String.toList_ofList, trimWhile, trimEndWhile, List.mem_reverse]
  exact mem_dropWhile_of_not hc (List.mem_reverse.mpr (mem_dropWhile_of_not hc h))

end Text

/-- Whether the bytes of a node are those of a text. -/
def Source.Spells (s : Source) (l : Label) (t : String) : Prop :=
  (s.bytes.take l.stop).drop l.start = Text.encode t

instance (s : Source) (l : Label) (t : String) : Decidable (s.Spells l t) :=
  inferInstanceAs (Decidable (_ = _))

/-- What a node spells is part of the text of a node around it. -/
theorem Source.mem_text_of_spells {s : Source} {l k : Label} {t : String} (h : s.Spells k t)
    (hstart : l.start ≤ k.start) (hstop : k.stop ≤ l.stop) {b : UInt8} (hb : b < 0x80)
    (hmem : b ∈ Text.encode t) : Char.ofNat b.toNat ∈ (s.text l).toList := by
  have hsublist : ((s.bytes.take k.stop).drop k.start).Sublist
      ((s.bytes.take l.stop).drop l.start) :=
    (List.drop_sublist_drop_left _ hstart).trans ((List.take_sublist_take_left hstop).drop _)
  rw [h] at hsublist
  exact Text.mem_decode hb (hsublist.subset hmem)

/-! ### How an arm is written -/

namespace Language

/-- The clause that guards an arm, where a language has one. -/
def guardKind? : Language → Option String
  | .python => some "if_clause"
  | .csharp => some "when_clause"
  | _ => none

/-- The clauses that guard an arm. -/
def guards (lang : Language) (p : Place) : List Place :=
  p.children.filter fun c => c.named && !c.node.isError && lang.guardKind? == some c.kind

/-- Where an arm holds its first pattern: under a field, or as its first named child. -/
inductive FirstPattern : Language → Node → Node → Prop where
  | python {n m : Node} {rest : List Node} (hfield : n.fields "pattern" = [])
      (hnamed : n.namedChildren = m :: rest) (hkind : m.kind = "case_pattern") :
      FirstPattern .python n m
  | rust {n m : Node} (hfield : n.fields "pattern" = [m]) : FirstPattern .rust n m
  | csharp {n m : Node} {rest : List Node} (hfield : n.fields "pattern" = [])
      (hnamed : n.namedChildren = m :: rest) : FirstPattern .csharp n m

/-- An arm that the parser could read, with its first pattern. -/
structure IsArm (lang : Language) (n m : Node) : Prop where
  named : n.named = true
  isError : n.isError = false
  kind : n.kind ∈ lang.pack.wildcardArms
  pattern : lang.FirstPattern n m

/-! ### What the tables say -/

theorem arm_tables (lang : Language) : (lang.pack.wildcardArms.all fun k =>
    (Group.flagsOf lang.pack.kinds k).has .decision &&
      !(Group.flagsOf lang.pack.kinds k).has .comment &&
      !(Group.flagsOf lang.pack.kinds k).meets .scope &&
      !lang.pack.defaultLabels.contains k) = true := by
  cases lang <;> decide +kernel

theorem guard_tables (lang : Language) : (lang.guardKind?.all fun k =>
    ((Group.flagsOf lang.pack.kinds k).has .decision == decide (lang = .python)) &&
      !(Group.flagsOf lang.pack.kinds k).has .comment &&
      !(Group.flagsOf lang.pack.kinds k).meets .scope &&
      !(lang.pack.defaultLabels ++ lang.pack.wildcardArms).contains k) = true := by
  cases lang <;> decide +kernel

end Language

namespace Reading

/-- An arm with a guard: a clause of the arm, or the keyword inside its pattern. -/
inductive Guarded (r : Reading) (p : Place) (m : Node) : Language → Prop where
  | clause {lang : Language} {c : Place} (hc : c ∈ lang.guards p) : Guarded r p m lang
  | inside {c : Node} (hc : c ∈ m.children) (hstart : m.label.start ≤ c.label.start)
      (hstop : c.label.stop ≤ m.label.stop) (hspells : r.source.Spells c.label "if") :
      Guarded r p m .rust

variable {r : Reading} {root : Node} {p q : Place} {m : Node} {lang : Language}

/-- A pattern that holds a keyword is not the wildcard. -/
theorem strip_text_ne_wildcard {c : Node} (hstart : m.label.start ≤ c.label.start)
    (hstop : c.label.stop ≤ m.label.stop) (hspells : r.source.Spells c.label "if") :
    Text.strip (r.text m) ≠ "_" := by
  intro h
  have hmem : 'i' ∈ (Text.strip (r.text m)).toList :=
    Text.mem_strip (by decide)
      (Source.mem_text_of_spells hspells hstart hstop (b := 105) (by decide) (by decide +kernel))
  rw [h] at hmem
  revert hmem
  decide

theorem pattern?_of_firstPattern {n : Node} (h : lang.FirstPattern n m) : pattern? n = some m := by
  have hfirst : n.field? "pattern" = (n.fields "pattern").head? := by
    rw [Node.fields, List.head?_filter]
    rfl
  rw [pattern?, hfirst]
  cases h with
  | python hfield hnamed => rw [hfield, hnamed]; rfl
  | rust hfield => rw [hfield]; rfl
  | csharp hfield hnamed => rw [hfield, hnamed]; rfl

/-- An arm is a decision unless its first pattern is the wildcard. -/
theorem arm_adds (hr : r.pack = lang.pack) (root : Node) (h : lang.IsArm p.node m) :
    (r.isEntered p = true ∧ r.opensScope p = false) ∧
      r.partAt root (·.decisions) p = if Text.strip (r.text m) = "_" then 0 else 1 := by
  have hflags : r.flags p.node = Group.flagsOf lang.pack.kinds p.node.kind :=
    flags_of_is hr ⟨h.named, rfl, h.isError⟩
  have htables := List.all_eq_true.mp lang.arm_tables p.node.kind h.kind
  rw [← hflags] at htables
  simp only [Bool.and_eq_true, Bool.not_eq_true'] at htables
  obtain ⟨⟨⟨hdecision, hcomment⟩, hscope⟩, hlabel⟩ := htables
  have hplain := isPlain_of_flags h.isError hcomment hscope
  refine ⟨hplain, ?_⟩
  have harm : r.pack.wildcardArms.contains p.kind = true := by
    rw [hr]
    exact List.contains_iff_mem.mpr h.kind
  have hlabel' : r.pack.defaultLabels.contains p.kind = false := by
    rw [hr]
    exact hlabel
  have hwild : r.isWildcardArm p.node = decide (Text.strip (r.text m) = "_") := by
    rw [isWildcardArm, pattern?_of_firstPattern h.pattern, Option.any_some, beq_eq_decide]
  rw [decisions_at hplain.2, has_decision_classify hplain.1, hdecision, hlabel', harm, hwild]
  by_cases htext : Text.strip (r.text m) = "_" <;> simp [htext, Tally.one]

/-- A clause that guards an arm is a decision in one language and adds nothing in another. -/
theorem guard_adds (hr : r.pack = lang.pack) (root : Node) (h : q ∈ lang.guards p) :
    r.isEntered q = true ∧
      r.partAt root (·.decisions) q = Tally.one (decide (lang = .python)) := by
  obtain ⟨-, hguard⟩ := List.mem_filter.mp h
  simp only [Bool.and_eq_true, Bool.not_eq_true', beq_iff_eq] at hguard
  obtain ⟨⟨hnamed, herror⟩, hkind⟩ := hguard
  have hflags : r.flags q.node = Group.flagsOf lang.pack.kinds q.kind :=
    flags_of_is hr ⟨hnamed, rfl, herror⟩
  have htables := lang.guard_tables
  rw [hkind, Option.all_some, ← hflags, ← hr] at htables
  simp only [Bool.and_eq_true, Bool.not_eq_true', beq_iff_eq] at htables
  obtain ⟨⟨⟨hdecision, hcomment⟩, hscope⟩, hrules⟩ := htables
  have hplain := isPlain_of_flags herror hcomment hscope
  refine ⟨hplain.1, ?_⟩
  rw [decisions_of_kind hplain hrules, hdecision]

theorem guards_eq_nil (h : lang.guardKind? = none) (p : Place) : lang.guards p = [] := by
  rw [Language.guards, h]
  exact List.filter_eq_nil_iff.mpr fun c _ => by simp

/-- What the clauses add that guard an arm. -/
theorem sumOf_guards (hr : r.pack = lang.pack) (root : Node) (p : Place) :
    sumOf (r.partAt root (·.decisions)) (lang.guards p) =
      if lang = .python then ((lang.guards p).length : Int) else 0 := by
  have hadds := sumOf_congr fun q hq => (guard_adds (p := p) hr root hq).2
  rw [hadds]
  split
  · rename_i hlang
    rw [decide_eq_true hlang]
    exact sumOf_one _
  · rename_i hlang
    rw [decide_eq_false hlang]
    exact sumOf_zero fun _ _ => rfl

theorem guards_sublist_own (hr : r.pack = lang.pack) (hreached : r.isReached p = true)
    (hi : r.isEntered p = true) : (lang.guards p).Sublist (p.children.flatMap r.own) := by
  have hread : ∀ q ∈ lang.guards p, r.isReached q = true ∧ r.isEntered q = true := by
    intro q hq
    refine ⟨?_, (guard_adds hr p.node hq).1⟩
    rw [isReached_of_mem_children (List.mem_filter.mp hq).1, hi, hreached]
    rfl
  exact (sublist_flatMap_own hread).trans ((List.filter_sublist).flatMap _)

/-- Whether an arm adds a decision. -/
theorem decides_iff (h : lang.IsArm p.node m) :
    0 < (if Text.strip (r.text m) = "_" then 0 else 1) +
        (if lang = .python then ((lang.guards p).length : Int) else 0) ↔
      Text.strip (r.text m) ≠ "_" ∨ lang ≠ .csharp ∧ r.Guarded p m lang := by
  by_cases hwild : Text.strip (r.text m) = "_"
  · rw [if_pos hwild, Int.zero_add]
    constructor
    · intro hpos
      split at hpos
      · rename_i hlang
        obtain ⟨c, hc⟩ := List.exists_mem_of_length_pos (Int.ofNat_lt.mp hpos)
        exact .inr ⟨by rw [hlang]; decide, .clause hc⟩
      · exact absurd hpos (Int.lt_irrefl 0)
    · rintro (hne | ⟨hlang, hguarded⟩)
      · exact absurd hwild hne
      · cases hguarded with
        | clause hc =>
            cases h.pattern with
            | python => exact Int.ofNat_lt.mpr (List.length_pos_of_mem hc)
            | rust =>
                rw [guards_eq_nil rfl] at hc
                cases hc
            | csharp => exact absurd rfl hlang
        -- here the guard adds nothing itself, but is part of the text of the pattern
        | inside _ hstart hstop hspells =>
            exact absurd hwild (strip_text_ne_wildcard hstart hstop hspells)
  · rw [if_neg hwild]
    refine iff_of_true ?_ (.inl hwild)
    split <;> omega

/-- **An arm decides if it has another pattern than the wildcard, or a guard that is read.**  In
each language with such arms, for every source, set of macros and tree, let an arm be reached that
the parser could read.  Of the decisions of its frame, the arm adds one unless its first pattern is
the wildcard, and each clause that guards it adds one where such clauses are decisions.  The sum is
not zero exactly if the first pattern is not the wildcard, or the arm has a guard and the language
is another than C#. -/
theorem guarded_arms_decide (lang : Language) (source : Source) (macros : SortedSet String)
    (name : Option String) (root : Node) (p : Place) (m : Node) :
    let r : Reading := { pack := lang.pack, source, macros }
    let total : Int := (if Text.strip (r.text m) = "_" then 0 else 1) +
      if lang = .python then ((lang.guards p).length : Int) else 0
    p ∈ root.places → r.isReached p = true → lang.IsArm p.node m →
      r.Adds name root (·.decisions) p (p :: lang.guards p) total ∧
      (0 < total ↔ Text.strip (r.text m) ≠ "_" ∨ lang ≠ .csharp ∧ r.Guarded p m lang) := by
  intro r total hp hreached harm
  obtain ⟨hplain, hdecisions⟩ := arm_adds (r := r) rfl root harm
  refine ⟨adds_of_sublist rfl name Tally.additive_decisions hp hreached ?_ ?_, decides_iff harm⟩
  · exact cons_sublist_own hreached hplain (guards_sublist_own rfl hreached hplain.1)
  · rw [sumOf_cons, hdecisions, sumOf_guards rfl]

/-- The arm of `match k { _ if a => 1 }` adds a decision. -/
theorem guarded_arms_decide_inside :
    let token (kind : String) (start stop : Nat) : Node :=
      .mk ⟨kind, false, false, start, stop, none⟩ []
    let node (kind : String) (start stop : Nat) (field : Option String) (cs : List Node) : Node :=
      .mk ⟨kind, true, false, start, stop, field⟩ cs
    let m := node "match_pattern" 10 16 (some "pattern")
      [token "_" 10 11, token "if" 12 14, node "identifier" 15 16 (some "condition") []]
    let arm := node "match_arm" 10 21 none
      [m, token "=>" 17 19, node "integer_literal" 20 21 (some "value") []]
    let block := node "match_block" 8 23 (some "body") [token "\x7b" 8 9, arm, token "\x7d" 22 23]
    let whole := node "match_expression" 0 23 none
      [token "match" 0 5, node "identifier" 6 7 (some "value") [], block]
    let root := node "source_file" 0 23 none [whole]
    let r : Reading :=
      { pack := Language.rust.pack, source := .ofText "match k \x7b _ if a => 1 \x7d" }
    let p : Place :=
      ⟨arm, [⟨block.label, [token "\x7b" 8 9], [token "\x7d" 22 23]⟩,
        ⟨whole.label, whole.children.reverse.tail, []⟩, ⟨root.label, [], []⟩]⟩
    p ∈ root.places ∧ r.isReached p = true ∧ Language.rust.IsArm p.node m ∧
      r.Guarded p m .rust ∧ r.Adds none root (·.decisions) p (p :: Language.rust.guards p) 1 := by
  intro token node m arm block whole root r p
  have hp : p ∈ root.places :=
    .tail _ (.tail _ (.tail _ (.tail _ (.tail _ (.tail _ (.head _))))))
  have hreached : r.isReached p = true := by decide +kernel
  have harm : Language.rust.IsArm p.node m := ⟨rfl, rfl, by decide, .rust rfl⟩
  have hguarded : r.Guarded p m .rust :=
    .inside (.tail _ (.head _)) (by decide) (by decide) (by decide +kernel)
  have htotal : (if Text.strip (r.text m) = "_" then 0 else 1) +
      (if Language.rust = .python then ((Language.rust.guards p).length : Int) else 0) = 1 := by
    decide +kernel
  have hadds : r.Adds none root (·.decisions) p (p :: Language.rust.guards p) _ :=
    (guarded_arms_decide .rust r.source ∅ none root p m hp hreached harm).1
  exact ⟨hp, hreached, harm, hguarded, htotal ▸ hadds⟩

/-- The arm of `k switch { _ when a => 6 }` has a guard, but neither adds a decision, and the unit
has none. -/
theorem guard_after_wildcard_lost :
    let token (kind : String) (start stop : Nat) : Node :=
      .mk ⟨kind, false, false, start, stop, none⟩ []
    let node (kind : String) (start stop : Nat) (cs : List Node) : Node :=
      .mk ⟨kind, true, false, start, stop, none⟩ cs
    let m := node "discard" 11 12 []
    let guard := node "when_clause" 13 19 [token "when" 13 17, node "identifier" 18 19 []]
    let arm := node "switch_expression_arm" 11 24
      [m, guard, token "=>" 20 22, node "integer_literal" 23 24 []]
    let whole := node "switch_expression" 0 26
      [node "identifier" 0 1 [], token "switch" 2 8, token "\x7b" 9 10, arm, token "\x7d" 25 26]
    let root := node "compilation_unit" 0 26 [whole]
    let r : Reading :=
      { pack := Language.csharp.pack, source := .ofText "k switch \x7b _ when a => 6 \x7d" }
    let p : Place :=
      ⟨arm, [⟨whole.label, (whole.children.take 3).reverse, [token "\x7d" 25 26]⟩,
        ⟨root.label, [], []⟩]⟩
    p ∈ root.places ∧ r.isReached p = true ∧ Language.csharp.IsArm p.node m ∧
      Text.strip (r.text m) = "_" ∧ r.Guarded p m .csharp ∧
      (r.bodyAround none root p).tally.decisions = 0 := by
  intro token node m guard arm whole root r p
  have hp : p ∈ root.places := .tail _ (.tail _ (.tail _ (.tail _ (.tail _ (.head _)))))
  have harm : Language.csharp.IsArm p.node m := ⟨rfl, rfl, by decide, .csharp rfl rfl⟩
  have hguard : ⟨guard, ⟨arm.label, [m], arm.children.drop 2⟩ :: p.above⟩ ∈
      Language.csharp.guards p :=
    List.mem_filter.mpr ⟨.tail _ (.head _), by decide +kernel⟩
  exact ⟨hp, by decide +kernel, harm, by decide +kernel, .clause hguard, by decide +kernel⟩

end Reading

end ScopeMetrics
