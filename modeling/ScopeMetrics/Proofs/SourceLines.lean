import Mathlib.Data.List.Basic
import ScopeMetrics.Lines
import ScopeMetrics.Tree.Source

/-!
# The lines of a source

A source is its lines, each ended by a line feed; the last line may lack the feed, but then it is
not empty (`Source.lines`, `Source.exists_lines`).  The numbers read off the bytes are those of
the lines:

* `Source.length_lines`: as many lines as are counted.
* `Source.contains_blankLines`: the blank lines are those that hold only blanks.
* `Source.endLine_le_lineCount`: a node of at least one byte ends on a line of the source, even if
  it ends behind the last line feed.
-/

namespace ScopeMetrics

/-! ### Splitting -/

namespace Text

variable {α : Type} [BEq α] [LawfulBEq α] {sep : α}

/-- The parts, each ended by the separator, are the list with a separator at its end. -/
theorem flatMap_splitFrom (xs : List α) : ∀ part,
    (splitFrom (· == sep) part xs).flatMap (· ++ [sep]) = part.reverse ++ xs ++ [sep] := by
  induction xs with
  | nil => simp [splitFrom]
  | cons x xs ih =>
      intro part
      by_cases hx : (x == sep) = true
      · rw [splitFrom, if_pos hx, List.flatMap_cons, ih, eq_of_beq hx]
        simp
      · rw [splitFrom, if_neg hx, ih]
        simp

/-- No part holds the separator. -/
theorem not_mem_of_mem_splitFrom {line : List α} (xs : List α) : ∀ {part}, sep ∉ part →
    line ∈ splitFrom (· == sep) part xs → sep ∉ line := by
  induction xs with
  | nil =>
      intro part hpart hline
      obtain rfl := List.mem_singleton.mp hline
      rwa [List.mem_reverse]
  | cons x xs ih =>
      intro part hpart hline
      by_cases hx : (x == sep) = true
      · rw [splitFrom, if_pos hx] at hline
        rcases List.mem_cons.mp hline with rfl | hline
        · rwa [List.mem_reverse]
        · exact ih List.not_mem_nil hline
      · rw [splitFrom, if_neg hx] at hline
        refine ih (fun hsep => ?_) hline
        rcases List.mem_cons.mp hsep with rfl | hsep
        · exact hx (beq_self_eq_true _)
        · exact hpart hsep

omit [BEq α] [LawfulBEq α] in
theorem splitFrom_ne_nil (p : α → Bool) (xs : List α) : ∀ part, splitFrom p part xs ≠ [] := by
  induction xs with
  | nil => exact fun _ => List.cons_ne_nil _ _
  | cons x xs ih =>
      intro part
      rw [splitFrom]
      split
      · exact List.cons_ne_nil _ _
      · exact ih _

end Text

namespace Source

/-- The lines of a source without their line feeds.  What follows the last feed is a line only if
it is not empty. -/
def lines (s : Source) : List (List UInt8) :=
  let parts := Text.splitBy (· == lineFeed) s.bytes
  if parts.getLast? = some [] then parts.dropLast else parts

/-- A source is some lines that a feed ends, and a rest without a feed; the rest is the last line
if it is not empty. -/
theorem exists_lines (s : Source) : ∃ full rest,
    Text.splitBy (· == lineFeed) s.bytes = full ++ [rest] ∧
    s.bytes = full.flatMap (· ++ [lineFeed]) ++ rest ∧
    (∀ line ∈ full, lineFeed ∉ line) ∧ lineFeed ∉ rest ∧
    s.lines = if rest = [] then full else full ++ [rest] := by
  obtain hnil | ⟨full, rest, hparts⟩ :=
    List.eq_nil_or_concat' (Text.splitBy (· == lineFeed) s.bytes)
  · exact absurd hnil (Text.splitFrom_ne_nil _ _ _)
  have hfeed : ∀ line ∈ full ++ [rest], lineFeed ∉ line := by
    rw [← hparts]
    exact fun line => Text.not_mem_of_mem_splitFrom s.bytes List.not_mem_nil
  have hbytes : (full ++ [rest]).flatMap (· ++ [lineFeed]) = s.bytes ++ [lineFeed] := by
    rw [← hparts]
    exact Text.flatMap_splitFrom s.bytes []
  refine ⟨full, rest, hparts, ?_, fun line hline => hfeed line (List.mem_append_left _ hline),
    hfeed rest (List.mem_append_right _ List.mem_cons_self), ?_⟩
  · rw [List.flatMap_append, List.flatMap_singleton, ← List.append_assoc] at hbytes
    exact (List.append_cancel_right hbytes).symm
  · rw [lines, hparts, List.getLast?_concat, List.dropLast_concat]
    simp only [Option.some.injEq]

theorem lines_isPrefix (s : Source) : s.lines <+: Text.splitBy (· == lineFeed) s.bytes := by
  rw [lines]
  split
  · exact List.dropLast_prefix _
  · exact List.prefix_refl _

/-! ### Counting lines -/

theorem lineCount_concat (front : List UInt8) (b : UInt8) :
    (⟨front ++ [b]⟩ : Source).lineCount = front.count lineFeed + 1 := by
  simp only [lineCount, List.getLast?_concat, List.count_append, List.count_singleton]
  split <;> rfl

/-- Every line feed ends a line. -/
theorem count_flatMap_feed {full : List (List UInt8)} (h : ∀ line ∈ full, lineFeed ∉ line) :
    (full.flatMap (· ++ [lineFeed])).count lineFeed = full.length := by
  induction full with
  | nil => rfl
  | cons line full ih =>
      rw [List.flatMap_cons, List.count_append, List.count_append,
        List.count_eq_zero.mpr (h line List.mem_cons_self), List.count_singleton_self,
        ih fun l hl => h l (List.mem_cons_of_mem line hl), List.length_cons, Nat.zero_add,
        Nat.add_comm]

theorem length_lines (s : Source) : s.lines.length = s.lineCount := by
  obtain ⟨full, rest, -, hbytes, hfull, hrest, hlines⟩ := s.exists_lines
  obtain ⟨bytes⟩ := s
  obtain rfl : bytes = _ := hbytes
  rw [hlines]
  rcases List.eq_nil_or_concat' rest with rfl | ⟨front, b, rfl⟩
  · rw [if_pos rfl, List.append_nil]
    rcases List.eq_nil_or_concat' full with rfl | ⟨init, line, rfl⟩
    · rfl
    · have hinit : ∀ l ∈ init, lineFeed ∉ l := fun l hl => hfull l (List.mem_append_left _ hl)
      have hline : lineFeed ∉ line := hfull line (List.mem_append_right _ List.mem_cons_self)
      rw [List.flatMap_append, List.flatMap_singleton, ← List.append_assoc, lineCount_concat,
        List.count_append, count_flatMap_feed hinit, List.count_eq_zero.mpr hline,
        List.length_append]
      rfl
  · have hfront : lineFeed ∉ front := fun h => hrest (List.mem_append_left _ h)
    rw [if_neg (List.append_ne_nil_of_right_ne_nil _ (List.cons_ne_nil _ _)),
      ← List.append_assoc, lineCount_concat, List.count_append, count_flatMap_feed hfull,
      List.count_eq_zero.mpr hfront, List.length_append]
    rfl

/-! ### Blank lines -/

/-- The number of a line is a blank one exactly if the line holds only blanks. -/
theorem contains_blankLines {s : Source} {line : List UInt8} {number : Nat}
    (h : (line, number) ∈ s.lines.zipIdx 1) :
    s.blankLines.contains (Int.ofNat number) = line.all Text.isBlankByte := by
  obtain ⟨hnumber, hline⟩ := List.mk_mem_zipIdx_iff_le_and_getElem?_sub.mp h
  have hpart : (Text.splitBy (· == lineFeed) s.bytes)[number - 1]? = some line := by
    obtain ⟨tail, htail⟩ := s.lines_isPrefix
    rw [← htail, List.getElem?_append_left (List.getElem?_eq_some_iff.mp hline).1, hline]
  rw [Bool.eq_iff_iff, List.contains_iff_mem, blankLines, List.mem_filterMap]
  constructor
  · rintro ⟨⟨line', number'⟩, hmem, hblank⟩
    obtain ⟨hnumber', hline'⟩ := List.mk_mem_zipIdx_iff_le_and_getElem?_sub.mp hmem
    obtain ⟨hall, hsame⟩ := Option.ite_none_right_eq_some.mp hblank
    obtain rfl : number' = number := Int.ofNat.inj (Option.some.inj hsame)
    obtain rfl : line' = line := Option.some.inj (hline'.symm.trans hpart)
    exact hall
  · intro hblank
    exact ⟨(line, number), List.mk_mem_zipIdx_iff_le_and_getElem?_sub.mpr ⟨hnumber, hpart⟩,
      if_pos hblank⟩

theorem map_zipIdx_lines (s : Source) :
    (s.lines.zipIdx 1).map (fun l => Int.ofNat l.2) = linesFrom 1 s.lines.length := by
  have h : (s.lines.zipIdx 1).map (fun l => Int.ofNat l.2) =
      (List.range' 1 s.lines.length).map Int.ofNat := by
    rw [← List.zipIdx_map_snd 1 s.lines, List.map_map]
    rfl
  rw [h, linesFrom, List.range'_eq_map_range, List.map_map, Int.add_sub_cancel, Int.toNat_natCast]
  refine List.map_congr_left fun k _ => ?_
  simp

/-- Blank lines may be counted by number or by what they hold. -/
theorem countP_blankLines (s : Source) (q : Int → Bool) :
    (linesFrom 1 s.lines.length).countP (fun n => s.blankLines.contains n && q n) =
      (s.lines.zipIdx 1).countP fun (line, number) =>
        line.all Text.isBlankByte && q (Int.ofNat number) := by
  rw [← map_zipIdx_lines, List.countP_map]
  refine List.countP_congr fun l hl => ?_
  rw [Function.comp_apply, contains_blankLines hl]

/-! ### Where a node ends -/

theorem row_le {front : List UInt8} {b : UInt8} {offset : Nat} (h : offset ≤ front.length) :
    row ⟨front ++ [b]⟩ offset ≤ front.count lineFeed := by
  rw [row, List.take_append_of_le_length h]
  exact (List.take_sublist _ _).count_le _

theorem row_length (s : Source) : s.row s.length = s.bytes.count lineFeed := by
  rw [row, length, List.take_length]

/-- A byte of the source is on one of its lines. -/
theorem row_lt_lineCount {s : Source} {offset : Nat} (h : offset < s.length) :
    s.row offset < s.lineCount := by
  obtain ⟨bytes⟩ := s
  rcases List.eq_nil_or_concat' bytes with rfl | ⟨front, b, rfl⟩
  · exact absurd h (Nat.not_lt_zero _)
  · rw [length, List.length_append] at h
    rw [lineCount_concat]
    exact Nat.lt_succ_of_le (row_le (Nat.le_of_lt_succ h))

/-- A node that spans a byte and ends within the source ends on one of its lines. -/
theorem endLine_le_lineCount {s : Source} {l : Label} (h : l.start < l.stop)
    (hstop : l.stop ≤ s.length) : s.endLine l ≤ s.lineCount := by
  by_cases hlast : l.stop < s.length
  · have hrow := row_lt_lineCount hlast
    unfold endLine
    split <;> omega
  obtain ⟨bytes⟩ := s
  rcases List.eq_nil_or_concat' bytes with rfl | ⟨front, b, rfl⟩
  · exact absurd (Nat.lt_of_lt_of_le h hstop) (Nat.not_lt_zero _)
  have hlength : length ⟨front ++ [b]⟩ = front.length + 1 := by simp [length]
  rw [lineCount_concat]
  have hend : l.stop = length ⟨front ++ [b]⟩ := by omega
  have hrow : row ⟨front ++ [b]⟩ l.stop = front.count lineFeed + [b].count lineFeed := by
    rw [hend, row_length, List.count_append]
  -- a feed as the last byte counts for the row, but the node then stops on the line before it
  by_cases hb : b = lineFeed
  · subst hb
    rw [List.count_singleton_self] at hrow
    have hstart : row ⟨front ++ [lineFeed]⟩ l.start ≤ front.count lineFeed :=
      row_le (by omega)
    have hstarts : startsLine ⟨front ++ [lineFeed]⟩ l.stop = true := by
      rw [hend, startsLine, length, List.take_length, List.getLast?_concat]
      simp
    rw [endLine, hstarts, Bool.true_and, if_pos (by rw [decide_eq_true_iff]; omega)]
    omega
  · rw [List.count_singleton, if_neg (by simpa using hb)] at hrow
    unfold endLine
    split <;> omega

end Source

end ScopeMetrics
