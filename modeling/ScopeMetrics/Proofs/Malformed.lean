import ScopeMetrics.Proofs.FlatLines
import ScopeMetrics.Proofs.Passing

/-!
# What the parser could not read

An error gives no event and opens no frame, whatever is inside it, so it should count for nothing.
A walk passes over it; a rule that looks at children or neighbours may not.

* **`walk_past_error`**: where an error is overlooked, the tree has the frames and the spaces that
  it has without the error.
* `error_counts_as_parameter`: in a parameter list an error is not overlooked, and is counted.
-/

namespace ScopeMetrics.Reading

/-- **An error that is overlooked counts for nothing.**  For the pack of every language, every
source and every set of macros: if an error, with anything inside it, stands between two children of
a node, and no rule reads it there, then the frames are those of the tree without it, and so are the
spaces with all their metrics. -/
theorem walk_past_error (lang : Language) (source : Source) (macros : SortedSet String)
    (name : Option String) (root root' x : Node) :
    let r : Reading := { pack := lang.pack, source, macros }
    x.named = true → x.kind = "ERROR" → Inserts x (r.Overlooks x) root root' →
      (r.walk name root').draft = (r.walk name root).draft ∧
      ∃ unit, (r.walk name root).draft.spaces = .ok unit ∧
        (r.walk name root').draft.spaces = .ok unit := by
  intro r hnamed hkind h
  have hx : x.IsInert := ⟨hnamed, by rw [hkind]; exact List.mem_cons_self⟩
  have herror : x.isError = true := by
    rw [Node.isError, Label.isError, Bool.or_eq_true]
    exact .inl (beq_iff_eq.mpr hkind)
  have hsilent : ∀ above, r.IsSilent (fun _ => true) ⟨x, above⟩ := fun _ =>
    isSilent_of_isError herror
  have hdraft : (r.walk name root').draft = (r.walk name root).draft := by
    obtain ⟨hevents, hframes⟩ :=
      (alike_visit_of_inserts (rfl : r.pack = lang.pack) hx hsilent h).of_forall fun _ => rfl
    simp only [walk, unitScope, hevents, hframes, h.label]
  refine ⟨hdraft, _, r.spaces_walk name root, ?_⟩
  rw [hdraft]
  exact r.spaces_walk name root

/-- A function with two parameters and an error between its statements. -/
theorem walk_past_error_statements :
    let node (kind : String) (start stop : Nat) (field : Option String) (cs : List Node) : Node :=
      .mk ⟨kind, true, false, start, stop, field⟩ cs
    let token (kind : String) (start stop : Nat) : Node :=
      .mk ⟨kind, false, false, start, stop, none⟩ []
    let parameters := node "parameters" 1 6 (some "parameters")
      [token "(" 1 2, node "identifier" 2 3 none [], token "," 3 4, node "identifier" 4 5 none [],
        token ")" 5 6]
    let body : Label := ⟨"block", true, false, 6, 20, some "body"⟩
    let loop := node "while_statement" 7 10 none [node "identifier" 8 9 none []]
    let exit := node "return_statement" 14 20 none []
    let error := node "ERROR" 11 13 none [node "if_statement" 11 13 none []]
    let unit (statements : List Node) := node "module" 0 20 none
      [node "function_definition" 0 20 none
        [node "identifier" 0 1 (some "name") [], parameters, .mk body statements]]
    let r : Reading := { pack := Language.python.pack, source := ⟨List.replicate 20 120⟩ }
    error.named = true ∧ error.kind = "ERROR" ∧
      Inserts error (r.Overlooks error) (unit [loop, exit]) (unit [loop, error, exit]) ∧
      (r.walk none (unit [loop, error, exit])).draft = (r.walk none (unit [loop, exit])).draft := by
  intro node token parameters body loop exit error unit r
  have hspot : r.Overlooks error body [loop] [exit] :=
    ⟨by decide +kernel, by decide +kernel, by decide +kernel, by decide +kernel, by decide +kernel,
      by decide +kernel, by decide +kernel, by decide +kernel, by decide +kernel⟩
  have hbody : Inserts error (r.Overlooks error) (.mk body [loop, exit])
      (.mk body [loop, error, exit]) :=
    @Inserts.here error (r.Overlooks error) body [loop] [exit] (by simp) (by simp) hspot
  have hfunction := @Inserts.within error (r.Overlooks error)
    ⟨"function_definition", true, false, 0, 20, none⟩
    [node "identifier" 0 1 (some "name") [], parameters] [] _ _ hbody
  have h : Inserts error (r.Overlooks error) (unit [loop, exit]) (unit [loop, error, exit]) :=
    @Inserts.within error (r.Overlooks error) ⟨"module", true, false, 0, 20, none⟩ [] [] _ _
      hfunction
  exact ⟨rfl, rfl, h, (walk_past_error .python _ ∅ none _ _ error rfl rfl h).1⟩

/-- An error in a parameter list is counted as a parameter. -/
theorem error_counts_as_parameter :
    let node (kind : String) (start stop : Nat) (field : Option String) (cs : List Node) : Node :=
      .mk ⟨kind, true, false, start, stop, field⟩ cs
    let token (kind : String) (start stop : Nat) : Node :=
      .mk ⟨kind, false, false, start, stop, none⟩ []
    let list : Label := ⟨"parameters", true, false, 5, 9, some "parameters"⟩
    let unit (parameters : Node) := node "module" 0 13 none
      [node "function_definition" 0 13 none
        [node "identifier" 4 5 (some "name") [], parameters, node "block" 11 13 (some "body") []]]
    let error := node "ERROR" 7 8 none []
    let front := [token "(" 5 6, node "identifier" 6 7 none []]
    let back := [token ")" 8 9]
    let r : Reading := { pack := Language.python.pack, source := ⟨List.replicate 13 120⟩ }
    let arguments (root : Node) : Option Int :=
      (r.walk none root).draft.spaces.toOption.map (·.metrics.arguments.functionArgs)
    Inserts error (fun _ _ _ => True) (unit (.mk list (front ++ back)))
        (unit (.mk list (front ++ error :: back))) ∧
      arguments (unit (.mk list (front ++ back))) = some 1 ∧
      arguments (unit (.mk list (front ++ error :: back))) = some 2 := by
  intro node token list unit error front back r arguments
  have hlist : Inserts error (fun _ _ _ => True) (.mk list (front ++ back))
      (.mk list (front ++ error :: back)) := .here (by simp [front]) (by simp [back]) trivial
  have hfunction := @Inserts.within error (fun _ _ _ => True)
    ⟨"function_definition", true, false, 0, 13, none⟩
    [node "identifier" 4 5 (some "name") []] [node "block" 11 13 (some "body") []] _ _ hlist
  exact ⟨@Inserts.within error (fun _ _ _ => True) ⟨"module", true, false, 0, 13, none⟩ [] [] _ _
    hfunction, by decide +kernel, by decide +kernel⟩

end ScopeMetrics.Reading
