import ScopeMetrics.Proofs.Insertion

/-!
# Along the declarators of a function

A function that is declared as in C has its name at the end of a chain of declarators, and its
parameter list in one of them.  Two walks go along that chain.  The one that looks for the name
(`declaredName`) goes on from a reference, which holds the next declarator without a field; the one
that looks for the parameters (`declaredParameters?`) follows fields alone.

* `getLast?_declarators`: `declarators` is the chain that the name is looked for along.
* `declaredParameters?_of_declarators`: the parameters are found exactly if every declarator before
  the one that has them holds the next under a field.
* **`arity_along_declarators`**: then the arity is the number of parameters in that list, and
  otherwise it is zero.
* `reference_hides_parameters`: so a function that returns a reference loses its parameters.
-/

namespace ScopeMetrics.Reading

/-! ### The chain -/

/-- The declarators from one to the declared name, the outermost first. -/
def declarators (n : Node) : List Node :=
  n :: match _h : innerDeclarator? n with
    | none => []
    | some d => declarators d
termination_by n.size
decreasing_by exact Node.size_lt_of_mem (mem_of_innerDeclarator? _h)

/-- The declarators along which the name of a scope opener is looked for; none if the name stands
under a field of the opener itself. -/
def nameDeclarators (r : Reading) (n : Node) (c : Category) : List Node :=
  if c.has .closure || (n.field? ((r.pack.nameFields.lookup n.kind).getD "name")).isSome then []
  else ((n.field? "declarator").map declarators).getD []

/-- Whether a declarator has a parameter list. -/
def hasParameters (d : Node) : Bool := (d.field? "parameters").isSome

/-- Whether a declarator holds the next one under the field for it. -/
def holdsByField (d : Node) : Bool := (d.field? "declarator").isSome

/-- The number of parameters in a list of C: the named children that are no comment and no bare
`void`. -/
def parametersIn (r : Reading) (list : Node) : Nat :=
  list.namedChildren.countP fun p => p.kind != "comment" && Text.strip (r.text p) != "void"

variable {r : Reading} {n d ps : Node} {c : Category}

theorem declarators_of_none (h : innerDeclarator? n = none) : declarators n = [n] := by
  rw [declarators]
  split <;> simp_all

theorem declarators_of_some (h : innerDeclarator? n = some d) :
    declarators n = n :: declarators d := by
  rw [declarators]
  split <;> simp_all

/-- The declared name is where the chain ends. -/
theorem getLast?_declarators (n : Node) : (declarators n).getLast? = some (declaredName n) := by
  induction n using declaredName.induct with
  | case1 n h => rw [declarators_of_none h, declaredName_of_none h, List.getLast?_singleton]
  | case2 n d h ih =>
      rw [declarators_of_some h, declaredName_of_some h, List.getLast?_cons, ih, Option.getD_some]

/-- A name that is looked for along declarators is looked for along the chain under the field. -/
theorem exists_declarators (h : r.nameDeclarators n c ≠ []) :
    ∃ d, n.field? "declarator" = some d ∧ r.nameDeclarators n c = declarators d ∧
      r.nameNode? n c = some (declaredName d) := by
  rw [nameDeclarators] at h ⊢
  split at h
  · exact absurd rfl h
  · rename_i hfield
    rw [if_neg hfield]
    rw [Bool.or_eq_true, not_or, Bool.not_eq_true, Bool.not_eq_true, Option.isSome_eq_false_iff,
      Option.isNone_iff_eq_none] at hfield
    rw [nameNode?, hfield.1, hfield.2, if_neg Bool.false_ne_true, Option.orElse_none]
    cases hd : n.field? "declarator" with
    | none =>
        rw [hd] at h
        exact absurd rfl h
    | some d => exact ⟨d, rfl, rfl, rfl⟩

/-- Then the name is where the chain ends. -/
theorem nameNode?_eq_getLast? (h : r.nameDeclarators n c ≠ []) :
    r.nameNode? n c = (r.nameDeclarators n c).getLast? := by
  obtain ⟨d, -, hchain, hname⟩ := exists_declarators h
  rw [hchain, hname, getLast?_declarators]

/-! ### The parameters -/

/-- A declarator under the field is the next one of the chain. -/
theorem innerDeclarator?_of_field (h : n.field? "declarator" = some d) :
    innerDeclarator? n = some d := by
  rw [innerDeclarator?, h, Option.orElse_some]

/-- Parameters at the start of a chain are found there. -/
theorem declaredParameters?_of_first {rest : List Node} (hn : hasParameters n = true)
    (h : (n :: rest).filter hasParameters = [d]) :
    declaredParameters? n =
      if ((n :: rest).takeWhile fun e => !hasParameters e).all holdsByField then
        d.field? "parameters"
      else none := by
  rw [List.filter_cons_of_pos hn] at h
  obtain rfl : n = d := (List.cons.inj h).1
  obtain ⟨ps, hps⟩ := Option.isSome_iff_exists.mp hn
  rw [List.takeWhile_cons_of_neg (by simp [hn]), List.all_nil, if_pos rfl, declaredParameters?_eq,
    hps, Option.orElse_some]

/-- If one declarator of a chain has parameters, they are found from the start of the chain exactly
if every declarator before that one holds the next under the field. -/
theorem declaredParameters?_of_declarators (n : Node)
    (h : (declarators n).filter hasParameters = [d]) :
    declaredParameters? n =
      if ((declarators n).takeWhile fun e => !hasParameters e).all holdsByField then
        d.field? "parameters"
      else none := by
  -- the walk for the parameters stops at the first declarator that has them, or without a field
  induction n using declaredName.induct with
  | case1 n hinner =>
      rw [declarators_of_none hinner] at h ⊢
      have hn : hasParameters n = true := by
        by_contra hn
        rw [List.filter_cons_of_neg hn] at h
        cases h
      exact declaredParameters?_of_first hn h
  | case2 n e hinner ih =>
      rw [declarators_of_some hinner] at h ⊢
      by_cases hn : hasParameters n = true
      · exact declaredParameters?_of_first hn h
      · rw [List.filter_cons_of_neg hn] at h
        have hnone : n.field? "parameters" = none := by
          rwa [hasParameters, Bool.not_eq_true, Option.isSome_eq_false_iff,
            Option.isNone_iff_eq_none] at hn
        rw [List.takeWhile_cons_of_pos (by simp [hn]), List.all_cons, declaredParameters?_eq, hnone,
          Option.orElse_none]
        cases hfield : n.field? "declarator" with
        | none =>
            have hby : holdsByField n = false := by rw [holdsByField, hfield]; rfl
            rw [hby, Bool.false_and, if_neg Bool.false_ne_true, Option.bind_none]
        | some f =>
            have hby : holdsByField n = true := by rw [holdsByField, hfield]; rfl
            have hnext := (innerDeclarator?_of_field hfield).symm.trans hinner
            obtain rfl : f = e := Option.some.inj hnext
            rw [hby, Bool.true_and, Option.bind_some, ih h]

/-! ### The arity -/

/-- In C a child of a parameter list declares one parameter or none. -/
theorem sum_parametersOf_cpp (hr : r.pack = Language.cpp.pack) (list : Node) :
    (list.namedChildren.map r.parametersOf).foldr (· + ·) 0 = r.parametersIn list := by
  have hone : ∀ p, r.parametersOf p =
      if p.kind != "comment" && Text.strip (r.text p) != "void" then 1 else 0 := by
    intro p
    have hnon : r.pack.nonParameters = ["comment"] := hr ▸ rfl
    have hmulti : r.pack.multiNameParameters = [] := hr ▸ rfl
    rw [parametersOf, hnon, hmulti]
    by_cases hk : p.kind = "comment" <;> simp [hk]
  rw [parametersIn]
  induction list.namedChildren with
  | nil => rfl
  | cons p ps ih =>
      rw [List.map_cons, List.foldr_cons, ih, hone, List.countP_cons, Nat.add_comm]

/-- A parameter list of C has the flag of one. -/
theorem flags_parameterList (hr : r.pack = Language.cpp.pack) (hnamed : ps.named = true)
    (hkind : ps.kind = "parameter_list") : (r.flags ps).has .parameter = true := by
  rw [Node.named] at hnamed
  rw [Node.kind] at hkind
  rw [Reading.flags, hr, Pack.flags, hnamed, hkind]
  decide +kernel

/-- **Name and arity along the declarators.**  Let a node of C or C++ without parameters of its own
have its name at the end of a chain of declarators, one of which has a parameter list.  If every
declarator before that one holds the next under the field for it, the arity is the number of
parameters in the list.  Otherwise there is a reference before it, behind which the list is not
looked for, and the arity is zero. -/
theorem arity_along_declarators (source : Source) (macros : SortedSet String) (n d ps : Node)
    (c : Category) :
    let r : Reading := { pack := Language.cpp.pack, source, macros }
    n.field? "parameters" = none → n.field? "parameter" = none →
    (r.nameDeclarators n c).filter hasParameters = [d] → d.field? "parameters" = some ps →
    ps.named = true → ps.kind = "parameter_list" →
      r.nameNode? n c = (r.nameDeclarators n c).getLast? ∧
      r.arity n =
        if ((r.nameDeclarators n c).takeWhile fun e => !hasParameters e).all holdsByField then
          r.parametersIn ps
        else 0 := by
  intro r hparameters hparameter hone hps hnamed hkind
  have hne : r.nameDeclarators n c ≠ [] := fun h => by
    rw [h] at hone
    cases hone
  refine ⟨nameNode?_eq_getLast? hne, ?_⟩
  obtain ⟨e, hfield, hchain, -⟩ := exists_declarators hne
  rw [hchain] at hone ⊢
  have hfound : parameters? n = declaredParameters? e := by
    rw [parameters?, hparameters, hparameter, hfield]
    rfl
  rw [arity, hfound, declaredParameters?_of_declarators e hone, hps]
  by_cases hby : ((declarators e).takeWhile fun e => !hasParameters e).all holdsByField = true
  · have hflag := flags_parameterList (r := r) rfl hnamed hkind
    rw [if_pos hby, if_pos hby]
    simp only [hflag, if_true]
    exact sum_parametersOf_cpp rfl ps
  · rw [if_neg hby, if_neg hby]

/-- A function that returns a pointer, `int *f(int a, /*c*/ int b) {}`. -/
theorem arity_along_declarators_pointer :
    let node (kind : String) (start stop : Nat) (field : Option String) (cs : List Node) : Node :=
      .mk ⟨kind, true, false, start, stop, field⟩ cs
    let token (kind : String) (start stop : Nat) : Node :=
      .mk ⟨kind, false, false, start, stop, none⟩ []
    let list := node "parameter_list" 6 26 (some "parameters")
      [token "(" 6 7, node "parameter_declaration" 7 12 none [], token "," 12 13,
        node "comment" 14 19 none [], node "parameter_declaration" 20 25 none [], token ")" 25 26]
    let name := node "identifier" 5 6 (some "declarator") []
    let function := node "function_declarator" 5 26 (some "declarator") [name, list]
    let pointer := node "pointer_declarator" 4 26 (some "declarator") [token "*" 4 5, function]
    let n := node "function_definition" 0 29 none
      [node "primitive_type" 0 3 (some "type") [], pointer,
        node "compound_statement" 27 29 (some "body") []]
    let r : Reading :=
      { pack := Language.cpp.pack, source := .ofText "int *f(int a, /*c*/ int b) {}" }
    n.field? "parameters" = none ∧ n.field? "parameter" = none ∧
      r.nameDeclarators n {.function} = [pointer, function, name] ∧
      r.nameNode? n {.function} = some name ∧ r.arity n = 2 := by
  intro node token list name function pointer n r
  have hchain : r.nameDeclarators n {.function} = [pointer, function, name] := by
    show declarators pointer = _
    rw [declarators_of_some (d := function) rfl, declarators_of_some (d := name) rfl,
      declarators_of_none rfl]
  have h := arity_along_declarators r.source ∅ n function list {.function} rfl rfl
    (by rw [hchain]; rfl) rfl rfl rfl
  rw [hchain] at h
  exact ⟨rfl, rfl, hchain, h.1, h.2.trans (by decide +kernel)⟩

/-- A function that returns a reference, `int &f(int a) {}`: the list with its parameter is in the
one declarator that the name is looked for along, but the arity is zero. -/
theorem reference_hides_parameters :
    let node (kind : String) (start stop : Nat) (field : Option String) (cs : List Node) : Node :=
      .mk ⟨kind, true, false, start, stop, field⟩ cs
    let token (kind : String) (start stop : Nat) : Node :=
      .mk ⟨kind, false, false, start, stop, none⟩ []
    let list := node "parameter_list" 6 13 (some "parameters")
      [token "(" 6 7, node "parameter_declaration" 7 12 none [], token ")" 12 13]
    let name := node "identifier" 5 6 (some "declarator") []
    let function := node "function_declarator" 5 13 none [name, list]
    let reference := node "reference_declarator" 4 13 (some "declarator") [token "&" 4 5, function]
    let n := node "function_definition" 0 16 none
      [node "primitive_type" 0 3 (some "type") [], reference,
        node "compound_statement" 14 16 (some "body") []]
    let r : Reading := { pack := Language.cpp.pack, source := .ofText "int &f(int a) {}" }
    n.field? "parameters" = none ∧ n.field? "parameter" = none ∧
      r.nameDeclarators n {.function} = [reference, function, name] ∧
      [reference, function, name].filter hasParameters = [function] ∧
      function.field? "parameters" = some list ∧ list.kind = "parameter_list" ∧
      r.nameNode? n {.function} = some name ∧ r.parametersIn list = 1 ∧ r.arity n = 0 := by
  intro node token list name function reference n r
  have hchain : r.nameDeclarators n {.function} = [reference, function, name] := by
    show declarators reference = _
    rw [declarators_of_some (d := function) rfl, declarators_of_some (d := name) rfl,
      declarators_of_none rfl]
  have hname := nameNode?_eq_getLast? (r := r) (n := n) (c := {.function})
    (by rw [hchain]; exact List.cons_ne_nil _ _)
  rw [hchain] at hname
  have hnone : parameters? n = none := by
    show declaredParameters? reference = none
    rw [declaredParameters?_eq]
    rfl
  have harity : r.arity n = 0 := by rw [arity, hnone]
  exact ⟨rfl, rfl, hchain, rfl, rfl, rfl, hname, by decide +kernel, harity⟩

end ScopeMetrics.Reading
