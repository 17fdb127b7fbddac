/-!
# Categories

What a syntax node means for the metrics, apart from the language it was written in.  A `Flag` is
one such meaning and a `Category` is a set of them; the collectors of the metrics only ever see
categories.

A category is stored as one bit a flag.  Everything else is said through `has`: a category is
determined by the flags it has (`Category.ext_has`), and the set operations act on each flag alone
(`has_union`, `has_diff`, `has_inter`).
-/

namespace ScopeMetrics

/-- One meaning of a node. -/
inductive Flag where
  -- scope openers
  | function | closure | class_ | module
  -- control flow: `branch` marks an if-like construct, `decision` adds to cyclomatic complexity,
  -- `nesting` scores and deepens cognitive complexity, `else_` scores it flat, `logical` marks a
  -- short-circuit operator
  | branch | loop | decision | nesting | else_ | logical | exit
  -- tokens
  | operator | operand
  -- lines and statements
  | comment | statement | terminator | delimiter
  -- declarations
  | parameter | attribute
  -- assignments, calls and conditions
  | assignment | call | condition
  deriving DecidableEq, Repr

namespace Flag

/-- Every flag, in the order in which a category lists them. -/
def all : List Flag :=
  [.function, .closure, .class_, .module, .branch, .loop, .decision, .nesting, .else_, .logical,
    .exit, .operator, .operand, .comment, .statement, .terminator, .delimiter, .parameter,
    .attribute, .assignment, .call, .condition]

/-- The place of a flag in that order. -/
def index : Flag → Fin 22
  | .function => 0 | .closure => 1 | .class_ => 2 | .module => 3 | .branch => 4 | .loop => 5
  | .decision => 6 | .nesting => 7 | .else_ => 8 | .logical => 9 | .exit => 10 | .operator => 11
  | .operand => 12 | .comment => 13 | .statement => 14 | .terminator => 15 | .delimiter => 16
  | .parameter => 17 | .attribute => 18 | .assignment => 19 | .call => 20 | .condition => 21

/-- The name of a flag. -/
def name : Flag → String
  | .function => "FUNCTION" | .closure => "CLOSURE" | .class_ => "CLASS" | .module => "MODULE"
  | .branch => "BRANCH" | .loop => "LOOP" | .decision => "DECISION" | .nesting => "NESTING"
  | .else_ => "ELSE" | .logical => "LOGICAL" | .exit => "EXIT" | .operator => "OPERATOR"
  | .operand => "OPERAND" | .comment => "COMMENT" | .statement => "STATEMENT"
  | .terminator => "TERMINATOR" | .delimiter => "DELIMITER" | .parameter => "PARAMETER"
  | .attribute => "ATTRIBUTE" | .assignment => "ASSIGNMENT" | .call => "CALL"
  | .condition => "CONDITION"

/-- The flag of a name. -/
def ofName? (s : String) : Option Flag :=
  all.find? fun f => f.name == s

theorem mem_all : ∀ f : Flag, f ∈ all := by
  intro f; cases f <;> decide

theorem index_injective : ∀ {f g : Flag}, f.index = g.index → f = g := by
  intro f g; cases f <;> cases g <;> decide

theorem exists_index_eq : ∀ i : Fin 22, ∃ f : Flag, f.index = i := by
  intro i
  have h : i ∈ all.map index := by revert i; decide
  obtain ⟨f, _, hf⟩ := List.mem_map.mp h
  exact ⟨f, hf⟩

end Flag

/-- A set of flags. -/
structure Category where
  bits : BitVec 22
  deriving DecidableEq, Repr

namespace Category

instance : EmptyCollection Category := ⟨⟨0⟩⟩
instance : Union Category := ⟨fun a b => ⟨a.bits ||| b.bits⟩⟩
instance : Inter Category := ⟨fun a b => ⟨a.bits &&& b.bits⟩⟩
instance : SDiff Category := ⟨fun a b => ⟨a.bits &&& ~~~b.bits⟩⟩

/-- The category of one flag. -/
def single (f : Flag) : Category := ⟨BitVec.twoPow 22 f.index⟩

instance : Singleton Flag Category := ⟨single⟩
instance : Insert Flag Category := ⟨fun f c => single f ∪ c⟩

/-- Whether a flag is in a category. -/
def has (c : Category) (f : Flag) : Bool := c.bits.getLsbD f.index

/-- Whether two categories share a flag. -/
def meets (c d : Category) : Bool := c ∩ d != ∅

/-- The category of the listed flags. -/
def ofFlags (fs : List Flag) : Category :=
  fs.foldl (fun c f => c ∪ single f) ∅

/-- The flags of a category, in order. -/
def flags (c : Category) : List Flag :=
  Flag.all.filter c.has

/-- The names of the flags, in order, with bars between them. -/
def text (c : Category) : String :=
  "|".intercalate (c.flags.map Flag.name)

/-! ### Flag by flag -/

@[simp] theorem has_empty (f : Flag) : (∅ : Category).has f = false := by
  simp [has, EmptyCollection.emptyCollection]

@[simp] theorem has_union (a b : Category) (f : Flag) : (a ∪ b).has f = (a.has f || b.has f) := by
  simp [has, Union.union]

@[simp] theorem has_inter (a b : Category) (f : Flag) : (a ∩ b).has f = (a.has f && b.has f) := by
  simp [has, Inter.inter]

@[simp] theorem has_diff (a b : Category) (f : Flag) : (a \ b).has f = (a.has f && !b.has f) := by
  simp [has, SDiff.sdiff]

@[simp] theorem has_single (f g : Flag) : (single g).has f = decide (g = f) := by
  cases f <;> cases g <;> decide

@[simp] theorem has_singleton (f g : Flag) : ({g} : Category).has f = decide (g = f) :=
  has_single f g

@[simp] theorem has_insert (c : Category) (f g : Flag) :
    (insert g c : Category).has f = (decide (g = f) || c.has f) := by
  simp [Insert.insert]

/-- Two categories with the same flags are the same. -/
theorem ext_has {a b : Category} (h : ∀ f, a.has f = b.has f) : a = b := by
  obtain ⟨a⟩ := a
  obtain ⟨b⟩ := b
  congr 1
  apply BitVec.eq_of_getLsbD_eq
  intro i hi
  obtain ⟨f, hf⟩ := Flag.exists_index_eq ⟨i, hi⟩
  have := h f
  simpa [has, hf] using this

/-- Two categories meet exactly when some flag is in both. -/
theorem meets_iff {a b : Category} : a.meets b = true ↔ ∃ f, a.has f = true ∧ b.has f = true := by
  constructor
  · intro h
    apply Classical.byContradiction
    intro hn
    have : a ∩ b = ∅ := by
      apply ext_has
      intro f
      rw [has_inter, has_empty]
      cases ha : a.has f <;> cases hb : b.has f <;> simp
      exact hn ⟨f, ha, hb⟩
    simp [meets, this] at h
  · rintro ⟨f, ha, hb⟩
    have : a ∩ b ≠ ∅ := by
      intro he
      have hf := has_inter a b f
      rw [he, has_empty, ha, hb] at hf
      exact absurd hf (by decide)
    simpa [meets] using this

/-! ### Groups of flags -/

/-- What opens a space of its own. -/
def scope : Category := {.function, .closure, .class_, .module}

/-- What can be called. -/
def callable : Category := {.function, .closure}

/-- What makes an anonymous token no operator. -/
def punctuation : Category := {.terminator, .delimiter, .comment}

/-- The two kinds of counted tokens. -/
def token : Category := {.operator, .operand}

/-- What puts code on a line. -/
def code : Category := {.operator, .operand, .terminator, .delimiter}

end Category

end ScopeMetrics
