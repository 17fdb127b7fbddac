import ScopeMetrics.Reading
import ScopeMetrics.Text.Uppercase

/-!
# Declarations

What a declaration says about itself: the name of the space it opens (`spaceName`), the number of
its parameters (`arity`) and whether it is public in the class that holds it (`isPublic`).
-/

namespace ScopeMetrics.Reading

/-- The name of a space that has none. -/
def anonymous : String := "<anonymous>"

/-! ### Names -/

/-- The declarator inside a declarator.  A reference declarator holds it as its last named child,
without a field. -/
def innerDeclarator? (n : Node) : Option Node :=
  (n.field? "declarator").orElse fun _ =>
    if n.kind == "reference_declarator" then n.namedChildren.getLast? else none

theorem mem_of_innerDeclarator? {n d : Node} (h : innerDeclarator? n = some d) :
    d ∈ n.children := by
  unfold innerDeclarator? at h
  cases hf : n.field? "declarator" with
  | some e =>
      simp only [hf, Option.orElse_some, Option.some.injEq] at h
      exact h ▸ Node.mem_of_field? hf
  | none =>
      simp only [hf, Option.orElse_none] at h
      split at h
      · exact (List.mem_filter.mp (List.mem_of_getLast? h)).1
      · exact absurd h (by simp)

/-- The innermost declarator reached from one: the declared name. -/
def declaredName (n : Node) : Node :=
  match _h : innerDeclarator? n with
  | none => n
  | some d => declaredName d
termination_by n.size
decreasing_by exact Node.size_lt_of_mem (mem_of_innerDeclarator? _h)

/-- The node that holds the name of a scope opener.  A closure has a name only under that field;
any other opener may have it under a field of its own kind or at the end of its declarator. -/
def nameNode? (r : Reading) (n : Node) (c : Category) : Option Node :=
  if c.has .closure then n.field? "name"
  else
    (n.field? ((r.pack.nameFields.lookup n.kind).getD "name")).orElse fun _ =>
      (n.field? "declarator").map declaredName

/-- The name of the space that a node opens. -/
def spaceName (r : Reading) (n : Node) (c : Category) : String :=
  match r.nameNode? n c with
  | none => anonymous
  | some m =>
    let name := Text.singleSpaced (r.text m)
    if name.isEmpty then anonymous else name

/-! ### Parameters -/

/-- The parameter list nearest to a declarator, along the fields that hold declarators. -/
def declaredParameters? (n : Node) : Option Node :=
  match n.field? "parameters" with
  | some ps => some ps
  | none =>
    match _h : n.field? "declarator" with
    | none => none
    | some d => declaredParameters? d
termination_by n.size
decreasing_by exact Node.size_lt_of_field? _h

/-- The node that holds the parameters of a function or closure. -/
def parameters? (n : Node) : Option Node :=
  (n.field? "parameters").orElse fun _ => (n.field? "parameter").orElse fun _ =>
    (n.field? "declarator").bind declaredParameters?

/-- How many parameters a child of a parameter list declares.  A bare `void` declares none. -/
def parametersOf (r : Reading) (n : Node) : Nat :=
  if r.pack.nonParameters.contains n.kind then 0
  else if r.pack.multiNameParameters.contains n.kind then max 1 (n.fields "name").length
  else if Text.strip (r.text n) == "void" then 0
  else 1

/-- The number of parameters of a function or closure.  A parameter without a list around it is
one. -/
def arity (r : Reading) (n : Node) : Nat :=
  match parameters? n with
  | none => 0
  | some ps =>
    if (r.flags ps).has .parameter then
      (ps.namedChildren.map r.parametersOf).foldr (· + ·) 0
    else 1

/-! ### Visibility -/

/-- Whether members are public before any section label. -/
def defaultAccess (r : Reading) (container : Node) : Bool :=
  r.pack.visibility.defaultPublic || r.pack.visibility.publicContainers.contains container.kind

/-- The access that a section label opens; nothing for other nodes. -/
def accessChange? (r : Reading) (n : Node) : Option Bool :=
  if r.pack.visibility.style == .sections && n.kind == "access_specifier" then
    some (Text.strip (r.text n) == "public")
  else none

/-- The first child that declares a variable. -/
def variableDeclarator? (n : Node) : Option Node :=
  n.namedChildren.find? fun c => c.kind == "variable_declarator" || c.kind == "variable_declaration"

theorem mem_of_variableDeclarator? {n d : Node} (h : variableDeclarator? n = some d) :
    d ∈ n.children :=
  (List.mem_filter.mp (List.mem_of_find?_eq_some h)).1

/-- The name of a member: under one of the fields that hold names, or inside its declarator. -/
def memberName? (n : Node) : Option Node :=
  match (["name", "property", "left"].findSome? n.field?) with
  | some m => some m
  | none =>
    match _h : variableDeclarator? n with
    | none => none
    | some d => memberName? d
termination_by n.size
decreasing_by exact Node.size_lt_of_mem (mem_of_variableDeclarator? _h)

/-- The words among the modifiers of a declaration: each modifier as a whole, and its parts. -/
def modifierWords (r : Reading) (n : Node) : List String :=
  (n.children.filter fun c => r.pack.visibility.modifierKinds.contains c.kind).flatMap fun c =>
    Text.strip (r.text c) :: c.children.map fun d => Text.strip (r.text d)

/-- Whether a text starts with another. -/
def startsWith (s start : String) : Bool := start.toList.isPrefixOf s.toList

def endsWith (s stop : String) : Bool := stop.toList.isSuffixOf s.toList

/-- Whether a member is public in its container; `access` is the access of the section that holds
it, where the language has sections. -/
def isPublic (r : Reading) (n container : Node) (access : Option Bool) : Bool :=
  let rule := r.pack.visibility
  let name := memberName? n
  let nameText := (name.map r.text).getD ""
  let hidden := name.any fun m => rule.privateNameKinds.contains m.kind
  match rule.style with
  | .open_ => true
  | .sections => access.getD (r.defaultAccess container)
  | .underscore =>
    !startsWith nameText "_" || (startsWith nameText "__" && endsWith nameText "__")
  | .capitalized => nameText.toList.head?.any Text.isUppercase
  | .hash => !hidden
  | .modifiers =>
    let words := r.modifierWords n
    if hidden then false
    else if words.any fun w => rule.publicKeywords.any (startsWith w) then true
    else if words.any rule.privateKeywords.contains then false
    else r.defaultAccess container

end ScopeMetrics.Reading
