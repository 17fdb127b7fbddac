import ScopeMetrics.Arithmetic
import ScopeMetrics.Lines
import ScopeMetrics.Value

/-!
# Counting metrics

The metrics that only count: assignments, calls and conditions; lines; functions and closures;
their arguments; exits; members by visibility; and methods by weight.  Each combines field by
field.
-/

namespace ScopeMetrics

open Arithmetic (Fault)

/-- Assignments, calls ("branches") and conditions. -/
structure Abc where
  assignments : Int := 0
  branches : Int := 0
  conditions : Int := 0
  deriving DecidableEq, Repr

namespace Abc

def combine (a b : Abc) : Abc :=
  ⟨a.assignments + b.assignments, a.branches + b.branches, a.conditions + b.conditions⟩

/-- The length of the vector of the three counts. -/
def magnitude (a : Abc) : Except Fault Float := do
  Arithmetic.root (← Arithmetic.ofInt
    (a.assignments * a.assignments + a.branches * a.branches + a.conditions * a.conditions))

def counts (a : Abc) : List Int := [a.assignments, a.branches, a.conditions]

def entries (a : Abc) : Except Fault Entries := do
  return [("assignments", .int a.assignments), ("branches", .int a.branches),
    ("conditions", .int a.conditions), ("magnitude", .real (← a.magnitude))]

end Abc

/-- Lines: all that are owned (`sloc`), those with code (`ploc`) and with comments (`cloc`), those
that are blank, and the number of statements (`lloc`). -/
structure Loc where
  sloc : Int := 0
  ploc : Int := 0
  lloc : Int := 0
  cloc : Int := 0
  blank : Int := 0
  deriving DecidableEq, Repr

namespace Loc

/-- How many of the lines satisfy `p`. -/
def tallyOf (owned : List Int) (p : Int → Bool) : Int := Int.ofNat (owned.countP p)

/-- The counts of the owned lines.  A blank line that carries code or a comment is not counted as
blank: it lies inside a token of several lines. -/
def ofLines (owned : List Int) (code comments : Int → Bool) (lloc : Int)
    (blank : Int → Bool) : Loc where
  sloc := Int.ofNat owned.length
  ploc := tallyOf owned code
  lloc
  cloc := tallyOf owned comments
  blank := tallyOf owned fun n => blank n && !(code n || comments n)

def combine (a b : Loc) : Loc :=
  ⟨a.sloc + b.sloc, a.ploc + b.ploc, a.lloc + b.lloc, a.cloc + b.cloc, a.blank + b.blank⟩

def counts (a : Loc) : List Int := [a.sloc, a.ploc, a.lloc, a.cloc, a.blank]

def entries (a : Loc) : Entries :=
  [("sloc", .int a.sloc), ("ploc", .int a.ploc), ("lloc", .int a.lloc), ("cloc", .int a.cloc),
    ("blank", .int a.blank)]

end Loc

/-- The number of functions and closures. -/
structure Methods where
  functions : Int := 0
  closures : Int := 0
  deriving DecidableEq, Repr

namespace Methods

def combine (a b : Methods) : Methods := ⟨a.functions + b.functions, a.closures + b.closures⟩

def counts (a : Methods) : List Int := [a.functions, a.closures]

def entries (a : Methods) : Entries :=
  [("functions", .int a.functions), ("closures", .int a.closures),
    ("total", .int (a.functions + a.closures))]

end Methods

/-- The number of arguments of functions and closures. -/
structure Arguments where
  functionArgs : Int := 0
  closureArgs : Int := 0
  functions : Int := 0
  closures : Int := 0
  max : Int := 0
  deriving DecidableEq, Repr

namespace Arguments

def combine (a b : Arguments) : Arguments where
  functionArgs := a.functionArgs + b.functionArgs
  closureArgs := a.closureArgs + b.closureArgs
  functions := a.functions + b.functions
  closures := a.closures + b.closures
  max := Max.max a.max b.max

def total (a : Arguments) : Int := a.functionArgs + a.closureArgs

def counts (a : Arguments) : List Int :=
  [a.functionArgs, a.closureArgs, a.functions, a.closures, a.max]

def entries (a : Arguments) : Except Fault Entries := do
  return [("function_args", .int a.functionArgs), ("closure_args", .int a.closureArgs),
    ("total", .int a.total), ("max", .int a.max),
    ("average_function_args", .real (← Arithmetic.share a.functionArgs a.functions)),
    ("average_closure_args", .real (← Arithmetic.share a.closureArgs a.closures))]

end Arguments

/-- The number of ways out of a space. -/
structure Exits where
  sum : Int := 0
  spaces : Int := 1
  max : Int := 0
  deriving DecidableEq, Repr

namespace Exits

/-- The value of one space. -/
def ofSpace (exits : Int) : Exits := ⟨exits, 1, exits⟩

def combine (a b : Exits) : Exits := ⟨a.sum + b.sum, a.spaces + b.spaces, Max.max a.max b.max⟩

def counts (a : Exits) : List Int := [a.sum, a.spaces, a.max]

def entries (a : Exits) : Except Fault Entries := do
  return [("sum", .int a.sum), ("average", .real (← Arithmetic.share a.sum a.spaces)),
    ("max", .int a.max)]

end Exits

/-- Members of classes by visibility. -/
structure Members where
  public_ : Int := 0
  private_ : Int := 0
  classes : Int := 0
  deriving DecidableEq, Repr

namespace Members

def combine (a b : Members) : Members :=
  ⟨a.public_ + b.public_, a.private_ + b.private_, a.classes + b.classes⟩

def total (a : Members) : Int := a.public_ + a.private_

def counts (a : Members) : List Int := [a.public_, a.private_, a.classes]

/-- The share of public members goes under the given name. -/
def entries (a : Members) (shareName : String) : Except Fault Entries := do
  return [("public", .int a.public_), ("private", .int a.private_), ("total", .int a.total),
    ("classes", .int a.classes), (shareName, .real (← Arithmetic.share a.public_ a.total))]

end Members

/-- The complexities of the methods of classes. -/
structure Weighted where
  sum : Int := 0
  classes : Int := 0
  deriving DecidableEq, Repr

namespace Weighted

/-- The value of one class, from the complexities of its methods. -/
def ofClass (complexities : List Int) : Weighted := ⟨complexities.foldr (· + ·) 0, 1⟩

def combine (a b : Weighted) : Weighted := ⟨a.sum + b.sum, a.classes + b.classes⟩

def counts (a : Weighted) : List Int := [a.sum, a.classes]

def entries (a : Weighted) : Except Fault Entries := do
  return [("sum", .int a.sum), ("classes", .int a.classes),
    ("average", .real (← Arithmetic.share a.sum a.classes))]

end Weighted

end ScopeMetrics
