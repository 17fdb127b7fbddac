import ScopeMetrics.Tally

/-!
# Frames

A frame is the draft of a space: where a scope opens and closes, the events that belong to it and
not to a scope inside, and the frames inside it in source order.  The outermost frame stands for
the whole unit.
-/

namespace ScopeMetrics

/-- The kinds of scope. -/
inductive SpaceKind where
  | unit | module | class_ | function | closure
  deriving DecidableEq, Repr

namespace SpaceKind

def all : List SpaceKind := [.unit, .module, .class_, .function, .closure]

def name : SpaceKind → String
  | .unit => "unit"
  | .module => "module"
  | .class_ => "class"
  | .function => "function"
  | .closure => "closure"

def ofName? (s : String) : Option SpaceKind := all.find? fun k => k.name == s

/-- The kind of space that a node of a category opens. -/
def ofCategory (c : Category) : SpaceKind :=
  if c.has .function then .function
  else if c.has .closure then .closure
  else if c.has .class_ then .class_
  else if c.has .module then .module
  else .unit

/-- Whether a space of this kind can be called. -/
def isCallable : SpaceKind → Bool
  | .function | .closure => true
  | _ => false

end SpaceKind

/-- A scope: its kind, its name if it has one, and where it is. -/
structure Scope where
  kind : SpaceKind
  name : Option String
  startLine : Int
  endLine : Int
  startByte : Int := 0
  endByte : Int := 0
  deriving DecidableEq

/-- What a frame holds apart from the frames inside. -/
structure Frame.Body where
  scope : Scope
  /-- The access of the last section, in a class. -/
  access : Option Bool := none
  events : List Event := []
  /-- Whether the end of the scope was reached. -/
  closed : Bool := true

/-- A draft space with the drafts inside. -/
inductive Frame where
  | mk (body : Frame.Body) (inside : List Frame)

namespace Frame

/-- What holds of a frame when it holds of the frames inside holds of every frame. -/
@[elab_as_elim, induction_eliminator]
theorem inductInside {motive : Frame → Prop}
    (mk : ∀ body inside, (∀ f ∈ inside, motive f) → motive (.mk body inside)) : ∀ f, motive f
  | .mk body inside => mk body inside fun f _ => inductInside mk f

def body : Frame → Body
  | .mk b _ => b

def inside : Frame → List Frame
  | .mk _ fs => fs

def scope (f : Frame) : Scope := f.body.scope

/-- What the events of a frame add up to. -/
def Body.tally (b : Body) : Tally := .ofEvents b.events

mutual

/-- The bodies of a frame and of all frames inside it, in preorder. -/
def bodies : Frame → List Body
  | .mk b fs => b :: bodiesAll fs

def bodiesAll : List Frame → List Body
  | [] => []
  | f :: fs => f.bodies ++ bodiesAll fs

end

theorem bodiesAll_eq (fs : List Frame) : bodiesAll fs = fs.flatMap bodies := by
  induction fs with
  | nil => rfl
  | cons f fs ih => rw [bodiesAll, ih, List.flatMap_cons]

/-- The first frame in preorder that was never closed. -/
def open? (f : Frame) : Option Body := f.bodies.find? fun b => !b.closed

/-- The lines that carry code, in the frame or in one inside. -/
def codeLines (f : Frame) : LineSet :=
  f.bodies.foldl (fun s b => s.union b.tally.codeLines) ∅

/-- The lines that carry a comment, in the frame or in one inside. -/
def commentLines (f : Frame) : LineSet :=
  f.bodies.foldl (fun s b => s.union b.tally.commentLines) ∅

end Frame

/-- The frames of a unit, and the lines of the unit that hold nothing but blanks. -/
structure Draft where
  unit : Frame
  blankLines : List Int := []

end ScopeMetrics
