import Mathlib.Data.List.Basic
import Mathlib.Tactic.SplitIfs
import ScopeMetrics.Proofs.Routing

/-!
# Building frames with a stack

The walk as a machine: a stack of tasks, and a store of frames that are still being filled.  A
task visits a place on behalf of a frame or closes a frame.  Visiting a scope opener puts a new
frame into the store and, on the stack, its closing below the visits of the opener's children;
no step looks further than one node.

`Frame.cells` is the store that holds a finished tree of frames: the frames in preorder, each with
the numbers of those right inside it and with what its events add up to.

**The stack builds the walk** (`cells_build`).  Running the machine until nothing is left to do
stores the frames of the walk.  The invariant is one equation for each task (`run_visit`): a visit
that is on top of the stack, whatever is below it, ends as the store with the visit's yield
absorbed into the frame that it names.

**Building routes** (`build_routes`).  So the stored frames are those of the `routing`, in which a
reached node that opens no scope tells the frame of its owner of one event.
-/

namespace ScopeMetrics

/-- A frame in the store: what it holds, and the numbers of the frames right inside it. -/
structure Cell where
  body : Frame.Body
  inside : List Nat := []
  /-- What the events had added up to when the frame was closed. -/
  tally : Option Tally := none

namespace Cell

/-- The cell with its frame closed: the events heard up to now are added up, and later ones would
not be. -/
def close (c : Cell) : Cell :=
  { c with body := { c.body with closed := true }, tally := some c.body.tally }

/-- The cell with the access that a node leaves. -/
def changeAccess (r : Reading) (s : Surroundings) (n : Node) (c : Cell) : Cell :=
  { c with body := { c.body with access := r.accessAfter s c.body.access n } }

/-- The cell after it has heard of events, which may depend on its access. -/
def hear (events : Option Bool → List Event) (c : Cell) : Cell :=
  { c with body := { c.body with events := c.body.events ++ events c.body.access } }

/-- The cell with one more frame inside. -/
def hold (i : Nat) (c : Cell) : Cell := { c with inside := c.inside ++ [i] }

end Cell

/-- Something left to do: a visit of a place on behalf of a frame, or the end of a frame. -/
inductive Task where
  | visit (place : Place) (frame : Nat) (surroundings : Surroundings)
  | close (frame : Nat)

/-- The store of frames, and what is left to do, the next task first. -/
structure Machine where
  cells : List Cell
  tasks : List Task := []
  visited : Nat := 0
  skipped : Nat := 0

namespace Machine

/-- Changes the frame of a number. -/
def update (m : Machine) (i : Nat) (f : Cell → Cell) : Machine :=
  { m with cells := m.cells.modify i f }

/-- Puts visits of places on top of the stack, the first one topmost. -/
def push (m : Machine) (ps : List Place) (i : Nat) (s : Surroundings) : Machine :=
  { m with tasks := ps.map (.visit · i s) ++ m.tasks }

end Machine

namespace Reading

/-- The new frame of a scope opener. -/
def newCell (r : Reading) (n : Node) (c : Category) : Cell where
  body :=
    { scope := r.scopeOf n c
      access := r.startAccess n (.ofCategory c)
      events := [r.openingEvent n c]
      closed := false }

/-- Opens a frame inside the frame `i`, and goes on with the children on its behalf. -/
def openFrame (r : Reading) (p : Place) (i : Nat) (s : Surroundings) (c : Category)
    (m : Machine) : Machine :=
  let m := (m.update i fun cell => cell.hold m.cells.length).update i
    (.hear fun access => r.methodEvent s access p.node c)
  { m with
    cells := m.cells ++ [r.newCell p.node c]
    tasks := .close m.cells.length :: m.tasks }.push p.children m.cells.length (opened s p.node c)

/-- Visits a place on behalf of the frame `i`. -/
def visitStep (r : Reading) (p : Place) (i : Nat) (s : Surroundings) (m : Machine) : Machine :=
  let m := { m with visited := m.visited + 1 }
  if p.node.isError then { m with skipped := m.skipped + 1 }
  else
    let c := r.categoryIn s p
    let m := m.update i (.changeAccess r s p.node)
    if c.meets .scope then r.openFrame p i s c m
    else
      let m := m.update i (.hear fun access => r.nodeEvent s access p c)
      if c.has .comment then m else m.push p.children i (r.entered s p.node c)

/-- Does a task that was taken from the stack. -/
def perform (r : Reading) (m : Machine) : Task → Machine
  | .close i => m.update i Cell.close
  | .visit p i s => r.visitStep p i s m

/-! ### One visit -/

section

variable {r : Reading} {p : Place} {i : Nat} {s : Surroundings} {m : Machine}

theorem visitStep_error (he : p.node.isError = true) :
    r.visitStep p i s m = { m with visited := m.visited + 1, skipped := m.skipped + 1 } := by
  rw [visitStep, if_pos he]

theorem visitStep_opener (ho : r.opensScope p = true) :
    r.visitStep p i s m = r.openFrame p i s (r.categoryIn s p)
      ({ m with visited := m.visited + 1 }.update i (.changeAccess r s p.node)) := by
  have ho' : (r.categoryIn s p).meets .scope = true := by rwa [meets_scope_categoryIn]
  simp only [visitStep, isError_of_opensScope ho, Bool.false_eq_true, if_false, ho', if_true]

theorem visitStep_comment (hc : (r.classify p).has .comment = true) :
    r.visitStep p i s m =
      ({ m with visited := m.visited + 1 }.update i (.changeAccess r s p.node)).update i
        (.hear fun access => r.nodeEvent s access p (r.categoryIn s p)) := by
  have ho' : (r.categoryIn s p).meets .scope = false := by
    rw [meets_scope_categoryIn]
    exact opensScope_of_comment hc
  have hc' : (r.categoryIn s p).has .comment = true := by rwa [has_categoryIn (by decide)]
  simp only [visitStep, isError_of_comment hc, Bool.false_eq_true, if_false, ho', hc', if_true]

theorem visitStep_plain (hi : r.isEntered p = true) (ho : r.opensScope p = false) :
    r.visitStep p i s m =
      (({ m with visited := m.visited + 1 }.update i (.changeAccess r s p.node)).update i
        (.hear fun access => r.nodeEvent s access p (r.categoryIn s p))).push p.children i
          (r.entered s p.node (r.categoryIn s p)) := by
  have ho' : (r.categoryIn s p).meets .scope = false := by rwa [meets_scope_categoryIn]
  have hc' : (r.categoryIn s p).has .comment = false := by
    rw [has_categoryIn (by decide)]
    exact not_comment_of_isEntered hi
  simp only [visitStep, isError_of_isEntered hi, Bool.false_eq_true, if_false, ho', hc']

end

end Reading

/-! ### Running -/

/-- What a task costs at most: two for every node below a visit, one for an end. -/
def Task.cost : Task → Nat
  | .visit p _ _ => 2 * p.node.size
  | .close _ => 1

/-- What a stack of tasks costs at most. -/
def Task.costs : List Task → Nat
  | [] => 0
  | t :: ts => t.cost + costs ts

theorem Task.costs_append : ∀ ts us : List Task, costs (ts ++ us) = costs ts + costs us
  | [], us => (Nat.zero_add _).symm
  | t :: ts, us => by
      rw [List.cons_append, costs, costs, costs_append ts us, Nat.add_assoc]

theorem Task.costs_childrenFrom (l : Label) (above : List Crumb) (i : Nat) (s : Surroundings) :
    ∀ cs before : List Node,
      costs ((Place.childrenFrom l above before cs).map (.visit · i s)) = 2 * Node.sizeAll cs
  | [], _ => rfl
  | c :: cs, before => by
      rw [Place.childrenFrom, List.map_cons, costs, costs_childrenFrom l above i s cs, cost,
        Node.sizeAll, Nat.mul_add]

/-- Visiting the children costs two less than visiting the node. -/
theorem Task.costs_children (p : Place) (i : Nat) (s : Surroundings) :
    costs (p.children.map (.visit · i s)) + 2 = 2 * p.node.size := by
  obtain ⟨⟨l, cs⟩, above⟩ := p
  rw [Place.children, costs_childrenFrom, Node.size]
  simp only [Node.children]
  omega

namespace Reading

/-- A task leaves less to do than itself. -/
theorem costs_perform (r : Reading) (m : Machine) (t : Task) :
    Task.costs (r.perform m t).tasks < t.cost + Task.costs m.tasks := by
  cases t with
  | close i =>
      rw [Task.cost]
      exact Nat.lt_add_of_pos_left Nat.one_pos
  | visit p i s =>
      have hall := Task.costs_children p
      have hcost := hall i s
      rw [perform, Task.cost]
      rcases r.place_cases p with he | hc | ho | ⟨hi, ho⟩
      · rw [visitStep_error he]
        show Task.costs m.tasks < _
        omega
      · rw [visitStep_comment hc]
        show Task.costs m.tasks < _
        omega
      · have hcost' := hall m.cells.length (opened s p.node (r.categoryIn s p))
        rw [visitStep_opener ho]
        simp only [openFrame, Machine.push, Machine.update, List.length_modify,
          Task.costs_append, Task.costs, Task.cost]
        omega
      · have hcost' := hall i (r.entered s p.node (r.categoryIn s p))
        rw [visitStep_plain hi ho]
        simp only [Machine.push, Machine.update, Task.costs_append]
        omega

/-- Does what is left to do, the topmost task first, until nothing is left. -/
def run (r : Reading) (m : Machine) : Machine :=
  match _h : m.tasks with
  | [] => m
  | t :: ts => r.run (r.perform { m with tasks := ts } t)
termination_by Task.costs m.tasks
decreasing_by rw [_h]; exact r.costs_perform _ t

theorem run_nil {r : Reading} {m : Machine} (h : m.tasks = []) : r.run m = m := by
  rw [run]
  split
  · rfl
  · rename_i h'
    rw [h] at h'
    cases h'

theorem run_cons {r : Reading} {m : Machine} {t : Task} {ts : List Task} (h : m.tasks = t :: ts) :
    r.run m = r.run (r.perform { m with tasks := ts } t) := by
  rw [run]
  split
  · rename_i h'
    rw [h] at h'
    cases h'
  · rename_i h'
    rw [h] at h'
    cases h'
    rfl

/-- A run ends when nothing is left to do. -/
theorem tasks_run (r : Reading) (m : Machine) : (r.run m).tasks = [] := by
  fun_induction run r m with
  | case1 m h => exact h
  | case2 m t ts h ih => exact ih

/-- Builds the frames of a tree: the store begins with the unit alone, which is closed last. -/
def build (r : Reading) (name : Option String) (root : Node) : Machine :=
  (r.run
    { cells := [{ body := { scope := r.unitScope name root, closed := false } }]
      tasks := [.visit (.root root) 0 { kind := .unit, opener := root }] }).update 0 Cell.close

end Reading

/-! ### Stored frames -/

namespace Frame

/-- The numbers of frames next to each other, when the first one has the number `i`. -/
def numbers (i : Nat) : List Frame → List Nat
  | [] => []
  | f :: fs => i :: numbers (i + f.bodies.length) fs

mutual

/-- The store that holds a frame and the frames inside it in preorder, from the number `i` on; a
closed frame is stored with what all its events add up to. -/
def cells (i : Nat) : Frame → List Cell
  | .mk b fs =>
    ⟨b, numbers (i + 1) fs, if b.closed then some b.tally else none⟩ :: cellsAll (i + 1) fs

def cellsAll (i : Nat) : List Frame → List Cell
  | [] => []
  | f :: fs => f.cells i ++ cellsAll (i + f.bodies.length) fs

end

mutual

theorem length_cells (i : Nat) : ∀ f : Frame, (f.cells i).length = f.bodies.length
  | .mk b fs => by
      rw [cells, bodies, List.length_cons, List.length_cons, length_cellsAll (i + 1) fs]

theorem length_cellsAll (i : Nat) : ∀ fs : List Frame,
    (cellsAll i fs).length = (bodiesAll fs).length
  | [] => by rw [cellsAll, bodiesAll]; rfl
  | f :: fs => by
      rw [cellsAll, bodiesAll, List.length_append, List.length_append, length_cells i f,
        length_cellsAll _ fs]

end

theorem cellsAll_append : ∀ (fs gs : List Frame) (i : Nat),
    cellsAll i (fs ++ gs) = cellsAll i fs ++ cellsAll (i + (bodiesAll fs).length) gs
  | [], gs, i => by rw [cellsAll, bodiesAll]; rfl
  | f :: fs, gs, i => by
      rw [List.cons_append, cellsAll, cellsAll, bodiesAll, cellsAll_append fs gs,
        List.length_append, Nat.add_assoc, List.append_assoc]

theorem numbers_append : ∀ (fs gs : List Frame) (i : Nat),
    numbers i (fs ++ gs) = numbers i fs ++ numbers (i + (bodiesAll fs).length) gs
  | [], gs, i => by rw [bodiesAll]; rfl
  | f :: fs, gs, i => by
      rw [List.cons_append, numbers, numbers, bodiesAll, numbers_append fs gs,
        List.length_append, Nat.add_assoc, List.cons_append]

end Frame

/-- The cell of a frame that visits have added to; the frames that they opened have the numbers
from `next` on. -/
def Cell.add (next : Nat) (y : Yield) (c : Cell) : Cell :=
  { c with
    body := { c.body with access := y.access, events := c.body.events ++ y.events }
    inside := c.inside ++ Frame.numbers next y.frames }

/-- The machine after visits on behalf of the frame `i` are done. -/
def Machine.absorb (m : Machine) (i : Nat) (y : Yield) : Machine where
  cells := m.cells.modify i (.add m.cells.length y) ++ Frame.cellsAll m.cells.length y.frames
  tasks := m.tasks
  visited := m.visited + y.visited
  skipped := m.skipped + y.skipped

theorem Cell.add_andThen (next : Nat) (y z : Yield) (c : Cell) :
    c.add next (y.andThen z) =
      (c.add next y).add (next + (Frame.bodiesAll y.frames).length) z := by
  simp only [add, Yield.andThen, Frame.numbers_append, List.append_assoc]

/-- A cell in the middle of the store is changed where it is. -/
theorem modify_middle (c : Cell) (back : List Cell) (f : Cell → Cell) : ∀ front : List Cell,
    (front ++ c :: back).modify front.length f = front ++ f c :: back
  | [] => List.modify_zero_cons f c back
  | d :: front => by
      rw [List.cons_append, List.length_cons, List.modify_succ_cons, modify_middle c back f front]
      rfl

theorem exists_middle {cells : List Cell} {i : Nat} {c : Cell} (h : cells[i]? = some c) :
    ∃ front back, cells = front ++ c :: back ∧ front.length = i := by
  obtain ⟨hi, rfl⟩ := List.getElem?_eq_some_iff.mp h
  refine ⟨cells.take i, cells.drop (i + 1), ?_, by simp [Nat.le_of_lt hi]⟩
  rw [← List.drop_eq_getElem_cons hi, List.take_append_drop]

namespace Machine

theorem cells_absorb {m : Machine} {front back : List Cell} {c : Cell}
    (h : m.cells = front ++ c :: back) (y : Yield) :
    (m.absorb front.length y).cells =
      front ++ c.add m.cells.length y :: (back ++ Frame.cellsAll m.cells.length y.frames) := by
  rw [absorb, h, modify_middle, List.append_assoc, List.cons_append]

theorem absorb_andThen {m : Machine} {i : Nat} {c : Cell} (hc : m.cells[i]? = some c)
    (y z : Yield) : (m.absorb i y).absorb i z = m.absorb i (y.andThen z) := by
  obtain ⟨front, back, hm, rfl⟩ := exists_middle hc
  have hlen : (m.absorb front.length y).cells.length =
      m.cells.length + (Frame.bodiesAll y.frames).length := by
    simp [absorb, Frame.length_cellsAll]
  have hcells : ((m.absorb front.length y).absorb front.length z).cells =
      (m.absorb front.length (y.andThen z)).cells := by
    rw [cells_absorb (cells_absorb hm y), hlen, cells_absorb hm, Cell.add_andThen]
    simp only [Yield.andThen, Frame.cellsAll_append, List.append_assoc]
  rw [Machine.mk.injEq]
  exact ⟨hcells, rfl, Nat.add_assoc _ _ _, Nat.add_assoc _ _ _⟩

theorem getElem?_absorb {m : Machine} {i : Nat} {c : Cell} (hc : m.cells[i]? = some c)
    (y : Yield) : (m.absorb i y).cells[i]? = some (c.add m.cells.length y) := by
  obtain ⟨front, back, hm, rfl⟩ := exists_middle hc
  rw [cells_absorb hm, List.getElem?_append_right (Nat.le_refl _), Nat.sub_self]
  rfl

/-- Visits that tell a frame nothing change no cell. -/
theorem absorb_silent {m : Machine} {i : Nat} {c : Cell} (hc : m.cells[i]? = some c)
    (visited skipped : Nat) :
    m.absorb i { access := c.body.access, visited, skipped } =
      { m with visited := m.visited + visited, skipped := m.skipped + skipped } := by
  obtain ⟨front, back, hm, rfl⟩ := exists_middle hc
  have hcells : (m.absorb front.length
      { access := c.body.access, visited, skipped }).cells = m.cells := by
    rw [cells_absorb hm, Cell.add, Frame.cellsAll, Frame.numbers, List.append_nil, List.append_nil,
      List.append_nil, hm]
  rw [Machine.mk.injEq]
  exact ⟨hcells, rfl, rfl, rfl⟩

/-- Changing the access of a frame and telling it of events is a visit without frames. -/
theorem absorb_tell {m : Machine} {i : Nat} {c : Cell} (hc : m.cells[i]? = some c) (r : Reading)
    (s : Surroundings) (n : Node) (events : Option Bool → List Event) :
    ({ m with visited := m.visited + 1 }.update i (.changeAccess r s n)).update i (.hear events) =
      m.absorb i
        { access := r.accessAfter s c.body.access n
          events := events (r.accessAfter s c.body.access n)
          visited := 1 } := by
  obtain ⟨front, back, hm, rfl⟩ := exists_middle hc
  rw [Machine.mk.injEq]
  refine ⟨?_, rfl, rfl, rfl⟩
  rw [cells_absorb hm]
  simp only [update, hm, modify_middle, Cell.add, Frame.cellsAll, Frame.numbers, List.append_nil]
  rfl

end Machine

namespace Reading

variable {r : Reading}

/-- A visit on top of the stack ends with its yield absorbed, whatever is below it. -/
def Absorbs (r : Reading) (p : Place) : Prop :=
  ∀ (m : Machine) (i : Nat) (s : Surroundings) (c : Cell), m.cells[i]? = some c →
    r.run (m.push [p] i s) = r.run (m.absorb i (r.visit p.above s c.body.access p.node))

theorem run_push : ∀ {ps : List Place}, (∀ p ∈ ps, r.Absorbs p) →
    ∀ (m : Machine) (i : Nat) (s : Surroundings) (c : Cell), m.cells[i]? = some c →
      r.run (m.push ps i s) = r.run (m.absorb i (r.visitEach s c.body.access ps))
  | [], _, m, i, s, c, hc => by
      rw [visitEach, Machine.absorb_silent hc]
      rfl
  | p :: ps, h, m, i, s, c, hc => by
      have htop := h p List.mem_cons_self (m.push ps i s) i s c hc
      have hrest := run_push (fun q hq => h q (List.mem_cons_of_mem _ hq))
        (m.absorb i (r.visit p.above s c.body.access p.node)) i s _ (Machine.getElem?_absorb hc _)
      rw [visitEach, ← Machine.absorb_andThen hc]
      exact htop.trans hrest

/-- The cell around an opener: it has the access that the opener leaves, holds the new frame and
hears of a method. -/
def hostCell (r : Reading) (p : Place) (s : Surroundings) (new : Nat) (c : Cell) : Cell :=
  ((c.changeAccess r s p.node).hold new).hear fun access =>
    r.methodEvent s access p.node (r.categoryIn s p)

theorem openFrame_eq {p : Place} {m : Machine} {s : Surroundings} {c : Cell}
    {front back : List Cell} (hm : m.cells = front ++ c :: back) :
    r.openFrame p front.length s (r.categoryIn s p)
        ({ m with visited := m.visited + 1 }.update front.length (.changeAccess r s p.node)) =
      Machine.push
        { cells := (front ++ r.hostCell p s m.cells.length c :: back) ++
            [r.newCell p.node (r.categoryIn s p)]
          tasks := .close m.cells.length :: m.tasks
          visited := m.visited + 1
          skipped := m.skipped }
        p.children m.cells.length (opened s p.node (r.categoryIn s p)) := by
  simp only [openFrame, Machine.update, hm, modify_middle, List.length_append, List.length_cons]
  rfl

/-- Closing the last frame of a store after visits on its behalf: its cell is in the middle, before
those of the frames that the visits opened. -/
theorem cells_absorb_close {m : Machine} (host : List Cell) {new : Cell}
    (hm : m.cells = host ++ [new]) (y : Yield) :
    (m.absorb host.length y).cells.modify host.length Cell.close =
      host ++ (new.add (host.length + 1) y).close :: Frame.cellsAll (host.length + 1) y.frames := by
  have hlen : m.cells.length = host.length + 1 := by rw [hm, List.length_append]; rfl
  rw [Machine.cells_absorb hm, modify_middle, List.nil_append, hlen]

/-- A frame that is opened, filled by its children and closed is the frame of the opener's
visit. -/
theorem run_openFrame {p : Place} {m : Machine} {i : Nat} {s : Surroundings} {c : Cell}
    (ho : r.opensScope p = true) (ih : ∀ q ∈ p.children, r.Absorbs q) (hc : m.cells[i]? = some c) :
    r.run (r.openFrame p i s (r.categoryIn s p)
        ({ m with visited := m.visited + 1 }.update i (.changeAccess r s p.node))) =
      r.run (m.absorb i (r.visit p.above s c.body.access p.node)) := by
  obtain ⟨front, back, hm, rfl⟩ := exists_middle hc
  have hlen : (front ++ r.hostCell p s m.cells.length c :: back).length = m.cells.length := by
    rw [hm, List.length_append, List.length_append]
    rfl
  have hnew : ((front ++ r.hostCell p s m.cells.length c :: back) ++
      [r.newCell p.node (r.categoryIn s p)])[m.cells.length]? =
        some (r.newCell p.node (r.categoryIn s p)) := by
    rw [List.getElem?_append_right (Nat.le_of_eq hlen), hlen, Nat.sub_self]
    rfl
  rw [openFrame_eq hm, run_push ih _ _ _ _ hnew, run_cons rfl, perform, visit_opener ho]
  congr 1
  rw [Machine.mk.injEq]
  refine ⟨?_, rfl, ?_, rfl⟩
  · rw [Machine.cells_absorb hm]
    have := cells_absorb_close (m := ⟨(front ++ r.hostCell p s m.cells.length c :: back) ++
      [r.newCell p.node (r.categoryIn s p)], .close m.cells.length :: m.tasks, m.visited + 1,
      m.skipped⟩) _ rfl (r.visitEach (opened s p.node (r.categoryIn s p))
        (r.startAccess p.node (.ofCategory (r.categoryIn s p))) p.children)
    rw [hlen] at this
    refine this.trans ?_
    simp only [List.append_assoc, List.cons_append, Frame.cellsAll, Frame.cells, List.append_nil]
    rfl
  · exact (Nat.add_assoc m.visited 1 _).trans (congrArg _ (Nat.add_comm 1 _))

/-- **A visit absorbed.**  What a visit on top of the stack does to the store is its yield. -/
theorem run_visit (p : Place) : r.Absorbs p := by
  induction p using Place.induct with
  | h p ih =>
      intro m i s c hc
      have htop : (m.push [p] i s).tasks = .visit p i s :: m.tasks := rfl
      rw [run_cons htop, perform]
      show r.run (r.visitStep p i s m) = _
      rcases r.place_cases p with he | hcom | ho | ⟨hi, ho⟩
      · rw [visitStep_error he, visit_error he, Machine.absorb_silent hc]
      · rw [visitStep_comment hcom, visit_comment hcom, Machine.absorb_tell hc]
      · rw [visitStep_opener ho, run_openFrame ho ih hc]
      · rw [visitStep_plain hi ho, visit_plain hi ho, Machine.absorb_tell hc,
          run_push ih _ _ _ _ (Machine.getElem?_absorb hc _), Machine.absorb_andThen hc]
        rfl

/-- Only classes have an access that nodes change. -/
theorem access_visit : ∀ (p : Place) {s : Surroundings} (access : Option Bool), s.kind ≠ .class_ →
    (r.visit p.above s access p.node).access = access := by
  intro p
  induction p using Place.induct with
  | h p ih =>
      intro s access hs
      have hafter : r.accessAfter s access p.node = access := if_neg hs
      have each : ∀ (ps : List Place) (s : Surroundings), s.kind ≠ .class_ →
          (∀ q ∈ ps, q ∈ p.children) → (r.visitEach s access ps).access = access := by
        intro ps s hs hps
        induction ps with
        | nil => rfl
        | cons q ps ihps =>
            rw [visitEach]
            show (r.visitEach s _ ps).access = access
            rw [ih q (hps q List.mem_cons_self) access hs]
            exact ihps fun x hx => hps x (List.mem_cons_of_mem _ hx)
      rcases r.place_cases p with he | hc | ho | ⟨hi, ho⟩
      · rw [visit_error he]
      · rw [visit_comment hc]
        exact hafter
      · rw [visit_opener ho]
        exact hafter
      · rw [visit_plain hi ho, hafter]
        exact each _ _ hs fun q hq => hq

/-- The run of a whole tree: the store of the unit alone, with the visit of the root absorbed. -/
theorem build_eq (r : Reading) (name : Option String) (root : Node) :
    r.build name root =
      (Machine.absorb { cells := [{ body := { scope := r.unitScope name root, closed := false } }] }
        0 (r.visit [] { kind := .unit, opener := root } none root)).update 0 Cell.close := by
  let unit : Cell := { body := { scope := r.unitScope name root, closed := false } }
  let start : Surroundings := { kind := .unit, opener := root }
  have hrun : r.run { cells := [unit], tasks := [.visit (.root root) 0 start] } =
      Machine.absorb { cells := [unit] } 0 (r.visit [] start none root) :=
    (run_visit (.root root) { cells := [unit] } 0 start unit rfl).trans (run_nil rfl)
  rw [build, hrun]

/-- **The stack builds the walk.**  When nothing is left to do, the store holds the frames of the
walk, every frame is closed, and what its events added up to when it was closed is what all its
events add up to: no event reaches a frame after its end. -/
theorem cells_build (r : Reading) (name : Option String) (root : Node) :
    (r.build name root).cells = (r.walk name root).draft.unit.cells 0 := by
  let unit : Cell := { body := { scope := r.unitScope name root, closed := false } }
  let start : Surroundings := { kind := .unit, opener := root }
  have haccess : (r.visit [] start none root).access = none :=
    access_visit (.root root) none fun h => by cases h
  have hclose := cells_absorb_close (m := { cells := [unit] }) [] rfl (r.visit [] start none root)
  rw [build_eq]
  refine hclose.trans ?_
  rw [walk, Frame.cells, Cell.add, haccess]
  rfl

/-- The stack counts the nodes that the walk counts. -/
theorem counts_build (r : Reading) (name : Option String) (root : Node) :
    (r.build name root).visited = (r.walk name root).visited ∧
      (r.build name root).skipped = (r.walk name root).skipped := by
  rw [build_eq]
  exact ⟨Nat.zero_add _, Nat.zero_add _⟩

/-- **Building routes.**  For the pack of every language, every source, every set of macros and
every tree: the run of the stack stores a tree of frames, the one whose frames, in preorder and
each with the frames around it, are those of the routing; no two nodes of the tree have the same
address, so what belongs to one frame belongs to no other; and a reached node that is no error,
opens no scope and has a category belongs to the frame of its owner alone, and tells it of exactly
one event, with the node's category and the nesting constructs between the two. -/
theorem build_routes (lang : Language) (source : Source) (macros : SortedSet String)
    (name : Option String) (root : Node) :
    let r : Reading := { pack := lang.pack, source, macros }
    (∀ f : Frame, f.enclosed [] = r.routing name root ↔ f = (r.walk name root).draft.unit) ∧
      (r.build name root).cells = (r.walk name root).draft.unit.cells 0 ∧
      (r.build name root).tasks = [] ∧
      (root.places.Pairwise fun p q => p.address ≠ q.address) ∧
      ∀ p ∈ root.places, r.isReached p = true → p.node.isError = false →
        r.opensScope p = false → r.categoryAt p ≠ ∅ →
        (∀ k, r.belongsTo k p = true ↔ k = r.ownerAddress p) ∧
          ∀ access, ∃ e, r.eventsAt root access p = [e] ∧ e.category = r.categoryAt p ∧
            e.nesting = r.nestingUnder p.ancestors := by
  intro r
  have hwalk : (r.walk name root).draft.unit.enclosed [] = r.routing name root :=
    enclosed_walk rfl name root
  refine ⟨fun f => ⟨fun hf => ?_, fun hf => hf ▸ hwalk⟩, cells_build r name root, tasks_run r _,
    Place.pairwise_address_subtree (.root root), fun p _ hp he ho hc => ?_⟩
  · exact Frame.enclosed_injective (hf.trans hwalk.symm)
  · exact ⟨belongsTo_iff hp he, exists_eventsAt root ho hc⟩

/-- A function with a loop around an if: the if belongs to the function, and its event counts the
loop. -/
theorem build_routes_in_loop :
    let leaf (start stop : Nat) (field : Option String) : Node :=
      .mk ⟨"identifier", true, false, start, stop, field⟩ []
    let branch : Node := .mk ⟨"if_statement", true, false, 6, 8, none⟩ [leaf 7 8 none]
    let loop : Node := .mk ⟨"for_statement", true, false, 4, 8, none⟩ [leaf 4 5 none, branch]
    let function : Node :=
      .mk ⟨"function_definition", true, false, 0, 8, none⟩ [leaf 2 3 (some "name"), loop]
    let root : Node := .mk ⟨"module", true, false, 0, 9, none⟩ [function]
    let r : Reading := { pack := Language.python.pack, source := ⟨List.replicate 9 120⟩ }
    let p : Place := ⟨branch, [⟨loop.label, [leaf 4 5 none], []⟩,
      ⟨function.label, [leaf 2 3 (some "name")], []⟩, ⟨root.label, [], []⟩]⟩
    p ∈ root.places ∧ r.isReached p = true ∧ p.node.isError = false ∧ r.opensScope p = false ∧
      r.categoryAt p ≠ ∅ ∧ (∀ k, r.belongsTo k p = true ↔ k = some [0]) ∧
      ∃ e, r.eventsAt root none p = [e] ∧ e.category = Pack.ifFlags ∧ e.nesting = 1 := by
  intro leaf branch loop function root r p
  have hp : p ∈ root.places := .tail _ (.tail _ (.tail _ (.tail _ (.tail _ (.head _)))))
  obtain ⟨howner, hevent⟩ := (build_routes .python r.source ∅ none root).2.2.2.2 p hp
    (by decide +kernel) rfl (by decide +kernel) (by decide +kernel)
  have hfunction : r.ownerAddress p = some [0] := by decide +kernel
  obtain ⟨e, he, hcategory, hnesting⟩ := hevent none
  exact ⟨hp, by decide +kernel, rfl, by decide +kernel, by decide +kernel,
    fun k => hfunction ▸ howner k, e, he, hcategory.trans (by decide +kernel),
    hnesting.trans (by decide +kernel)⟩

end Reading

end ScopeMetrics
