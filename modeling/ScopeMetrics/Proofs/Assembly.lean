import ScopeMetrics.Proofs.Indexes
import ScopeMetrics.Proofs.Ownership

/-!
# Spaces assembled by tables

The spaces of a unit can be made without recursion, by tables whose keys are the frames.  A stack
puts the frames in order.  Along the order each frame finds the range that was noted for it and
notes those of the frames inside; against the order each frame finds the spaces of the frames inside
and notes its own (`Draft.assemble`).  A frame without an entry would stop this.

All tables are about the parcels of one survey, so each is compared with it: a table knows a route
if it has there what the parcel at the route gives (`Table.Knows`).  A right entry never spoils
another, which is all that the runs need.

* `Site.divide_run`: along the order, no range is missing.
* `Site.raise_run`: against the order, no space is missing.
* `Draft.assemble_eq`: the tables give the spaces of the unit.
* **`Draft.assemble_total`**: there are spaces exactly if every frame was closed; they stand as the
  frames do, and their indexes are in the domain.
-/

namespace ScopeMetrics

/-! ### Tables -/

/-- Values by the routes of the frames that they are about, the latest first. -/
abbrev Table (α : Type) := List (List Nat × α)

/-- Why spaces cannot be assembled: a table has no entry for a frame, or the frames are at fault. -/
inductive Slip where
  | missing (route : List Nat)
  | failed (failure : Failure)

namespace Table

variable {α : Type}

/-- The value for a route, which has to be there. -/
def look (t : Table α) (route : List Nat) : Except Slip α :=
  match t.lookup route with
  | some x => .ok x
  | none => .error (.missing route)

/-- Whether a table has for a route what `g` gives of the parcel there. -/
def Knows (unit : Parcel) (g : Parcel → α) (t : Table α) (route : List Nat) : Prop :=
  ∃ p, unit.at? route = some p ∧ t.lookup route = some (g p)

variable {unit p : Parcel} {g : Parcel → α} {t : Table α} {route : List Nat}

theorem Knows.look (h : Knows unit g t route) (hp : unit.at? route = some p) :
    t.look route = .ok (g p) := by
  obtain ⟨q, hq, hlookup⟩ := h
  rw [hp, Option.some.injEq] at hq
  rw [Table.look, hlookup, hq]

theorem knows_cons_self (hp : unit.at? route = some p) :
    Knows unit g ((route, g p) :: t) route :=
  ⟨p, hp, List.lookup_cons_self⟩

/-- A right entry hides none that is right. -/
theorem Knows.cons {other : List Nat} (hp : unit.at? route = some p) (h : Knows unit g t other) :
    Knows unit g ((route, g p) :: t) other := by
  by_cases heq : other = route
  · subst heq
    exact knows_cons_self hp
  · obtain ⟨q, hq, hlookup⟩ := h
    refine ⟨q, hq, ?_⟩
    rw [List.lookup_cons, beq_eq_false_iff_ne.mpr heq]
    exact hlookup

end Table

/-! ### Parcels -/

theorem Frame.body_surveyIn (f : Frame) (s : Span) : (f.surveyIn s).body = f.body := by
  cases f
  rfl

theorem Frame.inside_surveyIn (f : Frame) (s : Span) :
    (f.surveyIn s).inside = surveyAll s.high s.low f.inside := by
  cases f
  rfl

namespace Parcel

theorem remaining_eq (s : Span) (ps : List Parcel) :
    remaining s ps = s.lines.filter fun n => !(ps.map span).any fun u => u.contains n := by
  simp only [remaining, List.any_map]
  rfl

theorem space_eq (use : LineUse) (p : Parcel) :
    p.space use =
      let inside := p.inside.map (space use)
      let own := ownBundle use p.body (remaining p.span p.inside) inside
      .mk p.body.scope own (rolledUp own inside) inside := by
  obtain ⟨body, span, inside⟩ := p
  rw [space, spaceAll_eq]
  rfl

/-- Whether parcels stand below a route, the first of them at position `i`. -/
def StandBelow (unit : Parcel) (route : List Nat) (i : Nat) (ps : List Parcel) : Prop :=
  ∀ k p, ps[k]? = some p → unit.at? (route ++ [i + k]) = some p

variable {unit p : Parcel} {route : List Nat}

theorem StandBelow.head {i : Nat} {ps : List Parcel} (h : StandBelow unit route i (p :: ps)) :
    unit.at? (route ++ [i]) = some p := h 0 p rfl

theorem StandBelow.tail {i : Nat} {ps : List Parcel} (h : StandBelow unit route i (p :: ps)) :
    StandBelow unit route (i + 1) ps := by
  intro k q hq
  rw [Nat.add_assoc, Nat.add_comm 1 k]
  exact h (k + 1) q hq

theorem standBelow_inside (h : unit.at? route = some p) : StandBelow unit route 0 p.inside := by
  intro k q hq
  rw [Nat.zero_add, at?, follow_concat, ← at?, h, Option.bind_some, hq]

end Parcel

/-! ### Sites -/

/-- A frame with the route that leads to it. -/
structure Site where
  route : List Nat
  frame : Frame

namespace Site

/-- Neighbours with their routes, the first of them at position `i` below `route`. -/
def among (route : List Nat) (i : Nat) : List Frame → List Site
  | [] => []
  | f :: fs => ⟨route ++ [i], f⟩ :: among route (i + 1) fs

/-- The frames directly inside, with their routes. -/
def inside (s : Site) : List Site := among s.route 0 s.frame.inside

theorem map_frame_among (route : List Nat) (fs : List Frame) : ∀ i,
    (among route i fs).map frame = fs := by
  induction fs with
  | nil => exact fun _ => rfl
  | cons f fs ih =>
      intro i
      rw [among, List.map_cons, ih]

theorem map_frame_inside (s : Site) : s.inside.map frame = s.frame.inside :=
  map_frame_among _ _ _

theorem exists_of_mem_among {route : List Nat} {c : Site} {fs : List Frame} : ∀ {i : Nat},
    c ∈ among route i fs → ∃ k, fs[k]? = some c.frame ∧ c.route = route ++ [i + k] := by
  induction fs with
  | nil => exact fun h => absurd h List.not_mem_nil
  | cons f fs ih =>
      intro i h
      rcases List.mem_cons.mp h with rfl | h
      · exact ⟨0, rfl, rfl⟩
      · obtain ⟨k, hk, hroute⟩ := ih h
        exact ⟨k + 1, hk, by rw [hroute, Nat.add_assoc, Nat.add_comm 1 k]⟩

/-- The number of frames that are at the sites or below them. -/
def pending (stack : List Site) : Nat := (stack.flatMap fun s => s.frame.frames).length

theorem pending_lt (s : Site) (stack : List Site) :
    pending (s.inside ++ stack) < pending (s :: stack) := by
  have hinside : (s.inside.flatMap fun c => c.frame.frames) =
      s.frame.inside.flatMap Frame.frames := by
    rw [← map_frame_inside, List.flatMap_map]
  have hframes : s.frame.frames = s.frame :: s.frame.inside.flatMap Frame.frames := by
    obtain ⟨route, body, inside⟩ := s
    rw [Frame.frames, Frame.framesAll_eq]
    rfl
  rw [pending, pending, List.flatMap_append, List.flatMap_cons, hinside, hframes,
    List.length_append, List.length_append, List.length_cons]
  omega

/-- The sites in the order in which a stack gives them: the top one, and then those inside it before
the others. -/
def order : List Site → List Site
  | [] => []
  | s :: stack => s :: order (s.inside ++ stack)
termination_by stack => pending stack
decreasing_by exact pending_lt s stack

/-- The order of a stack is preorder. -/
theorem map_body_order (stack : List Site) :
    (order stack).map (fun s => s.frame.body) = stack.flatMap fun s => s.frame.bodies := by
  induction stack using order.induct with
  | case1 => rw [order]; rfl
  | case2 s stack ih =>
      have hinside : (s.inside.flatMap fun c => c.frame.bodies) =
          s.frame.inside.flatMap Frame.bodies := by
        rw [← map_frame_inside, List.flatMap_map]
      rw [order, List.map_cons, ih, List.flatMap_append, List.flatMap_cons, hinside]
      obtain ⟨route, body, inside⟩ := s
      rw [Frame.bodies, Frame.bodiesAll_eq]
      rfl

theorem mem_order_of_mem {s : Site} (stack : List Site) : s ∈ stack → s ∈ order stack := by
  induction stack using order.induct with
  | case1 => exact fun h => absurd h List.not_mem_nil
  | case2 t stack ih =>
      intro h
      rw [order]
      rcases List.mem_cons.mp h with rfl | h
      · exact List.mem_cons_self
      · exact List.mem_cons_of_mem _ (ih (List.mem_append_right _ h))

/-- Whether a site is in a tree of frames, at the route that it has. -/
def IsIn (root : Frame) (s : Site) : Prop := root.at? s.route = some s.frame

variable {root : Frame}

theorem IsIn.inside {s : Site} (h : s.IsIn root) : ∀ c ∈ s.inside, c.IsIn root := by
  intro c hc
  obtain ⟨k, hk, hroute⟩ := exists_of_mem_among hc
  rw [IsIn, hroute, Nat.zero_add, Frame.at?, follow_concat, ← Frame.at?, h, Option.bind_some, hk]

theorem isIn_order (stack : List Site) : (∀ s ∈ stack, s.IsIn root) →
    ∀ s ∈ order stack, s.IsIn root := by
  induction stack using order.induct with
  | case1 =>
      intro h
      rwa [order]
  | case2 t stack ih =>
      intro h s hs
      rw [order] at hs
      obtain ⟨ht, hstack⟩ := List.forall_mem_cons.mp h
      rcases List.mem_cons.mp hs with rfl | hs
      · exact ht
      · refine ih (fun c hc => ?_) s hs
        exact (List.mem_append.mp hc).elim (ht.inside c) (hstack c)

/-- The parcel at the route of a site is that of its frame. -/
theorem IsIn.parcel {s : Site} (h : s.IsIn root) :
    ∃ t, root.survey.at? s.route = some (s.frame.surveyIn t) := by
  obtain ⟨t, ht⟩ := Frame.at?_surveyIn s.route root ⟨root.scope.startLine, root.scope.endLine⟩
  rw [h, Option.map_some] at ht
  exact ⟨t, ht⟩

end Site

open Table Site Parcel

/-! ### Ranges -/

namespace Site

/-- Notes the ranges of neighbours, when the lines from `cursor` to `high` are free. -/
def lay (high : Int) : Int → List Site → Table Span → Table Span
  | _, [], t => t
  | cursor, s :: ss, t =>
    let span := s.frame.reach cursor high
    lay high (span.freeAfter cursor) ss ((s.route, span) :: t)

theorem knows_lay {unit : Parcel} {route : List Nat} {high : Int} {fs : List Frame} :
    ∀ {i : Nat} {cursor : Int} {t : Table Span},
    StandBelow unit route i (Frame.surveyAll high cursor fs) →
      (∀ r, Knows unit Parcel.span t r →
        Knows unit Parcel.span (lay high cursor (among route i fs) t) r) ∧
      ∀ c ∈ among route i fs,
        Knows unit Parcel.span (lay high cursor (among route i fs) t) c.route := by
  induction fs with
  | nil => exact fun _ => ⟨fun _ h => h, fun c hc => absurd hc List.not_mem_nil⟩
  | cons f fs ih =>
      intro i cursor t h
      have hspan : (route ++ [i], f.reach cursor high) =
          (route ++ [i], (f.surveyIn (f.reach cursor high)).span) := by
        rw [Frame.span_surveyIn]
      obtain ⟨hkept, hnew⟩ := ih (t := (route ++ [i], f.reach cursor high) :: t) h.tail
      refine ⟨fun r hr => hkept r (hspan ▸ hr.cons h.head), fun c hc => ?_⟩
      rcases List.mem_cons.mp hc with rfl | hc
      · exact hkept _ (hspan ▸ knows_cons_self h.head)
      · exact hnew c hc

/-- Notes the ranges of the frames inside a frame, whose own range has to be noted. -/
def divide (t : Table Span) (s : Site) : Except Slip (Table Span) := do
  let span ← t.look s.route
  return lay span.high span.low s.inside t

/-- Dividing a range that is noted rightly keeps the table right, and notes the ranges inside. -/
theorem divide_step {root : Frame} {s : Site} (hs : s.IsIn root) {t : Table Span}
    (h : Knows root.survey Parcel.span t s.route) :
    ∃ t', divide t s = .ok t' ∧
      (∀ r, Knows root.survey Parcel.span t r → Knows root.survey Parcel.span t' r) ∧
      ∀ c ∈ s.inside, Knows root.survey Parcel.span t' c.route := by
  obtain ⟨span, hparcel⟩ := hs.parcel
  have hbelow := standBelow_inside hparcel
  rw [Frame.inside_surveyIn] at hbelow
  refine ⟨lay span.high span.low s.inside t, ?_, knows_lay hbelow⟩
  rw [divide, h.look hparcel, Frame.span_surveyIn]
  rfl

/-- Along the order of a stack no range is missing when it is divided. -/
theorem divide_run {root : Frame} (stack : List Site) : ∀ {t : Table Span},
    (∀ s ∈ stack, s.IsIn root ∧ Knows root.survey Parcel.span t s.route) →
      ∃ t', (order stack).foldlM divide t = .ok t' ∧
        (∀ r, Knows root.survey Parcel.span t r → Knows root.survey Parcel.span t' r) ∧
        ∀ s ∈ order stack, Knows root.survey Parcel.span t' s.route ∧
          ∀ c ∈ s.inside, Knows root.survey Parcel.span t' c.route := by
  induction stack using order.induct with
  | case1 =>
      intro t _
      rw [order]
      exact ⟨t, rfl, fun _ h => h, fun s hs => absurd hs List.not_mem_nil⟩
  | case2 s stack ih =>
      intro t h
      obtain ⟨⟨hs, hknown⟩, hstack⟩ := List.forall_mem_cons.mp h
      obtain ⟨t₁, hstep, hkept₁, hinside⟩ := divide_step hs hknown
      -- the invariant of the run: what is on the stack is known
      have hnext : ∀ c ∈ s.inside ++ stack,
          c.IsIn root ∧ Knows root.survey Parcel.span t₁ c.route := by
        intro c hc
        rcases List.mem_append.mp hc with hc | hc
        · exact ⟨hs.inside c hc, hinside c hc⟩
        · exact ⟨(hstack c hc).1, hkept₁ _ (hstack c hc).2⟩
      obtain ⟨t₂, hrun, hkept₂, hall⟩ := ih hnext
      rw [order]
      refine ⟨t₂, ?_, fun r hr => hkept₂ r (hkept₁ r hr), fun c hc => ?_⟩
      · rw [List.foldlM_cons, hstep]
        exact hrun
      · rcases List.mem_cons.mp hc with rfl | hc
        · exact ⟨hkept₂ _ (hkept₁ _ hknown), fun c hc => hkept₂ _ (hinside c hc)⟩
        · exact hall c hc

end Site

/-! ### Bodies and lines -/

/-- The closed bodies that were met, and the lines on which they have code and comments. -/
structure Heard where
  bodies : Table Frame.Body := []
  code : LineSet := ∅
  comments : LineSet := ∅

namespace Heard

/-- Why a body that was never closed cannot be that of a space. -/
def unclosed (b : Frame.Body) : Failure :=
  .internal "frame was never closed" [("kind", .text b.scope.kind.name)]

/-- What is heard after a closed body. -/
def after (h : Heard) (s : Site) : Heard where
  bodies := (s.route, s.frame.body) :: h.bodies
  code := h.code.union s.frame.body.tally.codeLines
  comments := h.comments.union s.frame.body.tally.commentLines

/-- Notes the body of a frame, which has to be closed. -/
def heed (h : Heard) (s : Site) : Except Slip Heard :=
  if s.frame.body.closed then .ok (h.after s) else .error (.failed (unclosed s.frame.body))

/-- The run over some frames ends at the first that was never closed, and else hears them all. -/
theorem heed_run (sites : List Site) : ∀ h : Heard,
    sites.foldlM heed h =
      match (sites.map fun s => s.frame.body).find? fun b => !b.closed with
      | some b => .error (.failed (unclosed b))
      | none => .ok (sites.foldl after h) := by
  induction sites with
  | nil => exact fun _ => rfl
  | cons s sites ih =>
      intro h
      rw [List.foldlM_cons, heed, List.map_cons, List.find?_cons]
      cases s.frame.body.closed with
      | true => exact ih (h.after s)
      | false => rfl

theorem lines_foldl_after (sites : List Site) : ∀ h : Heard,
    (sites.foldl after h).code =
        (sites.map fun s => s.frame.body).foldl (fun l b => l.union b.tally.codeLines) h.code ∧
      (sites.foldl after h).comments =
        (sites.map fun s => s.frame.body).foldl (fun l b => l.union b.tally.commentLines)
          h.comments := by
  induction sites with
  | nil => exact fun _ => ⟨rfl, rfl⟩
  | cons s sites ih => exact fun h => ih (h.after s)

theorem knows_foldl_after {root : Frame} (sites : List Site) : ∀ {h : Heard},
    (∀ s ∈ sites, s.IsIn root) →
      (∀ r, Knows root.survey Parcel.body h.bodies r →
        Knows root.survey Parcel.body (sites.foldl after h).bodies r) ∧
      ∀ s ∈ sites, Knows root.survey Parcel.body (sites.foldl after h).bodies s.route := by
  induction sites with
  | nil => exact fun _ => ⟨fun _ h => h, fun s hs => absurd hs List.not_mem_nil⟩
  | cons s sites ih =>
      intro h hin
      obtain ⟨hs, hsites⟩ := List.forall_mem_cons.mp hin
      obtain ⟨span, hparcel⟩ := hs.parcel
      have hbody : (s.route, s.frame.body) = (s.route, (s.frame.surveyIn span).body) := by
        rw [Frame.body_surveyIn]
      obtain ⟨hkept, hall⟩ := ih (h := h.after s) hsites
      refine ⟨fun r hr => hkept r ?_, fun c hc => ?_⟩
      · rw [after, hbody]
        exact hr.cons hparcel
      · rcases List.mem_cons.mp hc with rfl | hc
        · refine hkept _ ?_
          rw [after, hbody]
          exact knows_cons_self hparcel
        · exact hall c hc

end Heard

/-! ### Spaces -/

namespace Site

/-- Makes the space of a frame from what the tables hold about it and about the frames inside. -/
def raise (use : LineUse) (bodies : Table Frame.Body) (spans : Table Span) (built : Table Space)
    (s : Site) : Except Slip (Table Space) := do
  let inside ← s.inside.mapM fun c => built.look c.route
  let span ← spans.look s.route
  let taken ← s.inside.mapM fun c => spans.look c.route
  let body ← bodies.look s.route
  let lines := span.lines.filter fun n => !taken.any fun u => u.contains n
  let own := ownBundle use body lines inside
  return (s.route, .mk s.frame.scope own (rolledUp own inside) inside) :: built

theorem mapM_look {α : Type} {unit : Parcel} {g : Parcel → α} {t : Table α} {route : List Nat}
    {high : Int} {fs : List Frame} : ∀ {i : Nat} {cursor : Int},
    StandBelow unit route i (Frame.surveyAll high cursor fs) →
      (∀ c ∈ among route i fs, Knows unit g t c.route) →
      (among route i fs).mapM (fun c => t.look c.route) =
        .ok ((Frame.surveyAll high cursor fs).map g) := by
  induction fs with
  | nil => exact fun _ _ => rfl
  | cons f fs ih =>
      intro i cursor hbelow hknown
      obtain ⟨hfirst, hrest⟩ := List.forall_mem_cons.mp hknown
      rw [among, List.mapM_cons, hfirst.look hbelow.head, ih hbelow.tail hrest]
      rfl

/-- Whether the bodies and ranges are known that the space of a frame is made of. -/
structure IsPrepared (root : Frame) (bodies : Table Frame.Body) (spans : Table Span) (s : Site) :
    Prop where
  isIn : s.IsIn root
  body : Knows root.survey Parcel.body bodies s.route
  span : Knows root.survey Parcel.span spans s.route
  inside : ∀ c ∈ s.inside, Knows root.survey Parcel.span spans c.route

variable {root : Frame} {use : LineUse} {bodies : Table Frame.Body} {spans : Table Span}

/-- The space of a prepared frame is right if those of the frames inside are. -/
theorem raise_step {built : Table Space} {s : Site} (hs : s.IsPrepared root bodies spans)
    (hbuilt : ∀ c ∈ s.inside, Knows root.survey (Parcel.space use) built c.route) :
    ∃ p, root.survey.at? s.route = some p ∧
      raise use bodies spans built s = .ok ((s.route, p.space use) :: built) := by
  obtain ⟨span, hparcel⟩ := hs.isIn.parcel
  have hbelow := standBelow_inside hparcel
  rw [Frame.inside_surveyIn] at hbelow
  have hspaces : s.inside.mapM (fun c => built.look c.route) = .ok _ := mapM_look hbelow hbuilt
  have htaken : s.inside.mapM (fun c => spans.look c.route) = .ok _ := mapM_look hbelow hs.inside
  refine ⟨_, hparcel, ?_⟩
  rw [raise, hspaces, hs.span.look hparcel, htaken, hs.body.look hparcel, space_eq, remaining_eq,
    Frame.inside_surveyIn, Frame.body_surveyIn]
  rfl

/-- Against the order of a stack no space is missing: what is inside a frame comes after it in the
order, and so before it here. -/
theorem raise_run (stack : List Site) : ∀ built : Table Space,
    (∀ s ∈ order stack, s.IsPrepared root bodies spans) →
      ∃ built', (order stack).reverse.foldlM (raise use bodies spans) built = .ok built' ∧
        ∀ s ∈ order stack, Knows root.survey (Parcel.space use) built' s.route := by
  induction stack using order.induct with
  | case1 =>
      intro built _
      rw [order]
      exact ⟨built, rfl, fun s hs => absurd hs List.not_mem_nil⟩
  | case2 s stack ih =>
      intro built h
      rw [order] at h ⊢
      obtain ⟨hs, hrest⟩ := List.forall_mem_cons.mp h
      obtain ⟨built₁, hrun, hbuilt⟩ := ih built hrest
      -- the top of the stack is raised last, when all that was above it in the run is known
      obtain ⟨p, hp, hstep⟩ := raise_step hs fun c hc =>
        hbuilt c (mem_order_of_mem _ (List.mem_append_left stack hc))
      refine ⟨(s.route, p.space use) :: built₁, ?_, fun c hc => ?_⟩
      · rw [List.reverse_cons, List.foldlM_append, hrun]
        show [s].foldlM (raise use bodies spans) built₁ = _
        rw [List.foldlM_cons, hstep]
        rfl
      · rcases List.mem_cons.mp hc with rfl | hc
        · exact knows_cons_self hp
        · exact (hbuilt c hc).cons hp

/-- From the right bodies and ranges the space of the unit is made. -/
theorem raise_unit (use : LineUse)
    (h : ∀ s ∈ order [⟨[], root⟩], s.IsPrepared root bodies spans) :
    ((order [⟨[], root⟩]).reverse.foldlM (raise use bodies spans) [] >>= fun t => t.look []) =
      .ok (root.survey.space use) := by
  obtain ⟨built, hrun, hbuilt⟩ := raise_run _ [] h
  have hunit := hbuilt ⟨[], root⟩ (mem_order_of_mem _ List.mem_cons_self)
  rw [hrun]
  exact hunit.look rfl

end Site

namespace Draft

/-- The spaces of a unit by tables.  The frames are put in the order of a stack; along it their
ranges are divided and their bodies heard, and against it their spaces are raised. -/
def assemble (d : Draft) : Except Slip Space := do
  let sites := order [⟨[], d.unit⟩]
  let spans ← sites.foldlM divide [([], ⟨d.unit.scope.startLine, d.unit.scope.endLine⟩)]
  let heard ← sites.foldlM Heard.heed {}
  let use := ⟨heard.code, heard.comments, d.blankLines⟩
  let built ← sites.reverse.foldlM (raise use heard.bodies spans) []
  built.look []

/-- No entry is ever missing in a table, and what the tables give are the spaces of the unit. -/
theorem assemble_eq (d : Draft) : d.assemble = d.spaces.mapError .failed := by
  have hroot : ∀ s ∈ [Site.mk [] d.unit], s.IsIn d.unit := by
    intro s hs
    rw [List.mem_singleton.mp hs]
    rfl
  have hin := isIn_order _ hroot
  have hbodies : (order [⟨[], d.unit⟩]).map (fun s => s.frame.body) = d.unit.bodies := by
    rw [map_body_order, List.flatMap_singleton]
  have hspan : ∀ s ∈ [Site.mk [] d.unit], s.IsIn d.unit ∧ Knows d.unit.survey Parcel.span
      [([], ⟨d.unit.scope.startLine, d.unit.scope.endLine⟩)] s.route := by
    intro s hs
    refine ⟨hroot s hs, ?_⟩
    rw [List.mem_singleton.mp hs]
    refine ⟨d.unit.survey, rfl, ?_⟩
    rw [Frame.survey, Frame.span_surveyIn]
    rfl
  obtain ⟨spans, hdivide, -, hspans⟩ := divide_run _ hspan
  have hheard := Heard.heed_run (order [⟨[], d.unit⟩]) {}
  rw [hbodies] at hheard
  rw [assemble, spaces, Frame.open?]
  -- the ranges are divided in any case; what was never closed stops the bodies
  simp only [hdivide, hheard]
  cases d.unit.bodies.find? fun b => !b.closed with
  | some b => rfl
  | none =>
      obtain ⟨-, hknown⟩ := Heard.knows_foldl_after (h := {}) _ hin
      have huse : d.lineUse = ⟨((order [⟨[], d.unit⟩]).foldl Heard.after {}).code,
          ((order [⟨[], d.unit⟩]).foldl Heard.after {}).comments, d.blankLines⟩ := by
        obtain ⟨hcode, hcomments⟩ := Heard.lines_foldl_after (order [⟨[], d.unit⟩]) {}
        rw [hcode, hcomments, hbodies]
        rfl
      rw [huse]
      exact raise_unit _ fun s hs => ⟨hin s hs, hknown s hs, (hspans s hs).1, (hspans s hs).2⟩

end Draft

/-! ### Shapes -/

/-- The space at the end of a route. -/
def Space.at? (s : Space) (route : List Nat) : Option Space := follow Space.inside s route

theorem Parcel.at?_space (use : LineUse) (route : List Nat) : ∀ p : Parcel,
    (p.space use).at? route = (p.at? route).map (space use) := by
  induction route with
  | nil => exact fun _ => rfl
  | cons i route ih =>
      rintro ⟨body, span, inside⟩
      rw [Space.at?, follow, space, Space.inside, spaceAll_eq, List.getElem?_map, at?, follow,
        Parcel.inside]
      cases inside[i]? with
      | none => rfl
      | some p => exact ih p

/-- Spaces stand in the tree as frames do. -/
theorem Frame.map_scope_at? (use : LineUse) (f : Frame) (route : List Nat) :
    ((f.survey.space use).at? route).map Space.scope = (f.at? route).map scope := by
  obtain ⟨t, ht⟩ := at?_surveyIn route f ⟨f.scope.startLine, f.scope.endLine⟩
  rw [Parcel.at?_space, survey, ht, Option.map_map, Option.map_map]
  refine Option.map_congr fun g _ => ?_
  exact scope_space_surveyIn use g t

namespace Draft

/-- What the counters of a unit cannot exceed. -/
def load (d : Draft) : Int := sumOf Frame.Body.load d.unit.bodies

/-- There are no spaces if a frame was never closed, and the first such frame is reported. -/
theorem spaces_eq_error {d : Draft} {e : Failure} :
    d.spaces = .error e ↔ ∃ front b back, d.unit.bodies = front ++ b :: back ∧
      (∀ c ∈ front, c.closed = true) ∧ b.closed = false ∧
      e = .internal "frame was never closed" [("kind", .text b.scope.kind.name)] := by
  rw [spaces]
  constructor
  · intro h
    cases hopen : d.unit.open? with
    | none =>
        rw [hopen] at h
        cases h
    | some b =>
        rw [hopen] at h
        obtain ⟨hb, front, back, hbodies, hfront⟩ := List.find?_eq_some_iff_append.mp hopen
        exact ⟨front, b, back, hbodies, by simpa using hfront, by simpa using hb,
          (Except.error.inj h).symm⟩
  · rintro ⟨front, b, back, hbodies, hfront, hb, rfl⟩
    have hopen : d.unit.open? = some b :=
      List.find?_eq_some_iff_append.mpr
        ⟨by simpa using hb, front, back, hbodies, by simpa using hfront⟩
    rw [hopen]

/-- **Spaces are made of every closed tree of frames, and only of those.**  Frames may start and end
anywhere and have any events.  The tables that are filled along the order of a stack, and read
against it, never lack an entry: what they give are the spaces of the unit.  There are none exactly
if a frame was never closed, and the first such frame in preorder is reported with its kind.  Else
every frame has its space at the same route with the same scope.  No bundle, own or rolled up, has
more lines with comments than lines, so no index is outside the domain of a root or a sine; and all
indexes have values if the events and frames of the unit are fewer than `2 ^ 1023`. -/
theorem assemble_total (d : Draft) :
    (d.assemble = d.spaces.mapError .failed ∧ ∀ route, d.assemble ≠ .error (.missing route)) ∧
    (∀ e, d.spaces = .error e ↔ ∃ front b back, d.unit.bodies = front ++ b :: back ∧
      (∀ c ∈ front, c.closed = true) ∧ b.closed = false ∧
      e = .internal "frame was never closed" [("kind", .text b.scope.kind.name)]) ∧
    ((∀ b ∈ d.unit.bodies, b.closed = true) → ∃ root, d.spaces = .ok root ∧
      (∀ route, (root.at? route).map Space.scope = (d.unit.at? route).map Frame.scope) ∧
      ∀ s ∈ root.all, ∀ b ∈ [s.own, s.metrics],
        0 ≤ b.loc.cloc ∧ b.loc.cloc ≤ b.loc.sloc ∧
        b.maintainability ≠ .error .outsideDomain ∧
        (d.load < Decimal.twoPow 1023 → ∃ m, b.maintainability = .ok m)) := by
  refine ⟨⟨d.assemble_eq, fun route h => ?_⟩, fun e => spaces_eq_error, fun hclosed => ?_⟩
  · rw [assemble_eq] at h
    cases hspaces : d.spaces <;> rw [hspaces] at h <;> cases h
  · have hopen : d.unit.open? = none := List.find?_eq_none.mpr fun b hb => by simp [hclosed b hb]
    refine ⟨d.unit.survey.space d.lineUse, by rw [spaces, hopen],
      d.unit.map_scope_at? d.lineUse, fun s hs b hb => ?_⟩
    rw [all_space] at hs
    obtain ⟨p, hp, rfl⟩ := List.mem_map.mp hs
    have hload : d.load = sumOf (fun q => q.body.load) d.unit.survey.all := by
      rw [load, ← d.unit.map_body_surveyIn, sumOf_map]
      rfl
    rw [hload]
    exact index_space d.lineUse hp b hb

/-- A function with a closure that sticks out of it, before a class that starts inside both.  If
neither the closure nor the class was closed, the closure is reported. -/
theorem assemble_total_overlapping :
    let body (kind : SpaceKind) (low high : Int) (closed : Bool) : Frame.Body :=
      { scope := { kind, name := none, startLine := low, endLine := high }, closed
        events :=
          [{ kind := "comment", category := {.comment}, startLine := low, endLine := high }] }
    let draft (closed : Bool) : Draft :=
      ⟨.mk (body .unit 1 10 true)
        [.mk (body .function 3 6 true) [.mk (body .closure 5 9 closed) []],
         .mk (body .class_ 6 8 closed) []], [2]⟩
    (∀ b ∈ (draft true).unit.bodies, b.closed = true) ∧ (draft true).load < Decimal.twoPow 1023 ∧
      (∃ root, (draft true).assemble = .ok root ∧
        (root.at? [0, 0]).map Space.scope = some (body .closure 5 9 true).scope ∧
        root.metrics.loc.cloc ≤ root.metrics.loc.sloc ∧ ∃ m, root.metrics.maintainability = .ok m) ∧
      (draft false).assemble =
        .error (.failed (.internal "frame was never closed" [("kind", .text "closure")])) := by
  intro body draft
  have hclosed : ∀ b ∈ (draft true).unit.bodies, b.closed = true := by decide
  have hload : (draft true).load < Decimal.twoPow 1023 := by decide +kernel
  obtain ⟨⟨htrue, -⟩, -, hspaces⟩ := assemble_total (draft true)
  obtain ⟨root, hroot, hshape, hbundles⟩ := hspaces hclosed
  obtain ⟨-, hlines, -, hindex⟩ := hbundles root root.self_mem_all root.metrics (by simp)
  obtain ⟨⟨hfalse, -⟩, herror, -⟩ := assemble_total (draft false)
  have hfailed := (herror _).mpr ⟨[body .unit 1 10 true, body .function 3 6 true],
    body .closure 5 9 false, [body .class_ 6 8 false], rfl, by decide, rfl, rfl⟩
  refine ⟨hclosed, hload, ⟨root, ?_, hshape [0, 0], hlines, hindex hload⟩, ?_⟩
  · rw [htrue, hroot]
    rfl
  · rw [hfalse, hfailed]
    rfl

end Draft

end ScopeMetrics
