import NpuAttribution.Poll.Schedule.Basic

/-!
# `NpuAttribution.Poll.Schedule.Cycle`: what a cycle does with the thread

A cycle lists the containers, collects the reports, delivers the snapshot and takes note
of the ends of its workers. In each turn it goes on as long as it can, but not beyond
its allowance.
-/

set_option autoImplicit false

namespace NpuAttribution.Poll.Schedule

/-- Dispatches so many workers and makes them ready in this order. -/
def dispatch (s : Schedule) (k count : Nat) : Schedule :=
  (List.range count).foldl (fun s i => (s.act (.spawn k)).wake (.worker k i)) s

/-- Lists the containers and dispatches the workers, in the order of the
listing. The time of the collection runs from here. -/
def list (s : Schedule) (k : Nat) : Schedule :=
  let (containers, trace) := s.backend.listing
  let s := (s.record trace).act (.move k (.listed containers))
  match s.phase? k with
  | some (.dispatching left) =>
    let s := (s.dispatch k left.length).act (.move k .collect)
    match s.cycle? k with
    | some c =>
      -- The timer starts when all workers have been dispatched.
      let due := s.now + c.limit
      let s := s.setTimer due (.cycle k)
      { s with deadlines := s.deadlines ++ [⟨due, k⟩] }
    | none => s
  | _ => s

/-- Whether the time of a cycle's collection is over. -/
def isOverdue (s : Schedule) (k : Nat) : Bool :=
  s.deadlines.any fun t => t.what == k && t.due ≤ s.now

/-- The worker of a cycle whose end is taken note of next. -/
def nextEnding? (s : Schedule) (k : Nat) : Option Nat :=
  (s.endings.find? fun e => e.1 == k).map (·.2)

/-- A cycle has used up its turn. It becomes ready again behind the
others, and the worker whose end it would have taken note of is put last. -/
def yieldTurn (s : Schedule) (k : Nat) : Schedule :=
  match s.phase? k with
  | some .joining =>
    match s.nextEnding? k with
    | some i => { s with endings := s.endings.erase (k, i) ++ [(k, i)] }.wake (.cycle k)
    | none => s.act (.move k .finish)
  | some _ => s.wake (.cycle k)
  | none => s

/-- Gives the thread to a cycle that may do so many more operations in
this turn. Time is looked at before a report, so a report that comes
when time is over is late. -/
def turnOfCycle (k : Nat) : Nat → Schedule → Schedule
  | 0, s => s.yieldTurn k
  | allowance + 1, s =>
    match s.cycle? k with
    | none => s
    | some c =>
      match c.phase with
      | .collecting _ _ =>
        -- The deadline comes before a report that is there already.
        if s.isOverdue k then turnOfCycle k allowance (s.act (.move k .expire))
        else if c.reports.isEmpty then s
        else turnOfCycle k allowance (s.act (.move k .receive))
      | .delivering _ =>
        let s := s.act (.deliver k)
        match s.phase? k with
        -- There was no room, and the cycle waits until it is woken.
        | some (.delivering _) => s
        | _ => turnOfCycle k allowance s
      | .joining =>
        match s.nextEnding? k with
        | some i =>
          turnOfCycle k allowance
            ({ s with endings := s.endings.erase (k, i) }.act (.move k (.join i)))
        | none => s.act (.move k .finish)
      | _ => s

/-- Gives a cycle the thread. -/
def runCycle (s : Schedule) (k : Nat) : Schedule :=
  match s.phase? k with
  -- The first turn of a cycle begins with the listing.
  | some .listing => turnOfCycle k turnAllowance (s.list k)
  | _ => turnOfCycle k turnAllowance s

end NpuAttribution.Poll.Schedule
