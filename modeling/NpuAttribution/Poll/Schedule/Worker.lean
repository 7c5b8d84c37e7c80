import NpuAttribution.Poll.Schedule.Basic

/-!
# `NpuAttribution.Poll.Schedule.Worker`: what a worker does with the thread

A worker asks for a permit and begins its inspection as soon as it has one. If the
inspection takes time the worker gives the thread back until it is over. Then it returns
the permit and reports, in this order, so the worker that gets the permit is ready
before the collector is.
-/

set_option autoImplicit false

namespace NpuAttribution.Poll.Schedule

/-- A worker whose inspection is over returns its permit, reports, and
is no more. -/
def leave (s : Schedule) (k i : Nat) : Schedule :=
  -- The worker that will get the permit is known before it is returned.
  let next := (s.cycle? k).bind fun c => c.queue.head?
  let s := s.act (.move k (.release i))
  let s := match next with
    | some j => s.wake (.worker k j)
    | none => s
  let s := s.act (.move k (.report i))
  { s with endings := s.endings ++ [(k, i)] }.wake (.cycle k)

/-- A worker's inspection is over. -/
def conclude (s : Schedule) (k i : Nat) (w : Worker) (found : Found) : Schedule :=
  let (o, lines) := Outcome.ofFound s.majors w.container found
  let s := { s with inFlight := s.inFlight - 1 }.act (.note lines)
  (s.act (.move k (.conclude i o))).leave k i

/-- A worker's inspection has begun and is counted. -/
def counted (s : Schedule) (k i : Nat) (trace : Trace) : Schedule :=
  let s := (s.act (.move k (.begin i))).record trace
  { s with
    inspected := s.inspected + 1
    inFlight := s.inFlight + 1
    maxInFlight := max s.maxInFlight (s.inFlight + 1) }

/-- A worker's inspection goes on until later. -/
def pend (s : Schedule) (due : Nat) (pending : Pending) : Schedule :=
  { s with inspections := Timed.insert ⟨due, pending⟩ s.inspections }.setTimer due
    (.worker pending.cycle pending.worker)

/-- A worker that has a permit begins its inspection. An inspection that
takes no time is over at once. -/
def begin (s : Schedule) (k i : Nat) (w : Worker) : Schedule :=
  let inspection := s.backend.inspect w.container
  let s := s.counted k i inspection.trace
  -- Nothing has to be waited for, so the worker goes on in the same turn.
  if inspection.delay = 0 then s.conclude k i w inspection.found
  else s.pend (s.now + inspection.delay) ⟨k, i, inspection.found⟩

/-- The inspection of a worker that is going on but due. -/
def dueInspection? (s : Schedule) (k i : Nat) : Option (Timed Pending) :=
  s.inspections.find? fun t => t.due ≤ s.now && t.what.cycle == k && t.what.worker == i

/-- Gives a worker the thread. -/
def runWorker (s : Schedule) (k i : Nat) : Schedule :=
  match s.worker? k i with
  | none => s
  | some w =>
    match w.stage with
    | .dispatched =>
      let s := s.act (.move k (.ask i))
      -- It may have to wait for a permit, and is then woken later.
      if (s.cycle? k).bind (·.stage? i) = some .admitted then s.begin k i w else s
    | .admitted => s.begin k i w
    | .inspecting =>
      match s.dueInspection? k i with
      | some t =>
        -- The inspection has ended and is no longer pending.
        let inspections := s.inspections.filter fun u =>
          !(u.what.cycle == k && u.what.worker == i)
        { s with inspections }.conclude k i w t.what.found
      | none => s
    | _ => s

end NpuAttribution.Poll.Schedule
