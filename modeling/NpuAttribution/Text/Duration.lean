/-!
# `NpuAttribution.Text.Duration`: how a time limit is written

Time limits are whole numbers of milliseconds. A report writes them in seconds
from one second on, with as many decimals as are needed and no more, and in
milliseconds below that. An empty time limit is written `0ns`.
-/

set_option autoImplicit false

namespace NpuAttribution.Text

/-- The decimals of `ms` thousandths after the point, with no zero at
the end; nothing at all, not even the point, for zero thousandths. -/
def thousandths (ms : Nat) : String :=
  let digits := [ms / 100 % 10, ms / 10 % 10, ms % 10]
  -- Zeros at the end are dropped, but those in front of another digit stay.
  let kept := (digits.reverse.dropWhile (· == 0)).reverse
  if kept.isEmpty then "" else "." ++ String.join (kept.map toString)

/-- The written form of a time limit of `ms` milliseconds. -/
def duration (ms : Nat) : String :=
  if ms = 0 then "0ns"
  else if ms < 1000 then toString ms ++ "ms"
  else toString (ms / 1000) ++ thousandths (ms % 1000) ++ "s"

end NpuAttribution.Text
