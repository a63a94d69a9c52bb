import KubeCenter.Lib.Go

/-! # Expected runs of a cron expression

`parseCron` and `expectedRunsSince` of `assurance.go`. The cron library is a
parameter: an expression that parses is a value with a `Next`. -/
namespace KubeCenter.Velero

open Lib.Go

/-- The next activation after an instant, the zero time when there is none, and the offset from
UTC, in seconds, of the zone whose wall clock it reads. -/
structure Cron where
  next : Time → Time
  location : Option (Time → Int)
  next_after : ∀ t, next t ≠ zeroTime → t < next t

structure Libraries where
  sha256Hex : String → String
  parseStandard : String → Except String Cron

def expectedRunLookback : Duration := 35 * 24 * hour
def maxExpectedRunSteps : Nat := 2000

def errCronZoneOnly : String := "time zone prefix is not followed by a schedule"

/-- A zone with no schedule after it is refused before the library sees it. -/
def parseCron (lib : Libraries) (expr : String) : Except String Cron :=
  if ("TZ=".toList.isPrefixOf expr.toList || "CRON_TZ=".toList.isPrefixOf expr.toList) &&
      !expr.toList.contains ' ' then
    .error errCronZoneOnly
  else lib.parseStandard expr

def wallMinute (offset : Time → Int) (t : Time) : Int := (t + offset t * second) / (60 * second)

def repeatedWallClock (sched : Cron) (t : Time) : Bool :=
  let offset := sched.location.getD fun _ => 0
  wallMinute offset t = wallMinute offset (t - hour)

/-- The steps left, the instant reached and the last expected run seen. -/
def expectedRunsLoop (sched : Cron) (now : Time) : Nat → Time → Time → Option Time
  | 0, _, _ => none
  | steps + 1, t, last =>
    let next := sched.next t
    if next = zeroTime then none
    else if next > now then some last
    else expectedRunsLoop sched now steps next (if repeatedWallClock sched next then last else next)

/-- After `anchor` and not after `now`, the zero time if there is none; no answer when it is not
computable. -/
def expectedRunsSince (sched : Cron) (anchor now : Time) (maxSteps : Nat) : Option Time :=
  if now.sub anchor > expectedRunLookback then none
  else expectedRunsLoop sched now maxSteps anchor zeroTime

end KubeCenter.Velero
