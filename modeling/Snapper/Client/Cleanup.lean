import Mathlib.Algebra.Group.Int.Defs
import Mathlib.Algebra.Group.Nat.Defs
import Snapper.Base.Number
import Snapper.Client.Types

/-!
# The cleanup algorithms

The client lists the snapshots of a config, selects some and requests their deletion, one
request for each.  The functions give the selected snapshots; `none` is the end of the
program in `throw` without an exception.

The current time and the time zone are parameters: `now` is what `time` returns, and
`localtime` what `localtime_r` fills in.
-/

namespace Snapper

/-! ## Configuration -/

/-- `if ((pos = ci.raw.find(key)) != ci.raw.end()) pos->second >> v`, where `v` has its default
before.  The stream leaves it there if the value is blank. -/
def configured {α : Type} (raw : StrMap) (key : String) (extract : Str → α → α) (default : α) : α :=
  (raw.find (str key)).elim default fun value => extract value default

/-- What `do_cleanup_number` reads from the config. -/
structure NumberConfig where
  minAge : Int
  limit : Nat

def NumberConfig.ofRaw (raw : StrMap) : NumberConfig :=
  { minAge := configured raw "NUMBER_MIN_AGE" extractTime 1800
    limit := configured raw "NUMBER_LIMIT" extractSize 50 }

/-- The kinds of snapshots that the timeline keeps, in the order of its tests. -/
inductive Period where
  | hourly | daily | monthly | yearly
  deriving DecidableEq, Repr

/-- The kinds in the order in which they are tried for a snapshot. -/
def Period.all : List Period := [.hourly, .daily, .monthly, .yearly]

/-- What `do_cleanup_timeline` reads from the config: the minimum age and one limit for each kind
of date. -/
structure TimelineConfig where
  minAge : Int
  limit : Period → Nat

def TimelineConfig.ofRaw (raw : StrMap) : TimelineConfig :=
  { minAge := configured raw "TIMELINE_MIN_AGE" extractTime 1800
    limit := fun
      | .hourly => configured raw "TIMELINE_LIMIT_HOURLY" extractSize 10
      | .daily => configured raw "TIMELINE_LIMIT_DAILY" extractSize 10
      | .monthly => configured raw "TIMELINE_LIMIT_MONTHLY" extractSize 10
      | .yearly => configured raw "TIMELINE_LIMIT_YEARLY" extractSize 10 }

structure EmptyPrePostConfig where
  minAge : Int

def EmptyPrePostConfig.ofRaw (raw : StrMap) : EmptyPrePostConfig :=
  { minAge := configured raw "EMPTY_PRE_POST_MIN_AGE" extractTime 1800 }

/-! ## Filters -/

/-- `younger_than(t)` -/
def youngerThan (t : Int) (s : XSnapshot) : Bool := s.date > t

/-- Removes snapshots younger than `minAge`. -/
def filter1 (tmp : List XSnapshot) (minAge now : Int) : List XSnapshot :=
  tmp.filter fun s => !youngerThan (now - minAge) s

/-- Whether the corresponding snapshot, if there is one, is in `tmp`. -/
def partnerIn (tmp : List XSnapshot) : Option XSnapshot → Bool
  | none => true
  | some s => s ∈ tmp

/-- The body of the loop of `filter2`: whether the snapshot stays. -/
def filter2Keeps (snapshots : XSnapshots) (tmp : List XSnapshot) (s : XSnapshot) : Option Bool :=
  match s.type with
  | .SINGLE => some true
  | .PRE => (snapshots.findPost s).map (partnerIn tmp)
  | .POST => (snapshots.findPre s).map (partnerIn tmp)

/-- The loop of `filter2` over what is left of `tmp`. -/
def filter2Loop (snapshots : XSnapshots) (tmp : List XSnapshot) :
    List XSnapshot → Option (List XSnapshot)
  | [] => some []
  | it1 :: rest => do
    let stays ← filter2Keeps snapshots tmp it1
    let ret ← filter2Loop snapshots tmp rest
    return if stays then it1 :: ret else ret

/-- Removes pre and post snapshots that do have a corresponding snapshot which is not
included in `tmp`. -/
def filter2 (snapshots : XSnapshots) (tmp : List XSnapshot) : Option (List XSnapshot) :=
  filter2Loop snapshots tmp tmp

/-! ## Number -/

/-- `do_cleanup_number`: the oldest snapshots beyond the limit are the candidates. -/
def doCleanupNumber (config : NumberConfig) (now : Int) (snapshots : XSnapshots) :
    Option (List XSnapshot) :=
  let tmp := snapshots.entries.filter fun s => s.cleanup = str "number"
  if tmp.length > config.limit then
    filter2 snapshots (filter1 (tmp.take (tmp.length - config.limit)) config.minAge now)
  else some []

/-! ## Timeline -/

/-- The fields of a `struct tm` that are compared. -/
structure Tm where
  year : Int
  mon : Int
  mday : Int
  hour : Int

def equalYear (tmp1 tmp2 : Tm) : Bool := tmp1.year = tmp2.year

def equalMonth (tmp1 tmp2 : Tm) : Bool := equalYear tmp1 tmp2 && tmp1.mon = tmp2.mon

def equalDay (tmp1 tmp2 : Tm) : Bool := equalMonth tmp1 tmp2 && tmp1.mday = tmp2.mday

def equalHour (tmp1 tmp2 : Tm) : Bool := equalDay tmp1 tmp2 && tmp1.hour = tmp2.hour

section Timeline

variable (localtime : Int → Tm)

/-- `is_first`: whether `it1` is the first of its period among the snapshots from `first`
on, which go back in time. -/
def isFirst (it1 : XSnapshot) (pred : Tm → Tm → Bool) : List XSnapshot → Bool
  | [] => true
  | it2 :: first =>
    if it1 = it2 then isFirst it1 pred first
    else if !pred (localtime it1.date) (localtime it2.date) then true
    else if it1.date > it2.date then false
    else isFirst it1 pred first

def isFirstYearly (first : List XSnapshot) (it1 : XSnapshot) : Bool :=
  isFirst localtime it1 equalYear first

def isFirstMonthly (first : List XSnapshot) (it1 : XSnapshot) : Bool :=
  isFirst localtime it1 equalMonth first

def isFirstDaily (first : List XSnapshot) (it1 : XSnapshot) : Bool :=
  isFirst localtime it1 equalDay first

def isFirstHourly (first : List XSnapshot) (it1 : XSnapshot) : Bool :=
  isFirst localtime it1 equalHour first

/-- The branch the loop takes for the snapshot `it`: `num` is what is counted so far, and
`first` are the snapshots from `it` on. -/
def branch (limit num : Period → Nat) (first : List XSnapshot) (it : XSnapshot) : Option Period :=
  if num .hourly < limit .hourly ∧ isFirstHourly localtime first it then some .hourly
  else if num .daily < limit .daily ∧ isFirstDaily localtime first it then some .daily
  else if num .monthly < limit .monthly ∧ isFirstMonthly localtime first it then some .monthly
  else if num .yearly < limit .yearly ∧ isFirstYearly localtime first it then some .yearly
  else none

/-- The loop over the snapshots from the newest to the oldest: what it does not erase. -/
def timelineLoop (limit : Period → Nat) : (Period → Nat) → List XSnapshot → List XSnapshot
  | _, [] => []
  | num, it :: rest =>
    match branch localtime limit num (it :: rest) it with
    | some k => timelineLoop limit (Function.update num k (num k + 1)) rest
    | none => it :: timelineLoop limit num rest

/-- The timeline snapshots, from the newest to the oldest. -/
def timelineSnapshots (snapshots : XSnapshots) : List XSnapshot :=
  (snapshots.entries.filter fun s => s.cleanup = str "timeline").reverse

/-- `do_cleanup_timeline`: what is kept for no kind of date is a candidate. -/
def doCleanupTimeline (config : TimelineConfig) (now : Int) (snapshots : XSnapshots) :
    Option (List XSnapshot) :=
  let tmp := timelineLoop localtime config.limit (fun _ => 0) (timelineSnapshots snapshots)
  filter2 snapshots (filter1 tmp.reverse config.minAge now)

end Timeline

/-! ## Empty pre and post -/

/-- A file of a comparison as the client gets it. -/
structure XFile where
  name : Str
  status : Nat
  deriving DecidableEq

section EmptyPrePost

variable {m : Type → Type} [Monad m]

/-- The loop over the snapshots of `do_cleanup_empty_pre_post`: `getFiles` is the request for
a comparison and then for its files, and `thrown` the end of the program in `throw`. -/
def emptyPairs (thrown : m (List XSnapshot)) (getFiles : Nat → Nat → m (List XFile))
    (snapshots : XSnapshots) :
    List XSnapshot → m (List XSnapshot)
  | [] => pure []
  | it1 :: rest =>
    if it1.type = .PRE then
      match snapshots.findPost it1 with
      | none => thrown
      | some none => emptyPairs thrown getFiles snapshots rest
      | some (some it2) => do
        let files ← getFiles it1.num it2.num
        let tmp ← emptyPairs thrown getFiles snapshots rest
        return if files.isEmpty then it1 :: it2 :: tmp else tmp
    else emptyPairs thrown getFiles snapshots rest

/-- `do_cleanup_empty_pre_post`: the candidates are the pairs whose comparison has no file. -/
def doCleanupEmptyPrePost (thrown : m (List XSnapshot)) (getFiles : Nat → Nat → m (List XFile))
    (config : EmptyPrePostConfig) (now : Int) (snapshots : XSnapshots) : m (List XSnapshot) := do
  let tmp ← emptyPairs thrown getFiles snapshots snapshots.entries
  match filter2 snapshots (filter1 tmp config.minAge now) with
  | none => thrown
  | some tmp => pure tmp

end EmptyPrePost

end Snapper
