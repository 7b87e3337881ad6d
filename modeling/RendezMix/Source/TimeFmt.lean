import RendezMix.Source.Strings

/-!
# Times as text

`tor_timegm` and `parse_iso_time` of `lib/encoding/time_fmt.c`, in a build without
`HAVE_TIMEGM`, where `tor_timegm` is `tor_timegm_impl`. The years that pass its checks
are below `INT32_MAX`, so no sum leaves `int64_t`; divisions and remainders are C's.
-/
namespace RendezMix.Source.TimeFmt
open Scanf

/-- `struct tm`, but for the fields `tor_timegm` ignores. -/
structure Tm where
  tmSec : Int
  tmMin : Int
  tmHour : Int
  tmMday : Int
  tmMon : Int
  tmYear : Int
  deriving DecidableEq

/-- `INT32_MAX` -/
def int32MaxYear : Int := 2 ^ 31 - 1

def isLeapyear (y : Int) : Bool :=
  y.tmod 4 == 0 && (y.tmod 100 != 0 || y.tmod 400 == 0)

def nLeapdays (year1 year2 : Int) : Int :=
  let year1 := year1 - 1
  let year2 := year2 - 1
  (year2.tdiv 4 - year1.tdiv 4) - (year2.tdiv 100 - year1.tdiv 100)
    + (year2.tdiv 400 - year1.tdiv 400)

def daysPerMonth : List Int := [31, 28, 31, 30, 31, 30, 31, 31, 30, 31, 30, 31]

/-- `year` of `tor_timegm_impl`, clamped. -/
def yearOf (tm : Tm) : Int :=
  if tm.tmYear < int32MaxYear - 1900 then tm.tmYear + 1900 else int32MaxYear

def invalidYear (tm : Tm) : Bool := yearOf tm < 1970 || tm.tmYear ≥ int32MaxYear - 1900

/-- `dpm` of `tor_timegm_impl`. -/
def daysInMonth (tm : Tm) : Int :=
  if 0 ≤ tm.tmMon ∧ tm.tmMon ≤ 11 then
    if tm.tmMon = 1 ∧ invalidYear tm = false ∧ isLeapyear tm.tmYear then 29
    else daysPerMonth.getD tm.tmMon.toNat 0
  else 0

/-- `tor_timegm_impl`: `*time_out`, or -1 with `*time_out` left at 0. -/
def torTimegmImpl (tm : Tm) : Option Int :=
  if invalidYear tm = true ∨ tm.tmMon < 0 ∨ 11 < tm.tmMon ∨
      tm.tmMday < 1 ∨ daysInMonth tm < tm.tmMday ∨ tm.tmHour < 0 ∨ 23 < tm.tmHour ∨
      tm.tmMin < 0 ∨ 59 < tm.tmMin ∨ tm.tmSec < 0 ∨ 60 < tm.tmSec then
    none
  else
    let year := yearOf tm
    let days := 365 * (year - 1970) + nLeapdays 1970 year
    let days := (daysPerMonth.take tm.tmMon.toNat).foldl (· + ·) days
    let days := if 1 < tm.tmMon ∧ isLeapyear year then days + 1 else days
    let days := days + (tm.tmMday - 1)
    let hours := days * 24 + tm.tmHour
    let minutes := hours * 60 + tm.tmMin
    let seconds := minutes * 60 + tm.tmSec
    some seconds

def torTimegm (tm : Tm) : Option Int := torTimegmImpl tm

/-- The pattern `"%u-%2u-%2u%c%2u:%2u:%2u%c"`. -/
def isoPattern : List Directive :=
  [.unsigned none, .literal 45, .unsigned (some 2), .literal 45, .unsigned (some 2), .char,
    .unsigned (some 2), .literal 58, .unsigned (some 2), .literal 58, .unsigned (some 2), .char]

/-- `parse_iso_time_(cp, t, strict, nospace)`. -/
def parseIsoTime_ (cp : CString) (strict nospace : Bool) : Option Int :=
  match torSscanf cp isoPattern with
  | .unsigned year :: .unsigned month :: .unsigned day :: .char separatorChar ::
      .unsigned hour :: .unsigned minute :: .unsigned second :: extraChar =>
    if strict = true ∧ extraChar ≠ [] then none
    else if separatorChar ≠ (if nospace then 84 else 32) then none
    else if year < 1970 ∨ month < 1 ∨ 12 < month ∨ day < 1 ∨ 31 < day ∨
        23 < hour ∨ 59 < minute ∨ 60 < second ∨ int32MaxYear ≤ year then none
    else if (year : Int) - 1900 < 70 then none
    else
      torTimegm {
        tmYear := year - 1900
        tmMon := (month : Int) - 1
        tmMday := day
        tmHour := hour
        tmMin := minute
        tmSec := second }
  | _ => none

def parseIsoTime (cp : CString) : Option Int := parseIsoTime_ cp true false

end RendezMix.Source.TimeFmt
