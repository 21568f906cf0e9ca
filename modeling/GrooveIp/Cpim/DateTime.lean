import GrooveIp.Lib.Calendar
import GrooveIp.Lib.Digits
import Mathlib.Logic.Function.Basic

/-!
# The DateTime header of CPIM

The DateTime header of a CPIM message, `src/submodules/linphone/src/chat/cpim`: the nodes that the
collectors of the parser fill (`parser/cpim-parser.cpp`), the check on them, the header that comes
of it (`header/cpim-core-headers.cpp`) and the two conversions of `utils/utils.cpp`. `mktime` and
`gmtime` are those of the C library in a zone whose standard time is `timezone` seconds behind UTC.
A date-time text is given by the pieces the rule `date-time` of `parser/cpim-rules` cuts it into.
-/

namespace GrooveIp.Cpim

open Lib

/-! ## Times of the C library -/

/-- `struct tm`, as far as it is read. -/
structure Tm where
  tmYear : Int
  tmMon : Int
  tmMday : Int
  tmHour : Int
  tmMin : Int
  tmSec : Int
  tmIsdst : Int
  deriving DecidableEq, Repr

/-- A `struct tm` of zeros. -/
def Tm.zero : Tm := ⟨0, 0, 0, 0, 0, 0, 0⟩

/-- The seconds of the clock. -/
def Tm.clock (tm : Tm) : Int := 3600 * tm.tmHour + 60 * tm.tmMin + tm.tmSec

/-- `timegm`: no field needs to be in its range. -/
def timegm (tm : Tm) : Int :=
  86400 * dayNumber (tm.tmYear + 1900 + tm.tmMon / 12) (tm.tmMon % 12).toNat tm.tmMday + tm.clock

variable (timezone : Int)

/-- `mktime` for standard time. -/
def mktime (tm : Tm) : Int := timegm tm + timezone

/-- `gmtime`. -/
def gmtime (time : Int) : Tm :=
  let date := Date.ofNumber (time / 86400)
  let clock := time % 86400
  { tmYear := date.year - 1900
    tmMon := date.month
    tmMday := date.day
    tmHour := clock / 3600
    tmMin := clock % 3600 / 60
    tmSec := clock % 60
    tmIsdst := 0 }

/-- `Utils::getTimeTAsTm`; utils.cpp:190. -/
def getTimeTAsTm (time : Int) : Tm := gmtime time

/-- `Utils::getTmAsTimeT`, as it is built for devices; utils.cpp:199. -/
def getTmAsTimeT (tm : Tm) : Int :=
  let result := mktime timezone tm
  if result = -1 then -1 else result - timezone

/-! ## The header -/

/-- The members of `DateTimeHeaderPrivate`; cpim-core-headers.cpp:91. -/
structure DateTimeHeader where
  dateTime : Tm
  dateTimeOffset : Tm
  signOffset : List Char
  deriving DecidableEq, Repr

/-- `DateTimeHeader::DateTimeHeader(time_t)` with `setTime`; `unset` is what the offset holds that
nobody sets. -/
def DateTimeHeader.ofTime (unset : Tm) (time : Int) : DateTimeHeader :=
  let tm := getTimeTAsTm time
  { dateTime := { tm with tmYear := tm.tmYear + 1900 }
    dateTimeOffset := unset
    signOffset := ['Z'] }

/-- The loop that carries minutes over into the hours; cpim-core-headers.cpp:119. -/
def carryMinutes (tm : Tm) : Tm :=
  if tm.tmMin > 59 then carryMinutes { tm with tmHour := tm.tmHour + 1, tmMin := tm.tmMin - 60 }
  else tm
  termination_by tm.tmMin.toNat
  decreasing_by omega

/-- The loop that borrows minutes from the hours; cpim-core-headers.cpp:128. -/
def borrowMinutes (tm : Tm) : Tm :=
  if tm.tmMin < 0 then borrowMinutes { tm with tmHour := tm.tmHour - 1, tmMin := tm.tmMin + 60 }
  else tm
  termination_by (-tm.tmMin).toNat
  decreasing_by omega

/-- `DateTimeHeader::getTime`; cpim-core-headers.cpp:108. With a minus sign the minutes of the
offset are taken from the hours. -/
def DateTimeHeader.getTime (d : DateTimeHeader) : Int :=
  let result := { d.dateTime with tmYear := d.dateTime.tmYear - 1900, tmIsdst := 0 }
  let result :=
    if d.signOffset = ['+'] then
      carryMinutes { result with
        tmHour := result.tmHour + d.dateTimeOffset.tmHour
        tmMin := result.tmMin + d.dateTimeOffset.tmMin }
    else if d.signOffset = ['-'] then
      borrowMinutes { result with
        tmHour := result.tmHour - d.dateTimeOffset.tmHour - d.dateTimeOffset.tmMin }
    else result
  getTmAsTimeT timezone result

/-- `<< setfill('0') << setw(width)` of a number. -/
def setw (width : Nat) (z : Int) : List Char := printPadded width z

/-- `DateTimeHeader::getValue`; cpim-core-headers.cpp:153. -/
def DateTimeHeader.getValue (d : DateTimeHeader) : List Char :=
  setw 4 d.dateTime.tmYear ++ '-' :: setw 2 (d.dateTime.tmMon + 1) ++
    '-' :: setw 2 d.dateTime.tmMday ++ 'T' :: setw 2 d.dateTime.tmHour ++
    ':' :: setw 2 d.dateTime.tmMin ++ ':' :: setw 2 d.dateTime.tmSec ++ d.signOffset ++
    if d.signOffset = ['Z'] then []
    else setw 2 d.dateTimeOffset.tmHour ++ ':' :: setw 2 d.dateTimeOffset.tmMin

/-! ## The nodes of the parser -/

/-- `Utils::stoi`. -/
def stoi (value : List Char) : Int := atoi value

/-- `DateTimeOffsetNode`; cpim-parser.cpp:226. -/
structure DateTimeOffsetNode where
  sign : List Char
  hour : Int
  minute : Int

/-- A new `DateTimeOffsetNode`, whose numbers nobody sets. -/
def DateTimeOffsetNode.new (unset : Tm) : DateTimeOffsetNode := ⟨['Z'], unset.tmHour, unset.tmMin⟩

/-- `DateTimeHeaderNode`; cpim-parser.cpp:252. -/
structure DateTimeHeaderNode where
  time : Tm
  timeOffset : Tm
  signOffset : List Char

/-- The number of days of a month in the table of `isValid`, whose index is the month from zero. -/
def daysInMonth (mon : Int) : Except Fault Int :=
  match [31, 28, 31, 30, 31, 30, 31, 31, 30, 31, 30, 31][mon.toNat]? with
  | some days => .ok days
  | none => .error .outOfBounds

/-- `DateTimeHeaderNode::isValid`; cpim-parser.cpp:329. The month is counted from zero here. -/
def DateTimeHeaderNode.isValid (node : DateTimeHeaderNode) : Except Fault Bool := do
  -- Check date.
  let isLeapYear := (node.time.tmYear % 4 == 0 && node.time.tmYear % 100 != 0) ||
    node.time.tmYear % 400 == 0
  if node.time.tmMon < 1 ∨ node.time.tmMon > 12 then return false
  if node.time.tmMday < 1 then return false
  let days ←
    if node.time.tmMon = 2 ∧ isLeapYear = true then pure 29 else daysInMonth node.time.tmMon
  if node.time.tmMday > days then return false
  -- Check time.
  if node.time.tmHour > 24 ∨ node.time.tmMin > 59 ∨ node.time.tmSec > 60 then return false
  -- Check num offset.
  if node.signOffset ≠ ['Z'] then
    if node.timeOffset.tmHour > 24 ∨ node.time.tmMin > 59 then return false
  return true

/-- `DateTimeHeaderNode::createHeader`; cpim-parser.cpp:354. -/
def DateTimeHeaderNode.createHeader (node : DateTimeHeaderNode) :
    Except Fault (Option DateTimeHeader) := do
  if ← node.isValid then return some ⟨node.time, node.timeOffset, node.signOffset⟩
  return none

/-- `Parser::cloneHeader` of a DateTime header; cpim-parser.cpp:686. -/
def cloneHeader (header : DateTimeHeader) : Except Fault (Option DateTimeHeader) :=
  DateTimeHeaderNode.createHeader ⟨header.dateTime, header.dateTimeOffset, header.signOffset⟩

/-- The headers of a message, a list for each name space. -/
abbrev MessageHeaders := List Char → Option (List DateTimeHeader)

/-- `Message::addMessageHeader`; cpim-message.cpp:61. -/
def addMessageHeader (messageHeaders : MessageHeaders) (messageHeader : DateTimeHeader)
    (ns : List Char) : Except Fault (Bool × MessageHeaders) := do
  match ← cloneHeader messageHeader with
  | none => return (false, messageHeaders)
  | some header =>
    return (true, Function.update messageHeaders ns
      (some ((messageHeaders ns).getD [] ++ [header])))

/-! ## Date-time texts -/

/-- A letter of the rules, in either case. -/
def Letter (c : Char) : Type := { d : Char // d.toLower = c.toLower }

/-- `time-sign`. -/
inductive TimeSign where
  | plus
  | minus
  deriving DecidableEq

/-- The text of a sign. -/
def TimeSign.text : TimeSign → List Char
  | .plus => ['+']
  | .minus => ['-']

/-- `time-offset`. -/
inductive TimeOffset where
  | zulu (letter : Letter 'Z')
  | num (sign : TimeSign) (hour minute : Digits 2)

/-- The text of an offset. -/
def TimeOffset.text : TimeOffset → List Char
  | .zulu letter => [letter.val]
  | .num sign hour minute => sign.text ++ hour.chars ++ ':' :: minute.chars

/-- The digits of `time-secfrac`, of which there is one at least. -/
structure SecFrac where
  chars : List Char
  ne_nil : chars ≠ []
  isDigit : ∀ c ∈ chars, c.isDigit = true

/-- A text of the rule `date-time`, in its pieces; cpim-rules:134. -/
structure DateTimeText where
  year : Digits 4
  month : Digits 2
  mday : Digits 2
  letter : Letter 'T'
  hour : Digits 2
  minute : Digits 2
  second : Digits 2
  fraction : Option SecFrac
  offset : TimeOffset

/-- The text that is put together of the pieces. -/
def DateTimeText.text (d : DateTimeText) : List Char :=
  d.year.chars ++ '-' :: d.month.chars ++ '-' :: d.mday.chars ++ d.letter.val :: d.hour.chars ++
    ':' :: d.minute.chars ++ ':' :: d.second.chars ++
    (d.fraction.elim [] fun f => '.' :: f.chars) ++ d.offset.text

/-- What the collectors of the handler `time-offset` put together; cpim-parser.cpp:638. -/
def TimeOffset.collect (unset : Tm) : TimeOffset → DateTimeOffsetNode
  | .zulu _ => .new unset
  | .num sign hour minute => ⟨sign.text, stoi hour.chars, stoi minute.chars⟩

/-- What the collectors of the handler `DateTime-header` put together; cpim-parser.cpp:629. -/
def DateTimeText.collect (unset : Tm) (d : DateTimeText) : DateTimeHeaderNode :=
  let offset := d.offset.collect unset
  { time :=
      { Tm.zero with
        tmYear := stoi d.year.chars
        tmMon := stoi d.month.chars - 1
        tmMday := stoi d.mday.chars
        tmHour := stoi d.hour.chars
        tmMin := stoi d.minute.chars
        tmSec := stoi d.second.chars }
    timeOffset := { Tm.zero with tmHour := offset.hour, tmMin := offset.minute }
    signOffset := offset.sign }

/-! ## What a text denotes -/

variable (d : DateTimeText)

/-- The month from zero. -/
def DateTimeText.monthIndex : Nat := d.month.value - 1

/-- The calendar has the date. -/
def DateTimeText.DateExists : Prop :=
  1 ≤ d.month.value ∧ d.month.value ≤ 12 ∧ 1 ≤ d.mday.value ∧
    (d.mday.value : Int) ≤ monthLength d.year.value d.monthIndex

/-- The reading of the clock is in range. -/
def DateTimeText.ClockInRange : Prop :=
  d.hour.value ≤ 24 ∧ d.minute.value ≤ 59 ∧ d.second.value ≤ 60

/-- The hours of the offset are in range. -/
def TimeOffset.HoursInRange : TimeOffset → Prop
  | .zulu _ => True
  | .num _ hour _ => hour.value ≤ 24

/-- The minutes of the offset are in range. -/
def TimeOffset.MinutesInRange : TimeOffset → Prop
  | .zulu _ => True
  | .num _ _ minute => minute.value ≤ 59

/-- The text denotes an instant. -/
def DateTimeText.Denotes : Prop :=
  d.DateExists ∧ d.ClockInRange ∧ d.offset.HoursInRange ∧ d.offset.MinutesInRange

/-- The seconds of an offset, with its sign. -/
def TimeOffset.seconds : TimeOffset → Int
  | .zulu _ => 0
  | .num .plus hour minute => 3600 * hour.value + 60 * minute.value
  | .num .minus hour minute => -(3600 * hour.value + 60 * minute.value)

/-- The seconds of the date and the clock, with no regard to the offset. -/
def DateTimeText.localSeconds : Int :=
  86400 * dayNumber d.year.value d.monthIndex d.mday.value + 3600 * d.hour.value +
    60 * d.minute.value + d.second.value

/-- The instant of UTC that a text denotes. -/
def DateTimeText.instant : Int := d.localSeconds - d.offset.seconds

/-- The text without its fraction. -/
def DateTimeText.withoutFraction : List Char := { d with fraction := none }.text

end GrooveIp.Cpim
