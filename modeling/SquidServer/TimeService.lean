import SquidServer.Interaction
import SquidServer.Wire
import SquidServer.CText

namespace SquidServer.TimeService
open Interaction Wire CText
set_option autoImplicit true

abbrev squidTimeProtocolVersion : UInt8 := 1
abbrev squidTimeOpCapabilities : UInt8 := 0x00
abbrev squidTimeOpGet : UInt8 := 0x01
abbrev squidTimeResponseBit : UInt8 := 0x80

inductive SquidTimeStatus where
  | ok | badRequest | unavailable
deriving DecidableEq

def SquidTimeStatus.code : SquidTimeStatus → UInt8
  | .ok => 0x00
  | .badRequest => 0x01
  | .unavailable => 0x02

abbrev squidTimeModeUtc : UInt8 := 0x00
abbrev squidTimeModeLocal : UInt8 := 0x01

abbrev squidTimeFeatureUtc : UInt8 := 0x01
abbrev squidTimeFeatureLocal : UInt8 := 0x02
abbrev squidTimeFeatureUnix : UInt8 := 0x04

abbrev squidTimeWeekdayMask : UInt8 := 0x07
abbrev squidTimeDstBit : UInt8 := 0x80
abbrev squidTimeUnixUnknown : UInt32 := 0xFFFFFFFF
abbrev squidTimeReplySize : Nat := 16

/-- `struct tm`, less the day of the year. -/
structure Tm where
  tmSec : Int
  tmMin : Int
  tmHour : Int
  tmMday : Int
  tmMon : Int
  tmYear : Int
  tmWday : Int
  tmIsdst : Int
deriving DecidableEq

/-- The clock and the calendar of the C library. `strftimeZone` is `strftime` with the format
`%z`; its answer is empty where the text does not fit the buffer. -/
inductive Call where
  | time
  | gmtimeR (now : Int)
  | localtimeR (now : Int)
  | strftimeZone (localTime : Tm)
deriving DecidableEq

abbrev Call.Ans : Call → Type
  | .time => Int
  | .gmtimeR _ => Option Tm
  | .localtimeR _ => Option Tm
  | .strftimeZone _ => List UInt8

abbrev Clock : Effect := ⟨Call, Call.Ans⟩

def time : Program Clock Int := .ask (E := Clock) Call.time

def gmtimeR (now : Int) : Program Clock (Option Tm) := .ask (E := Clock) (Call.gmtimeR now)

def localtimeR (now : Int) : Program Clock (Option Tm) := .ask (E := Clock) (Call.localtimeR now)

def strftimeZone (localTime : Tm) : Program Clock (List UInt8) :=
  .ask (E := Clock) (Call.strftimeZone localTime)

def writeI16 (value : Int16) : List UInt8 := writeU16 value.toUInt16

def writeStatus (opcode : UInt8) (status : SquidTimeStatus) (responseCapacity : Nat) : Response :=
  if responseCapacity < 2 then none else some [opcode ||| squidTimeResponseBit, status.code]

/-- The value of two decimal digits. -/
def twoDigits (tens ones : UInt8) : Nat := (tens.toNat - 0x30) * 10 + (ones.toNat - 0x30)

/-- `parse_utc_offset`, for the text that `strftime` gives. -/
def parseUtcOffset : List UInt8 → Option Int16
  | [sign, c₁, c₂, c₃, c₄] =>
    if ¬ (sign = 0x2B ∨ sign = 0x2D) ∨
        ¬ (isDigit c₁ ∧ isDigit c₂ ∧ isDigit c₃ ∧ isDigit c₄) then none
    else
      let hours := twoDigits c₁ c₂
      let minutes := twoDigits c₃ c₄
      if 23 < hours ∨ 59 < minutes then none
      else
        let total : Int := (if sign = 0x2D then -1 else 1) * (hours * 60 + minutes : Nat)
        if total < -32768 ∨ 32767 < total then none else some (.ofInt total)
  | _ => none

def handleCapabilities (opcode : UInt8) (responseCapacity : Nat) : Response :=
  if responseCapacity < 5 then none
  else some [opcode ||| squidTimeResponseBit, SquidTimeStatus.ok.code, squidTimeProtocolVersion,
    squidTimeFeatureUtc ||| squidTimeFeatureLocal ||| squidTimeFeatureUnix,
    UInt8.ofNat squidTimeReplySize]

/-- The broken-down time of a mode, and the offset from UTC. -/
def breakDown (mode : UInt8) (now : Int) : Program Clock (Option (Tm × Int16)) := do
  if mode = squidTimeModeUtc then
    return (← gmtimeR now).map fun brokenDown => (brokenDown, 0)
  else
    match ← localtimeR now with
    | none => return none
    | some brokenDown =>
      return (parseUtcOffset (← strftimeZone brokenDown)).map fun offset => (brokenDown, offset)

/-- The seconds of the epoch, where they fit a 32-bit field. -/
def unixTime (now : Int) : UInt32 :=
  if 0 ≤ now ∧ now ≤ 0xFFFFFFFF then UInt32.ofNat now.toNat else squidTimeUnixUnknown

/-- The byte with the day of the week and the mark for daylight saving time. -/
def weekdayByte (mode : UInt8) (brokenDown : Tm) : UInt8 :=
  let weekday := UInt8.ofInt brokenDown.tmWday &&& squidTimeWeekdayMask
  if mode = squidTimeModeLocal ∧ 0 < brokenDown.tmIsdst then weekday ||| squidTimeDstBit
  else weekday

def getResponse (opcode mode : UInt8) (now : Int) (brokenDown : Tm) (utcOffset : Int16) :
    List UInt8 :=
  [opcode ||| squidTimeResponseBit, SquidTimeStatus.ok.code] ++
    writeU16 (UInt16.ofInt (brokenDown.tmYear + 1900)) ++
    [UInt8.ofInt (brokenDown.tmMon + 1), UInt8.ofInt brokenDown.tmMday,
      UInt8.ofInt brokenDown.tmHour, UInt8.ofInt brokenDown.tmMin, UInt8.ofInt brokenDown.tmSec,
      weekdayByte mode brokenDown] ++
    writeI16 utcOffset ++ writeU32 (unixTime now)

def handleGet (opcode mode : UInt8) (responseCapacity : Nat) : Program Clock Response := do
  let now ← time
  if responseCapacity < squidTimeReplySize then return none
  else if now = -1 then return writeStatus opcode .unavailable responseCapacity
  else
    match ← breakDown mode now with
    | none => return writeStatus opcode .unavailable responseCapacity
    | some (brokenDown, utcOffset) =>
      return some (getResponse opcode mode now brokenDown utcOffset)

/-- `handle_squid_time_request` for a request and a response that are not NULL. -/
def handleSquidTimeRequest (request : List UInt8) (responseCapacity : Nat) :
    Program Clock Response :=
  match request with
  | [] => return none
  | opcode :: _ =>
    if responseCapacity < 2 then return none
    else if opcode = squidTimeOpCapabilities then
      if request.length ≠ 1 then return writeStatus opcode .badRequest responseCapacity
      else return handleCapabilities opcode responseCapacity
    else if opcode = squidTimeOpGet then
      let mode := byteAt request 1
      if request.length ≠ 2 ∨ mode ≠ squidTimeModeUtc ∧ mode ≠ squidTimeModeLocal then
        return writeStatus opcode .badRequest responseCapacity
      else handleGet opcode mode responseCapacity
    else return writeStatus opcode .badRequest responseCapacity

end SquidServer.TimeService
