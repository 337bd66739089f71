import RealtimeGame.Library.Decimal
import RealtimeGame.Library.Utf8

/-!
# Common/Logging — the line that is written for a record

A line is `key=value` and a blank, again and again; a value that could be taken for something else is put in
quotes, and what may not stand in a line is escaped.  The clock is read only for a record without a time, and
is the argument `now` here.
-/

open Library

namespace RealtimeGame.Common

/-- A `std::string`. -/
abbrev Bytes : Type := List UInt8

inductive LogLevel
  | debug
  | info
  | warn
  | error
  deriving DecidableEq, Repr

/-- `ToString`. -/
def LogLevel.toString : LogLevel → String
  | .debug => "debug"
  | .info => "info"
  | .warn => "warn"
  | .error => "error"

structure LogField where
  key : Bytes
  value : Bytes
  deriving DecidableEq, Repr

/-- **`LogRecord`** — a time of `0` is the time of the writing. -/
structure LogRecord where
  service : Bytes := []
  traceId : Bytes := []
  level : LogLevel := .info
  event : Bytes := []
  fields : List LogField := []
  timestampMs : Int64 := 0
  deriving DecidableEq

/-! ## Values

Four bytes and the control bytes are special; a value with one of them is quoted. -/

def blank : UInt8 := ' '.toUInt8
def equalsSign : UInt8 := '='.toUInt8
def quote : UInt8 := '"'.toUInt8
def backslash : UInt8 := '\\'.toUInt8
def newline : UInt8 := '\n'.toUInt8

/-- A control byte. -/
def control (ch : UInt8) : Bool := ch < 0x20 || ch = 0x7f

/-- A byte that a value without quotes may not have. -/
def special (ch : UInt8) : Bool :=
  ch = blank || ch = equalsSign || ch = quote || ch = backslash || control ch

def needsQuoting (value : Bytes) : Bool := value = [] || value.any special

/-- A digit of `%x`. -/
def hexDigit (d : UInt8) : UInt8 := if d < 10 then 48 + d else 87 + d

/-- One byte of `EscapeFieldValue`. -/
def escapeByte (ch : UInt8) : Bytes :=
  if ch = quote then [backslash, quote]
  else if ch = backslash then [backslash, backslash]
  else if ch = newline then [backslash, 'n'.toUInt8]
  else if ch = '\r'.toUInt8 then [backslash, 'r'.toUInt8]
  else if ch = '\t'.toUInt8 then [backslash, 't'.toUInt8]
  else if control ch then [backslash, 'x'.toUInt8, hexDigit (ch / 16), hexDigit (ch % 16)]
  else [ch]

def escapeFieldValue (value : Bytes) : Bytes :=
  if needsQuoting value then quote :: value.flatMap escapeByte ++ [quote] else value

/-! ## Times

A time is shown in UTC, and worked out from the calendar. -/

/-- What is read of a `std::tm`. -/
structure Tm where
  year : Int
  mon : Int
  mday : Int
  hour : Int
  min : Int
  sec : Int
  deriving DecidableEq, Repr

/--
`gmtime_r`, in the calendar of Gregory without an end on either side.

The year begins in March, so that a leap day is the last one of its year, and 400 years are one era.
-/
def gmtime (seconds : Int) : Tm :=
  let days := seconds / 86400 + 719468
  let era := days / 146097
  let dayOfEra := days % 146097
  let yearOfEra := (dayOfEra - dayOfEra / 1460 + dayOfEra / 36524 - dayOfEra / 146096) / 365
  let dayOfYear := dayOfEra - (365 * yearOfEra + yearOfEra / 4 - yearOfEra / 100)
  let month := (5 * dayOfYear + 2) / 153
  let mon := if month < 10 then month + 2 else month - 10
  { year := yearOfEra + era * 400 + (if mon < 2 then 1 else 0) - 1900
    mon
    mday := dayOfYear - (153 * month + 2) / 5 + 1
    hour := seconds % 86400 / 3600
    min := seconds % 3600 / 60
    sec := seconds % 60 }

/-- The conversion `%0<width>d`. -/
def zeroPadded (width : Nat) (n : Int) : Bytes :=
  if n < 0 then Decimal.minus :: (Decimal.numeral n.natAbs).leftpad (width - 1) '0'.toUInt8
  else (Decimal.numeral n.natAbs).leftpad width '0'.toUInt8

/-- The size of the buffer that a time is written to. -/
def kTimestampBuffer : Nat := 64

/-- **`FormatTimestamp`** — `2026-10-03T01:02:03.456Z`. -/
def formatTimestamp (timestampMs : Int64) : Bytes :=
  let parts := gmtime (timestampMs.toInt.tdiv 1000)
  let written := zeroPadded 4 (parts.year + 1900) ++ bytesOf "-" ++ zeroPadded 2 (parts.mon + 1) ++
    bytesOf "-" ++ zeroPadded 2 parts.mday ++ bytesOf "T" ++ zeroPadded 2 parts.hour ++ bytesOf ":" ++
    zeroPadded 2 parts.min ++ bytesOf ":" ++ zeroPadded 2 parts.sec ++ bytesOf "." ++
    zeroPadded 3 (timestampMs.toInt.tmod 1000) ++ bytesOf "Z"
  if written.length = 0 then bytesOf "-" else written.take (kTimestampBuffer - 1)

example : formatTimestamp 1790989323456 = bytesOf "2026-10-03T01:02:03.456Z" := by decide

/-! ## Lines

The fixed fields first, then the fields of the record. -/

def appendField (line key value : Bytes) : Bytes :=
  line ++ blank :: key ++ equalsSign :: escapeFieldValue value

/-- The time that is written for a record. -/
def LogRecord.timestamp (record : LogRecord) (now : Int64) : Int64 :=
  if record.timestampMs ≠ 0 then record.timestampMs else now

/-- **`FormatLogLine`** — what identifies a record stands first, and an empty trace is left out. -/
def formatLogLine (now : Int64) (record : LogRecord) : Bytes :=
  let line := bytesOf "ts=" ++ formatTimestamp (record.timestamp now)
  let line := appendField line (bytesOf "service") record.service
  let line := appendField line (bytesOf "level") (bytesOf record.level.toString)
  let line := appendField line (bytesOf "event") record.event
  let line := if record.traceId ≠ [] then appendField line (bytesOf "trace") record.traceId else line
  record.fields.foldl (fun line field => appendField line field.key field.value) line ++ [newline]

end RealtimeGame.Common
