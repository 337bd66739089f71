import Mathlib.Data.List.Basic

/-!
# Common/Mysql — what the database makes of a text

A column of text compares by a collation and has a width, which are the database's business; what is read of
it goes through a buffer of a fixed size, which is the connection's.
-/

namespace RealtimeGame.Common

/-! ## In the database

Which texts compare equal is left open; that upper and lower case can is all that the results need. -/

/-- The weights that a collation gives to a text: two texts with the same weights compare equal. -/
abbrev Collation : Type := String → List Nat

/-- Upper and lower case compare equal. -/
def caseFolded : Collation := fun text => text.toList.map fun c => c.toLower.toNat

/-- A text in a column of this width: only blanks may be cut off, and what is too long is an error. -/
def columnText (width : Nat) (text : String) : Option String :=
  if text.length ≤ width then some text
  else if (text.toList.drop width).all (· = ' ') then some (String.ofList (text.toList.take width))
  else none

/-- What fits is stored as it is. -/
theorem columnText_of_le {width : Nat} {text : String} (h : text.length ≤ width) :
    columnText width text = some text := if_pos h

/-- **What is stored fits.** -/
theorem length_of_columnText {width : Nat} {text stored : String} (h : columnText width text = some stored) :
    stored.length ≤ width := by
  unfold columnText at h
  split at h
  case isTrue hle => exact Option.some.inj h ▸ hle
  case isFalse =>
    split at h
    case isTrue =>
      rw [← Option.some.inj h, String.length_ofList]
      exact List.length_take_le _ _
    case isFalse => cases h

/-! ## On the connection

The buffer of a column has a byte for the NUL, and a longer text is not cut but refused, with the whole
query. -/

def kColumnBufferSize : Nat := 256

/-- A text that is not cut off by the buffer of its column. -/
def fitsBuffer (text : String) : Bool := text.utf8ByteSize ≤ kColumnBufferSize - 1

/-- A row of a result, a column of which may be NULL. -/
abbrev SqlRow : Type := List (Option String)

/-- The rows of a query; nothing if the query fails. -/
abbrev SqlAnswer : Type := Option (List SqlRow)

/-- `QueryOnce`, where the statement has these rows: one column that does not fit fails it. -/
def fetchRows (rows : List SqlRow) : SqlAnswer :=
  if rows.all fun row => row.all fun column => column.all fitsBuffer then some rows else none

end RealtimeGame.Common
