import RealtimeGame.Library.Decimal

/-!
# Library/Numeral — decimal numerals in a text

The text of an integer is `toString` of it, and its digits are read up to the first character that is no
digit; so what is read is what was written, whatever follows (`readInt_numeral`).
-/

namespace Library

namespace Numeral

/-- The text of an integer. -/
def numeral (n : Int) : List Char := (toString n).toList

/-- Read the digits at the front. -/
def readNat (text : List Char) : Option (Nat × List Char) :=
  if text.takeWhile Char.isDigit = [] then none
  else some (Nat.ofDigitChars 10 (text.takeWhile Char.isDigit) 0, text.dropWhile Char.isDigit)

/-- Read the digits at the front, after a minus if there is one. -/
def readInt : List Char → Option (Int × List Char)
  | [] => none
  | c :: text =>
    if c = '-' then (readNat text).map fun read => (-(read.1 : Int), read.2)
    else (readNat (c :: text)).map fun read => ((read.1 : Int), read.2)

/-- No digit follows. -/
def Ended (rest : List Char) : Prop := ∀ c ∈ rest.head?, c.isDigit = false

theorem numeral_eq (n : Int) :
    numeral n = if n < 0 then '-' :: Nat.toDigits 10 n.natAbs else Nat.toDigits 10 n.natAbs := by
  rw [numeral, Int.toString_eq_repr, Int.repr_eq_if]
  split
  case isTrue hn =>
    rw [if_neg (by omega), Nat.toList_repr, show n.toNat = n.natAbs by omega]
  case isFalse hn =>
    rw [if_pos (by omega), String.toList_append, Nat.toList_repr, show (-n).toNat = n.natAbs by omega]
    rfl

/-- A decimal has digits and nothing else. -/
theorem isDigit_of_mem_toDigits {n : Nat} {c : Char} (h : c ∈ Nat.toDigits 10 n) : c.isDigit = true :=
  Nat.isDigit_of_mem_toDigits (by omega) (by omega) h

/-- A numeral is made of digits, but for its sign. -/
theorem of_mem_numeral {n : Int} {c : Char} (h : c ∈ numeral n) : c = '-' ∨ c.isDigit = true := by
  rw [numeral_eq] at h
  split at h
  · exact (List.mem_cons.mp h).imp id isDigit_of_mem_toDigits
  · exact Or.inr (isDigit_of_mem_toDigits h)

theorem numeral_ne_nil (n : Int) : numeral n ≠ [] := by
  rw [numeral_eq]
  split
  · exact List.cons_ne_nil _ _
  · exact Nat.toDigits_ne_nil

/-- **A number is read back**, if no digit follows it. -/
theorem readNat_toDigits (n : Nat) {rest : List Char} (h : Ended rest) :
    readNat (Nat.toDigits 10 n ++ rest) = some (n, rest) := by
  obtain ⟨htake, hdrop⟩ := Decimal.span_append (fun c => isDigit_of_mem_toDigits) h
  rw [readNat, htake, hdrop, if_neg Nat.toDigits_ne_nil, Nat.ofDigitChars_ten_toDigits]

/-- **A numeral is read back**, up to where it ends. -/
theorem readInt_numeral (n : Int) {rest : List Char} (h : Ended rest) :
    readInt (numeral n ++ rest) = some (n, rest) := by
  rw [numeral_eq]
  split
  case isTrue hn =>
    rw [List.cons_append, readInt, if_pos rfl, readNat_toDigits _ h, Option.map_some]
    rw [show -(n.natAbs : Int) = n by omega]
  case isFalse hn =>
    obtain ⟨c, text, hc⟩ := List.exists_cons_of_ne_nil (Nat.toDigits_ne_nil (n := n.natAbs) (b := 10))
    have hdigit : c.isDigit = true := isDigit_of_mem_toDigits (hc ▸ List.mem_cons_self)
    have hne : c ≠ '-' := by
      rintro rfl
      cases hdigit
    rw [hc, List.cons_append, readInt, if_neg hne, ← List.cons_append, ← hc, readNat_toDigits _ h,
      Option.map_some]
    rw [show (n.natAbs : Int) = n by omega]

/-- Different numbers have different numerals. -/
theorem numeral_injective : Function.Injective numeral := by
  intro n m h
  have hended : Ended [] := fun c hc => by cases hc
  have hn := readInt_numeral n hended
  rw [h, readInt_numeral m hended] at hn
  exact (Prod.mk.inj (Option.some.inj hn)).1.symm

end Numeral

end Library
