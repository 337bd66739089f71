import Mathlib.Data.List.TakeWhile
import Mathlib.Data.Nat.Digits.Defs

/-!
# Library/Decimal — decimal numerals as bytes, and how they are read back

A numeral is written without leading zeros, and read up to the first byte that is no digit; so what is
read is what was written, whatever follows (`readNat_numeral`, `readInt_signed`).
-/

namespace Library

namespace Decimal

/-- The byte of a digit. -/
def digit (d : Nat) : UInt8 := UInt8.ofNat (48 + d)

def isDigit (b : UInt8) : Bool := 48 ≤ b.toNat && b.toNat ≤ 57

def digitValue (b : UInt8) : Nat := b.toNat - 48

def minus : UInt8 := 45

/-- The digits of a number, the highest one first. -/
def numeral (n : Nat) : List UInt8 :=
  if n = 0 then [digit 0] else ((Nat.digits 10 n).map digit).reverse

/-- Read the digits at the front. -/
def readNat (bytes : List UInt8) : Option (Nat × List UInt8) :=
  if bytes.takeWhile isDigit = [] then none
  else some ((bytes.takeWhile isDigit).foldl (fun n b => digitValue b + 10 * n) 0,
    bytes.dropWhile isDigit)

/-- A number with its sign, if it is negative. -/
def signed (n : Int) : List UInt8 := if n < 0 then minus :: numeral n.natAbs else numeral n.natAbs

/-- Read the digits at the front, after a sign if there is one. -/
def readInt : List UInt8 → Option (Int × List UInt8)
  | [] => none
  | b :: bytes =>
    if b = minus then (readNat bytes).map fun read => (-(read.1 : Int), read.2)
    else (readNat (b :: bytes)).map fun read => ((read.1 : Int), read.2)

/-! ## What is written is read

A numeral has only digits, so whoever reads it stops where the next byte is none.  With that, reading undoes
writing whatever follows. -/

theorem toNat_digit {d : Nat} (h : d < 10) : (digit d).toNat = 48 + d := by
  rw [digit, UInt8.toNat_ofNat', Nat.mod_eq_of_lt (by omega)]

theorem isDigit_digit {d : Nat} (h : d < 10) : isDigit (digit d) = true := by
  rw [isDigit, toNat_digit h, Bool.and_eq_true, decide_eq_true_eq, decide_eq_true_eq]
  omega

/-- A digit that is written is read as the same number. -/
theorem digitValue_digit {d : Nat} (h : d < 10) : digitValue (digit d) = d := by
  rw [digitValue, toNat_digit h]
  omega

/-- A numeral has digits and nothing else. -/
theorem isDigit_of_mem_numeral {n : Nat} {b : UInt8} (h : b ∈ numeral n) : isDigit b = true := by
  rw [numeral] at h
  split at h
  · rw [List.mem_singleton.mp h]
    exact isDigit_digit (by omega)
  · obtain ⟨d, hd, rfl⟩ := List.mem_map.mp (List.mem_reverse.mp h)
    exact isDigit_digit (Nat.digits_lt_base (by omega) hd)

theorem numeral_ne_nil (n : Nat) : numeral n ≠ [] := by
  rw [numeral]
  split
  · exact List.cons_ne_nil _ _
  case isFalse hn =>
    rw [ne_eq, List.reverse_eq_nil_iff, List.map_eq_nil_iff]
    exact Nat.digits_ne_nil_iff_ne_zero.mpr hn

/-- The value of a numeral. -/
theorem foldl_numeral (n : Nat) :
    (numeral n).foldl (fun n b => digitValue b + 10 * n) 0 = n := by
  rw [numeral]
  split
  case isTrue hn =>
    subst hn
    rfl
  case isFalse hn =>
    have hdigits : ∀ ds : List Nat, (∀ d ∈ ds, d < 10) →
        (ds.map digit).foldr (fun b n => digitValue b + 10 * n) 0 = Nat.ofDigits 10 ds := by
      intro ds hlt
      induction ds with
      | nil => rfl
      | cons d ds ih =>
        rw [List.map_cons, List.foldr_cons, ih fun d hd => hlt d (List.mem_cons_of_mem _ hd),
          digitValue_digit (hlt d List.mem_cons_self), Nat.ofDigits_cons]
    rw [List.foldl_reverse, hdigits _ fun d hd => Nat.digits_lt_base (by omega) hd,
      Nat.ofDigits_digits]

/-- What is read ends where it ended when it was written. -/
theorem span_append {α : Type} {p : α → Bool} {written rest : List α} (hall : ∀ a ∈ written, p a = true)
    (h : ∀ a ∈ rest.head?, p a = false) :
    (written ++ rest).takeWhile p = written ∧ (written ++ rest).dropWhile p = rest := by
  rw [List.takeWhile_append_of_pos hall, List.dropWhile_append_of_pos hall]
  rcases rest with - | ⟨a, rest⟩
  · exact ⟨List.append_nil _, rfl⟩
  · have ha : ¬p a = true := Bool.eq_false_iff.mp (h a rfl)
    rw [List.takeWhile_cons_of_neg ha, List.dropWhile_cons_of_neg ha]
    exact ⟨List.append_nil _, rfl⟩

/-- All digits at the front are read. -/
theorem readNat_digits {digits rest : List UInt8} (hne : digits ≠ []) (hall : ∀ b ∈ digits, isDigit b = true)
    (h : ∀ b ∈ rest.head?, isDigit b = false) :
    readNat (digits ++ rest) = some (digits.foldl (fun n b => digitValue b + 10 * n) 0, rest) := by
  obtain ⟨htake, hdrop⟩ := span_append hall h
  rw [readNat, htake, hdrop, if_neg hne]

/-- **A number is read back**, if no digit follows it. -/
theorem readNat_numeral (n : Nat) {rest : List UInt8} (h : ∀ b ∈ rest.head?, isDigit b = false) :
    readNat (numeral n ++ rest) = some (n, rest) := by
  rw [readNat_digits (numeral_ne_nil n) (fun b => isDigit_of_mem_numeral) h, foldl_numeral]

/-- A number with its sign is read back, up to where its digits end. -/
theorem readInt_signed (n : Int) {rest : List UInt8} (h : ∀ b ∈ rest.head?, isDigit b = false) :
    readInt (signed n ++ rest) = some (n, rest) := by
  rw [signed]
  split
  case isTrue hn =>
    rw [List.cons_append, readInt, if_pos rfl, readNat_numeral _ h, Option.map_some]
    rw [show -(n.natAbs : Int) = n by omega]
  case isFalse hn =>
    obtain ⟨b, bytes, hb⟩ := List.exists_cons_of_ne_nil (numeral_ne_nil n.natAbs)
    have hdigit : isDigit b = true := isDigit_of_mem_numeral (hb ▸ List.mem_cons_self)
    have hne : b ≠ minus := by
      rintro rfl
      cases hdigit
    rw [hb, List.cons_append, readInt, if_neg hne, ← List.cons_append, ← hb, readNat_numeral _ h,
      Option.map_some]
    rw [show (n.natAbs : Int) = n by omega]

/-! ## What is read is read off the front

The other way round: a number that was read stood at the front, and what stands behind it was not looked at
but for its first byte.  So more text changes nothing. -/

/-- A number is read off the longest run of digits, which is not empty. -/
theorem readNat_eq_some {bytes rest : List UInt8} {n : Nat} (h : readNat bytes = some (n, rest)) :
    ∃ digits, digits ≠ [] ∧ bytes = digits ++ rest ∧ (∀ b ∈ digits, isDigit b = true) ∧
      (∀ b ∈ rest.head?, isDigit b = false) ∧ n = digits.foldl (fun n b => digitValue b + 10 * n) 0 := by
  rw [readNat] at h
  split at h
  case isTrue => cases h
  case isFalse hne =>
    obtain ⟨rfl, rfl⟩ := Prod.mk.inj (Option.some.inj h)
    refine ⟨_, hne, List.takeWhile_append_dropWhile.symm, fun b hb => List.mem_takeWhile_imp hb, ?_, rfl⟩
    intro b hb
    have hhead := List.head?_dropWhile_not isDigit bytes
    rw [Option.mem_def.mp hb] at hhead
    exact hhead

/-- …with a sign before them or not. -/
theorem readInt_eq_some {bytes rest : List UInt8} {n : Int} (h : readInt bytes = some (n, rest)) :
    ∃ written, written ≠ [] ∧ bytes = written ++ rest ∧ (∀ b ∈ rest.head?, isDigit b = false) ∧
      readInt written = some (n, []) := by
  rcases bytes with - | ⟨b, bytes⟩
  · cases h
  have hwhole : ∀ {digits : List UInt8}, digits ≠ [] → (∀ b ∈ digits, isDigit b = true) →
      readNat digits = some (digits.foldl (fun n b => digitValue b + 10 * n) 0, []) := by
    intro digits hne hall
    have hend : ∀ b ∈ ([] : List UInt8).head?, isDigit b = false := fun b hb => by cases hb
    have hread := readNat_digits hne hall hend
    rwa [List.append_nil] at hread
  rw [readInt] at h
  split at h
  case isTrue hminus =>
    obtain ⟨read, hread, heq⟩ := Option.map_eq_some_iff.mp h
    obtain ⟨rfl, rfl⟩ := Prod.mk.inj heq
    obtain ⟨digits, hne, rfl, hall, hend, hn⟩ := readNat_eq_some hread
    refine ⟨b :: digits, List.cons_ne_nil _ _, rfl, hend, ?_⟩
    rw [readInt, if_pos hminus, hwhole hne hall, Option.map_some, hn]
  case isFalse hminus =>
    obtain ⟨read, hread, heq⟩ := Option.map_eq_some_iff.mp h
    obtain ⟨rfl, rfl⟩ := Prod.mk.inj heq
    obtain ⟨digits, hne, hbytes, hall, hend, hn⟩ := readNat_eq_some hread
    refine ⟨digits, hne, hbytes, hend, ?_⟩
    obtain ⟨d, digits, rfl⟩ := List.exists_cons_of_ne_nil hne
    obtain ⟨rfl, -⟩ := List.cons.inj hbytes
    rw [readInt, if_neg hminus, hwhole hne hall, Option.map_some, hn]

/-- What follows the end of a number does not matter. -/
theorem readNat_append {bytes rest : List UInt8} {n : Nat} {b : UInt8} (more : List UInt8)
    (h : readNat bytes = some (n, b :: rest)) : readNat (bytes ++ more) = some (n, b :: rest ++ more) := by
  obtain ⟨digits, hne, rfl, hall, hend, rfl⟩ := readNat_eq_some h
  rw [List.append_assoc]
  exact readNat_digits hne hall hend

/-- What stands behind the byte that ends a number is left alone. -/
theorem readInt_append {bytes rest : List UInt8} {n : Int} {b : UInt8} (more : List UInt8)
    (h : readInt bytes = some (n, b :: rest)) : readInt (bytes ++ more) = some (n, b :: rest ++ more) := by
  rcases bytes with - | ⟨c, bytes⟩
  · cases h
  rw [readInt] at h
  rw [List.cons_append, readInt]
  split at h
  case isTrue hminus =>
    obtain ⟨read, hread, heq⟩ := Option.map_eq_some_iff.mp h
    obtain ⟨rfl, hrest⟩ := Prod.mk.inj heq
    rw [if_pos hminus, readNat_append more (n := read.1) (by rw [hread, ← hrest]), Option.map_some]
  case isFalse hminus =>
    obtain ⟨read, hread, heq⟩ := Option.map_eq_some_iff.mp h
    obtain ⟨rfl, hrest⟩ := Prod.mk.inj heq
    rw [if_neg hminus, ← List.cons_append, readNat_append more (n := read.1) (by rw [hread, ← hrest]),
      Option.map_some]

example : readInt (signed (-120) ++ [59]) = some (-120, [59]) := by decide

end Decimal

end Library
