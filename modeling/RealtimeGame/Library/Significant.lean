import Mathlib.Data.Int.Log
import Mathlib.Data.List.DropRight
import Mathlib.Data.Nat.Digits.Lemmas
import Mathlib.Data.Rat.Floor
import Mathlib.Tactic.FieldSimp
import Mathlib.Tactic.Linarith
import RealtimeGame.Library.Decimal
import RealtimeGame.Library.Utf8

/-!
# Library/Significant — the conversion `%.<p>g` of a rational number

A number is rounded to `p` significant digits, to the even one of two that are equally near, and is written
without the zeros at its end; it is written with an exponent if it is very large or very small.  The error is
at most half a unit of the last of the digits (`scientific_spec`).
-/

namespace Library

namespace Significant

/-- The nearest number, and the even one of two. -/
def nearest (q : ℚ) : Nat :=
  if 1 < 2 * (q - ⌊q⌋₊) ∨ 2 * (q - ⌊q⌋₊) = 1 ∧ ⌊q⌋₊ % 2 = 1 then ⌊q⌋₊ + 1 else ⌊q⌋₊

/-- A mantissa of `p` digits, with the point behind the first one, and a power of ten. -/
structure Scientific where
  mantissa : Nat
  exponent : Int

/-- What a digit at the end of a mantissa of `p` digits is worth. -/
def ulp (p : Nat) (exponent : Int) : ℚ := 10 ^ (exponent - (p - 1))

def Scientific.value (p : Nat) (s : Scientific) : ℚ := s.mantissa * ulp p s.exponent

/-- A positive number with `p` digits; a carry out of the first of them moves the point. -/
def scientific (p : Nat) (q : ℚ) : Scientific :=
  let exponent := Int.log 10 q
  let mantissa := nearest (q / ulp p exponent)
  if mantissa = 10 ^ p then ⟨10 ^ (p - 1), exponent + 1⟩ else ⟨mantissa, exponent⟩

/-! ## Writing

A number is written with a point where that is short, and else with an exponent; zeros at the end are left
out. -/

def point : UInt8 := '.'.toUInt8

/-- A fraction without the zeros at its end. -/
def stripped (fraction : List UInt8) : List UInt8 := fraction.rdropWhile fun b => b = Decimal.digit 0

/-- No point is written if nothing is left of the fraction. -/
def pointed (whole fraction : List UInt8) : List UInt8 :=
  if stripped fraction = [] then whole else whole ++ point :: stripped fraction

/-- At least two digits, behind a sign. -/
def exponentText (exponent : Int) : List UInt8 :=
  (if exponent < 0 then '-' else '+').toUInt8 ::
    (Decimal.numeral exponent.natAbs).leftpad 2 (Decimal.digit 0)

def Scientific.text (p : Nat) (s : Scientific) : List UInt8 :=
  let digits := Decimal.numeral s.mantissa
  if s.exponent < -4 ∨ p ≤ s.exponent then
    pointed (digits.take 1) (digits.drop 1) ++ 'e'.toUInt8 :: exponentText s.exponent
  else if s.exponent < 0 then
    pointed [Decimal.digit 0] (List.replicate (-s.exponent - 1).toNat (Decimal.digit 0) ++ digits)
  else pointed (digits.take (s.exponent.toNat + 1)) (digits.drop (s.exponent.toNat + 1))

/-- The conversion `%.<p>g`. -/
def general (p : Nat) (q : ℚ) : List UInt8 :=
  if q = 0 then [Decimal.digit 0]
  else if q < 0 then Decimal.minus :: (scientific p (-q)).text p
  else (scientific p q).text p

example : general 6 (1 / 1000) = bytesOf "0.001" := by decide +kernel
example : general 6 1234567 = bytesOf "1.23457e+06" := by decide +kernel

/-! ## Rounding

To the nearest multiple of the last digit that is kept, to the even one of two that are equally near. -/

/-- The nearest number is at most one half away. -/
theorem nearest_error {q : ℚ} (h : 0 ≤ q) : |q - nearest q| ≤ 1 / 2 := by
  have hle := Nat.floor_le h
  have hlt := Nat.lt_floor_add_one q
  rw [nearest, abs_le]
  split
  case isTrue hup =>
    have hhalf : 1 ≤ 2 * (q - ⌊q⌋₊) := hup.elim le_of_lt fun htie => htie.1.ge
    rw [Nat.cast_add, Nat.cast_one]
    constructor <;> linarith
  case isFalse hdown =>
    have hhalf : 2 * (q - ⌊q⌋₊) ≤ 1 := not_lt.mp (not_or.mp hdown).1
    constructor <;> linarith

/-- A natural number is its own nearest. -/
theorem nearest_natCast (n : Nat) : nearest n = n := by
  rw [nearest, Nat.floor_natCast, sub_self, mul_zero]
  exact if_neg (by norm_num)

/-- Rounding does not pass a natural number from above, -/
theorem le_nearest {q : ℚ} {n : Nat} (h : n ≤ q) : n ≤ nearest q := by
  have hfloor := Nat.le_floor h
  rw [nearest]
  split <;> omega

/-- …nor from below. -/
theorem nearest_le {q : ℚ} {n : Nat} (h0 : 0 ≤ q) (h : q < n) : nearest q ≤ n := by
  have hfloor := (Nat.floor_lt h0).mpr h
  rw [nearest]
  split <;> omega

theorem ulp_pos (p : Nat) (exponent : Int) : 0 < ulp p exponent := zpow_pos (by norm_num) _

/-- The last of `n + 1` digits is worth `10 ^ n` times less than the first. -/
theorem pow_mul_ulp (n : Nat) (exponent : Int) : 10 ^ n * ulp (n + 1) exponent = (10 : ℚ) ^ exponent := by
  rw [ulp, ← zpow_natCast, ← zpow_add₀ (by norm_num)]
  congr 1
  push_cast
  ring

/-- With the exponent the last digit grows tenfold. -/
theorem ulp_succ (p : Nat) (exponent : Int) : ulp p (exponent + 1) = 10 * ulp p exponent := by
  rw [ulp, ulp, ← zpow_one_add₀ (by norm_num)]
  congr 1
  ring

/-- In units of its last digit, a number has `n + 1` digits. -/
theorem scaled_bounds (n : Nat) {q : ℚ} (hq : 0 < q) :
    ((10 ^ n : Nat) : ℚ) ≤ q / ulp (n + 1) (Int.log 10 q) ∧
      q / ulp (n + 1) (Int.log 10 q) < ((10 ^ (n + 1) : Nat) : ℚ) := by
  have hulp := ulp_pos (n + 1) (Int.log 10 q)
  rw [le_div_iff₀ hulp, div_lt_iff₀ hulp, Nat.cast_pow, Nat.cast_pow, Nat.cast_ofNat, pow_succ', mul_assoc,
    pow_mul_ulp, ← zpow_one_add₀ (by norm_num), add_comm 1]
  exact ⟨Int.zpow_log_le_self (b := 10) (by decide) hq, Int.lt_zpow_succ_log_self (b := 10) (by decide) q⟩

/-- **A number of `p` digits**, and how far it is off. -/
theorem scientific_spec {p : Nat} (hp : 0 < p) {q : ℚ} (hq : 0 < q) :
    10 ^ (p - 1) ≤ (scientific p q).mantissa ∧ (scientific p q).mantissa < 10 ^ p ∧
      |q - (scientific p q).value p| ≤ q / (2 * 10 ^ (p - 1)) := by
  obtain ⟨n, rfl⟩ : ∃ n, p = n + 1 := ⟨p - 1, by omega⟩
  obtain ⟨hlow, hhigh⟩ := scaled_bounds n hq
  have hulp := ulp_pos (n + 1) (Int.log 10 q)
  have h0 : 0 ≤ q / ulp (n + 1) (Int.log 10 q) := (div_pos hq hulp).le
  have hge := le_nearest hlow
  have hle := nearest_le h0 hhigh
  have hnear := nearest_error h0
  rw [scientific, Nat.add_sub_cancel]
  generalize Int.log 10 q = exponent at *
  generalize nearest (q / ulp (n + 1) exponent) = mantissa at *
  -- half a unit is at most the part that is promised, as the digits in front of it come to `10 ^ n` units
  have herror : |q - mantissa * ulp (n + 1) exponent| ≤ q / (2 * 10 ^ n) := by
    calc |q - mantissa * ulp (n + 1) exponent|
        = |q / ulp (n + 1) exponent - mantissa| * ulp (n + 1) exponent := by
          rw [← abs_of_pos hulp, ← abs_mul, abs_of_pos hulp, sub_mul, div_mul_cancel₀ _ hulp.ne']
      _ ≤ 1 / 2 * ulp (n + 1) exponent := mul_le_mul_of_nonneg_right hnear hulp.le
      _ ≤ q / (2 * 10 ^ n) := by
          rw [le_div_iff₀ hulp, Nat.cast_pow, Nat.cast_ofNat] at hlow
          rw [le_div_iff₀ (by positivity)]
          linarith
  split
  case isTrue hcarry =>
    have hvalue : Scientific.value (n + 1) ⟨10 ^ n, exponent + 1⟩ = mantissa * ulp (n + 1) exponent := by
      rw [Scientific.value, ulp_succ, hcarry, Nat.cast_pow, Nat.cast_pow, pow_succ]
      push_cast
      ring
    rw [hvalue]
    exact ⟨le_rfl, Nat.pow_lt_pow_right (by decide) (by omega), herror⟩
  case isFalse hcarry =>
    exact ⟨hge, lt_of_le_of_ne hle hcarry, herror⟩

/-! ## Reading

Digits, perhaps a point and more digits, perhaps an exponent.  What was written denotes the rounded number
again. -/

/-- The value of digits. -/
def digitsValue (digits : List UInt8) : Nat := digits.foldl (fun n b => Decimal.digitValue b + 10 * n) 0

/-- The exponent that stands at the end, and `0` if none does. -/
def readExponent (text : List UInt8) : Option Int :=
  match text with
  | [] => some 0
  | [_] => none
  | e :: sign :: digits =>
    if e ≠ 'e'.toUInt8 then none
    else if sign = '-'.toUInt8 then (Decimal.readNat digits).map fun read => -(read.1 : Int)
    else (Decimal.readNat digits).map fun read => (read.1 : Int)

/-- Digits, a point and more digits if there is one, and an exponent if there is one. -/
def readUnsigned (text : List UInt8) : Option ℚ :=
  let whole := text.takeWhile Decimal.isDigit
  let rest := text.dropWhile Decimal.isDigit
  let fraction := if rest.head? = some point then rest.tail.takeWhile Decimal.isDigit else []
  let rest := if rest.head? = some point then rest.tail.dropWhile Decimal.isDigit else rest
  (readExponent rest).map fun exponent : Int =>
    (digitsValue (whole ++ fraction) : ℚ) * 10 ^ (exponent - fraction.length)

def read (text : List UInt8) : Option ℚ :=
  if text.head? = some Decimal.minus then (readUnsigned text.tail).map fun q => -q else readUnsigned text

/-- Only digits. -/
def Digits (text : List UInt8) : Prop := ∀ b ∈ text, Decimal.isDigit b = true

/-- No digit and no point at the front. -/
def Ends (text : List UInt8) : Prop := ∀ b ∈ text.head?, Decimal.isDigit b = false ∧ b ≠ point

theorem digits_replicate (n : Nat) : Digits (List.replicate n (Decimal.digit 0)) := by
  intro b hb
  rw [(List.mem_replicate.mp hb).2]
  rfl

/-- A numeral has digits only. -/
theorem digits_numeral (n : Nat) : Digits (Decimal.numeral n) := fun _ => Decimal.isDigit_of_mem_numeral

theorem Digits.append {xs ys : List UInt8} (hxs : Digits xs) (hys : Digits ys) : Digits (xs ++ ys) :=
  List.forall_mem_append.mpr ⟨hxs, hys⟩

/-- Zeros behind the digits multiply by ten each, -/
theorem digitsValue_append_replicate (digits : List UInt8) (n : Nat) :
    digitsValue (digits ++ List.replicate n (Decimal.digit 0)) = digitsValue digits * 10 ^ n := by
  induction n with
  | zero => rw [List.replicate_zero, List.append_nil, pow_zero, mul_one]
  | succ n ih =>
    rw [List.replicate_succ', ← List.append_assoc, digitsValue, List.foldl_append, ← digitsValue, ih]
    change 0 + 10 * _ = _
    ring

/-- …and zeros before them do nothing. -/
theorem digitsValue_replicate_append (digits : List UInt8) (n : Nat) :
    digitsValue (List.replicate n (Decimal.digit 0) ++ digits) = digitsValue digits := by
  have hzero := digitsValue_append_replicate [] n
  rw [List.nil_append] at hzero
  rw [digitsValue, List.foldl_append, ← digitsValue, hzero]
  exact congrArg (fun m => digits.foldl (fun n b => Decimal.digitValue b + 10 * n) m) (Nat.zero_mul _)

/-- What is left out of a fraction are zeros. -/
theorem exists_replicate (fraction : List UInt8) :
    ∃ n, fraction = stripped fraction ++ List.replicate n (Decimal.digit 0) := by
  induction fraction using List.reverseRecOn with
  | nil => exact ⟨0, rfl⟩
  | append_singleton fraction b ih =>
    rw [stripped, List.rdropWhile_concat, ← stripped]
    split
    case isTrue hb =>
      obtain ⟨n, hn⟩ := ih
      refine ⟨n + 1, ?_⟩
      rw [List.replicate_succ', ← List.append_assoc, ← hn, of_decide_eq_true hb]
    case isFalse => exact ⟨0, (List.append_nil _).symm⟩

/-- A whole number is read with its exponent. -/
theorem readUnsigned_whole {whole rest : List UInt8} (hwhole : Digits whole) (hrest : Ends rest)
    {exponent : Int} (hexponent : readExponent rest = some exponent) :
    readUnsigned (whole ++ rest) = some ((digitsValue whole : ℚ) * 10 ^ exponent) := by
  obtain ⟨htake, hdrop⟩ := Decimal.span_append hwhole fun b hb => (hrest b hb).1
  have hhead : rest.head? ≠ some point := fun h => (hrest point h).2 rfl
  rw [readUnsigned, htake, hdrop, if_neg hhead, if_neg hhead, hexponent, Option.map_some, List.append_nil]
  simp

/-- …and so is one with a point: every digit behind it takes one from the exponent. -/
theorem readUnsigned_fraction {whole fraction rest : List UInt8} (hwhole : Digits whole)
    (hfraction : Digits fraction) (hrest : Ends rest) {exponent : Int}
    (hexponent : readExponent rest = some exponent) :
    readUnsigned (whole ++ point :: (fraction ++ rest)) =
      some ((digitsValue (whole ++ fraction) : ℚ) * 10 ^ (exponent - fraction.length)) := by
  have hpoint : ∀ b ∈ (point :: (fraction ++ rest)).head?, Decimal.isDigit b = false := by
    intro b hb
    rw [← Option.mem_some.mp hb]
    rfl
  obtain ⟨htake, hdrop⟩ := Decimal.span_append hwhole hpoint
  obtain ⟨htake', hdrop'⟩ := Decimal.span_append hfraction fun b hb => (hrest b hb).1
  rw [readUnsigned, htake, hdrop, if_pos List.head?_cons, if_pos List.head?_cons, List.tail_cons, htake',
    hdrop', hexponent, Option.map_some]

/-- The zeros that are left out do not matter. -/
theorem value_stripped (whole fraction : List UInt8) (exponent : Int) :
    (digitsValue (whole ++ stripped fraction) : ℚ) * 10 ^ (exponent - (stripped fraction).length) =
      (digitsValue (whole ++ fraction) : ℚ) * 10 ^ (exponent - fraction.length) := by
  obtain ⟨n, hn⟩ := exists_replicate fraction
  generalize stripped fraction = left at *
  rw [hn, ← List.append_assoc, digitsValue_append_replicate, List.length_append, List.length_replicate,
    Nat.cast_mul, Nat.cast_pow, Nat.cast_ofNat, mul_assoc, ← zpow_natCast, ← zpow_add₀ (by norm_num)]
  congr 2
  push_cast
  ring

/-- Either way, as `pointed` puts the point. -/
theorem readUnsigned_pointed {whole fraction rest : List UInt8} (hwhole : Digits whole)
    (hfraction : Digits fraction) (hrest : Ends rest) {exponent : Int}
    (hexponent : readExponent rest = some exponent) :
    readUnsigned (pointed whole fraction ++ rest) =
      some ((digitsValue (whole ++ fraction) : ℚ) * 10 ^ (exponent - fraction.length)) := by
  have hstripped : Digits (stripped fraction) := fun b hb =>
    hfraction b ((List.rdropWhile_prefix _ _).subset hb)
  rw [← value_stripped, pointed]
  split
  case isTrue hnil =>
    rw [readUnsigned_whole hwhole hrest hexponent, hnil, List.append_nil, List.length_nil, Nat.cast_zero,
      sub_zero]
  case isFalse =>
    rw [List.append_assoc, List.cons_append]
    exact readUnsigned_fraction hwhole hstripped hrest hexponent

theorem ends_nil : Ends [] := fun b hb => by cases hb

/-- An exponent that was written is read back. -/
theorem readExponent_exponentText (exponent : Int) :
    readExponent ('e'.toUInt8 :: exponentText exponent) = some exponent := by
  have hdigits : ∀ n : Nat,
      Decimal.readNat ((Decimal.numeral n).leftpad 2 (Decimal.digit 0)) = some (n, []) := by
    intro n
    have hall : Digits ((Decimal.numeral n).leftpad 2 (Decimal.digit 0)) :=
      (digits_replicate _).append (digits_numeral n)
    have hread := Decimal.readNat_digits (List.append_ne_nil_of_right_ne_nil _ (Decimal.numeral_ne_nil n)) hall
      fun b hb => (ends_nil b hb).1
    rw [List.append_nil] at hread
    refine hread.trans (congrArg (fun n => some (n, [])) ?_)
    exact (digitsValue_replicate_append _ _).trans (Decimal.foldl_numeral n)
  rw [exponentText, readExponent, hdigits, if_neg (not_not.mpr rfl)]
  by_cases hneg : exponent < 0
  · rw [if_pos hneg, if_pos rfl, Option.map_some]
    exact congrArg some (by omega)
  · rw [if_neg hneg, if_neg (by decide), Option.map_some]
    exact congrArg some (by omega)

/-- A mantissa has as many digits as it should. -/
theorem length_numeral {n m : Nat} (hlow : 10 ^ n ≤ m) (hhigh : m < 10 ^ (n + 1)) :
    (Decimal.numeral m).length = n + 1 := by
  have hpos : m ≠ 0 := (lt_of_lt_of_le (Nat.pow_pos (by decide)) hlow).ne'
  have hle := (Nat.digits_length_le_iff (b := 10) (by decide) m).mpr hhigh
  have hlt := (Nat.lt_digits_length_iff (b := 10) (by decide) m).mpr hlow
  rw [Decimal.numeral, if_neg hpos, List.length_reverse, List.length_map]
  omega

/-- **What is written is read.** -/
theorem readUnsigned_text {n : Nat} {s : Scientific} (hlow : 10 ^ n ≤ s.mantissa)
    (hhigh : s.mantissa < 10 ^ (n + 1)) : readUnsigned (s.text (n + 1)) = some (s.value (n + 1)) := by
  have hlength := length_numeral hlow hhigh
  have hvalue : digitsValue (Decimal.numeral s.mantissa) = s.mantissa := Decimal.foldl_numeral _
  have hdigits := digits_numeral s.mantissa
  rw [Scientific.text, Scientific.value, ulp]
  generalize Decimal.numeral s.mantissa = digits at *
  split
  case isTrue =>
    have hends : Ends ('e'.toUInt8 :: exponentText s.exponent) := by
      intro b hb
      rw [← Option.mem_some.mp hb]
      decide
    rw [readUnsigned_pointed (fun b hb => hdigits b (List.mem_of_mem_take hb))
      (fun b hb => hdigits b (List.mem_of_mem_drop hb)) hends (readExponent_exponentText _),
      List.take_append_drop, List.length_drop, hlength, hvalue, Nat.add_sub_cancel]
    push_cast
    rw [add_sub_cancel_right]
  case isFalse hexponent =>
    split
    case isTrue hneg =>
      have hzero : Digits [Decimal.digit 0] := digits_replicate 1
      have hfront : ∀ k, digitsValue ([Decimal.digit 0] ++ (List.replicate k (Decimal.digit 0) ++ digits)) =
          s.mantissa := fun k =>
        (digitsValue_replicate_append _ 1).trans ((digitsValue_replicate_append _ k).trans hvalue)
      rw [← List.append_nil (pointed _ _), readUnsigned_pointed hzero ((digits_replicate _).append hdigits)
        ends_nil rfl, hfront, List.length_append, List.length_replicate, hlength]
      refine congrArg (fun x : Int => some ((s.mantissa : ℚ) * 10 ^ x)) ?_
      omega
    case isFalse hneg =>
      rw [← List.append_nil (pointed _ _),
        readUnsigned_pointed (fun b hb => hdigits b (List.mem_of_mem_take hb))
          (fun b hb => hdigits b (List.mem_of_mem_drop hb)) ends_nil rfl,
        List.take_append_drop, List.length_drop, hlength, hvalue]
      refine congrArg (fun x : Int => some ((s.mantissa : ℚ) * 10 ^ x)) ?_
      omega

theorem head?_pointed {whole : List UInt8} (hne : whole ≠ []) (hwhole : Digits whole)
    (fraction rest : List UInt8) : (pointed whole fraction ++ rest).head? ≠ some Decimal.minus := by
  obtain ⟨d, whole, rfl⟩ := List.exists_cons_of_ne_nil hne
  have hd : d ≠ Decimal.minus := by
    rintro rfl
    exact absurd (hwhole _ List.mem_cons_self) (by decide)
  rw [pointed]
  split <;> rw [List.cons_append] <;> exact fun h => hd (Option.some.inj h)

/-- A text without a sign does not begin with one. -/
theorem head?_text {n : Nat} {s : Scientific} : (s.text (n + 1)).head? ≠ some Decimal.minus := by
  have htake : ∀ k, (Decimal.numeral s.mantissa).take (k + 1) ≠ [] := fun k hnil =>
    Decimal.numeral_ne_nil _ ((List.take_eq_nil_iff.mp hnil).resolve_left (Nat.succ_ne_zero k))
  have hdigits : ∀ k, Digits ((Decimal.numeral s.mantissa).take k) := fun k b hb =>
    digits_numeral _ b (List.mem_of_mem_take hb)
  rw [Scientific.text]
  split
  · exact head?_pointed (htake 0) (hdigits 1) _ _
  · split <;> rw [← List.append_nil (pointed _ _)]
    · exact head?_pointed (List.cons_ne_nil _ _) (digits_replicate 1) _ _
    · exact head?_pointed (htake _) (hdigits _) _ _

/-- **What is shown of a number** is near to it. -/
theorem read_general {p : Nat} (hp : 0 < p) (q : ℚ) :
    ∃ shown, read (general p q) = some shown ∧ |q - shown| ≤ |q| / (2 * 10 ^ (p - 1)) := by
  obtain ⟨n, rfl⟩ : ∃ n, p = n + 1 := ⟨p - 1, by omega⟩
  rw [general]
  split
  case isTrue hzero =>
    refine ⟨0, by decide +kernel, ?_⟩
    rw [hzero, sub_zero, abs_zero, zero_div]
  case isFalse hzero =>
    split
    case isTrue hneg =>
      obtain ⟨hlow, hhigh, herror⟩ := scientific_spec hp (neg_pos.mpr hneg)
      rw [Nat.add_sub_cancel] at hlow
      refine ⟨-(scientific (n + 1) (-q)).value (n + 1), ?_, ?_⟩
      · rw [read, List.head?_cons, if_pos rfl, List.tail_cons, readUnsigned_text hlow hhigh, Option.map_some]
      · rwa [abs_of_neg hneg, sub_neg_eq_add, ← abs_neg, neg_add, ← sub_eq_add_neg]
    case isFalse hneg =>
      have hpos : 0 < q := lt_of_le_of_ne (not_lt.mp hneg) (Ne.symm hzero)
      obtain ⟨hlow, hhigh, herror⟩ := scientific_spec hp hpos
      rw [Nat.add_sub_cancel] at hlow
      refine ⟨(scientific (n + 1) q).value (n + 1), ?_, ?_⟩
      · rw [read, if_neg head?_text, readUnsigned_text hlow hhigh]
      · rwa [abs_of_pos hpos]

end Significant

end Library
