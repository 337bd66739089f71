import Mathlib.Data.List.Range
import Mathlib.Data.UInt

/-!
# Common/Token — session tokens

A token is cut out of random numbers of 64 bits, six bits a letter.  A number has eleven letters in it, and the
last of them is left with four bits (`generateToken_eq`, `toNat_letterIndex_last`).
-/

namespace RealtimeGame.Common

def kCharsPerDraw : Nat := 6
def kDrawMask : UInt64 := 63
def kMinLength : Nat := 1
def kMaxLength : Nat := 256

/-- `kTokenAlphabet`. -/
def kTokenAlphabet : List Char :=
  "ABCDEFGHIJKLMNOPQRSTUVWXYZabcdefghijklmnopqrstuvwxyz0123456789-_".toList

/-- `std::clamp(length, kMinLength, kMaxLength)`. -/
def targetLength (length : Nat) : Nat :=
  if length < kMinLength then kMinLength else if kMaxLength < length then kMaxLength else length

def letterIndex (draw : UInt64) (offset : Nat) : UInt64 := (draw >>> UInt64.ofNat offset) &&& kDrawMask

def letter (draw : UInt64) (offset : Nat) : Char := kTokenAlphabet.getD (letterIndex draw offset).toNat 'A'

/-- The loop over one number. -/
def pushLetters (draw : UInt64) (target offset : Nat) (token : List Char) : List Char :=
  if offset < 64 ∧ token.length < target then
    pushLetters draw target (offset + kCharsPerDraw) (token ++ [letter draw offset])
  else token
termination_by 64 - offset
decreasing_by
  simp only [kCharsPerDraw]
  omega

/-- Letters are only added, -/
theorem length_le_pushLetters (draw : UInt64) (target offset : Nat) (token : List Char) :
    token.length ≤ (pushLetters draw target offset token).length := by
  fun_induction pushLetters draw target offset token with
  | case1 offset token h ih =>
    rw [List.length_append] at ih
    exact (Nat.le_add_right _ _).trans ih
  | case2 => exact le_rfl

/-- …and at least one as long as some are missing, so that the drawing ends. -/
theorem length_lt_pushLetters (draw : UInt64) {target : Nat} {token : List Char} (h : token.length < target) :
    token.length < (pushLetters draw target 0 token).length := by
  rw [pushLetters, if_pos ⟨by decide, h⟩]
  refine lt_of_lt_of_le ?_ (length_le_pushLetters ..)
  rw [List.length_append]
  exact Nat.lt_succ_self _

/-- The loop over the numbers that the engine gives, from the `n`-th on. -/
def takeDraws (draws : Nat → UInt64) (target n : Nat) (token : List Char) : List Char :=
  if token.length < target then takeDraws draws target (n + 1) (pushLetters (draws n) target 0 token) else token
termination_by target - token.length
decreasing_by
  have := length_lt_pushLetters (draws n) ‹_›
  omega

/-- **`GenerateToken`**, for the numbers of a freshly seeded engine. -/
def generateToken (draws : Nat → UInt64) (length : Nat) : String :=
  String.ofList (takeDraws draws (targetLength length) 0 [])

/-- **`IsValidTokenFormat`**. -/
def isValidTokenFormat (token : String) : Bool :=
  if token.utf8ByteSize < kMinLength || kMaxLength < token.utf8ByteSize then false
  else token.toList.all (· ∈ kTokenAlphabet)

/-! ## Which bits a letter shows

The drawing is a loop in a loop, over numbers and over letters.  Both come to one list: the `k`-th letter is
cut out of number `k / 11`. -/

def kLettersPerDraw : Nat := 11

/-- The `i`-th letter of a token. -/
def tokenLetter (draws : Nat → UInt64) (i : Nat) : Char :=
  letter (draws (i / kLettersPerDraw)) (kCharsPerDraw * (i % kLettersPerDraw))

/-- One number gives the letters of its turn. -/
theorem pushLetters_eq (draws : Nat → UInt64) (target n j k : Nat) (hj : j ≤ kLettersPerDraw)
    (hk : k = kLettersPerDraw * n + j) (htarget : k ≤ target) :
    pushLetters (draws n) target (kCharsPerDraw * j) ((List.range k).map (tokenLetter draws)) =
      (List.range (min target (kLettersPerDraw * (n + 1)))).map (tokenLetter draws) := by
  simp only [kLettersPerDraw] at *
  induction hd : 11 - j generalizing j k with
  | zero =>
    rw [pushLetters, if_neg (fun h => by simp only [kCharsPerDraw] at h; omega)]
    congr 2
    omega
  | succ d ih =>
    rw [pushLetters]
    split
    case isTrue h =>
      rw [List.length_map, List.length_range] at h
      have hlast : tokenLetter draws k = letter (draws n) (kCharsPerDraw * j) := by
        rw [tokenLetter, kLettersPerDraw, show k / 11 = n by omega, show k % 11 = j by omega]
      rw [← hlast, ← List.map_singleton, ← List.map_append, ← List.range_succ,
        show kCharsPerDraw * j + kCharsPerDraw = kCharsPerDraw * (j + 1) by simp only [kCharsPerDraw]; omega]
      exact ih (j + 1) (k + 1) (by omega) (by omega) (by omega) (by omega)
    case isFalse h =>
      rw [List.length_map, List.length_range] at h
      simp only [kCharsPerDraw] at h
      congr 2
      omega

/-- **Number after number, the letters are those of `tokenLetter`.** -/
theorem takeDraws_eq (draws : Nat → UInt64) (target n : Nat) :
    takeDraws draws target n ((List.range (min target (kLettersPerDraw * n))).map (tokenLetter draws)) =
      (List.range target).map (tokenLetter draws) := by
  induction hd : target - n generalizing n with
  | zero =>
    have hall : min target (kLettersPerDraw * n) = target := by simp only [kLettersPerDraw]; omega
    rw [takeDraws, if_neg (by rw [List.length_map, List.length_range]; omega), hall]
  | succ d ih =>
    rw [takeDraws]
    split
    case isTrue h =>
      rw [List.length_map, List.length_range] at h
      have hpush := pushLetters_eq draws target n 0 (min target (kLettersPerDraw * n)) (by decide) (by omega)
        (by omega)
      rw [Nat.mul_zero] at hpush
      rw [hpush]
      exact ih (n + 1) (by omega)
    case isFalse h =>
      rw [List.length_map, List.length_range] at h
      rw [show min target (kLettersPerDraw * n) = target by omega]

/-- **A token, letter by letter.** -/
theorem generateToken_eq (draws : Nat → UInt64) (length : Nat) :
    (generateToken draws length).toList = (List.range (targetLength length)).map (tokenLetter draws) := by
  rw [generateToken, String.toList_ofList]
  have h := takeDraws_eq draws (targetLength length) 0
  rwa [Nat.mul_zero, Nat.min_zero, List.range_zero, List.map_nil] at h

theorem toNat_letterIndex_lt (draw : UInt64) (offset : Nat) : (letterIndex draw offset).toNat < 64 := by
  rw [letterIndex, UInt64.toNat_and]
  exact Nat.and_lt_two_pow _ (by decide : kDrawMask.toNat < 2 ^ 6)

/-- The last letter of a number has four bits. -/
theorem toNat_letterIndex_last (draw : UInt64) : (letterIndex draw 60).toNat < 16 := by
  have hshift : (draw >>> UInt64.ofNat 60).toNat = draw.toNat / 2 ^ 60 := by
    rw [UInt64.toNat_shiftRight, Nat.shiftRight_eq_div_pow]
    rfl
  rw [letterIndex, UInt64.toNat_and, hshift]
  exact Nat.lt_of_le_of_lt Nat.and_le_left (Nat.div_lt_of_lt_mul draw.toNat_lt)

theorem getElem?_letterIndex (draw : UInt64) (offset : Nat) :
    kTokenAlphabet[(letterIndex draw offset).toNat]? = some (letter draw offset) := by
  have hlt : (letterIndex draw offset).toNat < kTokenAlphabet.length := toNat_letterIndex_lt draw offset
  rw [letter, List.getD_eq_getElem?_getD, List.getElem?_eq_getElem hlt, Option.getD_some]

/-- Six bits are always a letter of the alphabet. -/
theorem letter_mem (draw : UInt64) (offset : Nat) : letter draw offset ∈ kTokenAlphabet :=
  List.mem_of_getElem? (getElem?_letterIndex draw offset)

/-- Different bits are different letters. -/
theorem nodup_alphabet : kTokenAlphabet.Nodup := by decide

/-- A letter shows its bits. -/
theorem letter_inj {draw draw' : UInt64} {offset offset' : Nat} :
    letter draw offset = letter draw' offset' ↔ letterIndex draw offset = letterIndex draw' offset' := by
  refine ⟨fun h => UInt64.toNat.inj ?_, fun h => by rw [letter, h, letter]⟩
  refine (List.getElem?_inj (toNat_letterIndex_lt draw offset) nodup_alphabet).mp ?_
  rw [getElem?_letterIndex, getElem?_letterIndex, h]

/-! ## Every token is valid

The form is checked where a token comes in, and generated tokens pass. -/

/-- The length is brought into its bounds. -/
theorem targetLength_bounds (length : Nat) :
    kMinLength ≤ targetLength length ∧ targetLength length ≤ kMaxLength := by
  rw [targetLength]
  split_ifs with hmin hmax
  · decide
  · decide
  · exact ⟨Nat.le_of_not_lt hmin, Nat.le_of_not_lt hmax⟩

/-- A letter of a token is one byte. -/
theorem utf8Size_of_mem_alphabet : ∀ c ∈ kTokenAlphabet, c.utf8Size = 1 := by
  have hall : kTokenAlphabet.all (·.utf8Size = 1) = true := by decide
  simpa using hall

/-- Letters of the alphabet are one byte each. -/
theorem utf8ByteSize_ofList {letters : List Char} (h : ∀ c ∈ letters, c ∈ kTokenAlphabet) :
    (String.ofList letters).utf8ByteSize = letters.length := by
  induction letters with
  | nil => rfl
  | cons c letters ih =>
    rw [String.ofList_cons, String.utf8ByteSize_append, String.utf8ByteSize_singleton,
      utf8Size_of_mem_alphabet c (h c List.mem_cons_self), ih fun d hd => h d (List.mem_cons_of_mem _ hd),
      List.length_cons, Nat.add_comm]

/-- A token has the right form by its length and its letters. -/
theorem isValidTokenFormat_iff {token : String} :
    isValidTokenFormat token = true ↔
      (kMinLength ≤ token.toList.length ∧ token.toList.length ≤ kMaxLength) ∧
        ∀ c ∈ token.toList, c ∈ kTokenAlphabet := by
  by_cases hletters : ∀ c ∈ token.toList, c ∈ kTokenAlphabet
  · have hsize := utf8ByteSize_ofList hletters
    rw [String.ofList_toList] at hsize
    have hall : token.toList.all (· ∈ kTokenAlphabet) = true := by simpa using hletters
    rw [isValidTokenFormat, hsize, hall, and_iff_left hletters]
    simp
  · have hall : token.toList.all (· ∈ kTokenAlphabet) = false := by simpa using hletters
    rw [isValidTokenFormat, hall, ite_self]
    exact iff_of_false Bool.false_ne_true fun h => hletters h.2

/-- Every eleventh letter is one of the first sixteen. -/
theorem tokenLetter_mem_take {i : Nat} (h : i % kLettersPerDraw = 10) (draws : Nat → UInt64) :
    tokenLetter draws i ∈ kTokenAlphabet.take 16 := by
  rw [tokenLetter, h]
  refine List.mem_of_getElem? (i := (letterIndex (draws (i / kLettersPerDraw)) 60).toNat) ?_
  rw [List.getElem?_take_of_lt (toNat_letterIndex_last _)]
  exact getElem?_letterIndex _ 60

/-- **Two tokens are equal exactly if the bits that they show are.** -/
theorem generateToken_inj {draws draws' : Nat → UInt64} {length : Nat} :
    generateToken draws' length = generateToken draws length ↔ ∀ i < targetLength length,
      letterIndex (draws' (i / kLettersPerDraw)) (kCharsPerDraw * (i % kLettersPerDraw)) =
        letterIndex (draws (i / kLettersPerDraw)) (kCharsPerDraw * (i % kLettersPerDraw)) := by
  rw [← String.toList_inj, generateToken_eq, generateToken_eq, List.map_inj_left]
  simp only [List.mem_range, tokenLetter, letter_inj]

/-- **Every token that is generated is valid**, whatever the numbers are; and it is told by the bits that its
letters show, four of every eleventh and six of the others. -/
theorem generateToken_spec (draws : Nat → UInt64) (length : Nat) :
    isValidTokenFormat (generateToken draws length) = true ∧
      (generateToken draws length).toList.length = targetLength length ∧
      (∀ i c, (generateToken draws length).toList[i]? = some c → i % kLettersPerDraw = 10 →
        c ∈ kTokenAlphabet.take 16) ∧
      ∀ draws', generateToken draws' length = generateToken draws length ↔ ∀ i < targetLength length,
        letterIndex (draws' (i / kLettersPerDraw)) (kCharsPerDraw * (i % kLettersPerDraw)) =
          letterIndex (draws (i / kLettersPerDraw)) (kCharsPerDraw * (i % kLettersPerDraw)) := by
  have hlength : (generateToken draws length).toList.length = targetLength length := by
    rw [generateToken_eq, List.length_map, List.length_range]
  refine ⟨isValidTokenFormat_iff.mpr ⟨hlength ▸ targetLength_bounds length, ?_⟩, hlength, ?_, fun draws' => ?_⟩
  · rw [generateToken_eq]
    intro c hc
    obtain ⟨i, -, rfl⟩ := List.mem_map.mp hc
    exact letter_mem _ _
  · intro i c hc hi
    rw [generateToken_eq, List.getElem?_map] at hc
    obtain ⟨j, hj, rfl⟩ := Option.map_eq_some_iff.mp hc
    obtain ⟨hlt, hj⟩ := List.getElem?_eq_some_iff.mp hj
    rw [List.getElem_range] at hj
    exact tokenLetter_mem_take (hj ▸ hi) draws
  · exact generateToken_inj

end RealtimeGame.Common
