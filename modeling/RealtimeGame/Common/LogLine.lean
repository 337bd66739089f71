import RealtimeGame.Common.Logging
import RealtimeGame.Library.Scanner

/-!
# Common/LogLine — a line is read back as it was written

The source leaves the reading of its lines to tests and scripts.  A reader splits at the blanks outside of
quotes, cuts each piece at its first equals sign and undoes the quotes; what it finds is what was to be
written (`parseLine_formatLogLine`), and so are the lines of a whole log (`parseLog_format`).
-/

open Library

namespace RealtimeGame.Common

/-! ## The reader

A reader needs to know no more than whether it is inside quotes and whether the next byte is escaped. -/

/-- Where a reader of a line is. -/
inductive QuoteState
  | outside
  | inside
  | escaped
  deriving DecidableEq, Repr

def QuoteState.next : QuoteState → UInt8 → QuoteState
  | .outside, ch => if ch = quote then .inside else .outside
  | .inside, ch => if ch = quote then .outside else if ch = backslash then .escaped else .inside
  | .escaped, _ => .inside

/-- Blanks cut, but not inside of quotes. -/
def quotes : Scanner QuoteState UInt8 where
  start := .outside
  step := QuoteState.next
  cuts := fun state ch => state = .outside && ch = blank

/-- What a byte stands for behind a backslash. -/
def escaped (ch : UInt8) : Option UInt8 :=
  if ch = quote then some quote
  else if ch = backslash then some backslash
  else if ch = 'n'.toUInt8 then some newline
  else if ch = 'r'.toUInt8 then some '\r'.toUInt8
  else if ch = 't'.toUInt8 then some '\t'.toUInt8
  else none

def hexValue (ch : UInt8) : Option UInt8 :=
  if 48 ≤ ch ∧ ch ≤ 57 then some (ch - 48)
  else if 97 ≤ ch ∧ ch ≤ 102 then some (ch - 87)
  else none

def hexByte (high low : UInt8) : Option UInt8 := do
  return (← hexValue high) * 16 + (← hexValue low)

/-- Behind the first quote: the value, if the next quote that is not escaped is the end. -/
def unescape : Bytes → Option Bytes
  | [] => none
  | ch :: rest =>
    if ch = quote then if rest = [] then some [] else none
    else if ch = backslash then
      match rest with
      | [] => none
      | ch :: rest =>
        if ch = 'x'.toUInt8 then
          match rest with
          | high :: low :: rest => do return (← hexByte high low) :: (← unescape rest)
          | _ => none
        else do return (← escaped ch) :: (← unescape rest)
    else do return ch :: (← unescape rest)

def readValue : Bytes → Option Bytes
  | [] => some []
  | ch :: rest => if ch = quote then unescape rest else some (ch :: rest)

/-- A key, its equals sign and its value. -/
def readField (token : Bytes) : Option LogField :=
  match token.dropWhile (· ≠ equalsSign) with
  | [] => none
  | _ :: value => (readValue value).map (⟨token.takeWhile (· ≠ equalsSign), ·⟩)

def parseText (text : Bytes) : Option (List LogField) := (quotes.split text).mapM readField

/-- A line has to end with a newline. -/
def parseLine (line : Bytes) : Option (List LogField) :=
  if line.getLast? = some newline then parseText line.dropLast else none

/-- The lines of a log; nothing may be left behind the last one. -/
def logLines : Scanner Unit UInt8 where
  start := ()
  step := fun _ _ => ()
  cuts := fun _ ch => ch = newline

def parseLog (log : Bytes) : Option (List (List LogField)) :=
  if (logLines.split log).getLast? = some [] then (logLines.split log).dropLast.mapM parseText else none

/-- What identifies a record, but for its time. -/
def LogRecord.identity (record : LogRecord) : List LogField :=
  [⟨bytesOf "service", record.service⟩, ⟨bytesOf "level", bytesOf record.level.toString⟩,
    ⟨bytesOf "event", record.event⟩] ++
    if record.traceId ≠ [] then [⟨bytesOf "trace", record.traceId⟩] else []

/-- What a record has to say. -/
def LogRecord.entries (record : LogRecord) (now : Int64) : List LogField :=
  ⟨bytesOf "ts", formatTimestamp (record.timestamp now)⟩ :: (record.identity ++ record.fields)

/-! ## Values

A value is written plainly or in quotes, and read back either way.  Nothing that is written could end the
line. -/

/-- A byte that is not special is none of the separators, and no control byte. -/
theorem special_eq_false {ch : UInt8} (h : special ch = false) :
    ch ≠ blank ∧ ch ≠ equalsSign ∧ ch ≠ quote ∧ ch ≠ backslash ∧ control ch = false := by
  simpa [special, and_assoc] using h

theorem control_of_special {ch : UInt8} (h : special ch = false) : control ch = false :=
  (special_eq_false h).2.2.2.2

/-- What holds of sixteen digits is checked one by one. -/
theorem forall_digit {p : UInt8 → Prop} (h : ∀ n : Fin 16, p (UInt8.ofNat n)) {d : UInt8}
    (hd : d.toNat < 16) : p d := by
  have hp := h ⟨d.toNat, hd⟩
  rwa [UInt8.ofNat_toNat] at hp

/-- A hexadecimal digit is read as what it was written for, -/
theorem hexValue_hexDigit {d : UInt8} (h : d.toNat < 16) : hexValue (hexDigit d) = some d :=
  forall_digit (p := fun d => hexValue (hexDigit d) = some d) (by decide) h

/-- …and needs no quotes. -/
theorem special_hexDigit {d : UInt8} (h : d.toNat < 16) : special (hexDigit d) = false :=
  forall_digit (p := fun d => special (hexDigit d) = false) (by decide) h

/-- A byte has two digits, the high one -/
theorem high_lt (ch : UInt8) : (ch / 16).toNat < 16 := by
  have := ch.toNat_lt
  rw [UInt8.toNat_div]
  change ch.toNat / 16 < 16
  omega

/-- …and the low one, -/
theorem low_lt (ch : UInt8) : (ch % 16).toNat < 16 := by
  rw [UInt8.toNat_mod]
  exact Nat.mod_lt _ (by decide)

/-- …which make it up again. -/
theorem hexByte_hexDigit (ch : UInt8) : hexByte (hexDigit (ch / 16)) (hexDigit (ch % 16)) = some ch := by
  have hch : ch / 16 * 16 + ch % 16 = ch := by
    apply UInt8.toNat_inj.mp
    rw [UInt8.toNat_add, UInt8.toNat_mul, UInt8.toNat_div, UInt8.toNat_mod]
    change (ch.toNat / 16 * 16 % 256 + ch.toNat % 16) % 256 = ch.toNat
    have := ch.toNat_lt
    omega
  rw [hexByte, hexValue_hexDigit (high_lt ch), hexValue_hexDigit (low_lt ch)]
  exact congrArg some hch

/-- An escaped byte is a backslash and a letter, or a backslash and two digits, or the byte. -/
theorem escapeByte_cases (ch : UInt8) :
    (∃ letter, escapeByte ch = [backslash, letter] ∧ escaped letter = some ch ∧ control letter = false) ∨
      escapeByte ch = [backslash, 'x'.toUInt8, hexDigit (ch / 16), hexDigit (ch % 16)] ∨
      escapeByte ch = [ch] ∧ ch ≠ quote ∧ ch ≠ backslash ∧ control ch = false := by
  by_cases hquote : ch = quote
  · exact Or.inl ⟨quote, by rw [hquote]; rfl, by rw [hquote]; rfl, by decide⟩
  by_cases hbackslash : ch = backslash
  · exact Or.inl ⟨backslash, by rw [hbackslash]; rfl, by rw [hbackslash]; rfl, by decide⟩
  by_cases hnewline : ch = newline
  · exact Or.inl ⟨'n'.toUInt8, by rw [hnewline]; rfl, by rw [hnewline]; rfl, by decide⟩
  by_cases hreturn : ch = '\r'.toUInt8
  · exact Or.inl ⟨'r'.toUInt8, by rw [hreturn]; rfl, by rw [hreturn]; rfl, by decide⟩
  by_cases htab : ch = '\t'.toUInt8
  · exact Or.inl ⟨'t'.toUInt8, by rw [htab]; rfl, by rw [htab]; rfl, by decide⟩
  rw [escapeByte, if_neg hquote, if_neg hbackslash, if_neg hnewline, if_neg hreturn, if_neg htab]
  by_cases hcontrol : control ch
  · exact Or.inr (Or.inl (if_pos hcontrol))
  · exact Or.inr (Or.inr ⟨if_neg hcontrol, hquote, hbackslash, Bool.eq_false_iff.mpr hcontrol⟩)

/-- **An escaped byte is read back**, whatever follows it. -/
theorem unescape_escapeByte (ch : UInt8) (rest : Bytes) :
    unescape (escapeByte ch ++ rest) = (unescape rest).map (ch :: ·) := by
  rcases escapeByte_cases ch with ⟨letter, heq, hletter, -⟩ | heq | ⟨heq, hquote, hbackslash, -⟩
  · have hx : letter ≠ 'x'.toUInt8 := by
      rintro rfl
      cases hletter
    rw [heq, List.cons_append, List.cons_append, List.nil_append, unescape.eq_def]
    dsimp only
    rw [if_neg (by decide), if_pos rfl, if_neg hx, hletter]
    cases unescape rest <;> rfl
  · rw [heq, List.cons_append, List.cons_append, List.cons_append, List.cons_append, List.nil_append,
      unescape, if_neg (by decide), if_pos rfl]
    rw [if_pos rfl, hexByte_hexDigit]
    cases unescape rest <;> rfl
  · rw [heq, List.singleton_append, unescape.eq_def]
    dsimp only
    rw [if_neg hquote, if_neg hbackslash]
    cases unescape rest <;> rfl

/-- So is the body of a quoted value, up to its quote. -/
theorem unescape_body (value : Bytes) : unescape (value.flatMap escapeByte ++ [quote]) = some value := by
  induction value with
  | nil => rfl
  | cons ch value ih =>
    rw [List.flatMap_cons, List.append_assoc, unescape_escapeByte, ih]
    rfl

/-- No byte of it is special. -/
def Plain (bytes : Bytes) : Prop := ∀ ch ∈ bytes, special ch = false

/-- No byte of it is a control byte. -/
def Printable (bytes : Bytes) : Prop := ∀ ch ∈ bytes, control ch = false

/-- A value is in quotes, or it is plain. -/
theorem escapeFieldValue_cases (value : Bytes) :
    escapeFieldValue value = quote :: value.flatMap escapeByte ++ [quote] ∨
      escapeFieldValue value = value ∧ value ≠ [] ∧ Plain value := by
  by_cases hneeds : needsQuoting value
  · exact Or.inl (if_pos hneeds)
  · refine Or.inr ⟨if_neg hneeds, ?_⟩
    rw [needsQuoting, Bool.or_eq_true, not_or, decide_eq_true_eq, Bool.not_eq_true, List.any_eq_false]
      at hneeds
    exact ⟨hneeds.1, fun ch hch => Bool.eq_false_iff.mpr (hneeds.2 ch hch)⟩

/-- A plain value is written as it is. -/
theorem escapeFieldValue_of_plain {value : Bytes} (hne : value ≠ []) (h : Plain value) :
    escapeFieldValue value = value := by
  refine if_neg ?_
  rw [needsQuoting, Bool.or_eq_true, not_or, decide_eq_true_eq, Bool.not_eq_true, List.any_eq_false]
  exact ⟨hne, fun ch hch => Bool.eq_false_iff.mp (h ch hch)⟩

/-- **Quotes and escapes are undone.** -/
theorem readValue_escapeFieldValue (value : Bytes) : readValue (escapeFieldValue value) = some value := by
  rcases escapeFieldValue_cases value with heq | ⟨heq, hne, hplain⟩
  · rw [heq, List.cons_append, readValue, if_pos rfl, unescape_body]
  · obtain ⟨ch, rest, rfl⟩ := List.exists_cons_of_ne_nil hne
    obtain ⟨-, -, hquote, -⟩ := special_eq_false (hplain ch List.mem_cons_self)
    rw [heq, readValue, if_neg hquote]

/-- What is escaped can be printed. -/
theorem printable_escapeByte (ch : UInt8) : Printable (escapeByte ch) := by
  have hbackslash : control backslash = false := by decide
  have hx : control 'x'.toUInt8 = false := by decide
  rcases escapeByte_cases ch with ⟨letter, heq, -, hletter⟩ | heq | ⟨heq, -, -, hch⟩
  · rw [heq, Printable, List.forall_mem_cons, List.forall_mem_singleton]
    exact ⟨hbackslash, hletter⟩
  · rw [heq, Printable, List.forall_mem_cons, List.forall_mem_cons, List.forall_mem_cons,
      List.forall_mem_singleton]
    exact ⟨hbackslash, hx, control_of_special (special_hexDigit (high_lt ch)),
      control_of_special (special_hexDigit (low_lt ch))⟩
  · rw [heq, Printable, List.forall_mem_singleton]
    exact hch

theorem Plain.printable {bytes : Bytes} (h : Plain bytes) : Printable bytes :=
  fun ch hch => control_of_special (h ch hch)

theorem Printable.append {xs ys : Bytes} (hxs : Printable xs) (hys : Printable ys) : Printable (xs ++ ys) :=
  List.forall_mem_append.mpr ⟨hxs, hys⟩

theorem Printable.cons {ch : UInt8} {bytes : Bytes} (hch : control ch = false) (h : Printable bytes) :
    Printable (ch :: bytes) := List.forall_mem_cons.mpr ⟨hch, h⟩

theorem Printable.flatMap {ι : Type} {items : List ι} {text : ι → Bytes}
    (h : ∀ item ∈ items, Printable (text item)) : Printable (items.flatMap text) := by
  intro ch hch
  obtain ⟨item, hitem, hmem⟩ := List.mem_flatMap.mp hch
  exact h item hitem ch hmem

/-- **No control byte stands in a written value.** -/
theorem printable_escapeFieldValue (value : Bytes) : Printable (escapeFieldValue value) := by
  have hquote : control quote = false := by decide
  rcases escapeFieldValue_cases value with heq | ⟨heq, -, hplain⟩
  · rw [heq, List.cons_append]
    refine .cons hquote (.append (.flatMap fun ch _ => printable_escapeByte ch) (.cons hquote ?_))
    exact fun ch hch => absurd hch List.not_mem_nil
  · rw [heq]
    exact hplain.printable

/-! ## Pieces

A blank inside quotes does not split a line: going over a written field leaves the reader outside. -/

/-- Outside of quotes, what has neither blanks nor quotes is gone over. -/
theorem run_outside {bytes : Bytes} (h : ∀ ch ∈ bytes, ch ≠ blank ∧ ch ≠ quote) :
    quotes.run .outside bytes = some .outside := by
  induction bytes with
  | nil => rfl
  | cons ch bytes ih =>
    rw [List.forall_mem_cons] at h
    rw [Scanner.run, if_neg (by simp [quotes, h.1.1])]
    change quotes.run (if ch = quote then .inside else .outside) bytes = _
    rw [if_neg h.1.2, ih h.2]

/-- A plain text does not open quotes, -/
theorem Plain.run_outside {bytes : Bytes} (h : Plain bytes) : quotes.run .outside bytes = some .outside :=
  Common.run_outside fun ch hch =>
    ⟨(special_eq_false (h ch hch)).1, (special_eq_false (h ch hch)).2.2.1⟩

/-- Inside of quotes, so is what has neither quotes nor backslashes. -/
theorem run_inside {bytes : Bytes} (h : ∀ ch ∈ bytes, ch ≠ quote ∧ ch ≠ backslash) :
    quotes.run .inside bytes = some .inside := by
  induction bytes with
  | nil => rfl
  | cons ch bytes ih =>
    rw [List.forall_mem_cons] at h
    change quotes.run (if ch = quote then .outside else if ch = backslash then .escaped else .inside) bytes =
      some .inside
    rw [if_neg h.1.1, if_neg h.1.2, ih h.2]

/-- …and an escaped byte does not close them. -/
theorem run_escapeByte (ch : UInt8) : quotes.run .inside (escapeByte ch) = some .inside := by
  have hdigit : ∀ {d : UInt8}, d.toNat < 16 → hexDigit d ≠ quote ∧ hexDigit d ≠ backslash := fun hd =>
    ⟨(special_eq_false (special_hexDigit hd)).2.2.1, (special_eq_false (special_hexDigit hd)).2.2.2.1⟩
  rcases escapeByte_cases ch with ⟨letter, heq, -⟩ | heq | ⟨heq, hquote, hbackslash, -⟩
  · rw [heq]
    rfl
  · rw [heq]
    change quotes.run .inside [hexDigit (ch / 16), hexDigit (ch % 16)] = _
    refine run_inside ?_
    rw [List.forall_mem_cons, List.forall_mem_singleton]
    exact ⟨hdigit (high_lt ch), hdigit (low_lt ch)⟩
  · rw [heq]
    exact run_inside (List.forall_mem_singleton.mpr ⟨hquote, hbackslash⟩)

/-- A quoted value ends at its own quote. -/
theorem run_body (value : Bytes) :
    quotes.run .inside (value.flatMap escapeByte ++ [quote]) = some .outside := by
  induction value with
  | nil => rfl
  | cons ch value ih =>
    rw [List.flatMap_cons, List.append_assoc, Scanner.run_append (run_escapeByte ch), ih]

/-- So a written value leaves the reader where it was, outside. -/
theorem run_escapeFieldValue (value : Bytes) :
    quotes.run .outside (escapeFieldValue value) = some .outside := by
  rcases escapeFieldValue_cases value with heq | ⟨heq, -, hplain⟩
  · rw [heq]
    exact run_body value
  · rw [heq]
    exact hplain.run_outside

/-- What is written for a key and a value. -/
def token (field : LogField) : Bytes := field.key ++ equalsSign :: escapeFieldValue field.value

/-- A field is one piece of its line. -/
theorem whole_token {field : LogField} (h : Plain field.key) : quotes.Whole (token field) := by
  have hequals : quotes.run .outside [equalsSign] = some .outside := by decide
  rw [Scanner.Whole, token, List.append_cons, List.append_assoc]
  change quotes.run .outside _ = some .outside
  rw [Scanner.run_append h.run_outside, Scanner.run_append hequals, run_escapeFieldValue]

theorem printable_token {field : LogField} (h : Plain field.key) : Printable (token field) :=
  h.printable.append (.cons (by decide) (printable_escapeFieldValue field.value))

/-- **A key and its value** are read back. -/
theorem readField_token {field : LogField} (h : Plain field.key) : readField (token field) = some field := by
  have hkey : ∀ ch ∈ field.key, decide (ch ≠ equalsSign) = true := fun ch hch =>
    decide_eq_true (special_eq_false (h ch hch)).2.1
  have hend : ∀ ch ∈ (equalsSign :: escapeFieldValue field.value).head?,
      decide (ch ≠ equalsSign) = false := by
    intro ch hch
    obtain rfl := Option.mem_some.mp hch
    exact decide_eq_false (not_not.mpr rfl)
  obtain ⟨htake, hdrop⟩ := Decimal.span_append hkey hend
  rw [readField, token, htake, hdrop]
  dsimp only
  rw [readValue_escapeFieldValue, Option.map_some]

/-! ## Lines

A line is its fields with blanks between them, and the fields of the record stand behind those that identify
it. -/

instance (bytes : Bytes) : Decidable (Plain bytes) :=
  List.decidableBAll _ bytes

theorem Plain.append {xs ys : Bytes} (hxs : Plain xs) (hys : Plain ys) : Plain (xs ++ ys) :=
  List.forall_mem_append.mpr ⟨hxs, hys⟩

theorem special_of_isDigit {ch : UInt8} (h : Decimal.isDigit ch = true) : special ch = false := by
  have hne : ∀ {other : UInt8}, Decimal.isDigit other = false → ch ≠ other := by
    rintro other hother rfl
    exact absurd h (Bool.eq_false_iff.mp hother)
  have hlow : ¬ch < 0x20 := by
    rw [Decimal.isDigit, Bool.and_eq_true, decide_eq_true_eq] at h
    rw [UInt8.lt_iff_toNat_lt]
    exact Nat.not_lt.mpr (le_trans (by decide) h.1)
  rw [special, control, decide_eq_false (hne (by decide)), decide_eq_false (hne (by decide)),
    decide_eq_false (hne (by decide)), decide_eq_false (hne (by decide)), decide_eq_false hlow,
    decide_eq_false (hne (by decide))]
  rfl

/-- A number with its zeros needs no quotes. -/
theorem plain_zeroPadded (width : Nat) (n : Int) : Plain (zeroPadded width n) := by
  have hdigits : ∀ width : Nat, Plain ((Decimal.numeral n.natAbs).leftpad width '0'.toUInt8) := by
    intro width
    refine Plain.append (fun ch hch => ?_) fun ch hch =>
      special_of_isDigit (Decimal.isDigit_of_mem_numeral hch)
    rw [(List.mem_replicate.mp hch).2]
    decide
  rw [zeroPadded]
  split
  · exact List.forall_mem_cons.mpr ⟨by decide, hdigits _⟩
  · exact hdigits _

/-- A time is written with digits and a few other bytes, so without quotes. -/
theorem plain_formatTimestamp (timestampMs : Int64) :
    formatTimestamp timestampMs ≠ [] ∧ Plain (formatTimestamp timestampMs) := by
  unfold formatTimestamp
  extract_lets parts written
  have hplain : Plain written := by
    repeat' apply Plain.append
    all_goals first | exact plain_zeroPadded _ _ | decide
  have hne : written ≠ [] := List.append_ne_nil_of_right_ne_nil _ (by decide)
  split
  case isTrue => exact ⟨by decide, by decide⟩
  case isFalse => exact ⟨fun hnil => hne ((List.take_eq_nil_iff.mp hnil).resolve_left (by decide)),
    fun ch hch => hplain ch (List.mem_of_mem_take hch)⟩

/-- A field is put behind a blank, -/
theorem appendField_eq (line : Bytes) (field : LogField) :
    appendField line field.key field.value = line ++ blank :: token field := by
  rw [appendField, token, List.append_assoc, List.cons_append]

/-- …one after another. -/
theorem foldl_appendField (fields : List LogField) (line : Bytes) :
    fields.foldl (fun line field => appendField line field.key field.value) line =
      line ++ fields.flatMap fun field => blank :: token field := by
  induction fields generalizing line with
  | nil => exact (List.append_nil _).symm
  | cons field fields ih => rw [List.foldl_cons, ih, appendField_eq, List.flatMap_cons, List.append_assoc]

/-- A line is what a record has to say, and a newline. -/
theorem formatLogLine_eq (now : Int64) (record : LogRecord) :
    formatLogLine now record =
      token ⟨bytesOf "ts", formatTimestamp (record.timestamp now)⟩ ++
        (record.identity ++ record.fields).flatMap (fun field => blank :: token field) ++ [newline] := by
  obtain ⟨hne, hplain⟩ := plain_formatTimestamp (record.timestamp now)
  have hts : bytesOf "ts=" = bytesOf "ts" ++ [equalsSign] := by decide
  have hstart : bytesOf "ts=" ++ formatTimestamp (record.timestamp now) =
      token ⟨bytesOf "ts", formatTimestamp (record.timestamp now)⟩ := by
    rw [token, escapeFieldValue_of_plain hne hplain, hts, List.append_assoc, List.singleton_append]
  have hline : formatLogLine now record =
      (record.identity ++ record.fields).foldl (fun line field => appendField line field.key field.value)
        (bytesOf "ts=" ++ formatTimestamp (record.timestamp now)) ++ [newline] := by
    rw [List.foldl_append, LogRecord.identity, List.foldl_append, formatLogLine]
    by_cases htrace : record.traceId ≠ []
    · rw [if_pos htrace, if_pos htrace]
      rfl
    · rw [if_neg htrace, if_neg htrace]
      rfl
  rw [hline, foldl_appendField, hstart]

/-- The keys that every line has are plain. -/
theorem plain_key {record : LogRecord} (now : Int64) (h : ∀ field ∈ record.fields, Plain field.key) :
    ∀ field ∈ record.entries now, Plain field.key := by
  have hidentity : ∀ field ∈ record.identity, Plain field.key := by
    rw [LogRecord.identity, List.forall_mem_append, List.forall_mem_cons, List.forall_mem_cons,
      List.forall_mem_singleton]
    refine ⟨⟨(by decide : Plain (bytesOf "service")), (by decide : Plain (bytesOf "level")),
      (by decide : Plain (bytesOf "event"))⟩, ?_⟩
    split
    · exact List.forall_mem_singleton.mpr (by decide : Plain (bytesOf "trace"))
    · exact fun field hfield => absurd hfield List.not_mem_nil
  exact List.forall_mem_cons.mpr
    ⟨(by decide : Plain (bytesOf "ts")), List.forall_mem_append.mpr ⟨hidentity, h⟩⟩

/-- A line but for its newline. -/
def lineText (now : Int64) (record : LogRecord) : Bytes := (formatLogLine now record).dropLast

/-- A line is its text and a newline, -/
theorem lineText_eq (now : Int64) (record : LogRecord) :
    formatLogLine now record = lineText now record ++ [newline] := by
  rw [lineText, formatLogLine_eq, List.dropLast_concat]

/-- …which does not stand in the text. -/
theorem printable_lineText {record : LogRecord} (now : Int64) (h : ∀ field ∈ record.fields, Plain field.key) :
    Printable (lineText now record) := by
  have hentries := List.forall_mem_cons.mp (plain_key now h)
  rw [lineText, formatLogLine_eq, List.dropLast_concat]
  exact .append (printable_token hentries.1)
    (.flatMap fun field hfield => .cons (by decide) (printable_token (hentries.2 field hfield)))

/-- **The text of a line is read back** as its entries. -/
theorem parseText_lineText {record : LogRecord} (now : Int64) (h : ∀ field ∈ record.fields, Plain field.key) :
    parseText (lineText now record) = some (record.entries now) := by
  have hentries := List.forall_mem_cons.mp (plain_key now h)
  have hsplit : quotes.split (lineText now record) = (record.entries now).map token := by
    rw [lineText, formatLogLine_eq, List.dropLast_concat, ← List.flatMap_map]
    refine Scanner.split_pieces (by decide) (whole_token hentries.1) ?_
    rw [List.forall_mem_map]
    exact fun field hfield => whole_token (hentries.2 field hfield)
  have hread : ((record.entries now).map token).mapM readField = some ((record.entries now).map id) :=
    mapM_written fun field hfield => readField_token (plain_key now h field hfield)
  rw [parseText, hsplit, hread, List.map_id]

/--
**A line is read back**, and ends where its only newline is.

A key is written as it is, so it has to be plain; the other texts of a record may be any bytes.
-/
theorem parseLine_formatLogLine (now : Int64) (record : LogRecord)
    (h : ∀ field ∈ record.fields, Plain field.key) :
    (∃ text, formatLogLine now record = text ++ [newline] ∧ Printable text) ∧
      parseLine (formatLogLine now record) = some (record.entries now) := by
  refine ⟨⟨lineText now record, lineText_eq now record, printable_lineText now h⟩, ?_⟩
  rw [parseLine, lineText_eq, List.getLast?_concat, if_pos rfl, List.dropLast_concat,
    parseText_lineText now h]

/-- A value that looks like two lines is one value of one line. -/
theorem parseLine_forged :
    parseLine (formatLogLine 5
      { service := bytesOf "room"
        event := bytesOf "a\" level=error b=\"\n\\"
        fields := [⟨[], []⟩, ⟨bytesOf "cause", bytesOf "x y=z" ++ [7]⟩] }) =
      some [⟨bytesOf "ts", bytesOf "1970-01-01T00:00:00.005Z"⟩, ⟨bytesOf "service", bytesOf "room"⟩,
        ⟨bytesOf "level", bytesOf "info"⟩, ⟨bytesOf "event", bytesOf "a\" level=error b=\"\n\\"⟩, ⟨[], []⟩,
        ⟨bytesOf "cause", bytesOf "x y=z" ++ [7]⟩] :=
  (parseLine_formatLogLine 5 _ (by decide)).2

/-- **A log is read back**: no value makes a line of its own. -/
theorem parseLog_format (log : List (Int64 × LogRecord))
    (h : ∀ written ∈ log, ∀ field ∈ written.2.fields, Plain field.key) :
    parseLog (log.flatMap fun written => formatLogLine written.1 written.2) =
      some (log.map fun written => written.2.entries written.1) := by
  have hwhole : ∀ text ∈ log.map (fun written => lineText written.1 written.2), logLines.Whole text := by
    rw [List.forall_mem_map]
    intro written hwritten
    refine Scanner.whole_of_forall fun ch hch => decide_eq_false ?_
    rintro rfl
    exact absurd (printable_lineText written.1 (h written hwritten) newline hch) (by decide)
  have hlog : log.flatMap (fun written => formatLogLine written.1 written.2) =
      (log.map fun written => lineText written.1 written.2).flatMap (· ++ [newline]) := by
    rw [List.flatMap_map]
    exact List.flatMap_congr fun written _ => lineText_eq written.1 written.2
  rw [parseLog, hlog, Scanner.split_ended (by decide) hwhole, List.getLast?_concat, if_pos rfl,
    List.dropLast_concat]
  exact mapM_written fun written hwritten => parseText_lineText written.1 (h written hwritten)

end RealtimeGame.Common
