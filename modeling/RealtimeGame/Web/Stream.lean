import RealtimeGame.Library.Double
import RealtimeGame.Library.Json
import RealtimeGame.Library.Utf8

/-!
# Web/Stream — how the web client takes the stream apart

`streamRoom` decodes each chunk, appends it to a buffer, and cuts off blocks at empty lines; `parseSseBlock`
makes an event of a block.  A string is the list of its characters.  The decoder and the parser of JSON are the
browser's (`TextDecoder`, `JSON.parse`), so they are parameters.
-/

open Library

namespace RealtimeGame.Web

structure StreamEvent where
  event : List Char
  data : List Char
  id : Option Int := none
  deriving DecidableEq, Repr

inductive PushStatus
  | connecting
  | connected
  | reconnecting
  | exhausted
  | stopped
  deriving DecidableEq, Repr

/-! ## One block

Field by field, a line that is no field is left out. -/

/-- White space and ends of lines, but for the blanks from U+2000 to U+200A. -/
def spaces : List Char :=
  ['\t', '\n', Char.ofNat 0x0B, Char.ofNat 0x0C, '\r', ' ', Char.ofNat 0xA0, Char.ofNat 0x1680,
    Char.ofNat 0x2028, Char.ofNat 0x2029, Char.ofNat 0x202F, Char.ofNat 0x205F, Char.ofNat 0x3000,
    Char.ofNat 0xFEFF]

/-- What `parseInt` skips. -/
def isSpace (c : Char) : Bool := c ∈ spaces || (0x2000 ≤ c.toNat && c.toNat ≤ 0x200A)

/-- A number of the client that has no fraction; the two zeros are one. -/
inductive Number
  | nan
  | infinite (negative : Bool)
  | finite (value : Int)
  deriving DecidableEq, Repr

def Number.ofDouble (negative : Bool) : Option Nat → Number
  | none => infinite negative
  | some value => finite (if negative then -value else value)

/-- The double nearest to the digits that were read. -/
def Number.ofRead (negative : Bool) : Option (Nat × List Char) → Number
  | none => nan
  | some read => ofDouble negative (Double.ofNat read.1)

/-- `Number.parseInt(value, 10)`. -/
def parseInt (value : List Char) : Number :=
  match value.dropWhile isSpace with
  | '-' :: digits => .ofRead true (Numeral.readNat digits)
  | '+' :: digits => .ofRead false (Numeral.readNat digits)
  | digits => .ofRead false (Numeral.readNat digits)

/-- What the lines of a block have said so far. -/
structure Fields where
  event : List Char := "message".toList
  data : List (List Char) := []
  id : Option Int := none
  deriving DecidableEq, Repr

/-- One blank before a value is not part of it. -/
def stripBlank : List Char → List Char
  | ' ' :: value => value
  | value => value

/-- One field of a block. -/
def Fields.set (fields : Fields) (field value : List Char) : Fields :=
  if field = "event".toList then { fields with event := value }
  else if field = "data".toList then { fields with data := fields.data ++ [value] }
  else if field = "id".toList then
    match parseInt value with
    | .finite parsed => if 0 ≤ parsed then { fields with id := some parsed } else fields
    | .infinite _ | .nan => fields
  else fields

/-- One line of a block; empty lines and comments say nothing. -/
def Fields.readLine (fields : Fields) (rawLine : List Char) : Fields :=
  let line := if rawLine.getLast? = some '\r' then rawLine.dropLast else rawLine
  if line = [] then fields
  else if line.head? = some ':' then fields
  else
    let field := line.takeWhile (· ≠ ':')
    let value := (line.dropWhile (· ≠ ':')).drop 1
    fields.set field (stripBlank value)

/-- **`parseSseBlock`** — nothing for a block without data. -/
def parseSseBlock (block : List Char) : Option StreamEvent :=
  let fields := (block.splitOn '\n').foldl Fields.readLine {}
  if fields.data = [] then none
  else some { event := fields.event, data := List.intercalate ['\n'] fields.data, id := fields.id }

/-- `decodeEnvelope`, for the given `JSON.parse`. -/
def decodeEnvelope (parse : List Char → Option Json) (event : StreamEvent) : Option Json := parse event.data

/-- What the session of a game gets to see of an event. -/
structure Frame where
  event : List Char
  id : Option Int
  envelope : Option Json

def StreamEvent.frame (parse : List Char → Option Json) (event : StreamEvent) : Frame :=
  ⟨event.event, event.id, decodeEnvelope parse event⟩

/-! ## The stream

Chunks are appended to a buffer, and blocks are cut off it. -/

/-- `.replace(/\r\n/g, '\n')`. -/
def unifyNewlines : List Char → List Char
  | '\r' :: '\n' :: text => '\n' :: unifyNewlines text
  | c :: text => c :: unifyNewlines text
  | [] => []

/-- The first block, up to an empty line. -/
def cutBlock : List Char → Option (List Char × List Char)
  | '\n' :: '\n' :: rest => some ([], rest)
  | c :: text => (cutBlock text).map fun cut => (c :: cut.1, cut.2)
  | [] => none

theorem cutBlock_cons_of_ne {c : Char} (h : c ≠ '\n') (text : List Char) :
    cutBlock (c :: text) = (cutBlock text).map fun cut => (c :: cut.1, cut.2) := by
  rw [cutBlock]
  exact fun _ heq _ => h heq

theorem cutBlock_newline_cons {c : Char} (h : c ≠ '\n') (text : List Char) :
    cutBlock ('\n' :: c :: text) = (cutBlock (c :: text)).map fun cut => ('\n' :: cut.1, cut.2) := by
  rw [cutBlock]
  exact fun _ _ heq => h (List.cons.inj heq).1

/-- The blocks of the stream. -/
def sseBlocks : Framing Char (List Char) where
  cut := cutBlock
  length_lt := by
    intro text
    induction text using cutBlock.induct with
    | case1 rest =>
      intro block rest' h
      obtain ⟨-, rfl⟩ := Prod.mk.inj (Option.some.inj h)
      simp only [List.length_cons]
      omega
    | case2 c text hnot ih =>
      intro block rest h
      rw [cutBlock] at h
      · obtain ⟨cut, hcut, heq⟩ := Option.map_eq_some_iff.mp h
        obtain ⟨-, rfl⟩ := Prod.mk.inj heq
        exact (ih hcut).trans (Nat.lt_succ_self _)
      · exact hnot
    | case3 =>
      intro block rest h
      cases h
  cut_append := by
    intro text
    induction text using cutBlock.induct with
    | case1 rest =>
      intro block rest' more h
      obtain ⟨rfl, rfl⟩ := Prod.mk.inj (Option.some.inj h)
      rfl
    | case2 c text hnot ih =>
      intro block rest more h
      rw [cutBlock] at h
      · obtain ⟨cut, hcut, heq⟩ := Option.map_eq_some_iff.mp h
        obtain ⟨rfl, rfl⟩ := Prod.mk.inj heq
        rw [List.cons_append, cutBlock, ih more hcut, Option.map_some]
        -- Nothing is cut off the empty text, so the two ends of lines are not made by what is appended.
        rintro tail rfl htail
        rcases text with - | ⟨d, text⟩
        · cases hcut
        · obtain ⟨rfl, -⟩ := List.cons.inj htail
          exact hnot text rfl rfl
      · exact hnot
    | case3 =>
      intro block rest more h
      cases h

variable {σ : Type} (decoder : TextDecoder σ)

/-- The loop of `streamRoom`, over the chunks that the reader gives. -/
def readChunks (kept : σ) (buffer : List Char) : List (List UInt8) → List StreamEvent
  | [] => []
  | value :: values =>
    let decoded := decoder.decode kept value
    let drained := sseBlocks.drain (buffer ++ unifyNewlines decoded.1)
    drained.1.filterMap parseSseBlock ++ readChunks decoded.2 drained.2 values

/-- **`streamRoom`**: the events of a stream that arrives in these chunks. -/
def streamRoom (chunks : List (List UInt8)) : List StreamEvent := readChunks decoder decoder.start [] chunks

/-! ## The chunks do not matter

Without carriage returns, cutting is a `Framing`. -/

variable {decoder}

theorem unifyNewlines_of_not_mem {text : List Char} (h : '\r' ∉ text) : unifyNewlines text = text := by
  induction text with
  | nil => rfl
  | cons c text ih =>
    rw [List.mem_cons, not_or] at h
    rw [unifyNewlines, ih h.2]
    exact fun _ heq _ => h.1 heq.symm

theorem readChunks_eq (kept : σ) (buffer : List Char) (chunks : List (List UInt8)) :
    readChunks decoder kept buffer chunks =
      (sseBlocks.feed buffer ((decoder.texts kept chunks).map unifyNewlines)).1.flatten.filterMap
        parseSseBlock := by
  induction chunks generalizing kept buffer with
  | nil => rfl
  | cons value values ih =>
    simp only [readChunks, TextDecoder.texts, List.map_cons, Framing.feed, List.flatten_cons,
      List.filterMap_append, ih]

/-- **The events are those of the whole text**, if it has no carriage returns. -/
theorem streamRoom_eq {text : List Char} {chunks : List (List UInt8)}
    (htext : (decoder.texts decoder.start chunks).flatten = text) (hreturn : '\r' ∉ text) :
    streamRoom decoder chunks = (sseBlocks.drain text).1.filterMap parseSseBlock := by
  have hsame : (decoder.texts decoder.start chunks).map unifyNewlines = decoder.texts decoder.start chunks := by
    conv_rhs => rw [← List.map_id (decoder.texts decoder.start chunks)]
    refine List.map_congr_left fun piece hpiece => unifyNewlines_of_not_mem fun hmem => hreturn ?_
    rw [← htext]
    exact List.mem_flatten_of_mem hpiece hmem
  rw [streamRoom, readChunks_eq, hsame, ← htext, ← Framing.feed_flatten]

/-! ## Lines and blocks

A block is what stands before two ends of a line. -/

theorem cutBlock_append {line : List Char} (h : '\n' ∉ line) (text : List Char) :
    cutBlock (line ++ text) = (cutBlock text).map fun cut => (line ++ cut.1, cut.2) := by
  induction line with
  | nil => exact (Option.map_id_apply).symm
  | cons c line ih =>
    rw [List.mem_cons, not_or] at h
    rw [List.cons_append, cutBlock_cons_of_ne (Ne.symm h.1), ih h.2, Option.map_map]
    rfl

/-- Lines of which only the first may be empty do not end a block; what follows them may. -/
theorem cutBlock_intercalate {lines : List (List Char)} (hne : lines ≠ [])
    (hplain : ∀ line ∈ lines, '\n' ∉ line) (hfull : ∀ line ∈ lines.tail, line ≠ []) (rest : List Char) :
    cutBlock (List.intercalate ['\n'] lines ++ '\n' :: rest) =
      (cutBlock ('\n' :: rest)).map fun cut => (List.intercalate ['\n'] lines ++ cut.1, cut.2) := by
  induction lines with
  | nil => exact absurd rfl hne
  | cons line lines ih =>
    have hfree := hplain line List.mem_cons_self
    rcases lines with - | ⟨line', lines⟩
    · rw [List.intercalate_singleton, cutBlock_append hfree]
    · have hfull' : ∀ l ∈ line' :: lines, l ≠ [] := hfull
      have hrest := ih (List.cons_ne_nil _ _) (fun l hl => hplain l (List.mem_cons_of_mem _ hl))
        fun l hl => hfull' l (List.mem_of_mem_tail hl)
      -- The next line is not empty, so that this end of a line is a single one.
      obtain ⟨c, text, rfl⟩ := List.exists_cons_of_ne_nil (hfull' line' List.mem_cons_self)
      obtain ⟨tail, htail⟩ := Json.exists_intercalate_cons ['\n'] (c :: text) lines
      have hc : c ≠ '\n' := by
        rintro rfl
        exact hplain _ (List.mem_cons_of_mem _ List.mem_cons_self) List.mem_cons_self
      rw [List.intercalate_cons_cons, List.append_assoc, List.append_assoc, cutBlock_append hfree,
        List.singleton_append]
      rw [htail] at hrest ⊢
      rw [List.cons_append, List.cons_append] at hrest ⊢
      rw [cutBlock_newline_cons hc, hrest, Option.map_map, Option.map_map]
      simp [Function.comp_def]

/-- **A block of lines**, of which only the first may be empty, is cut off whole. -/
theorem cutBlock_lines {lines : List (List Char)} (hne : lines ≠ [])
    (hplain : ∀ line ∈ lines, '\n' ∉ line) (hfull : ∀ line ∈ lines.tail, line ≠ []) (more : List Char) :
    cutBlock (List.intercalate ['\n'] lines ++ '\n' :: '\n' :: more) =
      some (List.intercalate ['\n'] lines, more) := by
  rw [cutBlock_intercalate hne hplain hfull, cutBlock, Option.map_some, List.append_nil]

theorem Number.ofRead_of_lt {n : Nat} (h : n < 2 ^ 53) (rest : List Char) :
    ofRead false (some (n, rest)) = finite n := by
  rw [ofRead, Double.ofNat_of_lt h, ofDouble, if_neg Bool.false_ne_true]

/-- **A number below `2^53` is read as it was written.** -/
theorem parseInt_numeral {n : Int} (h : 0 ≤ n ∧ n < 2 ^ 53) : parseInt (Numeral.numeral n) = .finite n := by
  have hdigits : Numeral.numeral n = Nat.toDigits 10 n.natAbs := by
    rw [Numeral.numeral_eq, if_neg (not_lt.mpr h.1)]
  obtain ⟨c, digits, htext⟩ := List.exists_cons_of_ne_nil (Nat.toDigits_ne_nil (n := n.natAbs) (b := 10))
  have hdigit : c.isDigit = true := Numeral.isDigit_of_mem_toDigits (htext ▸ List.mem_cons_self)
  have hspace : isSpace c = false := by
    obtain ⟨hlow, hhigh⟩ := Char.isDigit_iff_toNat.mp hdigit
    have hbounds : (spaces.all fun d => d.toNat < '0'.toNat || '9'.toNat < d.toNat) = true := by decide
    rw [isSpace, Bool.or_eq_false_iff, decide_eq_false_iff_not, Bool.and_eq_false_iff]
    refine ⟨fun hmem => ?_, .inl (decide_eq_false (Nat.not_le.mpr (hhigh.trans_lt (by decide))))⟩
    have hfar := List.all_eq_true.mp hbounds c hmem
    rw [Bool.or_eq_true, decide_eq_true_iff, decide_eq_true_iff] at hfar
    omega
  have hsign : ∀ sign : Char, sign.isDigit = false → c ≠ sign := by
    rintro _ hnot rfl
    cases hnot.symm.trans hdigit
  have hread : Numeral.readNat (Nat.toDigits 10 n.natAbs ++ []) = some (n.natAbs, []) :=
    Numeral.readNat_toDigits _ fun d hd => by cases hd
  rw [List.append_nil, htext] at hread
  rw [parseInt, hdigits, htext, List.dropWhile_cons_of_neg (by rw [hspace]; exact Bool.false_ne_true)]
  split
  case h_1 heq => exact absurd (List.cons.inj heq).1 (hsign _ rfl)
  case h_2 heq => exact absurd (List.cons.inj heq).1 (hsign _ rfl)
  case h_3 =>
    have hlt : n.natAbs < 2 ^ 53 := by omega
    rw [hread, Number.ofRead_of_lt hlt, Int.natAbs_of_nonneg h.1]

variable {fields : Fields}

/-- A line gives one field its value. -/
theorem readLine_field {field value : List Char} (hne : field ≠ []) (hcolon : ':' ∉ field)
    (hreturn : '\r' ∉ field ++ ':' :: ' ' :: value) :
    fields.readLine (field ++ ':' :: ' ' :: value) = fields.set field value := by
  have hlast : (field ++ ':' :: ' ' :: value).getLast? ≠ some '\r' := fun hlast =>
    hreturn (List.mem_of_getLast? hlast)
  obtain ⟨c, text, rfl⟩ := List.exists_cons_of_ne_nil hne
  have hall : ∀ d ∈ c :: text, (decide (d ≠ ':')) = true := by
    intro d hd
    exact decide_eq_true fun heq => hcolon (heq ▸ hd)
  have hhead : ((c :: text) ++ ':' :: ' ' :: value).head? ≠ some ':' := fun hhead =>
    hcolon (Option.some.inj hhead ▸ List.mem_cons_self)
  rw [Fields.readLine, if_neg hlast, if_neg (List.append_ne_nil_of_left_ne_nil (List.cons_ne_nil _ _) _),
    if_neg hhead]
  have hended : ∀ d ∈ (':' :: ' ' :: value).head?, (decide (d ≠ ':')) = false := by
    intro d hd
    obtain rfl := Option.some.inj hd
    decide
  obtain ⟨htake, hdrop⟩ := Decimal.span_append hall hended
  dsimp only
  rw [htake, hdrop]
  rfl

end RealtimeGame.Web
