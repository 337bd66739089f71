import RealtimeGame.Library.Framing

/-!
# Library/Utf8 — texts as bytes, and decoders that get the bytes in pieces

A decoder keeps the bytes of a character that is not whole yet, so that a text may be split anywhere:
`TextDecoder.Incremental` asks this of a decoder, and `TextDecoder.streaming` is one that does it.
-/

namespace Library

/-- The bytes of a text. -/
def utf8 (text : List Char) : List UInt8 := text.flatMap String.utf8EncodeChar

/-- The bytes of two texts follow one another. -/
@[simp] theorem utf8_append (text more : List Char) : utf8 (text ++ more) = utf8 text ++ utf8 more :=
  List.flatMap_append

@[simp] theorem utf8_nil : utf8 [] = [] := rfl

/-- The bytes of a string. -/
def bytesOf (s : String) : List UInt8 := utf8 s.toList

theorem utf8_flatMap {ι : Type} (parts : List ι) (text : ι → List Char) :
    utf8 (parts.flatMap text) = parts.flatMap fun part => utf8 (text part) := List.flatMap_assoc

/-- …and so do those of many. -/
theorem utf8_flatten (texts : List (List Char)) : (texts.map utf8).flatten = utf8 texts.flatten := by
  induction texts with
  | nil => rfl
  | cons text texts ih => rw [List.map_cons, List.flatten_cons, ih, List.flatten_cons, utf8_append]

/-! ## ASCII and the rest

No byte of a longer encoding is an ASCII one, so that a byte of a separator stands for itself wherever it is
found. -/

/-- An ASCII character is one byte, of its own number. -/
theorem utf8EncodeChar_of_lt {c : Char} (h : c.toNat < 128) :
    String.utf8EncodeChar c = [UInt8.ofNat c.toNat] := if_pos (Nat.le_of_lt_succ h)

/-- The bytes of the other characters are none of ASCII. -/
theorem le_of_mem_utf8EncodeChar {c : Char} (h : 128 ≤ c.toNat) {b : UInt8}
    (hb : b ∈ String.utf8EncodeChar c) : 128 ≤ b.toNat := by
  have hv : ¬c.val.toNat ≤ 0x7f := Nat.not_le.mpr h
  rw [String.utf8EncodeChar, if_neg hv] at hb
  split at hb
  · simp only [List.mem_cons, List.not_mem_nil, or_false] at hb
    rcases hb with rfl | rfl <;> rw [UInt8.toNat_ofNat'] <;> omega
  split at hb
  · simp only [List.mem_cons, List.not_mem_nil, or_false] at hb
    rcases hb with rfl | rfl | rfl <;> rw [UInt8.toNat_ofNat'] <;> omega
  · simp only [List.mem_cons, List.not_mem_nil, or_false] at hb
    rcases hb with rfl | rfl | rfl | rfl <;> rw [UInt8.toNat_ofNat'] <;> omega

/-- An ASCII byte is only in texts that have its character. -/
theorem mem_utf8_ascii {c : Char} (h : c.toNat < 128) {text : List Char}
    (hmem : UInt8.ofNat c.toNat ∈ utf8 text) : c ∈ text := by
  obtain ⟨c', hc', hb⟩ := List.mem_flatMap.mp hmem
  have htoNat : (UInt8.ofNat c.toNat).toNat = c.toNat := by
    rw [UInt8.toNat_ofNat']
    omega
  by_cases hascii : c'.toNat < 128
  · rw [utf8EncodeChar_of_lt hascii, List.mem_singleton] at hb
    have heq := congrArg UInt8.toNat hb
    rw [htoNat, UInt8.toNat_ofNat', Nat.mod_eq_of_lt (Nat.lt_trans hascii (by decide))] at heq
    rwa [Char.toNat_inj.mp heq]
  · have hle := le_of_mem_utf8EncodeChar (Nat.not_lt.mp hascii) hb
    omega

/-- **Byte by byte is character by character**, for a rewriting that leaves all but ASCII alone. -/
theorem utf8_rewrite {byte : UInt8 → List UInt8} {char : Char → List Char}
    (hlow : ∀ c : Char, c.toNat < 128 → byte (UInt8.ofNat c.toNat) = utf8 (char c))
    (hbyte : ∀ b : UInt8, 128 ≤ b.toNat → byte b = [b])
    (hchar : ∀ c : Char, 128 ≤ c.toNat → char c = [c]) (text : List Char) :
    (utf8 text).flatMap byte = utf8 (text.flatMap char) := by
  have hone : ∀ c : Char, (String.utf8EncodeChar c).flatMap byte = utf8 (char c) := by
    intro c
    rcases Nat.lt_or_ge c.toNat 128 with hc | hc
    · rw [utf8EncodeChar_of_lt hc, List.flatMap_singleton, hlow c hc]
    · rw [hchar c hc, List.flatMap_congr fun b hb => hbyte b (le_of_mem_utf8EncodeChar hc hb),
        List.flatMap_singleton', utf8, List.flatMap_singleton]
  rw [utf8, List.flatMap_assoc, utf8_flatMap]
  exact List.flatMap_congr fun c _ => hone c

/-! ## Decoders

A decoder is given the bytes in pieces, and keeps what is not a whole character yet. -/

/-- A decoder of texts that come piece by piece; `σ` is what it keeps between two pieces. -/
structure TextDecoder (σ : Type) where
  start : σ
  decode : σ → List UInt8 → List Char × σ

namespace TextDecoder

variable {σ : Type} (decoder : TextDecoder σ)

/-- What is decoded at each piece. -/
def texts (kept : σ) : List (List UInt8) → List (List Char)
  | [] => []
  | piece :: pieces =>
    (decoder.decode kept piece).1 :: texts (decoder.decode kept piece).2 pieces

/-- A text comes out whole, wherever its bytes are split.  A byte order mark at its front may be lost. -/
def Incremental : Prop :=
  ∀ (text : List Char) (pieces : List (List UInt8)), text.head? ≠ some '\uFEFF' →
    pieces.flatten = utf8 text → (decoder.texts decoder.start pieces).flatten = text

end TextDecoder

/-- A text without the byte order mark at its front. -/
def withoutMark : List Char → List Char
  | '\uFEFF' :: text => text
  | text => text

/-- Every text comes out whole, but for the mark. -/
def TextDecoder.Standard {σ : Type} (decoder : TextDecoder σ) : Prop :=
  ∀ (text : List Char) (pieces : List (List UInt8)), pieces.flatten = utf8 text →
    (decoder.texts decoder.start pieces).flatten = withoutMark text

/-- The character at the front, if all its bytes are there. -/
def cutChar (bytes : List UInt8) : Option (Char × List UInt8) :=
  (bytes.toByteArray.utf8DecodeChar? 0).map fun c => (c, bytes.drop c.utf8Size)

/-- What is cut off is the first character, as long as its encoding. -/
theorem cutChar_eq_some {bytes rest : List UInt8} {c : Char} (h : cutChar bytes = some (c, rest)) :
    bytes.toByteArray.utf8DecodeChar? 0 = some c ∧ c.utf8Size ≤ bytes.length ∧
      rest = bytes.drop c.utf8Size := by
  obtain ⟨c', hc, hcut⟩ := Option.map_eq_some_iff.mp h
  cases hcut
  have hle := ByteArray.le_size_of_utf8DecodeChar?_eq_some hc
  rw [List.size_toByteArray, Nat.zero_add] at hle
  exact ⟨hc, hle, rfl⟩

/-- The characters of a stream of bytes. -/
def utf8Framing : Framing UInt8 Char where
  cut := cutChar
  length_lt := by
    intro bytes c rest h
    obtain ⟨-, hle, rfl⟩ := cutChar_eq_some h
    have hpos := c.utf8Size_pos
    rw [List.length_drop]
    omega
  cut_append := by
    intro bytes c rest more h
    obtain ⟨hc, hle, rfl⟩ := cutChar_eq_some h
    rw [cutChar, List.toByteArray_append, ByteArray.utf8DecodeChar?_append_eq_some hc, Option.map_some,
      List.drop_append_of_le_length hle]

/-- **A character that was encoded is cut off**, whatever follows it. -/
theorem cutChar_append (c : Char) (more : List UInt8) :
    cutChar (String.utf8EncodeChar c ++ more) = some (c, more) := by
  rw [cutChar, List.toByteArray_append, ByteArray.utf8DecodeChar?_utf8EncodeChar_append, Option.map_some,
    ← String.length_utf8EncodeChar, List.drop_left]

/-- Different texts are different bytes. -/
theorem utf8_injective : Function.Injective utf8 := by
  have hempty : ∀ (c : Char) (text : List Char), utf8 (c :: text) ≠ [] := fun c text h => by
    have hcut : cutChar (utf8 (c :: text)) = some (c, utf8 text) := cutChar_append c (utf8 text)
    rw [h] at hcut
    cases hcut
  intro text
  induction text with
  | nil =>
    intro text' h
    cases text' with
    | nil => rfl
    | cons c text' => exact absurd h.symm (hempty c text')
  | cons c text ih =>
    intro text' h
    cases text' with
    | nil => exact absurd h (hempty c text)
    | cons c' text' =>
      have hcut : cutChar (utf8 (c :: text)) = some (c, utf8 text) := cutChar_append c (utf8 text)
      have hcut' : cutChar (utf8 (c' :: text')) = some (c', utf8 text') := cutChar_append c' (utf8 text')
      rw [h, hcut'] at hcut
      obtain ⟨rfl, hrest⟩ := Prod.mk.inj (Option.some.inj hcut)
      rw [ih hrest.symm]

namespace TextDecoder

/-- The decoder that gives each character as soon as its last byte is there. -/
def streaming : TextDecoder (List UInt8) where
  start := []
  decode kept piece := utf8Framing.drain (kept ++ piece)

theorem texts_streaming (kept : List UInt8) (pieces : List (List UInt8)) :
    streaming.texts kept pieces = (utf8Framing.feed kept pieces).1 := by
  induction pieces generalizing kept with
  | nil => rfl
  | cons piece pieces ih =>
    rw [texts, ih]
    rfl

/-- However the bytes are cut, the texts together are the text. -/
theorem flatten_texts_streaming {text : List Char} {pieces : List (List UInt8)}
    (hpieces : pieces.flatten = utf8 text) : (streaming.texts [] pieces).flatten = text := by
  rw [texts_streaming]
  calc (utf8Framing.feed [] pieces).1.flatten = (utf8Framing.drain pieces.flatten).1 :=
        congrArg Prod.fst (Framing.feed_flatten pieces)
    _ = (utf8Framing.drain (utf8 text)).1 := by rw [hpieces]
    _ = text := congrArg Prod.fst (Framing.drain_flatMap fun c _ => cutChar_append c)

theorem incremental_streaming : streaming.Incremental :=
  fun _ _ _ hpieces => flatten_texts_streaming hpieces

/-- The decoder of the browsers, which also drops the mark: `true` while nothing has been decoded. -/
def browser : TextDecoder (Bool × List UInt8) where
  start := (true, [])
  decode kept piece :=
    let decoded := streaming.decode kept.2 piece
    (if kept.1 then withoutMark decoded.1 else decoded.1, (kept.1 && decoded.1.isEmpty, decoded.2))

theorem texts_browser (fresh : Bool) (kept : List UInt8) (pieces : List (List UInt8)) :
    (browser.texts (fresh, kept) pieces).flatten =
      if fresh then withoutMark (streaming.texts kept pieces).flatten
      else (streaming.texts kept pieces).flatten := by
  induction pieces generalizing fresh kept with
  | nil => cases fresh <;> rfl
  | cons piece pieces ih =>
    rw [texts, texts, List.flatten_cons, List.flatten_cons]
    rcases hdecoded : streaming.decode kept piece with ⟨text, kept'⟩
    have hdecode : browser.decode (fresh, kept) piece =
        (if fresh then withoutMark text else text, (fresh && text.isEmpty, kept')) := by
      simp only [browser, hdecoded]
    rw [hdecode, ih]
    cases fresh with
    | false => rfl
    | true =>
      cases text with
      | nil => rfl
      | cons c text =>
        simp only [List.isEmpty_cons, Bool.and_false, if_true]
        unfold withoutMark
        split <;> simp_all

/-- A piece that is a whole text is decoded at once. -/
theorem decode_browser (fresh : Bool) (text : List Char) : browser.decode (fresh, []) (utf8 text) =
    (if fresh then withoutMark text else text, (fresh && text.isEmpty, [])) := by
  have hdrain : streaming.decode [] (utf8 text) = (text, []) :=
    Framing.drain_flatMap fun c _ => cutChar_append c
  simp only [browser, hdrain]

/-- The decoder of a browser behaves as documented. -/
theorem standard_browser : browser.Standard := by
  intro text pieces hpieces
  refine (texts_browser true [] pieces).trans ?_
  rw [if_pos rfl, flatten_texts_streaming hpieces]

end TextDecoder

end Library
