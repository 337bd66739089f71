import Mathlib.Tactic.Choose
import RealtimeGame.Library.Json
import RealtimeGame.Library.Utf8

/-!
# Library/JsonBytes — JSON that a program puts together by appending bytes

`Encodes bytes v` says that the bytes are those of a text that denotes `v`.  A program that writes the brackets,
quotes and commas itself encodes a value if its parts do, and if it escapes its strings (`Json.Body`).
-/

namespace Library

namespace Json

/-- The bytes of a text that denotes a value. -/
def Encodes (bytes : List UInt8) (v : Json) : Prop := ∃ text, bytes = utf8 text ∧ Denotes text v

/-! ## Strings

A text without quotes, backslashes and control characters is its own body. -/

/-- Two quotes around it. -/
def quoted (bytes : List UInt8) : List UInt8 := bytesOf "\"" ++ bytes ++ bytesOf "\""

/-- The bytes of a quoted body are those of the string. -/
theorem encodes_string {text : List Char} {s : String} (h : Body text s.toList) :
    Encodes (quoted (utf8 text)) (.string s) := by
  refine ⟨'"' :: (text ++ ['"']), ?_, ?_⟩
  · rw [quoted, bytesOf, ← utf8_append, ← utf8_append]
    rfl
  · have hstring := Denotes.string h
    rwa [String.ofList_toList] at hstring

/-- Nothing in a text needs to be escaped. -/
def Plain (text : List Char) : Prop := ∀ c ∈ text, 0x20 ≤ c.toNat ∧ c ≠ '"' ∧ c ≠ '\\'

instance (text : List Char) : Decidable (Plain text) := List.decidableBAll _ text

/-- A plain text needs no escapes. -/
theorem body_of_plain {text : List Char} (h : Plain text) : Body text text := by
  induction text with
  | nil => exact .nil
  | cons c text ih =>
    obtain ⟨hprintable, hquote, hbackslash⟩ := h c List.mem_cons_self
    exact .cons (.raw hprintable hquote hbackslash) (ih fun d hd => h d (List.mem_cons_of_mem _ hd))

theorem encodes_plain {s : String} (h : Plain s.toList) : Encodes (quoted (bytesOf s)) (.string s) :=
  encodes_string (body_of_plain h)

/-! ## Arrays and objects

Written part by part, as the encoders do it, and equal to the text of the whole. -/

/-- The bytes of a list are the bytes of its items with commas between them. -/
theorem utf8_commas (texts : List (List Char)) :
    utf8 (commas texts) = List.intercalate (bytesOf ",") (texts.map utf8) := by
  induction texts with
  | nil => rfl
  | cons text texts ih =>
    rcases texts with - | ⟨text', texts⟩
    · rw [commas, List.intercalate_singleton, List.map_singleton, List.intercalate_singleton]
    · rw [List.map_cons, List.map_cons, List.intercalate_cons_cons, commas, List.intercalate_cons_cons,
        utf8_append, utf8_append]
      exact congrArg _ ih

theorem utf8_commas_map {ι : Type*} (items : List ι) (text : ι → List Char) :
    utf8 (commas (items.map text)) = List.intercalate (bytesOf ",") (items.map fun item => utf8 (text item)) := by
  rw [utf8_commas, List.map_map]
  rfl

/-- An array, put together by appending. -/
def arrayBytes (items : List (List UInt8)) : List UInt8 :=
  bytesOf "[" ++ List.intercalate (bytesOf ",") items ++ bytesOf "]"

/-- **An array** encodes the values of its items. -/
theorem encodes_array {ι : Type*} {items : List ι} {bytes : ι → List UInt8} {value : ι → Json}
    (h : ∀ item ∈ items, Encodes (bytes item) (value item)) :
    Encodes (arrayBytes (items.map bytes)) (.array (items.map value)) := by
  choose! text hbytes hdenotes using h
  refine ⟨'[' :: (commas (items.map text) ++ [']']), ?_, ?_⟩
  · rw [arrayBytes, List.map_congr_left hbytes, ← utf8_commas_map, bytesOf, bytesOf, ← utf8_append, ← utf8_append]
    rfl
  · have hall : ∀ item ∈ items.map fun item => (text item, value item), Denotes item.1 item.2 := by
      intro item hitem
      obtain ⟨item, hmem, rfl⟩ := List.mem_map.mp hitem
      exact hdenotes item hmem
    have harray := Denotes.array hall
    rwa [List.map_map, List.map_map] at harray

/-- One member of an object: its key, the bytes of its value, and the value. -/
structure Field where
  key : String
  bytes : List UInt8
  value : Json

/-- An object, put together by appending. -/
def objectBytes (fields : List Field) : List UInt8 :=
  bytesOf "\x7b" ++ List.intercalate (bytesOf ",") (fields.map fun field =>
    quoted (bytesOf field.key) ++ bytesOf ":" ++ field.bytes) ++ bytesOf "\x7d"

/-- Texts that are written one after the other are one text. -/
theorem utf8_append_assoc (text more : List Char) (rest : List UInt8) :
    utf8 text ++ (utf8 more ++ rest) = utf8 (text ++ more) ++ rest := by
  rw [utf8_append, List.append_assoc]

/-- The bytes of an object, field by field. -/
theorem objectBytes_eq (fields : List Field) : objectBytes fields =
    utf8 ['{'] ++ List.intercalate (utf8 [',']) (fields.map fun field =>
      utf8 ('"' :: (field.key.toList ++ ['"', ':'])) ++ field.bytes) ++ utf8 ['}'] := by
  simp only [objectBytes, quoted, bytesOf, ← utf8_append, List.append_assoc]
  rfl

/-- **An object** encodes the values of its members, which have these keys. -/
theorem encodes_object {fields : List Field} (keys : List String) (hkeys : fields.map Field.key = keys)
    (hdistinct : keys.Nodup) (hplain : ∀ key ∈ keys, Plain key.toList)
    (h : ∀ field ∈ fields, Encodes field.bytes field.value) :
    Encodes (objectBytes fields) (.object (fields.map fun field => (field.key, field.value))) := by
  subst hkeys
  choose! text hbytes hdenotes using h
  let member : Field → Member := fun field => ⟨field.key, field.key.toList, field.value, text field⟩
  refine ⟨'{' :: (commas ((fields.map member).map Member.text) ++ ['}']), ?_, ?_⟩
  · have htext : ∀ field ∈ fields, quoted (bytesOf field.key) ++ bytesOf ":" ++ field.bytes =
        utf8 (member field).text := by
      intro field hfield
      rw [hbytes field hfield, quoted, bytesOf, bytesOf, bytesOf, ← utf8_append, ← utf8_append, ← utf8_append,
        ← utf8_append]
      refine congrArg utf8 ?_
      simp [member, Member.text]
    rw [objectBytes, List.map_congr_left htext, ← utf8_commas_map, bytesOf, bytesOf, ← utf8_append,
      ← utf8_append, List.map_map]
    rfl
  · have hobject : Denotes ('{' :: (commas ((fields.map member).map Member.text) ++ ['}']))
        (.object ((fields.map member).map fun m => (m.key, m.value))) := by
      refine Denotes.object ?_ ?_ ?_
      · rwa [List.map_map]
      · intro m hm
        obtain ⟨field, hfield, rfl⟩ := List.mem_map.mp hm
        exact body_of_plain (hplain _ (List.mem_map_of_mem hfield))
      · intro m hm
        obtain ⟨field, hfield, rfl⟩ := List.mem_map.mp hm
        exact hdenotes field hfield
    simp only [List.map_map] at hobject ⊢
    exact hobject

end Json

end Library
