import RealtimeGame.Library.Numeral

/-!
# Library/Json — what a JSON text denotes, and a parser that reads it

`Json.Denotes text value` is JSON without spaces between its tokens, with integers that every reader of JSON
keeps exactly.  A text denotes what the parser makes of it (`Json.parse_of_denotes`); so a reader that is
right about `Denotes` exists, and there is one value only.
-/

namespace Library

/-- A number is an integer here. -/
inductive Json
  | null
  | bool (b : Bool)
  | number (n : Int)
  | string (s : String)
  | array (items : List Json)
  | object (members : List (String × Json))

namespace Json

/-! ## Strings

Between its quotes a string is a sequence of characters and of escapes; a relation says which string a body
spells. -/

/-- What the letter after a backslash stands for. -/
def shorthand : Char → Option Char
  | '"' => some '"'
  | '\\' => some '\\'
  | '/' => some '/'
  | 'b' => some (Char.ofNat 8)
  | 'f' => some (Char.ofNat 12)
  | 'n' => some '\n'
  | 'r' => some '\r'
  | 't' => some '\t'
  | _ => none

/-- The value of a hexadecimal digit. -/
def hexDigit (c : Char) : Option Nat :=
  if '0' ≤ c ∧ c ≤ '9' then some (c.toNat - '0'.toNat)
  else if 'a' ≤ c ∧ c ≤ 'f' then some (c.toNat - 'a'.toNat + 10)
  else if 'A' ≤ c ∧ c ≤ 'F' then some (c.toNat - 'A'.toNat + 10)
  else none

/-- The character that four digits after `\u` stand for; surrogates are none. -/
def unicode (a b c d : Char) : Option Char := do
  let code := (((← hexDigit a) * 16 + (← hexDigit b)) * 16 + (← hexDigit c)) * 16 + (← hexDigit d)
  if code.isValidChar then some (Char.ofNat code) else none

/-- How one character is written inside a string. -/
inductive Spells : List Char → Char → Prop
  | raw {c : Char} (hprintable : 0x20 ≤ c.toNat) (hquote : c ≠ '"') (hbackslash : c ≠ '\\') : Spells [c] c
  | short {letter c : Char} (h : shorthand letter = some c) : Spells ['\\', letter] c
  | unicode {x y z w c : Char} (h : unicode x y z w = some c) : Spells ['\\', 'u', x, y, z, w] c

/-- The text between two quotes. -/
inductive Body : List Char → List Char → Prop
  | nil : Body [] []
  | cons {piece text s : List Char} {c : Char} (h : Spells piece c) (hrest : Body text s) :
    Body (piece ++ text) (c :: s)

/-! ## Values

What a text denotes, without spaces: the writers of this format put none. -/

/-- Texts with commas between them. -/
def commas (texts : List (List Char)) : List Char := List.intercalate [','] texts

/-- One member of an object, and how it is written. -/
structure Member where
  key : String
  keyText : List Char
  value : Json
  valueText : List Char

/-- The text of a member. -/
def Member.text (member : Member) : List Char :=
  '"' :: (member.keyText ++ '"' :: ':' :: member.valueText)

/-- **What a text denotes.** -/
inductive Denotes : List Char → Json → Prop
  | null : Denotes ['n', 'u', 'l', 'l'] .null
  | true : Denotes ['t', 'r', 'u', 'e'] (.bool true)
  | false : Denotes ['f', 'a', 'l', 's', 'e'] (.bool false)
  | number {n : Int} (h : n.natAbs < 2 ^ 53) : Denotes (Numeral.numeral n) (.number n)
  | string {text s : List Char} (h : Body text s) : Denotes ('"' :: (text ++ ['"'])) (.string (String.ofList s))
  | array {items : List (List Char × Json)} (h : ∀ item ∈ items, Denotes item.1 item.2) :
    Denotes ('[' :: (commas (items.map (·.1)) ++ [']'])) (.array (items.map (·.2)))
  | object {members : List Member} (hdistinct : (members.map Member.key).Nodup)
    (hkeys : ∀ member ∈ members, Body member.keyText member.key.toList)
    (h : ∀ member ∈ members, Denotes member.valueText member.value) :
    Denotes ('{' :: (commas (members.map Member.text) ++ ['}']))
      (.object (members.map fun member => (member.key, member.value)))

/-! ## The parser

One value is read off the front; fuel bounds the depth, and the length of the text is always enough. -/

/-- The rest of a string, up to its closing quote. -/
def scanString : List Char → Option (List Char × List Char)
  | [] => none
  | '"' :: rest => some ([], rest)
  | '\\' :: 'u' :: x :: y :: z :: w :: rest => do
    let c ← unicode x y z w
    (scanString rest).map fun scanned => (c :: scanned.1, scanned.2)
  | '\\' :: letter :: rest => do
    let c ← shorthand letter
    (scanString rest).map fun scanned => (c :: scanned.1, scanned.2)
  | c :: rest =>
    if c.toNat < 0x20 ∨ c = '\\' then none
    else (scanString rest).map fun scanned => (c :: scanned.1, scanned.2)

/-- What is between two brackets, item by item. -/
def sequence {α : Type} (item : List Char → Option (α × List Char)) (close : Char) :
    Nat → List Char → Option (List α × List Char)
  | 0, _ => none
  | fuel + 1, text =>
    match item text with
    | some (a, c :: rest) =>
      if c = ',' then (sequence item close fuel rest).map fun read => (a :: read.1, read.2)
      else if c = close then some ([a], rest)
      else none
    | _ => none

/-- A key, a colon and a value. -/
def member (value : List Char → Option (Json × List Char)) : List Char → Option ((String × Json) × List Char)
  | '"' :: text =>
    match scanString text with
    | some (key, ':' :: rest) => (value rest).map fun read => ((String.ofList key, read.1), read.2)
    | _ => none
  | _ => none

/-- The value at the front of a text. -/
def value : Nat → List Char → Option (Json × List Char)
  | 0, _ => none
  | fuel + 1, text =>
    match text with
    | 'n' :: 'u' :: 'l' :: 'l' :: rest => some (.null, rest)
    | 't' :: 'r' :: 'u' :: 'e' :: rest => some (.bool .true, rest)
    | 'f' :: 'a' :: 'l' :: 's' :: 'e' :: rest => some (.bool .false, rest)
    | '"' :: rest => (scanString rest).map fun scanned => (.string (String.ofList scanned.1), scanned.2)
    | '[' :: ']' :: rest => some (.array [], rest)
    | '[' :: rest => (sequence (value fuel) ']' fuel rest).map fun read => (.array read.1, read.2)
    | '{' :: '}' :: rest => some (.object [], rest)
    | '{' :: rest => (sequence (member (value fuel)) '}' fuel rest).map fun read => (.object read.1, read.2)
    | _ => (Numeral.readInt text).map fun read => (.number read.1, read.2)

/-- **The parser**: one value, and nothing after it. -/
def parse (text : List Char) : Option Json :=
  match value (text.length + 1) text with
  | some (v, []) => some v
  | _ => none

/-! ## The parser reads what a text denotes

By induction on the value: the first character tells the case, and the parts are read one after the other. -/

variable {text s rest : List Char} {v : Json}

/-- The characters of a string are read up to the quote that ends it. -/
theorem scanString_body (h : Body text s) (rest : List Char) : scanString (text ++ '"' :: rest) = some (s, rest) := by
  induction h with
  | nil => rfl
  | cons hpiece hbody ih =>
    cases hpiece with
    | raw hprintable hquote hbackslash =>
      rw [List.append_assoc, List.singleton_append, scanString, if_neg, ih, Option.map_some]
      · exact not_or.mpr ⟨Nat.not_lt.mpr hprintable, hbackslash⟩
      · exact hquote
      · exact fun _ _ _ _ _ heq => absurd heq hbackslash
      · exact fun _ _ heq => absurd heq hbackslash
    | @short letter c hshort =>
      have hletter : letter ≠ 'u' := by
        rintro rfl
        cases hshort
      rw [List.append_assoc, List.cons_append, List.singleton_append, scanString, hshort, Option.bind_eq_bind,
        Option.bind_some, ih, Option.map_some]
      exact fun _ _ _ _ _ heq _ => hletter heq
    | unicode hcode =>
      rw [List.append_assoc]
      simp only [List.cons_append, List.nil_append, scanString, hcode, Option.bind_eq_bind, Option.bind_some, ih,
        Option.map_some]

/-- Items with commas between them are read one by one. -/
theorem sequence_commas {α : Type} {item : List Char → Option (α × List Char)} {close : Char}
    (hclose : close ≠ ',') {items : List (List Char × α)} (hne : items ≠ [])
    (hitem : ∀ x ∈ items, ∀ c rest, c = ',' ∨ c = close → item (x.1 ++ c :: rest) = some (x.2, c :: rest))
    {fuel : Nat} (hfuel : items.length ≤ fuel) (rest : List Char) :
    sequence item close fuel (commas (items.map (·.1)) ++ close :: rest) = some (items.map (·.2), rest) := by
  induction items generalizing fuel with
  | nil => exact absurd rfl hne
  | cons x items ih =>
    obtain ⟨fuel, rfl⟩ := Nat.exists_eq_add_one_of_ne_zero (Nat.ne_zero_of_lt hfuel)
    rcases items with - | ⟨y, items⟩
    · rw [List.map_singleton, commas, List.intercalate_singleton, sequence,
        hitem x List.mem_cons_self close rest (.inr rfl)]
      simp only [hclose, if_false, if_true, List.map_cons, List.map_nil]
    · have hrest := ih (List.cons_ne_nil _ _) (fun z hz => hitem z (List.mem_cons_of_mem _ hz))
        (Nat.le_of_succ_le_succ hfuel)
      have htext : commas ((x :: y :: items).map (·.1)) ++ close :: rest =
          x.1 ++ ',' :: (commas ((y :: items).map (·.1)) ++ close :: rest) := by
        rw [List.map_cons, List.map_cons, commas, List.intercalate_cons_cons, List.append_assoc, List.append_assoc,
          List.singleton_append]
        rfl
      rw [htext, sequence, hitem x List.mem_cons_self ',' _ (.inl rfl)]
      dsimp only
      rw [if_pos rfl, hrest, Option.map_some]
      rfl

/-! Where a value begins. -/

/-- Neither does a value begin with a closing bracket, nor with a blank. -/
def Begins (c : Char) : Prop := c ≠ ']' ∧ c ≠ ' '

/-- Every value begins with a character that says what it is. -/
theorem denotes_begins (h : Denotes text v) : ∃ c rest, text = c :: rest ∧ Begins c := by
  cases h with
  | @number n hn =>
    obtain ⟨c, rest, htext⟩ := List.exists_cons_of_ne_nil (Numeral.numeral_ne_nil n)
    refine ⟨c, rest, htext, ?_⟩
    rcases Numeral.of_mem_numeral (htext ▸ List.mem_cons_self : c ∈ Numeral.numeral n) with rfl | hdigit
    · exact ⟨by decide, by decide⟩
    · exact ⟨fun hc => absurd (hc ▸ hdigit) (by decide), fun hc => absurd (hc ▸ hdigit) (by decide)⟩
  | _ => exact ⟨_, _, rfl, by decide, by decide⟩

/-- A list of values is not shorter than their number. -/
theorem length_le_commas (texts : List (List Char)) (hne : ∀ text ∈ texts, text ≠ []) :
    texts.length ≤ (commas texts).length := by
  induction texts with
  | nil => exact Nat.zero_le _
  | cons text texts ih =>
    have hpos := List.length_pos_iff.mpr (hne text List.mem_cons_self)
    rcases texts with - | ⟨text', texts⟩
    · rw [commas, List.intercalate_singleton]
      exact hpos
    · have hrest := ih fun t ht => hne t (List.mem_cons_of_mem _ ht)
      rw [commas, List.intercalate_cons_cons, List.length_append, List.length_append, List.length_singleton,
        List.length_cons]
      rw [commas] at hrest
      omega

/-- …nor than each of them. -/
theorem length_le_of_mem_commas {texts : List (List Char)} (h : text ∈ texts) :
    text.length ≤ (commas texts).length := by
  induction texts with
  | nil => cases h
  | cons text' texts ih =>
    rcases texts with - | ⟨text'', texts⟩
    · rw [List.mem_singleton.mp h, commas, List.intercalate_singleton]
    · rw [commas, List.intercalate_cons_cons, List.length_append, List.length_append]
      rcases List.mem_cons.mp h with rfl | hmem
      · omega
      · have hle := ih hmem
        rw [commas] at hle
        omega

/-- Texts with something between them begin with the first of them. -/
theorem exists_intercalate_cons {α : Type*} (sep text : List α) (texts : List (List α)) :
    ∃ tail, List.intercalate sep (text :: texts) = text ++ tail := by
  rcases texts with - | ⟨text', texts⟩
  · exact ⟨[], by rw [List.intercalate_singleton, List.append_nil]⟩
  · exact ⟨sep ++ List.intercalate sep (text' :: texts), by rw [List.intercalate_cons_cons, List.append_assoc]⟩

/-- Where no token of another kind begins, there is a number. -/
theorem value_number {c : Char} {text : List Char} (h : c = '-' ∨ c.isDigit = true) (fuel : Nat) :
    value (fuel + 1) (c :: text) = (Numeral.readInt (c :: text)).map fun read => (.number read.1, read.2) := by
  have hother : ∀ c' : Char, c' ≠ '-' → c'.isDigit = false → c ≠ c' := by
    rintro c' hminus hnot rfl
    rcases h with rfl | hdigit
    · exact hminus rfl
    · cases hnot.symm.trans hdigit
  rw [value]
  all_goals exact fun _ heq => hother _ (by decide) (by decide) (List.cons.inj heq).1

/-- A number ends before a comma, and before a closing bracket. -/
theorem ended_of_separator {close c : Char} (hclose : close.isDigit = false) (h : c = ',' ∨ c = close)
    (rest : List Char) : Numeral.Ended (c :: rest) := by
  rintro d hd
  obtain rfl := Option.some.inj hd
  rcases h with rfl | rfl
  · rfl
  · exact hclose

/-- **The parser reads the value at the front**, whatever follows. -/
theorem value_of_denotes (h : Denotes text v) :
    ∀ fuel, text.length < fuel → ∀ rest, Numeral.Ended rest → value fuel (text ++ rest) = some (v, rest) := by
  induction h with
  | null | true | false =>
    intro fuel hfuel rest _
    obtain ⟨fuel, rfl⟩ := Nat.exists_eq_add_one_of_ne_zero (Nat.ne_zero_of_lt hfuel)
    rfl
  | @number n hn =>
    intro fuel hfuel rest hrest
    obtain ⟨fuel, rfl⟩ := Nat.exists_eq_add_one_of_ne_zero (Nat.ne_zero_of_lt hfuel)
    obtain ⟨c, digits, htext⟩ := List.exists_cons_of_ne_nil (Numeral.numeral_ne_nil n)
    have hread := Numeral.readInt_numeral n hrest
    rw [htext, List.cons_append] at hread ⊢
    rw [value_number (Numeral.of_mem_numeral (htext ▸ List.mem_cons_self)), hread, Option.map_some]
  | string hbody =>
    intro fuel hfuel rest _
    obtain ⟨fuel, rfl⟩ := Nat.exists_eq_add_one_of_ne_zero (Nat.ne_zero_of_lt hfuel)
    rw [List.cons_append, List.append_assoc, List.singleton_append, value, scanString_body hbody, Option.map_some]
  | @array items hitems ih =>
    intro fuel hfuel rest _
    obtain ⟨fuel, rfl⟩ := Nat.exists_eq_add_one_of_ne_zero (Nat.ne_zero_of_lt hfuel)
    rw [List.length_cons, List.length_append, List.length_singleton] at hfuel
    rw [List.cons_append, List.append_assoc, List.singleton_append]
    by_cases hne : items = []
    · subst hne
      rfl
    have hcount := length_le_commas (items.map (·.1)) fun text htext => by
      obtain ⟨item, hitem, rfl⟩ := List.mem_map.mp htext
      obtain ⟨c, more, hcons, -⟩ := denotes_begins (hitems item hitem)
      rw [hcons]
      exact List.cons_ne_nil c more
    rw [List.length_map] at hcount
    have hread : ∀ x ∈ items, ∀ c more, c = ',' ∨ c = ']' →
        value fuel (x.1 ++ c :: more) = some (x.2, c :: more) := by
      intro x hx c more hc
      have hle := length_le_of_mem_commas (List.mem_map_of_mem (f := (·.1)) hx)
      exact ih x hx fuel (by omega) _ (ended_of_separator rfl hc more)
    rw [value, sequence_commas (by decide) hne hread (by omega), Option.map_some]
    -- The text of the first item does not begin with a bracket.
    obtain ⟨x, items, rfl⟩ := List.exists_cons_of_ne_nil hne
    obtain ⟨c, more, hcons, hbegins⟩ := denotes_begins (hitems x List.mem_cons_self)
    rintro rest' heq
    obtain ⟨tail, htail⟩ := exists_intercalate_cons [','] x.1 (items.map (·.1))
    rw [List.map_cons, commas, htail, hcons] at heq
    exact hbegins.1 (List.cons.inj heq).1
  | @object members hdistinct hkeys hmembers ih =>
    intro fuel hfuel rest _
    obtain ⟨fuel, rfl⟩ := Nat.exists_eq_add_one_of_ne_zero (Nat.ne_zero_of_lt hfuel)
    rw [List.length_cons, List.length_append, List.length_singleton] at hfuel
    rw [List.cons_append, List.append_assoc, List.singleton_append]
    by_cases hne : members = []
    · subst hne
      rfl
    have hcount := length_le_commas (members.map Member.text) fun text htext => by
      obtain ⟨_, -, rfl⟩ := List.mem_map.mp htext
      exact List.cons_ne_nil _ _
    rw [List.length_map] at hcount
    have hread : ∀ x ∈ members.map fun m => (m.text, (m.key, m.value)), ∀ c more, c = ',' ∨ c = '}' →
        member (value fuel) (x.1 ++ c :: more) = some (x.2, c :: more) := by
      intro x hx c more hc
      obtain ⟨m, hm, rfl⟩ := List.mem_map.mp hx
      have hle := length_le_of_mem_commas (List.mem_map_of_mem (f := Member.text) hm)
      rw [Member.text, List.length_cons, List.length_append, List.length_cons, List.length_cons] at hle
      dsimp only
      rw [Member.text, List.cons_append, List.append_assoc, List.cons_append, List.cons_append, member,
        scanString_body (hkeys m hm)]
      simp only
      rw [ih m hm fuel (by omega) _ (ended_of_separator rfl hc more), Option.map_some, String.ofList_toList]
    have hall : sequence (member (value fuel)) '}' fuel (commas (members.map Member.text) ++ '}' :: rest) =
        some (members.map fun m => (m.key, m.value), rest) := by
      have hitems := sequence_commas (by decide) (fun hnil => hne (List.map_eq_nil_iff.mp hnil)) hread
        (by rw [List.length_map]; omega : _ ≤ fuel) rest
      rw [List.map_map, List.map_map] at hitems
      exact hitems
    obtain ⟨m, members, rfl⟩ := List.exists_cons_of_ne_nil hne
    obtain ⟨tail, htail⟩ := exists_intercalate_cons [','] m.text (members.map Member.text)
    rw [value, hall, Option.map_some]
    · rintro rest' heq
      rw [List.map_cons, commas, htail, Member.text] at heq
      cases heq

/-- **The parser is right** about every text that denotes a value. -/
theorem parse_of_denotes (h : Denotes text v) : parse text = some v := by
  have hvalue := value_of_denotes h (text.length + 1) (Nat.lt_succ_self _) [] (fun c hc => by cases hc)
  rw [List.append_nil] at hvalue
  rw [parse, hvalue]

/-! ## A value is one line

Strings escape their control characters, and nothing else of a value could hold one, so that no line ends
within it. -/

/-- What stands in a list is a separator or part of an item. -/
theorem mem_intercalate {α : Type*} {a : α} {sep : List α} {texts : List (List α)}
    (h : a ∈ List.intercalate sep texts) : a ∈ sep ∨ ∃ text ∈ texts, a ∈ text := by
  induction texts with
  | nil => cases h
  | cons text texts ih =>
    rcases texts with - | ⟨text', texts⟩
    · rw [List.intercalate_singleton] at h
      exact .inr ⟨text, List.mem_cons_self, h⟩
    · rw [List.intercalate_cons_cons, List.mem_append, List.mem_append] at h
      rcases h with (hmem | hsep) | hrest
      · exact .inr ⟨text, List.mem_cons_self, hmem⟩
      · exact .inl hsep
      · rcases ih hrest with hsep | ⟨t, ht, hmem⟩
        · exact .inl hsep
        · exact .inr ⟨t, List.mem_cons_of_mem _ ht, hmem⟩

/-- The digits of an escape can be printed. -/
theorem printable_of_hexDigit {c : Char} {n : Nat} (h : hexDigit c = some n) : 0x20 ≤ c.toNat := by
  have hle : ∀ {d : Char}, d ≤ c → d.toNat ≤ c.toNat := fun hd => hd
  unfold hexDigit at h
  split at h
  case isTrue hdigit => exact le_trans (by decide) (hle hdigit.1)
  split at h
  case isTrue hdigit => exact le_trans (by decide) (hle hdigit.1)
  split at h
  case isTrue hdigit => exact le_trans (by decide) (hle hdigit.1)
  case isFalse => cases h

/-- …and so can the letters. -/
theorem printable_of_shorthand {letter c : Char} (h : shorthand letter = some c) : 0x20 ≤ letter.toNat := by
  unfold shorthand at h
  split at h
  case h_9 => cases h
  all_goals decide

/-- **No control character stands in a string**: each is escaped. -/
theorem printable_of_body (h : Body text s) : ∀ c ∈ text, 0x20 ≤ c.toNat := by
  induction h with
  | nil => exact fun c hc => by cases hc
  | cons hpiece hbody ih =>
    intro c hc
    rcases List.mem_append.mp hc with hmem | hmem
    · cases hpiece with
      | raw hprintable => rwa [List.mem_singleton.mp hmem]
      | short hshort =>
        simp only [List.mem_cons, List.not_mem_nil, or_false] at hmem
        rcases hmem with rfl | rfl
        · decide
        · exact printable_of_shorthand hshort
      | @unicode x y z w c' hcode =>
        simp only [unicode, Option.bind_eq_bind, Option.bind_eq_some_iff] at hcode
        obtain ⟨_, hx, _, hy, _, hz, _, hw, -⟩ := hcode
        simp only [List.mem_cons, List.not_mem_nil, or_false] at hmem
        rcases hmem with rfl | rfl | rfl | rfl | rfl | rfl
        · decide
        · decide
        · exact printable_of_hexDigit hx
        · exact printable_of_hexDigit hy
        · exact printable_of_hexDigit hz
        · exact printable_of_hexDigit hw
    · exact ih c hmem

theorem printable_between {left right : Char} {text : List Char} (hleft : 0x20 ≤ left.toNat)
    (hright : 0x20 ≤ right.toNat) (h : ∀ c ∈ text, 0x20 ≤ c.toNat) :
    ∀ c ∈ left :: (text ++ [right]), 0x20 ≤ c.toNat := by
  intro c hc
  rw [List.mem_cons, List.mem_append, List.mem_singleton] at hc
  rcases hc with rfl | hc | rfl
  · exact hleft
  · exact h c hc
  · exact hright

/-- A list can be printed if its items can. -/
theorem printable_commas {texts : List (List Char)} (h : ∀ text ∈ texts, ∀ c ∈ text, 0x20 ≤ c.toNat) :
    ∀ c ∈ commas texts, 0x20 ≤ c.toNat := by
  intro c hc
  rcases mem_intercalate hc with hcomma | ⟨text, htext, hmem⟩
  · rw [List.mem_singleton.mp hcomma]
    decide
  · exact h text htext c hmem

/-- **The text of a value has no control characters**, so no ends of lines. -/
theorem printable_of_denotes (h : Denotes text v) : ∀ c ∈ text, 0x20 ≤ c.toNat := by
  induction h with
  | null | true | false => simp
  | number hn =>
    intro c hc
    rcases Numeral.of_mem_numeral hc with rfl | hdigit
    · decide
    · exact le_trans (by decide) (Char.isDigit_iff_toNat.mp hdigit).1
  | string hbody => exact printable_between (by decide) (by decide) (printable_of_body hbody)
  | array _ ih =>
    refine printable_between (by decide) (by decide) (printable_commas fun text htext => ?_)
    obtain ⟨item, hitem, rfl⟩ := List.mem_map.mp htext
    exact ih item hitem
  | object _ hkeys _ ih =>
    refine printable_between (by decide) (by decide) (printable_commas fun text htext => ?_)
    obtain ⟨m, hm, rfl⟩ := List.mem_map.mp htext
    intro c hc
    simp only [Member.text, List.mem_cons, List.mem_append] at hc
    rcases hc with rfl | hc | rfl | rfl | hc
    · decide
    · exact printable_of_body (hkeys m hm) c hc
    · decide
    · decide
    · exact ih m hm c hc

end Json

end Library
