import RealtimeGame.Match.SnapshotLine

/-!
# Match/SnapshotCodec — the lines of a saved queue, there and back

Whatever bytes are in the ids: a valid entry is written, and read back as it was.  What is read is valid and
made of the bytes of its line, and no part of a written line, nor a longer one, is read.
-/

open Library

namespace RealtimeGame.Match

namespace SnapshotLine

variable {text rest : Bytes} {entry : RawEntry}

/-! ## Fields, there and back

What is written is read, and what is read has been cut out of the text. -/

/-- A string is read back, whatever follows it, -/
theorem string_str {value : Bytes} (h : value.length < 2 ^ 64) (rest : Bytes) :
    string (str value ++ rest) = some (value, rest) := by
  have hcolon : ∀ b ∈ ((':'.toUInt8 :: value) ++ rest).head?, Decimal.isDigit b = false := by
    intro b hb
    obtain rfl := Option.some.inj hb
    rfl
  rw [string, str, List.append_assoc, Decimal.readNat_numeral _ hcolon, List.cons_append]
  dsimp only
  rw [if_pos ⟨h, rfl, by rw [List.length_append]; omega⟩, List.take_left, List.drop_left]

theorem fits_toInt (value : Int64) : MatchQueueStore.fits value.toInt = true := by
  rw [MatchQueueStore.fits, Bool.and_eq_true, decide_eq_true_iff, decide_eq_true_iff]
  exact ⟨value.le_toInt, value.toInt_lt⟩

/-- …and so is a number; 64 bits always fit. -/
theorem integer_int (value : Int64) (rest : Bytes) : integer (int value ++ rest) = some (value, rest) := by
  have hsemicolon : ∀ b ∈ ([';'.toUInt8] ++ rest).head?, Decimal.isDigit b = false := by
    intro b hb
    obtain rfl := Option.some.inj hb
    rfl
  rw [integer, int, List.append_assoc, Decimal.readInt_signed _ hsemicolon, List.singleton_append]
  dsimp only
  rw [if_pos ⟨fits_toInt value, rfl⟩, Int64.ofInt_toInt]

/-- What is read as a string is a length, a colon and as many bytes. -/
theorem string_eq_some {value : Bytes} (h : string text = some (value, rest)) :
    value.length < 2 ^ 64 ∧ Decimal.readNat text = some (value.length, ':'.toUInt8 :: (value ++ rest)) := by
  rw [string] at h
  split at h
  case h_1 length b more hread =>
    obtain ⟨⟨hlength, rfl, hle⟩, heq⟩ := Option.ite_none_right_eq_some.mp h
    obtain ⟨rfl, rfl⟩ := Prod.mk.inj (Option.some.inj heq)
    rw [List.length_take_of_le hle, List.take_append_drop]
    exact ⟨hlength, hread⟩
  case h_2 => cases h

/-- What is read as a number ends with a semicolon. -/
theorem integer_eq_some {value : Int64} (h : integer text = some (value, rest)) :
    Decimal.readInt text = some (value.toInt, ';'.toUInt8 :: rest) := by
  rw [integer] at h
  split at h
  case h_1 n b more hread =>
    obtain ⟨⟨hfits, rfl⟩, heq⟩ := Option.ite_none_right_eq_some.mp h
    obtain ⟨rfl, rfl⟩ := Prod.mk.inj (Option.some.inj heq)
    rw [MatchQueueStore.fits, Bool.and_eq_true, decide_eq_true_iff, decide_eq_true_iff] at hfits
    rw [hread, Int64.toInt_ofInt_of_le hfits.1 hfits.2]
  case h_2 => cases h

/-- A string is cut out of the text. -/
theorem infix_of_string {value : Bytes} (h : string text = some (value, rest)) :
    value <:+: text ∧ rest <:+ text := by
  obtain ⟨-, hread⟩ := string_eq_some h
  obtain ⟨digits, -, rfl, -⟩ := Decimal.readNat_eq_some hread
  exact ⟨⟨digits ++ [':'.toUInt8], rest, by simp⟩, ⟨digits ++ ':'.toUInt8 :: value, by simp⟩⟩

/-- So are the digits of a number. -/
theorem infix_of_integer {value : Int64} (h : integer text = some (value, rest)) :
    (∃ digits, digits <:+: text ∧ Decimal.readInt digits = some (value.toInt, [])) ∧ rest <:+ text := by
  obtain ⟨digits, -, rfl, -, hwhole⟩ := Decimal.readInt_eq_some (integer_eq_some h)
  exact ⟨⟨digits, ⟨[], _, rfl⟩, hwhole⟩, ⟨digits ++ [';'.toUInt8], by simp⟩⟩

/-! ## What follows a line

A reading that is steady ends by itself; so a line is neither a part of a longer one nor has it parts that
are lines. -/

/-- Each field ends by itself: what follows it does not matter. -/
theorem steady_string : string.Steady := by
  intro text value rest more h
  obtain ⟨hlt, hread⟩ := string_eq_some h
  rw [string, Decimal.readNat_append more hread]
  dsimp only [List.cons_append]
  rw [List.append_assoc, if_pos ⟨hlt, rfl, by rw [List.length_append]; omega⟩, List.take_left, List.drop_left]

theorem steady_integer : integer.Steady := by
  intro text value rest more h
  rw [integer, Decimal.readInt_append more (integer_eq_some h)]
  dsimp only [List.cons_append]
  rw [if_pos ⟨fits_toInt value, rfl⟩, Int64.ofInt_toInt]

/-- So do the players, -/
theorem steady_players (entry : RawEntry) (n : Nat) : (players entry n).Steady := by
  induction n generalizing entry with
  | zero => exact Reading.steady_pure
  | succ n ih => exact steady_string.andThen fun _ => ih _

/-- **…and so does a line.** -/
theorem steady_line : line.Steady := by
  refine Reading.steady_one.andThen fun version => Reading.steady_guard.andThen fun _ =>
    Reading.steady_one.andThen fun kind => ?_
  split
  · exact steady_string.andThen fun _ => steady_integer.andThen fun _ => Reading.steady_pure
  split
  · exact steady_string.andThen fun _ => steady_string.andThen fun _ => steady_integer.andThen fun _ =>
      steady_integer.andThen fun _ => Reading.steady_guard.andThen fun _ => steady_players _ _
  · exact Reading.steady_fail

/-! ## Entries

A raw entry has the fields of both kinds, and only those of its own are written. -/

/-- The entry without the fields of the other kind. -/
def RawEntry.trim (entry : RawEntry) : RawEntry :=
  match entry.kind with
  | .queued => { playerId := entry.playerId, queuedAtMs := entry.queuedAtMs }
  | .matched =>
    { kind := .matched, matchId := entry.matchId, roomId := entry.roomId, playerIds := entry.playerIds
      stampMs := entry.stampMs }

/-- All strings of an entry. -/
def RawEntry.fields (entry : RawEntry) : List Bytes :=
  entry.playerId :: entry.matchId :: entry.roomId :: entry.playerIds

/-- The time of an entry. -/
def RawEntry.timeMs (entry : RawEntry) : Int64 :=
  match entry.kind with
  | .queued => entry.queuedAtMs
  | .matched => entry.stampMs

/-- **The entry is made of bytes of the text**: its strings stand there, and so do the digits of its time. -/
structure RawEntry.MadeOf (entry : RawEntry) (text : Bytes) : Prop where
  fields : ∀ field ∈ entry.fields, field <:+: text
  time : ∃ digits, digits <:+: text ∧ Decimal.readInt digits = some (entry.timeMs.toInt, [])

/-- The fields of the other kind are not looked at. -/
theorem validateEntry_trim (entry : RawEntry) : validateEntry entry.trim = validateEntry entry := by
  unfold RawEntry.trim
  cases hkind : entry.kind <;> simp only [validateEntry, hkind]

theorem length_of_validIdentifier {value : Bytes} (h : validIdentifier value = true) : value.length < 2 ^ 64 := by
  rw [validIdentifier, Bool.and_eq_true, decide_eq_true_iff, decide_eq_true_iff, kMaxFieldLength] at h
  omega

/-- What a valid match has. -/
theorem validateEntry_matched (hkind : entry.kind = .matched) (h : validateEntry entry = none) :
    validIdentifier entry.matchId = true ∧ validIdentifier entry.roomId = true ∧ entry.playerIds ≠ [] ∧
      entry.playerIds.length ≤ kMaxPlayersPerSnapshotGroup ∧
      ∀ playerId ∈ entry.playerIds, validIdentifier playerId = true := by
  unfold validateEntry at h
  rw [hkind] at h
  grind

/-- …and what a player who waits has. -/
theorem validateEntry_queued (hkind : entry.kind = .queued) (h : validateEntry entry = none) :
    validIdentifier entry.playerId = true := by
  unfold validateEntry at h
  rw [hkind] at h
  grind

/-- The players are read back one by one. -/
theorem players_flatMap {playerIds : List Bytes} (h : ∀ playerId ∈ playerIds, validIdentifier playerId = true)
    (entry : RawEntry) (rest : Bytes) : players entry playerIds.length (playerIds.flatMap str ++ rest) =
      some ({ entry with playerIds := entry.playerIds ++ playerIds }, rest) := by
  induction playerIds generalizing entry with
  | nil =>
    rw [List.append_nil]
    rfl
  | cons playerId playerIds ih =>
    rw [List.forall_mem_cons] at h
    rw [List.length_cons, List.flatMap_cons, List.append_assoc, players,
      Reading.andThen_of_some (string_str (length_of_validIdentifier h.1) _), ih h.2]
    simp

theorem foldl_appendString (out : Bytes) (values : List Bytes) :
    values.foldl appendString out = out ++ values.flatMap str := by
  induction values generalizing out with
  | nil => rw [List.foldl_nil, List.flatMap_nil, List.append_nil]
  | cons value values ih => rw [List.foldl_cons, ih, appendString, List.flatMap_cons, List.append_assoc]

/-- An entry is written exactly if it is valid. -/
theorem encode_isSome_iff (entry : RawEntry) :
    (encodeMatchQueueEntry entry).isSome = true ↔ validateEntry entry = none := by
  rw [encodeMatchQueueEntry]
  cases validateEntry entry <;> simp

/-- The first two bytes tell a player who waits -/
theorem line_queued (body : Bytes) : line ([kSnapshotFormatVersion, 'Q'.toUInt8] ++ body) = queued body := by
  have hversion : Reading.one ([kSnapshotFormatVersion, 'Q'.toUInt8] ++ body) =
    some (kSnapshotFormatVersion, 'Q'.toUInt8 :: body) := rfl
  have hkind : Reading.one ('Q'.toUInt8 :: body) = some ('Q'.toUInt8, body) := rfl
  rw [line, Reading.andThen_of_some hversion, Reading.andThen_of_some (Reading.guard_eq_some.mpr ⟨rfl, rfl, rfl⟩),
    Reading.andThen_of_some hkind, if_pos rfl]

/-- …from a match. -/
theorem line_matched (body : Bytes) : line ([kSnapshotFormatVersion, 'M'.toUInt8] ++ body) = matched body := by
  have hversion : Reading.one ([kSnapshotFormatVersion, 'M'.toUInt8] ++ body) =
    some (kSnapshotFormatVersion, 'M'.toUInt8 :: body) := rfl
  have hkind : Reading.one ('M'.toUInt8 :: body) = some ('M'.toUInt8, body) := rfl
  rw [line, Reading.andThen_of_some hversion, Reading.andThen_of_some (Reading.guard_eq_some.mpr ⟨rfl, rfl, rfl⟩),
    Reading.andThen_of_some hkind, if_neg (by decide), if_pos rfl]

/-- **What is written is what the grammar says.** -/
theorem line_of_encode (h : encodeMatchQueueEntry entry = some text) : line text = some (entry.trim, []) := by
  have hvalid : validateEntry entry = none := (encode_isSome_iff entry).mp (by rw [h]; rfl)
  rw [encodeMatchQueueEntry, hvalid] at h
  obtain rfl := Option.some.inj h
  cases hkind : entry.kind with
  | queued =>
    have hplayer := length_of_validIdentifier (validateEntry_queued hkind hvalid)
    dsimp only
    rw [appendInt, appendString, List.append_assoc, ← List.append_nil (int entry.queuedAtMs), line_queued,
      queued, Reading.andThen_of_some (string_str hplayer _), Reading.andThen_of_some (integer_int _ _),
      RawEntry.trim, hkind]
    rfl
  | matched =>
    obtain ⟨hmatch, hroom, hne, hfew, hplayers⟩ := validateEntry_matched hkind hvalid
    have hcount : (Int64.ofNat entry.playerIds.length).toInt = entry.playerIds.length := by
      rw [kMaxPlayersPerSnapshotGroup] at hfew
      exact Int64.toInt_ofNat_of_lt (by omega)
    have hin : ¬countOut (Int64.ofNat entry.playerIds.length) := by
      have hpos := List.length_pos_of_ne_nil hne
      rw [countOut, Int64.le_iff_toInt_le, hcount, Int64.toInt_zero]
      omega
    dsimp only
    rw [foldl_appendString]
    simp only [appendInt, appendString, List.append_assoc]
    rw [← List.append_nil (entry.playerIds.flatMap str), line_matched, matched,
      Reading.andThen_of_some (string_str (length_of_validIdentifier hmatch) _),
      Reading.andThen_of_some (string_str (length_of_validIdentifier hroom) _),
      Reading.andThen_of_some (integer_int _ _), Reading.andThen_of_some (integer_int _ _),
      Reading.andThen_of_some (Reading.guard_eq_some.mpr ⟨hin, rfl, rfl⟩), hcount, Int.toNat_natCast,
      players_flatMap hplayers, RawEntry.trim, hkind]
    rfl

/-- The players that are read are all cut out of the text. -/
theorem players_eq_some {n : Nat} {entry' : RawEntry} (h : players entry n text = some (entry', rest)) :
    ∃ playerIds, entry' = { entry with playerIds := entry.playerIds ++ playerIds } ∧
      ∀ playerId ∈ playerIds, playerId <:+: text := by
  induction n generalizing entry text with
  | zero =>
    obtain ⟨rfl, -⟩ := Prod.mk.inj (Option.some.inj h)
    exact ⟨[], by rw [List.append_nil], fun playerId hmem => by cases hmem⟩
  | succ n ih =>
    obtain ⟨playerId, mid, hstring, hplayers⟩ := Reading.andThen_eq_some.mp h
    obtain ⟨playerIds, rfl, hmem⟩ := ih hplayers
    obtain ⟨hpiece, hsuffix⟩ := infix_of_string hstring
    refine ⟨playerId :: playerIds, by simp, ?_⟩
    exact List.forall_mem_cons.mpr ⟨hpiece, fun p hp => (hmem p hp).trans hsuffix.isInfix⟩

/-- The two kinds of lines. -/
theorem line_cases (h : line text = some (entry, rest)) :
    (∃ body, text = [kSnapshotFormatVersion, 'Q'.toUInt8] ++ body ∧ queued body = some (entry, rest)) ∨
      ∃ body, text = [kSnapshotFormatVersion, 'M'.toUInt8] ++ body ∧ matched body = some (entry, rest) := by
  obtain ⟨version, mid, hversion, h⟩ := Reading.andThen_eq_some.mp h
  obtain ⟨_, mid', hguard, h⟩ := Reading.andThen_eq_some.mp h
  obtain ⟨rfl, -, rfl⟩ := Reading.guard_eq_some.mp hguard
  obtain ⟨kind, body, hkind, h⟩ := Reading.andThen_eq_some.mp h
  have htext : text = [kSnapshotFormatVersion, kind] ++ body := by
    cases text with
    | nil => cases hversion
    | cons =>
      cases hversion
      cases mid with
      | nil => cases hkind
      | cons =>
        cases hkind
        rfl
  split at h
  case isTrue hqueued => exact .inl ⟨body, hqueued ▸ htext, h⟩
  case isFalse =>
    split at h
    case isTrue hmatched => exact .inr ⟨body, hmatched ▸ htext, h⟩
    case isFalse => cases h

/-- A line of the one kind, field by field, -/
theorem queued_eq_some (h : queued text = some (entry, rest)) :
    ∃ playerId mid queuedAtMs, string text = some (playerId, mid) ∧ integer mid = some (queuedAtMs, rest) ∧
      entry = { playerId := playerId, queuedAtMs := queuedAtMs } := by
  obtain ⟨playerId, mid, hplayer, h⟩ := Reading.andThen_eq_some.mp h
  obtain ⟨queuedAtMs, mid', htime, h⟩ := Reading.andThen_eq_some.mp h
  obtain ⟨rfl, rfl⟩ := Prod.mk.inj (Option.some.inj h)
  exact ⟨playerId, mid, queuedAtMs, hplayer, htime, rfl⟩

/-- …and of the other. -/
theorem matched_eq_some (h : matched text = some (entry, rest)) :
    ∃ matchId mid₁ roomId mid₂ stampMs mid₃ count mid₄, string text = some (matchId, mid₁) ∧
      string mid₁ = some (roomId, mid₂) ∧ integer mid₂ = some (stampMs, mid₃) ∧
      integer mid₃ = some (count, mid₄) ∧ ¬countOut count ∧
      players { kind := .matched, matchId := matchId, roomId := roomId, stampMs := stampMs } count.toInt.toNat
        mid₄ = some (entry, rest) := by
  obtain ⟨matchId, mid₁, hmatch, h⟩ := Reading.andThen_eq_some.mp h
  obtain ⟨roomId, mid₂, hroom, h⟩ := Reading.andThen_eq_some.mp h
  obtain ⟨stampMs, mid₃, htime, h⟩ := Reading.andThen_eq_some.mp h
  obtain ⟨count, mid₄, hcount, h⟩ := Reading.andThen_eq_some.mp h
  obtain ⟨_, mid, hguard, h⟩ := Reading.andThen_eq_some.mp h
  obtain ⟨hin, -, rfl⟩ := Reading.guard_eq_some.mp hguard
  exact ⟨matchId, mid₁, roomId, mid₂, stampMs, mid₃, count, mid₄, hmatch, hroom, htime, hcount, hin, h⟩

/-- **What is read is made of the bytes of the line**, and has nothing of the other kind. -/
theorem of_line_eq_some (h : line text = some (entry, rest)) : entry.trim = entry ∧ entry.MadeOf text := by
  rcases line_cases h with ⟨body, rfl, h⟩ | ⟨body, rfl, h⟩
  · obtain ⟨playerId, mid, queuedAtMs, hplayer, htime, rfl⟩ := queued_eq_some h
    obtain ⟨hplayer, hsuffix⟩ := infix_of_string hplayer
    obtain ⟨⟨digits, hdigits, htime⟩, -⟩ := infix_of_integer htime
    have hbody : ∀ {field : Bytes}, field <:+: body → field <:+: [kSnapshotFormatVersion, 'Q'.toUInt8] ++ body :=
      fun hfield => hfield.trans (List.suffix_append _ _).isInfix
    refine ⟨rfl, ⟨?_, digits, hbody (hdigits.trans hsuffix.isInfix), htime⟩⟩
    simp only [RawEntry.fields, List.forall_mem_cons, List.not_mem_nil, false_imp_iff, implies_true, and_true]
    exact ⟨hbody hplayer, List.nil_infix, List.nil_infix⟩
  · obtain ⟨matchId, mid₁, roomId, mid₂, stampMs, mid₃, count, mid₄, hmatch, hroom, htime, hcount, -, h⟩ :=
      matched_eq_some h
    obtain ⟨playerIds, rfl, hplayers⟩ := players_eq_some h
    obtain ⟨hmatch, hsuffix₁⟩ := infix_of_string hmatch
    obtain ⟨hroom, hsuffix₂⟩ := infix_of_string hroom
    obtain ⟨⟨digits, hdigits, htime⟩, hsuffix₃⟩ := infix_of_integer htime
    obtain ⟨-, hsuffix₄⟩ := infix_of_integer hcount
    have hbody : ∀ {field : Bytes}, field <:+: body → field <:+: [kSnapshotFormatVersion, 'M'.toUInt8] ++ body :=
      fun hfield => hfield.trans (List.suffix_append _ _).isInfix
    have hmid₂ : mid₂ <:+ body := hsuffix₂.trans hsuffix₁
    refine ⟨rfl, ⟨?_, digits, hbody (hdigits.trans hmid₂.isInfix), htime⟩⟩
    simp only [RawEntry.fields, List.nil_append, List.forall_mem_cons]
    refine ⟨List.nil_infix, hbody hmatch, hbody (hroom.trans hsuffix₁.isInfix), fun playerId hmem => ?_⟩
    exact hbody ((hplayers playerId hmem).trans ((hsuffix₄.trans hsuffix₃).trans hmid₂).isInfix)

/-! ## The law

`line` is the grammar; the reader was shown to follow it.  What is left is to compare it with the writer. -/

/-- A row without a problem is a line that is read as a whole and is valid. -/
theorem decode_eq_some_iff : decodeMatchQueueEntry text = some ⟨entry, []⟩ ↔
    line.whole text = some entry ∧ validateEntry entry = none := by
  obtain ⟨row, hrow, hiff⟩ := settles_decode text
  rw [hrow, Option.some.injEq, hiff, Reading.whole_eq_some]

/-- **What is written is read back.** -/
theorem decode_of_encode (h : encodeMatchQueueEntry entry = some text) :
    decodeMatchQueueEntry text = some ⟨entry.trim, []⟩ := by
  rw [decode_eq_some_iff, Reading.whole_eq_some, validateEntry_trim]
  exact ⟨line_of_encode h, (encode_isSome_iff entry).mp (by rw [h]; rfl)⟩

/-- **There and back.**  An entry of one kind is written if and only if it is valid, and is then read as it was,
whatever bytes are in it.  Whatever is read is valid, can be written, and is then read as it was.  Neither a
part of a written line nor a longer one is read.  Reading stays within the line and makes the entry of its
bytes. -/
theorem codec_law :
    (∀ entry, (encodeMatchQueueEntry entry).isSome = true ↔ validateEntry entry = none) ∧
    (∀ entry text, entry.trim = entry → encodeMatchQueueEntry entry = some text →
      decodeMatchQueueEntry text = some ⟨entry, []⟩) ∧
    (∀ text entry, decodeMatchQueueEntry text = some ⟨entry, []⟩ → validateEntry entry = none ∧
      ∃ text', encodeMatchQueueEntry entry = some text' ∧ decodeMatchQueueEntry text' = some ⟨entry, []⟩) ∧
    (∀ entry text text', encodeMatchQueueEntry entry = some text → text' <+: text ∨ text <+: text' →
      text' ≠ text → ∀ entry', decodeMatchQueueEntry text' ≠ some ⟨entry', []⟩) ∧
    (∀ text, ∃ row, decodeMatchQueueEntry text = some row) ∧
    ∀ text entry, decodeMatchQueueEntry text = some ⟨entry, []⟩ → entry.MadeOf text := by
  refine ⟨encode_isSome_iff, fun entry text htrim h => ?_, fun text entry h => ?_,
    fun entry text text' h hpart hne entry' h' => ?_, fun text => ?_, fun text entry h => ?_⟩
  · rw [decode_of_encode h, htrim]
  · obtain ⟨hwhole, hvalid⟩ := decode_eq_some_iff.mp h
    obtain ⟨htrim, -⟩ := of_line_eq_some (Reading.whole_eq_some.mp hwhole)
    obtain ⟨text', htext'⟩ := Option.isSome_iff_exists.mp ((encode_isSome_iff entry).mpr hvalid)
    refine ⟨hvalid, text', htext', ?_⟩
    rw [decode_of_encode htext', htrim]
  · have hwritten := (decode_eq_some_iff.mp (decode_of_encode h)).1
    have hread := (decode_eq_some_iff.mp h').1
    rcases hpart with ⟨more, rfl⟩ | ⟨more, rfl⟩
    · rw [steady_line.whole_append hread hwritten, List.append_nil] at hne
      exact hne rfl
    · rw [steady_line.whole_append hwritten hread, List.append_nil] at hne
      exact hne rfl
  · obtain ⟨row, hrow, -⟩ := settles_decode text
    exact ⟨row, hrow⟩
  · exact (of_line_eq_some (Reading.whole_eq_some.mp (decode_eq_some_iff.mp h).1)).2

/-! ## Entries whose ids are texts

The queue keeps its ids as texts.  On these the two codecs are the same. -/

open MatchQueueStore (bytes fits Fits)

/-- Texts are valid by their bytes. -/
theorem validIdentifier_bytes (s : String) : validIdentifier (bytes s) = MatchQueueStore.validIdentifier s := by
  have hempty : bytes s = [] ↔ s = "" := by
    rw [← List.length_eq_zero_iff, MatchQueueStore.length_bytes, String.utf8ByteSize_eq_zero_iff]
  rw [validIdentifier, MatchQueueStore.validIdentifier, MatchQueueStore.length_bytes]
  simp only [ne_eq, hempty]

/-- An entry of the queue, byte by byte. -/
def raw : MatchQueueEntry → RawEntry
  | .queued playerId queuedAtMs => { playerId := bytes playerId, queuedAtMs := Int64.ofInt queuedAtMs }
  | .matched matchId roomId playerIds stampMs =>
    { kind := .matched, matchId := bytes matchId, roomId := bytes roomId, playerIds := playerIds.map bytes
      stampMs := Int64.ofInt stampMs }

/-- A number that fits is kept in 64 bits. -/
theorem toInt_ofInt_of_fits {value : Int} (h : fits value = true) : (Int64.ofInt value).toInt = value := by
  rw [fits, Bool.and_eq_true, decide_eq_true_iff, decide_eq_true_iff] at h
  exact Int64.toInt_ofInt_of_le h.1 h.2

theorem ofInt_nonpos_iff {value : Int} (h : fits value = true) : Int64.ofInt value ≤ 0 ↔ value ≤ 0 := by
  rw [Int64.le_iff_toInt_le, toInt_ofInt_of_fits h, Int64.toInt_zero]

/-- The two checks agree, -/
theorem isSome_validateEntry_raw {entry : MatchQueueEntry} (h : Fits entry) :
    (validateEntry (raw entry)).isSome = (MatchQueueStore.validateEntry entry).isSome := by
  cases entry with
  | queued playerId queuedAtMs =>
    simp only [validateEntry, raw, MatchQueueStore.validateEntry, validIdentifier_bytes, ofInt_nonpos_iff h]
    split_ifs <;> rfl
  | matched matchId roomId playerIds stampMs =>
    simp only [validateEntry, raw, MatchQueueStore.validateEntry, validIdentifier_bytes, ofInt_nonpos_iff h,
      List.map_eq_nil_iff, List.length_map, List.any_map, Function.comp_def]
    split_ifs <;> rfl

theorem str_bytes (s : String) : str (bytes s) = MatchQueueStore.str s := rfl

/-- …and so do the two ways to write a number. -/
theorem int_ofInt {value : Int} (h : fits value = true) : int (Int64.ofInt value) = MatchQueueStore.int value := by
  rw [int, toInt_ofInt_of_fits h, MatchQueueStore.int]

/-- **The same lines are written.** -/
theorem encode_raw {entry : MatchQueueEntry} (h : Fits entry) :
    encodeMatchQueueEntry (raw entry) = MatchQueueStore.encodeMatchQueueEntry entry := by
  unfold encodeMatchQueueEntry MatchQueueStore.encodeMatchQueueEntry
  rw [isSome_validateEntry_raw h]
  split
  case isTrue => rfl
  case isFalse hvalid =>
    cases entry with
    | queued playerId queuedAtMs =>
      dsimp only [raw, appendInt, appendString, MatchQueueStore.appendInt, MatchQueueStore.appendString]
      rw [str_bytes, int_ofInt h]
    | matched matchId roomId playerIds stampMs =>
      obtain ⟨-, -, -, -, hfew, -⟩ := MatchQueueStore.validateEntry_matched.mp (Option.not_isSome_iff_eq_none.mp hvalid)
      rw [kMaxPlayersPerSnapshotGroup] at hfew
      have hcount : int (Int64.ofNat playerIds.length) = MatchQueueStore.int playerIds.length := by
        rw [int, Int64.toInt_ofNat_of_lt (by omega), MatchQueueStore.int]
      dsimp only [raw, appendInt, appendString, MatchQueueStore.appendInt, MatchQueueStore.appendString]
      rw [foldl_appendString, MatchQueueStore.foldl_appendString, str_bytes, str_bytes, int_ofInt h,
        List.length_map, hcount, List.flatMap_map]
      rfl

/-- A text that is read as bytes is read as a text, -/
theorem readString_of_string {s : String} (h : string text = some (bytes s, rest)) :
    MatchQueueStore.readString text = some (s, rest) := by
  obtain ⟨hlength, hread⟩ := string_eq_some h
  rw [MatchQueueStore.readString, hread]
  dsimp only
  rw [if_pos ⟨hlength, rfl, by rw [List.length_append]; omega⟩, List.take_left, List.drop_left,
    MatchQueueStore.text_bytes]

/-- …a number is read as the same number, -/
theorem readInt_of_integer {value : Int64} (h : integer text = some (value, rest)) :
    MatchQueueStore.readInt text = some (value.toInt, rest) := by
  rw [MatchQueueStore.readInt, integer_eq_some h]
  dsimp only
  rw [if_pos ⟨fits_toInt value, rfl⟩]

/-- …and the players as the same players. -/
theorem readPlayers_of_players {n : Nat} {entry' : RawEntry} (playerIds : List String)
    (h : players entry n text = some (entry', rest))
    (hids : entry'.playerIds = entry.playerIds ++ playerIds.map bytes) :
    MatchQueueStore.readPlayers n text = (playerIds, some rest) := by
  induction n generalizing entry text playerIds with
  | zero =>
    obtain ⟨rfl, rfl⟩ := Prod.mk.inj (Option.some.inj h)
    rw [List.self_eq_append_right, List.map_eq_nil_iff] at hids
    rw [hids, MatchQueueStore.readPlayers]
  | succ n ih =>
    obtain ⟨playerId, mid, hstring, hplayers⟩ := Reading.andThen_eq_some.mp h
    obtain ⟨more, hmore, -⟩ := players_eq_some hplayers
    rw [hmore, List.append_assoc, List.append_cancel_left_eq, List.singleton_append] at hids
    obtain ⟨s, playerIds, rfl, rfl, rfl⟩ := List.map_eq_cons_iff.mp hids.symm
    have htail := ih playerIds hplayers (by rw [hmore])
    rw [MatchQueueStore.readPlayers, readString_of_string hstring]
    dsimp only
    rw [htail]

/-- **The same entries are read**, if their ids are texts. -/
theorem decode_raw {entry : MatchQueueEntry} (hfits : Fits entry)
    (h : decodeMatchQueueEntry text = some ⟨raw entry, []⟩) :
    MatchQueueStore.decodeMatchQueueEntry text = ⟨entry, ""⟩ := by
  obtain ⟨hwhole, hvalid⟩ := decode_eq_some_iff.mp h
  have hnone : MatchQueueStore.validateEntry entry = none := by
    rw [← Option.not_isSome_iff_eq_none, ← isSome_validateEntry_raw hfits, hvalid]
    exact Bool.false_ne_true
  have hfinish : MatchQueueStore.finish entry [] = ⟨entry, ""⟩ := by
    rw [MatchQueueStore.finish, hnone]
    rfl
  rcases line_cases (Reading.whole_eq_some.mp hwhole) with ⟨body, rfl, hbody⟩ | ⟨body, rfl, hbody⟩
  · obtain ⟨playerId, mid, queuedAtMs, hplayer, htime, heq⟩ := queued_eq_some hbody
    cases entry with
    | matched => cases congrArg RawEntry.kind heq
    | queued s value =>
      obtain rfl : bytes s = playerId := congrArg RawEntry.playerId heq
      obtain rfl : Int64.ofInt value = queuedAtMs := congrArg RawEntry.queuedAtMs heq
      change MatchQueueStore.decodeQueued body = _
      rw [MatchQueueStore.decodeQueued, readString_of_string hplayer]
      dsimp only
      rw [readInt_of_integer htime, toInt_ofInt_of_fits hfits]
      exact hfinish
  · obtain ⟨matchId, mid₁, roomId, mid₂, stampMs, mid₃, count, mid₄, hmatch, hroom, htime, hcount, hin, hids⟩ :=
      matched_eq_some hbody
    obtain ⟨playerIds, heq, -⟩ := players_eq_some hids
    cases entry with
    | queued => cases congrArg RawEntry.kind heq
    | matched match' room' ids value =>
      obtain rfl : bytes match' = matchId := congrArg RawEntry.matchId heq
      obtain rfl : bytes room' = roomId := congrArg RawEntry.roomId heq
      obtain rfl : Int64.ofInt value = stampMs := congrArg RawEntry.stampMs heq
      have hplayers := readPlayers_of_players ids hids rfl
      rw [countOut, Int64.le_iff_toInt_le, Int64.toInt_zero] at hin
      change MatchQueueStore.decodeMatched body = _
      rw [MatchQueueStore.decodeMatched, readString_of_string hmatch]
      dsimp only
      rw [readString_of_string hroom]
      dsimp only
      rw [readInt_of_integer htime]
      dsimp only
      rw [readInt_of_integer hcount]
      dsimp only
      rw [if_neg hin, hplayers, toInt_ofInt_of_fits hfits]
      exact hfinish

end SnapshotLine

end RealtimeGame.Match
