import RealtimeGame.Library.Stretch
import RealtimeGame.Web.Stream

/-!
# Web/Chunking — the chunks that a stream with carriage returns arrives in

`streamRoom` replaces the end of a line CR LF by LF in each chunk for itself, so that it misses one that is
cut in two.  `parseSseBlock` drops a carriage return at the end of a line, which makes up for this within a
block, and for the line before the empty one.  But where the empty line that ends a block is cut in two, the
block is not seen to end, and what comes next runs into it.
-/

open Library

namespace RealtimeGame.Web

/-! ## Texts

A stream as it was meant: blocks of lines, some of which end with CR LF. -/

/-- One line of a block, with its end: CR LF or LF. -/
structure SseLine where
  text : List Char
  returns : Bool
  full : text ≠ []
  plain : '\r' ∉ text ∧ '\n' ∉ text
  deriving DecidableEq

/-- The end of a line. -/
def lineEnd (returns : Bool) : List Char := if returns then ['\r', '\n'] else ['\n']

def SseLine.render (line : SseLine) : List Char := line.text ++ lineEnd line.returns

/-- A block: its lines, and the end of the empty line after them. -/
structure SseBlock where
  lines : List SseLine
  returns : Bool
  deriving DecidableEq

namespace SseBlock

def render (b : SseBlock) : List Char := b.lines.flatMap SseLine.render ++ lineEnd b.returns

/-- What the lines of a block say. -/
def fields (b : SseBlock) (fields : Fields) : Fields :=
  b.lines.foldl (fun fields line => fields.readLine line.text) fields

end SseBlock

/-! ## Where chunks begin

Each character knows whether a chunk begins with it. -/

/-- The text of all pieces; of each character, whether it is the first of a piece. -/
def marked : List (List Char) → List (Char × Bool)
  | [] => []
  | [] :: pieces => marked pieces
  | (c :: text) :: pieces => (c, true) :: (text.map fun c => (c, false)) ++ marked pieces

theorem map_fst_marked (pieces : List (List Char)) : (marked pieces).map Prod.fst = pieces.flatten := by
  induction pieces using marked.induct with
  | case1 => rfl
  | case2 pieces ih => exact ih
  | case3 c text pieces ih =>
    rw [marked, List.map_append, ih, List.map_cons, List.map_map, Function.comp_def, List.map_id',
      List.flatten_cons]

/-- The line feed at the end of the empty line is the first character of a piece. -/
def SseBlock.broken (b : SseBlock) (text : List (Char × Bool)) : Bool :=
  b.returns && (text[b.render.length - 1]?).any (·.2)

/-- Of each block, whether its last line end is cut in two. -/
def breaks : List SseBlock → List (Char × Bool) → List (SseBlock × Bool)
  | [], _ => []
  | b :: blocks, text => (b, b.broken text) :: breaks blocks (text.drop b.render.length)

theorem map_fst_breaks (blocks : List SseBlock) (text : List (Char × Bool)) :
    (breaks blocks text).map Prod.fst = blocks := by
  induction blocks generalizing text with
  | nil => rfl
  | cons b blocks ih => rw [breaks, List.map_cons, ih]

/-! ## The text that is seen

A CR LF that is cut in two is left. -/

/-- `unifyNewlines` of each piece. -/
def unifyMarked : List (Char × Bool) → List Char
  | ('\r', _) :: ('\n', false) :: text => '\n' :: unifyMarked text
  | (c, _) :: text => c :: unifyMarked text
  | [] => []

theorem unifyMarked_cons_of_ne {c : Char} (h : c ≠ '\r') (first : Bool) (text : List (Char × Bool)) :
    unifyMarked ((c, first) :: text) = c :: unifyMarked text := by
  rw [unifyMarked]
  exact fun _ _ heq => h heq

/-- One piece, with what comes behind it: that begins with the first character of another. -/
theorem unifyMarked_append {text more : List (Char × Bool)} (htext : ∀ e ∈ text.tail, e.2 = false)
    (hmore : ∀ e ∈ more.head?, e.2 = true) :
    unifyMarked (text ++ more) = unifyNewlines (text.map Prod.fst) ++ unifyMarked more := by
  induction text using unifyMarked.induct with
  | case1 first text ih =>
    rw [List.cons_append, List.cons_append, unifyMarked, ih, List.map_cons, List.map_cons, unifyNewlines,
      List.cons_append]
    exact fun e he => htext e (List.mem_cons_of_mem _ (List.mem_of_mem_tail he))
  | case2 c first text hnot ih =>
    rw [List.cons_append, unifyMarked, ih, List.map_cons, unifyNewlines, List.cons_append]
    · rintro after rfl hafter
      rcases text with - | ⟨⟨d, first'⟩, text⟩
      · cases hafter
      · obtain ⟨rfl, -⟩ := List.cons.inj hafter
        obtain rfl : first' = false := htext _ List.mem_cons_self
        exact hnot text rfl rfl
    · exact fun e he => htext e (List.mem_of_mem_tail he)
    · intro after hafter
      rcases text with - | ⟨e, text⟩
      · rw [List.nil_append] at hafter
        rw [hafter] at hmore
        cases hmore _ rfl
      · obtain ⟨rfl, -⟩ := List.cons.inj hafter
        exact hnot text rfl
  | case3 => rfl

theorem head?_marked (pieces : List (List Char)) : ∀ e ∈ (marked pieces).head?, e.2 = true := by
  induction pieces using marked.induct with
  | case1 => exact fun e he => by cases he
  | case2 pieces ih => exact ih
  | case3 c text pieces ih =>
    intro e he
    obtain rfl := Option.some.inj he
    rfl

theorem flatten_map_unify (pieces : List (List Char)) :
    (pieces.map unifyNewlines).flatten = unifyMarked (marked pieces) := by
  induction pieces using marked.induct with
  | case1 => rfl
  | case2 pieces ih => exact ih
  | case3 c text pieces ih =>
    have hlater : ∀ e ∈ ((c, true) :: text.map fun c => (c, false)).tail, e.2 = false := by
      intro e he
      obtain ⟨d, -, rfl⟩ := List.mem_map.mp he
      rfl
    rw [List.map_cons, List.flatten_cons, ih, marked, unifyMarked_append hlater (head?_marked pieces),
      List.map_cons, List.map_map, Function.comp_def, List.map_id']

/-! ## Lines as they are seen

With a carriage return at the end, or without. -/

/-- What is left of a line end. -/
def seenEnd (returns broken : Bool) : List Char := if returns && broken then ['\r', '\n'] else ['\n']

theorem unifyMarked_plain {text : List (Char × Bool)} (h : '\r' ∉ text.map Prod.fst)
    (more : List (Char × Bool)) : unifyMarked (text ++ more) = text.map Prod.fst ++ unifyMarked more := by
  induction text with
  | nil => rfl
  | cons e text ih =>
    rw [List.map_cons, List.mem_cons, not_or] at h
    rw [List.cons_append, unifyMarked_cons_of_ne (Ne.symm h.1), ih h.2, List.map_cons, List.cons_append]

/-- **One line**: a carriage return is left before its end where the two are cut apart. -/
theorem unifyMarked_line {line : List Char} (hplain : '\r' ∉ line) {returns : Bool}
    {text : List (Char × Bool)} (htext : text.map Prod.fst = line ++ lineEnd returns)
    (more : List (Char × Bool)) :
    unifyMarked (text ++ more) =
      line ++ seenEnd returns (text.getLast?.any (·.2)) ++ unifyMarked more := by
  obtain ⟨front, back, rfl, rfl, hback⟩ := List.map_eq_append_iff.mp htext
  rw [List.append_assoc, unifyMarked_plain hplain, List.append_assoc]
  refine congrArg _ ?_
  cases returns with
  | false =>
    obtain ⟨⟨c, first⟩, rest, rfl, rfl, hrest⟩ := List.map_eq_cons_iff.mp hback
    obtain rfl := List.map_eq_nil_iff.mp hrest
    exact unifyMarked_cons_of_ne (by decide) first more
  | true =>
    obtain ⟨⟨c, first⟩, rest, rfl, rfl, hrest⟩ := List.map_eq_cons_iff.mp hback
    obtain ⟨⟨c, second⟩, rest', rfl, rfl, hrest'⟩ := List.map_eq_cons_iff.mp hrest
    obtain rfl := List.map_eq_nil_iff.mp hrest'
    rw [List.getLast?_append_of_ne_nil _ (by simp)]
    cases second with
    | false => rfl
    | true =>
      change unifyMarked (('\r', first) :: ('\n', true) :: more) = '\r' :: '\n' :: unifyMarked more
      rw [unifyMarked, unifyMarked_cons_of_ne (by decide)]
      exact fun _ heq => by cases heq

/-- Lines as `parseSseBlock` may get them: some with the carriage return of their ends. -/
def Seen (lines : List SseLine) (raws : List (List Char)) : Prop :=
  List.Forall₂ (fun line raw => raw = line.text ∨ raw = line.text ++ ['\r']) lines raws

/-- A buffer of whole lines. -/
def joinLines (raws : List (List Char)) : List Char := raws.flatMap (· ++ ['\n'])

/-- **One block**, with what is left of the end of its empty line. -/
theorem unifyMarked_block (b : SseBlock) {text : List (Char × Bool)} (htext : text.map Prod.fst = b.render)
    (more : List (Char × Bool)) : ∃ raws, Seen b.lines raws ∧
      unifyMarked (text ++ more) = joinLines raws ++ seenEnd b.returns (text.getLast?.any (·.2)) ++
        unifyMarked more := by
  obtain ⟨lines, returns⟩ := b
  induction lines generalizing text with
  | nil => exact ⟨[], .nil, unifyMarked_line List.not_mem_nil htext more⟩
  | cons line lines ih =>
    rw [SseBlock.render, List.flatMap_cons, List.append_assoc] at htext
    obtain ⟨front, back, rfl, hfront, hback⟩ := List.map_eq_append_iff.mp htext
    obtain ⟨raws, hseen, hraws⟩ := ih hback
    have hne : back ≠ [] := by
      rintro rfl
      have hlength := congrArg List.length hback
      cases returns <;> simp [lineEnd] at hlength
    rw [List.append_assoc, unifyMarked_line line.plain.1 hfront, hraws, List.getLast?_append_of_ne_nil _ hne]
    unfold seenEnd
    split
    · refine ⟨(line.text ++ ['\r']) :: raws, .cons (.inr rfl) hseen, ?_⟩
      simp [joinLines]
    · refine ⟨line.text :: raws, .cons (.inl rfl) hseen, ?_⟩
      simp [joinLines]

/-! ## Blocks are cut off

At the first empty line that is seen. -/

/-- Only the first line of a buffer may be empty: of two empty lines the first ends a block. -/
structure Buffered (raws : List (List Char)) : Prop where
  plain : ∀ raw ∈ raws, '\n' ∉ raw
  full : ∀ raw ∈ raws.tail, raw ≠ []

theorem Buffered.append {raws more : List (List Char)} (h : Buffered raws)
    (hmore : ∀ raw ∈ more, raw ≠ [] ∧ '\n' ∉ raw) : Buffered (raws ++ more) where
  plain raw hraw := (List.mem_append.mp hraw).elim (h.plain raw) fun hmem => (hmore raw hmem).2
  full raw hraw := by
    cases raws with
    | nil => exact (hmore raw (List.mem_of_mem_tail hraw)).1
    | cons raw' raws =>
      exact (List.mem_append.mp hraw).elim (h.full raw) fun hmem => (hmore raw hmem).1

theorem joinLines_eq {raws : List (List Char)} (hne : raws ≠ []) (rest : List Char) :
    joinLines raws ++ rest = List.intercalate ['\n'] raws ++ '\n' :: rest := by
  induction raws with
  | nil => exact absurd rfl hne
  | cons raw raws ih =>
    rcases raws with - | ⟨raw', raws⟩
    · simp [joinLines]
    · rw [joinLines, List.flatMap_cons, List.append_assoc, List.append_assoc, List.intercalate_cons_cons,
        List.append_assoc, List.append_assoc]
      exact congrArg (raw ++ '\n' :: ·) (ih (List.cons_ne_nil _ _))

/-! ## What blocks say

The fields of the lines, with or without the carriage return. -/

/-- The event of a block, if it has data. -/
def Fields.streamEvent (fields : Fields) : Option StreamEvent :=
  if fields.data = [] then none
  else some { event := fields.event, data := List.intercalate ['\n'] fields.data, id := fields.id }

theorem parseSseBlock_intercalate {raws : List (List Char)} (hne : raws ≠ []) (h : Buffered raws) :
    parseSseBlock (List.intercalate ['\n'] raws) = (raws.foldl Fields.readLine {}).streamEvent := by
  rw [parseSseBlock, List.splitOn_intercalate]
  · rfl
  · exact h.plain
  · exact hne

variable {fields : Fields}

/-- A carriage return at the end of a line is not part of it. -/
theorem readLine_return {line : List Char} (h : '\r' ∉ line) :
    fields.readLine (line ++ ['\r']) = fields.readLine line := by
  have hlast : line.getLast? ≠ some '\r' := fun hlast => h (List.mem_of_getLast? hlast)
  unfold Fields.readLine
  rw [if_pos List.getLast?_concat, List.dropLast_concat, if_neg hlast]

theorem Seen.foldl {lines : List SseLine} {raws : List (List Char)} (h : Seen lines raws) (fields : Fields) :
    raws.foldl Fields.readLine fields = lines.foldl (fun fields line => fields.readLine line.text) fields := by
  induction h generalizing fields with
  | nil => rfl
  | @cons line raw lines raws hline _ ih =>
    rw [List.foldl_cons, List.foldl_cons, ih]
    rcases hline with rfl | rfl
    · rfl
    · rw [readLine_return line.plain.1]

theorem Seen.full {lines : List SseLine} {raws : List (List Char)} (h : Seen lines raws) :
    ∀ raw ∈ raws, raw ≠ [] ∧ '\n' ∉ raw := by
  induction h with
  | nil => exact fun raw hraw => by cases hraw
  | @cons line raw lines raws hline _ ih =>
    refine List.forall_mem_cons.mpr ⟨?_, ih⟩
    rcases hline with rfl | rfl
    · exact ⟨line.full, line.plain.2⟩
    · exact ⟨by simp, by simp [line.plain.2]⟩

/-- The events of blocks some of which run into the next. -/
def reading (fields : Fields) : List (SseBlock × Bool) → List StreamEvent
  | [] => []
  | (b, true) :: blocks => reading (b.fields fields) blocks
  | (b, false) :: blocks => (b.fields fields).streamEvent.toList ++ reading {} blocks

theorem broken_append {b : SseBlock} {front : List (Char × Bool)} (h : front.map Prod.fst = b.render)
    (back : List (Char × Bool)) : b.broken (front ++ back) = (b.returns && front.getLast?.any (·.2)) := by
  have hlength : b.render.length = front.length := by rw [← h, List.length_map]
  have hpos : 0 < b.render.length := by
    rw [SseBlock.render, List.length_append, lineEnd]
    split <;> exact Nat.succ_pos _
  rw [SseBlock.broken, hlength, List.getElem?_append_left (by omega), List.getLast?_eq_getElem?]

/-- **The events of a stream** of blocks, of which those run into the next that are not seen to end. -/
theorem drain_marked {raws : List (List Char)} (hraws : Buffered raws) {blocks : List SseBlock}
    {text : List (Char × Bool)} (htext : text.map Prod.fst = blocks.flatMap SseBlock.render) :
    (sseBlocks.drain (joinLines raws ++ unifyMarked text)).1.filterMap parseSseBlock =
      reading (raws.foldl Fields.readLine {}) (breaks blocks text) := by
  induction blocks generalizing raws text with
  | nil =>
    obtain rfl := List.map_eq_nil_iff.mp htext
    rw [Framing.drain_of_none]
    · rfl
    · rcases eq_or_ne raws [] with rfl | hne
      · rfl
      · rw [joinLines_eq hne]
        exact cutBlock_intercalate hne hraws.plain hraws.full []
  | cons b blocks ih =>
    rw [List.flatMap_cons] at htext
    obtain ⟨front, back, rfl, hfront, hback⟩ := List.map_eq_append_iff.mp htext
    obtain ⟨more, hseen, hunified⟩ := unifyMarked_block b hfront back
    have hbuffer := hraws.append hseen.full
    have hfields : (raws ++ more).foldl Fields.readLine {} = b.fields (raws.foldl Fields.readLine {}) := by
      rw [List.foldl_append, hseen.foldl]
      rfl
    have hlength : b.render.length = front.length := by rw [← hfront, List.length_map]
    have hjoin : joinLines raws ++ joinLines more = joinLines (raws ++ more) := List.flatMap_append.symm
    rw [breaks, broken_append hfront, hlength, List.drop_left, hunified, ← List.append_assoc,
      ← List.append_assoc, hjoin, seenEnd]
    split
    case isTrue hbroken =>
      -- The empty line is left with its carriage return, and says nothing.
      have hlast : Buffered (raws ++ more ++ [['\r']]) := hbuffer.append (by simp)
      have hline : joinLines (raws ++ more) ++ ['\r', '\n'] = joinLines (raws ++ more ++ [['\r']]) := by
        simp [joinLines]
      rw [hbroken, reading, ← hfields, hline, ih hlast hback, List.foldl_append]
      rfl
    case isFalse hwhole =>
      rw [Bool.not_eq_true] at hwhole
      rw [hwhole, reading, ← hfields]
      rcases eq_or_ne (raws ++ more) [] with hnil | hne
      · -- The block has no lines, and its end is the first line of the next buffer.
        have hempty : Buffered [[]] := ⟨by simp, by simp⟩
        rw [hnil]
        exact ih hempty hback
      · have hcut : sseBlocks.cut (joinLines (raws ++ more) ++ ['\n'] ++ unifyMarked back) =
            some (List.intercalate ['\n'] (raws ++ more), unifyMarked back) := by
          rw [List.append_assoc, joinLines_eq hne]
          exact cutBlock_lines hne hbuffer.plain hbuffer.full (unifyMarked back)
        have hempty : Buffered [] := ⟨by simp, by simp⟩
        have hnext : (sseBlocks.drain (unifyMarked back)).1.filterMap parseSseBlock =
            reading {} (breaks blocks back) := ih hempty hback
        rw [Framing.drain_of_some hcut, List.filterMap_cons, parseSseBlock_intercalate hne hbuffer, hnext]
        cases ((raws ++ more).foldl Fields.readLine {}).streamEvent <;> rfl

/-! ## Stretches

Blocks whose ends are not seen run into the next. -/

namespace SseBlock

/-- What the lines of a block say by themselves. -/
def alone (b : SseBlock) : Fields := b.fields {}

/-- What blocks say that run into each other. -/
def joined (stretch : List SseBlock) : Fields := stretch.foldl (fun fields b => b.fields fields) {}

/-- The event of a stretch. -/
def events (stretch : List SseBlock) : List StreamEvent := (joined stretch).streamEvent.toList

end SseBlock

theorem reading_eq (fields : Fields) (blocks : List (SseBlock × Bool)) : reading fields blocks =
    match (stretches blocks).1 with
    | [] => []
    | g :: gs => (g.foldl (fun fields b => b.fields fields) fields).streamEvent.toList ++
        gs.flatMap SseBlock.events := by
  induction blocks using stretches.induct generalizing fields with
  | case1 => rfl
  | case2 b blocks ih =>
    rw [reading, stretches, ih]
    dsimp only
    split <;> simp_all [SseBlock.events, SseBlock.joined]
  | case3 b blocks left h ih =>
    rw [reading, stretches, ih, h]
  | case4 b blocks g gs left h ih =>
    rw [reading, stretches, ih, h]
    rfl

theorem reading_stretches (blocks : List (SseBlock × Bool)) :
    reading {} blocks = (stretches blocks).1.flatMap SseBlock.events := by
  rw [reading_eq]
  split
  case h_1 h => rw [h]; rfl
  case h_2 g gs h => rw [h]; rfl

theorem data_readLine (line : List Char) (fields : Fields) :
    (fields.readLine line).data = fields.data ++ (({} : Fields).readLine line).data := by
  have hset : ∀ field value : List Char,
      (fields.set field value).data = fields.data ++ (({} : Fields).set field value).data := by
    intro field value
    unfold Fields.set
    split; · simp
    split; · simp
    split
    · split
      · split <;> simp
      · simp
      · simp
    · simp
  unfold Fields.readLine
  dsimp only
  split
  · split; · simp
    split; · simp
    exact hset _ _
  · split; · simp
    split; · simp
    exact hset _ _

/-- The data of a block come behind those that are there. -/
theorem data_fields (b : SseBlock) (fields : Fields) :
    (b.fields fields).data = fields.data ++ b.alone.data := by
  have hlines : ∀ (lines : List SseLine) (fields : Fields),
      (lines.foldl (fun fields line => Fields.readLine fields line.text) fields).data = fields.data ++
        (lines.foldl (fun fields line => Fields.readLine fields line.text) {}).data := by
    intro lines
    induction lines with
    | nil => exact fun fields => (List.append_nil _).symm
    | cons line lines ih =>
      intro fields
      rw [List.foldl_cons, List.foldl_cons, ih, ih (({} : Fields).readLine line.text), data_readLine,
        List.append_assoc]
  exact hlines b.lines fields

theorem data_joined (stretch : List SseBlock) :
    (SseBlock.joined stretch).data = stretch.flatMap (·.alone.data) := by
  have hblocks : ∀ (stretch : List SseBlock) (fields : Fields),
      (stretch.foldl (fun fields b => b.fields fields) fields).data =
        fields.data ++ stretch.flatMap (·.alone.data) := by
    intro stretch
    induction stretch with
    | nil => exact fun fields => (List.append_nil _).symm
    | cons b stretch ih =>
      intro fields
      rw [List.foldl_cons, ih, data_fields, List.flatMap_cons, List.append_assoc]
  exact hblocks stretch {}

/-- The event of a block by itself. -/
theorem events_singleton (b : SseBlock) : SseBlock.events [b] = b.alone.streamEvent.toList := rfl

theorem streamEvent_of_nil (h : fields.data = []) : fields.streamEvent = none := if_pos h

theorem streamEvent_of_ne_nil (h : fields.data ≠ []) : fields.streamEvent =
    some { event := fields.event, data := List.intercalate ['\n'] fields.data, id := fields.id } := if_neg h

/-- A block with data gives an event. -/
theorem exists_event {b : SseBlock} (h : b.alone.data ≠ []) :
    ∃ e, b.alone.streamEvent = some e ∧ e ∈ SseBlock.events [b] := by
  have hevent := streamEvent_of_ne_nil h
  refine ⟨_, hevent, ?_⟩
  rw [events_singleton, hevent]
  exact List.mem_singleton_self _

/-- Blocks without data give no events. -/
theorem events_of_nil {blocks : List SseBlock} (h : blocks.flatMap (·.alone.data) = []) :
    blocks.flatMap (fun b => SseBlock.events [b]) = [] := by
  rw [List.flatMap_eq_nil_iff] at h ⊢
  intro b hb
  rw [events_singleton, streamEvent_of_nil (h b hb), Option.toList_none]

/-- Two readings with one event are the same, if the data of one are among those of the other. -/
theorem eq_of_streamEvent {fields' : Fields} {pre post : List (List Char)}
    (hdata : fields.data = pre ++ fields'.data ++ post) (hne : fields'.data ≠ [])
    (h : fields.streamEvent = fields'.streamEvent) : fields = fields' := by
  have hne' : fields.data ≠ [] := by
    rw [hdata]
    exact List.append_ne_nil_of_left_ne_nil (List.append_ne_nil_of_right_ne_nil _ hne) _
  rw [streamEvent_of_ne_nil hne', streamEvent_of_ne_nil hne] at h
  obtain ⟨hevent, hjoin, hid⟩ := StreamEvent.mk.inj (Option.some.inj h)
  have hlines : joinLines fields.data = joinLines fields'.data := by
    have hleft := joinLines_eq hne' []
    have hright := joinLines_eq hne []
    rw [List.append_nil] at hleft hright
    rw [hleft, hright, hjoin]
  -- Each line takes up at least the line feed behind it.
  have hempty : ∀ raws : List (List Char), (joinLines raws).length = 0 → raws = [] := by
    intro raws hraws
    cases raws with
    | nil => rfl
    | cons raw raws => simp [joinLines] at hraws
  have hlength := congrArg List.length hlines
  rw [hdata, joinLines, List.flatMap_append, List.flatMap_append, List.length_append,
    List.length_append] at hlength
  change (joinLines pre).length + (joinLines fields'.data).length + (joinLines post).length =
    (joinLines fields'.data).length at hlength
  rw [hempty pre (by omega), hempty post (by omega), List.nil_append, List.append_nil] at hdata
  obtain ⟨event, data, id⟩ := fields
  obtain ⟨event', data', id'⟩ := fields'
  cases hevent
  cases hdata
  cases hid
  rfl

/-- **A stretch reads as its blocks** exactly if it says what the block says that has data. -/
theorem events_eq_iff (stretch : List SseBlock) :
    SseBlock.events stretch = stretch.flatMap (fun b => SseBlock.events [b]) ↔
      ∀ b ∈ stretch, b.alone.data ≠ [] → SseBlock.joined stretch = b.alone := by
  constructor
  · intro h b hb hdata
    obtain ⟨e, he, hone⟩ := exists_event hdata
    have hmem : e ∈ SseBlock.events stretch := by
      rw [h]
      exact List.mem_flatMap.mpr ⟨b, hb, hone⟩
    have hjoined : (SseBlock.joined stretch).streamEvent = some e := Option.mem_toList.mp hmem
    obtain ⟨pre, post, rfl⟩ := List.append_of_mem hb
    have hparts : (SseBlock.joined (pre ++ b :: post)).data =
        pre.flatMap (·.alone.data) ++ b.alone.data ++ post.flatMap (·.alone.data) := by
      rw [data_joined, List.flatMap_append, List.flatMap_cons, List.append_assoc]
    exact eq_of_streamEvent hparts hdata (hjoined.trans he.symm)
  · intro h
    rcases Classical.em (∃ b ∈ stretch, b.alone.data ≠ []) with ⟨b, hb, hdata⟩ | hnone
    · have hjoined := h b hb hdata
      obtain ⟨pre, post, rfl⟩ := List.append_of_mem hb
      -- The data of the block are all that there are.
      have hall := congrArg (·.data.length) hjoined
      simp only [data_joined, List.flatMap_append, List.flatMap_cons, List.length_append] at hall
      have hpre : pre.flatMap (·.alone.data) = [] := List.length_eq_zero_iff.mp (by omega)
      have hpost : post.flatMap (·.alone.data) = [] := List.length_eq_zero_iff.mp (by omega)
      rw [List.flatMap_append, List.flatMap_cons, events_of_nil hpre, events_of_nil hpost, List.nil_append,
        List.append_nil, SseBlock.events, hjoined, events_singleton]
    · have hnil : stretch.flatMap (·.alone.data) = [] :=
        List.flatMap_eq_nil_iff.mpr fun b hb => not_not.mp fun hdata => hnone ⟨b, hb, hdata⟩
      rw [events_of_nil hnil, SseBlock.events, streamEvent_of_nil (by rw [data_joined, hnil]),
        Option.toList_none]

/-- A stretch gives no more events than its blocks. -/
theorem length_events_le (stretch : List SseBlock) :
    (SseBlock.events stretch).length ≤ (stretch.flatMap fun b => SseBlock.events [b]).length := by
  rcases eq_or_ne (stretch.flatMap (·.alone.data)) [] with hnil | hne
  · rw [SseBlock.events, streamEvent_of_nil (by rw [data_joined, hnil])]
    exact Nat.zero_le _
  · obtain ⟨b, hb, hdata⟩ : ∃ b ∈ stretch, b.alone.data ≠ [] := by
      by_contra hnone
      push Not at hnone
      exact hne (List.flatMap_eq_nil_iff.mpr hnone)
    have hone : (SseBlock.events stretch).length ≤ 1 := by
      rw [SseBlock.events]
      rcases (SseBlock.joined stretch).streamEvent with - | e
      · exact Nat.zero_le _
      · exact Nat.le_refl _
    obtain ⟨e, -, he⟩ := exists_event hdata
    exact hone.trans (List.length_pos_of_mem (List.mem_flatMap.mpr ⟨b, hb, he⟩))

/-! ## The law

It makes no difference exactly if such blocks say nothing. -/

/-- **The chunks do no harm** to blocks of which those run into the next whose empty line is cut in two. -/
structure Harmless (blocks : List (SseBlock × Bool)) : Prop where
  /-- Of blocks that run together one has data at most, and they name its event and its id. -/
  together : ∀ stretch ∈ (stretches blocks).1, ∀ b ∈ stretch, b.alone.data ≠ [] →
    SseBlock.joined stretch = b.alone
  /-- Nothing is lost behind the last end that is seen. -/
  left : ∀ b ∈ (stretches blocks).2, b.alone.data = []

theorem harmless_iff (blocks : List (SseBlock × Bool)) : Harmless blocks ↔
    reading {} blocks = (blocks.map Prod.fst).flatMap fun b => SseBlock.events [b] := by
  have hleft : (∀ b ∈ (stretches blocks).2, b.alone.data = []) ↔
      (stretches blocks).2.flatMap (fun b => SseBlock.events [b]) = [] := by
    rw [List.flatMap_eq_nil_iff]
    refine forall₂_congr fun b hb => ?_
    constructor
    · intro hnil
      rw [events_singleton, streamEvent_of_nil hnil, Option.toList_none]
    · intro hnil
      by_contra hdata
      rw [events_singleton, streamEvent_of_ne_nil hdata] at hnil
      cases hnil
  rw [reading_stretches, ← flatten_stretches, List.flatMap_append, List.flatten_eq_flatMap,
    List.flatMap_assoc]
  refine Iff.trans ?_ (flatMap_eq_iff length_events_le _ _).symm
  rw [← hleft]
  constructor
  · rintro ⟨htogether, hleft⟩
    exact ⟨fun g hg => (events_eq_iff g).mpr (htogether g hg), hleft⟩
  · rintro ⟨htogether, hleft⟩
    exact ⟨fun g hg => (events_eq_iff g).mp (htogether g hg), hleft⟩

variable {σ : Type} {decoder : TextDecoder σ}

/-- The events of a stream of blocks in chunks. -/
theorem streamRoom_blocks {blocks : List SseBlock} {chunks : List (List UInt8)}
    (hblocks : (decoder.texts decoder.start chunks).flatten = blocks.flatMap SseBlock.render) :
    streamRoom decoder chunks =
      reading {} (breaks blocks (marked (decoder.texts decoder.start chunks))) := by
  have hempty : Buffered [] := ⟨by simp, by simp⟩
  rw [streamRoom, readChunks_eq]
  refine Eq.trans ?_ (drain_marked hempty ((map_fst_marked _).trans hblocks))
  refine congrArg (List.filterMap parseSseBlock) ?_
  refine (congrArg Prod.fst (Framing.feed_flatten _)).trans ?_
  rw [flatten_map_unify]
  rfl

/-- A single piece cuts no line end in two. -/
theorem breaks_whole {text : List (Char × Bool)} (htext : ∀ e ∈ text.tail, e.2 = false)
    (blocks : List SseBlock) : breaks blocks text = blocks.map fun b => (b, false) := by
  induction blocks generalizing text with
  | nil => rfl
  | cons b blocks ih =>
    have hlater : ∀ n : Nat, ∀ e ∈ text[n + 1]?, e.2 = false := by
      intro n e he
      rw [← List.getElem?_tail] at he
      exact htext e (List.mem_of_getElem? he)
    have hwhole : b.broken text = false := by
      rcases b with ⟨lines, - | -⟩
      · rfl
      · obtain ⟨n, hn⟩ : ∃ n, (SseBlock.render ⟨lines, true⟩).length - 1 = n + 1 :=
          ⟨(lines.flatMap SseLine.render).length, by simp [SseBlock.render, lineEnd]⟩
        rw [SseBlock.broken, hn]
        rcases he : text[n + 1]? with - | e
        · rfl
        · exact hlater n e he
    rw [breaks, hwhole, List.map_cons, ih]
    intro e he
    rw [List.tail_drop, ← List.drop_tail] at he
    exact htext e (List.mem_of_mem_drop he)

/-- The events of a stream of blocks in one chunk. -/
theorem streamRoom_whole {blocks : List SseBlock} {bytes : List UInt8}
    (hblocks : (decoder.texts decoder.start [bytes]).flatten = blocks.flatMap SseBlock.render) :
    streamRoom decoder [bytes] = blocks.flatMap fun b => SseBlock.events [b] := by
  have hone : ∀ text : List Char, ∀ e ∈ (marked [text]).tail, e.2 = false := by
    intro text e he
    cases text with
    | nil => cases he
    | cons c text =>
      simp only [marked, List.append_nil, List.tail_cons] at he
      obtain ⟨d, -, rfl⟩ := List.mem_map.mp he
      rfl
  rw [streamRoom_blocks hblocks, TextDecoder.texts, TextDecoder.texts, breaks_whole (hone _),
    reading_stretches, stretches_of_ended, List.flatMap_map]

/-- **The chunks do not matter** exactly where they do no harm. -/
theorem streamRoom_rechunked (hdecoder : decoder.Standard) {text : List Char} {blocks : List SseBlock}
    (htext : withoutMark text = blocks.flatMap SseBlock.render) {chunks : List (List UInt8)}
    (hchunks : chunks.flatten = utf8 text) :
    streamRoom decoder chunks = streamRoom decoder [utf8 text] ↔
      Harmless (breaks blocks (marked (decoder.texts decoder.start chunks))) := by
  rw [streamRoom_blocks ((hdecoder text chunks hchunks).trans htext),
    streamRoom_whole ((hdecoder text [utf8 text] (List.append_nil _)).trans htext), harmless_iff,
    map_fst_breaks]

/-- Two states, the first with CR LF. -/
def twoStates : List SseBlock :=
  [⟨[⟨"event: room.state".toList, true, by decide, by decide⟩,
      ⟨"data: 1".toList, true, by decide, by decide⟩], true⟩,
    ⟨[⟨"event: room.state".toList, false, by decide, by decide⟩,
      ⟨"data: 2".toList, false, by decide, by decide⟩], false⟩]

/-- They are cut within the end of the empty line between them. -/
def cutTexts : List (List Char) :=
  ["event: room.state\r\ndata: 1\r\n\r".toList, "\nevent: room.state\ndata: 2\n\n".toList]

theorem streamRoom_rechunked_twoStates :
    streamRoom .browser (cutTexts.map utf8) = streamRoom .browser [utf8 cutTexts.flatten] ↔
      Harmless (breaks twoStates (marked (TextDecoder.browser.texts (true, []) (cutTexts.map utf8)))) :=
  streamRoom_rechunked TextDecoder.standard_browser (by decide) (utf8_flatten cutTexts)

/-- The two states arrive as one, with the data of both. -/
theorem not_streamRoom_rechunked :
    streamRoom .browser (cutTexts.map utf8) = [⟨"room.state".toList, "1\n2".toList, none⟩] ∧
      streamRoom .browser [utf8 cutTexts.flatten] =
        [⟨"room.state".toList, "1".toList, none⟩, ⟨"room.state".toList, "2".toList, none⟩] := by
  have htexts : TextDecoder.browser.texts TextDecoder.browser.start (cutTexts.map utf8) = cutTexts := by
    change TextDecoder.browser.texts (true, []) (cutTexts.map utf8) = cutTexts
    simp [cutTexts, TextDecoder.texts, TextDecoder.decode_browser, withoutMark]
  have hwhole := TextDecoder.standard_browser cutTexts.flatten [utf8 cutTexts.flatten] (List.append_nil _)
  constructor
  · have hblocks : cutTexts.flatten = twoStates.flatMap SseBlock.render := by decide
    rw [streamRoom_blocks ((congrArg List.flatten htexts).trans hblocks), htexts]
    decide
  · rw [streamRoom_whole (hwhole.trans (by decide : _ = twoStates.flatMap SseBlock.render))]
    decide

end RealtimeGame.Web
