import Mathlib.Data.List.Basic

/-!
# Library/Framing — cutting a stream into frames, whatever pieces it arrives in

A `Framing` cuts one frame off the front of what has arrived.  What is cut off stays the same when more
arrives; so the frames of a stream are those of the whole, however it is split (`feed_flatten`).
-/

namespace Library

universe u v

variable {α : Type u} {β : Type v}

/-- How one frame is cut off the front. -/
structure Framing (α : Type u) (β : Type v) where
  cut : List α → Option (β × List α)
  /-- A frame takes up some of the stream. -/
  length_lt : ∀ {text frame rest}, cut text = some (frame, rest) → rest.length < text.length
  /-- What follows a frame does not change it. -/
  cut_append : ∀ {text frame rest} (more), cut text = some (frame, rest) →
    cut (text ++ more) = some (frame, rest ++ more)

namespace Framing

variable (f : Framing α β)

/-- The frames of what has arrived, and what is left after them. -/
def drain (text : List α) : List β × List α :=
  match _ : f.cut text with
  | none => ([], text)
  | some (frame, rest) => (frame :: (drain rest).1, (drain rest).2)
termination_by text.length
decreasing_by all_goals exact f.length_lt ‹_›

/-- The frames that each further piece completes, and what is left at the end. -/
def feed (left : List α) : List (List α) → List (List β) × List α
  | [] => ([], left)
  | piece :: pieces =>
    let drained := f.drain (left ++ piece)
    let fed := feed drained.2 pieces
    (drained.1 :: fed.1, fed.2)

variable {f} {text rest : List α} {frame : β}

theorem drain_of_none (h : f.cut text = none) : f.drain text = ([], text) := by
  rw [drain]
  split
  · rfl
  case h_2 hcut => cases h.symm.trans hcut

/-- A frame that is complete is taken off, and then the rest is looked at. -/
theorem drain_of_some (h : f.cut text = some (frame, rest)) :
    f.drain text = (frame :: (f.drain rest).1, (f.drain rest).2) := by
  rw [drain]
  split
  case h_1 hcut => cases h.symm.trans hcut
  case h_2 hcut =>
    cases h.symm.trans hcut
    rfl

theorem drain_nil : f.drain [] = ([], []) := by
  refine drain_of_none ?_
  cases hcut : f.cut [] with
  | none => rfl
  | some cut => exact absurd (f.length_lt hcut) (Nat.not_lt_zero _)

/-- **Draining early changes nothing**: the frames that are there already come first. -/
theorem drain_append (text more : List α) :
    f.drain (text ++ more) = ((f.drain text).1 ++ (f.drain ((f.drain text).2 ++ more)).1,
      (f.drain ((f.drain text).2 ++ more)).2) := by
  induction text using drain.induct f with
  | case1 text hcut => rw [drain_of_none hcut, List.nil_append]
  | case2 text frame rest hcut ih =>
    rw [drain_of_some (f.cut_append more hcut), drain_of_some hcut, ih, List.cons_append]

/-- **Pieces can be drained one by one**, behind a text that was drained before. -/
theorem drain_append_feed (text : List α) (pieces : List (List α)) :
    f.drain (text ++ pieces.flatten) =
      ((f.drain text).1 ++ (f.feed (f.drain text).2 pieces).1.flatten,
        (f.feed (f.drain text).2 pieces).2) := by
  induction pieces generalizing text with
  | nil => rw [List.flatten_nil, List.append_nil, feed, List.flatten_nil, List.append_nil]
  | cons piece pieces ih =>
    rw [List.flatten_cons, ← List.append_assoc, ih (text ++ piece), drain_append text piece]
    simp only [feed, List.flatten_cons, List.append_assoc]

/-- **The pieces do not matter**: the frames are those of the whole stream. -/
theorem feed_flatten (pieces : List (List α)) :
    ((f.feed [] pieces).1.flatten, (f.feed [] pieces).2) = f.drain pieces.flatten := by
  have h := drain_append_feed (f := f) [] pieces
  rw [drain_nil, List.nil_append, List.nil_append] at h
  exact h.symm

/-- A stream of frames, each of which is cut off as it was put in. -/
theorem drain_flatMap {encode : β → List α} {frames : List β}
    (h : ∀ frame ∈ frames, ∀ more, f.cut (encode frame ++ more) = some (frame, more)) :
    f.drain (frames.flatMap encode) = (frames, []) := by
  induction frames with
  | nil => exact drain_nil
  | cons frame frames ih =>
    rw [List.flatMap_cons, drain_of_some (h frame List.mem_cons_self _),
      ih fun frame hmem => h frame (List.mem_cons_of_mem _ hmem)]

end Framing

end Library
