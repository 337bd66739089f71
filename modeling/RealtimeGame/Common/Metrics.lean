import RealtimeGame.Common.Logging
import RealtimeGame.Library.Buckets
import RealtimeGame.Library.Significant
import RealtimeGame.Library.Table
import RealtimeGame.Library.Upsert

/-!
# Common/Metrics — the registry of a process and the text it exposes

Counters, gauges and histograms are registered when they are first named.  A `double` is a rational number
here, so sums are exact; what is rounded is the text of a number, and that on purpose.  `std::sort` may put
what it takes for equal in any order, so the exposed text is a relation (`MetricsRegistry.Exposes`).
-/

open Library

namespace RealtimeGame.Common

structure MetricLabel where
  key : Bytes
  value : Bytes
  deriving DecidableEq, Repr

/-- The bounds of a histogram that is given none. -/
def defaultBounds : List ℚ :=
  [1 / 1000, 5 / 1000, 1 / 100, 25 / 1000, 5 / 100, 1 / 10, 25 / 100, 5 / 10, 1, 2, 5]

/-! ## Texts

How names, labels and numbers are written. -/

def openingBrace : Bytes := bytesOf "\x7b"
def closingBrace : Bytes := bytesOf "\x7d"

/-- **`LabelKey`** — what a counter is found by. -/
def labelKey (name : Bytes) (labels : List MetricLabel) : Bytes :=
  if labels = [] then name
  else name ++ openingBrace ++
    List.intercalate (bytesOf ",") (labels.map fun label => label.key ++ bytesOf "=" ++ label.value) ++
    closingBrace

/-- One byte of `EscapeLabelValue`. -/
def escapeLabelByte (ch : UInt8) : Bytes :=
  if ch = quote then [backslash, quote]
  else if ch = backslash then [backslash, backslash]
  else if ch = newline then [backslash, 'n'.toUInt8]
  else [ch]

def escapeLabelValue (value : Bytes) : Bytes := value.flatMap escapeLabelByte

/-- **`RenderLabels`** — no braces without labels. -/
def renderLabels (labels : List MetricLabel) : Bytes :=
  if labels = [] then []
  else openingBrace ++
    List.intercalate (bytesOf ",") (labels.map fun label =>
      label.key ++ bytesOf "=\"" ++ escapeLabelValue label.value ++ bytesOf "\"") ++ closingBrace

/-- The precision of `%.6g`. -/
def kNumberPrecision : Nat := 6

/-- `RenderNumber`; what it writes of a `double` fits its buffer. -/
def renderNumber (value : ℚ) : Bytes := Significant.general kNumberPrecision value

/-- A line for a sample. -/
def sampleLine (name : Bytes) (labels : List MetricLabel) (value : Bytes) : Bytes :=
  name ++ renderLabels labels ++ bytesOf " " ++ value ++ bytesOf "\n"

/-- The two lines in front of the samples of a name. -/
def helpAndType (name help : Bytes) (type : String) : Bytes :=
  bytesOf "# HELP " ++ name ++ bytesOf " " ++ help ++ bytesOf "\n# TYPE " ++ name ++ bytesOf " " ++
    bytesOf type ++ bytesOf "\n"

/-! ## The registry

Each kind of sample has its own list, in the order of the first calls. -/

/-- A series is told by its name and its labels. -/
structure Series where
  name : Bytes
  labels : List MetricLabel
  deriving DecidableEq, Repr

structure CounterCell where
  name : Bytes
  help : Bytes
  labels : List MetricLabel
  value : UInt64 := 0

/-- A gauge asks for its value when the text is made; the callback may be empty. -/
structure GaugeEntry (World : Type) where
  name : Bytes
  help : Bytes
  labels : List MetricLabel
  read : Option (World → UInt64)

/-- **`Histogram`** — the counts are of the single buckets, and there is one for each bound. -/
structure Histogram where
  name : Bytes
  help : Bytes
  labels : List MetricLabel
  bounds : List ℚ
  bucketCounts : List Nat
  count : Nat := 0
  sum : ℚ := 0
  aligned : bucketCounts.length = bounds.length

def Histogram.series (h : Histogram) : Series := ⟨h.name, h.labels⟩

/-- The arguments of `Observe`; the shorter forms of the call leave out the bounds or the labels. -/
structure Observation where
  name : Bytes
  help : Bytes
  value : ℚ
  bounds : List ℚ := []
  labels : List MetricLabel := []

def Observation.series (o : Observation) : Series := ⟨o.name, o.labels⟩

/-- A histogram when it is first named: its bounds are those of the call. -/
def Observation.fresh (o : Observation) : Histogram :=
  let bounds := if o.bounds = [] then defaultBounds else o.bounds
  { name := o.name
    help := o.help
    labels := o.labels
    bounds
    bucketCounts := List.replicate bounds.length 0
    aligned := List.length_replicate }

/-- A value below `0` is `0`. -/
def observed (value : ℚ) : ℚ := if value < 0 then 0 else value

/-- One value more; `std::lower_bound` finds the one bucket that it is counted in. -/
def Histogram.add (h : Histogram) (value : ℚ) : Histogram :=
  { h with
    bucketCounts :=
      if place h.bounds (observed value) < h.bounds.length then tally h.bounds h.bucketCounts (observed value)
      else h.bucketCounts
    count := h.count + 1
    sum := h.sum + observed value
    aligned := by
      split
      · exact (List.length_modify ..).trans h.aligned
      · exact h.aligned }

def Observation.addTo (o : Observation) (h : Histogram) : Histogram := h.add o.value

structure MetricsRegistry (World : Type) where
  counters : List CounterCell := []
  counterIndex : Table Bytes Nat := ∅
  gauges : List (GaugeEntry World) := []
  histograms : List Histogram := []

namespace MetricsRegistry

variable {World : Type} (r : MetricsRegistry World)

/-- **`Counter`** — the handle of a counter, by its place, and the registry behind the call. -/
def counter (name help : Bytes) (labels : List MetricLabel) : Nat × MetricsRegistry World :=
  match r.counterIndex.lookup (labelKey name labels) with
  | some index => (index, r)
  | none =>
    (r.counters.length,
      { r with
        counters := r.counters ++ [⟨name, help, labels, 0⟩]
        counterIndex := r.counterIndex.insert (labelKey name labels) r.counters.length })

/-- `CounterHandle::Add`; a handle that was never given out is empty. -/
def add (handle : Option Nat) (delta : UInt64) : MetricsRegistry World :=
  match handle with
  | some index =>
    { r with
      counters := r.counters.modify index fun cell => { cell with value := cell.value + delta } }
  | none => r

/-- **`Gauge`** — the first registration of a name with its labels is kept. -/
def gauge (name help : Bytes) (read : Option (World → UInt64)) (labels : List MetricLabel) :
    MetricsRegistry World :=
  if r.gauges.any fun entry => entry.name = name && entry.labels = labels then r
  else { r with gauges := r.gauges ++ [⟨name, help, labels, read⟩] }

/-- **`Observe`** — the histogram with the name and the labels, or a new one at the end, gets a value. -/
def observe (o : Observation) : MetricsRegistry World :=
  { r with histograms := upsert Histogram.series o.series o.fresh o.addTo r.histograms }

end MetricsRegistry

/-! ## The text

Counters come first, then gauges, then histograms, each sorted by name; a name is announced once. -/

/-- What is written, and the name whose help and type were written last. -/
structure Exposed where
  out : Bytes := []
  lastName : Bytes := []

namespace Exposed

variable (s : Exposed)

def announce (name help : Bytes) (type : String) : Exposed :=
  if name ≠ s.lastName then ⟨s.out ++ helpAndType name help type, name⟩ else s

def write (text : Bytes) : Exposed := { s with out := s.out ++ text }

def counter (sample : CounterCell) : Exposed :=
  (s.announce sample.name sample.help "counter").write
    (sampleLine sample.name sample.labels (Decimal.numeral sample.value.toNat))

def gauge {World : Type} (world : World) (sample : GaugeEntry World) : Exposed :=
  let value := match sample.read with
    | some read => read world
    | none => 0
  (s.announce sample.name sample.help "gauge").write
    (sampleLine sample.name sample.labels (Decimal.numeral value.toNat))

end Exposed

/-- The labels of a bucket. -/
def withLe (labels : List MetricLabel) (le : Bytes) : List MetricLabel := labels ++ [⟨bytesOf "le", le⟩]

/-- The lines of the buckets; the counts that are written are summed up on the way. -/
def bucketLines (name : Bytes) (labels : List MetricLabel) : Nat → List (ℚ × Nat) → Bytes
  | _, [] => []
  | cumulative, (bound, n) :: buckets =>
    sampleLine (name ++ bytesOf "_bucket") (withLe labels (renderNumber bound))
        (Decimal.numeral (cumulative + n)) ++
      bucketLines name labels (cumulative + n) buckets

/-- The samples of a histogram. -/
def Histogram.lines (h : Histogram) : Bytes :=
  bucketLines h.name h.labels 0 (h.bounds.zip h.bucketCounts) ++
    sampleLine (h.name ++ bytesOf "_bucket") (withLe h.labels (bytesOf "+Inf")) (Decimal.numeral h.count) ++
    sampleLine (h.name ++ bytesOf "_sum") h.labels (renderNumber h.sum) ++
    sampleLine (h.name ++ bytesOf "_count") h.labels (Decimal.numeral h.count)

def Exposed.histogram (s : Exposed) (sample : Histogram) : Exposed :=
  (s.announce sample.name sample.help "histogram").write sample.lines

/-- The order of counters and gauges: by name, and by labels under one name. -/
def seriesLess (name : Bytes) (labels : List MetricLabel) (name' : Bytes) (labels' : List MetricLabel) :
    Prop :=
  if name ≠ name' then name < name' else renderLabels labels < renderLabels labels'

/-- What `std::sort` may make of a list. -/
structure Arranged {α : Type} (less : α → α → Prop) (before after : List α) : Prop where
  perm : after.Perm before
  sorted : after.Pairwise fun a b => ¬less b a

/-- The text of samples in an order. -/
def exposure {World : Type} (world : World) (counters : List CounterCell) (gauges : List (GaugeEntry World))
    (histograms : List Histogram) : Bytes :=
  (histograms.foldl Exposed.histogram
    (gauges.foldl (fun s sample => s.gauge world sample) (counters.foldl Exposed.counter {}))).out

/-- **`TextExposure`** — a text that the registry may expose. -/
def MetricsRegistry.Exposes {World : Type} (r : MetricsRegistry World) (world : World) (text : Bytes) :
    Prop :=
  ∃ counters gauges histograms,
    Arranged (fun a b => seriesLess a.name a.labels b.name b.labels) r.counters counters ∧
      Arranged (fun a b => seriesLess a.name a.labels b.name b.labels) r.gauges gauges ∧
      Arranged (fun a b => a.name < b.name) r.histograms histograms ∧
      text = exposure world counters gauges histograms

/-! ## There is always a text

`std::sort` needs an order.  What is less here is one up to ties, so that some arrangement is always found. -/

/-- A list has an arrangement, if what is not less is an order but for ties. -/
theorem exists_arranged {α : Type} {less : α → α → Prop} (htotal : ∀ a b, ¬less a b ∨ ¬less b a)
    (htrans : ∀ a b c, ¬less b a → ¬less c b → ¬less c a) (before : List α) :
    ∃ after, Arranged less before after := by
  classical
  have hsorted : (before.mergeSort fun a b => !decide (less b a)).Pairwise fun a b => !decide (less b a) :=
    List.pairwise_mergeSort
      (fun a b c hab hbc => by simpa using htrans a b c (by simpa using hab) (by simpa using hbc))
      (fun a b => by simpa [or_comm] using htotal a b) before
  exact ⟨_, List.mergeSort_perm _ _, hsorted.imp fun hab => by simpa using hab⟩

/-- Not to be less, in terms of the two texts. -/
theorem not_seriesLess {name name' : Bytes} {labels labels' : List MetricLabel} :
    ¬seriesLess name labels name' labels' ↔
      name' < name ∨ name' = name ∧ renderLabels labels' ≤ renderLabels labels := by
  rw [seriesLess]
  by_cases hname : name = name'
  · subst hname
    rw [if_neg (not_not.mpr rfl), List.not_lt]
    exact ⟨fun h => Or.inr ⟨rfl, h⟩, fun h => h.elim (fun hlt => absurd hlt (List.lt_irrefl name)) And.right⟩
  · rw [if_pos hname, List.not_lt, List.le_iff_lt_or_eq]
    exact or_congr_right ⟨fun heq => absurd heq.symm hname, fun h => h.1⟩

/-- Of two series one is not less than the other, -/
theorem seriesLess_total (a b : Series) :
    ¬seriesLess a.name a.labels b.name b.labels ∨ ¬seriesLess b.name b.labels a.name a.labels := by
  rw [not_seriesLess, not_seriesLess]
  by_cases hlt : a.name < b.name
  · exact Or.inr (Or.inl hlt)
  rcases List.le_iff_lt_or_eq.mp (List.not_lt.mp hlt) with h | h
  · exact Or.inl (Or.inl h)
  · rcases List.le_total (renderLabels a.labels) (renderLabels b.labels) with hle | hle
    · exact Or.inr (Or.inr ⟨h.symm, hle⟩)
    · exact Or.inl (Or.inr ⟨h, hle⟩)

/-- …and that is passed on, ties included. -/
theorem seriesLess_trans (a b c : Series) (hab : ¬seriesLess b.name b.labels a.name a.labels)
    (hbc : ¬seriesLess c.name c.labels b.name b.labels) : ¬seriesLess c.name c.labels a.name a.labels := by
  rw [not_seriesLess] at *
  rcases hab with hab | ⟨hab, hle⟩
  · rcases hbc with hbc | ⟨hbc, -⟩
    · exact Or.inl (List.lt_trans hab hbc)
    · exact Or.inl (hbc ▸ hab)
  · rcases hbc with hbc | ⟨hbc, hle'⟩
    · exact Or.inl (hab ▸ hbc)
    · exact Or.inr ⟨hab.trans hbc, List.le_trans hle hle'⟩

/-- **A registry exposes a text**, whatever is in it. -/
theorem MetricsRegistry.exists_exposes {World : Type} (r : MetricsRegistry World) (world : World) :
    ∃ text, r.Exposes world text := by
  have hseries : ∀ {α : Type} (series : α → Series) (before : List α), ∃ after,
      Arranged (fun a b => seriesLess (series a).name (series a).labels (series b).name (series b).labels)
        before after := fun series =>
    exists_arranged (fun a b => seriesLess_total (series a) (series b))
      fun a b c => seriesLess_trans (series a) (series b) (series c)
  obtain ⟨counters, hcounters⟩ := hseries (fun cell : CounterCell => ⟨cell.name, cell.labels⟩) r.counters
  obtain ⟨gauges, hgauges⟩ := hseries (fun entry : GaugeEntry World => ⟨entry.name, entry.labels⟩) r.gauges
  obtain ⟨histograms, hhistograms⟩ : ∃ after,
      Arranged (fun a b : Histogram => a.name < b.name) r.histograms after :=
    exists_arranged (fun a b => List.le_total b.name a.name) (fun _ _ _ => List.le_trans) r.histograms
  exact ⟨_, counters, gauges, histograms, hcounters, hgauges, hhistograms, rfl⟩

end RealtimeGame.Common
