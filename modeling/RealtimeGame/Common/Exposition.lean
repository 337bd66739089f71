import RealtimeGame.Common.Metrics

/-!
# Common/Exposition — what the text shows of the histograms

A registry goes through calls of all kinds.  Behind the counters and the gauges stands one block for each
series that was observed, and it shows the values of that series and no others (`exposes_series`).
-/

open Library

namespace RealtimeGame.Common

variable {World : Type}

/-- A call of the registry. -/
inductive MetricCall (World : Type)
  | counter (name help : Bytes) (labels : List MetricLabel)
  | add (handle : Option Nat) (delta : UInt64)
  | gauge (name help : Bytes) (read : Option (World → UInt64)) (labels : List MetricLabel)
  | observe (o : Observation)

def MetricsRegistry.call (r : MetricsRegistry World) : MetricCall World → MetricsRegistry World
  | .counter name help labels => (r.counter name help labels).2
  | .add handle delta => r.add handle delta
  | .gauge name help read labels => r.gauge name help read labels
  | .observe o => r.observe o

/-- The registry behind some calls. -/
def registryOf (calls : List (MetricCall World)) : MetricsRegistry World :=
  calls.foldl MetricsRegistry.call {}

/-! ## What was observed

The calls are read for one series: its values, its bounds, and what is to be shown of them.  Nothing here
looks at the registry. -/

def MetricCall.observation? : MetricCall World → Option Observation
  | .observe o => some o
  | _ => none

section

variable (calls : List (MetricCall World)) (s : Series)

/-- The observations, one series among the others. -/
def observations : List Observation := calls.filterMap MetricCall.observation?

/-- The calls that observe nothing. -/
def quiet : List (MetricCall World) := calls.filter fun call => call.observation?.isNone

def onSeries : List Observation := (observations calls).filter fun o => o.series = s

/-- The values of a series, and `0` for those below it. -/
def values : List ℚ := (onSeries calls s).map fun o => max 0 o.value

/-- The bounds of a series are those of its first call. -/
def boundsOf : List ℚ :=
  match (onSeries calls s).head? with
  | some first => if first.bounds = [] then defaultBounds else first.bounds
  | none => []

def helpOf : Bytes :=
  match (onSeries calls s).head? with
  | some first => first.help
  | none => []

/-- How many values of a series are at most a bound. -/
def atMost (bound : ℚ) : Nat := (values calls s).countP (· ≤ bound)

def total : ℚ := (values calls s).foldl (· + ·) 0

/-- What is to be shown of a series. -/
def seriesLines : Bytes :=
  ((boundsOf calls s).flatMap fun bound =>
      sampleLine (s.name ++ bytesOf "_bucket") (withLe s.labels (renderNumber bound))
        (Decimal.numeral (atMost calls s bound))) ++
    sampleLine (s.name ++ bytesOf "_bucket") (withLe s.labels (bytesOf "+Inf"))
      (Decimal.numeral (values calls s).length) ++
    sampleLine (s.name ++ bytesOf "_sum") s.labels (renderNumber (total calls s)) ++
    sampleLine (s.name ++ bytesOf "_count") s.labels (Decimal.numeral (values calls s).length)

/-- One series behind another; a name that was not written last is announced. -/
def seriesBlocks : Bytes → List Series → Bytes
  | _, [] => []
  | lastName, s :: series =>
    (if s.name ≠ lastName then helpAndType s.name (helpOf calls s) "histogram" else []) ++
      seriesLines calls s ++ seriesBlocks s.name series

end

/-! ## A histogram is what its series was observed to be

Observations are added one by one, each to the first bucket that takes it.  The counts are summed up only
when the text is written, and come to the values at most a bound. -/

/-- What is below zero counts as zero. -/
theorem observed_eq (value : ℚ) : observed value = max 0 value := by
  rw [observed]
  split
  case isTrue h => exact (max_eq_left h.le).symm
  case isFalse h => exact (max_eq_right (not_lt.mp h)).symm

theorem series_fresh (o : Observation) : o.fresh.series = o.series := rfl

/-- A histogram stays with its series. -/
theorem series_addTo (o : Observation) (h : Histogram) : (o.addTo h).series = h.series := rfl

/-- An observation goes into one bucket, if there is one for it. -/
theorem bucketCounts_addTo (o : Observation) (h : Histogram) :
    (o.addTo h).bucketCounts = tally h.bounds h.bucketCounts (max 0 o.value) := by
  rw [← observed_eq, Observation.addTo, Histogram.add]
  dsimp only
  split
  case isTrue => rfl
  case isFalse hend =>
    rw [tally, List.modify_eq_self]
    exact h.aligned.trans_le (not_lt.mp hend)

/-- Values that are added one by one. -/
theorem foldl_add (h : Histogram) (os : List Observation) :
    let h' := os.foldl (fun h o => o.addTo h) h
    h'.series = h.series ∧ h'.help = h.help ∧ h'.bounds = h.bounds ∧ h'.count = h.count + os.length ∧
      h'.sum = (os.map fun o => max 0 o.value).foldl (· + ·) h.sum ∧
      h'.bucketCounts = (os.map fun o => max 0 o.value).foldl (tally h.bounds) h.bucketCounts := by
  induction os generalizing h with
  | nil => exact ⟨rfl, rfl, rfl, rfl, rfl, rfl⟩
  | cons o os ih =>
    obtain ⟨hseries, hhelp, hbounds, hcount, hsum, hbuckets⟩ := ih (o.addTo h)
    refine ⟨hseries, hhelp, hbounds, ?_, ?_, ?_⟩
    · rw [List.foldl_cons, hcount, List.length_cons, Nat.add_comm os.length, ← Nat.add_assoc]
      rfl
    · rw [List.foldl_cons, hsum, List.map_cons, List.foldl_cons, ← observed_eq]
      rfl
    · rw [List.foldl_cons, hbuckets, List.map_cons, List.foldl_cons, ← bucketCounts_addTo]
      rfl

/-- The lines of the buckets, once it is known what the counts come to. -/
theorem bucketLines_eq (name : Bytes) (labels : List MetricLabel) {bounds : List ℚ} {f : ℚ → Nat}
    {cumulative : Nat} {counts : List Nat} (h : cumulate cumulative counts = bounds.map f) :
    bucketLines name labels cumulative (bounds.zip counts) = bounds.flatMap fun bound =>
      sampleLine (name ++ bytesOf "_bucket") (withLe labels (renderNumber bound))
        (Decimal.numeral (f bound)) := by
  induction bounds generalizing cumulative counts with
  | nil => rfl
  | cons bound bounds ih =>
    cases counts with
    | nil => cases h
    | cons n counts =>
      rw [cumulate, List.map_cons, List.cons.injEq] at h
      rw [List.zip_cons_cons, bucketLines, ih h.2, h.1, List.flatMap_cons]

theorem pairwise_defaultBounds : defaultBounds.Pairwise (· ≤ ·) := by decide +kernel

/-- The bounds of a series ascend, its own or the default ones. -/
theorem pairwise_boundsOf {calls : List (MetricCall World)} {s : Series}
    (h : ∀ first ∈ (onSeries calls s).head?, first.bounds.Pairwise (· < ·)) :
    (boundsOf calls s).Pairwise (· ≤ ·) := by
  rw [boundsOf]
  split
  case h_1 first hfirst =>
    split
    · exact pairwise_defaultBounds
    · exact (h first hfirst).imp le_of_lt
  case h_2 => exact List.Pairwise.nil

/-- **The lines of a histogram** that its series has made are the lines of the series. -/
theorem lines_of_accumulate {calls : List (MetricCall World)} {h : Histogram}
    (hascending : (boundsOf calls h.series).Pairwise (· ≤ ·))
    (hmade : accumulate Observation.fresh Observation.addTo (onSeries calls h.series) = some h) :
    h.help = helpOf calls h.series ∧ h.lines = seriesLines calls h.series := by
  obtain ⟨first, hfirst, heq⟩ := Option.map_eq_some_iff.mp hmade
  obtain ⟨-, hhelp, hbounds, hcount, hsum, hbuckets⟩ := foldl_add first.fresh (onSeries calls h.series)
  rw [heq] at hhelp hbounds hcount hsum hbuckets
  have hfresh : first.fresh.bounds = boundsOf calls h.series := by
    rw [boundsOf, hfirst]
    rfl
  have hcumulate : cumulate 0 h.bucketCounts = (boundsOf calls h.series).map (atMost calls h.series) := by
    rw [hbuckets, hfresh]
    change cumulate 0 (List.foldl _ (List.replicate first.fresh.bounds.length 0) _) = _
    rw [hfresh]
    exact cumulate_tallies hascending _
  have hlength : h.count = (values calls h.series).length := by
    rw [hcount, values, List.length_map]
    exact Nat.zero_add _
  have hhelp' : h.help = helpOf calls h.series := by
    rw [hhelp, helpOf, hfirst]
    rfl
  refine ⟨hhelp', ?_⟩
  rw [Histogram.lines, hbounds, hfresh, bucketLines_eq _ _ hcumulate, hlength, hsum]
  rfl

/-! ## The registry

Calls of other kinds do not look at the histograms, and an observation does not look at anything else.  So
the two parts can be told apart at every call. -/

theorem registryOf_concat (calls : List (MetricCall World)) (call : MetricCall World) :
    registryOf (calls ++ [call]) = (registryOf calls).call call := List.foldl_concat ..

/-- A call that is no observation leaves the histograms, and does not look at them. -/
theorem call_of_quiet (r : MetricsRegistry World) {call : MetricCall World} (h : call.observation? = none)
    (histograms : List Histogram) :
    (r.call call).histograms = r.histograms ∧
      ({ r with histograms } : MetricsRegistry World).call call = { r.call call with histograms } := by
  cases call with
  | counter name help labels =>
    rw [MetricsRegistry.call, MetricsRegistry.call, MetricsRegistry.counter, MetricsRegistry.counter]
    dsimp only
    split <;> exact ⟨rfl, rfl⟩
  | add handle delta => cases handle <;> exact ⟨rfl, rfl⟩
  | gauge name help read labels =>
    rw [MetricsRegistry.call, MetricsRegistry.call, MetricsRegistry.gauge, MetricsRegistry.gauge]
    dsimp only
    split <;> exact ⟨rfl, rfl⟩
  | observe o => cases h

/-- The histograms are made by the observations. -/
theorem histograms_registryOf (calls : List (MetricCall World)) :
    (registryOf calls).histograms =
      upserts Histogram.series Observation.series Observation.fresh Observation.addTo
        (observations calls) := by
  induction calls using List.reverseRecOn with
  | nil => rfl
  | append_singleton calls call ih =>
    rw [registryOf_concat, observations, List.filterMap_append]
    cases hcall : call.observation? with
    | none =>
      rw [(call_of_quiet _ hcall []).1, ih, List.filterMap_cons_none hcall, List.filterMap_nil,
        List.append_nil]
      rfl
    | some o =>
      cases call with
      | observe o' =>
        obtain rfl := Option.some.inj hcall
        rw [List.filterMap_cons_some hcall, List.filterMap_nil, upserts, List.foldl_concat, ← upserts]
        exact congrArg (upsert _ _ _ _) ih
      | counter => cases hcall
      | add => cases hcall
      | gauge => cases hcall

/-- All else is as if nothing had been observed. -/
theorem registryOf_quiet (calls : List (MetricCall World)) :
    registryOf (quiet calls) = { registryOf calls with histograms := [] } := by
  induction calls using List.reverseRecOn with
  | nil => rfl
  | append_singleton calls call ih =>
    rw [quiet, List.filter_append, ← quiet, registryOf_concat]
    cases hcall : call.observation? with
    | none =>
      rw [List.filter_cons_of_pos (by rw [hcall]; rfl), List.filter_nil, registryOf_concat, ih]
      exact (call_of_quiet _ hcall []).2
    | some o =>
      rw [List.filter_cons_of_neg (by rw [hcall]; exact Bool.false_ne_true), List.filter_nil,
        List.append_nil, ih]
      cases call with
      | observe o' => rfl
      | counter => cases hcall
      | add => cases hcall
      | gauge => cases hcall

/-- A series has the histogram that its observations make, -/
theorem entry_histograms (calls : List (MetricCall World)) (s : Series) :
    entry Histogram.series (registryOf calls).histograms s =
      accumulate Observation.fresh Observation.addTo (onSeries calls s) := by
  rw [histograms_registryOf]
  exact entry_upserts series_fresh series_addTo _ s

/-- …and only the one. -/
theorem nodup_histograms (calls : List (MetricCall World)) :
    ((registryOf calls).histograms.map Histogram.series).Nodup := by
  rw [histograms_registryOf]
  exact nodup_upserts series_fresh series_addTo _

/-- The series that have a histogram. -/
theorem mem_series {calls : List (MetricCall World)} {s : Series} :
    s ∈ (registryOf calls).histograms.map Histogram.series ↔ onSeries calls s ≠ [] := by
  rw [← entry_isSome, entry_histograms, accumulate, Option.isSome_map, List.isSome_head?]

/-! ## The text

Histograms stand last, sorted by name; the name that was written last is all that is carried from one to the
next. -/

/-- A name is announced where it was not the last one, -/
theorem out_announce (e : Exposed) (name help : Bytes) (type : String) :
    (e.announce name help type).out =
      e.out ++ (if name ≠ e.lastName then helpAndType name help type else []) := by
  rw [Exposed.announce]
  split
  · rfl
  · exact (List.append_nil _).symm

/-- …and is the last one then. -/
theorem lastName_announce (e : Exposed) (name help : Bytes) (type : String) :
    (e.announce name help type).lastName = name := by
  rw [Exposed.announce]
  split
  · rfl
  case isFalse h => exact (not_not.mp h).symm

/-- Histograms are written one behind another. -/
theorem out_foldl_histogram {calls : List (MetricCall World)} {histograms : List Histogram}
    (h : ∀ sample ∈ histograms,
      sample.help = helpOf calls sample.series ∧ sample.lines = seriesLines calls sample.series)
    (e : Exposed) :
    (histograms.foldl Exposed.histogram e).out =
      e.out ++ seriesBlocks calls e.lastName (histograms.map Histogram.series) := by
  induction histograms generalizing e with
  | nil => exact (List.append_nil _).symm
  | cons sample histograms ih =>
    rw [List.forall_mem_cons] at h
    have hlast : (e.histogram sample).lastName = sample.series.name := lastName_announce ..
    have hout : (e.histogram sample).out = e.out ++
        (if sample.series.name ≠ e.lastName then
          helpAndType sample.series.name (helpOf calls sample.series) "histogram" else []) ++
        seriesLines calls sample.series := by
      rw [← h.1.1, ← h.1.2]
      exact congrArg (· ++ sample.lines) (out_announce e sample.name sample.help "histogram")
    rw [List.foldl_cons, ih h.2, hlast, hout, List.map_cons, seriesBlocks, List.append_assoc,
      List.append_assoc, List.append_assoc]

/-- A number can be read back to six digits. -/
theorem read_renderNumber (value : ℚ) :
    ∃ shown, Significant.read (renderNumber value) = some shown ∧ |value - shown| ≤ |value| / (2 * 10 ^ 5) :=
  Significant.read_general (p := kNumberPrecision) (by decide) value

/-- No bucket counts more than all values. -/
theorem atMost_le (calls : List (MetricCall World)) (s : Series) (bound : ℚ) :
    atMost calls s bound ≤ (values calls s).length := List.countP_le_length

/-- A higher bound counts no less. -/
theorem atMost_mono (calls : List (MetricCall World)) (s : Series) {bound bound' : ℚ} (h : bound ≤ bound') :
    atMost calls s bound ≤ atMost calls s bound' :=
  List.countP_mono_left fun _ _ hvalue => decide_eq_true ((of_decide_eq_true hvalue).trans h)

/--
**The text shows what was observed.**

Behind the text of the counters and the gauges there is one block for each series that was observed.  The
counts of its buckets are those of the values at most the bounds, and numbers are shown with six digits.
-/
theorem exposes_series (calls : List (MetricCall World))
    (h : ∀ s, ∀ first ∈ (onSeries calls s).head?, first.bounds.Pairwise (· < ·)) {world : World} {text : Bytes}
    (hexposes : (registryOf calls).Exposes world text) :
    (∃ before lastName series, (registryOf (quiet calls)).Exposes world before ∧ series.Nodup ∧
        (∀ s, s ∈ series ↔ onSeries calls s ≠ []) ∧ text = before ++ seriesBlocks calls lastName series) ∧
      (∀ s, ((boundsOf calls s).map (atMost calls s)).Pairwise (· ≤ ·) ∧
        ∀ bound, atMost calls s bound ≤ (values calls s).length) ∧
      ∀ value : ℚ, ∃ shown, Significant.read (renderNumber value) = some shown ∧
        |value - shown| ≤ |value| / (2 * 10 ^ 5) := by
  obtain ⟨counters, gauges, histograms, hcounters, hgauges, hhistograms, rfl⟩ := hexposes
  have hseries := hhistograms.perm.map Histogram.series
  have hlines : ∀ sample ∈ histograms, sample.help = helpOf calls sample.series ∧
      sample.lines = seriesLines calls sample.series := by
    intro sample hsample
    have hentry := entry_eq_some (nodup_histograms calls) (hhistograms.perm.mem_iff.mp hsample)
    exact lines_of_accumulate (pairwise_boundsOf (h _)) ((entry_histograms calls _).symm.trans hentry)
  refine ⟨⟨exposure world counters gauges [], _, histograms.map Histogram.series, ?_, ?_, ?_,
    out_foldl_histogram hlines _⟩, fun s => ⟨?_, atMost_le calls s⟩, read_renderNumber⟩
  · rw [registryOf_quiet]
    exact ⟨counters, gauges, [], hcounters, hgauges, ⟨List.Perm.nil, List.Pairwise.nil⟩, rfl⟩
  · exact hseries.nodup_iff.mpr (nodup_histograms calls)
  · exact fun s => hseries.mem_iff.trans mem_series
  · exact (pairwise_boundsOf (h s)).map _ fun _ _ => atMost_mono calls s

/-- Two series of one name, and bounds that come too late. -/
def twoPaths : List (MetricCall Unit) :=
  [.observe ⟨bytesOf "t", bytesOf "h", -1, [1, 2], [⟨bytesOf "p", bytesOf "a"⟩]⟩,
    .observe ⟨bytesOf "t", bytesOf "h", 3 / 2, [1, 2], [⟨bytesOf "p", bytesOf "b"⟩]⟩,
    .observe ⟨bytesOf "t", bytesOf "h", 1, [5], [⟨bytesOf "p", bytesOf "a"⟩]⟩]

/-- If the bounds of every call ascend, so do those of the first of a series. -/
theorem ascending_of_forall {calls : List (MetricCall World)}
    (h : ∀ o ∈ observations calls, o.bounds.Pairwise (· < ·)) (s : Series) :
    ∀ first ∈ (onSeries calls s).head?, first.bounds.Pairwise (· < ·) := fun first hfirst =>
  h first (List.mem_filter.mp (List.mem_of_mem_head? hfirst)).1

/-- One order of histograms alone, that is one text. -/
theorem exposes_histograms {calls : List (MetricCall Unit)} (hquiet : quiet calls = [])
    (hsorted : (registryOf calls).histograms.Pairwise fun a b => ¬b.name < a.name) :
    (registryOf calls).Exposes () (exposure () [] [] (registryOf calls).histograms) := by
  have hrest := registryOf_quiet calls
  rw [hquiet] at hrest
  refine ⟨[], [], _, ?_, ?_, ⟨List.Perm.refl _, hsorted⟩, rfl⟩
  · rw [← congrArg MetricsRegistry.counters hrest]
    exact ⟨List.Perm.nil, List.Pairwise.nil⟩
  · rw [← congrArg MetricsRegistry.gauges hrest]
    exact ⟨List.Perm.nil, List.Pairwise.nil⟩

/-- The two series of one name get a block each. -/
theorem exposes_series_twoPaths :
    ∃ text before lastName series, (registryOf twoPaths).Exposes () text ∧ series.Nodup ∧
      (∀ s, s ∈ series ↔ onSeries twoPaths s ≠ []) ∧ text = before ++ seriesBlocks twoPaths lastName series := by
  have hexposes : (registryOf twoPaths).Exposes () (exposure () [] [] (registryOf twoPaths).histograms) :=
    exposes_histograms rfl (by decide +kernel)
  obtain ⟨⟨before, lastName, series, -, hnodup, hmem, htext⟩, -⟩ :=
    exposes_series twoPaths (ascending_of_forall (by decide +kernel)) hexposes
  exact ⟨_, before, lastName, series, hexposes, hnodup, hmem, htext⟩

example : exposure () [] [] (registryOf twoPaths).histograms =
    bytesOf "# HELP t h\n# TYPE t histogram\n" ++
      bytesOf "t_bucket\x7bp=\"a\",le=\"1\"\x7d 2\nt_bucket\x7bp=\"a\",le=\"2\"\x7d 2\n" ++
      bytesOf "t_bucket\x7bp=\"a\",le=\"+Inf\"\x7d 2\nt_sum\x7bp=\"a\"\x7d 1\nt_count\x7bp=\"a\"\x7d 2\n" ++
      bytesOf "t_bucket\x7bp=\"b\",le=\"1\"\x7d 0\nt_bucket\x7bp=\"b\",le=\"2\"\x7d 1\n" ++
      bytesOf "t_bucket\x7bp=\"b\",le=\"+Inf\"\x7d 1\nt_sum\x7bp=\"b\"\x7d 1.5\nt_count\x7bp=\"b\"\x7d 1\n" := by
  decide +kernel

/-- One value of one series with one bound. -/
def once (value bound : ℚ) : List (MetricCall Unit) :=
  [.observe ⟨bytesOf "t", bytesOf "h", value, [bound], []⟩]

theorem bounds_once (value : ℚ) {bound : ℚ} (h : 0 ≤ bound) (s : Series) :
    ∀ first ∈ (onSeries (once value bound) s).head?,
      first.bounds.Pairwise (· < ·) ∧ ∀ b ∈ first.bounds, 0 ≤ b := by
  intro first hfirst
  obtain rfl := List.mem_singleton.mp (List.mem_filter.mp (List.mem_of_mem_head? hfirst)).1
  exact ⟨List.pairwise_singleton _ _, List.forall_mem_singleton.mpr h⟩

theorem exposes_once (value bound : ℚ) : (registryOf (once value bound)).Exposes ()
    (exposure () [] [] (registryOf (once value bound)).histograms) :=
  exposes_histograms rfl (List.pairwise_singleton _ _)

/-- **Numbers are rounded**: neither the sum nor the bounds can be told from the text. -/
theorem not_told_from_text :
    (¬∃ told : Bytes → ℚ, ∀ calls : List (MetricCall Unit),
        (∀ s, ∀ first ∈ (onSeries calls s).head?, first.bounds.Pairwise (· < ·) ∧ ∀ b ∈ first.bounds, 0 ≤ b) →
          ∀ text, (registryOf calls).Exposes () text → told text = total calls ⟨bytesOf "t", []⟩) ∧
      ¬∃ told : Bytes → List ℚ, ∀ calls : List (MetricCall Unit),
        (∀ s, ∀ first ∈ (onSeries calls s).head?, first.bounds.Pairwise (· < ·) ∧ ∀ b ∈ first.bounds, 0 ≤ b) →
          ∀ text, (registryOf calls).Exposes () text → told text = boundsOf calls ⟨bytesOf "t", []⟩ := by
  constructor
  · rintro ⟨told, h⟩
    have htext : exposure () [] [] (registryOf (once (100000 + 1 / 4) 1)).histograms =
        exposure () [] [] (registryOf (once (100000 + 1 / 8) 1)).histograms := by decide +kernel
    have hfirst := h _ (bounds_once _ zero_le_one) _ (exposes_once (100000 + 1 / 4) 1)
    rw [htext, h _ (bounds_once _ zero_le_one) _ (exposes_once (100000 + 1 / 8) 1)] at hfirst
    exact absurd hfirst (by decide +kernel)
  · rintro ⟨told, h⟩
    have htext : exposure () [] [] (registryOf (once 0 1)).histograms =
        exposure () [] [] (registryOf (once 0 (1 + 1 / 2 ^ 23))).histograms := by decide +kernel
    have hfirst := h _ (bounds_once _ zero_le_one) _ (exposes_once 0 1)
    rw [htext, h _ (bounds_once _ (by decide +kernel)) _ (exposes_once 0 (1 + 1 / 2 ^ 23))] at hfirst
    exact absurd hfirst (by decide +kernel)

end RealtimeGame.Common
