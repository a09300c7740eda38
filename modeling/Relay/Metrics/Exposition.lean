import Relay.Journal
import Relay.Metrics.Sketch
import Relay.Number.Layout

/-!
# Exposition of metrics

Measurements are shown as a text of lines: a line with the type of each metric, and a line for each
series, which gives its name, its labels and its value. The name of the pipeline is a label of every
series and stands first; a measurement may set it otherwise.

Characters that names may not have become underscores. In the value of a label quotes and line feeds are
escaped. A backslash is held back: before another one, and at the end, it is written twice; before any
other plain character it is written twice and the character follows; a quote takes its place. Series that
look the same are shown as one: their distributions are put together, and of their other values one is
shown.

A distribution is shown by its buckets, and by some of its quantiles if its metric has no buckets. Its values
are kept in blocks. For buckets the values of a block are added up before they are added to those of other
blocks. Quantiles are those of the latest block; earlier values count only for the sum and for the number.
-/

namespace Relay.Metrics

/-- A measured value. -/
inductive Measure where
  /-- An increase of a counter. -/
  | counter (n : Nat)
  /-- The new level of a gauge. -/
  | gauge (d : Double)
  /-- One value of a distribution. -/
  | histogram (d : Double)
  deriving DecidableEq, Repr

/-- A measured value of a series. -/
structure Measurement where
  /-- The series. -/
  series : Series
  /-- The value. -/
  measure : Measure
  deriving DecidableEq, Repr

/-! ## Names and labels -/

/-- Whether a character may stand in a name after the first. -/
def isNameChar (c : Char) : Bool := c.isAlphanum || c == '_' || c == ':'

/-- Whether a name may start with a character. -/
def isNameStart (c : Char) : Bool := c.isAlpha || c == '_' || c == ':'

/-- Whether a character may stand in the key of a label after the first. -/
def isKeyChar (c : Char) : Bool := c.isAlphanum || c == '_'

/-- Whether the key of a label may start with a character. -/
def isKeyStart (c : Char) : Bool := c.isAlpha || c == '_'

/-- Replace what may not stand where it stands by underscores. -/
def sanitize (start rest : Char → Bool) (s : String) : String :=
  let clean (p : Char → Bool) (c : Char) := if p c then c else '_'
  match s.toList with
  | [] => ""
  | c :: cs => String.ofList (clean start c :: cs.map (clean rest))

/-- The name of a metric as it is shown. -/
def metricName : String → String := sanitize isNameStart isNameChar

/-- The key of a label as it is shown. -/
def labelKey : String → String := sanitize isKeyStart isKeyChar

/-- Escape the value of a label; `held` says whether a backslash is held back. -/
def escape (held : Bool) : List Char → List Char
  | [] => if held then ['\\', '\\'] else []
  | '\n' :: cs => '\\' :: 'n' :: escape held cs
  | '"' :: cs => '\\' :: '"' :: escape false cs
  | '\\' :: cs => if held then '\\' :: '\\' :: escape false cs else escape true cs
  | c :: cs => if held then '\\' :: '\\' :: c :: escape false cs else c :: escape false cs

/-- The value of a label as it is shown. -/
def labelValue (s : String) : String := String.ofList (escape false s.toList)

/-- Set a label, at its place if it is there already. -/
def setLabel (key value : String) : List (String × String) → List (String × String)
  | [] => [(key, value)]
  | (k, v) :: rest => if k = key then (k, value) :: rest else (k, v) :: setLabel key value rest

/-- A label as it is shown. -/
def showLabel (label : String × String) : String := label.1 ++ "=\"" ++ label.2 ++ "\""

/-- The labels of a series of a pipeline as they are shown. -/
def labels (pipeline : String) (s : Series) : List String :=
  (s.labels.foldl (fun ls l => setLabel l.1 l.2 ls) [("pipeline", pipeline)]).map fun l =>
    showLabel (labelKey l.1, labelValue l.2)

/-- A name with labels. -/
def selector (name : String) (labels : List String) : String :=
  if labels.isEmpty then name else name ++ "\x7b" ++ String.intercalate "," labels ++ "\x7d"

/-- A line of a series. -/
def line (name : String) (labels : List String) (value : String) : String :=
  selector name labels ++ " " ++ value

/-! ## Distributions -/

/-- Numbers are written without exponent, and whole numbers without fraction; a tie goes up. -/
def layout : Shortest.Layout := ⟨.up, none, none, false⟩

/-- The buckets of times in milliseconds. -/
def millisBuckets : List Double :=
  [1, 5, 10, 25, 50, 100, 250, 500, 1000, 2500, 5000, 10000, 30000, 60000].map Double.ofNat64

/-- The buckets of times in seconds. -/
def secondsBuckets : List Double :=
  [1, 5, 10, 25, 50, 100, 250, 500, 1000, 2500, 5000].map (Double.ofDecimal · 3)

/-- The buckets of batch sizes. -/
def sizeBuckets : List Double :=
  [1, 10, 50, 100, 250, 500, 1000, 2500, 5000, 10000].map Double.ofNat64

/-- The buckets of shares. -/
def ratioBuckets : List Double := [10, 25, 50, 75, 90, 100].map (Double.ofDecimal · 2)

/-- The buckets of a metric, by its name. -/
def buckets (name : String) : List Double :=
  if name = "connect_http_request_duration_seconds" then secondsBuckets
  else if name = "batch_consumer_batch_size" then sizeBuckets
  else if name = "batch_consumer_batch_fill_ratio" then ratioBuckets
  else if name.endsWith "_duration_ms" then millisBuckets
  else []

/-- The shares of the quantiles that are shown. -/
def shares : List Double := [0, 500, 900, 950, 990, 999, 1000].map (Double.ofDecimal · 3)

/-- The number of values of a block. -/
def blockSize : Nat := 64

/-- Add a value to blocks, the latest of which stands first. -/
def extend (blocks : List (List Double)) (d : Double) : List (List Double) :=
  match blocks with
  | [] => [[d]]
  | latest :: earlier =>
    if latest.length < blockSize then (latest ++ [d]) :: earlier else [d] :: latest :: earlier

/-- The blocks of values, the latest first. -/
def blocks (values : List Double) : List (List Double) := values.foldl extend []

/-- The sum of values. -/
def sum (values : List Double) : Double := values.foldl Double.add (.ofNat64 0)

/-- The sketch of blocks, which is that of the latest one. -/
def sketch (blocks : List (List Double)) : Sketch := .ofList (blocks.headD [])

/-- The lines of the buckets of a distribution: each counts the values up to its bound. -/
def bucketLines (bounds : List Double) (name : String) (labels : List String) (values : List Double) :
    List String :=
  let bucket (bound : String) (n : Nat) :=
    line (name ++ "_bucket") (labels ++ [showLabel ("le", bound)]) (toString n)
  bounds.map (fun b => bucket (layout.write b) (values.countP (·.le b))) ++ [bucket "+Inf" values.length]

/-- The lines of the quantiles of a distribution. -/
def quantileLines (name : String) (labels : List String) (s : Sketch) : List String :=
  shares.map fun share =>
    line name (labels ++ [showLabel ("quantile", layout.write share)]) (layout.write (s.quantile share))

/-- The lines of a distribution with blocks of values. -/
def distributionLines (name : String) (labels : List String) (blocks : List (List Double)) :
    List String :=
  let values := blocks.flatten
  let total (d : Double) :=
    [line (name ++ "_sum") labels (layout.write d),
      line (name ++ "_count") labels (toString values.length)]
  match buckets name with
  | [] => quantileLines name labels (sketch blocks) ++ total (sum values)
  | bounds => bucketLines bounds name labels values ++ total (sum (blocks.map sum))

/-! ## The whole exposition -/

/-- A series as it is shown: its name and its labels. -/
abbrev Shown := String × List String

/-- How a series of a pipeline is shown. -/
def shown (pipeline : String) (s : Series) : Shown := (metricName s.name, labels pipeline s)

/-- Put together the values of each key, in order of the first appearance of the keys. -/
def gather {κ α : Type} [BEq κ] (join : α → α → α) (xs : List (κ × α)) : List (κ × α) :=
  xs.foldl (fun groups x =>
    if groups.any fun g => g.1 == x.1 then
      groups.map fun g => if g.1 == x.1 then (g.1, join g.2 x.2) else g
    else groups ++ [x]) []

/-- Put together the values of the series that are shown alike. -/
def gatherShown {α : Type} (pipeline : String) (join : α → α → α) (xs : List (Series × α)) :
    List (Shown × α) :=
  gather join (xs.map fun x => (shown pipeline x.1, x.2))

/-- The totals of the counters, which have 64 bits. -/
def counters (pipeline : String) (ms : List Measurement) : List (Shown × Nat) :=
  gatherShown pipeline (fun _ n => n) <|
    (gather (· + ·) (ms.filterMap fun m =>
      match m.measure with
      | .counter n => some (m.series, n)
      | _ => none)).map fun x => (x.1, x.2 % 18446744073709551616)

/-- The latest levels of the gauges. -/
def gauges (pipeline : String) (ms : List Measurement) : List (Shown × Double) :=
  gatherShown pipeline (fun _ d => d) <|
    gather (fun _ d => d) (ms.filterMap fun m =>
      match m.measure with
      | .gauge d => some (m.series, d)
      | _ => none)

/-- The blocks of the distributions, the latest first. -/
def histograms (pipeline : String) (ms : List Measurement) : List (Shown × List (List Double)) :=
  gatherShown pipeline (fun earlier later => later ++ earlier) <|
    (gather (· ++ ·) (ms.filterMap fun m =>
      match m.measure with
      | .histogram d => some (m.series, [d])
      | _ => none)).map fun x => (x.1, blocks x.2)

/-- The line with the type of each metric of a list of series. -/
def typeLines (type : String → String) (series : List Shown) : List String :=
  ((series.map (·.1)).eraseDups).map fun name => "# TYPE " ++ name ++ " " ++ type name

/-- The type of a distribution. -/
def distributionType (name : String) : String :=
  if (buckets name).isEmpty then "summary" else "histogram"

/-- The lines of the measurements of a pipeline. -/
def expose (pipeline : String) (ms : List Measurement) : List String :=
  let counters := counters pipeline ms
  let gauges := gauges pipeline ms
  let histograms := histograms pipeline ms
  typeLines (fun _ => "counter") (counters.map (·.1)) ++
  counters.map (fun (s, n) => line s.1 s.2 (toString n)) ++
  typeLines (fun _ => "gauge") (gauges.map (·.1)) ++
  gauges.map (fun (s, d) => line s.1 s.2 (layout.write d)) ++
  typeLines distributionType (histograms.map (·.1)) ++
  histograms.flatMap fun (s, blocks) => distributionLines s.1 s.2 blocks

/-- The measurements that a journal holds, in the order in which they were made. The values of
distributions in a journal are not known. -/
def ofJournal (journal : List Event) : List Measurement :=
  journal.reverse.filterMap fun
    | .counted series n => some ⟨series, .counter n⟩
    | .observed series => some ⟨series, .histogram ⟨0⟩⟩
    | _ => none

/-- The total of every counter, and the number of values of every distribution. -/
def totals (pipeline : String) (ms : List Measurement) : SortedMap String Nat :=
  .ofList <|
    (counters pipeline ms).map (fun (s, n) => (selector s.1 s.2, n)) ++
    (histograms pipeline ms).map fun (s, blocks) =>
      (selector (s.1 ++ "_count") s.2, blocks.flatten.length)

end Relay.Metrics
