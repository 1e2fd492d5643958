import HootLb.Native.Vectors

/-!
# Text exposition

`internal/metrics/exposition.go` and the formatting functions of `registry.go`. The
text is the list of the strings handed to `io.WriteString`; `none` is the panic of
`formatLabels` when there are fewer values than names. A write never fails here.

Floats are formatted by `strconv`; `NumberText` stands for it.
-/

namespace HootLb.Metrics

/-! ## Formatting -/

/-- `strings.ReplaceAll` of one character. -/
def replaceAll (c : Char) (new : List Char) (s : String) : String :=
  String.ofList (s.toList.flatMap fun x => if x = c then new else [x])

/-- `escapeLabelValue`. -/
def escapeLabelValue (s : String) : String :=
  replaceAll '"' ['\\', '"'] (replaceAll '\\' ['\\', '\\'] s)

/-- The loop of `formatLabels`, without the commas. -/
def formatPairs : List String → List String → Option (List String)
  | [], _ => some []
  -- `values[i]` is out of range
  | _ :: _, [] => none
  | n :: names, v :: values =>
    (formatPairs names values).map fun rest => (n ++ "=\"" ++ escapeLabelValue v ++ "\"") :: rest

/-- `formatLabels`. -/
def formatLabels (names values : List String) : Option String :=
  if names = [] then some ""
  else (formatPairs names values).map fun pairs => "\x7b" ++ ",".intercalate pairs ++ "\x7d"

/-- `fmtUint64`. -/
def fmtUint64 (v : Nat) : String := v.repr

/-- `fmtInt64`. -/
def fmtInt64 (v : Int) : String := v.repr

/-- What the exposition does with the numbers of a histogram: `seconds` is
    `float64(sum) / 1e9`. -/
structure NumberText (β : Type) where
  fmtFloat : β → String
  seconds : Int → β

/-! ## Lines -/

/-- The parts of a sample's line. -/
structure Row where
  name : String
  labelNames : List String
  labelValues : List String
  value : String

/-- `io.WriteString(w, name+formatLabels(...)+" "+value+"\n")`. -/
def Row.write (r : Row) : Option String :=
  (formatLabels r.labelNames r.labelValues).map fun l => r.name ++ l ++ " " ++ r.value ++ "\n"

variable {β : Type} [LinearOrder β]

/-- The lines of `writeSingleHistogram`. -/
def histogramRows (num : NumberText β) (name : String) (labelNames labelValues : List String)
    (h : Histogram β) : List Row :=
  h.bucketRows.map (fun b =>
    { name := name ++ "_bucket", labelNames := labelNames ++ ["le"]
      labelValues := labelValues ++ [num.fmtFloat b.1], value := fmtUint64 b.2 }) ++
  [{ name := name ++ "_bucket", labelNames := labelNames ++ ["le"]
     labelValues := labelValues ++ ["+Inf"], value := fmtUint64 h.infCount },
    { name := name ++ "_sum", labelNames, labelValues
      value := num.fmtFloat (num.seconds h.sum) },
    { name := name ++ "_count", labelNames, labelValues, value := fmtUint64 h.count }]

/-- `writeSingleHistogram`. -/
def writeSingleHistogram (num : NumberText β) (name : String)
    (labelNames labelValues : List String) (h : Histogram β) : Option (List String) :=
  (histogramRows num name labelNames labelValues h).mapM Row.write

/-! ## The registry -/

/-- What is registered under a name. -/
inductive MetricValue (β : Type) [LinearOrder β] where
  | counter (value : Nat)
  | counterVec (cv : Vec Nat)
  | gauge (value : Int)
  | gaugeVec (gv : Vec Int)
  | histogram (h : Histogram β)
  | histogramVec (hv : Vec (Histogram β))

/-- `MetricEntry`. -/
structure MetricEntry (β : Type) [LinearOrder β] where
  name : String
  help : String
  metric : MetricValue β

/-- `MetricType`. -/
def MetricValue.type : MetricValue β → String
  | .counter _ => "counter"
  | .counterVec _ => "counter"
  | .gauge _ => "gauge"
  | .gaugeVec _ => "gauge"
  | .histogram _ => "histogram"
  | .histogramVec _ => "histogram"

/-- `writeHelpAndType`. -/
def writeHelpAndType (e : MetricEntry β) : List String :=
  (if e.help ≠ "" then ["# HELP " ++ e.name ++ " " ++ e.help ++ "\n"] else []) ++
    ["# TYPE " ++ e.name ++ " " ++ e.metric.type ++ "\n"]

/-- The lines of `writeCounter`, `writeGauge` and `writeHistogram`. -/
def MetricEntry.rows (num : NumberText β) (e : MetricEntry β) : List Row :=
  match e.metric with
  | .counter value =>
    [{ name := e.name, labelNames := [], labelValues := [], value := fmtUint64 value }]
  | .counterVec cv => cv.each.map fun s =>
    { name := e.name, labelNames := cv.labels, labelValues := s.1, value := fmtUint64 s.2 }
  | .gauge value =>
    [{ name := e.name, labelNames := [], labelValues := [], value := fmtInt64 value }]
  | .gaugeVec gv => gv.each.map fun s =>
    { name := e.name, labelNames := gv.labels, labelValues := s.1, value := fmtInt64 s.2 }
  | .histogram h => histogramRows num e.name [] [] h
  | .histogramVec hv => hv.each.flatMap fun s => histogramRows num e.name hv.labels s.1 s.2

/-- One round of the loop of `WriteExposition`. -/
def writeEntry (num : NumberText β) (e : MetricEntry β) : Option (List String) :=
  ((e.rows num).mapM Row.write).map fun lines => writeHelpAndType e ++ lines

/-- `WriteExposition`. -/
def writeExposition (num : NumberText β) (entries : List (MetricEntry β)) :
    Option (List String) :=
  ((entries.mergeSort fun a b => a.name ≤ b.name).mapM (writeEntry num)).map List.flatten

end HootLb.Metrics
