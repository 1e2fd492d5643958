import HootLb.Native.GoString

/-!
# YAML parser

`internal/config/yaml.go`: source text to lines with their indentation, and lines
to a tree by recursive descent. The position in the list of lines is what is left
of the list. The three parsing functions take fuel, one unit per call or loop
round; `none` is running out of it, which no call by `parseYAML` does.
-/

namespace HootLb.Config

/-! ## Lines -/

/-- `rawLine`. -/
structure RawLine where
  indent : Nat
  content : GoString
  lineNo : Nat
  deriving DecidableEq

/-- The errors of the parser. -/
inductive YamlError where
  /-- `line %d: top-level content must start at column 0` -/
  | topLevel (lineNo : Nat)
  /-- `line %d: tab characters are not allowed for indentation, use spaces` -/
  | tab (lineNo : Nat)
  /-- `line %d: expected a mapping entry ("key: value"), got %q` -/
  | notEntry (lineNo : Nat) (content : GoString)
  /-- `line %d: empty key` -/
  | emptyKey (lineNo : Nat)
  deriving DecidableEq

/-- The loop of `stripComment`: what comes before the first `#` outside quotes. -/
def stripCommentFrom : Bool → Bool → GoString → GoString
  | _, _, [] => []
  | inSingle, inDouble, b :: rest =>
    if b = 39 then b :: stripCommentFrom (if inDouble then inSingle else !inSingle) inDouble rest
    else if b = 34 then
      b :: stripCommentFrom inSingle (if inSingle then inDouble else !inDouble) rest
    else if b = 35 ∧ ¬ inSingle ∧ ¬ inDouble then []
    else b :: stripCommentFrom inSingle inDouble rest

/-- `stripComment`. -/
def stripComment (line : GoString) : GoString := stripCommentFrom false false line

/-- `splitIndent`; `none` is the error about tabs. -/
def splitIndent (line : GoString) : Option (Nat × GoString) :=
  let content := line.dropWhile (· = 32)
  if content.head? = some 9 then none else some ((line.takeWhile (· = 32)).length, content)

/-- The loop of `preprocess` from a line number on. -/
def preprocessFrom : Nat → List GoString → Except YamlError (List RawLine)
  | _, [] => .ok []
  | lineNo, raw :: rest =>
    let trimmed := (stripComment (raw.trimRight [13])).trimRight [32, 9]
    if trimmed.trimSpace = [] then preprocessFrom (lineNo + 1) rest
    else
      match splitIndent trimmed with
      | none => .error (.tab lineNo)
      | some (indent, content) =>
        match preprocessFrom (lineNo + 1) rest with
        | .error e => .error e
        | .ok lines => .ok ({ indent, content := content.trimRight [32, 9], lineNo } :: lines)

/-- `preprocess`. -/
def preprocess (data : GoString) : Except YamlError (List RawLine) :=
  preprocessFrom 1 (data.splitOn 10)

/-- `isSeqItem`. -/
def isSeqItem (content : GoString) : Bool :=
  content = ascii "-" || content.hasPrefix (ascii "- ")

/-- `looksLikeMapEntry`. -/
def looksLikeMapEntry (s : GoString) : Bool := s.contains (ascii ":")

/-- `splitKeyVal`: the key and the inline value, if there is one. -/
def splitKeyVal (content : GoString) (lineNo : Nat) :
    Except YamlError (GoString × Option GoString) :=
  if 58 ∉ content then .error (.notEntry lineNo content)
  else
    let idx := (content.takeWhile (· ≠ 58)).length
    let key := GoString.trimSpace (content.take idx)
    if key = [] then .error (.emptyKey lineNo)
    else
      let val := GoString.trimSpace (content.drop (idx + 1))
      if val = [] then .ok (key, none) else .ok (key, some val)

/-- `parseScalar`. -/
def parseScalar (s : GoString) : GoString :=
  let s := s.trimSpace
  if s.length ≥ 2 ∧ (s.head? = some 34 ∧ s.getLast? = some 34 ∨
      s.head? = some 39 ∧ s.getLast? = some 39) then
    (s.drop 1).dropLast
  else s

/-! ## Trees -/

/-- The generic tree: `nil`, a string, a slice or a map. A map is a list of
    entries with distinct keys. -/
inductive Yaml where
  | null
  | scalar (text : GoString)
  | seq (items : List Yaml)
  | map (entries : List (GoString × Yaml))

/-- `m[key] = val`. -/
def assign (m : List (GoString × Yaml)) (key : GoString) (val : Yaml) : List (GoString × Yaml) :=
  if key ∈ m.map Prod.fst then m.map fun e => if e.1 = key then (key, val) else e
  else m ++ [(key, val)]

/-! ## Recursive descent -/

/-- What a parsing function returns: `none` without enough fuel, an error, or a
    value and the lines that are left. -/
abbrev Parsed (α : Type) := Option (Except YamlError (α × List RawLine))

/-- Go on with the value and the lines that are left. -/
def Parsed.andThen {α β : Type} (r : Parsed α) (next : α → List RawLine → Parsed β) : Parsed β :=
  match r with
  | none => none
  | some (.error e) => some (.error e)
  | some (.ok (a, rest)) => next a rest

/-- The text of a sequence item after its dash. -/
def itemText (content : GoString) : GoString := (content.trimPrefix (ascii "-")).trimSpace

mutual

/-- `parseValue`. -/
def parseValue : Nat → List RawLine → Nat → Parsed Yaml
  | 0, _, _ => none
  | _ + 1, [], _ => some (.ok (.null, []))
  | fuel + 1, l :: rest, indent =>
    if isSeqItem l.content then
      Parsed.andThen (parseSequence fuel (l :: rest) indent []) fun items rest =>
        some (.ok (.seq items, rest))
    else
      Parsed.andThen (parseMapping fuel (l :: rest) indent []) fun m rest =>
        some (.ok (.map m, rest))

/-- `parseMapping`; `m` is the map so far. -/
def parseMapping : Nat → List RawLine → Nat → List (GoString × Yaml) →
    Parsed (List (GoString × Yaml))
  | 0, _, _, _ => none
  | _ + 1, [], _, m => some (.ok (m, []))
  | fuel + 1, l :: rest, indent, m =>
    if l.indent ≠ indent then some (.ok (m, l :: rest))
    -- a sequence item ends the mapping and is left to the caller
    else if isSeqItem l.content then some (.ok (m, l :: rest))
    else
      match splitKeyVal l.content l.lineNo with
      | .error e => some (.error e)
      | .ok (key, some val) =>
        parseMapping fuel rest indent (assign m key (.scalar (parseScalar val)))
      | .ok (key, none) =>
        match rest with
        | [] => parseMapping fuel [] indent (assign m key (.scalar []))
        | next :: more =>
          if next.indent > indent then
            Parsed.andThen (parseValue fuel (next :: more) next.indent) fun val rest =>
              parseMapping fuel rest indent (assign m key val)
          else if next.indent = indent ∧ isSeqItem next.content then
            Parsed.andThen (parseSequence fuel (next :: more) indent []) fun items rest =>
              parseMapping fuel rest indent (assign m key (.seq items))
          else parseMapping fuel (next :: more) indent (assign m key (.scalar []))

/-- `parseSequence`; `result` is the slice so far. -/
def parseSequence : Nat → List RawLine → Nat → List Yaml → Parsed (List Yaml)
  | 0, _, _, _ => none
  | _ + 1, [], _, result => some (.ok (result, []))
  | fuel + 1, l :: rest, indent, result =>
    if l.indent ≠ indent ∨ ¬ isSeqItem l.content then some (.ok (result, l :: rest))
    else
      let text := itemText l.content
      if text = [] then
        match rest with
        | [] => parseSequence fuel [] indent (result ++ [.null])
        | next :: more =>
          if next.indent > indent then
            Parsed.andThen (parseValue fuel (next :: more) next.indent) fun val rest =>
              parseSequence fuel rest indent (result ++ [val])
          else parseSequence fuel (next :: more) indent (result ++ [.null])
      else if looksLikeMapEntry text then
        let itemIndent := indent + 2
        let first : RawLine := { indent := itemIndent, content := text, lineNo := l.lineNo }
        let sub := rest.takeWhile fun l => l.indent ≥ itemIndent
        -- where the mapping stops in its lines is not looked at
        Parsed.andThen (parseMapping fuel (first :: sub) itemIndent []) fun m _ =>
          parseSequence fuel (rest.drop sub.length) indent (result ++ [.map m])
      else parseSequence fuel rest indent (result ++ [.scalar (parseScalar text)])

end

/-- `parseYAML`. -/
def parseYAML (data : GoString) : Option (Except YamlError (List (GoString × Yaml))) :=
  match preprocess data with
  | .error e => some (.error e)
  | .ok [] => some (.ok [])
  | .ok (l :: rest) =>
    if l.indent ≠ 0 then some (.error (.topLevel l.lineNo))
    else
      match parseMapping (3 * (l :: rest).length + 1) (l :: rest) 0 [] with
      | none => none
      | some (.error e) => some (.error e)
      -- nor is where the top level stops
      | some (.ok (m, _)) => some (.ok m)

end HootLb.Config
