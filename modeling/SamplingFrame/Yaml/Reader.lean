import SamplingFrame.Yaml.Scalar

/-!
# Reading YAML documents

The part of YAML in which configurations are written: mappings and lists, by indentation or in
brackets, of plain and quoted texts and of blocks of lines. Anchors, tags and complex keys are
refused.
-/

namespace SamplingFrame.Yaml

open Text (Scanner)

/-! ### Values in brackets -/

/-- A text without the blanks, line breaks and comments at its start. -/
def skipFlow : Nat → List Char → List Char
  | 0, cs => cs
  | fuel + 1, cs =>
    match cs.dropWhile fun c => isBlank c || c = '\n' with
    | '#' :: rest => skipFlow fuel (rest.dropWhile (· ≠ '\n'))
    | rest => rest

/-- A text without the blanks, line breaks and comments at its start. -/
def skip (cs : List Char) : List Char := skipFlow cs.length cs

/-- The characters that end a plain text in brackets. -/
def flowStops : List Char := [',', '[', ']', '\x7b', '\x7d']

/-- A key in brackets. -/
def scanFlowKey : Scanner String := fun cs =>
  match scanQuoted cs with
  | some found => some found
  | none => (scanPlain flowStops cs).map fun (key, rest) => (String.ofList key, rest)

mutual

/-- A value in brackets. -/
def scanFlow : Nat → Scanner Setting
  | 0, _ => none
  | fuel + 1, cs =>
    match cs with
    | '[' :: rest => (scanFlowItems fuel (skip rest)).map fun (items, rest) => (.list items, rest)
    | '\x7b' :: rest =>
      (scanFlowEntries fuel [] (skip rest)).map fun (es, rest) => (.table es, rest)
    | cs =>
      match scanQuoted cs with
      | some (s, rest) => some (.text s, rest)
      | none => do
        let (text, rest) ← scanPlain flowStops cs
        return (← plainValue? text, rest)

/-- The items of a list, up to its closing bracket. -/
def scanFlowItems : Nat → Scanner (List Setting)
  | 0, _ => none
  | fuel + 1, cs =>
    match cs with
    | ']' :: rest => some ([], rest)
    | cs => do
      let (v, rest) ← scanFlow fuel cs
      match skip rest with
      | ',' :: rest => do
        let (vs, rest) ← scanFlowItems fuel (skip rest)
        return (v :: vs, rest)
      | ']' :: rest => return ([v], rest)
      | _ => none

/-- The entries of a mapping, up to its closing brace; a key may have no value. -/
def scanFlowEntries : Nat → List (String × Setting) → Scanner (List (String × Setting))
  | 0, _, _ => none
  | fuel + 1, es, cs =>
    match cs with
    | '\x7d' :: rest => some (es, rest)
    | cs => do
      let (key, rest) ← scanFlowKey cs
      guard (Setting.find? key es).isNone
      let (v, rest) ← match skip rest with
        | ':' :: rest =>
          match skip rest with
          | ',' :: rest => some (.nil, ',' :: rest)
          | '\x7d' :: rest => some (.nil, '\x7d' :: rest)
          | rest => scanFlow fuel rest
        | rest => some (.nil, rest)
      let es := Setting.put key v es
      match skip rest with
      | ',' :: rest => scanFlowEntries fuel es (skip rest)
      | '\x7d' :: rest => return (es, rest)
      | _ => none

end

/-! ### Lines -/

/-- A line without the spaces at its start, which are counted, and without the blanks at its end. -/
structure Line where
  indent : Nat
  text : List Char

/-- The line that a text is. -/
def Line.ofText (cs : List Char) : Line :=
  let indent := (cs.takeWhile (· = ' ')).length
  let text := (cs.drop indent).reverse.dropWhile fun c => isBlank c || c = '\r'
  ⟨indent, text.reverse⟩

/-- The text of a line, with the spaces at its start. -/
def Line.toText (l : Line) : List Char := List.replicate l.indent ' ' ++ l.text

/-- Lines without those at the start that hold nothing but a comment. -/
def skipBare (ls : List Line) : List Line := ls.dropWhile fun l => isBare l.text

/-- Whether a line is an item of a list. -/
def isItem (l : Line) : Bool :=
  match l.text with
  | ['-'] => true
  | '-' :: c :: _ => isBlank c
  | _ => false

/-- Splits a line at the mark after its key. -/
def splitKey? (cs : List Char) : Option (String × List Char) := do
  let (key, rest) ← match scanQuoted cs with
    | some found => some found
    | none => (scanPlain [] cs).map fun (key, rest) => (String.ofList key, rest)
  match rest.dropWhile isBlank with
  | ':' :: rest => if rest.head?.all isBlank then return (key, rest.dropWhile isBlank) else none
  | _ => none

/-- How the line break at the end of a block of lines is treated. -/
inductive Chomping where
  | clip
  | strip
  | keep
  deriving DecidableEq, Repr

/-- What the header of a block says, after its mark. -/
def chomping? (cs : List Char) : Option Chomping :=
  match cs with
  | '-' :: rest => if isBare rest then some .strip else none
  | '+' :: rest => if isBare rest then some .keep else none
  | rest => if isBare rest then some .clip else none

/-- The lines of a block, of which the first one that is not empty sets the indentation, and the
lines after it. -/
def splitBlock (least : Nat) (ls : List Line) : List (List Char) × List Line :=
  let first := (ls.find? (!·.text.isEmpty)).elim 0 (·.indent)
  let isInside (l : Line) : Bool := l.text.isEmpty || (least ≤ l.indent && first ≤ l.indent)
  ((ls.takeWhile isInside).map fun l => l.toText.drop first, ls.dropWhile isInside)

/-- Joins the lines of a block, all with line breaks, or with spaces where no line is empty. -/
def joinBlock (folded : Bool) : List (List Char) → List Char
  | [] => []
  | [l] => l
  | l :: next :: ls =>
    let separator :=
      if !folded || next.isEmpty then ['\n'] else if l.isEmpty then [] else [' ']
    l ++ separator ++ joinBlock folded (next :: ls)

/-- The text of a block. -/
def blockText (folded : Bool) (chomping : Chomping) (ls : List (List Char)) : String :=
  let body := (ls.reverse.dropWhile (·.isEmpty)).reverse
  let text := joinBlock folded body
  let ending := match chomping with
    | .strip => []
    | .clip => if body.isEmpty then [] else ['\n']
    | .keep => List.replicate (ls.length - body.length + (if body.isEmpty then 0 else 1)) '\n'
  String.ofList (text ++ ending)

/-- The value that starts within a line; `least` is the least indentation of the lines that may
belong to it. -/
def readInline (least : Nat) (cs : List Char) (ls : List Line) : Option (Setting × List Line) :=
  let whole (scanned : Option (Setting × List Char)) : Option (Setting × List Line) := do
    let (v, rest) ← scanned
    if isBare rest then return (v, ls) else none
  match cs with
  | '"' :: _ | '\'' :: _ => whole ((scanQuoted cs).map fun (s, rest) => (.text s, rest))
  | '[' :: _ | '\x7b' :: _ => do
    let all := cs ++ ls.flatMap fun l => '\n' :: l.toText
    let (v, rest) ← scanFlow (2 * all.length + 1) all
    guard (isBare (rest.takeWhile (· ≠ '\n')))
    return (v, ls.drop (ls.length - rest.count '\n'))
  | '|' :: rest | '>' :: rest => do
    let chomping ← chomping? rest
    let (block, after) := splitBlock least ls
    return (.text (blockText (cs.head? == some '>') chomping block), after)
  | cs => do
    let more := ls.takeWhile fun l => !isBare l.text && least ≤ l.indent
    let all := cs ++ more.flatMap fun l => ' ' :: l.text
    let (text, rest) ← scanPlain [] all
    guard (isBare rest)
    return (← plainValue? text, ls.drop more.length)

mutual

/-- The value of the lines that are indented at least so far; nothing if there are none. -/
def readBlock : Nat → Nat → List Line → Option (Setting × List Line)
  | 0, _, _ => none
  | fuel + 1, least, ls =>
    match skipBare ls with
    | [] => some (.nil, [])
    | l :: ls =>
      if l.indent < least then some (.nil, l :: ls)
      else if isItem l then
        (readItems fuel l.indent (l :: ls)).map fun (items, ls) => (.list items, ls)
      else if (splitKey? l.text).isSome then
        (readEntries fuel l.indent [] (l :: ls)).map fun (es, ls) => (.table es, ls)
      else readInline least l.text ls

/-- The items of a list of some indentation. -/
def readItems : Nat → Nat → List Line → Option (List Setting × List Line)
  | 0, _, _ => none
  | fuel + 1, indent, ls =>
    match skipBare ls with
    | [] => some ([], [])
    | l :: ls =>
      if l.indent < indent || (l.indent = indent && !isItem l) then some ([], l :: ls)
      else if indent < l.indent then none
      else do
        let inner := l.text.drop 1
        let content := inner.dropWhile isBlank
        let item : Line := ⟨indent + 1 + (inner.length - content.length), content⟩
        let (v, ls) ← readBlock fuel (indent + 1) (item :: ls)
        let (vs, ls) ← readItems fuel indent ls
        return (v :: vs, ls)

/-- The entries of a mapping of some indentation; each key is given once. A list that is a value
may stand as far left as the key. -/
def readEntries : Nat → Nat → List (String × Setting) → List Line →
    Option (List (String × Setting) × List Line)
  | 0, _, _, _ => none
  | fuel + 1, indent, es, ls =>
    match skipBare ls with
    | [] => some (es, [])
    | l :: ls =>
      if l.indent < indent then some (es, l :: ls)
      else if indent < l.indent then none
      else do
        let (key, value) ← splitKey? l.text
        guard (Setting.find? key es).isNone
        let (v, ls) ←
          if !isBare value then readInline (indent + 1) value ls
          else if (skipBare ls).head?.any fun l => l.indent = indent && isItem l then
            (readItems fuel indent ls).map fun (items, ls) => (Setting.list items, ls)
          else readBlock fuel (indent + 1) ls
        readEntries fuel indent (Setting.put key v es) ls

end

/-- Whether a line starts a document. -/
def isStart (l : Line) : Bool := l.indent = 0 && l.text = "---".toList

/-- Whether a line ends a document. -/
def isEnd (l : Line) : Bool := l.indent = 0 && l.text = "...".toList

/-- The lines of a document, which may have directives before its start, and nothing after its
end. -/
def body? (ls : List Line) : Option (List Line) :=
  let ls := skipBare ls
  let directives := ls.takeWhile fun l => l.indent = 0 && l.text.head? = some '%'
  let ls := skipBare (ls.drop directives.length)
  let started := ls.head?.any isStart
  let ls := if started then ls.drop 1 else ls
  let body := ls.takeWhile (!isEnd ·)
  if (directives.isEmpty || started) && !body.any isStart &&
      (skipBare (ls.drop (body.length + 1))).isEmpty then some body
  else none

/-- The entries of a document that holds one mapping; an empty document has none. -/
def read? (cs : List Char) : Option (List (String × Setting)) := do
  let lines := (cs.splitOn '\n').map Line.ofText
  if (skipBare lines).isEmpty then return []
  match ← readBlock (2 * cs.length + 2) 0 (← body? lines) with
  | (.table es, rest) => if (skipBare rest).isEmpty then return es else none
  | _ => none

end SamplingFrame.Yaml
