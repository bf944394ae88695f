import MixerRouting.Toml.Assembly
import MixerRouting.Toml.Lexeme

/-!
# Reading a settings text

Values, lines and the whole text of TOML 1.0. Arrays and tables in braces
nest to a limited depth, keys have a limited number of parts. The nesting
readers also take fuel, of which every character is worth two units.
-/
namespace MixerRouting.Toml

/-- How many values may be nested in one another, and how many parts a key may have. -/
def maxDepth : Nat := 79

mutual

/-- A value with at most `depth` brackets or braces around each other. -/
def readValue : Nat → Nat → List Char → Option (TomlValue × List Char)
  | 0, _, _ => none
  | fuel + 1, depth, s =>
    match s with
    | '"' :: _ | '\x27' :: _ => (readString s).map fun (x, rest) => (.string x, rest)
    | '[' :: rest =>
      match depth, skipLines false rest with
      | 0, _ => none
      | _ + 1, ']' :: rest => some (.array [], rest)
      | depth + 1, rest =>
        (readItems fuel depth rest).map fun (items, rest) => (.array items, rest)
    | '\x7b' :: rest =>
      match depth, skipBlanks rest with
      | 0, _ => none
      | _ + 1, '\x7d' :: rest => some (.table [], rest)
      | depth + 1, rest => do
        let (pairs, rest) ← readPairs fuel depth rest
        return (← inlineTable? pairs, rest)
    | 't' :: 'r' :: 'u' :: 'e' :: rest => some (.boolean true, rest)
    | 'f' :: 'a' :: 'l' :: 's' :: 'e' :: rest => some (.boolean false, rest)
    | _ =>
      if startsDate s || startsTime s then do
        let rest ← readDateTime s
        return (.dateTime (String.ofList (s.take (s.length - rest.length))), rest)
      else readNumber s

/-- The items of an array up to its closing bracket; at least one. -/
def readItems : Nat → Nat → List Char → Option (List TomlValue × List Char)
  | 0, _, _ => none
  | fuel + 1, depth, s =>
    match readValue fuel depth s with
    | none => none
    | some (v, rest) =>
      match skipLines false rest with
      | ']' :: rest => some ([v], rest)
      | ',' :: rest =>
        match skipLines false rest with
        | ']' :: rest => some ([v], rest)
        | rest => (readItems fuel depth rest).map fun (items, rest) => (v :: items, rest)
      | _ => none

/-- The pairs of a table in braces up to the closing one; at least one. -/
def readPairs : Nat → Nat → List Char → Option (List (List String × TomlValue) × List Char)
  | 0, _, _ => none
  | fuel + 1, depth, s =>
    match readKey maxDepth s with
    | none => none
    | some (path, rest) =>
      match rest with
      | '=' :: rest =>
        match readValue fuel depth (skipBlanks rest) with
        | none => none
        | some (v, rest) =>
          match skipBlanks rest with
          | '\x7d' :: rest => some ([(path, v)], rest)
          | ',' :: rest =>
            (readPairs fuel depth rest).map fun (pairs, rest) => ((path, v) :: pairs, rest)
          | _ => none
      | _ => none

end

/-- What a line says. -/
inductive Line where
  | blank
  | pair (path : List String) (v : TomlValue)
  | table (path : List String)
  | row (path : List String)

/-- The next line of a text that has not ended. -/
def readLine (s : List Char) : Option (Line × List Char) := do
  match skipBlanks s with
  | [] => return (.blank, [])
  | '#' :: rest => return (.blank, ← endLine ('#' :: rest))
  | '\n' :: rest => return (.blank, rest)
  | '\r' :: rest => return (.blank, ← readNewline ('\r' :: rest))
  | '[' :: '[' :: rest =>
    let (path, rest) ← readKey maxDepth rest
    match rest with
    | ']' :: ']' :: rest => return (.row path, ← endLine rest)
    | _ => none
  | '[' :: rest =>
    let (path, rest) ← readKey maxDepth rest
    match rest with
    | ']' :: rest => return (.table path, ← endLine rest)
    | _ => none
  | s =>
    let (path, rest) ← readKey maxDepth s
    match rest with
    | '=' :: rest =>
      let (v, rest) ← readValue (2 * rest.length + 2) maxDepth (skipBlanks rest)
      return (.pair path v, ← endLine rest)
    | _ => none

def readLines : Nat → List Char → Option (List Line)
  | _, [] => some []
  | 0, _ => none
  | fuel + 1, s => do
    let (line, rest) ← readLine s
    return line :: (← readLines fuel rest)

/-- A header and the pairs below it. The first section of a text has no header. -/
structure Section where
  header : Line
  pairs : List (List String × TomlValue)

/-- The pairs in front of the first header, and the sections after it. -/
def sections : List Line → List (List String × TomlValue) × List Section
  | [] => ([], [])
  | line :: rest =>
    let (pairs, later) := sections rest
    match line with
    | .blank => (pairs, later)
    | .pair path v => ((path, v) :: pairs, later)
    | header => ([], ⟨header, pairs⟩ :: later)

def Node.enterSection (n : Node) (part : Section) : Option Node :=
  match part.header with
  | .table path => n.enterTable path part.pairs
  | .row path => n.enterRow path part.pairs
  | _ => n.enterAll part.pairs

/-- The fields of the whole text. A byte order mark at its start does not count. -/
def parse? (text : String) : Option (List (String × TomlValue)) := do
  let s := match text.toList with
    | '\ufeff' :: rest => rest
    | s => s
  let (pairs, later) := sections (← readLines (s.length + 1) s)
  let top ← (Node.table .header []).enterAll pairs
  let top ← later.foldlM Node.enterSection top
  return Node.toFields top.fields

end MixerRouting.Toml
