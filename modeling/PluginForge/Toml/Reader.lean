import PluginForge.Toml.Moment
import PluginForge.Toml.Number
import PluginForge.Toml.Text

/-!
Reading TOML. Settings hold no lists of tables, so a header in double brackets is a mistake like any other.
-/

namespace PluginForge.Toml

/-! Keys -/

def isKeyChar (c : Char) : Bool := c.isAlphanum || c = '_' || c = '-'

def simpleKey? : List Char → Option (String × List Char)
  | '"' :: rest => quoted? '"' true false rest
  | '\'' :: rest => quoted? '\'' false false rest
  | cs =>
    let key := cs.takeWhile isKeyChar
    if key.isEmpty then none else some (String.ofList key, cs.dropWhile isKeyChar)

/-- How deep lists and tables in braces are nested at most, and how many parts a key has at most. -/
def nestingLimit : Nat := 79

/-- A key of at least one part. The fuel bounds the number of parts. -/
def keyWithin : Nat → List Char → Option (List String × List Char)
  | 0, _ => none
  | fuel + 1, cs => do
    let (part, rest) ← simpleKey? (skipBlanks cs)
    match skipBlanks rest with
    | '.' :: rest => do
      let (parts, rest) ← keyWithin fuel rest
      return (part :: parts, rest)
    | rest => return ([part], rest)

def key? (cs : List Char) : Option (List String × List Char) := keyWithin nestingLimit cs

/-! Values -/

/-- Drops a comment up to the end of its line, unless it holds a control character. -/
def skipComment? : List Char → Option (List Char)
  | '#' :: rest =>
    match rest.dropWhile isPlain with
    | [] => some []
    | cs => (newline? cs).map fun _ => cs
  | cs => some cs

/-- Drops blanks, comments and line ends. The fuel bounds the number of lines. -/
def skipLinesWithin : Nat → List Char → Option (List Char)
  | 0, cs => some cs
  | fuel + 1, cs => do
    let rest ← skipComment? (skipBlanks cs)
    match newline? rest with
    | some rest => skipLinesWithin fuel rest
    | none => return rest

def skipLines? (cs : List Char) : Option (List Char) := skipLinesWithin (cs.length + 1) cs

def scalar? (cs : List Char) : Option (Toml × List Char) :=
  match cs with
  | 't' :: 'r' :: 'u' :: 'e' :: rest => some (.truth true, rest)
  | 'f' :: 'a' :: 'l' :: 's' :: 'e' :: rest => some (.truth false, rest)
  | _ =>
    match text? cs, moment? cs with
    | some (value, rest), _ => some (.text value, rest)
    | none, some (value, rest) => some (.moment value, rest)
    | none, none => number? cs

mutual

/-- A value in which lists and tables are nested `depth` deep at most. -/
def valueWithin : Nat → Nat → List Char → Option (Toml × List Char)
  | 0, _, _ => none
  | fuel + 1, depth, cs =>
    match cs with
    | '[' :: rest => do
      guard (0 < depth)
      let (items, rest) ← itemsWithin fuel (depth - 1) rest
      return (.list items, rest)
    | '\x7b' :: rest => do
      guard (0 < depth)
      match skipBlanks rest with
      | '\x7d' :: rest => return (.table .inline [], rest)
      | rest =>
        let (entries, rest) ← pairsWithin fuel (depth - 1) [] rest
        return (.table .inline entries, rest)
    | _ => scalar? cs

/-- The items of a list up to its closing bracket. A comma may follow the last. -/
def itemsWithin : Nat → Nat → List Char → Option (List Toml × List Char)
  | 0, _, _ => none
  | fuel + 1, depth, cs => do
    match ← skipLines? cs with
    | ']' :: rest => return ([], rest)
    | rest => do
      let (item, rest) ← valueWithin fuel depth rest
      match ← skipLines? rest with
      | ',' :: rest => do
        let (items, rest) ← itemsWithin fuel depth rest
        return (item :: items, rest)
      | ']' :: rest => return ([item], rest)
      | _ => none

/-- The pairs of a table in braces, at least one, added to the entries before them. -/
def pairsWithin : Nat → Nat → Entries → List Char → Option (Entries × List Char)
  | 0, _, _, _ => none
  | fuel + 1, depth, entries, cs => do
    let (key, rest) ← key? cs
    match rest with
    | '=' :: rest => do
      let (value, rest) ← valueWithin fuel depth (skipBlanks rest)
      let entries ← assign? key value entries
      match skipBlanks rest with
      | ',' :: rest => pairsWithin fuel depth entries rest
      | '\x7d' :: rest => return (entries, rest)
      | _ => none
    | _ => none

end

/-- A value. Every second call takes a character, which bounds the fuel. -/
def value? (cs : List Char) : Option (Toml × List Char) :=
  valueWithin (2 * cs.length + 2) nestingLimit (skipBlanks cs)

/-! Documents -/

/-- Blanks and a comment may follow on the line. -/
private def lineEnd? (cs : List Char) : Option (List Char) := do
  match ← skipComment? (skipBlanks cs) with
  | [] => return []
  | rest => newline? rest

/-- The entries of a document, after those of the lines before. `current` is the path of the open table.
The fuel bounds the number of lines. -/
def documentWithin : Nat → List String → Entries → List Char → Option Entries
  | 0, _, _, _ => none
  | fuel + 1, current, entries, cs => do
    match ← skipLines? cs with
    | [] => return entries
    | '[' :: rest => do
      let (path, rest) ← key? rest
      match rest with
      | ']' :: rest => do
        documentWithin fuel path (← openTable? path entries) (← lineEnd? rest)
      | _ => none
    | rest => do
      let (key, rest) ← key? rest
      match rest with
      | '=' :: rest => do
        let (value, rest) ← value? rest
        documentWithin fuel current (← within? current (assign? key value) entries) (← lineEnd? rest)
      | _ => none

/-- The top-level entries of a whole text, which may start with a byte order mark. -/
def read? (text : String) : Option Entries :=
  let cs := match text.toList with
    | '\uFEFF' :: rest => rest
    | cs => cs
  documentWithin (cs.length + 1) [] [] cs

end PluginForge.Toml
