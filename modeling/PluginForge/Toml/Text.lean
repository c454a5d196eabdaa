import PluginForge.Json.Reader

/-!
Texts in TOML: between quotation marks with escapes or between apostrophes without, on one line or, after
three of either, on several.
-/

namespace PluginForge.Toml

def isBlank (c : Char) : Bool := c = ' ' || c = '\t'

def skipBlanks (cs : List Char) : List Char := cs.dropWhile isBlank

/-- Whether a character may stand for itself in comments and quoted texts. -/
def isPlain (c : Char) : Bool := c = '\t' || (32 ≤ c.toNat && c.toNat ≠ 127)

def newline? : List Char → Option (List Char)
  | '\n' :: rest => some rest
  | '\r' :: '\n' :: rest => some rest
  | _ => none

private def codeChar? (code : Nat) : Option Char :=
  if code < 0xD800 ∨ (0xDFFF < code ∧ code < 0x110000) then some (Char.ofNat code) else none

private def hexNumber? (digits : List Char) : Option Nat :=
  digits.foldlM (fun value c => (Json.hexValue? c).map (16 * value + ·)) 0

/-- What follows the backslash of an escape. -/
def escape? : List Char → Option (Char × List Char)
  | 'b' :: rest => some ('\x08', rest)
  | 't' :: rest => some ('\t', rest)
  | 'n' :: rest => some ('\n', rest)
  | 'f' :: rest => some ('\x0c', rest)
  | 'r' :: rest => some ('\r', rest)
  | '"' :: rest => some ('"', rest)
  | '\\' :: rest => some ('\\', rest)
  | 'u' :: a :: b :: c :: d :: rest => do return (← codeChar? (← hexNumber? [a, b, c, d]), rest)
  | 'U' :: a :: b :: c :: d :: e :: f :: g :: h :: rest => do
    return (← codeChar? (← hexNumber? [a, b, c, d, e, f, g, h]), rest)
  | _ => none

/-- Drops blanks and line ends. -/
def skipSpace : List Char → List Char
  | '\r' :: '\n' :: rest => skipSpace rest
  | c :: rest => if isBlank c || c = '\n' then skipSpace rest else c :: rest
  | [] => []

/-- A line that ends in a backslash goes on at the next character that is neither blank nor line end. -/
def foldedLine? (cs : List Char) : Option (List Char) := (newline? (skipBlanks cs)).map skipSpace

/-- The rest of a text up to its quotes. `escapes` tells quotation marks from apostrophes, and `lines`
whether the text may span lines and ends at three quotes. The fuel bounds the characters read. -/
def quotedWithin (quote : Char) (escapes lines : Bool) : Nat → List Char → Option (List Char × List Char)
  | 0, _ => none
  | fuel + 1, cs =>
    let next (rest : List Char) (taken : List Char) : Option (List Char × List Char) :=
      (quotedWithin quote escapes lines fuel rest).map fun (body, rest) => (taken ++ body, rest)
    match cs with
    | [] => none
    | c :: rest =>
      if c = quote then
        if !lines then some ([], rest)
        else
          let run := cs.takeWhile (· == quote)
          if run.length < 3 then next rest [quote]
          else if run.length ≤ 5 then some (run.drop 3, cs.drop run.length)
          else none
      else if c = '\\' ∧ escapes then
        match (if lines then foldedLine? rest else none) with
        | some rest => next rest []
        | none => do
          let (escaped, rest) ← escape? rest
          next rest [escaped]
      else if isPlain c then next rest [c]
      else if lines then do
        let rest ← newline? cs
        next rest ['\n']
      else none

def quoted? (quote : Char) (escapes lines : Bool) (cs : List Char) : Option (String × List Char) :=
  (quotedWithin quote escapes lines (cs.length + 1) cs).map fun (body, rest) => (String.ofList body, rest)

/-- A line end right after the opening quotes is no part of the text. -/
private def afterOpening (cs : List Char) : List Char := (newline? cs).getD cs

def text? : List Char → Option (String × List Char)
  | '"' :: '"' :: '"' :: rest => quoted? '"' true true (afterOpening rest)
  | '"' :: rest => quoted? '"' true false rest
  | '\'' :: '\'' :: '\'' :: rest => quoted? '\'' false true (afterOpening rest)
  | '\'' :: rest => quoted? '\'' false false rest
  | _ => none

end PluginForge.Toml
