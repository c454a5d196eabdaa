import PluginForge.Text.Alphanumeric
import PluginForge.Text.Blank
import PluginForge.Types.SourceType

/-!
Reading a type as descriptors write it. Blanks may stand between any two parts, but a wildcard's keyword
has to be followed by one.
-/

namespace PluginForge

inductive TypeFault where
  | noName | unclosedArguments | unclosedBrackets | noBound | trailing
  deriving DecidableEq, Repr

def TypeFault.message : TypeFault → String
  | .noName => "expected a type name"
  | .unclosedArguments => "unclosed type arguments"
  | .unclosedBrackets => "unclosed array brackets"
  | .noBound => "expected a wildcard bound"
  | .trailing => "trailing characters"

structure TypeSyntaxError where
  input : String
  fault : TypeFault
  deriving DecidableEq, Repr

def TypeSyntaxError.message (e : TypeSyntaxError) : String :=
  s!"invalid type `{e.input}`: {e.fault.message}"

namespace SourceType

open Text (dropBlanks isBlank)

def isNameChar (c : Char) : Bool := c = '.' || c = '_' || c = '$' || Text.isAlphanumeric c

/-- Counts the bracket pairs that follow and leaves what comes after them. The fuel bounds their number. -/
def bracketsWithin : Nat → List Char → Except TypeFault (Nat × List Char)
  | 0, cs => .ok (0, cs)
  | fuel + 1, cs =>
    match dropBlanks cs with
    | '[' :: rest =>
      match dropBlanks rest with
      | ']' :: rest => do
        let (more, rest) ← bracketsWithin fuel rest
        return (more + 1, rest)
      | _ => .error .unclosedBrackets
    | rest => .ok (0, rest)

/-- The keyword of a bounded wildcard and the type that such a bound makes. -/
def boundKeyword? (cs : List Char) : Option ((SourceType → SourceType) × List Char) :=
  match cs with
  | 'e' :: 'x' :: 't' :: 'e' :: 'n' :: 'd' :: 's' :: rest => some (.extending, rest)
  | 's' :: 'u' :: 'p' :: 'e' :: 'r' :: rest => some (.above, rest)
  | _ => none

mutual

def typeWithin : Nat → List Char → Except TypeFault (SourceType × List Char)
  | 0, _ => .error .noName
  | fuel + 1, cs =>
    match dropBlanks cs with
    | '?' :: rest =>
      match boundKeyword? (dropBlanks rest) with
      | none => .ok (.anything, dropBlanks rest)
      | some (bounded, rest) =>
        if (rest.head?.map isBlank).getD false then do
          let (bound, rest) ← typeWithin fuel rest
          return (bounded bound, rest)
        else .error .noBound
    | cs =>
      let name := cs.takeWhile isNameChar
      if name.isEmpty then .error .noName
      else do
        let (args, rest) ←
          match dropBlanks (cs.dropWhile isNameChar) with
          | '<' :: rest => argumentsWithin fuel rest
          | rest => pure ([], rest)
        let (dimensions, rest) ← bracketsWithin rest.length rest
        return (.named (String.ofList name) args dimensions, rest)

/-- The arguments up to the closing bracket, at least one. -/
def argumentsWithin : Nat → List Char → Except TypeFault (List SourceType × List Char)
  | 0, _ => .error .unclosedArguments
  | fuel + 1, cs => do
    let (arg, rest) ← typeWithin fuel cs
    match dropBlanks rest with
    | ',' :: rest => do
      let (args, rest) ← argumentsWithin fuel rest
      return (arg :: args, rest)
    | '>' :: rest => return ([arg], rest)
    | _ => .error .unclosedArguments

end

/-- Reads a whole text as a type. Every second call takes a character, which bounds the fuel. -/
def parse (input : String) : Except TypeSyntaxError SourceType :=
  let cs := input.toList
  match typeWithin (2 * cs.length + 2) cs with
  | .error fault => .error ⟨input, fault⟩
  | .ok (ty, rest) => if (dropBlanks rest).isEmpty then .ok ty else .error ⟨input, .trailing⟩

end SourceType

end PluginForge
