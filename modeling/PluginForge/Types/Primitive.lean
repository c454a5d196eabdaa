/-! The primitive types of the virtual machine and the classes that box their values. -/

namespace PluginForge

inductive Primitive where
  | boolean | byte | short | char | int | long | float | double
  deriving DecidableEq, Repr

namespace Primitive

def all : List Primitive := [.boolean, .byte, .short, .char, .int, .long, .float, .double]

def keyword : Primitive → String
  | .boolean => "boolean"
  | .byte => "byte"
  | .short => "short"
  | .char => "char"
  | .int => "int"
  | .long => "long"
  | .float => "float"
  | .double => "double"

def wrapper : Primitive → String
  | .boolean => "java.lang.Boolean"
  | .byte => "java.lang.Byte"
  | .short => "java.lang.Short"
  | .char => "java.lang.Character"
  | .int => "java.lang.Integer"
  | .long => "java.lang.Long"
  | .float => "java.lang.Float"
  | .double => "java.lang.Double"

def ofKeyword? (word : String) : Option Primitive := all.find? (·.keyword == word)

/-- The primitive that a wrapper class boxes. -/
def ofWrapper? (className : String) : Option Primitive := all.find? (·.wrapper == className)

theorem ofKeyword?_keyword (p : Primitive) : ofKeyword? p.keyword = some p := by cases p <;> rfl

theorem ofWrapper?_wrapper (p : Primitive) : ofWrapper? p.wrapper = some p := by cases p <;> rfl

end Primitive

end PluginForge
