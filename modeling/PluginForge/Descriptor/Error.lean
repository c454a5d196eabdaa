/-! What can go wrong when descriptors or documentation are read or stored. -/

namespace PluginForge

inductive DescriptorError where
  /-- A file or directory that cannot be read or written. -/
  | io (path : String)
  /-- Text that is no JSON or has not the right shape; a path if it comes from a file. -/
  | json (path : Option String)
  | duplicateType (name : String)
  deriving DecidableEq, Repr

def DescriptorError.message : DescriptorError → String
  | .io path => s!"io error at {path}"
  | .json none => "invalid json"
  | .json (some path) => s!"invalid json in {path}"
  | .duplicateType name => s!"type {name} is declared more than once"

end PluginForge
