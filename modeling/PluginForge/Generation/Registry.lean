import PluginForge.Code.Object
import PluginForge.Generation.Conversion
import PluginForge.Unseen

/-! The copies made during one generation pass, by the name of the type they are copies of. -/

namespace PluginForge

/-- A copy of a model type with the method that converts it back. -/
structure Replica where
  definition : ObjectDef
  source : SourceType
  converter : MethodDef
  ty : TypeRef
  deriving Repr

structure Registry.Entry where
  ty : TypeRef
  converter : String
  source : TypeRef
  /-- Absent while the copy is still being made. -/
  replica : Option Replica := none
  /-- The model types that the copy relies on directly. -/
  deps : List String := []

/-- The copy that an entry stands for, as generated code refers to it. -/
def Registry.Entry.reference (e : Registry.Entry) : ReplicaRef := ⟨e.ty, .model e.converter e.source⟩

/-- Entries in the order in which their copies were begun. -/
structure Registry where
  entries : List (String × Registry.Entry) := []

namespace Registry

def find? (r : Registry) (name : String) : Option Entry := r.entries.lookup name

def size (r : Registry) : Nat := r.entries.length

def isEmpty (r : Registry) : Bool := r.entries.isEmpty

/-- Adds an entry for a copy that is about to be made. -/
def reserve (r : Registry) (name : String) (entry : Entry) : Registry := ⟨r.entries ++ [(name, entry)]⟩

def complete (r : Registry) (name : String) (replica : Replica) (deps : List String) : Registry :=
  ⟨r.entries.map fun e =>
    if e.1 = name then (e.1, { e.2 with replica := some replica, deps }) else e⟩

def forget (r : Registry) (name : String) : Registry := ⟨r.entries.filter (·.1 != name)⟩

/-- The finished copy of a type. -/
def replica? (r : Registry) (name : String) : Option Replica := do (← r.find? name).replica

/-- All finished copies. -/
def replicas (r : Registry) : List Replica := r.entries.filterMap (·.2.replica)

/-- The finished copies of the given types. -/
def replicasOf (r : Registry) (names : List String) : List Replica :=
  (r.entries.filter fun e => names.contains e.1).filterMap (·.2.replica)

/-- Adds names and everything their copies rely on, at any distance, to the names touched so far. -/
def touchAll (r : Registry) (pending : List String) (touched : List String) : List String :=
  match pending with
  | [] => touched
  | name :: rest =>
    match fresh : touched.contains name with
    | true => r.touchAll rest touched
    | false =>
      match found : r.find? name with
      | none => r.touchAll rest (name :: touched)
      | some entry =>
        have _fewer := unseen_cons_lt found fresh
        r.touchAll (entry.deps ++ rest) (name :: touched)
termination_by ((unseen r.entries touched).length, pending.length)
decreasing_by
  · exact Prod.Lex.right _ (by simp)
  · rcases Nat.lt_or_eq_of_le (unseen_cons_le r.entries name touched) with fewer | equal
    · exact Prod.Lex.left _ _ fewer
    · rw [equal]
      exact Prod.Lex.right _ (by simp)
  · exact Prod.Lex.left _ _ _fewer

end Registry

end PluginForge
