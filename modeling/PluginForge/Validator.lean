import PluginForge.Generation.TaskPlan
import PluginForge.Store.Basic
import PluginForge.Unseen

/-!
Validators. A task type that passes has its documentation stored, and so has every model type that its
properties lead to, each once in a pass.
-/

namespace PluginForge

structure Validator where
  /-- The types that documentation was stored for, or was about to be. -/
  processed : List String := []

namespace Validator

/-- Begins a new pass: every type may be stored again. -/
def start (_ : Validator) : Validator := {}

variable {σ : Type}

/-- Stores the documentation of the model types among the given types and of those that their properties
lead to, each type before what follows from it. A failed write stops it. -/
def storeModels (catalog : Catalog) (store : DocStore σ) (pending : List SourceType) (processed : List String)
    (docs : σ) : Except GenerateError Unit × List String × σ :=
  match pending with
  | [] => (.ok (), processed, docs)
  | ty :: rest =>
    match fresh : processed.contains ty.name with
    | true => storeModels catalog store rest processed docs
    | false =>
      if !catalog.isModel ty then storeModels catalog store rest processed docs
      else match found : catalog.load? ty.name with
        | none => storeModels catalog store rest (ty.name :: processed) docs
        | some d =>
          have _fewer := unseen_cons_lt found fresh
          match store.write docs d.name d.javadoc with
          | (.error e, docs) => (.error (.javadoc d.name e), ty.name :: processed, docs)
          | (.ok (), docs) =>
            storeModels catalog store (d.properties.map (·.ty) ++ rest) (ty.name :: processed) docs
termination_by ((unseen catalog.classes.entries processed).length, pending.length)
decreasing_by
  · exact Prod.Lex.right _ (by simp)
  · exact Prod.Lex.right _ (by simp)
  · rcases Nat.lt_or_eq_of_le (unseen_cons_le catalog.classes.entries ty.name processed) with fewer | equal
    · exact Prod.Lex.left _ _ fewer
    · rw [equal]
      exact Prod.Lex.right _ (by simp)
  · exact Prod.Lex.left _ _ _fewer

/-- Checks a task type, unless it was stored before, and stores its documentation. -/
def validate (v : Validator) (catalog : Catalog) (store : DocStore σ) (typeName : String) (docs : σ) :
    Except GenerateError Unit × Validator × σ :=
  if v.processed.contains typeName then (.ok (), v, docs)
  else match catalog.load? typeName with
    | none => (.error (.unknownType typeName), v, docs)
    | some d =>
      match d.taskMethod with
      | .error e => (.error e, v, docs)
      | .ok _ =>
        let processed := typeName :: v.processed
        match store.write docs d.name d.javadoc with
        | (.error e, docs) => (.error (.javadoc d.name e), ⟨processed⟩, docs)
        | (.ok (), docs) =>
          let (result, processed, docs) :=
            storeModels catalog store (d.properties.map (·.ty)) processed docs
          (result, ⟨processed⟩, docs)

end Validator

end PluginForge
