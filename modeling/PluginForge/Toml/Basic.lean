/-! TOML values, and the tables that the lines of a document fill. -/

namespace PluginForge

/-- What made a table, which decides what may still be added to it. -/
inductive Toml.Origin where
  /-- A longer header that leads through the table. -/
  | implicit
  | header
  | dotted
  | inline
  deriving DecidableEq, Repr

structure Toml.Date where
  year : Nat
  month : Nat
  day : Nat
  deriving DecidableEq, Repr

structure Toml.TimeOfDay where
  hour : Nat
  minute : Nat
  second : Nat
  nanosecond : Nat
  deriving DecidableEq, Repr

/-- A date, a time of day, or both; only then an offset from universal time, in minutes. -/
structure Toml.Moment where
  date : Option Toml.Date := none
  time : Option Toml.TimeOfDay := none
  offset : Option Int := none
  deriving DecidableEq, Repr

inductive Toml where
  | text (value : String)
  | truth (value : Bool)
  | integer (value : Int)
  /-- A number with a fraction or an exponent, an infinity or no number, as it is spelled. -/
  | float (spelling : String)
  | moment (value : Toml.Moment)
  | list (items : List Toml)
  | table (origin : Toml.Origin) (entries : List (String × Toml))
  deriving Repr, Inhabited

namespace Toml

abbrev Entries := List (String × Toml)

/-- Changes what stands under a key, or adds it. -/
def update? : Entries → String → (Option Toml → Option Toml) → Option Entries
  | [], key, change => (change none).map fun value => [(key, value)]
  | (other, old) :: rest, key, change =>
    if other = key then (change (some old)).map fun value => (other, value) :: rest
    else (update? rest key change).map ((other, old) :: ·)

/-- Opens the table of a header. A table is opened once and never after it was filled by dotted keys. -/
def openTable? : List String → Entries → Option Entries
  | [], _ => none
  | [key], entries => update? entries key fun
    | none => some (.table .header [])
    | some (.table .implicit inner) => some (.table .header inner)
    | some _ => none
  | key :: path, entries => update? entries key fun
    | none => (openTable? path []).map (.table .implicit)
    | some (.table .inline _) => none
    | some (.table origin inner) => (openTable? path inner).map (.table origin)
    | some _ => none

/-- Assigns a value to a dotted key that has none yet. -/
def assign? : List String → Toml → Entries → Option Entries
  | [], _, _ => none
  | [key], value, entries => update? entries key fun
    | none => some value
    | some _ => none
  | key :: path, value, entries => update? entries key fun
    | none => (assign? path value []).map (.table .dotted)
    | some (.table .dotted inner) => (assign? path value inner).map (.table .dotted)
    | some _ => none

/-- Changes the entries of the table at a path. -/
def within? : List String → (Entries → Option Entries) → Entries → Option Entries
  | [], change, entries => change entries
  | key :: path, change, entries => update? entries key fun
    | some (.table origin inner) => (within? path change inner).map (.table origin)
    | _ => none

end Toml

end PluginForge
