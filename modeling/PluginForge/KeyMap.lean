/-!
Maps keyed by text whose entries stand in the order of their keys. Two maps with the same content
are equal, and listing one gives the keys in increasing order.
-/

namespace PluginForge

def insertEntry {α : Type} (key : String) (value : α) : List (String × α) → List (String × α)
  | [] => [(key, value)]
  | (other, old) :: rest =>
    if key < other then (key, value) :: (other, old) :: rest
    else if other < key then (other, old) :: insertEntry key value rest
    else (key, value) :: rest

theorem eq_or_mem_of_mem_insertEntry {α : Type} {key : String} {value : α} {entries : List (String × α)}
    {entry : String × α} (member : entry ∈ insertEntry key value entries) :
    entry = (key, value) ∨ entry ∈ entries := by
  induction entries with
  | nil => simp_all [insertEntry]
  | cons head rest ih =>
    obtain ⟨other, old⟩ := head
    rw [insertEntry] at member
    split at member
    · exact List.mem_cons.1 member
    · split at member
      · rcases List.mem_cons.1 member with rfl | member
        · exact .inr (by simp)
        · exact (ih member).imp_right (List.mem_cons_of_mem _)
      · exact (List.mem_cons.1 member).imp_right (List.mem_cons_of_mem _)

theorem pairwise_insertEntry {α : Type} (key : String) (value : α) {entries : List (String × α)}
    (sorted : entries.Pairwise fun a b => a.1 < b.1) :
    (insertEntry key value entries).Pairwise fun a b => a.1 < b.1 := by
  induction entries with
  | nil => simp [insertEntry]
  | cons head rest ih =>
    obtain ⟨other, old⟩ := head
    obtain ⟨above, sortedRest⟩ := List.pairwise_cons.1 sorted
    rw [insertEntry]
    split
    next before =>
      refine List.pairwise_cons.2 ⟨fun entry member => ?_, sorted⟩
      rcases List.mem_cons.1 member with rfl | member
      · exact before
      · exact String.lt_trans before (above entry member)
    next notBefore =>
      split
      next after =>
        refine List.pairwise_cons.2 ⟨fun entry member => ?_, ih sortedRest⟩
        rcases eq_or_mem_of_mem_insertEntry member with rfl | member
        · exact after
        · exact above entry member
      next notAfter =>
        have same : key = other := String.le_antisymm (String.not_lt.1 notAfter) (String.not_lt.1 notBefore)
        exact List.pairwise_cons.2 ⟨fun entry member => same ▸ above entry member, sortedRest⟩

private theorem lookup_head_or_rest {α : Type} (key other : String) (value : α) (rest : List (String × α)) :
    ((key, value) :: rest).lookup other = if other = key then some value else rest.lookup other := by
  rw [List.lookup_cons]
  by_cases same : other = key
  · simp [same]
  · simp [same, beq_eq_false_iff_ne.2 same]

theorem lookup_insertEntry {α : Type} (key other : String) (value : α) (entries : List (String × α)) :
    (insertEntry key value entries).lookup other = if other = key then some value else entries.lookup other := by
  induction entries with
  | nil => exact lookup_head_or_rest key other value []
  | cons head rest ih =>
    obtain ⟨present, old⟩ := head
    rw [insertEntry]
    split
    · rw [lookup_head_or_rest]
    · next notBefore =>
      split
      · next after =>
        rw [lookup_head_or_rest, lookup_head_or_rest, ih]
        have different : present ≠ key := fun same => String.lt_irrefl key (same ▸ after)
        by_cases first : other = present
        · simp [first, different]
        · simp [first]
      · next notAfter =>
        have equal : key = present := String.le_antisymm (String.not_lt.1 notAfter) (String.not_lt.1 notBefore)
        subst equal
        rw [lookup_head_or_rest, lookup_head_or_rest]
        by_cases same : other = key <;> simp [same]

theorem insertEntry_last {α : Type} {key : String} {value : α} {entries : List (String × α)}
    (below : ∀ entry ∈ entries, entry.1 < key) : insertEntry key value entries = entries ++ [(key, value)] := by
  induction entries with
  | nil => rfl
  | cons head rest ih =>
    obtain ⟨other, old⟩ := head
    obtain ⟨first, others⟩ := List.forall_mem_cons.mp below
    have notBefore : ¬ key < other := String.lt_asymm first
    rw [insertEntry, if_neg notBefore, if_pos first, ih others]
    rfl

structure KeyMap (α : Type) where
  entries : List (String × α)
  sorted : entries.Pairwise fun a b => a.1 < b.1

namespace KeyMap

variable {α : Type}

instance [DecidableEq α] : DecidableEq (KeyMap α) := fun a b =>
  decidable_of_iff (a.entries = b.entries) ⟨fun same => by cases a; cases b; simp_all, fun same => same ▸ rfl⟩

def empty : KeyMap α := ⟨[], .nil⟩

instance : EmptyCollection (KeyMap α) := ⟨empty⟩

instance : Inhabited (KeyMap α) := ⟨empty⟩

/-- Adds an entry, or replaces the one under the same key. -/
def insert (map : KeyMap α) (key : String) (value : α) : KeyMap α :=
  ⟨insertEntry key value map.entries, pairwise_insertEntry key value map.sorted⟩

def erase (map : KeyMap α) (key : String) : KeyMap α :=
  ⟨map.entries.filter (·.1 != key), map.sorted.filter _⟩

def get? (map : KeyMap α) (key : String) : Option α := map.entries.lookup key

def contains (map : KeyMap α) (key : String) : Bool := (map.get? key).isSome

def size (map : KeyMap α) : Nat := map.entries.length

def isEmpty (map : KeyMap α) : Bool := map.entries.isEmpty

def keys (map : KeyMap α) : List String := map.entries.map (·.1)

def values (map : KeyMap α) : List α := map.entries.map (·.2)

@[simp] theorem get?_empty (key : String) : (∅ : KeyMap α).get? key = none := rfl

theorem get?_insert (map : KeyMap α) (key other : String) (value : α) :
    (map.insert key value).get? other = if other = key then some value else map.get? other :=
  lookup_insertEntry key other value map.entries

/-- Of entries with one key the last counts. -/
def ofList (entries : List (String × α)) : KeyMap α :=
  entries.foldl (fun map entry => map.insert entry.1 entry.2) empty

@[ext] theorem ext {left right : KeyMap α} (same : left.entries = right.entries) : left = right := by
  cases left
  cases right
  cases same
  rfl

theorem foldl_insert_entries (map : KeyMap α) {rest : List (String × α)}
    (sorted : (map.entries ++ rest).Pairwise fun a b => a.1 < b.1) :
    (rest.foldl (fun map entry => map.insert entry.1 entry.2) map).entries = map.entries ++ rest := by
  induction rest generalizing map with
  | nil => exact (List.append_nil _).symm
  | cons entry rest ih =>
    obtain ⟨-, -, apart⟩ := List.pairwise_append.mp sorted
    have last : (map.insert entry.1 entry.2).entries = map.entries ++ [entry] :=
      insertEntry_last fun other member => apart other member entry (List.mem_cons_self ..)
    have whole : map.entries ++ entry :: rest = map.entries ++ [entry] ++ rest := by simp
    rw [List.foldl_cons, ih, last, whole]
    rwa [last, ← whole]

theorem ofList_entries (map : KeyMap α) : ofList map.entries = map := by
  apply ext
  exact foldl_insert_entries empty map.sorted

end KeyMap

end PluginForge
