import PluginForge.Proofs.TypeGrammar

/-! Types as they are displayed. The display of a type that has a text is another text of it, so what has been read is
read again from its display, and the display tells such types apart. -/

namespace PluginForge.Proofs.DisplayedTypes
open SourceType Text TypeGrammar

variable {ty : SourceType} {args : List SourceType} {gap text : List Char}

theorem derives_indented (blank : Blanks gap) (derives : Derives ty text) : Derives ty (gap ++ text) := by
  cases derives with
  | anything before =>
    rw [← List.append_assoc]
    exact .anything (blank.append before)
  | extending before between apart inner =>
    rw [← List.append_assoc]
    exact .extending (blank.append before) between apart inner
  | above before between apart inner =>
    rw [← List.append_assoc]
    exact .above (blank.append before) between apart inner
  | named before present word between given array =>
    rw [← List.append_assoc]
    exact .named (blank.append before) present word between given array

theorem derivesList_indented (blank : Blanks gap) (derives : DerivesList args text) : DerivesList args (gap ++ text) := by
  cases derives with
  | last only after =>
    rw [← List.append_assoc]
    exact .last (derives_indented blank only) after
  | more first after others =>
    rw [← List.append_assoc]
    exact .more (derives_indented blank first) after others

theorem blanks_nil : Blanks [] := nofun

theorem blanks_space : Blanks [' '] := by
  intro c member
  rw [List.mem_singleton.mp member]
  decide

theorem brackets_join (dimensions : Nat) :
    Brackets dimensions (String.join (List.replicate dimensions "[]")).toList := by
  induction dimensions with
  | zero => exact .none
  | succ dimensions ih =>
    have pair := Brackets.pair blanks_nil blanks_nil ih
    rw [List.replicate_succ, String.join_cons, String.toList_append]
    exact pair

/-- The types that have a text: names are words, and there is a text for every argument and bound. -/
inductive Readable : SourceType → Prop where
  | anything : Readable .anything
  | extending {bound : SourceType} (inner : Readable bound) : Readable (.extending bound)
  | above {bound : SourceType} (inner : Readable bound) : Readable (.above bound)
  | named {name : String} {args : List SourceType} {dimensions : Nat} (present : name.toList ≠ [])
      (word : ∀ c ∈ name.toList, isNameChar c = true) (each : ∀ arg ∈ args, Readable arg) :
      Readable (.named name args dimensions)

mutual

theorem readable_of_derives {ty : SourceType} {text : List Char} (derives : Derives ty text) : Readable ty := by
  match derives with
  | .anything blank => exact .anything
  | .extending blank between apart inner => exact .extending (readable_of_derives inner)
  | .above blank between apart inner => exact .above (readable_of_derives inner)
  | .named blank present word between given array =>
    refine .named ?_ ?_ (readable_of_derivesArguments given)
    · rw [String.toList_ofList]
      exact present
    · rw [String.toList_ofList]
      exact word
termination_by structural derives

theorem readable_of_derivesArguments {args : List SourceType} {text : List Char} (derives : DerivesArguments args text) :
    ∀ arg ∈ args, Readable arg := by
  match derives with
  | .absent => exact nofun
  | .present each => exact readable_of_derivesList each
termination_by structural derives

theorem readable_of_derivesList {args : List SourceType} {text : List Char} (derives : DerivesList args text) :
    ∀ arg ∈ args, Readable arg := by
  match derives with
  | .last only blank =>
    rw [List.forall_mem_singleton]
    exact readable_of_derives only
  | .more first blank others =>
    rw [List.forall_mem_cons]
    exact ⟨readable_of_derives first, readable_of_derivesList others⟩
termination_by structural derives

end

/-- Arguments with a comma and a space between them. -/
theorem derivesList_shown {first : SourceType} {rest : List SourceType} (shown : Derives first first.display.toList)
    (each : ∀ arg ∈ rest, Derives arg arg.display.toList) :
    DerivesList (first :: rest) (first.display.toList ++ (displayMore rest).toList) := by
  induction rest generalizing first with
  | nil => exact .last shown blanks_nil
  | cons second rest ih =>
    have others := ih (each second (List.mem_cons_self ..)) fun arg member => each arg (List.mem_cons_of_mem _ member)
    rw [displayMore]
    simp only [String.toList_append, List.append_assoc]
    exact .more shown blanks_nil (derivesList_indented blanks_space others)

theorem derivesArguments_shown (each : ∀ arg ∈ args, Derives arg arg.display.toList) :
    DerivesArguments args (displayArgs args).toList := by
  cases args with
  | nil => exact .absent
  | cons first rest =>
    have bracketed := DerivesArguments.present (derivesList_shown (each first (List.mem_cons_self ..))
      fun arg member => each arg (List.mem_cons_of_mem _ member))
    rw [displayArgs]
    simp only [String.toList_append]
    exact bracketed

/-- The display is one of the texts of the type. -/
theorem Readable.derives (readable : Readable ty) : Derives ty ty.display.toList := by
  induction readable with
  | anything => exact .anything blanks_nil
  | extending inner shown =>
    have bound := derives_indented blanks_space shown
    rw [display, String.toList_append]
    exact .extending blanks_nil blanks_space (by decide) bound
  | above inner shown =>
    have bound := derives_indented blanks_space shown
    rw [display, String.toList_append]
    exact .above blanks_nil blanks_space (by decide) bound
  | @named name args dimensions present word each shown =>
    have whole := Derives.named blanks_nil present word blanks_nil (derivesArguments_shown shown) (brackets_join dimensions)
    rw [String.ofList_toList] at whole
    rw [display, String.toList_append, String.toList_append, List.append_assoc]
    exact whole

theorem Readable.parse_display (readable : Readable ty) : parse ty.display = .ok ty :=
  parse_of_denotes ⟨_, [], (List.append_nil _).symm, readable.derives, blanks_nil⟩

theorem readable_of_parse {input : String} (read : parse input = .ok ty) : Readable ty := by
  obtain ⟨text, gap, whole, derives, blank⟩ := denotes_of_parse read
  exact readable_of_derives derives

/-- A type that has been read from some text is read from its display as well. -/
theorem parse_display {input : String} (read : parse input = .ok ty) : parse ty.display = .ok ty :=
  (readable_of_parse read).parse_display

/-- Whatever the text a type has been read from, its display is read as that same type and displayed as itself, and no
other type that some text denotes has this display. -/
theorem display_reads_back {input : String} (read : parse input = .ok ty) :
    parse ty.display = .ok ty ∧
    (parse ty.display).map display = .ok ty.display ∧
    (∀ text other, parse text = .ok other → (other.display = ty.display ↔ other = ty)) ∧
    ∀ other, Readable other ↔ parse other.display = .ok other := by
  have shown := parse_display read
  refine ⟨shown, ?_, ?_, ?_⟩
  · rw [shown]
    rfl
  · intro text other readOther
    constructor
    · intro same
      have again := parse_display readOther
      rw [same, shown] at again
      exact (Except.ok.inj again).symm
    · intro same
      rw [same]
  · intro other
    exact ⟨Readable.parse_display, readable_of_parse⟩

def boundedMap : SourceType :=
  .extending (.named "Map" [.above (.named "A" [] 0), .extending (.named "B" [] 1)] 2)

theorem display_reads_back_bounded :
    parse "?extends Map< ? super\tA , ?  extends  B[ ] > [] [ ]" = .ok boundedMap ∧
    parse boundedMap.display = .ok boundedMap ∧
    (parse boundedMap.display).map display = .ok boundedMap.display := by
  have read : parse "?extends Map< ? super\tA , ?  extends  B[ ] > [] [ ]" = .ok boundedMap := by rfl
  obtain ⟨shown, again, -⟩ := display_reads_back read
  exact ⟨read, shown, again⟩

example : boundedMap.display = "? extends Map<? super A, ? extends B[]>[][]" := by decide

end PluginForge.Proofs.DisplayedTypes
