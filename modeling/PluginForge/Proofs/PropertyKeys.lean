import PluginForge.Generation.TriggerPlan

/-! Keys of Maven properties. A key spells a name in camel case with a dot before each word, and the dots of an ASCII name
stand for nothing else. So a name is read back from its key, and parameters of a mojo that share a key share their name. -/

namespace PluginForge.Proofs.PropertyKeys
open Naming Text

/-- An ASCII name without dots that does not begin with an upper-case letter. -/
structure CamelCase (name : String) : Prop where
  ascii : ∀ c ∈ name.toList, c.toNat < 128
  undotted : '.' ∉ name.toList
  start : ∀ c ∈ name.toList.head?, isUpper c = false

theorem camelCase_iff (name : String) : CamelCase name ↔
    (name.toList.all fun c => c.toNat < 128 && c != '.') = true ∧ (name.toList.head?.all fun c => !isUpper c) = true := by
  simp only [List.all_eq_true, Option.all_eq_true, Bool.and_eq_true, decide_eq_true_eq, bne_iff_ne, Bool.not_eq_true']
  constructor
  · exact fun camel => ⟨fun c member => ⟨camel.ascii c member, fun dot => camel.undotted (dot ▸ member)⟩, camel.start⟩
  · exact fun checks => ⟨fun c member => (checks.1 c member).1, fun member => (checks.1 _ member).2 rfl, checks.2⟩

instance (name : String) : Decidable (CamelCase name) := decidable_of_iff _ (camelCase_iff name).symm

/-- Drops each dot and capitalises the character after it. -/
def joinWords : List Char → List Char
  | '.' :: c :: rest => upper c ++ joinWords rest
  | ['.'] => []
  | c :: rest => c :: joinWords rest
  | [] => []

section Characters
variable {c : Char} {cs : List Char}

/-- An upper-case letter has one lower-case letter, whose upper case it is. -/
theorem lower_ascii (ascii : c.toNat < 128) (isUpperCase : isUpper c = true) :
    ∃ small, lower c = [small] ∧ isUpper small = false ∧ upper small = [c] := by
  have each : ∀ code < 128, isUpper (Char.ofNat code) = true →
      lower (Char.ofNat code) = [Char.ofNat (code + 32)] ∧ isUpper (Char.ofNat (code + 32)) = false ∧
        upper (Char.ofNat (code + 32)) = [Char.ofNat code] := by decide +kernel
  rw [← Char.ofNat_toNat c] at isUpperCase ⊢
  exact ⟨_, each c.toNat ascii isUpperCase⟩

theorem joinWords_cons (other : c ≠ '.') : joinWords (c :: cs) = c :: joinWords cs := by
  rw [joinWords]
  · exact fun _ _ same => absurd same other
  · exact fun same => absurd same other

theorem joinWords_dotUppers (ascii : ∀ c ∈ cs, c.toNat < 128) (undotted : '.' ∉ cs) : joinWords (dotUppers cs) = cs := by
  induction cs with
  | nil => rfl
  | cons c rest ih =>
    obtain ⟨first, others⟩ := List.forall_mem_cons.mp ascii
    have other := List.ne_of_not_mem_cons undotted
    have restored := ih others (List.not_mem_of_not_mem_cons undotted)
    rw [dotUppers]
    split
    next isUpperCase =>
      obtain ⟨small, lowered, -, raised⟩ := lower_ascii first isUpperCase
      simp only [lowered, List.cons_append, List.nil_append, joinWords, raised, restored]
    next => rw [joinWords_cons (Ne.symm other), restored]

theorem dotUppers_lower (ascii : ∀ c ∈ cs, c.toNat < 128) : ∀ c ∈ dotUppers cs, isUpper c = false := by
  induction cs with
  | nil => exact List.forall_mem_nil _
  | cons c rest ih =>
    obtain ⟨first, others⟩ := List.forall_mem_cons.mp ascii
    rw [dotUppers]
    split
    next isUpperCase =>
      obtain ⟨small, lowered, isLowerCase, -⟩ := lower_ascii first isUpperCase
      rw [lowered]
      exact List.forall_mem_cons.mpr ⟨by decide +kernel, List.forall_mem_cons.mpr ⟨isLowerCase, ih others⟩⟩
    next isLowerCase => exact List.forall_mem_cons.mpr ⟨Bool.eq_false_iff.mpr isLowerCase, ih others⟩

end Characters

section Keys
variable {name other : String}

theorem CamelCase.start_cons (camel : CamelCase name) {c : Char} {rest : List Char} (is : name.toList = c :: rest) :
    isUpper c = false := by
  apply camel.start c
  rw [is]
  rfl

/-- The first character of such a name is left alone. -/
theorem CamelCase.dotted_cons (camel : CamelCase name) {c : Char} {rest : List Char} (is : name.toList = c :: rest) :
    (dotted name).toList = c :: dotUppers rest := by
  rw [dotted, is]
  simp [camel.start_cons is]

theorem CamelCase.joinWords_dotted (camel : CamelCase name) : joinWords (dotted name).toList = name.toList := by
  cases is : name.toList with
  | nil => simp [dotted, is, joinWords]
  | cons c rest =>
    obtain ⟨-, others⟩ := List.forall_mem_cons.mp (is ▸ camel.ascii)
    have undotted := is ▸ camel.undotted
    rw [camel.dotted_cons is, joinWords_cons (Ne.symm (List.ne_of_not_mem_cons undotted)),
      joinWords_dotUppers others (List.not_mem_of_not_mem_cons undotted)]

theorem CamelCase.dotted_lower (camel : CamelCase name) : ∀ c ∈ (dotted name).toList, isUpper c = false := by
  cases is : name.toList with
  | nil => simp [dotted, is]
  | cons c rest =>
    obtain ⟨-, others⟩ := List.forall_mem_cons.mp (is ▸ camel.ascii)
    rw [camel.dotted_cons is]
    exact List.forall_mem_cons.mpr ⟨camel.start_cons is, dotUppers_lower others⟩

theorem dotted_injective (camel : CamelCase name) (camelOther : CamelCase other) (same : dotted name = dotted other) :
    name = other := by
  have restored := camel.joinWords_dotted
  rw [same, camelOther.joinWords_dotted] at restored
  exact String.toList_injective restored.symm

/-- A mojo puts the same prefix before every key. -/
theorem propertyKey_iff (m : MojoPlan) : m.propertyKey name = m.propertyKey other ↔ dotted name = dotted other := by
  unfold MojoPlan.propertyKey
  dsimp only
  split
  next => exact Iff.rfl
  next =>
    refine ⟨fun same => ?_, fun same => by rw [same]⟩
    have chars := congrArg String.toList same
    simp only [String.toList_append, toString, List.append_right_inj] at chars
    exact String.toList_injective chars

/-- Names in camel case have keys of their own, whatever the prefix. The dotted name has no upper-case letter, and the
name is what is left of it without the dots when each character after a dot is capitalised. -/
theorem property_keys_apart (m : MojoPlan) (camel : CamelCase name) :
    (∀ other, CamelCase other → (m.propertyKey name = m.propertyKey other ↔ name = other)) ∧
    (∀ c ∈ (dotted name).toList, isUpper c = false) ∧
    String.ofList (joinWords (dotted name).toList) = name := by
  refine ⟨fun other camelOther => ?_, camel.dotted_lower, ?_⟩
  · rw [propertyKey_iff]
    exact ⟨dotted_injective camel camelOther, congrArg dotted⟩
  · rw [camel.joinWords_dotted, String.ofList_toList]

/-- A mojo whose properties begin with the name of its vendor. -/
def publish : MojoPlan where
  task := {
    source := { name := "com.acme.Publish" }
    parameters := []
    methodName := "run"
    namePrefix := "Publish"
    javadoc := {}
    replicas := [] }
  packageName := "com.acme"
  micronautPlugin := false
  propertyPrefix := "acme"
  taskDoc := ""
  methodDoc := ""

/-- Names that differ in the case of two letters. -/
theorem url_keys_apart : CamelCase "baseURLPath" ∧ CamelCase "baseUrlPath" ∧
    publish.propertyKey "baseURLPath" = "acme.base.u.r.l.path" ∧ publish.propertyKey "baseUrlPath" = "acme.base.url.path" ∧
    (publish.propertyKey "baseURLPath" = publish.propertyKey "baseUrlPath" ↔ "baseURLPath" = "baseUrlPath") ∧
    String.ofList (joinWords (dotted "baseURLPath").toList) = "baseURLPath" := by
  have upper : CamelCase "baseURLPath" := by decide +kernel
  have mixed : CamelCase "baseUrlPath" := by decide +kernel
  obtain ⟨apart, -, restored⟩ := property_keys_apart publish upper
  exact ⟨upper, mixed, by decide +kernel, by decide +kernel, apart _ mixed, restored⟩

end Keys

end PluginForge.Proofs.PropertyKeys
