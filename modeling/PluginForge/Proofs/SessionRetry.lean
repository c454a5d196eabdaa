import PluginForge.Proofs.ScopedDefinitions

/-! A trigger whose generation fails can be tried again. A failure to build leaves no trace, a refused write
leaves only the names that were accepted before it, and attempts that are cut short one after the other
hand over, together, what a single attempt would have handed over. -/

namespace PluginForge.Proofs.SessionRetry
open Session SessionWrites Results

/-- The emitter refused a write of this attempt. -/
def CutShort (s : Session) (tool : BuildTool) (cx : Context) (trigger : String) (sink : Sink) : Prop :=
  ∃ write ∈ (generate s tool cx trigger sink).2.2, write.accepted = false

/-- Tries the same trigger once with each emitter in turn. -/
def retry (s : Session) (tool : BuildTool) (cx : Context) (trigger : String) : List Sink → Session × List Write
  | [] => (s, [])
  | sink :: rest =>
    let (_, after, writes) := generate s tool cx trigger sink
    let (last, more) := retry after tool cx trigger rest
    (last, writes ++ more)

def AllCutShort (s : Session) (tool : BuildTool) (cx : Context) (trigger : String) : List Sink → Prop
  | [] => True
  | sink :: rest =>
    CutShort s tool cx trigger sink ∧ AllCutShort (generate s tool cx trigger sink).2.1 tool cx trigger rest

instance decidableCutShort (s : Session) (tool : BuildTool) (cx : Context) (trigger : String) (sink : Sink) :
    Decidable (CutShort s tool cx trigger sink) :=
  inferInstanceAs (Decidable (∃ write ∈ (generate s tool cx trigger sink).2.2, write.accepted = false))

instance decidableAllCutShort (s : Session) (tool : BuildTool) (cx : Context) (trigger : String) :
    (sinks : List Sink) → Decidable (AllCutShort s tool cx trigger sinks)
  | [] => inferInstanceAs (Decidable True)
  | sink :: rest =>
    have := decidableAllCutShort (generate s tool cx trigger sink).2.1 tool cx trigger rest
    inferInstanceAs (Decidable (CutShort s tool cx trigger sink ∧
      AllCutShort (generate s tool cx trigger sink).2.1 tool cx trigger rest))

/-- What an attempt comes to whose writes are all accepted: the session after it, and the definitions. -/
def settled (s : Session) (tool : BuildTool) (cx : Context) (trigger : String) : Session × List ObjectDef :=
  if s.processed.contains (tool, trigger) then (s, [])
  else match requested s tool cx trigger with
    | .error _ => (s, [])
    | .ok definitions =>
      ({ s.mark (tool, trigger) with generated := grown (unwritten definitions s.generated) s.generated },
        unwritten definitions s.generated)

theorem unwritten_grown {definitions done rest : List ObjectDef} {generated : List String}
    (parts : unwritten definitions generated = done ++ rest) :
    unwritten definitions (grown done generated) = rest := by
  induction definitions generalizing generated done with
  | nil =>
    obtain ⟨rfl, rfl⟩ := List.append_eq_nil_iff.mp parts.symm
    rfl
  | cons definition others ih =>
    by_cases present : generated.contains definition.name = true
    · rw [unwritten, if_pos present] at parts
      have still : (grown done generated).contains definition.name = true := by
        simp only [List.contains_iff_mem, grown, List.mem_append] at present ⊢
        exact .inr present
      rw [unwritten, if_pos still]
      exact ih parts
    · cases done with
      | nil => exact parts
      | cons first done =>
        rw [unwritten, if_neg present, List.cons_append, List.cons.injEq] at parts
        obtain ⟨rfl, parts⟩ := parts
        have now : (grown done (definition.name :: generated)).contains definition.name = true := by
          simp [grown]
        rw [grown_cons, unwritten, if_pos now]
        exact ih parts

theorem unwritten_name_notMem {definitions : List ObjectDef} {generated : List String} {definition : ObjectDef}
    (member : definition ∈ unwritten definitions generated) : definition.name ∉ generated := by
  induction definitions generalizing generated with
  | nil => simp [unwritten] at member
  | cons first rest ih =>
    rw [unwritten] at member
    split at member
    next => exact ih member
    next absent =>
      rcases List.mem_cons.mp member with rfl | member
      · simpa using absent
      · exact fun inside => ih member (List.mem_cons_of_mem _ inside)

variable {s : Session} {tool : BuildTool} {cx : Context} {trigger : String} {sink : Sink}

/-- An attempt that is cut short stops at a definition that was still unwritten. -/
theorem CutShort.stops (cut : CutShort s tool cx trigger sink) :
    s.processed.contains (tool, trigger) = false ∧
    ∃ definitions done refused later,
      requested s tool cx trigger = .ok definitions ∧
      unwritten definitions s.generated = done ++ refused :: later ∧
      (∃ e, (generate s tool cx trigger sink).1 = .error e) ∧
      (generate s tool cx trigger sink).2.1 = { s with generated := grown done s.generated } ∧
      acceptedIn (generate s tool cx trigger sink).2.2 = done := by
  have ran := generate_ran s tool cx trigger sink
  obtain ⟨write, member, refusal⟩ := cut
  generalize generate s tool cx trigger sink = outcome at ran member ⊢
  obtain ⟨result, after, writes⟩ := outcome
  cases ran with
  | skipped again => simp at member
  | unbuilt fresh failed => simp at member
  | finished fresh made =>
    obtain ⟨_, _, rfl⟩ := List.mem_map.mp member
    cases refusal
  | @refused fresh definitions done later refused failure made parts =>
    exact ⟨fresh, definitions, done, refused, later, made, parts, ⟨_, rfl⟩, rfl, by simp⟩

theorem settles (undisturbed : ¬ CutShort s tool cx trigger sink) :
    ((generate s tool cx trigger sink).2.1, acceptedIn (generate s tool cx trigger sink).2.2) =
      settled s tool cx trigger := by
  have ran := generate_ran s tool cx trigger sink
  rw [CutShort] at undisturbed
  generalize generate s tool cx trigger sink = outcome at ran undisturbed ⊢
  obtain ⟨result, after, writes⟩ := outcome
  rw [settled]
  cases ran with
  | skipped again => rw [if_pos again]; rfl
  | unbuilt fresh failed => rw [if_neg (by simpa using fresh), failed]; rfl
  | finished fresh made =>
    rw [if_neg (by simpa using fresh), made]
    simp
  | @refused fresh definitions done later refused failure made parts =>
    exact absurd ⟨⟨refused, false⟩, by simp, rfl⟩ undisturbed

/-- What is settled stays the same when an attempt is cut short, except that its part is already done. -/
theorem CutShort.settled_eq (cut : CutShort s tool cx trigger sink) :
    settled s tool cx trigger =
      let (after, more) := settled (generate s tool cx trigger sink).2.1 tool cx trigger
      (after, acceptedIn (generate s tool cx trigger sink).2.2 ++ more) := by
  obtain ⟨fresh, definitions, done, refused, later, made, parts, _, after, accepted⟩ := cut.stops
  have again : requested (generate s tool cx trigger sink).2.1 tool cx trigger = .ok definitions := by
    rw [after, ← made]
    cases tool <;> rfl
  rw [accepted, settled, settled, again, after, made, if_neg (by simpa using fresh),
    if_neg (by simpa using fresh)]
  simp only [unwritten_grown parts, parts, grown_append]
  rfl

theorem retry_settles {rejected : List Sink} {last : Sink} (cut : AllCutShort s tool cx trigger rejected)
    (through : ¬ CutShort (retry s tool cx trigger rejected).1 tool cx trigger last) :
    ((retry s tool cx trigger (rejected ++ [last])).1,
      acceptedIn (retry s tool cx trigger (rejected ++ [last])).2) = settled s tool cx trigger := by
  induction rejected generalizing s with
  | nil =>
    have through : ¬ CutShort s tool cx trigger last := through
    rw [← settles through]
    simp [retry]
  | cons first rest ih =>
    obtain ⟨now, later⟩ := cut
    rw [now.settled_eq, ← ih later through]
    simp [retry]

/-- An attempt that nothing disturbs hands over all definitions that are still unwritten, and marks the trigger. -/
theorem undisturbed_completes (fresh : (tool, trigger) ∉ s.processed) {definitions : List ObjectDef}
    (made : requested s tool cx trigger = .ok definitions) (undisturbed : ¬ CutShort s tool cx trigger sink) :
    generate s tool cx trigger sink =
      (.ok (unwritten definitions s.generated).length,
        { s.mark (tool, trigger) with generated := grown (unwritten definitions s.generated) s.generated },
        (unwritten definitions s.generated).map (⟨·, true⟩)) := by
  have ran := generate_ran s tool cx trigger sink
  rw [CutShort] at undisturbed
  generalize generate s tool cx trigger sink = outcome at ran undisturbed ⊢
  obtain ⟨result, after, writes⟩ := outcome
  cases ran with
  | skipped again => exact absurd (List.contains_iff_mem.mp again) fresh
  | unbuilt _ failed => cases made.symm.trans failed
  | finished _ same =>
    cases made.symm.trans same
    rfl
  | @refused _ _ _ _ refused failure same parts => exact absurd ⟨⟨refused, false⟩, by simp, rfl⟩ undisturbed

/-- Failures of one trigger leave nothing behind that a further attempt would have to mend. If the
definitions cannot be built, the emitter is asked for no write and the session is as before. If the emitter
refuses a write, the trigger is not marked, no other mark has changed, and just the names of the accepted
definitions are new. If it refuses none, it is handed whatever was unwritten, and the trigger is marked. So attempts
that are cut short, followed by one that is not, end in the session of a single undisturbed attempt and have handed
over the same definitions in the same order. -/
theorem failed_attempts_converge (s : Session) (tool : BuildTool) (cx : Context) (trigger : String) :
    (∀ sink e, requested s tool cx trigger = .error e → (generate s tool cx trigger sink).2 = (s, [])) ∧
    (∀ sink result after writes, generate s tool cx trigger sink = (result, after, writes) →
      CutShort s tool cx trigger sink →
      (∃ e, result = .error e) ∧ (tool, trigger) ∉ after.processed ∧
      (∀ key, key ≠ (tool, trigger) → (key ∈ after.processed ↔ key ∈ s.processed)) ∧
      after.generated = grown (acceptedIn writes) s.generated ∧
      ∀ definition ∈ acceptedIn writes, definition.name ∉ s.generated) ∧
    (∀ sink definitions, (tool, trigger) ∉ s.processed → requested s tool cx trigger = .ok definitions →
      ¬ CutShort s tool cx trigger sink →
      generate s tool cx trigger sink =
        (.ok (unwritten definitions s.generated).length,
          { s.mark (tool, trigger) with generated := grown (unwritten definitions s.generated) s.generated },
          (unwritten definitions s.generated).map (⟨·, true⟩))) ∧
    ∀ rejected last undisturbed, AllCutShort s tool cx trigger rejected →
      ¬ CutShort (retry s tool cx trigger rejected).1 tool cx trigger last →
      ¬ CutShort s tool cx trigger undisturbed →
      (retry s tool cx trigger (rejected ++ [last])).1 = (generate s tool cx trigger undisturbed).2.1 ∧
      acceptedIn (retry s tool cx trigger (rejected ++ [last])).2 =
        acceptedIn (generate s tool cx trigger undisturbed).2.2 := by
  refine ⟨?_, ?_, fun _ _ fresh made => undisturbed_completes fresh made, ?_⟩
  · intro sink e failed
    have ran := generate_ran s tool cx trigger sink
    generalize generate s tool cx trigger sink = outcome at ran ⊢
    obtain ⟨result, after, writes⟩ := outcome
    cases ran with
    | skipped again => rfl
    | unbuilt fresh same => rfl
    | finished fresh made => rw [failed] at made; cases made
    | refused fresh failure made parts => rw [failed] at made; cases made
  · intro sink result after writes ran cut
    obtain ⟨fresh, definitions, done, refused, later, made, parts, failed, rest, accepted⟩ := cut.stops
    simp only [ran] at failed rest accepted
    subst rest accepted
    refine ⟨failed, by simpa using fresh, fun _ _ => Iff.rfl, rfl, ?_⟩
    intro definition member
    apply @unwritten_name_notMem definitions
    rw [parts]
    exact List.mem_append_left _ member
  · intro rejected last undisturbed cut through whole
    exact Prod.mk.inj ((retry_settles cut through).trans (settles whole).symm)

open ScopedDefinitions CarriedModels

/-- Accepts so many definitions and no more. -/
def limited (count : Nat) : Sink where
  State := Nat
  emitter := { write := fun left definition _ =>
    if left = 0 then (.error ⟨definition.name, none⟩, left) else (.ok (), left - 1) }
  out := count

/-- One attempt is cut short behind the second definition and one before the next. -/
theorem limited_attempts_converge :
    AllCutShort {} .gradle world plugin.name [limited 2, limited 0] ∧
    ¬ CutShort (retry {} .gradle world plugin.name [limited 2, limited 0]).1 .gradle world plugin.name (limited 5) ∧
    ¬ CutShort {} .gradle world plugin.name (limited 7) ∧
    (acceptedIn (generate {} .gradle world plugin.name (limited 2)).2.2).map (·.name) = worldNames.take 2 ∧
    (acceptedIn (generate {} .gradle world plugin.name (limited 7)).2.2).map (·.name) = worldNames.eraseDups ∧
    (.gradle, plugin.name) ∈ (generate {} .gradle world plugin.name (limited 7)).2.1.processed ∧
    (retry {} .gradle world plugin.name ([limited 2, limited 0] ++ [limited 5])).1 =
      (generate {} .gradle world plugin.name (limited 7)).2.1 ∧
    (acceptedIn (retry {} .gradle world plugin.name ([limited 2, limited 0] ++ [limited 5])).2).map (·.name) =
      worldNames.eraseDups := by
  have cut : AllCutShort {} .gradle world plugin.name [limited 2, limited 0] := by decide +kernel
  have through : ¬ CutShort (retry {} .gradle world plugin.name [limited 2, limited 0]).1 .gradle world plugin.name
      (limited 5) := by decide +kernel
  have whole : ¬ CutShort {} .gradle world plugin.name (limited 7) := by decide +kernel
  have early : (acceptedIn (generate {} .gradle world plugin.name (limited 2)).2.2).map (·.name) =
      worldNames.take 2 := by decide +kernel
  obtain ⟨definitions, made⟩ := @ok_of_isOk _ _ (requested {} .gradle world plugin.name) (by decide +kernel)
  have names : (acceptedIn (generate {} .gradle world plugin.name (limited 7)).2.2).map (·.name) = worldNames.eraseDups := by
    decide +kernel
  obtain ⟨_, _, completes, converge⟩ := failed_attempts_converge {} .gradle world plugin.name
  obtain ⟨same, accepted⟩ := converge _ _ _ cut through whole
  refine ⟨cut, through, whole, early, names, ?_, same, ?_⟩
  · rw [completes _ definitions List.not_mem_nil made whole]
    exact List.mem_cons_self ..
  · rw [accepted, names]

end PluginForge.Proofs.SessionRetry
