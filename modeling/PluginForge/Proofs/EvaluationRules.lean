import Mathlib.Data.List.Forall2
import PluginForge.Proofs.Evaluation

/-! Rules for evaluations that succeed, one for each form of code that is put together from its parts. -/

namespace PluginForge.Proofs.EvaluationRules
open Evaluation

variable {σ α β : Type}

/-- The step succeeds from a state with a value and leaves the state `after`. -/
def Gives (step : Run σ α) (s : σ) (value : α) (after : σ) : Prop := step.run s = .ok value after

theorem gives_pure (value : α) (s : σ) : Gives (pure value) s value s := rfl

theorem Gives.bind {step : Run σ α} {next : α → Run σ β} {s middle after : σ} {value : α} {result : β}
    (first : Gives step s value middle) (rest : Gives (next value) middle result after) :
    Gives (step >>= next) s result after := by
  unfold Gives EStateM.run at *
  simp only [Bind.bind, EStateM.bind, first, rest]

theorem Gives.split {step : Run σ α} {next : α → Run σ β} {s after : σ} {result : β}
    (whole : Gives (step >>= next) s result after) :
    ∃ value middle, Gives step s value middle ∧ Gives (next value) middle result after := by
  unfold Gives EStateM.run at *
  simp only [Bind.bind, EStateM.bind] at whole
  cases first : step s with
  | ok value middle =>
    rw [first] at whole
    exact ⟨value, middle, rfl, whole⟩
  | error e middle =>
    rw [first] at whole
    cases whole

theorem Gives.unique {step : Run σ α} {s after other : σ} {value result : α} (first : Gives step s value after)
    (second : Gives step s result other) : value = result ∧ after = other := by
  unfold Gives at *
  rw [first] at second
  cases second
  exact ⟨rfl, rfl⟩

theorem gives_get (s : σ) : Gives (get : Run σ σ) s s s := rfl

theorem gives_ofOption {choice : Option α} {value : α} (known : choice = some value) (s : σ) :
    Gives (ofOption choice) s value s := by
  rw [known]
  rfl

theorem gives_truth (value : Bool) (s : σ) : Gives (truth (.literal (.boolean value))) s value s := rfl

theorem gives_isNull (value : Value) (s : σ) :
    Gives (Evaluation.compare .equal value .null) s (.literal (.boolean (value = .null))) s := by
  have one : ¬ (value ≠ Value.null ∧ Value.null ≠ Value.null) := fun both => both.2 rfl
  rw [Evaluation.compare, if_neg one]
  rfl

theorem gives_isNotNull (value : Value) (s : σ) :
    Gives (Evaluation.compare .notEqual value .null) s (.literal (.boolean (value ≠ .null))) s := by
  have one : ¬ (value ≠ Value.null ∧ Value.null ≠ Value.null) := fun both => both.2 rfl
  rw [Evaluation.compare, if_neg one]
  rfl

variable {lib : Library σ} {call : MethodDef → Value → List Value → Run σ Value} {rounds : Nat} {frame : Frame}
  {locals inner : Locals} {s middle after : σ} {value : Value} {ending : Ending}

theorem send_generated {receiver : Value} {method : String} {args : List Value} {generated : MethodDef}
    (object : receiver ≠ .null) (found : lib.method? s receiver method = some generated)
    (runs : Gives (call generated receiver args) s value after) :
    Gives (send lib call receiver method args) s value after := by
  unfold send
  rw [if_neg object]
  refine Gives.bind (gives_pure _ s) (Gives.bind (gives_get s) ?_)
  simp only [found]
  exact runs

theorem send_other {receiver : Value} {method : String} {args : List Value} (object : receiver ≠ .null)
    (absent : lib.method? s receiver method = none) (runs : Gives (lib.invoke receiver method args) s value after) :
    Gives (send lib call receiver method args) s value after := by
  unfold send
  rw [if_neg object]
  refine Gives.bind (gives_pure _ s) (Gives.bind (gives_get s) ?_)
  simp only [absent]
  exact runs

theorem eval_literal (literal : Literal) :
    Gives (evalExpr lib call frame locals (.literal literal)) s (.literal literal) s := by
  rw [evalExpr]
  exact gives_pure _ s

theorem eval_this : Gives (evalExpr lib call frame locals .this) s frame.this s := by
  rw [evalExpr]
  exact gives_pure _ s

theorem eval_local {v : Variable} (known : locals.lookup v.name = some value) :
    Gives (evalExpr lib call frame locals v.toLocal) s value s := by
  rw [Variable.toLocal, evalExpr]
  exact gives_ofOption known s

theorem eval_param {v : Variable} (known : frame.parameters.lookup v.name = some value) :
    Gives (evalExpr lib call frame locals v.toParam) s value s := by
  rw [Variable.toParam, evalExpr]
  exact gives_ofOption known s

theorem evalAll_nil : Gives (evalAll lib call frame locals []) s [] s := by
  rw [evalAll]
  exact gives_pure _ s

theorem evalAll_cons {e : Expr} {rest : List Expr} {values : List Value}
    (first : Gives (evalExpr lib call frame locals e) s value middle)
    (others : Gives (evalAll lib call frame locals rest) middle values after) :
    Gives (evalAll lib call frame locals (e :: rest)) s (value :: values) after := by
  rw [evalAll]
  exact first.bind (others.bind (gives_pure _ after))

theorem evalAll_pure {expressions : List Expr} {values : List Value}
    (each : List.Forall₂ (fun e value => Gives (evalExpr lib call frame locals e) s value s) expressions values) :
    Gives (evalAll lib call frame locals expressions) s values s := by
  induction each with
  | nil => exact evalAll_nil
  | cons first _ others => exact evalAll_cons first others

theorem eval_invoke {receiver : Expr} {method : String} {ty : TypeRef} {args : List Expr} {target : Value}
    {values : List Value} {last : σ} (object : Gives (evalExpr lib call frame locals receiver) s target middle)
    (arguments : Gives (evalAll lib call frame locals args) middle values last)
    (sends : Gives (send lib call target method values) last value after) :
    Gives (evalExpr lib call frame locals (receiver.invoke method ty args)) s value after := by
  rw [evalExpr]
  exact object.bind (arguments.bind sends)

theorem eval_invokeStatic {owner : TypeRef} {method : String} {ty : TypeRef} {args : List Expr}
    {values : List Value} (arguments : Gives (evalAll lib call frame locals args) s values middle)
    (runs : Gives (lib.invokeStatic owner method values) middle value after) :
    Gives (evalExpr lib call frame locals (.invokeStatic owner method ty args)) s value after := by
  rw [evalExpr]
  exact arguments.bind runs

theorem eval_create {ty : TypeRef} {args : List Expr} {values : List Value}
    (arguments : Gives (evalAll lib call frame locals args) s values middle)
    (makes : Gives (lib.create ty values) middle value after) :
    Gives (evalExpr lib call frame locals (.create ty args)) s value after := by
  rw [evalExpr]
  exact arguments.bind makes

theorem eval_isNull {e : Expr} (gives : Gives (evalExpr lib call frame locals e) s value after) :
    Gives (evalExpr lib call frame locals e.isNull) s (.literal (.boolean (value = .null))) after := by
  rw [Expr.isNull, evalExpr]
  exact gives.bind (Gives.bind (eval_literal .null) (gives_isNull value after))

theorem eval_isNotNull {e : Expr} (gives : Gives (evalExpr lib call frame locals e) s value after) :
    Gives (evalExpr lib call frame locals e.isNotNull) s (.literal (.boolean (value ≠ .null))) after := by
  rw [Expr.isNotNull, evalExpr]
  exact gives.bind (Gives.bind (eval_literal .null) (gives_isNotNull value after))

theorem eval_not {e : Expr} {holds : Bool}
    (gives : Gives (evalExpr lib call frame locals e) s (.literal (.boolean holds)) after) :
    Gives (evalExpr lib call frame locals (.not e)) s (.literal (.boolean !holds)) after := by
  rw [evalExpr]
  exact gives.bind ((gives_truth holds after).bind (gives_pure _ after))

theorem run_expr {e : Expr} (gives : Gives (evalExpr lib call frame locals e) s value after) :
    Gives (runStmt lib call rounds frame (.expr e) locals) s (.next locals) after := by
  rw [runStmt]
  exact gives.bind (gives_pure _ after)

theorem run_define {v : Variable} {e : Expr} (gives : Gives (evalExpr lib call frame locals e) s value after) :
    Gives (runStmt lib call rounds frame (.define v e) locals) s (.next ((v.name, value) :: locals)) after := by
  rw [runStmt]
  exact gives.bind (gives_pure _ after)

theorem run_assign {v : Variable} {e : Expr} (gives : Gives (evalExpr lib call frame locals e) s value after)
    (known : locals.assign v.name value = some inner) :
    Gives (runStmt lib call rounds frame (.assign v e) locals) s (.next inner) after := by
  rw [runStmt]
  exact gives.bind ((gives_ofOption known after).bind (gives_pure _ after))

theorem run_assignField {receiver e : Expr} {name : String} {ty : TypeRef} {target : Value} {last : σ}
    (object : Gives (evalExpr lib call frame locals receiver) s target middle)
    (gives : Gives (evalExpr lib call frame locals e) middle value last)
    (writes : Gives (lib.writeField target name value) last () after) :
    Gives (runStmt lib call rounds frame (.assignField receiver name ty e) locals) s (.next locals) after := by
  rw [runStmt]
  exact object.bind (gives.bind (writes.bind (gives_pure _ after)))

theorem run_ret {e : Expr} (gives : Gives (evalExpr lib call frame locals e) s value after) :
    Gives (runStmt lib call rounds frame (.ret (some e)) locals) s (.ret value) after := by
  rw [runStmt]
  exact gives.bind (gives_pure _ after)

theorem gives_test {condition : Expr} {holds : Bool}
    (gives : Gives (evalExpr lib call frame locals condition) s (.literal (.boolean holds)) after) :
    Gives (test lib call frame condition locals) s holds after :=
  gives.bind (gives_truth holds after)

theorem within_pushed (pushed locals : Locals) : (Ending.next (pushed ++ locals)).within locals = .next locals := by
  simp [Ending.within]

theorem within_self (locals : Locals) : (Ending.next locals).within locals = .next locals := within_pushed [] locals

theorem gives_enclosed {code : Locals → Run σ Ending} (runs : Gives (code locals) s ending after) :
    Gives (enclosed code locals) s (ending.within locals) after :=
  runs.bind (gives_pure _ after)

theorem enclosed_expr {e : Expr} (gives : Gives (evalExpr lib call frame locals e) s value after) :
    Gives (enclosed (runStmt lib call rounds frame (.expr e)) locals) s (.next locals) after := by
  rw [← within_self locals]
  exact gives_enclosed (run_expr gives)

theorem run_ifThen_true {condition : Expr} {body : Stmt}
    (holds : Gives (evalExpr lib call frame locals condition) s (.literal (.boolean true)) middle)
    (runs : Gives (runStmt lib call rounds frame body locals) middle ending after) :
    Gives (runStmt lib call rounds frame (.ifThen condition body) locals) s (ending.within locals) after := by
  rw [runStmt]
  refine (gives_test holds).bind ?_
  rw [if_pos rfl]
  exact gives_enclosed runs

theorem run_ifThen_false {condition : Expr} {body : Stmt}
    (fails : Gives (evalExpr lib call frame locals condition) s (.literal (.boolean false)) after) :
    Gives (runStmt lib call rounds frame (.ifThen condition body) locals) s (.next locals) after := by
  rw [runStmt]
  refine (gives_test fails).bind ?_
  rw [if_neg Bool.false_ne_true]
  exact gives_pure _ after

theorem run_ifElse_true {condition : Expr} {body otherwise : Stmt}
    (holds : Gives (evalExpr lib call frame locals condition) s (.literal (.boolean true)) middle)
    (runs : Gives (runStmt lib call rounds frame body locals) middle ending after) :
    Gives (runStmt lib call rounds frame (.ifElse condition body otherwise) locals) s (ending.within locals) after := by
  rw [runStmt]
  refine (gives_test holds).bind ?_
  rw [if_pos rfl]
  exact gives_enclosed runs

theorem run_ifElse_false {condition : Expr} {body otherwise : Stmt}
    (fails : Gives (evalExpr lib call frame locals condition) s (.literal (.boolean false)) middle)
    (runs : Gives (runStmt lib call rounds frame otherwise locals) middle ending after) :
    Gives (runStmt lib call rounds frame (.ifElse condition body otherwise) locals) s (ending.within locals) after := by
  rw [runStmt]
  refine (gives_test fails).bind ?_
  rw [if_neg Bool.false_ne_true]
  exact gives_enclosed runs

theorem run_whileLoop {condition : Expr} {body : Stmt}
    (runs : Gives (repeatWhile (test lib call frame condition) (enclosed (runStmt lib call rounds frame body)) rounds
      locals) s ending after) :
    Gives (runStmt lib call rounds frame (.whileLoop condition body) locals) s ending after := by
  rw [runStmt]
  exact runs

theorem run_block {statements : List Stmt}
    (runs : Gives (runAll lib call rounds frame statements locals) s ending after) :
    Gives (runStmt lib call rounds frame (.block statements) locals) s (ending.within locals) after := by
  rw [runStmt]
  exact gives_enclosed runs

theorem runAll_nil : Gives (runAll lib call rounds frame [] locals) s (.next locals) s := by
  rw [runAll]
  exact gives_pure _ s

theorem runAll_cons {statement : Stmt} {rest : List Stmt}
    (first : Gives (runStmt lib call rounds frame statement locals) s (.next inner) middle)
    (others : Gives (runAll lib call rounds frame rest inner) middle ending after) :
    Gives (runAll lib call rounds frame (statement :: rest) locals) s ending after := by
  rw [runAll]
  refine first.bind ?_
  rw [Ending.andThen]
  exact others

theorem runAll_ret {statement : Stmt} {rest : List Stmt}
    (first : Gives (runStmt lib call rounds frame statement locals) s (.ret value) after) :
    Gives (runAll lib call rounds frame (statement :: rest) locals) s (.ret value) after := by
  rw [runAll]
  refine first.bind ?_
  rw [Ending.andThen]
  exact gives_pure _ after

theorem runAll_append {first rest : List Stmt}
    (begins : Gives (runAll lib call rounds frame first locals) s (.next inner) middle)
    (goes : Gives (runAll lib call rounds frame rest inner) middle ending after) :
    Gives (runAll lib call rounds frame (first ++ rest) locals) s ending after := by
  induction first generalizing locals s with
  | nil =>
    have same := begins.unique runAll_nil
    cases same.1
    cases same.2
    exact goes
  | cons statement others ih =>
    rw [runAll] at begins
    obtain ⟨step, last, runs, continues⟩ := begins.split
    cases step with
    | next between =>
      rw [Ending.andThen] at continues
      exact runAll_cons runs (ih continues)
    | ret value =>
      rw [Ending.andThen] at continues
      exact nomatch (continues.unique (gives_pure _ _)).1

theorem repeatWhile_done {condition : Locals → Run σ Bool} {body : Locals → Run σ Ending}
    (fails : Gives (condition locals) s false after) :
    Gives (repeatWhile condition body (rounds + 1) locals) s (.next locals) after := by
  rw [repeatWhile]
  refine fails.bind ?_
  rw [if_neg Bool.false_ne_true]
  exact gives_pure _ after

theorem repeatWhile_again {condition : Locals → Run σ Bool} {body : Locals → Run σ Ending} {last : σ}
    (holds : Gives (condition locals) s true middle) (runs : Gives (body locals) middle (.next inner) last)
    (goes : Gives (repeatWhile condition body rounds inner) last ending after) :
    Gives (repeatWhile condition body (rounds + 1) locals) s ending after := by
  rw [repeatWhile]
  refine holds.bind ?_
  rw [if_pos rfl]
  refine runs.bind ?_
  rw [Ending.andThen]
  exact goes

theorem call_ret {m : MethodDef} {body : Stmt} {this : Value} {args : List Value} {budget : Nat}
    (hasBody : m.body = some body) (takes : m.parameters.length = args.length)
    (runs : Gives (runStmt lib (callMethod lib budget) budget ⟨this, (m.parameters.map (·.name)).zip args⟩ body [])
      s (.ret value) after) :
    Gives (callMethod lib (budget + 1) m this args) s value after := by
  rw [callMethod]
  simp only [hasBody]
  rw [if_neg (fun different => different takes)]
  exact runs.bind (gives_pure _ after)

theorem call_next {m : MethodDef} {body : Stmt} {this : Value} {args : List Value} {budget : Nat}
    (hasBody : m.body = some body) (takes : m.parameters.length = args.length)
    (runs : Gives (runStmt lib (callMethod lib budget) budget ⟨this, (m.parameters.map (·.name)).zip args⟩ body [])
      s (.next inner) after) :
    Gives (callMethod lib (budget + 1) m this args) s .null after := by
  rw [callMethod]
  simp only [hasBody]
  rw [if_neg (fun different => different takes)]
  exact runs.bind (gives_pure _ after)

theorem call_block {m : MethodDef} {statements : List Stmt} {this : Value} {args : List Value} {budget : Nat}
    (hasBody : m.body = some (.block statements)) (takes : m.parameters.length = args.length)
    (runs : Gives (runAll lib (callMethod lib budget) budget ⟨this, (m.parameters.map (·.name)).zip args⟩ statements [])
      s (.next inner) after) :
    Gives (callMethod lib (budget + 1) m this args) s .null after :=
  call_next hasBody takes (run_block runs)

/-- Statements that are made for one item each run one after the other, if each can run in every state that keeps
the invariant and keeps it too. -/
theorem runAll_each {Makes : α → Stmt → Prop} (Keeps : σ → Prop) {change : σ → α → σ} {items : List α}
    {statements : List Stmt} (made : List.Forall₂ Makes items statements)
    (step : ∀ x ∈ items, ∀ statement, Makes x statement → ∀ s, Keeps s →
      Gives (runStmt lib call rounds frame statement locals) s (.next locals) (change s x) ∧ Keeps (change s x))
    (kept : Keeps s) :
    Gives (runAll lib call rounds frame statements locals) s (.next locals) (items.foldl change s) ∧
      Keeps (items.foldl change s) := by
  induction made generalizing s with
  | nil => exact ⟨runAll_nil, kept⟩
  | cons makes others ih =>
    obtain ⟨runs, keeps⟩ := step _ (List.mem_cons_self ..) _ makes s kept
    obtain ⟨rest, last⟩ := ih (fun x member => step x (List.mem_cons_of_mem _ member)) keeps
    exact ⟨runAll_cons runs rest, last⟩

end PluginForge.Proofs.EvaluationRules
