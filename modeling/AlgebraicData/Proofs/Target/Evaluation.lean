import AlgebraicData.Proofs.Prelude
import AlgebraicData.Target.Basic

/-!
# What the generated code computes

The meaning of the part of the target language that a bundle is written in.  Nothing in it has an
effect, so expressions have values and statements either return one or run to their end.  Two things
can go wrong, and both are `none`: an operation meets a value that it is not made for, or the
evaluation never ends.

* `Value` — the values, among them those of a host, which the code gets from elsewhere;
* `run` — the result of a task, and by the kinds of tasks `eval`, `exec`, `select` and `call` for
  expressions, statements, the cases of a switch and functions;
* `run_eq` — the equation of `run`, from which each construct has its own;
* `Item.eval` — what an item defines.
-/

namespace AlgebraicData.Target

variable {ν : Type}

/-! ## Values -/

mutual

/-- A value. -/
inductive Value (ν : Type) where
  | undefined
  | str (value : String)
  | bool (value : Bool)
  /-- The first property of a name hides those after it. -/
  | object (properties : List (String × Value ν))
  /-- A function together with the names around it. -/
  | closure (params : List String) (body : List Stmt) (env : List (String × Slot ν))
  /-- An object or a function that the code does not make itself. -/
  | host (value : ν)

/-- What a name stands for. -/
inductive Slot (ν : Type) where
  | value (value : Value ν)
  /-- A constant, with the names around its definition.  It may occur in the functions that its
  definition makes. -/
  | const (definition : Expr) (env : List (String × Slot ν))

end

/-- The names in scope, from the innermost outwards. -/
abbrev Env (ν : Type) :=
  List (String × Slot ν)

/-- How the values of a host behave. -/
structure Host (ν : Type) where
  read : ν → String → Value ν
  call : ν → List (Value ν) → Option (Value ν)

/-- How a list of statements ends. -/
inductive Completion (ν : Type) where
  | normal
  | returned (value : Value ν)

namespace Value

/-- Whether the value has properties. -/
def IsObject : Value ν → Prop
  | .object _ | .host _ => True
  | .undefined | .str _ | .bool _ | .closure .. => False

/-- `value.property`; what an object does not hold is undefined. -/
def read (host : Host ν) : Value ν → String → Option (Value ν)
  | .object properties, property => some ((properties.lookup property).getD .undefined)
  | .host value, property => some (host.read value property)
  | .undefined, _ | .str _, _ | .bool _, _ | .closure .., _ => none

/-- `a === b`; of two objects or two functions it is not said whether they are the same. -/
def strictEq : Value ν → Value ν → Option Bool
  | .undefined, .undefined => some true
  | .str a, .str b => some (a == b)
  | .bool a, .bool b => some (a == b)
  | .object _, .object _ | .closure .., .closure .. | .host _, .host _ => none
  | _, _ => some false

end Value

/-- The parameters of a function bound to its arguments, from left to right, so that a later one
hides an earlier one of the same name.  Arguments that are not given are undefined. -/
def Env.bind : List String → List (Value ν) → Env ν → Env ν
  | [], _, env => env
  | param :: params, [], env => Env.bind params [] ((param, .value .undefined) :: env)
  | param :: params, arg :: args, env => Env.bind params args ((param, .value arg) :: env)

/-! ## Evaluation -/

/-- What there is to compute, in a given scope or with given values. -/
inductive Task (ν : Type) where
  | eval (env : Env ν) (expr : Expr)
  | exec (env : Env ν) (body : List Stmt)
  | select (env : Env ν) (value : Value ν) (cases : List (Case Expr Stmt))
  | call (function : Value ν) (args : List (Value ν))

/-- Expressions and functions give values, statements end. -/
abbrev Task.Result : Task ν → Type
  | .eval .. | .call .. => Value ν
  | .exec .. | .select .. => Completion ν

/-- What a task comes down to, where `self` gives the results of the tasks that it needs. -/
def step (host : Host ν) (self : (task : Task ν) → Option task.Result) :
    (task : Task ν) → Option task.Result
  | .eval env (.ident name) =>
    match env.lookup name with
    | some (.value value) => some value
    | some (.const definition outer) =>
      self (.eval ((name, .const definition outer) :: outer) definition)
    | none => none
  | .eval _ (.str value) => some (.str value)
  | .eval _ (.bool value) => some (.bool value)
  | .eval env (.member object property) => do
    let value ← self (.eval env object)
    value.read host property
  | .eval env (.call callee args) => do
    let function ← self (.eval env callee)
    let values ← args.mapM fun arg => self (.eval env arg)
    self (.call function values)
  | .eval env (.object assignments) => do
    let properties ← assignments.mapM fun a => do
      let value ← self (.eval env (a.value.getD (.ident a.name)))
      return (a.name, value)
    return .object properties.reverse
  | .eval env (.arrow params result) => some (.closure params [.ret result] env)
  | .eval env (.arrowBlock params body) => some (.closure params body env)
  | .eval env (.binary .and lhs rhs) => do
    match ← self (.eval env lhs) with
    | .bool true => self (.eval env rhs)
    | .bool false => return .bool false
    | _ => none
  | .eval env (.binary .strictEq lhs rhs) => do
    let a ← self (.eval env lhs)
    let b ← self (.eval env rhs)
    return .bool (← a.strictEq b)
  | .exec _ [] => some .normal
  | .exec env (.ret value :: _) => do
    return .returned (← self (.eval env value))
  | .exec env (.ifThen condition inner :: rest) => do
    match ← self (.eval env condition) with
    | .bool true =>
      match ← self (.exec env inner) with
      | .returned value => return .returned value
      | .normal => self (.exec env rest)
    | .bool false => self (.exec env rest)
    | _ => none
  | .exec env (.switch scrutinee cases :: rest) => do
    let value ← self (.eval env scrutinee)
    match ← self (.select env value cases) with
    | .returned value => return .returned value
    | .normal => self (.exec env rest)
  | .exec env (.const name _ definition :: rest) => do
    let env := (name, .const definition env) :: env
    let _ ← self (.eval env definition)
    self (.exec env rest)
  | .select _ _ [] => some .normal
  | .select env value (first :: rest) => do
    let label ← self (.eval env first.label)
    if ← value.strictEq label then self (.exec env (first.body :: rest.map (·.body)))
    else self (.select env value rest)
  | .call (.closure params body env) args => do
    match ← self (.exec (Env.bind params args env) body) with
    | .returned value => return value
    | .normal => return .undefined
  | .call (.host value) args => host.call value args
  | .call _ _ => none

/-- The result of a task, if the tasks inside it stay below the given depth. -/
def runBelow (host : Host ν) : Nat → (task : Task ν) → Option task.Result
  | 0, _ => none
  | depth + 1, task => step host (runBelow host depth) task

open Classical in
/-- The result of a task at whatever depth it has one. -/
noncomputable def run (host : Host ν) (task : Task ν) : Option task.Result :=
  if h : ∃ depth result, runBelow host depth task = some result then
    some h.choose_spec.choose
  else none

/-- The value of an expression. -/
noncomputable def eval (host : Host ν) (env : Env ν) (expr : Expr) : Option (Value ν) :=
  run host (.eval env expr)

/-- How statements end, one after another. -/
noncomputable def exec (host : Host ν) (env : Env ν) (body : List Stmt) : Option (Completion ν) :=
  run host (.exec env body)

/-- The cases of a switch from the first one on whose label is the value. -/
noncomputable def select (host : Host ν) (env : Env ν) (value : Value ν)
    (cases : List (Case Expr Stmt)) : Option (Completion ν) :=
  run host (.select env value cases)

/-- The result of a function. -/
noncomputable def call (host : Host ν) (function : Value ν) (args : List (Value ν)) :
    Option (Value ν) :=
  run host (.call function args)

/-- What an item defines for the code; types and imports define nothing. -/
noncomputable def Item.eval (host : Host ν) (env : Env ν) : Item → Option (Value ν)
  | .function _ _ params _ body => some (.closure (params.map (·.name)) body env)
  | .const _ _ value => Target.eval host env value
  | .typeAlias .. | .imports .. => none

/-! ## The limit of all depths

Deeper and deeper runs approximate the result, and a step keeps approximation.  From this follows
the equation of `run`, and nothing after it mentions depths.
-/

/-- The results come closer to the limit: one that there is stays, and the limit is among them. -/
structure Approximates {α : Type} (results : Nat → Option α) (limit : Option α) : Prop where
  stays : ∀ {m n a}, m ≤ n → results m = some a → results n = some a
  eq_some_iff : ∀ {a}, limit = some a ↔ ∃ n, results n = some a

namespace Approximates

variable {α β : Type} {results : Nat → Option α} {limit : Option α}

theorem unique {limit' : Option α} (h : Approximates results limit)
    (h' : Approximates results limit') : limit = limit' := by
  ext a
  rw [h.eq_some_iff, h'.eq_some_iff]

theorem const (limit : Option α) : Approximates (fun _ => limit) limit :=
  ⟨fun _ h => h, ⟨fun h => ⟨0, h⟩, fun ⟨_, h⟩ => h⟩⟩

/-- Two results, where the second is there if the first is, are at their limit from the second
on. -/
theorem pair {first second : Option α} (h : ∀ a, first = some a → second = some a) :
    Approximates (fun n => if n = 0 then first else second) second := by
  constructor
  · intro m n a hle ha
    by_cases hn : n = 0
    · have hm : m = 0 := by omega
      simpa [hm, hn] using ha
    · by_cases hm : m = 0
      · simpa [hn] using h a (by simpa [hm] using ha)
      · simpa [hm, hn] using ha
  · intro a
    refine ⟨fun ha => ⟨1, ha⟩, ?_⟩
    rintro ⟨n, ha⟩
    by_cases hn : n = 0
    · exact h a (by simpa [hn] using ha)
    · simpa [hn] using ha

theorem succ (h : Approximates results limit) : Approximates (fun n => results (n + 1)) limit := by
  refine ⟨fun hle => h.stays (Nat.succ_le_succ hle), h.eq_some_iff.trans ⟨?_, ?_⟩⟩
  · rintro ⟨n, hn⟩
    exact ⟨n, h.stays (Nat.le_succ n) hn⟩
  · rintro ⟨n, hn⟩
    exact ⟨n + 1, hn⟩

theorem bind {next : Nat → α → Option β} {limitNext : α → Option β}
    (h : Approximates results limit) (hnext : ∀ a, Approximates (next · a) (limitNext a)) :
    Approximates (fun n => results n >>= next n) (limit >>= limitNext) := by
  simp only [Option.bind_eq_bind]
  constructor
  · intro m n b hle hb
    obtain ⟨a, ha, hb⟩ := Option.bind_eq_some_iff.mp hb
    exact Option.bind_eq_some_iff.mpr ⟨a, h.stays hle ha, (hnext a).stays hle hb⟩
  · intro b
    simp only [Option.bind_eq_some_iff]
    constructor
    · rintro ⟨a, ha, hb⟩
      obtain ⟨m, hm⟩ := h.eq_some_iff.mp ha
      obtain ⟨n, hn⟩ := (hnext a).eq_some_iff.mp hb
      -- both are there from the greater of the two depths on
      exact ⟨max m n, a, h.stays (Nat.le_max_left m n) hm,
        (hnext a).stays (Nat.le_max_right m n) hn⟩
    · rintro ⟨n, a, ha, hb⟩
      exact ⟨a, h.eq_some_iff.mpr ⟨n, ha⟩, (hnext a).eq_some_iff.mpr ⟨n, hb⟩⟩

theorem mapM {f : Nat → β → Option α} {limitF : β → Option α}
    (h : ∀ b, Approximates (f · b) (limitF b)) (bs : List β) :
    Approximates (fun n => bs.mapM (f n)) (bs.mapM limitF) := by
  induction bs with
  | nil => exact const _
  | cons b bs ih =>
    simp only [List.mapM_cons]
    exact (h b).bind fun a => ih.bind fun as => const _

end Approximates

/-- A step keeps approximation, since it needs finitely many results. -/
theorem step_approximates (host : Host ν) {self : Nat → (task : Task ν) → Option task.Result}
    {limit : (task : Task ν) → Option task.Result}
    (h : ∀ task, Approximates (self · task) (limit task)) (task : Task ν) :
    Approximates (fun n => step host (self n) task) (step host limit task) := by
  cases task with
  | eval env expr =>
    cases expr with
    | ident name =>
      simp only [step]
      cases env.lookup name with
      | none => exact .const _
      | some slot =>
        cases slot with
        | value value => exact .const _
        | const definition outer => exact h _
    | str value => exact .const _
    | bool value => exact .const _
    | member object property => exact (h _).bind fun value => .const _
    | call callee args =>
      refine (h _).bind fun function => ?_
      exact (Approximates.mapM (fun arg => h (.eval env arg)) args).bind fun values => h _
    | object assignments =>
      simp only [step]
      refine Approximates.bind (.mapM (fun a => ?_) assignments) fun properties => .const _
      exact (h _).bind fun value => .const _
    | arrow params result => exact .const _
    | arrowBlock params body => exact .const _
    | binary op lhs rhs =>
      cases op with
      | and =>
        refine (h _).bind fun value : Value ν => ?_
        cases value with
        | bool b =>
          cases b with
          | true => exact h _
          | false => exact .const _
        | _ => exact .const _
      | strictEq => exact (h _).bind fun a => (h _).bind fun b => .const _
  | exec env body =>
    cases body with
    | nil => exact .const _
    | cons stmt rest =>
      cases stmt with
      | ret value => exact (h _).bind fun value => .const _
      | ifThen condition inner =>
        refine (h _).bind fun value : Value ν => ?_
        cases value with
        | bool b =>
          cases b with
          | true =>
            refine (h _).bind fun completion : Completion ν => ?_
            cases completion with
            | normal => exact h _
            | returned value => exact .const _
          | false => exact h _
        | _ => exact .const _
      | switch scrutinee cases =>
        refine (h _).bind fun value => (h _).bind fun completion : Completion ν => ?_
        cases completion with
        | normal => exact h _
        | returned value => exact .const _
      | const name type definition => exact (h _).bind fun _ => h _
  | select env value cases =>
    cases cases with
    | nil => exact .const _
    | cons first rest =>
      refine (h _).bind fun label => (Approximates.const _).bind fun isLabel => ?_
      cases isLabel with
      | true => exact h _
      | false => exact h _
  | call function args =>
    cases function with
    | closure params body env =>
      refine (h _).bind fun completion : Completion ν => ?_
      cases completion with
      | normal => exact .const _
      | returned value => exact .const _
    | _ => exact .const _

/-- A step that has a result keeps it when the tasks that it needs have theirs. -/
theorem step_mono (host : Host ν) {self self' : (task : Task ν) → Option task.Result}
    (h : ∀ task result, self task = some result → self' task = some result) (task : Task ν)
    {result : task.Result} (hstep : step host self task = some result) :
    step host self' task = some result := by
  have hpair := fun task => Approximates.pair (h task)
  exact (step_approximates host hpair task).stays (Nat.zero_le 1) hstep

theorem runBelow_succ (host : Host ν) (depth : Nat) (task : Task ν) {result : task.Result}
    (h : runBelow host depth task = some result) :
    runBelow host (depth + 1) task = some result := by
  induction depth generalizing task with
  | zero => cases h
  | succ depth ih => exact step_mono host (fun task' _ h' => ih task' h') task h

theorem runBelow_approximates (host : Host ν) (task : Task ν) :
    Approximates (runBelow host · task) (run host task) := by
  have hstays : ∀ {m n : Nat} {a : task.Result}, m ≤ n → runBelow host m task = some a →
      runBelow host n task = some a := by
    intro m n a hle ha
    induction hle with
    | refl => exact ha
    | step _ ih => exact runBelow_succ host _ task ih
  refine ⟨hstays, fun {a} => ?_⟩
  rw [run]
  split
  · rename_i h
    obtain ⟨depth, hdepth⟩ : ∃ depth, runBelow host depth task = some h.choose_spec.choose :=
      ⟨_, h.choose_spec.choose_spec⟩
    constructor
    · intro ha
      exact ⟨depth, hdepth.trans ha⟩
    · rintro ⟨n, ha⟩
      rcases Nat.le_total depth n with hle | hle
      · exact (hstays hle hdepth).symm.trans ha
      · exact hdepth.symm.trans (hstays hle ha)
  · rename_i h
    constructor
    · exact nofun
    · rintro ⟨n, ha⟩
      exact absurd ⟨n, a, ha⟩ h

/-- The result of a task comes of a step from the results of tasks. -/
theorem run_eq (host : Host ν) (task : Task ν) : run host task = step host (run host) task :=
  (runBelow_approximates host task).succ.unique
    (step_approximates host (runBelow_approximates host) task)

/-! ## One construct at a time -/

section Constructs

variable {host : Host ν} {env : Env ν}

@[simp]
theorem eval_str (value : String) : eval host env (.str value) = some (.str value) := by
  rw [eval, run_eq]
  rfl

@[simp]
theorem eval_bool (value : Bool) : eval host env (.bool value) = some (.bool value) := by
  rw [eval, run_eq]
  rfl

@[simp]
theorem eval_arrow (params : List String) (result : Expr) :
    eval host env (.arrow params result) = some (.closure params [.ret result] env) := by
  rw [eval, run_eq]
  rfl

@[simp]
theorem eval_arrowBlock (params : List String) (body : List Stmt) :
    eval host env (.arrowBlock params body) = some (.closure params body env) := by
  rw [eval, run_eq]
  rfl

theorem eval_member (object : Expr) (property : String) :
    eval host env (.member object property) =
      (eval host env object).bind (·.read host property) := by
  rw [eval, run_eq]
  rfl

theorem eval_call (callee : Expr) (args : List Expr) :
    eval host env (.call callee args) =
      (eval host env callee).bind fun function =>
        (args.mapM (eval host env)).bind (call host function) := by
  rw [eval, run_eq]
  rfl

/-- An object holds the values of its assignments; a later one hides an earlier one of its name. -/
theorem eval_object_of_forall₂ {assignments : List (Assignment Expr)} {values : List (Value ν)}
    (h : List.Forall₂ (fun a value => eval host env (a.value.getD (.ident a.name)) = some value)
      assignments values) :
    eval host env (.object assignments) =
      some (.object ((assignments.map (·.name)).zip values).reverse) := by
  have hproperties : (assignments.mapM fun a =>
      (eval host env (a.value.getD (.ident a.name))).bind fun value => some (a.name, value)) =
      some ((assignments.map (·.name)).zip values) := by
    induction h with
    | nil => rfl
    | cons hvalue _ ih => simp [List.mapM_cons, hvalue, ih]
  rw [eval, run_eq]
  change (assignments.mapM fun a => (eval host env (a.value.getD (.ident a.name))).bind
    fun value => some (a.name, value)).bind _ = _
  rw [hproperties]
  rfl

theorem eval_strictEq (lhs rhs : Expr) :
    eval host env (.strictEq lhs rhs) =
      (eval host env lhs).bind fun a => (eval host env rhs).bind fun b =>
        (a.strictEq b).map .bool := by
  simp only [Option.map_eq_bind]
  rw [Expr.strictEq, eval, run_eq]
  rfl

theorem eval_and (lhs rhs : Expr) :
    eval host env (.and lhs rhs) =
      (eval host env lhs).bind fun
        | .bool true => eval host env rhs
        | .bool false => some (.bool false)
        | _ => none := by
  rw [Expr.and, eval, run_eq]
  refine congrArg (Option.bind _) (funext fun value : Value ν => ?_)
  cases value with
  | bool b => cases b <;> rfl
  | _ => rfl

theorem exec_ret (expr : Expr) (rest : List Stmt) :
    exec host env (.ret expr :: rest) = (eval host env expr).map .returned := by
  rw [Option.map_eq_bind, exec, run_eq]
  rfl

/-- A condition in front of a return decides whether the statements go on. -/
theorem exec_ifThen_ret {condition : Expr} {b : Bool}
    (h : eval host env condition = some (.bool b)) (expr : Expr) (rest : List Stmt) :
    exec host env (.ifThen condition [.ret expr] :: rest) =
      if b then (eval host env expr).map .returned else exec host env rest := by
  rw [exec, run_eq]
  change (eval host env condition).bind _ = _
  rw [h]
  cases b with
  | false => rfl
  | true =>
    change (exec host env [.ret expr]).bind _ = _
    rw [exec_ret]
    cases eval host env expr <;> rfl

/-- After a constant that has a value, the statements go on with the constant in scope. -/
theorem exec_const {name : String} {type : Option TypeNode} {definition : Expr} {value : Value ν}
    (h : eval host ((name, .const definition env) :: env) definition = some value)
    (rest : List Stmt) :
    exec host env (.const name type definition :: rest) =
      exec host ((name, .const definition env) :: env) rest := by
  rw [exec, run_eq]
  change (eval host _ definition).bind _ = _
  rw [h]
  rfl

theorem select_cons {first : Case Expr Stmt} {label : Value ν}
    (h : eval host env first.label = some label) (value : Value ν)
    (rest : List (Case Expr Stmt)) :
    select host env value (first :: rest) =
      (value.strictEq label).bind fun isLabel =>
        if isLabel then exec host env (first.body :: rest.map (·.body))
        else select host env value rest := by
  rw [select, run_eq]
  change (eval host env first.label).bind _ = _
  rw [h]
  rfl

end Constructs

/-! ## Names in scope -/

theorem lookup_bind_of_notMem {name : String} {params : List String} (h : name ∉ params)
    (args : List (Value ν)) (env : Env ν) :
    (Env.bind params args env).lookup name = env.lookup name := by
  induction params generalizing args env with
  | nil => rfl
  | cons param params ih =>
    simp only [List.mem_cons, not_or] at h
    cases args with
    | nil => rw [Env.bind, ih h.2, List.lookup_cons_of_ne h.1]
    | cons arg args => rw [Env.bind, ih h.2, List.lookup_cons_of_ne h.1]

/-- Where parameters differ, each stands for its own argument. -/
theorem lookup_bind_of_mem {bindings : List (String × Value ν)}
    (hnodup : (bindings.map (·.1)).Nodup) {name : String} {value : Value ν}
    (hmem : (name, value) ∈ bindings) (env : Env ν) :
    (Env.bind (bindings.map (·.1)) (bindings.map (·.2)) env).lookup name =
      some (.value value) := by
  induction bindings generalizing env with
  | nil => cases hmem
  | cons binding bindings ih =>
    simp only [List.map_cons, List.nodup_cons] at hnodup
    rw [List.map_cons, List.map_cons, Env.bind]
    rcases List.mem_cons.mp hmem with rfl | hmem
    · rw [lookup_bind_of_notMem hnodup.1, List.lookup_cons_self]
    · exact ih hnodup.2 hmem _

theorem eval_ident {host : Host ν} {env : Env ν} {name : String} {value : Value ν}
    (h : env.lookup name = some (.value value)) : eval host env (.ident name) = some value := by
  rw [eval, run_eq, step, h]

/-- A constant has the value of its definition, which may mention the constant. -/
theorem eval_ident_const {host : Host ν} {env outer : Env ν} {name : String} {definition : Expr}
    (h : env.lookup name = some (.const definition outer)) :
    eval host env (.ident name) =
      eval host ((name, .const definition outer) :: outer) definition := by
  rw [eval, run_eq, step, h]
  rfl

theorem eval_member_ident {host : Host ν} {env : Env ν} {name : String} {value : Value ν}
    (h : env.lookup name = some (.value value)) (property : String) :
    eval host env (.member (.ident name) property) = value.read host property := by
  rw [eval_member, eval_ident h, Option.bind_some]

/-! ## Properties -/

/-- Where the names of properties differ, each holds its own value. -/
theorem read_object_of_mem {properties : List (String × Value ν)}
    (hnodup : (properties.map (·.1)).Nodup) {name : String} {value : Value ν}
    (hmem : (name, value) ∈ properties) (host : Host ν) :
    (Value.object properties).read host name = some value := by
  rw [Value.read, List.lookup_eq_some_of_mem hnodup hmem]
  rfl

theorem Value.IsObject.exists_read {value : Value ν} (h : value.IsObject) (host : Host ν)
    (property : String) : ∃ v, value.read host property = some v := by
  cases value with
  | object properties => exact ⟨_, rfl⟩
  | host value => exact ⟨_, rfl⟩
  | _ => exact h.elim

theorem Value.isObject_of_read {value v : Value ν} {host : Host ν} {property : String}
    (h : value.read host property = some v) : value.IsObject := by
  cases value with
  | object properties => trivial
  | host value => trivial
  | _ => cases h

/-! ## Functions and switches -/

/-- A function whose body comes down to returning an expression has the value of the expression. -/
theorem call_closure_of_exec {host : Host ν} {params : List String} {body : List Stmt}
    {env : Env ν} {args : List (Value ν)} {value : Option (Value ν)}
    (h : exec host (Env.bind params args env) body = value.map .returned) :
    call host (.closure params body env) args = value := by
  rw [call, run_eq]
  change (exec host _ body).bind _ = _
  rw [h]
  cases value <;> rfl

/-- Where labels differ, a switch goes to the case with the label. -/
theorem exec_switch_of_mem {host : Host ν} {env : Env ν} {scrutinee : Expr}
    {arms : List (String × Expr)} (hnodup : (arms.map (·.1)).Nodup) {label : String} {expr : Expr}
    (hmem : (label, expr) ∈ arms) (hscrutinee : eval host env scrutinee = some (.str label)) :
    exec host env [.switch scrutinee (arms.map fun arm => ⟨.str arm.1, .ret arm.2⟩)] =
      (eval host env expr).map .returned := by
  have hselect : select host env (.str label) (arms.map fun arm => ⟨.str arm.1, .ret arm.2⟩) =
      (eval host env expr).map .returned := by
    induction arms with
    | nil => cases hmem
    | cons arm arms ih =>
      obtain ⟨hnotMem, hnodup⟩ := List.nodup_cons.mp hnodup
      rw [List.map_cons, select_cons (eval_str arm.1)]
      rcases List.mem_cons.mp hmem with rfl | hmem
      · simp [Value.strictEq, exec_ret]
      · have hne : label ≠ arm.1 := fun heq => hnotMem (List.mem_map.mpr ⟨_, hmem, heq⟩)
        simp [Value.strictEq, hne, ih hnodup hmem]
  rw [exec, run_eq]
  change (eval host env scrutinee).bind _ = _
  rw [hscrutinee]
  change (select host env (.str label) _).bind _ = _
  rw [hselect]
  cases eval host env expr <;> rfl

/-! ## Conjunctions -/

theorem eval_and_eq_true_iff {host : Host ν} {env : Env ν} {lhs rhs : Expr} :
    eval host env (.and lhs rhs) = some (.bool true) ↔
      eval host env lhs = some (.bool true) ∧ eval host env rhs = some (.bool true) := by
  rw [eval_and]
  cases eval host env lhs with
  | none => simp
  | some value =>
    cases value with
    | bool b => cases b <;> simp
    | _ => simp

theorem eval_and_of_bool {host : Host ν} {env : Env ν} {lhs rhs : Expr} {a b : Bool}
    (ha : eval host env lhs = some (.bool a)) (hb : eval host env rhs = some (.bool b)) :
    eval host env (.and lhs rhs) = some (.bool (a && b)) := by
  rw [eval_and, ha]
  cases a
  · rfl
  · exact hb

/-- A conjunction is true if all its parts are. -/
theorem eval_conjunction_eq_true_iff {host : Host ν} {env : Env ν} {exprs : List Expr} :
    eval host env (.conjunction exprs) = some (.bool true) ↔
      ∀ expr ∈ exprs, eval host env expr = some (.bool true) := by
  have hfoldl : ∀ (first : Expr) (rest : List Expr),
      eval host env (rest.foldl Expr.and first) = some (.bool true) ↔
        ∀ expr ∈ first :: rest, eval host env expr = some (.bool true) := by
    intro first rest
    induction rest generalizing first with
    | nil => simp
    | cons second rest ih =>
      rw [List.foldl_cons, ih]
      simp only [List.forall_mem_cons, eval_and_eq_true_iff, and_assoc]
  cases exprs with
  | nil => simp [Expr.conjunction]
  | cons first rest => exact hfoldl first rest

theorem exists_eval_conjunction {host : Host ν} {env : Env ν} {exprs : List Expr}
    (h : ∀ expr ∈ exprs, ∃ b, eval host env expr = some (.bool b)) :
    ∃ b, eval host env (.conjunction exprs) = some (.bool b) := by
  have hfoldl : ∀ (first : Expr) (rest : List Expr),
      (∀ expr ∈ first :: rest, ∃ b, eval host env expr = some (.bool b)) →
      ∃ b, eval host env (rest.foldl Expr.and first) = some (.bool b) := by
    intro first rest
    induction rest generalizing first with
    | nil => exact fun h => h first (by simp)
    | cons second rest ih =>
      intro h
      obtain ⟨⟨a, ha⟩, ⟨b, hb⟩, hrest⟩ := by simpa only [List.forall_mem_cons] using h
      exact ih _ (List.forall_mem_cons.mpr ⟨⟨_, eval_and_of_bool ha hb⟩, hrest⟩)
  cases exprs with
  | nil => exact ⟨true, eval_bool true⟩
  | cons first rest => exact hfoldl first rest h

end AlgebraicData.Target
