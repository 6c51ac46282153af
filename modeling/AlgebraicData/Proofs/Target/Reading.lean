import AlgebraicData.Proofs.Target.Lexeme
import AlgebraicData.Proofs.Target.Lines

/-!
# Reading expressions back

`Derives` is the grammar of expressions over lexemes, one constructor for each production:

    conjunction := conjunction "&&" comparison | comparison
    comparison  := comparison "===" access | access
    access      := access "." word | access "[" string "]"
                 | access "(" (conjunction ("," conjunction)*)? ")"
                 | word | string | "(" conjunction ")"

So `===` binds tighter than `&&`, both group to the left, and properties and calls bind tightest.
The printer knows nothing of this grammar: it puts parentheses where an operand has an operator
that binds less tightly than the one around it.  It is shown that

* the grammar is unambiguous (`Derives.unique`): a `Reader` that goes through the lexemes once, and
  keeps what is still open, ends with the tree of every derivation;
* an expression that groups its operators as the grammar does (`Expr.LeftGrouped`) is printed as
  lexemes that derive it (`Expr.LeftGrouped.renders`).
-/

namespace AlgebraicData.Target

open Layout

/-! ## The grammar -/

/-- How tightly the parts of an expression hold together. -/
inductive Level where
  /-- Anything, also `a && b`. -/
  | conjunction
  /-- Anything that holds together at least as `a === b` does. -/
  | comparison
  /-- `a`, `a.b`, `a(b)` and the like. -/
  | access
deriving DecidableEq, Repr

/-- The lexemes can be derived from the level, and stand for the expression. -/
inductive Derives : Level → List Lexeme → Expr → Prop where
  | ident {name : String} :
      isReserved name = false → Derives .access [.word name] (.ident name)
  | boolTrue : Derives .access [.word "true"] (.bool true)
  | boolFalse : Derives .access [.word "false"] (.bool false)
  | str (value : String) : Derives .access [.str value] (.str value)
  | group {lexemes : List Lexeme} {expr : Expr} :
      Derives .conjunction lexemes expr →
      Derives .access (.sign .openParen :: (lexemes ++ [.sign .closeParen])) expr
  | dot {lexemes : List Lexeme} {object : Expr} (property : String) :
      Derives .access lexemes object →
      Derives .access (lexemes ++ [.sign .dot, .word property]) (.member object property)
  | bracket {lexemes : List Lexeme} {object : Expr} (property : String) :
      Derives .access lexemes object →
      Derives .access (lexemes ++ [.sign .openBracket, .str property, .sign .closeBracket])
        (.member object property)
  /-- Each argument comes with its lexemes. -/
  | call {lexemes : List Lexeme} {callee : Expr} (args : List (List Lexeme × Expr)) :
      Derives .access lexemes callee → (∀ arg ∈ args, Derives .conjunction arg.1 arg.2) →
      Derives .access
        (lexemes ++ .sign .openParen ::
          ([Lexeme.sign .comma].intercalate (args.map Prod.fst) ++ [.sign .closeParen]))
        (.call callee (args.map Prod.snd))
  | strictEq {lexemes lexemes' : List Lexeme} {lhs rhs : Expr} :
      Derives .comparison lexemes lhs → Derives .access lexemes' rhs →
      Derives .comparison (lexemes ++ .sign .strictEq :: lexemes') (.binary .strictEq lhs rhs)
  | ofAccess {lexemes : List Lexeme} {expr : Expr} :
      Derives .access lexemes expr → Derives .comparison lexemes expr
  | and {lexemes lexemes' : List Lexeme} {lhs rhs : Expr} :
      Derives .conjunction lexemes lhs → Derives .comparison lexemes' rhs →
      Derives .conjunction (lexemes ++ .sign .and :: lexemes') (.binary .and lhs rhs)
  | ofComparison {lexemes : List Lexeme} {expr : Expr} :
      Derives .comparison lexemes expr → Derives .conjunction lexemes expr

/-- The text can be read as the expression. -/
def Denotes (text : String) (expr : Expr) : Prop :=
  ∃ lexemes, Spells text.toList lexemes ∧ Derives .conjunction lexemes expr

/-! ## A reader -/

/-- The left operands that wait for a right one, of `&&` and of `===`. -/
structure Pending where
  conjunct : Option Expr
  comparand : Option Expr

/-- An open parenthesis, with what was pending before it. -/
inductive Frame where
  | group (pending : Pending)
  /-- The callee and the arguments read so far. -/
  | call (pending : Pending) (callee : Expr) (args : List Expr)

/-- Where the reader stands inside an operand. -/
inductive Stage where
  /-- The operand comes next. -/
  | before
  /-- The expression has been read, and may go on. -/
  | after (expr : Expr)
  /-- The name of a property comes next. -/
  | dot (object : Expr)
  /-- The string that names a property comes next. -/
  | bracket (object : Expr)
  /-- The closing bracket comes next. -/
  | closing (access : Expr)

/-- What has been read and is still open, the innermost parenthesis first. -/
structure Reader where
  frames : List Frame
  pending : Pending
  stage : Stage

/-- The right operand with the left one, if there is one. -/
def complete (op : BinaryOp) : Option Expr → Expr → Expr
  | none, rhs => rhs
  | some lhs, rhs => .binary op lhs rhs

/-- All that is pending, with the last operand. -/
def Pending.value (pending : Pending) (operand : Expr) : Expr :=
  complete .and pending.conjunct (complete .strictEq pending.comparand operand)

/-- The expression that a word is by itself. -/
def wordValue? (name : String) : Option Expr :=
  if name = "true" then some (.bool true)
  else if name = "false" then some (.bool false)
  else if isReserved name then none
  else some (.ident name)

theorem wordValue?_of_not_reserved {name : String} (h : isReserved name = false) :
    wordValue? name = some (.ident name) := by
  have htrue : name ≠ "true" := by
    rintro rfl
    exact absurd h (by decide)
  have hfalse : name ≠ "false" := by
    rintro rfl
    exact absurd h (by decide)
  simp [wordValue?, htrue, hfalse, h]

namespace Reader

/-- Nothing has been read since the innermost parenthesis. -/
def fresh (frames : List Frame) : Reader :=
  ⟨frames, ⟨none, none⟩, .before⟩

/-- The innermost parenthesis is closed after an expression. -/
def closeAfter (expr : Expr) : List Frame → Option Reader
  | [] => none
  | .group pending :: frames => some ⟨frames, pending, .after expr⟩
  | .call pending callee args :: frames =>
    some ⟨frames, pending, .after (.call callee (args ++ [expr]))⟩

/-- The innermost parenthesis is closed with nothing in it. -/
def closeEmpty : List Frame → Pending → Option Reader
  | .call pending callee [] :: frames, ⟨none, none⟩ =>
    some ⟨frames, pending, .after (.call callee [])⟩
  | _, _ => none

/-- An argument has been read, and another one follows. -/
def nextArgument (expr : Expr) : List Frame → Option Reader
  | .call pending callee args :: frames =>
    some (fresh (.call pending callee (args ++ [expr]) :: frames))
  | _ => none

/-- One lexeme more. -/
def step : Reader → Lexeme → Option Reader
  | ⟨frames, pending, .before⟩, .word name =>
    (wordValue? name).map fun expr => ⟨frames, pending, .after expr⟩
  | ⟨frames, pending, .before⟩, .str value => some ⟨frames, pending, .after (.str value)⟩
  | ⟨frames, pending, .before⟩, .sign .openParen => some (fresh (.group pending :: frames))
  | ⟨frames, pending, .before⟩, .sign .closeParen => closeEmpty frames pending
  | ⟨frames, pending, .after expr⟩, .sign .dot => some ⟨frames, pending, .dot expr⟩
  | ⟨frames, pending, .after expr⟩, .sign .openBracket => some ⟨frames, pending, .bracket expr⟩
  | ⟨frames, pending, .after expr⟩, .sign .openParen =>
    some (fresh (.call pending expr [] :: frames))
  | ⟨frames, pending, .after expr⟩, .sign .strictEq =>
    some ⟨frames, ⟨pending.conjunct, complete .strictEq pending.comparand expr⟩, .before⟩
  | ⟨frames, pending, .after expr⟩, .sign .and =>
    some ⟨frames, ⟨pending.value expr, none⟩, .before⟩
  | ⟨frames, pending, .after expr⟩, .sign .comma => nextArgument (pending.value expr) frames
  | ⟨frames, pending, .after expr⟩, .sign .closeParen => closeAfter (pending.value expr) frames
  | ⟨frames, pending, .dot object⟩, .word property =>
    some ⟨frames, pending, .after (.member object property)⟩
  | ⟨frames, pending, .bracket object⟩, .str property =>
    some ⟨frames, pending, .closing (.member object property)⟩
  | ⟨frames, pending, .closing access⟩, .sign .closeBracket =>
    some ⟨frames, pending, .after access⟩
  | _, _ => none

/-- The reader goes through the lexemes and ends as the second one. -/
def Runs (reader : Reader) (lexemes : List Lexeme) (reader' : Reader) : Prop :=
  lexemes.foldlM step reader = some reader'

variable {reader reader' reader'' : Reader} {lexemes lexemes' : List Lexeme}

theorem Runs.refl (reader : Reader) : Runs reader [] reader := rfl

theorem Runs.cons {lexeme : Lexeme} (hstep : reader.step lexeme = some reader')
    (h : Runs reader' lexemes reader'') : Runs reader (lexeme :: lexemes) reader'' := by
  unfold Runs at h ⊢
  rw [List.foldlM_cons, hstep]
  exact h

theorem Runs.append (h : Runs reader lexemes reader') (h' : Runs reader' lexemes' reader'') :
    Runs reader (lexemes ++ lexemes') reader'' := by
  unfold Runs at h h' ⊢
  rw [List.foldlM_append, h]
  exact h'

theorem Runs.unique (h : Runs reader lexemes reader') (h' : Runs reader lexemes reader'') :
    reader' = reader'' :=
  Option.some.inj (h.symm.trans h')

end Reader

open Reader

/-! ## The reader follows every derivation -/

/-- From every place where the level may begin the reader goes through the lexemes, and what is
pending then amounts to the expression. -/
def Level.Reads : Level → List Lexeme → Expr → Prop
  | .access, lexemes, expr => ∀ frames pending,
      Runs ⟨frames, pending, .before⟩ lexemes ⟨frames, pending, .after expr⟩
  | .comparison, lexemes, expr => ∀ frames conjunct, ∃ comparand operand,
      Runs ⟨frames, ⟨conjunct, none⟩, .before⟩ lexemes
        ⟨frames, ⟨conjunct, comparand⟩, .after operand⟩ ∧
      complete .strictEq comparand operand = expr
  | .conjunction, lexemes, expr => ∀ frames, ∃ pending operand,
      Runs (fresh frames) lexemes ⟨frames, pending, .after operand⟩ ∧
      pending.value operand = expr

section Productions

variable {lexemes lexemes' : List Lexeme} {expr lhs rhs : Expr}

theorem reads_group (h : Level.conjunction.Reads lexemes expr) :
    Level.access.Reads (.sign .openParen :: (lexemes ++ [.sign .closeParen])) expr := by
  intro frames pending
  obtain ⟨inner, operand, hruns, rfl⟩ := h (.group pending :: frames)
  exact .cons rfl (hruns.append (.cons rfl (.refl _)))

/-- The arguments of a call, when those in `done` have been read. -/
theorem runs_arguments {args : List (List Lexeme × Expr)}
    (hargs : ∀ arg ∈ args, Level.conjunction.Reads arg.1 arg.2) (hne : args ≠ [])
    (frames : List Frame) (pending : Pending) (callee : Expr) (done : List Expr) :
    Runs (fresh (.call pending callee done :: frames))
      ([Lexeme.sign .comma].intercalate (args.map Prod.fst) ++ [.sign .closeParen])
      ⟨frames, pending, .after (.call callee (done ++ args.map Prod.snd))⟩ := by
  induction args generalizing done with
  | nil => exact absurd rfl hne
  | cons arg args ih =>
    obtain ⟨spelling, value⟩ := arg
    obtain ⟨harg, hmore⟩ := List.forall_mem_cons.mp hargs
    obtain ⟨inner, operand, hruns, rfl⟩ := harg (.call pending callee done :: frames)
    cases args with
    | nil =>
      rw [List.map_singleton, List.intercalate_singleton, List.map_singleton]
      exact hruns.append (.cons rfl (.refl _))
    | cons next args =>
      have hrest := ih hmore (List.cons_ne_nil _ _) (done ++ [inner.value operand])
      rw [List.append_assoc, List.singleton_append] at hrest
      rw [List.map_cons, List.map_cons, List.intercalate_cons_cons, ← List.map_cons,
        List.append_assoc, List.append_assoc]
      exact hruns.append (.cons rfl hrest)

theorem reads_call {args : List (List Lexeme × Expr)} (h : Level.access.Reads lexemes expr)
    (hargs : ∀ arg ∈ args, Level.conjunction.Reads arg.1 arg.2) :
    Level.access.Reads
      (lexemes ++ .sign .openParen ::
        ([Lexeme.sign .comma].intercalate (args.map Prod.fst) ++ [.sign .closeParen]))
      (.call expr (args.map Prod.snd)) := by
  intro frames pending
  refine (h frames pending).append (.cons rfl ?_)
  cases args with
  | nil => exact .cons rfl (.refl _)
  | cons arg args => exact runs_arguments hargs (List.cons_ne_nil _ _) frames pending expr []

theorem reads_strictEq (hl : Level.comparison.Reads lexemes lhs)
    (hr : Level.access.Reads lexemes' rhs) :
    Level.comparison.Reads (lexemes ++ .sign .strictEq :: lexemes') (.binary .strictEq lhs rhs) := by
  intro frames conjunct
  obtain ⟨comparand, operand, hruns, rfl⟩ := hl frames conjunct
  exact ⟨_, rhs, hruns.append (.cons rfl (hr frames _)), rfl⟩

theorem reads_and (hl : Level.conjunction.Reads lexemes lhs)
    (hr : Level.comparison.Reads lexemes' rhs) :
    Level.conjunction.Reads (lexemes ++ .sign .and :: lexemes') (.binary .and lhs rhs) := by
  intro frames
  obtain ⟨pending, operand, hruns, rfl⟩ := hl frames
  -- at `&&` all that is pending becomes its left operand, and a comparison begins
  obtain ⟨comparand, operand', hruns', rfl⟩ := hr frames (some (pending.value operand))
  exact ⟨_, operand', hruns.append (.cons rfl hruns'), rfl⟩

end Productions

theorem Derives.reads {level : Level} {lexemes : List Lexeme} {expr : Expr}
    (h : Derives level lexemes expr) : level.Reads lexemes expr := by
  induction h with
  | ident hname =>
    exact fun frames pending =>
      .cons (by rw [Reader.step, wordValue?_of_not_reserved hname]; rfl) (.refl _)
  | boolTrue => exact fun frames pending => .cons rfl (.refl _)
  | boolFalse => exact fun frames pending => .cons rfl (.refl _)
  | str value => exact fun frames pending => .cons rfl (.refl _)
  | group _ ih => exact reads_group ih
  | dot property _ ih =>
    exact fun frames pending => (ih frames pending).append (.cons rfl (.cons rfl (.refl _)))
  | bracket property _ ih =>
    exact fun frames pending =>
      (ih frames pending).append (.cons rfl (.cons rfl (.cons rfl (.refl _))))
  | call args _ _ ih ihargs => exact reads_call ih ihargs
  | strictEq _ _ ihl ihr => exact reads_strictEq ihl ihr
  | ofAccess _ ih => exact fun frames conjunct => ⟨none, _, ih frames _, rfl⟩
  | and _ _ ihl ihr => exact reads_and ihl ihr
  | ofComparison _ ih =>
    intro frames
    obtain ⟨comparand, operand, hruns, rfl⟩ := ih frames none
    exact ⟨_, operand, hruns, rfl⟩

/-- Lexemes stand for one expression at most. -/
theorem Derives.unique {lexemes : List Lexeme} {expr expr' : Expr}
    (h : Derives .conjunction lexemes expr) (h' : Derives .conjunction lexemes expr') :
    expr = expr' := by
  obtain ⟨pending, operand, hruns, rfl⟩ := h.reads []
  obtain ⟨pending', operand', hruns', rfl⟩ := h'.reads []
  cases hruns.unique hruns'
  rfl

/-- A text can be read as one expression at most. -/
theorem Denotes.unique {text : String} {expr expr' : Expr} (h : Denotes text expr)
    (h' : Denotes text expr') : expr = expr' := by
  obtain ⟨lexemes, hspells, hderives⟩ := h
  obtain ⟨lexemes', hspells', hderives'⟩ := h'
  rw [hspells'.unique hspells] at hderives'
  exact hderives.unique hderives'

/-! ## Expressions that group to the left -/

namespace Expr

/-- Whether an operator stands at the top of the expression. -/
def isBinary : Expr → Bool
  | .binary _ _ _ => true
  | _ => false

/-- Whether this operator stands at the top of the expression. -/
def isBinaryOf (op : BinaryOp) : Expr → Bool
  | .binary op' _ _ => op' = op
  | _ => false

/-- The expression is made of names, literals, properties, calls and operators, properties and calls
are those of something that is no operation, and no right operand has the operator to its left. -/
inductive LeftGrouped : Expr → Prop where
  | ident {name : String} : IsBindable name → LeftGrouped (.ident name)
  | str (value : String) : LeftGrouped (.str value)
  | bool (value : Bool) : LeftGrouped (.bool value)
  | member {object : Expr} (property : String) :
      LeftGrouped object → object.isBinary = false → LeftGrouped (.member object property)
  | call {callee : Expr} {args : List Expr} :
      LeftGrouped callee → callee.isBinary = false → (∀ arg ∈ args, LeftGrouped arg) →
      LeftGrouped (.call callee args)
  | binary {op : BinaryOp} {lhs rhs : Expr} :
      LeftGrouped lhs → LeftGrouped rhs → rhs.isBinaryOf op = false →
      LeftGrouped (.binary op lhs rhs)

theorem LeftGrouped.foldl_and {first : Expr} (h : first.LeftGrouped) {rest : List Expr}
    (hrest : ∀ expr ∈ rest, expr.LeftGrouped ∧ expr.isBinaryOf .and = false) :
    (rest.foldl and first).LeftGrouped := by
  induction rest generalizing first with
  | nil => exact h
  | cons next rest ih =>
    obtain ⟨⟨hnext, hop⟩, hmore⟩ := List.forall_mem_cons.mp hrest
    exact ih (.binary h hnext hop) hmore

/-- A conjunction of expressions that are none groups to the left if each of them does. -/
theorem leftGrouped_conjunction {exprs : List Expr}
    (h : ∀ expr ∈ exprs, expr.LeftGrouped ∧ expr.isBinaryOf .and = false) :
    (conjunction exprs).LeftGrouped := by
  cases exprs with
  | nil => exact .bool true
  | cons first rest =>
    obtain ⟨hfirst, hrest⟩ := List.forall_mem_cons.mp h
    exact hfirst.1.foldl_and hrest

end Expr

/-! ## Levels of printed expressions -/

/-- The tighter level has the greater number. -/
def Level.tightness : Level → Nat
  | .conjunction => 0
  | .comparison => 1
  | .access => 2

theorem Level.tightness_le (level : Level) : level.tightness ≤ Level.access.tightness := by
  cases level <;> decide

namespace BinaryOp

/-- The level of an operation and of its left operand. -/
def level : BinaryOp → Level
  | .and => .conjunction
  | .strictEq => .comparison

/-- The level of a right operand. -/
def rightLevel : BinaryOp → Level
  | .and => .comparison
  | .strictEq => .access

/-- The sign of an operator. -/
def sign : BinaryOp → Sign
  | .and => .and
  | .strictEq => .strictEq

theorem toList_infixText (op : BinaryOp) :
    op.infixText.toList = ' ' :: (op.sign.text ++ [' ']) := by
  cases op <;> decide

/-- The levels are ordered as the operators bind. -/
theorem tightness_le_of_precedence (op : BinaryOp) {op' : BinaryOp}
    (h : ¬ op'.precedence < op.precedence) : op.level.tightness ≤ op'.level.tightness := by
  revert h
  cases op <;> cases op' <;> decide

theorem rightLevel_tightness_le (op : BinaryOp) {op' : BinaryOp}
    (h : ¬ op'.precedence < op.precedence) (hne : op' ≠ op) :
    op.rightLevel.tightness ≤ op'.level.tightness := by
  revert h hne
  cases op <;> cases op' <;> decide

end BinaryOp

namespace Expr

/-- The tightest level that has the expression without parentheses. -/
def level : Expr → Level
  | .binary op _ _ => op.level
  | _ => .access

variable {expr : Expr} {op : BinaryOp}

theorem level_of_isBinary_eq_false (h : expr.isBinary = false) : expr.level = .access := by
  cases expr with
  | binary op lhs rhs => cases h
  | _ => rfl

/-- What gets no parentheses beside an operator is an operation of its level at least. -/
theorem tightness_le_of_not_looser (h : expr.isLooserThan op = false) :
    op.level.tightness ≤ expr.level.tightness := by
  cases expr with
  | binary op' lhs rhs => exact op.tightness_le_of_precedence (of_decide_eq_false h)
  | _ => exact op.level.tightness_le

/-- On the right it is tighter, unless it is an operation with that operator. -/
theorem rightLevel_tightness_le (h : expr.isLooserThan op = false)
    (hop : expr.isBinaryOf op = false) : op.rightLevel.tightness ≤ expr.level.tightness := by
  cases expr with
  | binary op' lhs rhs =>
    exact op.rightLevel_tightness_le (of_decide_eq_false h) (of_decide_eq_false hop)
  | _ => exact op.rightLevel.tightness_le

end Expr

namespace Derives

variable {level level' : Level} {lexemes lexemes' : List Lexeme} {lhs rhs expr : Expr}

/-- What a level derives, the looser levels derive too. -/
theorem loosen (h : Derives level lexemes expr) (hle : level'.tightness ≤ level.tightness) :
    Derives level' lexemes expr := by
  cases level' with
  | conjunction =>
    cases level with
    | conjunction => exact h
    | comparison => exact .ofComparison h
    | access => exact .ofComparison (.ofAccess h)
  | comparison =>
    cases level with
    | conjunction => exact absurd hle (by decide)
    | comparison => exact h
    | access => exact .ofAccess h
  | access =>
    cases level with
    | conjunction | comparison => exact absurd hle (by decide)
    | access => exact h

theorem binary {op : BinaryOp} (hl : Derives op.level lexemes lhs)
    (hr : Derives op.rightLevel lexemes' rhs) :
    Derives op.level (lexemes ++ .sign op.sign :: lexemes') (.binary op lhs rhs) := by
  cases op with
  | and => exact hl.and hr
  | strictEq => exact hl.strictEq hr

end Derives

/-! ## Printed expressions -/

/-- The layout is written as lexemes that the level derives, and they stand for the expression. -/
def Renders (indent : Nat) (level : Level) (layout : Layout) (expr : Expr) : Prop :=
  ∃ lexemes, Derives level lexemes expr ∧ Writes (layout.render indent).toList lexemes

theorem endsWord_cons {c : Char} (hc : isIdentifierRest c = false) (text : List Char) :
    EndsWord (c :: text) := by
  rintro _ ⟨⟩
  exact hc

section Rendering

variable {indent : Nat} {level : Level} {layout : Layout} {expr : Expr}

theorem Renders.loosen {level' : Level} (h : Renders indent level layout expr)
    (hle : level'.tightness ≤ level.tightness) : Renders indent level' layout expr := by
  obtain ⟨lexemes, hderives, hwrites⟩ := h
  exact ⟨lexemes, hderives.loosen hle, hwrites⟩

theorem toList_render_enclosed (indent : Nat) (layout : Layout) :
    (render indent (enclosed "(" ")" layout)).toList =
      '(' :: ((render indent layout).toList ++ [')']) := by
  rw [enclosed, toList_render_append, toList_render_append, toList_render_text, toList_render_text]
  rfl

theorem endsWord_enclosed (indent : Nat) (layout : Layout) :
    EndsWord (render indent (enclosed "(" ")" layout)).toList := by
  rw [toList_render_enclosed]
  exact endsWord_cons (by decide) _

theorem writes_enclosed {lexemes : List Lexeme}
    (h : Writes (layout.render indent).toList lexemes) :
    Writes (render indent (enclosed "(" ")" layout)).toList
      (.sign .openParen :: (lexemes ++ [.sign .closeParen])) := by
  have hclosing := h.append (writes_nil.sign .closeParen) (endsWord_cons (by decide) _)
  rw [toList_render_enclosed]
  exact hclosing.sign .openParen

/-- Parentheses make an expression fit for every level. -/
theorem Renders.parenthesized (h : Renders indent level layout expr) :
    Renders indent .access (enclosed "(" ")" layout) expr := by
  obtain ⟨lexemes, hderives, hwrites⟩ := h
  exact ⟨_, .group (hderives.loosen (Nat.zero_le _)), writes_enclosed hwrites⟩

theorem Renders.member (h : Renders indent .access layout expr) (property : String) :
    Renders indent .access (layout ++ text (accessText property)) (.member expr property) := by
  obtain ⟨lexemes, hderives, hwrites⟩ := h
  unfold Renders
  rw [toList_render_append, toList_render_text]
  unfold accessText
  split
  · rename_i hproperty
    refine ⟨_, .dot property hderives, ?_⟩
    rw [String.toList_append]
    exact hwrites.append ((writes_word hproperty).sign .dot) (endsWord_cons (by decide) _)
  · refine ⟨_, .bracket property hderives, ?_⟩
    have hclosing := (writes_quote property).append (writes_nil.sign .closeBracket)
      (endsWord_cons (by decide) _)
    rw [String.toList_append, String.toList_append, List.append_assoc]
    exact hwrites.append (hclosing.sign .openBracket) (endsWord_cons (by decide) _)

theorem Writes.operation {text text' : List Char} {lexemes lexemes' : List Lexeme}
    (h : Writes text lexemes) (h' : Writes text' lexemes') (op : BinaryOp) :
    Writes (text ++ op.infixText.toList ++ text') (lexemes ++ .sign op.sign :: lexemes') := by
  rw [op.toList_infixText, List.append_assoc, List.cons_append, List.append_assoc]
  exact h.append (h'.space.sign op.sign).space (endsWord_cons (by decide) _)

theorem Renders.binary {op : BinaryOp} {layout' : Layout} {expr' : Expr}
    (h : Renders indent op.level layout expr) (h' : Renders indent op.rightLevel layout' expr') :
    Renders indent op.level (layout ++ text op.infixText ++ layout') (.binary op expr expr') := by
  obtain ⟨lexemes, hderives, hwrites⟩ := h
  obtain ⟨lexemes', hderives', hwrites'⟩ := h'
  refine ⟨_, hderives.binary hderives', ?_⟩
  rw [toList_render_append, toList_render_append, toList_render_text]
  exact hwrites.operation hwrites' op

/-- The arguments of a call, each with the lexemes that `spelling` gives it. -/
theorem writes_arguments {args : List Expr} {spelling : Expr → List Lexeme}
    (h : ∀ arg ∈ args, Writes (arg.layout.render indent).toList (spelling arg)) :
    Writes (render indent (separated ", " (exprLayouts args))).toList
      ([Lexeme.sign .comma].intercalate (args.map spelling)) := by
  rw [exprLayouts_eq_map]
  induction args with
  | nil => exact writes_nil
  | cons arg args ih =>
    obtain ⟨hfirst, hmore⟩ := List.forall_mem_cons.mp h
    cases args with
    | nil => simpa [separated] using hfirst
    | cons next args =>
      have hrest := (ih hmore).space.sign .comma
      rw [separated, List.map_cons, List.map_cons, List.intercalate_cons_cons,
        toList_render_append, toList_render_append, toList_render_text, List.map_cons,
        List.map_cons, List.intercalate_cons_cons, List.append_assoc, List.append_assoc]
      exact hfirst.append hrest (endsWord_cons (by decide) _)

theorem Renders.call (h : Renders indent .access layout expr) {args : List Expr}
    (hargs : ∀ arg ∈ args, Renders indent .conjunction arg.layout arg) :
    Renders indent .access (layout ++ enclosed "(" ")" (separated ", " (exprLayouts args)))
      (.call expr args) := by
  obtain ⟨lexemes, hderives, hwrites⟩ := h
  choose! spelling hspelling hwritten using hargs
  have hcall := Derives.call (args.map fun arg => (spelling arg, arg)) hderives
    (List.forall_mem_map.mpr hspelling)
  rw [List.map_map, List.map_map, Function.comp_def, Function.comp_def, List.map_id'] at hcall
  refine ⟨_, hcall, ?_⟩
  rw [toList_render_append]
  exact hwrites.append (writes_enclosed (writes_arguments hwritten)) (endsWord_enclosed _ _)

end Rendering

namespace Expr

variable {expr : Expr}

/-- An operand is printed for a level if it gets parentheses or belongs there without them. -/
theorem renders_operand (op : BinaryOp) {indent : Nat} {level : Level}
    (h : Renders indent expr.level expr.layout expr)
    (hle : expr.isLooserThan op = false → level.tightness ≤ expr.level.tightness) :
    Renders indent level (parenthesizedIf (expr.isLooserThan op) expr.layout) expr := by
  cases hlooser : expr.isLooserThan op with
  | false => exact h.loosen (hle hlooser)
  | true => exact h.parenthesized.loosen level.tightness_le

/-- An expression that groups to the left is printed as lexemes that derive it. -/
theorem LeftGrouped.renders (h : expr.LeftGrouped) (indent : Nat) :
    Renders indent expr.level expr.layout expr := by
  induction h with
  | ident hname =>
    refine ⟨_, .ident hname.2, ?_⟩
    rw [layout, toList_render_text]
    exact writes_word hname.1
  | str value =>
    refine ⟨_, .str value, ?_⟩
    rw [layout, toList_render_text]
    exact writes_quote value
  | bool value =>
    cases value with
    | true =>
      refine ⟨_, .boolTrue, ?_⟩
      rw [layout, toList_render_text]
      exact writes_word (by decide)
    | false =>
      refine ⟨_, .boolFalse, ?_⟩
      rw [layout, toList_render_text]
      exact writes_word (by decide)
  | member property _ hobject ih =>
    rw [level_of_isBinary_eq_false hobject] at ih
    rw [layout]
    exact ih.member property
  | call _ hcallee _ ih ihargs =>
    rw [level_of_isBinary_eq_false hcallee] at ih
    rw [layout]
    exact ih.call fun arg harg => Renders.loosen (ihargs arg harg) (Nat.zero_le _)
  | @binary op _ _ _ _ hrhs ihl ihr =>
    rw [layout]
    -- an operand reaches its level by its own operator or by the parentheses around it
    have hl := renders_operand op ihl tightness_le_of_not_looser
    have hr := renders_operand op ihr fun hlooser => rightLevel_tightness_le hlooser hrhs
    exact hl.binary hr

theorem LeftGrouped.denotes (h : expr.LeftGrouped) (indent : Nat) :
    Denotes (expr.layout.render indent) expr := by
  obtain ⟨lexemes, hderives, hwrites⟩ := h.renders indent
  exact ⟨lexemes, hwrites.spells, hderives.loosen (Nat.zero_le _)⟩

/-- The text of an expression that groups to the left is read as that expression and as no other, so
no two such expressions are printed alike. -/
theorem denotes_render_iff (h : expr.LeftGrouped) (indent : Nat) :
    (∀ expr', Denotes (expr.layout.render indent) expr' ↔ expr' = expr) ∧
      ∀ (expr' : Expr) (indent' : Nat), expr'.LeftGrouped →
        expr'.layout.render indent' = expr.layout.render indent → expr' = expr := by
  have hunique : ∀ expr', Denotes (expr.layout.render indent) expr' → expr' = expr :=
    fun expr' h' => h'.unique (h.denotes indent)
  refine ⟨fun expr' => ⟨hunique expr', ?_⟩, fun expr' indent' h' htext => ?_⟩
  · rintro rfl
    exact h.denotes indent
  · exact hunique expr' (htext ▸ h'.denotes indent')

/-- Both operators inside each other, and a call with a quoted property before it. -/
def nestedCondition : Expr :=
  .conjunction [
    .ident "a",
    .strictEq
      (.strictEq (.member (.ident "b") "first name") (.str "say \"\\n\"\n"))
      (.and (.ident "c") (.bool true)),
    .call (.member (.call (.ident "f") []) "default")
      [.and (.ident "x") (.strictEq (.ident "y") (.ident "z")), .str ""]]

theorem nestedCondition_leftGrouped : nestedCondition.LeftGrouped := by
  refine leftGrouped_conjunction ?_
  simp only [List.forall_mem_cons, List.not_mem_nil, false_implies, implies_true, and_true]
  refine ⟨⟨.ident (by decide), rfl⟩, ⟨?_, rfl⟩, ⟨?_, rfl⟩⟩
  · exact .binary (.binary (.member _ (.ident (by decide)) rfl) (.str _) rfl)
      (.binary (.ident (by decide)) (.bool true) rfl) rfl
  · refine .call (.member _ (.call (.ident (by decide)) rfl (List.forall_mem_nil _)) rfl) rfl ?_
    refine List.forall_mem_cons.mpr ⟨?_, List.forall_mem_singleton.mpr (.str "")⟩
    exact .binary (.ident (by decide)) (.binary (.ident (by decide)) (.ident (by decide)) rfl) rfl

theorem nestedCondition_denotes_iff :
    nestedCondition.LeftGrouped ∧ ∀ expr,
      Denotes ("a && b[\"first name\"] === \"say \\\"\\\\n\\\"\\n\" === (c && true)" ++
        " && f().default(x && y === z, \"\")") expr ↔ expr = nestedCondition := by
  have htext : nestedCondition.layout.render 2 =
      "a && b[\"first name\"] === \"say \\\"\\\\n\\\"\\n\" === (c && true)" ++
        " && f().default(x && y === z, \"\")" := by
    decide
  refine ⟨nestedCondition_leftGrouped, ?_⟩
  rw [← htext]
  exact (denotes_render_iff nestedCondition_leftGrouped 2).1

end Expr

end AlgebraicData.Target
