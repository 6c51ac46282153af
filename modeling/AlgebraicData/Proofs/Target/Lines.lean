import AlgebraicData.Target.Printer
import AlgebraicData.Proofs.Name.Casing
import AlgebraicData.Proofs.Target.Layout
import AlgebraicData.Proofs.Target.Occurrence
import AlgebraicData.Proofs.Text.Cut

/-!
# The lines of the generated code

A layout has the same lines at every indent, each with the number of blocks around it
(`Layout.lines`), and rendering joins them.  In a layout that is `Neat` every line but the first
begins with something other than a space, and no text holds a line break of its own.

Names are put down as they are in some places, and elsewhere they are quoted if need be
(`Node.bareNames`).  An item is laid out neatly if the names of the first kind are on one line each
(`Item.neat_layout`): a tree is neat if the trees below it are.
-/

namespace AlgebraicData.Target

open Text (OneLine)
open Layout

namespace Layout

/-! ## Lines -/

/-- The characters up to the first line break. -/
def firstLine : Layout → List Char
  | [] | .newline _ :: _ => []
  | .text value :: layout => value.toList ++ firstLine layout

/-- The lines after the first, each with the number of blocks around it. -/
def laterLines : Layout → List (Nat × List Char)
  | [] => []
  | .text _ :: layout => laterLines layout
  | .newline depth :: layout => (depth, firstLine layout) :: laterLines layout

/-- All lines, each with the number of blocks around it. -/
def lines (layout : Layout) : List (Nat × List Char) :=
  (0, firstLine layout) :: laterLines layout

/-- A line with the spaces in front of it. -/
def indentLine (indent : Nat) (line : Nat × List Char) : List Char :=
  List.replicate (line.1 * indent) ' ' ++ line.2

theorem toList_render_cons (indent : Nat) (piece : Piece) (layout : Layout) :
    (render indent (piece :: layout)).toList =
      (renderPiece indent piece).toList ++ (render indent layout).toList := by
  rw [← List.singleton_append, render_append, render_singleton, String.toList_append]

theorem toList_render_text (indent : Nat) (value : String) :
    (render indent (text value)).toList = value.toList := by
  rw [text, render_singleton, renderPiece]

theorem toList_render_append (indent : Nat) (layout layout' : Layout) :
    (render indent (layout ++ layout')).toList =
      (render indent layout).toList ++ (render indent layout').toList := by
  rw [render_append, String.toList_append]

/-- Rendering joins the lines of a layout. -/
theorem toList_render (indent : Nat) (layout : Layout) :
    (render indent layout).toList =
      ['\n'].intercalate (layout.lines.map (indentLine indent)) := by
  have hlines : ∀ layout : Layout, layout.lines.map (indentLine indent) =
      layout.firstLine :: layout.laterLines.map (indentLine indent) := by
    intro layout
    rw [lines, List.map_cons, indentLine, Nat.zero_mul, List.replicate_zero, List.nil_append]
  induction layout with
  | nil => simp [render, hlines, firstLine, laterLines]
  | cons piece layout ih =>
    -- a text stands in front of the first line, and a line break makes that line the second
    rw [toList_render_cons, ih, hlines, hlines]
    cases piece with
    | text value => exact (List.intercalate_append_cons _ _ _ _).symm
    | newline depth =>
      rw [renderPiece, String.toList_ofList, firstLine, laterLines, List.map_cons,
        List.intercalate_cons_cons, indentLine, List.intercalate_append_cons]
      rfl

/-! ## Neat layouts -/

/-- The first line holds something, and does not begin with a space. -/
def StartsLine (layout : Layout) : Prop :=
  ∃ c, layout.firstLine.head? = some c ∧ c ≠ ' '

/-- No text holds a line break, and after each line break a line begins as it should. -/
def Neat : Layout → Prop
  | [] => True
  | .text value :: layout => OneLine value ∧ Neat layout
  | .newline _ :: layout => StartsLine layout ∧ Neat layout

theorem firstLine_prefix (layout layout' : Layout) :
    layout.firstLine <+: (layout ++ layout').firstLine := by
  induction layout with
  | nil => exact List.nil_prefix
  | cons piece layout ih =>
    cases piece with
    | text value => exact List.prefix_append_right_inj value.toList |>.mpr ih
    | newline depth => exact List.nil_prefix

theorem StartsLine.append {layout : Layout} (h : layout.StartsLine) (layout' : Layout) :
    StartsLine (layout ++ layout') := by
  obtain ⟨c, hc, hspace⟩ := h
  have hfront := firstLine_prefix layout layout'
  exact ⟨c, hfront.head?_eq_some hc, hspace⟩

theorem startsLine_text {value : String} {c : Char} (hhead : value.toList.head? = some c)
    (hspace : c ≠ ' ') : StartsLine (text value) :=
  ⟨c, by rw [text, firstLine, firstLine, List.append_nil, hhead], hspace⟩

theorem neat_text {value : String} (h : OneLine value) : Neat (text value) :=
  ⟨h, trivial⟩

theorem Neat.append {layout layout' : Layout} (h : layout.Neat) (h' : layout'.Neat) :
    Neat (layout ++ layout') := by
  -- only the last line of the first layout grows, and it begins as before
  induction layout with
  | nil => exact h'
  | cons piece layout ih =>
    cases piece with
    | text value => exact ⟨h.1, ih h.2⟩
    | newline depth => exact ⟨h.1.append layout', ih h.2⟩

theorem Neat.append_text {layout : Layout} (h : layout.Neat) {value : String}
    (hvalue : OneLine value) : Neat (layout ++ text value) :=
  h.append (neat_text hvalue)

theorem Neat.enclosed {layout : Layout} (h : layout.Neat) {opening closing : String}
    (hopening : OneLine opening) (hclosing : OneLine closing) :
    Neat (enclosed opening closing layout) :=
  neat_text hopening |>.append h |>.append_text hclosing

theorem Neat.parenthesizedIf {layout : Layout} (h : layout.Neat) (needed : Bool) :
    Neat (parenthesizedIf needed layout) := by
  unfold Layout.parenthesizedIf
  split
  · exact h.enclosed (by decide) (by decide)
  · exact h

theorem neat_separated {separator : String} {layouts : List Layout}
    (hseparator : OneLine separator) (h : ∀ layout ∈ layouts, Neat layout) :
    Neat (separated separator layouts) := by
  unfold separated
  induction layouts with
  | nil => trivial
  | cons layout layouts ih =>
    obtain ⟨hlayout, hlayouts⟩ := List.forall_mem_cons.mp h
    cases layouts with
    | nil => rwa [List.intercalate_singleton]
    | cons next layouts =>
      rw [List.intercalate_cons_cons]
      exact hlayout.append_text hseparator |>.append (ih hlayouts)

theorem firstLine_deepen (layout : Layout) : layout.deepen.firstLine = layout.firstLine := by
  induction layout with
  | nil => rfl
  | cons piece layout ih =>
    cases piece with
    | text value => exact congrArg (value.toList ++ ·) ih
    | newline depth => rfl

theorem startsLine_deepen_iff {layout : Layout} : layout.deepen.StartsLine ↔ layout.StartsLine := by
  rw [StartsLine, firstLine_deepen, StartsLine]

theorem Neat.deepen {layout : Layout} (h : layout.Neat) : layout.deepen.Neat := by
  induction layout with
  | nil => trivial
  | cons piece layout ih =>
    cases piece with
    | text value => exact ⟨h.1, ih h.2⟩
    | newline depth => exact ⟨startsLine_deepen_iff.mpr h.1, ih h.2⟩

theorem neat_block {layouts : List Layout}
    (h : ∀ layout ∈ layouts, layout.StartsLine ∧ layout.Neat) : Neat (block layouts) := by
  have hlines : Neat (layouts.flatMap fun layout => .newline 1 :: layout.deepen) := by
    induction layouts with
    | nil => trivial
    | cons layout layouts ih =>
      obtain ⟨⟨hstarts, hneat⟩, hlayouts⟩ := List.forall_mem_cons.mp h
      have hfirst : Neat (.newline 1 :: layout.deepen) :=
        ⟨startsLine_deepen_iff.mpr hstarts, hneat.deepen⟩
      exact hfirst.append (ih hlayouts)
  have hclosing : Neat [.newline 0, .text closeBrace] :=
    ⟨startsLine_text (c := '}') rfl (by decide), neat_text (by decide)⟩
  unfold block
  split
  · exact neat_text (by decide)
  · exact neat_text (by decide) |>.append hlines |>.append hclosing

theorem Neat.newline_notMem_firstLine {layout : Layout} (h : layout.Neat) :
    '\n' ∉ layout.firstLine := by
  induction layout with
  | nil => exact List.not_mem_nil
  | cons piece layout ih =>
    cases piece with
    | text value => exact List.not_mem_append h.1 (ih h.2)
    | newline depth => exact List.not_mem_nil

theorem Neat.of_mem_laterLines {layout : Layout} (h : layout.Neat) :
    ∀ line ∈ layout.laterLines, '\n' ∉ line.2 ∧ ∃ c, line.2.head? = some c ∧ c ≠ ' ' := by
  induction layout with
  | nil => exact List.forall_mem_nil _
  | cons piece layout ih =>
    cases piece with
    | text value => exact ih h.2
    | newline depth =>
      exact List.forall_mem_cons.mpr ⟨⟨h.2.newline_notMem_firstLine, h.1⟩, ih h.2⟩

/-- Every line of a neat layout holds something, and none begins with a space. -/
theorem Neat.of_mem_lines {layout : Layout} (h : layout.Neat) (hstarts : layout.StartsLine) :
    ∀ line ∈ layout.lines, '\n' ∉ line.2 ∧ ∃ c, line.2.head? = some c ∧ c ≠ ' ' :=
  List.forall_mem_cons.mpr ⟨⟨h.newline_notMem_firstLine, hstarts⟩, h.of_mem_laterLines⟩

theorem Neat.solid_render {layout : Layout} (h : layout.Neat) (hstarts : layout.StartsLine)
    (indent : Nat) : Text.Solid (render indent layout).toList := by
  rw [toList_render]
  refine Text.solid_intercalate (by simp [lines]) (List.forall_mem_map.mpr fun line hline => ?_)
  obtain ⟨hnewline, c, hc, -⟩ := h.of_mem_lines hstarts line hline
  constructor
  · exact List.append_ne_nil_of_right_ne_nil _ (List.ne_nil_of_mem (List.mem_of_head? hc))
  · exact List.not_mem_append (by simp) hnewline

end Layout

/-! ## Names and strings -/

theorem newline_notMem_quoteChar (c : Char) : '\n' ∉ quoteChar c := by
  by_cases hc : c = '\n'
  · subst hc
    decide
  · unfold quoteChar
    split
    · decide
    · split
      · decide
      · simp [hc, eq_comm]

/-- Whatever is quoted is on one line. -/
theorem oneLine_quote (value : String) : OneLine (quote value) := by
  rw [quote, Text.oneLine_ofList_iff, ← List.cons_append]
  refine List.not_mem_append (List.not_mem_cons_of_ne_of_not_mem (by decide) ?_) (by decide)
  intro h
  obtain ⟨c, -, hc⟩ := List.mem_flatMap.mp h
  exact newline_notMem_quoteChar c hc

theorem oneLine_of_isIdentifier {name : String} (h : isIdentifier name = true) : OneLine name := by
  have hnewline : isIdentifierRest '\n' = false := by decide
  intro hmem
  rw [all_isIdentifierRest h _ hmem] at hnewline
  cases hnewline

theorem oneLine_propertyKey (name : String) : OneLine (propertyKey name) := by
  unfold propertyKey
  split
  · exact oneLine_of_isIdentifier ‹_›
  · exact oneLine_quote name

/-- A property can begin a line. -/
theorem startsLine_propertyKey (name : String) : Layout.StartsLine (text (propertyKey name)) := by
  unfold propertyKey
  split
  · rename_i hname
    have hspace : isIdentifierRest ' ' = false := by decide
    cases hchars : name.toList with
    | nil => simp [isIdentifier, hchars, spellsIdentifier] at hname
    | cons c rest =>
      refine startsLine_text (by rw [hchars, List.head?_cons]) ?_
      rintro rfl
      rw [all_isIdentifierRest hname ' ' (by rw [hchars]; exact List.mem_cons_self)] at hspace
      cases hspace
  · exact startsLine_text (c := '"') (by rw [quote, String.toList_ofList]; rfl) (by decide)

theorem oneLine_accessText (property : String) : OneLine (accessText property) := by
  unfold accessText
  split
  · exact Text.oneLine_append_iff.mpr ⟨by decide, oneLine_of_isIdentifier ‹_›⟩
  · exact Text.oneLine_append_iff.mpr
      ⟨Text.oneLine_append_iff.mpr ⟨by decide, oneLine_quote property⟩, by decide⟩

/-- The names in parentheses or braces, with commas between them. -/
theorem oneLine_enclosed_intercalate {names : List String} (h : ∀ name ∈ names, OneLine name)
    {opening closing : String} (hopening : OneLine opening) (hclosing : OneLine closing) :
    OneLine (opening ++ ", ".intercalate names ++ closing) :=
  Text.oneLine_append_iff.mpr ⟨Text.oneLine_append_iff.mpr
    ⟨hopening, Text.oneLine_intercalate (by decide) h⟩, hclosing⟩

theorem oneLine_inBraces {content : String} (h : OneLine content) :
    OneLine (inBraces content) := by
  simp only [inBraces, Text.oneLine_append_iff]
  exact ⟨⟨⟨⟨by decide, by decide⟩, h⟩, by decide⟩, by decide⟩

theorem oneLine_arrowHead {params : List String} (h : ∀ param ∈ params, OneLine param) :
    OneLine (arrowHead params) := by
  unfold arrowHead
  split
  · exact h _ List.mem_cons_self
  · exact oneLine_enclosed_intercalate h (by decide) (by decide)

/-! ## Types -/

theorem typeLayouts_eq_map (types : List TypeNode) : typeLayouts types = types.map (·.layout) := by
  induction types with
  | nil => rfl
  | cons type types ih => rw [typeLayouts, ih, List.map_cons]

theorem paramLayouts_eq_map (params : List (Param TypeNode)) :
    paramLayouts params = params.map fun p => text p.name ++ typeAnnotation p.type := by
  induction params with
  | nil => rfl
  | cons param params ih =>
    obtain ⟨name, _ | type⟩ := param
    · rw [paramLayouts, ih, List.map_cons, typeAnnotation, List.append_nil]
    · rw [paramLayouts, ih, List.map_cons, typeAnnotation, List.append_assoc]

theorem propertyLayouts_eq_map (properties : List (Property TypeNode)) :
    propertyLayouts properties = properties.map fun p =>
      text (if p.readonly then "readonly " else "") ++ text (propertyKey p.name) ++ text ": " ++
        p.type.layout ++ text ";" := by
  induction properties with
  | nil => rfl
  | cons property properties ih => rw [propertyLayouts, ih, List.map_cons]

theorem neat_angled {layouts : List Layout} (h : ∀ layout ∈ layouts, layout.Neat) :
    Neat (angled layouts) := by
  unfold angled
  split
  · trivial
  · exact (neat_separated (by decide) h).enclosed (by decide) (by decide)

theorem neat_annotated {type : Option TypeNode} (h : ∀ t ∈ type, t.layout.Neat) :
    Neat <| typeAnnotation type := by
  cases type with
  | none => trivial
  | some t => exact (neat_text (by decide)).append (h t rfl)

/-- Parameters between parentheses, of a function or a function type. -/
theorem neat_params {params : List (Param TypeNode)} (hnames : ∀ p ∈ params, OneLine p.name)
    (htypes : ∀ p ∈ params, ∀ type ∈ p.type, type.layout.Neat) :
    Neat (enclosed "(" ")" (separated ", " (paramLayouts params))) := by
  refine (neat_separated (by decide) ?_).enclosed (by decide) (by decide)
  rw [paramLayouts_eq_map]
  refine List.forall_mem_map.mpr fun p hp => ?_
  exact (neat_text (hnames p hp)).append (neat_annotated (htypes p hp))

/-- A property stands on a line of its own. -/
theorem neat_properties {properties : List (Property TypeNode)}
    (h : ∀ p ∈ properties, p.type.layout.Neat) : Neat (block (propertyLayouts properties)) := by
  rw [propertyLayouts_eq_map]
  refine neat_block (List.forall_mem_map.mpr fun p hp => ⟨?_, ?_⟩)
  · have hkey : StartsLine (text (if p.readonly then "readonly " else "") ++
        text (propertyKey p.name)) := by
      split
      · exact (startsLine_text (c := 'r') rfl (by decide)).append _
      · exact startsLine_propertyKey p.name
    exact hkey.append _ |>.append _ |>.append _
  · have hreadonly : OneLine (if p.readonly then "readonly " else "") := by
      split <;> decide
    exact neat_text hreadonly |>.append_text (oneLine_propertyKey p.name)
      |>.append_text (by decide) |>.append (h p hp) |>.append_text (by decide)

/-! ## Expressions and statements -/

theorem exprLayouts_eq_map (exprs : List Expr) : exprLayouts exprs = exprs.map (·.layout) := by
  induction exprs with
  | nil => rfl
  | cons expr exprs ih => rw [exprLayouts, ih, List.map_cons]

theorem assignmentLayouts_eq_map (assignments : List (Assignment Expr)) :
    assignmentLayouts assignments = assignments.map fun a =>
      a.value.elim (text a.name) fun value =>
        text (propertyKey a.name) ++ text ": " ++ value.layout := by
  induction assignments with
  | nil => rfl
  | cons assignment assignments ih =>
    obtain ⟨name, _ | value⟩ := assignment
    · rw [assignmentLayouts, ih, List.map_cons, Option.elim_none]
    · rw [assignmentLayouts, ih, List.map_cons, Option.elim_some]

theorem stmtLayouts_eq_map (stmts : List Stmt) : stmtLayouts stmts = stmts.map (·.layout) := by
  induction stmts with
  | nil => rfl
  | cons stmt stmts ih => rw [stmtLayouts, ih, List.map_cons]

theorem caseLayouts_eq_map (cases : List (Case Expr Stmt)) :
    caseLayouts cases =
      cases.map fun c => enclosed "case " ": " c.label.layout ++ c.body.layout := by
  induction cases with
  | nil => rfl
  | cons case cases ih => rw [caseLayouts, ih, List.map_cons]

theorem neat_braced {layouts : List Layout} (h : ∀ layout ∈ layouts, layout.Neat) :
    Neat (braced layouts) := by
  unfold braced
  split
  · exact neat_text (by decide)
  · exact (neat_separated (by decide) h).enclosed (by decide) (by decide)

theorem oneLine_infixText (op : BinaryOp) : OneLine op.infixText := by
  cases op <;> decide

/-- Every statement begins with a word of the language. -/
theorem Stmt.startsLine_layout (stmt : Stmt) : stmt.layout.StartsLine := by
  cases stmt with
  | ret value => exact startsLine_text (c := 'r') rfl (by decide) |>.append _ |>.append _
  | ifThen condition body =>
    exact startsLine_text (c := 'i') rfl (by decide) |>.append _ |>.append _ |>.append _
  | switch scrutinee cases =>
    exact startsLine_text (c := 's') rfl (by decide) |>.append _ |>.append _ |>.append _
  | const name type value =>
    exact startsLine_text (c := 'c') rfl (by decide) |>.append _ |>.append _ |>.append _
      |>.append _ |>.append _

theorem neat_stmts {body : List Stmt} (h : ∀ stmt ∈ body, stmt.layout.Neat) :
    Neat (block (stmtLayouts body)) := by
  rw [stmtLayouts_eq_map]
  refine neat_block (List.forall_mem_map.mpr fun stmt hstmt => ?_)
  exact ⟨stmt.startsLine_layout, h stmt hstmt⟩

theorem neat_cases {cases : List (Case Expr Stmt)}
    (h : ∀ c ∈ cases, c.label.layout.Neat ∧ c.body.layout.Neat) :
    Neat (block (caseLayouts cases)) := by
  rw [caseLayouts_eq_map]
  refine neat_block (List.forall_mem_map.mpr fun c hc => ⟨?_, ?_⟩)
  · exact startsLine_text (c := 'c') rfl (by decide) |>.append _ |>.append _ |>.append _
  · exact ((h c hc).1.enclosed (by decide) (by decide)).append (h c hc).2

/-! ## One level of a tree -/

/-- How a node is laid out. -/
def Node.layout : Node → Layout
  | .type t => t.layout
  | .expr e => e.layout
  | .stmt s => s.layout

section Level

variable {type : TypeNode} {expr : Expr} {stmt : Stmt}

theorem TypeNode.neat_layout_of_children
    (hnames : ∀ name ∈ (Node.type type).bareNames, OneLine name)
    (h : ∀ child ∈ (Node.type type).children, child.layout.Neat) : type.layout.Neat := by
  cases type with
  | ref name args =>
    have hargs : ∀ arg ∈ args, arg.layout.Neat := fun arg harg =>
      h (.type arg) (List.mem_map_of_mem harg)
    refine (neat_text (hnames name List.mem_cons_self)).append (neat_angled ?_)
    rw [typeLayouts_eq_map]
    exact List.forall_mem_map.mpr hargs
  | tuple items =>
    have hitems : ∀ item ∈ items, item.layout.Neat := fun item hitem =>
      h (.type item) (List.mem_map_of_mem hitem)
    refine (neat_separated (by decide) ?_).enclosed (by decide) (by decide)
    rw [typeLayouts_eq_map]
    exact List.forall_mem_map.mpr hitems
  | function params result =>
    obtain ⟨hparams, hresult⟩ := List.forall_mem_append.mp h
    have htypes : ∀ p ∈ params, ∀ type ∈ p.type, type.layout.Neat := fun p hp type htype =>
      List.forall_mem_map.mp hparams type (List.mem_filterMap.mpr ⟨p, hp, htype⟩)
    have hresult : result.layout.Neat := hresult (.type result) List.mem_cons_self
    exact neat_params (List.forall_mem_map.mp hnames) htypes |>.append_text (by decide)
      |>.append hresult
  | literal value => exact neat_text (oneLine_quote value)
  | object properties =>
    exact neat_properties fun p hp => h (.type p.type) (List.mem_map_of_mem hp)
  | union items =>
    have hitems : ∀ item ∈ items, item.layout.Neat := fun item hitem =>
      h (.type item) (List.mem_map_of_mem hitem)
    refine neat_separated (by decide) ?_
    rw [typeLayouts_eq_map]
    exact List.forall_mem_map.mpr hitems

theorem Expr.neat_layout_of_children
    (hnames : ∀ name ∈ (Node.expr expr).bareNames, OneLine name)
    (h : ∀ child ∈ (Node.expr expr).children, child.layout.Neat) : expr.layout.Neat := by
  cases expr with
  | ident name => exact neat_text (hnames name List.mem_cons_self)
  | str value => exact neat_text (oneLine_quote value)
  | bool value => exact neat_text (by cases value <;> decide)
  | member object property =>
    have hobject : object.layout.Neat := h (.expr object) List.mem_cons_self
    exact hobject.append_text (oneLine_accessText property)
  | call callee args =>
    have hcallee : callee.layout.Neat := h (.expr callee) List.mem_cons_self
    have hargs : ∀ arg ∈ args, arg.layout.Neat := fun arg harg =>
      h (.expr arg) (List.mem_cons_of_mem _ (List.mem_map_of_mem harg))
    refine hcallee.append ((neat_separated (by decide) ?_).enclosed (by decide) (by decide))
    rw [exprLayouts_eq_map]
    exact List.forall_mem_map.mpr hargs
  | object assignments =>
    refine neat_braced ?_
    rw [assignmentLayouts_eq_map]
    refine List.forall_mem_map.mpr fun a ha => ?_
    cases hvalue : a.value with
    | none =>
      exact neat_text (hnames a.name (List.mem_map_of_mem
        (List.mem_filter.mpr ⟨ha, by rw [hvalue]; rfl⟩)))
    | some value =>
      have hneat : value.layout.Neat :=
        List.forall_mem_map.mp h value (List.mem_filterMap.mpr ⟨a, ha, hvalue⟩)
      exact neat_text (oneLine_propertyKey a.name) |>.append_text (by decide) |>.append hneat
  | arrow params result =>
    have hresult : result.layout.Neat := h (.expr result) List.mem_cons_self
    exact neat_text (oneLine_arrowHead hnames) |>.append_text (by decide)
      |>.append (hresult.parenthesizedIf _)
  | arrowBlock params body =>
    have hbody : ∀ stmt ∈ body, stmt.layout.Neat := fun stmt hstmt =>
      h (.stmt stmt) (List.mem_map_of_mem hstmt)
    exact neat_text (oneLine_arrowHead hnames) |>.append_text (by decide)
      |>.append (neat_stmts hbody)
  | binary op lhs rhs =>
    have hlhs : lhs.layout.Neat := h (.expr lhs) List.mem_cons_self
    have hrhs : rhs.layout.Neat := h (.expr rhs) (List.mem_cons_of_mem _ List.mem_cons_self)
    exact hlhs.parenthesizedIf _ |>.append_text (oneLine_infixText op)
      |>.append (hrhs.parenthesizedIf _)

theorem Stmt.neat_layout_of_children
    (hnames : ∀ name ∈ (Node.stmt stmt).bareNames, OneLine name)
    (h : ∀ child ∈ (Node.stmt stmt).children, child.layout.Neat) : stmt.layout.Neat := by
  cases stmt with
  | ret value =>
    have hvalue : value.layout.Neat := h (.expr value) List.mem_cons_self
    exact neat_text (by decide) |>.append hvalue |>.append_text (by decide)
  | ifThen condition body =>
    have hcondition : condition.layout.Neat := h (.expr condition) List.mem_cons_self
    have hbody : ∀ stmt ∈ body, stmt.layout.Neat := fun stmt hstmt =>
      h (.stmt stmt) (List.mem_cons_of_mem _ (List.mem_map_of_mem hstmt))
    exact (hcondition.enclosed (by decide) (by decide)).append (neat_stmts hbody)
  | switch scrutinee cases =>
    have hscrutinee : scrutinee.layout.Neat := h (.expr scrutinee) List.mem_cons_self
    have hcases : ∀ c ∈ cases, c.label.layout.Neat ∧ c.body.layout.Neat := by
      intro c hc
      obtain ⟨-, hbelow⟩ := List.forall_mem_cons.mp h
      have hbelow := List.forall_mem_flatMap.mp hbelow c hc
      exact ⟨hbelow (.expr c.label) List.mem_cons_self,
        hbelow (.stmt c.body) (List.mem_cons_of_mem _ List.mem_cons_self)⟩
    exact (hscrutinee.enclosed (by decide) (by decide)).append (neat_cases hcases)
  | const name type value =>
    obtain ⟨htype, hvalue⟩ := List.forall_mem_append.mp h
    have hannotation : ∀ t ∈ type, t.layout.Neat := fun t ht =>
      htype (.type t) (List.mem_map_of_mem (Option.mem_toList.mpr ht))
    have hvalue : value.layout.Neat := hvalue (.expr value) List.mem_cons_self
    exact neat_text (by decide) |>.append_text (hnames name List.mem_cons_self)
      |>.append (neat_annotated hannotation) |>.append_text (by decide) |>.append hvalue
      |>.append_text (by decide)

end Level

/-! ## Whole trees -/

/-- The names that the node itself holds are on one line each. -/
def Node.NamesOneLine (node : Node) : Prop :=
  ∀ name ∈ node.bareNames, OneLine name

/-- A tree is laid out neatly if each node of it writes its own names on one line. -/
theorem Node.neat_layout {node : Node} (h : node.Everywhere NamesOneLine) : node.layout.Neat := by
  induction node using Node.induct with
  | step node ih =>
    obtain ⟨hnames, hbelow⟩ := everywhere_iff.mp h
    have hchildren : ∀ child ∈ node.children, child.layout.Neat := fun child hchild =>
      ih child hchild (hbelow child hchild)
    cases node with
    | type type => exact TypeNode.neat_layout_of_children hnames hchildren
    | expr expr => exact Expr.neat_layout_of_children hnames hchildren
    | stmt stmt => exact Stmt.neat_layout_of_children hnames hchildren

namespace Item

/-- Every item begins with a word of the language. -/
theorem startsLine_layout (item : Item) : item.layout.StartsLine := by
  cases item with
  | typeAlias name params type =>
    exact startsLine_text (c := 'e') rfl (by decide) |>.append _ |>.append _ |>.append _
      |>.append _ |>.append _
  | const name type value =>
    exact startsLine_text (c := 'e') rfl (by decide) |>.append _ |>.append _ |>.append _
      |>.append _ |>.append _ |>.append _
  | function name typeParams params result body =>
    exact startsLine_text (c := 'e') rfl (by decide) |>.append _ |>.append _ |>.append _
      |>.append _ |>.append _ |>.append _ |>.append _
  | imports names module =>
    refine startsLine_text (c := 'i') ?_ (by decide)
    simp only [String.toList_append, List.append_assoc]
    rfl

theorem neat_typeParams {params : List TypeParam} (hnames : ∀ p ∈ params, OneLine p.name)
    (hbounds : ∀ p ∈ params, ∀ bound ∈ p.bound, bound.layout.Neat) :
    Neat (angled (params.map (·.layout))) := by
  refine neat_angled (List.forall_mem_map.mpr fun p hp => ?_)
  unfold TypeParam.layout
  split
  · rename_i bound hbound
    exact neat_text (hnames p hp) |>.append_text (by decide)
      |>.append (hbounds p hp bound hbound)
  · exact neat_text (hnames p hp)

theorem neat_layout {item : Item} (hnames : ∀ name ∈ item.bareNames, OneLine name)
    (h : item.Everywhere Node.NamesOneLine) : item.layout.Neat := by
  cases item with
  | typeAlias name params type =>
    obtain ⟨hname, hparams⟩ := List.forall_mem_cons.mp hnames
    obtain ⟨hbounds, htype⟩ := everywhere_typeAlias.mp h
    have htypeParams := neat_typeParams (List.forall_mem_map.mp hparams) fun p hp bound hbound =>
      Node.neat_layout (hbounds p hp bound hbound)
    exact neat_text (by decide) |>.append_text hname |>.append htypeParams
      |>.append_text (by decide) |>.append (Node.neat_layout htype) |>.append_text (by decide)
  | const name type value =>
    have hname := hnames name List.mem_cons_self
    obtain ⟨htype, hvalue⟩ := everywhere_const.mp h
    exact neat_text (by decide) |>.append_text hname |>.append_text (by decide)
      |>.append (Node.neat_layout htype) |>.append_text (by decide)
      |>.append (Node.neat_layout hvalue) |>.append_text (by decide)
  | function name typeParams params result body =>
    obtain ⟨hname, hparamNames⟩ := List.forall_mem_cons.mp hnames
    obtain ⟨htypeParamNames, hparamNames⟩ := List.forall_mem_append.mp hparamNames
    obtain ⟨hbounds, htypes, hresult, hbody⟩ := everywhere_function.mp h
    have htypeParams := neat_typeParams (List.forall_mem_map.mp htypeParamNames)
      fun p hp bound hbound => Node.neat_layout (hbounds p hp bound hbound)
    have hparams := neat_params (List.forall_mem_map.mp hparamNames)
      fun p hp type htype => Node.neat_layout (htypes p hp type htype)
    have hblock := neat_stmts fun stmt hstmt => Node.neat_layout (hbody stmt hstmt)
    exact neat_text (by decide) |>.append_text hname |>.append htypeParams |>.append hparams
      |>.append_text (by decide) |>.append (Node.neat_layout hresult) |>.append_text (by decide)
      |>.append hblock
  | imports names module =>
    have himported :=
      oneLine_inBraces (Text.oneLine_intercalate (by decide : OneLine ", ") hnames)
    refine neat_text ?_
    simp only [Text.oneLine_append_iff]
    exact ⟨⟨⟨⟨by decide, himported⟩, by decide⟩, oneLine_quote module⟩, by decide⟩

end Item

end AlgebraicData.Target
