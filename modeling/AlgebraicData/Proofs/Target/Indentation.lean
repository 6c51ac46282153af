import AlgebraicData.Proofs.Target.Lines

/-!
# Indentation

A line that ends in an opening brace opens a block, and a line that begins with a closing brace
closes one.  The depth of every line of an item is the number of blocks that are open around it
(`Item.indentation_eq_block_depth`).

From one line to the next the depth changes by the braces between them (`Follows`).  A layout is
`Nested` if that holds of its lines whatever stands before and after it on its first and last line,
and if it ends as deep as it begins.  Put one after another, nested layouts are nested, and so is a
block of nested layouts each of which begins and ends inside the block (`IsEntry`).
-/

namespace AlgebraicData.Target

open Text (OneLine)
open Layout

namespace Layout

/-! ## The lines of two layouts one after the other -/

variable {layout layout' : Layout}

@[simp]
theorem firstLine_text (value : String) : firstLine (text value) = value.toList :=
  List.append_nil _

@[simp]
theorem laterLines_text (value : String) : laterLines (text value) = [] :=
  rfl

theorem lines_text_append (value : String) (layout : Layout) :
    lines (text value ++ layout) = (0, value.toList ++ layout.firstLine) :: layout.laterLines :=
  rfl

theorem lines_ne_nil (layout : Layout) : layout.lines ≠ [] :=
  List.cons_ne_nil _ _

/-- The last line of a layout and the first line of the one after it are one line. -/
theorem lines_append {before : List (Nat × List Char)} {depth : Nat} {body : List Char}
    (h : layout.lines = before ++ [(depth, body)]) (layout' : Layout) :
    lines (layout ++ layout') =
      before ++ (depth, body ++ layout'.firstLine) :: layout'.laterLines := by
  -- the first line may have any depth and any text in front
  have hgeneral : ∀ (start : Nat) (front : List Char) (before : List (Nat × List Char)),
      (start, front ++ layout.firstLine) :: layout.laterLines = before ++ [(depth, body)] →
      (start, front ++ firstLine (layout ++ layout')) :: laterLines (layout ++ layout') =
        before ++ (depth, body ++ layout'.firstLine) :: layout'.laterLines := by
    clear h before
    induction layout with
    | nil =>
      intro start front before h
      replace h : [] ++ [(start, front ++ firstLine [])] = before ++ [(depth, body)] := h
      obtain ⟨rfl, hline⟩ := List.append_inj' h rfl
      obtain ⟨rfl, rfl⟩ := Prod.mk.inj (List.singleton_inj.mp hline)
      simp [firstLine]
    | cons piece layout ih =>
      intro start front before h
      cases piece with
      | text value =>
        rw [firstLine, laterLines, ← List.append_assoc] at h
        rw [List.cons_append, firstLine, laterLines, ← List.append_assoc]
        exact ih start (front ++ value.toList) before h
      | newline depth' =>
        rw [List.cons_append, firstLine, laterLines]
        rw [firstLine, laterLines] at h
        cases before with
        | nil => simp at h
        | cons line before =>
          obtain ⟨rfl, hlater⟩ := List.cons.inj h
          exact congrArg _ (ih depth' [] before hlater)
  exact hgeneral 0 [] before h

/-! ## Blocks -/

/-- The line ends in an opening brace. -/
def opensBlock (line : Nat × List Char) : Bool :=
  line.2.getLast? == some '{'

/-- The line begins with a closing brace. -/
def closesBlock (line : Nat × List Char) : Bool :=
  line.2.head? == some '}'

/-- From a line to the next, the depth changes by the blocks that the first opens and the second
closes. -/
def Follows (line next : Nat × List Char) : Prop :=
  next.1 + (closesBlock next).toNat = line.1 + (opensBlock line).toNat

/-- Along such lines, the depth is the number of blocks that have been opened and not closed. -/
theorem depth_add_countP {first : Nat × List Char} {rest : List (Nat × List Char)}
    (h : (first :: rest).IsChain Follows) {before after : List (Nat × List Char)}
    {line : Nat × List Char} (hlines : first :: rest = before ++ line :: after) :
    line.1 + (before ++ [line]).countP closesBlock =
      first.1 + (closesBlock first).toNat + before.countP opensBlock := by
  have hcount : ∀ (p : Nat × List Char → Bool) line lines,
      List.countP p (line :: lines) = (p line).toNat + lines.countP p := by
    intro p line lines
    rw [List.countP_cons, Nat.add_comm]
    cases p line <;> rfl
  induction rest generalizing first before with
  | nil =>
    cases before with
    | nil =>
      obtain ⟨rfl, -⟩ := List.cons.inj hlines
      simp [hcount]
    | cons line' before => simp at hlines
  | cons next rest ih =>
    obtain ⟨hstep, hchain⟩ := List.isChain_cons_cons.mp h
    cases before with
    | nil =>
      obtain ⟨rfl, -⟩ := List.cons.inj hlines
      simp [hcount]
    | cons line' before =>
      obtain ⟨rfl, hlater⟩ := List.cons.inj hlines
      have hrest := ih hchain hlater
      unfold Follows at hstep
      rw [List.cons_append, hcount, hcount]
      omega

/-! ## Nested layouts -/

/-- The layout ends as deep as it begins, and whatever stands before and after it, its lines are as
deep as their braces say. -/
structure Nested (layout : Layout) : Prop where
  exists_last : ∃ before body, layout.lines = before ++ [(0, body)]
  isChain : ∀ front back,
    (lines (text front ++ (layout ++ text back))).IsChain Follows

theorem Nested.isChain_lines (h : layout.Nested) : layout.lines.IsChain Follows := by
  obtain ⟨before, body, hlines⟩ := h.exists_last
  have hchain := h.isChain "" ""
  have hback : lines (layout ++ text "") = layout.lines := by
    rw [lines_append hlines, hlines]
    simp
  exact hback ▸ hchain

theorem nested_text (value : String) : Nested (text value) where
  exists_last := ⟨[], _, rfl⟩
  isChain _ _ := List.isChain_singleton _

theorem nested_nil : Nested [] where
  exists_last := ⟨[], _, rfl⟩
  isChain _ _ := List.isChain_singleton _

/-- Text in front changes nothing about where a layout ends. -/
theorem Nested.exists_last_text_append (h : layout.Nested) (front : String) :
    ∃ before body, lines (text front ++ layout) = before ++ [(0, body)] := by
  obtain ⟨before, body, hlines⟩ := h.exists_last
  rw [lines_text_append]
  cases before with
  | nil =>
    obtain ⟨-, hlater⟩ := List.cons.inj hlines
    exact ⟨[], _, by rw [hlater, List.nil_append]⟩
  | cons line before =>
    obtain ⟨-, hlater⟩ := List.cons.inj hlines
    exact ⟨(0, front.toList ++ layout.firstLine) :: before, body, congrArg _ hlater⟩

theorem Nested.append (h : layout.Nested) (h' : layout'.Nested) : Nested (layout ++ layout') := by
  constructor
  · obtain ⟨before, body, hlines⟩ := h.exists_last
    obtain ⟨before', body', hlines'⟩ := h'.exists_last_text_append (String.ofList body)
    rw [lines_text_append, String.toList_ofList] at hlines'
    exact ⟨before ++ before', body', by rw [lines_append hlines, hlines', List.append_assoc]⟩
  · intro front back
    obtain ⟨before, body, hlines⟩ := h.exists_last_text_append front
    have heq : text front ++ (layout ++ layout' ++ text back) =
        text front ++ layout ++ (layout' ++ text back) := by
      simp only [List.append_assoc]
    -- the line that both share ends the chain of the first layout and begins that of the second
    rw [heq, lines_append hlines, List.isChain_split]
    constructor
    · have hchain := h.isChain front (String.ofList (firstLine (layout' ++ text back)))
      rw [← List.append_assoc, lines_append hlines] at hchain
      simpa using hchain
    · have hchain := h'.isChain (String.ofList body) back
      rw [lines_text_append, String.toList_ofList] at hchain
      exact hchain

theorem Nested.append_text (h : layout.Nested) (value : String) : Nested (layout ++ text value) :=
  h.append (nested_text value)

theorem Nested.enclosed (h : layout.Nested) (opening closing : String) :
    Nested (enclosed opening closing layout) :=
  (nested_text opening).append h |>.append_text closing

theorem Nested.parenthesizedIf (h : layout.Nested) (needed : Bool) :
    Nested (parenthesizedIf needed layout) := by
  unfold Layout.parenthesizedIf
  split
  · exact h.enclosed "(" ")"
  · exact h

theorem nested_separated (separator : String) {layouts : List Layout}
    (h : ∀ layout ∈ layouts, Nested layout) : Nested (separated separator layouts) := by
  unfold separated
  induction layouts with
  | nil => exact nested_nil
  | cons layout layouts ih =>
    obtain ⟨hlayout, hlayouts⟩ := List.forall_mem_cons.mp h
    cases layouts with
    | nil => rwa [List.intercalate_singleton]
    | cons next layouts =>
      rw [List.intercalate_cons_cons]
      exact hlayout.append_text separator |>.append (ih hlayouts)

/-! ## Entries of a block -/

/-- The first line holds something, and does not begin with a closing brace. -/
def StartsEntry (layout : Layout) : Prop :=
  ∃ c, layout.firstLine.head? = some c ∧ c ≠ '}'

/-- The last line holds something, and does not end in an opening brace. -/
def EndsEntry (layout : Layout) : Prop :=
  ∃ line c, layout.lines.getLast? = some line ∧ line.2.getLast? = some c ∧ c ≠ '{'

theorem StartsEntry.append (h : layout.StartsEntry) (layout' : Layout) :
    StartsEntry (layout ++ layout') := by
  obtain ⟨c, hc, hbrace⟩ := h
  have hfront := firstLine_prefix layout layout'
  exact ⟨c, hfront.head?_eq_some hc, hbrace⟩

theorem startsEntry_text {value : String} {c : Char} (hhead : value.toList.head? = some c)
    (hbrace : c ≠ '}') : StartsEntry (text value) :=
  ⟨c, by rw [firstLine_text, hhead], hbrace⟩

theorem endsEntry_text {value : String} {c : Char} (hlast : value.toList.getLast? = some c)
    (hbrace : c ≠ '{') : EndsEntry (text value) :=
  ⟨(0, value.toList), c, by rw [lines, firstLine_text, laterLines_text]; rfl, hlast, hbrace⟩

theorem EndsEntry.append (h : layout'.EndsEntry) (layout : Layout) :
    EndsEntry (layout ++ layout') := by
  obtain ⟨line, c, hline, hc, hbrace⟩ := h
  obtain ⟨before, ⟨depth, body⟩, hlines⟩ := List.eq_nil_or_concat' layout.lines
    |>.resolve_left layout.lines_ne_nil
  rw [EndsEntry, lines_append hlines, List.getLast?_append]
  cases hlater : layout'.laterLines with
  | nil =>
    -- the last line of the second layout is its first, and goes on from the first layout
    rw [lines, hlater, List.getLast?_singleton] at hline
    obtain rfl := Option.some.inj hline
    refine ⟨(depth, body ++ layout'.firstLine), c, rfl, ?_, hbrace⟩
    rw [List.getLast?_append, hc, Option.some_or]
  | cons next later =>
    rw [lines, hlater, List.getLast?_cons_cons] at hline
    refine ⟨line, c, ?_, hc, hbrace⟩
    rw [List.getLast?_cons_cons, hline, Option.some_or]

/-- What can stand in a block. -/
structure IsEntry (layout : Layout) : Prop where
  nested : layout.Nested
  starts : layout.StartsEntry
  ends : layout.EndsEntry

/-- The line inside one more block. -/
def deepenLine (line : Nat × List Char) : Nat × List Char :=
  (line.1 + 1, line.2)

theorem laterLines_deepen (layout : Layout) :
    layout.deepen.laterLines = layout.laterLines.map deepenLine := by
  induction layout with
  | nil => rfl
  | cons piece layout ih =>
    cases piece with
    | text value => exact ih
    | newline depth =>
      have hfirst : firstLine (layout.map deepenPiece) = firstLine layout := firstLine_deepen layout
      rw [deepen, List.map_cons, deepenPiece, laterLines, laterLines, List.map_cons, hfirst]
      exact congrArg _ ih

/-- Nothing of what begins with a line break goes on the line before it. -/
theorem laterLines_append_newline (layout : Layout) (depth : Nat) (layout' : Layout) :
    laterLines (layout ++ .newline depth :: layout') =
      layout.laterLines ++ laterLines (.newline depth :: layout') := by
  obtain ⟨before, ⟨depth', body⟩, hlines⟩ := List.eq_nil_or_concat' layout.lines
    |>.resolve_left layout.lines_ne_nil
  have happend : lines (layout ++ .newline depth :: layout') =
      layout.lines ++ laterLines (.newline depth :: layout') := by
    rw [lines_append hlines, firstLine, List.append_nil, hlines, List.append_assoc]
    rfl
  exact (List.cons.inj happend).2

/-- The lines of a block: its entries one level deeper, between the braces. -/
theorem lines_block {layouts : List Layout} (hne : layouts ≠ []) :
    lines (block layouts) =
      (0, ['{']) :: (layouts.flatMap (fun layout => layout.lines.map deepenLine) ++
        [(0, ['}'])]) := by
  have hentry : ∀ (layout : Layout) (depth : Nat) (rest : Layout),
      laterLines ((.newline 1 :: layout.deepen) ++ .newline depth :: rest) =
        layout.lines.map deepenLine ++ laterLines (.newline depth :: rest) := by
    intro layout depth rest
    rw [laterLines_append_newline, laterLines, firstLine_deepen, laterLines_deepen]
    rfl
  have hentries : laterLines (layouts.flatMap (fun layout => .newline 1 :: layout.deepen) ++
      [.newline 0, .text closeBrace]) =
      layouts.flatMap (fun layout => layout.lines.map deepenLine) ++ [(0, ['}'])] := by
    clear hne
    induction layouts with
    | nil => rfl
    | cons layout layouts ih =>
      rw [List.flatMap_cons, List.flatMap_cons, List.append_assoc, List.append_assoc, ← ih]
      -- what follows an entry begins with a line break, of the next entry or of the closing brace
      cases layouts with
      | nil => exact hentry layout 0 _
      | cons next layouts => exact hentry layout 1 _
  have hfirst : firstLine (layouts.flatMap (fun layout => .newline 1 :: layout.deepen) ++
      [.newline 0, .text closeBrace]) = [] := by
    cases layouts with
    | nil => exact absurd rfl hne
    | cons layout layouts => rfl
  cases layouts with
  | nil => exact absurd rfl hne
  | cons layout layouts =>
    rw [block, List.append_assoc, lines_text_append, hfirst, hentries]
    · rfl
    · exact List.cons_ne_nil _ _

/-- Between two lines that open and close a block, entries are as deep as their braces say. -/
theorem isChain_entries {layouts : List Layout} (h : ∀ layout ∈ layouts, layout.IsEntry)
    {opening closing : Nat × List Char} (hopening : opening.1 + (opensBlock opening).toNat = 1)
    (hclosing : closing.1 + (closesBlock closing).toNat = 1) :
    (opening :: (layouts.flatMap (fun layout => layout.lines.map deepenLine) ++
      [closing])).IsChain Follows := by
  -- the last line of an entry is as good as the line that opens the block: it opens nothing, but
  -- is inside
  induction layouts generalizing opening with
  | nil => exact List.isChain_pair.mpr (hclosing.trans hopening.symm)
  | cons layout layouts ih =>
    obtain ⟨⟨hnested, ⟨c, hc, hcbrace⟩, ⟨line, c', hline, hc', hbrace'⟩⟩, hlayouts⟩ :=
      List.forall_mem_cons.mp h
    obtain ⟨before, body, hlines⟩ := hnested.exists_last
    obtain rfl : line = (0, body) := by
      rw [hlines, List.getLast?_concat] at hline
      exact (Option.some.inj hline).symm
    have hlast : (opensBlock (1, body)).toNat = 0 := by simp [opensBlock, hc', hbrace']
    have hfirst : (closesBlock (1, layout.firstLine)).toNat = 0 := by
      simp [closesBlock, hc, hcbrace]
    have hdeeper : (layout.lines.map deepenLine).IsChain Follows := by
      refine (List.isChain_map deepenLine).mpr (hnested.isChain_lines.imp ?_)
      intro line next hstep
      simp only [Follows, deepenLine, opensBlock, closesBlock] at hstep ⊢
      omega
    have hentry : (opening :: layout.lines.map deepenLine).IsChain Follows := by
      refine List.isChain_cons_cons.mpr ⟨?_, hdeeper⟩
      show 0 + 1 + (closesBlock (1, layout.firstLine)).toNat = _
      omega
    rw [List.flatMap_cons, List.append_assoc, hlines, List.map_append, List.append_assoc]
    rw [hlines, List.map_append] at hentry
    exact List.isChain_cons_split.mpr ⟨hentry, ih hlayouts (by simp [deepenLine, hlast])⟩

theorem nested_block {layouts : List Layout} (h : ∀ layout ∈ layouts, layout.IsEntry) :
    Nested (block layouts) := by
  by_cases hne : layouts = []
  · subst hne
    exact nested_text _
  · have hlines := lines_block hne
    rw [← List.cons_append] at hlines
    constructor
    · exact ⟨_, _, hlines⟩
    · intro front back
      have hback := lines_append hlines (text back)
      obtain ⟨hfirst, hlater⟩ := List.cons.inj hback
      rw [lines_text_append, hlater, (Prod.mk.inj hfirst).2, firstLine_text, laterLines_text]
      refine isChain_entries h ?_ ?_
      · simp [opensBlock]
      · simp [closesBlock]

/-- A block ends in a closing brace. -/
theorem endsEntry_block (layouts : List Layout) : EndsEntry (block layouts) := by
  by_cases hne : layouts = []
  · subst hne
    exact endsEntry_text (c := '}') rfl (by decide)
  · refine ⟨(0, ['}']), '}', ?_, rfl, by decide⟩
    rw [lines_block hne, ← List.cons_append, List.getLast?_concat]

end Layout

/-! ## Types -/

theorem nested_angled {layouts : List Layout} (h : ∀ layout ∈ layouts, layout.Nested) :
    Nested (angled layouts) := by
  unfold angled
  split
  · exact nested_nil
  · exact (nested_separated ", " h).enclosed "<" ">"

theorem nested_annotatedType {type : Option TypeNode} (h : ∀ t ∈ type, t.layout.Nested) :
    Nested <| typeAnnotation type := by
  cases type with
  | none => exact nested_nil
  | some t => exact (nested_text ": ").append (h t rfl)

/-- Parameters between parentheses, of a function or a function type. -/
theorem nested_params {params : List (Param TypeNode)}
    (h : ∀ p ∈ params, ∀ type ∈ p.type, type.layout.Nested) :
    Nested (enclosed "(" ")" (separated ", " (paramLayouts params))) := by
  refine (nested_separated ", " ?_).enclosed "(" ")"
  rw [paramLayouts_eq_map]
  refine List.forall_mem_map.mpr fun p hp => ?_
  exact (nested_text p.name).append (nested_annotatedType (h p hp))

theorem startsEntry_propertyKey (name : String) : StartsEntry (text (propertyKey name)) := by
  unfold propertyKey
  split
  · rename_i hname
    have hbrace : isIdentifierRest '}' = false := by decide
    cases hchars : name.toList with
    | nil => simp [isIdentifier, hchars, spellsIdentifier] at hname
    | cons c rest =>
      refine startsEntry_text (by rw [hchars, List.head?_cons]) ?_
      rintro rfl
      rw [all_isIdentifierRest hname '}' (by rw [hchars]; exact List.mem_cons_self)] at hbrace
      cases hbrace
  · exact startsEntry_text (c := '"') (by rw [quote, String.toList_ofList]; rfl) (by decide)

/-- A property is an entry: it begins with a word, a name or a quote, and ends in a semicolon. -/
theorem nested_properties {properties : List (Property TypeNode)}
    (h : ∀ p ∈ properties, p.type.layout.Nested) :
    Nested (block (propertyLayouts properties)) := by
  rw [propertyLayouts_eq_map]
  refine nested_block (List.forall_mem_map.mpr fun p hp => ⟨?_, ?_, ?_⟩)
  · exact nested_text _ |>.append_text _ |>.append_text _ |>.append (h p hp) |>.append_text _
  · have hkey : StartsEntry (text (if p.readonly then "readonly " else "") ++
        text (propertyKey p.name)) := by
      split
      · exact (startsEntry_text (c := 'r') rfl (by decide)).append _
      · exact startsEntry_propertyKey p.name
    exact hkey.append _ |>.append _ |>.append _
  · exact (endsEntry_text (c := ';') rfl (by decide)).append _

/-! ## Expressions and statements -/

theorem nested_braced {layouts : List Layout} (h : ∀ layout ∈ layouts, layout.Nested) :
    Nested (braced layouts) := by
  unfold braced
  split
  · exact nested_text _
  · exact (nested_separated ", " h).enclosed _ _

theorem Stmt.startsEntry_layout (stmt : Stmt) : stmt.layout.StartsEntry := by
  cases stmt with
  | ret value => exact startsEntry_text (c := 'r') rfl (by decide) |>.append _ |>.append _
  | ifThen condition body =>
    exact startsEntry_text (c := 'i') rfl (by decide) |>.append _ |>.append _ |>.append _
  | switch scrutinee cases =>
    exact startsEntry_text (c := 's') rfl (by decide) |>.append _ |>.append _ |>.append _
  | const name type value =>
    exact startsEntry_text (c := 'c') rfl (by decide) |>.append _ |>.append _ |>.append _
      |>.append _ |>.append _

/-- Every statement ends in a semicolon or a closing brace. -/
theorem Stmt.endsEntry_layout (stmt : Stmt) : stmt.layout.EndsEntry := by
  cases stmt with
  | ret value => exact (endsEntry_text (c := ';') rfl (by decide)).append _
  | ifThen condition body => exact (endsEntry_block _).append _
  | switch scrutinee cases => exact (endsEntry_block _).append _
  | const name type value => exact (endsEntry_text (c := ';') rfl (by decide)).append _

theorem nested_stmts {body : List Stmt} (h : ∀ stmt ∈ body, stmt.layout.Nested) :
    Nested (block (stmtLayouts body)) := by
  rw [stmtLayouts_eq_map]
  refine nested_block (List.forall_mem_map.mpr fun stmt hstmt => ?_)
  exact ⟨h stmt hstmt, stmt.startsEntry_layout, stmt.endsEntry_layout⟩

theorem nested_cases {cases : List (Case Expr Stmt)}
    (h : ∀ c ∈ cases, c.label.layout.Nested ∧ c.body.layout.Nested) :
    Nested (block (caseLayouts cases)) := by
  rw [caseLayouts_eq_map]
  refine nested_block (List.forall_mem_map.mpr fun c hc => ⟨?_, ?_, ?_⟩)
  · exact ((h c hc).1.enclosed _ _).append (h c hc).2
  · exact startsEntry_text (c := 'c') rfl (by decide) |>.append _ |>.append _ |>.append _
  · exact c.body.endsEntry_layout.append _

/-! ## One level of a tree -/

section Level

variable {type : TypeNode} {expr : Expr} {stmt : Stmt}

theorem TypeNode.nested_layout_of_children
    (h : ∀ child ∈ (Node.type type).children, child.layout.Nested) : type.layout.Nested := by
  cases type with
  | ref name args =>
    refine (nested_text name).append (nested_angled ?_)
    rw [typeLayouts_eq_map]
    exact List.forall_mem_map.mpr fun arg harg => h (.type arg) (List.mem_map_of_mem harg)
  | tuple items =>
    refine (nested_separated ", " ?_).enclosed "[" "]"
    rw [typeLayouts_eq_map]
    exact List.forall_mem_map.mpr fun item hitem => h (.type item) (List.mem_map_of_mem hitem)
  | function params result =>
    obtain ⟨hparams, hresult⟩ := List.forall_mem_append.mp h
    have htypes : ∀ p ∈ params, ∀ type ∈ p.type, type.layout.Nested := fun p hp type htype =>
      List.forall_mem_map.mp hparams type (List.mem_filterMap.mpr ⟨p, hp, htype⟩)
    have hresult : result.layout.Nested := hresult (.type result) List.mem_cons_self
    exact nested_params htypes |>.append_text _ |>.append hresult
  | literal value => exact nested_text _
  | object properties =>
    exact nested_properties fun p hp => h (.type p.type) (List.mem_map_of_mem hp)
  | union items =>
    refine nested_separated " | " ?_
    rw [typeLayouts_eq_map]
    exact List.forall_mem_map.mpr fun item hitem => h (.type item) (List.mem_map_of_mem hitem)

theorem Expr.nested_layout_of_children
    (h : ∀ child ∈ (Node.expr expr).children, child.layout.Nested) : expr.layout.Nested := by
  cases expr with
  | ident name => exact nested_text name
  | str value => exact nested_text _
  | bool value => exact nested_text _
  | member object property =>
    have hobject : object.layout.Nested := h (.expr object) List.mem_cons_self
    exact hobject.append_text _
  | call callee args =>
    obtain ⟨hcallee, hargs⟩ := List.forall_mem_cons.mp h
    refine Nested.append hcallee ((nested_separated ", " ?_).enclosed "(" ")")
    rw [exprLayouts_eq_map]
    exact List.forall_mem_map.mpr fun arg harg => hargs (.expr arg) (List.mem_map_of_mem harg)
  | object assignments =>
    refine nested_braced ?_
    rw [assignmentLayouts_eq_map]
    refine List.forall_mem_map.mpr fun a ha => ?_
    cases hvalue : a.value with
    | none => exact nested_text a.name
    | some value =>
      have hnested : value.layout.Nested :=
        List.forall_mem_map.mp h value (List.mem_filterMap.mpr ⟨a, ha, hvalue⟩)
      exact nested_text _ |>.append_text _ |>.append hnested
  | arrow params result =>
    have hresult : result.layout.Nested := h (.expr result) List.mem_cons_self
    exact nested_text _ |>.append_text _ |>.append (hresult.parenthesizedIf _)
  | arrowBlock params body =>
    have hbody : ∀ stmt ∈ body, stmt.layout.Nested := fun stmt hstmt =>
      h (.stmt stmt) (List.mem_map_of_mem hstmt)
    exact nested_text _ |>.append_text _ |>.append (nested_stmts hbody)
  | binary op lhs rhs =>
    have hlhs : lhs.layout.Nested := h (.expr lhs) List.mem_cons_self
    have hrhs : rhs.layout.Nested := h (.expr rhs) (List.mem_cons_of_mem _ List.mem_cons_self)
    exact hlhs.parenthesizedIf _ |>.append_text _ |>.append (hrhs.parenthesizedIf _)

theorem Stmt.nested_layout_of_children
    (h : ∀ child ∈ (Node.stmt stmt).children, child.layout.Nested) : stmt.layout.Nested := by
  cases stmt with
  | ret value =>
    have hvalue : value.layout.Nested := h (.expr value) List.mem_cons_self
    exact nested_text _ |>.append hvalue |>.append_text _
  | ifThen condition body =>
    obtain ⟨hcondition, hbelow⟩ := List.forall_mem_cons.mp h
    have hbody : ∀ stmt ∈ body, stmt.layout.Nested := fun stmt hstmt =>
      hbelow (.stmt stmt) (List.mem_map_of_mem hstmt)
    exact (Nested.enclosed hcondition _ _).append (nested_stmts hbody)
  | switch scrutinee cases =>
    obtain ⟨hscrutinee, hbelow⟩ := List.forall_mem_cons.mp h
    refine (Nested.enclosed hscrutinee _ _).append (nested_cases fun c hc => ?_)
    have hcase := List.forall_mem_flatMap.mp hbelow c hc
    exact ⟨hcase (.expr c.label) List.mem_cons_self,
      hcase (.stmt c.body) (List.mem_cons_of_mem _ List.mem_cons_self)⟩
  | const name type value =>
    obtain ⟨htype, hvalue⟩ := List.forall_mem_append.mp h
    have hannotation : ∀ t ∈ type, t.layout.Nested := fun t ht =>
      htype (.type t) (List.mem_map_of_mem (Option.mem_toList.mpr ht))
    have hvalue : value.layout.Nested := hvalue (.expr value) List.mem_cons_self
    exact nested_text _ |>.append_text _ |>.append (nested_annotatedType hannotation)
      |>.append_text _ |>.append hvalue |>.append_text _

end Level

/-! ## Whole trees -/

theorem Node.nested_layout (node : Node) : node.layout.Nested := by
  induction node using Node.induct with
  | step node ih =>
    cases node with
    | type type => exact TypeNode.nested_layout_of_children ih
    | expr expr => exact Expr.nested_layout_of_children ih
    | stmt stmt => exact Stmt.nested_layout_of_children ih

namespace Item

theorem nested_typeParams (params : List TypeParam) :
    Nested (angled (params.map (·.layout))) := by
  refine nested_angled (List.forall_mem_map.mpr fun p _ => ?_)
  unfold TypeParam.layout
  split
  · rename_i bound _
    exact nested_text _ |>.append_text _ |>.append (Node.nested_layout (.type bound))
  · exact nested_text _

theorem nested_layout (item : Item) : item.layout.Nested := by
  have htype : ∀ type : TypeNode, type.layout.Nested := fun type => Node.nested_layout (.type type)
  have hexpr : ∀ expr : Expr, expr.layout.Nested := fun expr => Node.nested_layout (.expr expr)
  have hstmt : ∀ stmt : Stmt, stmt.layout.Nested := fun stmt => Node.nested_layout (.stmt stmt)
  cases item with
  | typeAlias name params type =>
    exact nested_text _ |>.append_text _ |>.append (nested_typeParams params) |>.append_text _
      |>.append (htype type) |>.append_text _
  | const name type value =>
    exact nested_text _ |>.append_text _ |>.append_text _ |>.append (htype type)
      |>.append_text _ |>.append (hexpr value) |>.append_text _
  | function name typeParams params result body =>
    have hparams : Nested (enclosed "(" ")" (separated ", " (paramLayouts params))) :=
      nested_params fun _ _ type _ => htype type
    exact nested_text _ |>.append_text _ |>.append (nested_typeParams typeParams)
      |>.append hparams |>.append_text _ |>.append (htype result) |>.append_text _
      |>.append (nested_stmts fun stmt _ => hstmt stmt)
  | imports names module => exact nested_text _

/-- An item begins with a word, not with a brace. -/
theorem closesBlock_firstLine (item : Item) : closesBlock (0, item.layout.firstLine) = false := by
  have hstarts : ∃ c, item.layout.firstLine.head? = some c ∧ (c = 'e' ∨ c = 'i') := by
    cases item with
    | typeAlias | const | function => exact ⟨'e', rfl, .inl rfl⟩
    | imports names module =>
      refine ⟨'i', ?_, .inr rfl⟩
      rw [layout, firstLine_text]
      simp only [String.toList_append, List.append_assoc]
      rfl
  obtain ⟨c, hc, rfl | rfl⟩ := hstarts <;> simp [closesBlock, hc]

/-- The names that an item writes as they stand are on one line each. -/
def NamesOneLine (item : Item) : Prop :=
  (∀ name ∈ item.bareNames, OneLine name) ∧ item.Everywhere Node.NamesOneLine

/-- The indentation of a line is the depth of the blocks around it.  An item whose names are on one
line each has the same lines at every indent: only the spaces in front of them differ, and they are
as many as the indent times the depth of the line.  No line is empty or begins with a space.  The
first and the last line are outside all blocks, and the depth of every line is the number of blocks
that lines before it open, less the number of blocks that are closed up to that line. -/
theorem indentation_eq_block_depth {item : Item} (h : item.NamesOneLine) :
    ∃ lines : List (Nat × List Char),
      (∀ indent, (item.render indent).toList = ['\n'].intercalate
        (lines.map fun line => List.replicate (indent * line.1) ' ' ++ line.2)) ∧
      (∀ line ∈ lines, '\n' ∉ line.2 ∧ ∃ c, line.2.head? = some c ∧ c ≠ ' ') ∧
      lines.head?.map (·.1) = some 0 ∧ lines.getLast?.map (·.1) = some 0 ∧
      ∀ before line after, lines = before ++ line :: after →
        line.1 + (before ++ [line]).countP closesBlock = before.countP opensBlock := by
  have hnested := item.nested_layout
  refine ⟨item.layout.lines, ?_, ?_, rfl, ?_, ?_⟩
  · intro indent
    rw [render, toList_render]
    refine congrArg _ (List.map_congr_left fun line _ => ?_)
    rw [indentLine, Nat.mul_comm]
  · exact (neat_layout h.1 h.2).of_mem_lines item.startsLine_layout
  · obtain ⟨before, body, hlines⟩ := hnested.exists_last
    rw [hlines, List.getLast?_concat]
    rfl
  · intro before line after hlines
    have hdepth := depth_add_countP hnested.isChain_lines hlines
    rw [closesBlock_firstLine] at hdepth
    simpa using hdepth

/-- The number of spaces in front of a line, and what stands after them. -/
def readLine (line : List Char) : Nat × List Char :=
  ((line.takeWhile (· == ' ')).length, line.dropWhile (· == ' '))

theorem readLine_replicate_append {body : List Char} {c : Char} (hhead : body.head? = some c)
    (hspace : c ≠ ' ') (depth : Nat) :
    readLine (List.replicate depth ' ' ++ body) = (depth, body) := by
  obtain ⟨rest, rfl⟩ := List.head?_eq_some_iff.mp hhead
  have hspaces : ∀ c ∈ List.replicate depth ' ', (c == ' ') = true := by simp
  rw [readLine, List.takeWhile_append_of_pos hspaces, List.dropWhile_append_of_pos hspaces]
  simp [hspace]

/-- With one space for each block, the lines can be read off the text. -/
theorem map_readLine_splitOn {lines : List (Nat × List Char)} (hne : lines ≠ [])
    (hlines : ∀ line ∈ lines, '\n' ∉ line.2 ∧ ∃ c, line.2.head? = some c ∧ c ≠ ' ')
    {text : List Char} (htext : text = ['\n'].intercalate
      (lines.map fun line => List.replicate (1 * line.1) ' ' ++ line.2)) :
    (text.splitOn '\n').map readLine = lines := by
  have hbreaks : ∀ line ∈ lines.map fun line => List.replicate (1 * line.1) ' ' ++ line.2,
      '\n' ∉ line := by
    refine List.forall_mem_map.mpr fun line hline => ?_
    simp [(hlines line hline).1]
  rw [htext, List.splitOn_intercalate '\n' hbreaks (by simpa using hne), List.map_map]
  refine (List.map_congr_left fun line hline => ?_).trans (List.map_id lines)
  obtain ⟨-, c, hhead, hspace⟩ := hlines line hline
  rw [Function.comp_apply, Nat.one_mul, readLine_replicate_append hhead hspace, id]

/-- A function with an object type in the type of its parameter, and with a function as argument of
a call.  A property and a string hold line breaks. -/
def nestedFunction : Item :=
  .function "apply" [] [.typed "input" (.object [⟨true, "a\nb", .object [⟨false, "c", .named "C"⟩]⟩])]
    (.named "D") [.ret (.call (.ident "map") [.arrowBlock ["d"] [.ret (.str "e\nf")]])]

/-- The type `C` and the string stand inside two blocks each, and between them a line is outside all
blocks. -/
theorem nestedFunction_indentation :
    nestedFunction.NamesOneLine ∧ ∃ lines : List (Nat × List Char),
      (∀ indent, (nestedFunction.render indent).toList = ['\n'].intercalate
        (lines.map fun line => List.replicate (indent * line.1) ' ' ++ line.2)) ∧
      (∀ before line after, lines = before ++ line :: after →
        line.1 + (before ++ [line]).countP closesBlock = before.countP opensBlock) ∧
      lines.map (·.1) = [0, 1, 2, 1, 0, 1, 2, 1, 0] ∧
      lines[2]? = some (2, "c: C;".toList) ∧ lines[6]? = some (2, "return \"e\\nf\";".toList) := by
  have hnames : nestedFunction.NamesOneLine := by
    constructor
    · simp [nestedFunction, bareNames, Param.typed, OneLine]
    · simp [nestedFunction, TypeNode.named, Param.typed, Node.NamesOneLine, Node.bareNames, OneLine]
  obtain ⟨lines, hrender, hlines, hfirst, -, hdepth⟩ := indentation_eq_block_depth hnames
  have hne : lines ≠ [] := by
    rintro rfl
    cases hfirst
  have hread := map_readLine_splitOn hne hlines (hrender 1)
  refine ⟨hnames, lines, hrender, hdepth, ?_⟩
  rw [← hread]
  decide +kernel

end Item

end AlgebraicData.Target
