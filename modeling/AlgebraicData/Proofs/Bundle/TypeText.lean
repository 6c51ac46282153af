import AlgebraicData.Proofs.Bundle.Types
import AlgebraicData.Proofs.Target.Lexeme
import AlgebraicData.Proofs.Target.Lines

/-!
# The text of a type tells the type

Function types are written without parentheses around them, in type arguments, in tuples, as
parameters and as results, and `>` both ends the arguments of a type and belongs to `=>`.  Still a
text can be cut in one way only.  A type is told by its first character, and wherever a type stands it
is followed by nothing or by one of the signs in `typeEnds`; so a name is as long as it can be, and a
function type goes on to the sign that ends its result.

* `Delimited` — the text of an item determines the item and what follows it.
* `eq_of_list_append_eq` — so does a list of such items up to its closing sign.
* `TypeNode.Plain` — the types that a declaration gives rise to.  They are delimited, by induction.
-/

namespace AlgebraicData

namespace Target

open Layout

/-! ## Items that end by themselves -/

/-- The signs that can follow a type. -/
def typeEnds : List Char :=
  [',', '>', ']', ')']

/-- A type in front of the text would end there. -/
def EndsType (text : List Char) : Prop :=
  ∀ c ∈ text.head?, c ∈ typeEnds

theorem endsType_cons {c : Char} (hc : c ∈ typeEnds) (text : List Char) : EndsType (c :: text) := by
  rintro _ ⟨⟩
  exact hc

theorem EndsType.endsWord {text : List Char} (h : EndsType text) : EndsWord text := by
  have hsigns : ∀ c ∈ typeEnds, isIdentifierRest c = false := by
    simp only [typeEnds, List.forall_mem_cons]
    exact ⟨by decide, by decide, by decide, by decide, List.forall_mem_nil _⟩
  exact fun c hc => hsigns c (h c hc)

section Items

variable {τ : Type} {Valid : τ → Prop} {write : τ → List Char} {closing : Char}
  {rest rest' : List Char}

/-- Among valid items, the item and what follows it can be told from their text. -/
def Delimited (Valid : τ → Prop) (write : τ → List Char) (item : τ) : Prop :=
  ∀ ⦃item' rest rest'⦄, Valid item' → EndsType rest → EndsType rest' →
    write item ++ rest = write item' ++ rest' → item = item' ∧ rest = rest'

/-- What follows an item of a list: other items, each behind a comma, and the closing sign. -/
def listTail (write : τ → List Char) (closing : Char) (rest : List Char) : List τ → List Char
  | [] => closing :: rest
  | item :: items => ',' :: ' ' :: (write item ++ listTail write closing rest items)

theorem intercalate_cons_append (item : τ) (items : List τ) :
    [',', ' '].intercalate ((item :: items).map write) ++ closing :: rest =
      write item ++ listTail write closing rest items := by
  induction items generalizing item with
  | nil => simp [listTail]
  | cons next items ih =>
    rw [List.map_cons, List.map_cons, List.intercalate_cons_cons, List.append_assoc,
      List.append_assoc, ← List.map_cons, ih next]
    rfl

theorem endsType_listTail (hclosing : closing ∈ typeEnds) (items : List τ) :
    EndsType (listTail write closing rest items) := by
  cases items with
  | nil => exact endsType_cons hclosing _
  | cons item items => exact endsType_cons (by decide) _

theorem eq_of_listTail_eq (hclosing : closing ∈ typeEnds) (hcomma : closing ≠ ',')
    {items items' : List τ} (hitems : ∀ item ∈ items, Delimited Valid write item)
    (hitems' : ∀ item ∈ items', Valid item)
    (h : listTail write closing rest items = listTail write closing rest' items') :
    items = items' ∧ rest = rest' := by
  induction items generalizing items' with
  | nil =>
    cases items' with
    | nil => exact ⟨rfl, (List.cons.inj h).2⟩
    | cons item' items' => exact absurd (List.cons.inj h).1 hcomma
  | cons item items ih =>
    cases items' with
    | nil => exact absurd (List.cons.inj h).1.symm hcomma
    | cons item' items' =>
      obtain ⟨hitem, hmore⟩ := List.forall_mem_cons.mp hitems
      obtain ⟨hitem', hmore'⟩ := List.forall_mem_cons.mp hitems'
      have htext := (List.cons.inj (List.cons.inj h).2).2
      obtain ⟨rfl, htail⟩ := hitem hitem' (endsType_listTail hclosing items)
        (endsType_listTail hclosing items') htext
      obtain ⟨rfl, hrest⟩ := ih hmore hmore' htail
      exact ⟨rfl, hrest⟩

/-- A list of items can be told from its text if no item begins with the closing sign. -/
theorem eq_of_list_append_eq (hclosing : closing ∈ typeEnds) (hcomma : closing ≠ ',')
    (hstart : ∀ item rest, Valid item → ∀ rest', write item ++ rest ≠ closing :: rest')
    {items items' : List τ} (hitems : ∀ item ∈ items, Valid item ∧ Delimited Valid write item)
    (hitems' : ∀ item ∈ items', Valid item)
    (h : [',', ' '].intercalate (items.map write) ++ closing :: rest =
      [',', ' '].intercalate (items'.map write) ++ closing :: rest') :
    items = items' ∧ rest = rest' := by
  cases items with
  | nil =>
    cases items' with
    | nil => exact ⟨rfl, (List.cons.inj h).2⟩
    | cons item' items' =>
      rw [intercalate_cons_append] at h
      exact absurd h.symm (hstart item' _ (hitems' item' List.mem_cons_self) _)
  | cons item items =>
    obtain ⟨⟨hvalid, hitem⟩, hmore⟩ := List.forall_mem_cons.mp hitems
    cases items' with
    | nil =>
      rw [intercalate_cons_append] at h
      exact absurd h (hstart item _ hvalid _)
    | cons item' items' =>
      obtain ⟨hitem', hmore'⟩ := List.forall_mem_cons.mp hitems'
      rw [intercalate_cons_append, intercalate_cons_append] at h
      obtain ⟨rfl, htail⟩ := hitem hitem' (endsType_listTail hclosing items)
        (endsType_listTail hclosing items') h
      obtain ⟨rfl, hrest⟩ :=
        eq_of_listTail_eq hclosing hcomma (fun item h => (hmore item h).2) hmore' htail
      exact ⟨rfl, hrest⟩

end Items

/-! ## The text of a type -/

theorem toList_render_separated (indent : Nat) (layouts : List Layout) :
    (render indent (separated ", " layouts)).toList =
      [',', ' '].intercalate (layouts.map fun layout => (render indent layout).toList) := by
  unfold separated
  induction layouts with
  | nil => simp [render]
  | cons layout layouts ih =>
    cases layouts with
    | nil => simp
    | cons next layouts =>
      rw [List.intercalate_cons_cons, toList_render_append, toList_render_append, ih,
        toList_render_text]
      simp only [List.map_cons, List.intercalate_cons_cons]
      rfl

namespace TypeNode

/-- The characters of a type. -/
def chars (indent : Nat) (type : TypeNode) : List Char :=
  (type.layout.render indent).toList

/-- The characters of a parameter with its type. -/
def paramChars (indent : Nat) (param : String × TypeNode) : List Char :=
  param.1.toList ++ ':' :: ' ' :: param.2.chars indent

/-- The characters of the arguments behind a name. -/
def argsChars (indent : Nat) : List TypeNode → List Char
  | [] => []
  | args => '<' :: ([',', ' '].intercalate (args.map (chars indent)) ++ ['>'])

theorem chars_ref (indent : Nat) (name : String) (args : List TypeNode) :
    chars indent (.ref name args) = name.toList ++ argsChars indent args := by
  rw [chars, layout, typeLayouts_eq_map, toList_render_append, toList_render_text]
  cases args with
  | nil => simp [angled, render, argsChars]
  | cons arg args =>
    rw [List.map_cons, angled, ← List.map_cons, enclosed, toList_render_append,
      toList_render_append, toList_render_text, toList_render_text, toList_render_separated,
      List.map_map]
    · rfl
    · simp

theorem chars_tuple (indent : Nat) (items : List TypeNode) :
    chars indent (.tuple items) =
      '[' :: ([',', ' '].intercalate (items.map (chars indent)) ++ [']']) := by
  rw [chars, layout, typeLayouts_eq_map, enclosed, toList_render_append, toList_render_append,
    toList_render_text, toList_render_text, toList_render_separated, List.map_map]
  rfl

theorem chars_function (indent : Nat) (params : List (String × TypeNode)) (result : TypeNode) :
    chars indent (.function (params.map fun p => .typed p.1 p.2) result) =
      '(' :: ([',', ' '].intercalate (params.map (paramChars indent)) ++
        ')' :: ' ' :: '=' :: '>' :: ' ' :: result.chars indent) := by
  have hparam : ∀ p : String × TypeNode,
      (render indent (text p.1 ++ typeAnnotation (some p.2))).toList = paramChars indent p := by
    intro p
    rw [toList_render_append, typeAnnotation, toList_render_append, toList_render_text,
      toList_render_text]
    rfl
  rw [chars, layout, paramLayouts_eq_map, enclosed, toList_render_append, toList_render_append,
    toList_render_append, toList_render_append, toList_render_text, toList_render_text,
    toList_render_text, toList_render_separated, List.map_map, List.map_map]
  simp [Function.comp_def, Param.typed, hparam, chars]

/-! ## Plain types -/

/-- The name of a parameter ends in front of the first colon. -/
def IsParamName (name : String) : Prop :=
  ':' ∉ name.toList ∧ ')' ∉ name.toList

/-- The type is made of references to identifiers, of tuples, and of functions whose parameters have
types. -/
inductive Plain : TypeNode → Prop where
  | ref {name : String} {args : List TypeNode} :
      isIdentifier name = true → (∀ arg ∈ args, Plain arg) → Plain (.ref name args)
  | tuple {items : List TypeNode} : (∀ item ∈ items, Plain item) → Plain (.tuple items)
  | function {params : List (String × TypeNode)} {result : TypeNode} :
      (∀ param ∈ params, IsParamName param.1) → (∀ param ∈ params, Plain param.2) →
      Plain result → Plain (.function (params.map fun p => .typed p.1 p.2) result)

variable {indent : Nat}

theorem name_append_ne {name : String} (hname : isIdentifier name = true) {c : Char}
    (hc : isIdentifierFirst c = false) (text text' : List Char) :
    name.toList ++ text ≠ c :: text' := by
  unfold isIdentifier at hname
  intro h
  cases hchars : name.toList with
  | nil =>
    rw [hchars] at hname
    cases hname
  | cons first more =>
    rw [hchars] at hname h
    obtain ⟨rfl, -⟩ := List.cons.inj h
    simp [spellsIdentifier, hc] at hname

/-- A name is as long as it can be. -/
theorem eq_of_name_append_eq {name name' : String} {text text' : List Char}
    (hname : isIdentifier name = true) (hname' : isIdentifier name' = true)
    (htext : EndsWord text) (htext' : EndsWord text')
    (h : name.toList ++ text = name'.toList ++ text') : name = name' ∧ text = text' := by
  obtain ⟨htake, hdrop⟩ := htext.longest_append (all_isIdentifierRest hname)
  obtain ⟨htake', hdrop'⟩ := htext'.longest_append (all_isIdentifierRest hname')
  rw [h] at htake hdrop
  exact ⟨String.toList_inj.mp (htake.symm.trans htake'), hdrop.symm.trans hdrop'⟩

/-- No type begins with a sign that ends a type. -/
theorem Plain.chars_append_ne {type : TypeNode} (h : type.Plain) {c : Char} (hc : c ∈ typeEnds)
    (rest rest' : List Char) : type.chars indent ++ rest ≠ c :: rest' := by
  have hsigns : ∀ c ∈ typeEnds, isIdentifierFirst c = false ∧ c ≠ '[' ∧ c ≠ '(' := by
    simp only [typeEnds, List.forall_mem_cons]
    exact ⟨by decide, by decide, by decide, by decide, List.forall_mem_nil _⟩
  obtain ⟨hfirst, hbracket, hparen⟩ := hsigns c hc
  cases h with
  | ref hname _ =>
    rw [chars_ref, List.append_assoc]
    exact name_append_ne hname hfirst _ _
  | tuple _ =>
    rw [chars_tuple]
    exact fun heq => hbracket (List.cons.inj heq).1.symm
  | function _ _ _ =>
    rw [chars_function]
    exact fun heq => hparen (List.cons.inj heq).1.symm

theorem eq_of_types_append_eq {closing : Char} (hclosing : closing ∈ typeEnds)
    (hcomma : closing ≠ ',') {types types' : List TypeNode} {rest rest' : List Char}
    (htypes : ∀ type ∈ types, type.Plain ∧ Delimited Plain (chars indent) type)
    (htypes' : ∀ type ∈ types', type.Plain)
    (h : [',', ' '].intercalate (types.map (chars indent)) ++ closing :: rest =
      [',', ' '].intercalate (types'.map (chars indent)) ++ closing :: rest') :
    types = types' ∧ rest = rest' :=
  eq_of_list_append_eq hclosing hcomma (fun _ _ htype _ => htype.chars_append_ne hclosing _ _)
    htypes htypes' h

/-! ### References -/

theorem endsWord_argsChars_append (args : List TypeNode) {rest : List Char} (h : EndsType rest) :
    EndsWord (argsChars indent args ++ rest) := by
  cases args with
  | nil => exact h.endsWord
  | cons arg args =>
    rintro _ ⟨⟩
    decide

theorem eq_of_argsChars_append_eq {args args' : List TypeNode} {rest rest' : List Char}
    (hargs : ∀ arg ∈ args, arg.Plain ∧ Delimited Plain (chars indent) arg)
    (hargs' : ∀ arg ∈ args', arg.Plain) (hrest : EndsType rest) (hrest' : EndsType rest')
    (h : argsChars indent args ++ rest = argsChars indent args' ++ rest') :
    args = args' ∧ rest = rest' := by
  -- where there are no arguments, the next sign is not the one that opens them
  have hopen : ∀ {rest text : List Char}, EndsType rest → rest ≠ '<' :: text := by
    rintro _ text hends rfl
    exact absurd (hends '<' rfl) (by decide)
  cases args with
  | nil =>
    cases args' with
    | nil => exact ⟨rfl, h⟩
    | cons arg' args' => exact absurd h (hopen hrest)
  | cons arg args =>
    cases args' with
    | nil => exact absurd h.symm (hopen hrest')
    | cons arg' args' =>
      simp only [argsChars, List.cons_append, List.append_assoc, List.cons.injEq, true_and] at h
      exact eq_of_types_append_eq (by decide) (by decide) hargs hargs' h

theorem delimited_ref {name : String} {args : List TypeNode} (hname : isIdentifier name = true)
    (hargs : ∀ arg ∈ args, arg.Plain ∧ Delimited Plain (chars indent) arg) :
    Delimited Plain (chars indent) (.ref name args) := by
  intro type' rest rest' h' hrest hrest' heq
  rw [chars_ref, List.append_assoc] at heq
  cases h' with
  | ref hname' hargs' =>
    rw [chars_ref, List.append_assoc] at heq
    obtain ⟨rfl, htail⟩ := eq_of_name_append_eq hname hname'
      (endsWord_argsChars_append _ hrest) (endsWord_argsChars_append _ hrest') heq
    obtain ⟨rfl, hrests⟩ := eq_of_argsChars_append_eq hargs hargs' hrest hrest' htail
    exact ⟨rfl, hrests⟩
  | tuple _ =>
    rw [chars_tuple] at heq
    exact absurd heq (name_append_ne hname (by decide) _ _)
  | function _ _ _ =>
    rw [chars_function] at heq
    exact absurd heq (name_append_ne hname (by decide) _ _)

/-! ### Tuples -/

theorem delimited_tuple {items : List TypeNode}
    (hitems : ∀ item ∈ items, item.Plain ∧ Delimited Plain (chars indent) item) :
    Delimited Plain (chars indent) (.tuple items) := by
  intro type' rest rest' h' hrest hrest' heq
  rw [chars_tuple] at heq
  cases h' with
  | ref hname' _ =>
    rw [chars_ref, List.append_assoc] at heq
    exact absurd heq.symm (name_append_ne hname' (by decide) _ _)
  | tuple hitems' =>
    simp only [chars_tuple, List.cons_append, List.append_assoc, List.cons.injEq, true_and] at heq
    obtain ⟨rfl, hrests⟩ := eq_of_types_append_eq (by decide) (by decide) hitems hitems' heq
    exact ⟨rfl, hrests⟩
  | function _ _ _ =>
    rw [chars_function] at heq
    exact absurd (List.cons.inj heq).1 (by decide)

/-! ### Functions -/

/-- The parameter can be told from its text. -/
def ValidParam (param : String × TypeNode) : Prop :=
  IsParamName param.1 ∧ param.2.Plain

theorem delimited_param {param : String × TypeNode} (hname : IsParamName param.1)
    (htype : Delimited Plain (chars indent) param.2) :
    Delimited ValidParam (paramChars indent) param := by
  intro param' rest rest' h' hrest hrest' heq
  simp only [paramChars, List.append_assoc, List.cons_append] at heq
  obtain ⟨hnames, htail⟩ := List.eq_of_append_cons_eq hname.1 h'.1.1 heq
  obtain ⟨htypes, hrests⟩ := htype h'.2 hrest hrest' (List.cons.inj htail).2
  exact ⟨Prod.ext (String.toList_inj.mp hnames) htypes, hrests⟩

theorem ValidParam.paramChars_append_ne {param : String × TypeNode} (h : ValidParam param)
    (rest rest' : List Char) : paramChars indent param ++ rest ≠ ')' :: rest' := by
  intro heq
  unfold paramChars at heq
  have hname := h.1.2
  cases hchars : param.1.toList with
  | nil =>
    rw [hchars] at heq
    exact absurd (List.cons.inj heq).1 (by decide)
  | cons first more =>
    rw [hchars] at heq hname
    exact hname ((List.cons.inj heq).1 ▸ List.mem_cons_self)

theorem delimited_function {params : List (String × TypeNode)} {result : TypeNode}
    (hparams : ∀ param ∈ params, ValidParam param ∧ Delimited Plain (chars indent) param.2)
    (hresult : Delimited Plain (chars indent) result) :
    Delimited Plain (chars indent) (.function (params.map fun p => .typed p.1 p.2) result) := by
  intro type' rest rest' h' hrest hrest' heq
  rw [chars_function] at heq
  cases h' with
  | ref hname' _ =>
    rw [chars_ref, List.append_assoc] at heq
    exact absurd heq.symm (name_append_ne hname' (by decide) _ _)
  | tuple _ =>
    rw [chars_tuple] at heq
    exact absurd (List.cons.inj heq).1 (by decide)
  | function hnames' htypes' hresult' =>
    simp only [chars_function, List.cons_append, List.append_assoc, List.cons.injEq, true_and]
      at heq
    obtain ⟨rfl, htail⟩ := eq_of_list_append_eq (by decide) (by decide)
      (fun _ _ hparam _ => ValidParam.paramChars_append_ne hparam _ _)
      (fun param hmem => ⟨(hparams param hmem).1,
        delimited_param (hparams param hmem).1.1 (hparams param hmem).2⟩)
      (fun param hmem => ⟨hnames' param hmem, htypes' param hmem⟩) heq
    -- the arrow is the same in both, and the results come after it
    simp only [List.cons.injEq, true_and] at htail
    obtain ⟨rfl, hrests⟩ := hresult hresult' hrest hrest' htail
    exact ⟨rfl, hrests⟩

/-- A plain type can be told from its text, whatever follows that ends a type. -/
theorem Plain.delimited {type : TypeNode} (h : type.Plain) (indent : Nat) :
    Delimited Plain (chars indent) type := by
  induction h with
  | ref hname hargs ih => exact delimited_ref hname fun arg hmem => ⟨hargs arg hmem, ih arg hmem⟩
  | tuple hitems ih => exact delimited_tuple fun item hmem => ⟨hitems item hmem, ih item hmem⟩
  | function hnames hparams _ ih ihresult =>
    exact delimited_function
      (fun param hmem => ⟨⟨hnames param hmem, hparams param hmem⟩, ih param hmem⟩) ihresult

end TypeNode

end Target

/-! ## The types of a declaration -/

/-- A small first letter brings no sign into a name. -/
theorem notMem_lowerFirst {name : String} (hname : isIdentifier name = true) {c : Char}
    (hc : isIdentifierRest c = false) (hmark : c ≠ '\u0307') : c ∉ (lowerFirst name).toList := by
  have hnot : ∀ {chars : List Char}, (∀ d ∈ chars, isIdentifierRest d = true) → c ∉ chars := by
    intro chars hall hmem
    rw [hall c hmem] at hc
    cases hc
  by_cases hdot : name.toList.head? = some 'İ'
  · -- the one letter whose small form has a mark
    obtain ⟨more, hmore⟩ := List.head?_eq_some_iff.mp hdot
    have hall := all_isIdentifierRest hname
    rw [hmore] at hall
    have hi : c ∉ ['i'] := hnot (List.forall_mem_singleton.mpr (by decide))
    rw [lowerFirst, mapFirst, hmore]
    simp only [Text.toLower_dotted, String.toList_ofList, List.cons_append, List.nil_append,
      List.mem_cons, not_or]
    exact ⟨fun h => hi (h ▸ List.mem_singleton_self _), hmark,
      hnot (List.forall_mem_cons.mp hall).2⟩
  · exact hnot (all_isIdentifierRest (isIdentifier_lowerFirst_iff.mpr ⟨hname, hdot⟩))

theorem notMem_bindingName {name : String} {c : Char} (hc : isIdentifierRest c = false)
    (h : c ∉ name.toList) : c ∉ (bindingName name).toList := by
  unfold bindingName
  split
  · rw [String.toList_append]
    refine List.not_mem_append h fun hmem => ?_
    rw [show c = '_' from List.mem_singleton.mp hmem] at hc
    exact absurd hc (by decide)
  · exact h

namespace TypeExpr

open Target (TypeNode)

theorem isParamName_paramName? {domain : TypeExpr}
    (h : ∀ name ∈ domain.references, isIdentifier name = true) :
    ∀ name ∈ domain.paramName?, TypeNode.IsParamName name := by
  cases domain with
  | ref head args =>
    rintro _ ⟨⟩
    have hhead : isIdentifier head = true := h head List.mem_cons_self
    exact ⟨notMem_bindingName (by decide) (notMem_lowerFirst hhead (by decide) (by decide)),
      notMem_bindingName (by decide) (notMem_lowerFirst hhead (by decide) (by decide))⟩
  | tuple items =>
    rintro _ ⟨⟩
    exact ⟨by decide, by decide⟩
  | arrow domain codomain =>
    rintro _ ⟨⟩
    exact ⟨by decide, by decide⟩
  | unit => rintro _ ⟨⟩

theorem plain_toNode {type : TypeExpr}
    (h : ∀ name ∈ type.references, isIdentifier name = true) : type.toNode.Plain := by
  induction type using induct with
  | ref name args ih =>
    rw [toNode, toNodes_eq_map]
    refine .ref (h name List.mem_cons_self) (List.forall_mem_map.mpr fun arg hmem => ?_)
    exact ih arg hmem fun name hname =>
      h name (List.mem_cons_of_mem _ (mem_referencesOf.mpr ⟨arg, hmem, hname⟩))
  | tuple items ih =>
    rw [toNode, toNodes_eq_map]
    refine .tuple (List.forall_mem_map.mpr fun item hmem => ?_)
    exact ih item hmem fun name hname => h name (mem_referencesOf.mpr ⟨item, hmem, hname⟩)
  | arrow domain codomain ih ih' =>
    obtain ⟨hdomain, hcodomain⟩ := List.forall_mem_append.mp h
    have hparam := isParamName_paramName? hdomain
    rw [toNode]
    cases hname : domain.paramName? with
    | none =>
      exact @TypeNode.Plain.function [] _ (List.forall_mem_nil _) (List.forall_mem_nil _)
        (ih' hcodomain)
    | some name =>
      exact @TypeNode.Plain.function [(name, domain.toNode)] _
        (List.forall_mem_singleton.mpr (hparam name hname))
        (List.forall_mem_singleton.mpr (ih hdomain)) (ih' hcodomain)
  | unit => exact .ref (by decide) (List.forall_mem_nil _)

/-- Types that refer to identifiers only, nested to any depth, are written alike only if they are
the same type of the generated code. -/
theorem toNode_eq_of_render_eq {type type' : TypeExpr}
    (h : ∀ name ∈ type.references, isIdentifier name = true)
    (h' : ∀ name ∈ type'.references, isIdentifier name = true) {indent : Nat}
    (htext : type.toNode.layout.render indent = type'.toNode.layout.render indent) :
    type.toNode = type'.toNode := by
  have hnil : Target.EndsType [] := fun c hc => by cases hc
  have hchars : type.toNode.chars indent ++ [] = type'.toNode.chars indent ++ [] :=
    congrArg (·.toList ++ []) htext
  exact ((plain_toNode h).delimited indent (plain_toNode h') hnil hnil hchars).1

/-- Functions inside arguments, tuples, parameters and results, with the given type at their ends. -/
def nestedFunctions (last : TypeExpr) : TypeExpr :=
  .ref "Map" [
    .arrow (.ref "İd" [last]) (.arrow .unit last),
    .tuple [.arrow (.arrow .unit (.var "B")) last, .tuple []]]

theorem nestedFunctions_unit_eq :
    (∀ name ∈ (nestedFunctions .unit).references, isIdentifier name = true) ∧
    (∀ name ∈ (nestedFunctions (.var "undefined")).references, isIdentifier name = true) ∧
    (nestedFunctions .unit).toNode.layout.render 4 =
      "Map<(i\u0307d: İd<undefined>) => () => undefined, [(f: () => B) => undefined, []]>" ∧
    (nestedFunctions (.var "undefined")).toNode.layout.render 4 =
      "Map<(i\u0307d: İd<undefined>) => () => undefined, [(f: () => B) => undefined, []]>" ∧
    (nestedFunctions .unit).toNode = (nestedFunctions (.var "undefined")).toNode := by
  have hnames : ∀ name ∈ (nestedFunctions .unit).references, isIdentifier name = true := by decide
  have hnames' : ∀ name ∈ (nestedFunctions (.var "undefined")).references,
      isIdentifier name = true := by decide
  have htext : (nestedFunctions .unit).toNode.layout.render 4 =
      "Map<(i\u0307d: İd<undefined>) => () => undefined, [(f: () => B) => undefined, []]>" := by
    decide
  have htext' : (nestedFunctions (.var "undefined")).toNode.layout.render 4 =
      "Map<(i\u0307d: İd<undefined>) => () => undefined, [(f: () => B) => undefined, []]>" := by
    decide
  exact ⟨hnames, hnames', htext, htext',
    toNode_eq_of_render_eq hnames hnames' (htext.trans htext'.symm)⟩

end TypeExpr

end AlgebraicData
