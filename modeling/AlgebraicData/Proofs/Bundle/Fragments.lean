import AlgebraicData.Proofs.Bundle.Spelling
import AlgebraicData.Proofs.Grammar.RoundTrip
import AlgebraicData.Proofs.Target.Lines

/-!
# Cutting a bundle into its fragments

A bundle is written with a blank line between fragments.  No fragment has a blank line in it, so the
fragments can be had back from the text.

* The names of a declaration that is read are on one line each, and so are all names that are made
  from them (`Declaration.WellFormed.namesSatisfy_oneLine`).
* The names of the options are taken as they are.  If they are on one line as well, no fragment has
  an empty line (`solid_render_of_mem_bundle`).  The tag is quoted where it needs to be, so it may
  be anything.
-/

namespace AlgebraicData

open Target
open Text (OneLine oneLine_append_iff)

/-! ## Names -/

theorem Token.IsName.oneLine {name : String} (h : Token.IsName name) : OneLine name := by
  have hnewline : Token.isNameRest '\n' = false := by decide
  intro hmem
  rw [h.all_isNameRest _ hmem] at hnewline
  cases hnewline

theorem IsBindable.oneLine {name : String} (h : IsBindable name) : OneLine name :=
  oneLine_of_isIdentifier h.1

theorem oneLine_mapFirst {f : Char → List Char} (hf : ∀ c, c ≠ '\n' → '\n' ∉ f c) {name : String}
    (h : OneLine name) : OneLine (mapFirst f name) := by
  unfold OneLine at h
  unfold mapFirst
  cases hchars : name.toList with
  | nil => exact (by decide : OneLine "")
  | cons first rest =>
    rw [hchars] at h
    obtain ⟨hfirst, hrest⟩ := List.ne_and_not_mem_of_not_mem_cons h
    exact Text.oneLine_ofList_iff.mpr (List.not_mem_append (hf first hfirst.symm) hrest)

theorem oneLine_bindingName {name : String} (h : OneLine name) : OneLine (bindingName name) := by
  unfold bindingName
  split
  · exact oneLine_append_iff.mpr ⟨h, by decide⟩
  · exact h

namespace Scope

/-- A number at the end breaks no line. -/
theorem oneLine_fresh_iff (base : String) (scope : Scope) :
    OneLine (scope.fresh base) ↔ OneLine base := by
  obtain ⟨n, -, hfresh, -⟩ := scope.exists_fresh_eq base
  rw [hfresh]
  cases n with
  | zero => rfl
  | succ n =>
    have hrepr : OneLine (n + 1).repr :=
      fun hmem => absurd (Nat.isDigit_of_mem_repr _ hmem) (by decide)
    rw [candidate, oneLine_append_iff, and_iff_left hrepr]

theorem oneLine_takeAll_iff {bases : List String} (scope : Scope) :
    (∀ name ∈ (scope.takeAll bases).1, OneLine name) ↔ ∀ base ∈ bases, OneLine base :=
  forall_mem_takeAll_iff (fun base _ => oneLine_fresh_iff base) scope

end Scope

namespace BundleNames

theorem oneLine_lowerFirst_identifierName (name : String) :
    OneLine (lowerFirst (identifierName name)) :=
  oneLine_mapFirst (fun _ => Text.newline_notMem_toLower)
    (oneLine_of_isIdentifier (isIdentifier_identifierName name))

theorem oneLine_bindings (d : Declaration) (options : Options) :
    ∀ name ∈ (choose d options).bindings, OneLine name := by
  refine (Scope.oneLine_takeAll_iff _).mpr (List.forall_mem_map.mpr fun c _ => ?_)
  exact oneLine_bindingName (oneLine_lowerFirst_identifierName c.name)

theorem oneLine_accessors (d : Declaration) (options : Options) :
    ∀ name ∈ (choose d options).accessors, OneLine name := by
  cases h : hasAccessors d options with
  | false => simp [accessors_eq_nil h]
  | true =>
    rw [choose, h]
    refine (Scope.oneLine_takeAll_iff _).mpr (List.forall_mem_map.mpr fun c _ => ?_)
    exact oneLine_append_iff.mpr ⟨by decide, oneLine_lowerFirst_identifierName c.name⟩

end BundleNames

theorem Equality.oneLine_comparatorNames (d : Declaration) :
    ∀ name ∈ comparatorNames d, OneLine name := by
  rw [comparatorNames_eq, comparators, Scope.reduceOption_takeRows, Scope.oneLine_takeAll_iff,
    forall_mem_wantedComparators_iff]
  intro c _ x _ _
  have hconstructor : OneLine (if d.isSum then identifierName c.name else "") := by
    split
    · exact oneLine_of_isIdentifier (isIdentifier_identifierName c.name)
    · decide
  have hlabel : OneLine (upperFirst (x.1.label x.2)) :=
    oneLine_mapFirst (fun _ => Text.newline_notMem_toUpper)
      (oneLine_of_isIdentifier (x.1.isIdentifier_label x.2))
  exact oneLine_append_iff.mpr ⟨oneLine_append_iff.mpr ⟨by decide, hconstructor⟩, hlabel⟩

/-! ## Declarations that are read -/

/-- The names that the options give are on one line each, the tag apart. -/
structure Options.NamesOneLine (options : Options) : Prop where
  fold : OneLine options.foldName
  matchee : OneLine options.matcheeName
  handlers : ∀ name, options.handlerStyle = .record name → OneLine name

theorem BundleNames.oneLine_folds (d : Declaration) {options : Options}
    (hfold : OneLine options.foldName) : ∀ name ∈ (choose d options).folds, OneLine name := by
  have hlazy : OneLine (options.foldName ++ "L") := oneLine_append_iff.mpr ⟨hfold, by decide⟩
  change ∀ name ∈ foldNames d options, OneLine name
  unfold foldNames
  split
  · exact List.forall_mem_nil _
  · split
    · exact List.forall_mem_cons.mpr ⟨hfold, List.forall_mem_singleton.mpr hlazy⟩
    · exact List.forall_mem_singleton.mpr hfold

theorem Declaration.WellFormed.namesSatisfy_oneLine {d : Declaration} (hd : d.WellFormed)
    {options : Options} (hoptions : options.NamesOneLine) : d.NamesSatisfy OneLine options where
  words := by decide
  type := hd.1.oneLine
  parameters p hp := (hd.2.1 p hp).1.oneLine
  members c _ param hparam := (c.isBindable_params param hparam).oneLine
  matchee := hoptions.matchee
  handlersName := hoptions.handlers
  handlers name hname := (BundleNames.isBindable_handlers d options name hname).oneLine
  result := (Scope.oneLine_fresh_iff _ _).mpr (by decide)
  comparators names hnames name hname :=
    Equality.oneLine_comparatorNames d name
      (List.mem_flatMap.mpr ⟨names, hnames, List.reduceOption_mem_iff.mpr hname⟩)

/-- The name of the parameter of a function type comes from the domain. -/
theorem TypeExpr.WellFormed.oneLine_paramName? {domain : TypeExpr} (h : domain.WellFormed) :
    ∀ name ∈ domain.paramName?, OneLine name := by
  cases h with
  | ref hname =>
    rintro _ ⟨⟩
    exact oneLine_bindingName
      (oneLine_mapFirst (fun _ => Text.newline_notMem_toLower) hname.oneLine)
  | tuple =>
    rintro _ ⟨⟩
    decide
  | arrow =>
    rintro _ ⟨⟩
    decide
  | unit => rintro _ ⟨⟩

theorem TypeExpr.WellFormed.everywhere_namesOneLine {type : TypeExpr} (h : type.WellFormed) :
    Node.Everywhere Node.NamesOneLine (.type type.toNode) := by
  induction h with
  | ref hname _ ih =>
    rw [toNode, toNodes_eq_map, Node.everywhere_ref, List.forall_mem_map]
    exact ⟨List.forall_mem_singleton.mpr hname.oneLine, ih⟩
  | tuple _ _ ih =>
    rw [toNode, toNodes_eq_map, Node.everywhere_tuple, List.forall_mem_map]
    exact ⟨List.forall_mem_nil _, ih⟩
  | @arrow domain codomain hdomain _ ih ih' =>
    have hparam := hdomain.oneLine_paramName?
    rw [toNode, Node.everywhere_function]
    cases hname : domain.paramName? with
    | none => exact ⟨List.forall_mem_nil _, List.forall_mem_nil _, ih'⟩
    | some name =>
      refine ⟨List.forall_mem_singleton.mpr (hparam name hname),
        List.forall_mem_singleton.mpr ?_, ih'⟩
      rintro _ ⟨⟩
      exact ih
  | unit =>
    exact Node.everywhere_ref.mpr
      ⟨List.forall_mem_singleton.mpr (by decide), List.forall_mem_nil _⟩

/-- A property is written in short only if the parameter is called like it. -/
theorem DataType.namesOneLine_variantObject (d : Declaration) (options : Options)
    (c : Constructor) : Node.NamesOneLine (.expr (variantObject d options c)) := by
  refine List.forall_mem_map.mpr fun a ha => ?_
  obtain ⟨ha, hshort⟩ := List.mem_filter.mp ha
  rcases List.mem_append.mp ha with htag | hmember
  · -- the tag has a value of its own
    split at htag
    · obtain rfl := List.mem_singleton.mp htag
      cases hshort
    · cases htag
  · obtain ⟨x, hx, rfl⟩ := List.mem_map.mp hmember
    have hbinding : x.1.binding x.2 = x.1.property x.2 := by
      by_contra hne
      simp [hne] at hshort
    have hparam : OneLine (x.1.binding x.2) :=
      (c.isBindable_params _ (List.mem_map_of_mem hx)).oneLine
    rw [hbinding] at hparam
    exact hparam

/-! ## Fragments -/

section Fragments

variable {d : Declaration} {options : Options} {fragment : Fragment}

theorem oneLine_bareNames_of_mem_bundle (hd : d.WellFormed) (hoptions : options.NamesOneLine)
    (h : fragment ∈ d.bundle options) : ∀ name ∈ fragment.item.bareNames, OneLine name := by
  have hnames := hd.namesSatisfy_oneLine hoptions
  have htypeParams : ∀ name ∈ d.typeParams.map (·.name), OneLine name := by
    rw [Declaration.typeParams, List.map_map]
    exact List.forall_mem_map.mpr hnames.parameters
  cases Declaration.mem_bundle_iff.mp h with
  | data => exact List.forall_mem_cons.mpr ⟨hnames.type, htypeParams⟩
  | constructor hzip =>
    obtain ⟨hc, hname⟩ := List.of_mem_zip hzip
    have hname := BundleNames.oneLine_bindings d options _ hname
    have hparams := List.forall_mem_map.mpr (hnames.members _ hc)
    unfold DataType.constructorItem
    split
    · exact List.forall_mem_singleton.mpr hname
    · exact List.forall_mem_cons.mpr
        ⟨hname, List.forall_mem_append.mpr ⟨htypeParams, hparams⟩⟩
  | fold hsum hname =>
    have hname := BundleNames.oneLine_folds d hoptions.fold _ (List.fst_mem_of_mem_zipIdx hname)
    have hhandlers : ∀ name ∈ Fold.handlerParamNames d options, OneLine name := by
      unfold Fold.handlerParamNames
      split
      · exact hnames.handlers
      · exact List.forall_mem_singleton.mpr (hnames.handlersName _ ‹_›)
    refine List.forall_mem_cons.mpr ⟨hname, List.forall_mem_append.mpr ⟨?_, ?_⟩⟩
    · rw [List.map_append]
      exact List.forall_mem_append.mpr
        ⟨htypeParams, List.forall_mem_singleton.mpr hnames.result⟩
    · rw [List.map_cons, Fold.map_name_handlerParams]
      exact List.forall_mem_cons.mpr ⟨hnames.matchee, hhandlers⟩
  | prismImport => exact (by decide : ∀ name ∈ ["Prism"], OneLine name)
  | accessor _ _ hzip =>
    have hname := BundleNames.oneLine_accessors d options _ (List.of_mem_zip hzip).2
    unfold Accessor.item
    split
    · exact List.forall_mem_cons.mpr
        ⟨hname, List.forall_mem_append.mpr ⟨htypeParams, List.forall_mem_nil _⟩⟩
    · exact List.forall_mem_singleton.mpr hname
  | eqImport => exact (by decide : ∀ name ∈ ["Eq", "fromEquals"], OneLine name)
  | equality =>
    refine List.forall_mem_cons.mpr ⟨(by decide : OneLine "getEq"), ?_⟩
    rw [Equality.map_name_comparatorParams]
    exact List.forall_mem_append.mpr ⟨htypeParams, Equality.oneLine_comparatorNames d⟩

theorem everywhere_namesOneLine_of_mem_bundle (hd : d.WellFormed)
    (hoptions : options.NamesOneLine) (h : fragment ∈ d.bundle options) :
    fragment.item.Everywhere Node.NamesOneLine := by
  have hnames := hd.namesSatisfy_oneLine hoptions
  have hplain : Node.HoldsOfPlain OneLine Node.NamesOneLine := fun node _ h => h
  refine (everywhere_bundle_iff hplain (fun _ => List.forall_mem_nil _) hnames
    (fun c _ => DataType.namesOneLine_variantObject d options c)
    (fun c hc _ => List.forall_mem_map.mpr (hnames.members c hc))).mpr ⟨?_, ?_⟩ fragment h
  · exact fun p hp bound hbound => ((hd.2.1 p hp).2 bound hbound).everywhere_namesOneLine
  · exact fun c hc m hm => ((hd.2.2 c hc).2 m hm).2.everywhere_namesOneLine

/-- No fragment has an empty line. -/
theorem solid_render_of_mem_bundle (hd : d.WellFormed) (hoptions : options.NamesOneLine)
    (h : fragment ∈ d.bundle options) : Text.Solid fragment.render.toList :=
  (Item.neat_layout (oneLine_bareNames_of_mem_bundle hd hoptions h)
    (everywhere_namesOneLine_of_mem_bundle hd hoptions h)).solid_render
    fragment.item.startsLine_layout bundleIndent

end Fragments

/-- The text of a bundle, split at blank lines, gives the texts of the fragments, each of which has
something in every line.  No name that the options give may hold a line break, but the tag may. -/
theorem split_compile_at_blank_lines {source : String} {d : Declaration}
    (hparse : parse source = .ok d) {options : Options} (hoptions : options.NamesOneLine) :
    (∃ text, compile source options = .ok text ∧
      (text.split "\n\n").toList.map (·.copy) = (d.bundle options).map (·.render)) ∧
    ∀ fragment ∈ d.bundle options, fragment.render ≠ "" ∧
      ¬ "\n\n".toList <:+: fragment.render.toList ∧
      fragment.render.toList.head? ≠ some '\n' ∧ fragment.render.toList.getLast? ≠ some '\n' := by
  have hd : d.WellFormed := (Grammar.parse_eq_ok_iff_describes.mp hparse).wellFormed
  have hsolid : ∀ fragment ∈ d.bundle options, Text.Solid fragment.render.toList :=
    fun fragment h => solid_render_of_mem_bundle hd hoptions h
  constructor
  · refine ⟨renderBundle (d.bundle options), by rw [compile, hparse]; rfl, ?_⟩
    refine Text.split_intercalate (by decide) ?_ (List.forall_mem_map.mpr ?_)
    · rw [Declaration.bundle_eq, List.map_cons]
      exact List.cons_ne_nil _ _
    · exact fun fragment h => (hsolid fragment h).uncut
  · intro fragment h
    obtain ⟨hne, hhead, hlast, -⟩ := hsolid fragment h
    exact ⟨fun hempty => hne (String.toList_eq_nil_iff.mpr hempty), (hsolid fragment h).noBlankLine,
      hhead, hlast⟩

/-- The tag holds a blank line, which is quoted wherever the tag is written, as in the constant
`nothing`. -/
theorem split_compile_maybe_with_broken_tag :
    parse "data Maybe A = Nothing | Just A" = .ok maybeDeclaration ∧
      (⟨"a\n\nb", "fold", "fa", .record "handlers", true, true⟩ : Options).NamesOneLine ∧
      ∃ text, compile "data Maybe A = Nothing | Just A"
          ⟨"a\n\nb", "fold", "fa", .record "handlers", true, true⟩ = .ok text ∧
        (text.split "\n\n").toList.map (·.copy) = (maybeDeclaration.bundle
          ⟨"a\n\nb", "fold", "fa", .record "handlers", true, true⟩).map (·.render) ∧
        ((text.split "\n\n").toList.map (·.copy)).length = 10 ∧
        ((text.split "\n\n").toList.map (·.copy))[1]? =
          some ("export const nothing: Maybe<never> = " ++
            inBraces "\"a\\n\\nb\": \"Nothing\"" ++ ";") := by
  have hparse : parse "data Maybe A = Nothing | Just A" = .ok maybeDeclaration := by
    cbv
  have hoptions : (⟨"a\n\nb", "fold", "fa", .record "handlers", true, true⟩ :
      Options).NamesOneLine := by
    refine ⟨by decide, by decide, ?_⟩
    rintro _ ⟨⟩
    decide
  obtain ⟨⟨text, hcompile, hsplit⟩, -⟩ := split_compile_at_blank_lines hparse hoptions
  refine ⟨hparse, hoptions, text, hcompile, hsplit, ?_⟩
  rw [hsplit]
  decide +kernel

end AlgebraicData
