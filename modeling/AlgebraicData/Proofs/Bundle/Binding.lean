import AlgebraicData.Proofs.Bundle.Construction

/-!
# The names of a module

All items of a bundle stand in one module.  `Declaration.namesOf` lists the names that the items of
one purpose make known there.

* Constructors and accessors choose last: whatever the folds, the imports and the equality are
  called is in use by then (`BundleNames.subset_moduleScope`), so they clash with nothing.
* The declared type and the folds are called as the declaration and the options say, and the
  libraries have fixed names.  Nothing keeps these apart; `imports_apart_iff` says when they are.
-/

namespace AlgebraicData

open Target

/-- The names that an item makes known in its module. -/
def Target.Item.boundNames : Item → List String
  | .typeAlias name _ _ | .const name _ _ | .function name _ _ _ _ => [name]
  | .imports names _ => names

/-- The names that the items of the given purpose make known. -/
def Declaration.namesOf (d : Declaration) (options : Options) (kind : FragmentKind) :
    List String :=
  (d.itemsOf options kind).flatMap (·.boundNames)

/-! ## The names of each purpose -/

theorem DataType.boundNames_constructorItem (d : Declaration) (options : Options) (c : Constructor)
    (name : String) : (constructorItem d options c name).boundNames = [name] := by
  unfold constructorItem
  split <;> rfl

theorem Accessor.boundNames_item (d : Declaration) (options : Options) (c : Constructor)
    (name : String) : (item d options c name).boundNames = [name] := by
  unfold item
  split <;> rfl

theorem BundleNames.accessors_eq_nil {d : Declaration} {options : Options}
    (h : hasAccessors d options = false) : (choose d options).accessors = [] := by
  rw [choose, h]
  rfl

/-- Items made one for each constructor are called as they should be. -/
theorem flatMap_boundNames_zipWith {item : Constructor → String → Item}
    (hitem : ∀ c name, (item c name).boundNames = [name]) {constructors : List Constructor}
    {names : List String} (hlen : names.length ≤ constructors.length) :
    (constructors.zipWith item names).flatMap (·.boundNames) = names := by
  calc
    _ = (constructors.zip names).flatMap fun x => [x.2] := by
      rw [← List.map_uncurry_zip_eq_zipWith, List.flatMap_map]
      simp only [Function.uncurry, hitem]
    _ = names := by rw [← List.map_eq_flatMap, List.map_snd_zip hlen]

namespace Declaration

theorem namesOf_data (d : Declaration) (options : Options) :
    d.namesOf options .data = [d.name] := by
  rw [namesOf, itemsOf_data]
  rfl

theorem namesOf_constructor (d : Declaration) (options : Options) :
    d.namesOf options .constructor = (BundleNames.choose d options).bindings := by
  rw [namesOf, itemsOf_constructor]
  exact flatMap_boundNames_zipWith (DataType.boundNames_constructorItem d options)
    (BundleNames.length_bindings d options).le

theorem namesOf_fold (d : Declaration) (options : Options) :
    d.namesOf options .fold = BundleNames.foldNames d options := by
  unfold namesOf
  cases hsum : d.isSum with
  | true =>
    rw [itemsOf_fold hsum, Fold.items, List.flatMap_map]
    show (BundleNames.foldNames d options).zipIdx.flatMap (fun x => [x.1]) = _
    rw [← List.map_eq_flatMap, List.zipIdx_map_fst]
  | false =>
    rw [itemsOf_eq d options .fold (by decide) (by decide), sumFragments, equalityFragments,
      BundleNames.foldNames, hsum]
    cases options.emitEquality <;> rfl

theorem namesOf_accessor (d : Declaration) (options : Options) :
    d.namesOf options .accessor = (BundleNames.choose d options).accessors := by
  unfold namesOf
  cases haccessors : BundleNames.hasAccessors d options with
  | true =>
    obtain ⟨hsum, hemit⟩ := Bool.and_eq_true_iff.mp haccessors
    rw [itemsOf_accessor hsum hemit]
    refine flatMap_boundNames_zipWith (Accessor.boundNames_item d options) ?_
    exact (BundleNames.length_accessors hsum hemit).le
  | false =>
    have hnone : d.itemsOf options .accessor = [] := by
      rw [itemsOf_eq d options .accessor (by decide) (by decide), sumFragments, equalityFragments]
      cases hsum : d.isSum <;> cases hemit : options.emitAccessors <;>
        cases options.emitEquality <;> simp_all [filter_kind_map, BundleNames.hasAccessors]
    rw [hnone, BundleNames.accessors_eq_nil haccessors, List.flatMap_nil]

theorem namesOf_imports (d : Declaration) (options : Options) :
    d.namesOf options .imports =
      (if BundleNames.hasAccessors d options then ["Prism"] else []) ++
        (if options.emitEquality then ["Eq", "fromEquals"] else []) := by
  rw [namesOf, itemsOf_imports]
  cases BundleNames.hasAccessors d options <;> cases options.emitEquality <;> rfl

theorem namesOf_equality (d : Declaration) (options : Options) :
    d.namesOf options .equality = if options.emitEquality then ["getEq"] else [] := by
  unfold namesOf
  cases hemit : options.emitEquality with
  | true =>
    rw [itemsOf_equality hemit]
    rfl
  | false =>
    rw [itemsOf_eq d options .equality (by decide) (by decide), sumFragments, equalityFragments,
      hemit]
    cases d.isSum <;> cases options.emitAccessors <;> simp [filter_kind_map]

/-- The names that no option changes: the imports and the equality. -/
theorem namesOf_imports_append_equality (d : Declaration) (options : Options) :
    d.namesOf options .imports ++ d.namesOf options .equality =
      BundleNames.libraryNames d options := by
  rw [namesOf_imports, namesOf_equality, BundleNames.libraryNames, List.append_assoc]
  cases options.emitEquality <;> rfl

end Declaration

/-! ## Names that are chosen -/

namespace BundleNames

/-- The folds and the libraries have their names before the constructors choose theirs.  A library
name that a fold has taken is in use as well. -/
theorem subset_moduleScope (d : Declaration) (options : Options) :
    foldNames d options ++ libraryNames d options ⊆ (moduleScope d options).taken :=
  Scope.subset_taken_takeAll ⟨foldNames d options⟩ (libraryNames d options)

/-- Accessors choose right after constructors. -/
theorem bindings_append_accessors (d : Declaration) (options : Options) :
    (choose d options).bindings ++ (choose d options).accessors =
      ((moduleScope d options).takeAll (d.constructors.map wantedBinding ++
        if hasAccessors d options then d.constructors.map wantedAccessor else [])).1 := by
  rw [Scope.takeAll_append, choose]
  cases hasAccessors d options <;> rfl

/-- What is chosen differs from what was chosen before and from what is given. -/
theorem nodup_bindings_append_accessors (d : Declaration) (options : Options) :
    ((choose d options).bindings ++ (choose d options).accessors).Nodup ∧
    ((choose d options).bindings ++ (choose d options).accessors).Disjoint
      (foldNames d options ++ libraryNames d options) := by
  rw [bindings_append_accessors]
  obtain ⟨hnodup, hfree⟩ := (moduleScope d options).nodup_takeAll
    (d.constructors.map wantedBinding ++
      if hasAccessors d options then d.constructors.map wantedAccessor else [])
  exact ⟨hnodup, fun name hname hgiven => hfree name hname (subset_moduleScope d options hgiven)⟩

end BundleNames

/-- The names of constructors and accessors differ from one another and from all names of folds,
imports and the equality, which is called `getEq`.  Each constructor has one name, and a second one
for its accessor if there are accessors. -/
theorem constructor_and_accessor_names_apart (d : Declaration) (options : Options) :
    (d.namesOf options .constructor ++ d.namesOf options .accessor).Nodup ∧
    (d.namesOf options .constructor ++ d.namesOf options .accessor).Disjoint
      (d.namesOf options .fold ++ d.namesOf options .imports ++ d.namesOf options .equality) ∧
    d.namesOf options .equality = (if options.emitEquality then ["getEq"] else []) ∧
    (d.namesOf options .constructor).length = d.constructors.length ∧
    (d.namesOf options .accessor).length =
      if d.isSum && options.emitAccessors then d.constructors.length else 0 := by
  obtain ⟨hnodup, hdisjoint⟩ := BundleNames.nodup_bindings_append_accessors d options
  rw [List.append_assoc, Declaration.namesOf_imports_append_equality,
    Declaration.namesOf_constructor, Declaration.namesOf_fold, Declaration.namesOf_accessor]
  refine ⟨hnodup, hdisjoint, d.namesOf_equality options, BundleNames.length_bindings d options, ?_⟩
  cases haccessors : d.isSum && options.emitAccessors with
  | true =>
    obtain ⟨hsum, hemit⟩ := Bool.and_eq_true_iff.mp haccessors
    exact BundleNames.length_accessors hsum hemit
  | false =>
    rw [BundleNames.accessors_eq_nil haccessors]
    rfl

/-! ## Names that are given -/

namespace BundleNames

/-- No library name ends like the lazy fold. -/
theorem lazyFold_notMem_libraryNames (d : Declaration) (options : Options) :
    options.foldName ++ "L" ∉ libraryNames d options := by
  intro hmem
  have hlibrary : ∀ name ∈ libraryNames d options, name.toList.getLast? ≠ some 'L' := by
    unfold libraryNames
    cases hasAccessors d options <;> cases options.emitEquality <;> decide
  refine hlibrary _ hmem ?_
  rw [String.toList_append]
  exact List.getLast?_concat

theorem disjoint_foldNames_iff {d : Declaration} {options : Options} :
    (libraryNames d options).Disjoint (foldNames d options) ↔
      (d.isSum = true → options.foldName ∉ libraryNames d options) := by
  have hlazy := lazyFold_notMem_libraryNames d options
  unfold foldNames
  cases d.isSum <;> cases d.hasNullary <;> simp [List.disjoint_right, hlazy]

end BundleNames

/-- A bundle imports no name that it also declares, and has no fold called like its equality, unless
the declared type is called like an import or the first fold like an import or `getEq`. -/
theorem imports_apart_iff (d : Declaration) (options : Options) :
    ((d.namesOf options .imports).Disjoint
        (d.namesOf options .data ++ d.namesOf options .fold) ∧
      (d.namesOf options .equality).Disjoint (d.namesOf options .fold)) ↔
    (d.isSum = true → options.emitAccessors = true →
      d.name ≠ "Prism" ∧ options.foldName ≠ "Prism") ∧
    (options.emitEquality = true → d.name ∉ ["Eq", "fromEquals"] ∧
      (d.isSum = true → options.foldName ∉ ["Eq", "fromEquals", "getEq"])) := by
  have hfolds : ((d.namesOf options .imports).Disjoint (d.namesOf options .fold) ∧
      (d.namesOf options .equality).Disjoint (d.namesOf options .fold)) ↔
      (d.isSum = true → options.foldName ∉ BundleNames.libraryNames d options) := by
    rw [← List.disjoint_append_left, Declaration.namesOf_imports_append_equality,
      Declaration.namesOf_fold, BundleNames.disjoint_foldNames_iff]
  rw [List.disjoint_append_right, and_assoc, hfolds, Declaration.namesOf_data,
    Declaration.namesOf_imports, BundleNames.libraryNames, BundleNames.hasAccessors]
  cases d.isSum <;> cases options.emitAccessors <;> cases options.emitEquality <;> simp
  -- with accessors and the equality, the same conditions stand in another order
  tauto

/-- `data Eq = Yes | No` -/
def eqDeclaration : Declaration where
  name := "Eq"
  parameters := []
  constructors := [.ofTypes "Yes" [], .ofTypes "No" []]
  constructors_ne_nil := List.cons_ne_nil _ _
  nodup_parameters := List.nodup_nil
  nodup_constructors := by decide

/-- The declared type is called like one of the imports. -/
theorem eq_import_declared :
    ∃ d, parse "data Eq = Yes | No" = .ok d ∧
      ∃ name ∈ d.namesOf {} .imports, name ∈ d.namesOf {} .data := by
  have hparse : parse "data Eq = Yes | No" = .ok eqDeclaration := by cbv
  exact ⟨eqDeclaration, hparse, "Eq", by rw [Declaration.namesOf_imports]; decide,
    by rw [Declaration.namesOf_data]; decide⟩

end AlgebraicData
