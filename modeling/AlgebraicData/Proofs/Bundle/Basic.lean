import AlgebraicData.Bundle.Basic
import AlgebraicData.Proofs.Declaration.Invariant

/-!
# The items of a bundle

A bundle holds its items one kind after another.  `Declaration.itemsOf` picks those of one kind, and
for each kind with a meaning of its own it is shown which items these are.
-/

namespace AlgebraicData

open Target (Item)

namespace Declaration

/-- A constructor is determined by its name. -/
theorem index_eq_of_name_eq {d : Declaration} {i j : Nat} {c c' : Constructor}
    (hc : d.constructors[i]? = some c) (hc' : d.constructors[j]? = some c')
    (hname : c.name = c'.name) : i = j := by
  have hi : i < (d.constructors.map (·.name)).length := by
    rw [List.length_map]
    exact (List.getElem?_eq_some_iff.mp hc).1
  refine (List.getElem?_inj hi d.nodup_constructors).mp ?_
  rw [List.getElem?_map, List.getElem?_map, hc, hc', Option.map_some, Option.map_some, hname]

theorem exists_constructors_eq {d : Declaration} (hsum : d.isSum = false) :
    ∃ c, d.constructors = [c] := by
  have hle : d.constructors.length ≤ 1 := by simpa [isSum] using hsum
  have hpos := List.length_pos_iff.mpr d.constructors_ne_nil
  exact List.length_eq_one_iff.mp (by omega)

/-- The items of a bundle that have the given purpose, in order. -/
def itemsOf (d : Declaration) (options : Options) (kind : FragmentKind) : List Item :=
  ((d.bundle options).filter (·.kind = kind)).map (·.item)

theorem mem_itemsOf_iff {d : Declaration} {options : Options} {kind : FragmentKind} {item : Item} :
    item ∈ d.itemsOf options kind ↔ ⟨kind, item⟩ ∈ d.bundle options := by
  unfold itemsOf
  simp only [List.mem_map, List.mem_filter, decide_eq_true_eq]
  constructor
  · rintro ⟨fragment, ⟨hmem, rfl⟩, rfl⟩
    exact hmem
  · exact fun hmem => ⟨_, ⟨hmem, rfl⟩, rfl⟩

theorem filter_kind_map (items : List Item) (kind kind' : FragmentKind) :
    ((items.map (Fragment.mk kind)).filter (·.kind = kind')).map (·.item) =
      if kind = kind' then items else [] := by
  by_cases h : kind = kind' <;> simp [List.filter_map, Function.comp_def, h]

/-- The fragments of a bundle, with the items of the constructors apart from their purpose. -/
theorem bundle_eq (d : Declaration) (options : Options) :
    d.bundle options = ⟨.data, DataType.item d options⟩ ::
      ((d.constructors.zipWith (DataType.constructorItem d options)
        (BundleNames.choose d options).bindings).map (Fragment.mk .constructor) ++
        (d.sumFragments options (.choose d options) ++ d.equalityFragments options)) := by
  rw [bundle, List.map_zipWith, List.cons_append, List.cons_append, List.append_assoc]

theorem itemsOf_eq (d : Declaration) (options : Options) (kind : FragmentKind)
    (hdata : kind ≠ .data) (hconstructor : kind ≠ .constructor) :
    d.itemsOf options kind =
      ((d.sumFragments options (.choose d options) ++ d.equalityFragments options).filter
        (·.kind = kind)).map (·.item) := by
  rw [itemsOf, bundle_eq, List.filter_cons_of_neg (by simp [hdata.symm]), List.filter_append,
    List.map_append, filter_kind_map, if_neg hconstructor.symm, List.nil_append]

theorem itemsOf_fold {d : Declaration} (hsum : d.isSum = true) (options : Options) :
    d.itemsOf options .fold = Fold.items d options (.choose d options) := by
  rw [itemsOf_eq d options .fold nofun nofun, sumFragments, if_pos hsum, equalityFragments]
  simp only [List.filter_append, List.map_append, filter_kind_map, if_true]
  cases options.emitAccessors <;> cases options.emitEquality <;> simp [filter_kind_map]

theorem itemsOf_accessor {d : Declaration} {options : Options} (hsum : d.isSum = true)
    (hemit : options.emitAccessors = true) :
    d.itemsOf options .accessor = Accessor.items d options (.choose d options) := by
  rw [itemsOf_eq d options .accessor nofun nofun, sumFragments, if_pos hsum, if_pos hemit,
    equalityFragments]
  simp only [List.filter_append, List.map_append, filter_kind_map]
  cases options.emitEquality <;> simp [filter_kind_map]

theorem itemsOf_equality {options : Options} (hemit : options.emitEquality = true)
    (d : Declaration) : d.itemsOf options .equality = [Equality.item d options] := by
  rw [itemsOf_eq d options .equality nofun nofun, sumFragments, equalityFragments, if_pos hemit]
  simp only [List.filter_append, List.map_append]
  cases d.isSum <;> cases options.emitAccessors <;> simp [filter_kind_map]

theorem itemsOf_imports (d : Declaration) (options : Options) :
    d.itemsOf options .imports =
      (if BundleNames.hasAccessors d options then [Accessor.importItem] else []) ++
        (if options.emitEquality then [Equality.importItem] else []) := by
  rw [itemsOf_eq d options .imports nofun nofun, sumFragments, equalityFragments,
    BundleNames.hasAccessors]
  cases d.isSum <;> cases options.emitAccessors <;> cases options.emitEquality <;>
    simp [filter_kind_map]

/-- Folds, accessors and the equality are neither data types nor constructors. -/
theorem filter_kind_rest {kind : FragmentKind} (h : kind = .data ∨ kind = .constructor)
    (d : Declaration) (options : Options) :
    (d.sumFragments options (.choose d options) ++ d.equalityFragments options).filter
      (·.kind = kind) = [] := by
  rw [sumFragments, equalityFragments]
  rcases h with rfl | rfl <;>
    cases d.isSum <;> cases options.emitAccessors <;> cases options.emitEquality <;> simp

theorem itemsOf_data (d : Declaration) (options : Options) :
    d.itemsOf options .data = [DataType.item d options] := by
  rw [itemsOf, bundle_eq, List.filter_cons_of_pos (by simp), List.filter_append, List.map_cons,
    List.map_append, filter_kind_map, filter_kind_rest (.inl rfl)]
  rfl

theorem itemsOf_constructor (d : Declaration) (options : Options) :
    d.itemsOf options .constructor =
      d.constructors.zipWith (DataType.constructorItem d options)
        (BundleNames.choose d options).bindings := by
  rw [itemsOf, bundle_eq, List.filter_cons_of_neg (by simp), List.filter_append, List.map_append,
    filter_kind_map, filter_kind_rest (.inr rfl), if_pos rfl]
  exact List.append_nil _

/-- What a bundle holds, fragment by fragment. -/
inductive Emits (d : Declaration) (options : Options) : Fragment → Prop where
  | data : Emits d options ⟨.data, DataType.item d options⟩
  | constructor {c : Constructor} {name : String} :
      (c, name) ∈ d.constructors.zip (BundleNames.choose d options).bindings →
      Emits d options ⟨.constructor, DataType.constructorItem d options c name⟩
  | fold {name : String} {index : Nat} : d.isSum = true →
      (name, index) ∈ (BundleNames.choose d options).folds.zipIdx →
      Emits d options ⟨.fold, Fold.item d options (.choose d options) name
        (d.hasNullary && index == 0)⟩
  | prismImport : d.isSum = true → options.emitAccessors = true →
      Emits d options ⟨.imports, Accessor.importItem⟩
  | accessor {c : Constructor} {name : String} : d.isSum = true → options.emitAccessors = true →
      (c, name) ∈ d.constructors.zip (BundleNames.choose d options).accessors →
      Emits d options ⟨.accessor, Accessor.item d options c name⟩
  | eqImport : options.emitEquality = true → Emits d options ⟨.imports, Equality.importItem⟩
  | equality : options.emitEquality = true → Emits d options ⟨.equality, Equality.item d options⟩

theorem mem_sumFragments_iff {d : Declaration} {options : Options} {fragment : Fragment} :
    fragment ∈ d.sumFragments options (.choose d options) ↔ d.isSum = true ∧
      ((∃ entry ∈ (BundleNames.choose d options).folds.zipIdx,
          (⟨.fold, Fold.item d options (.choose d options) entry.1
            (d.hasNullary && entry.2 == 0)⟩ : Fragment) = fragment) ∨
        options.emitAccessors = true ∧ (fragment = ⟨.imports, Accessor.importItem⟩ ∨
          ∃ entry ∈ d.constructors.zip (BundleNames.choose d options).accessors,
            (⟨.accessor, Accessor.item d options entry.1 entry.2⟩ : Fragment) = fragment)) := by
  rw [sumFragments, Fold.items, Accessor.items, ← List.map_uncurry_zip_eq_zipWith]
  cases d.isSum <;> cases options.emitAccessors <;> simp [Function.uncurry]

theorem mem_bundle_iff {d : Declaration} {options : Options} {fragment : Fragment} :
    fragment ∈ d.bundle options ↔ d.Emits options fragment := by
  have hequality : fragment ∈ d.equalityFragments options ↔ options.emitEquality = true ∧
      (fragment = ⟨.imports, Equality.importItem⟩ ∨
        fragment = ⟨.equality, Equality.item d options⟩) := by
    rw [equalityFragments]
    cases options.emitEquality <;> simp
  rw [bundle]
  simp only [List.cons_append, List.mem_cons, List.mem_append, mem_sumFragments_iff, hequality,
    ← List.map_uncurry_zip_eq_zipWith, List.mem_map]
  constructor
  · rintro (rfl | (⟨⟨c, name⟩, h, rfl⟩ | ⟨hsum, ⟨⟨name, index⟩, h, rfl⟩ |
      ⟨hemit, rfl | ⟨⟨c, name⟩, h, rfl⟩⟩⟩) | ⟨hemit, rfl | rfl⟩)
    · exact .data
    · exact .constructor h
    · exact .fold hsum h
    · exact .prismImport hsum hemit
    · exact .accessor hsum hemit h
    · exact .eqImport hemit
    · exact .equality hemit
  · intro h
    cases h with
    | data => exact .inl rfl
    | constructor h => exact .inr (.inl (.inl ⟨_, h, rfl⟩))
    | fold hsum h => exact .inr (.inl (.inr ⟨hsum, .inl ⟨_, h, rfl⟩⟩))
    | prismImport hsum hemit => exact .inr (.inl (.inr ⟨hsum, .inr ⟨hemit, .inl rfl⟩⟩))
    | accessor hsum hemit h => exact .inr (.inl (.inr ⟨hsum, .inr ⟨hemit, .inr ⟨_, h, rfl⟩⟩⟩))
    | eqImport hemit => exact .inr (.inr ⟨hemit, .inl rfl⟩)
    | equality hemit => exact .inr (.inr ⟨hemit, .inr rfl⟩)

end Declaration

end AlgebraicData
