import AlgebraicData.Bundle.DataType
import AlgebraicData.Bundle.Fold
import AlgebraicData.Bundle.Accessor
import AlgebraicData.Bundle.Equality
import AlgebraicData.Target.Printer
import AlgebraicData.Grammar.Declaration

/-!
# Bundles

The bundle of a declaration: its data type, the constructors, the folds, the accessors and the
equality, in this order.  `compile` goes from the text of a declaration to the text of its bundle.
-/

namespace AlgebraicData

open Target (Item)

/-- What a part of a bundle is for. -/
inductive FragmentKind where
  | data
  | constructor
  | fold
  | imports
  | accessor
  | equality
deriving DecidableEq, Repr

/-- One item of a bundle. -/
structure Fragment where
  kind : FragmentKind
  item : Item

namespace Declaration

/-- The folds and accessors, which only sums have. -/
def sumFragments (d : Declaration) (options : Options) (names : BundleNames) : List Fragment :=
  if d.isSum then
    (Fold.items d options names).map (⟨.fold, ·⟩) ++
      if options.emitAccessors then
        ⟨.imports, Accessor.importItem⟩ :: (Accessor.items d options names).map (⟨.accessor, ·⟩)
      else []
  else []

/-- The import and the function of the equality. -/
def equalityFragments (d : Declaration) (options : Options) : List Fragment :=
  if options.emitEquality then
    [⟨.imports, Equality.importItem⟩, ⟨.equality, Equality.item d options⟩]
  else []

/-- The bundle of a declaration. -/
def bundle (d : Declaration) (options : Options) : List Fragment :=
  let names := BundleNames.choose d options
  ⟨.data, DataType.item d options⟩ ::
    d.constructors.zipWith (fun c name => ⟨.constructor, DataType.constructorItem d options c name⟩)
      names.bindings ++
    d.sumFragments options names ++ d.equalityFragments options

end Declaration

/-- The spaces for each block of a bundle. -/
def bundleIndent : Nat :=
  4

/-- The text of a fragment. -/
def Fragment.render (fragment : Fragment) : String :=
  fragment.item.render bundleIndent

/-- The text of a bundle, with a blank line between fragments. -/
def renderBundle (fragments : List Fragment) : String :=
  "\n\n".intercalate (fragments.map (·.render))

/-- The text of the bundle for the declaration that a text holds. -/
def compile (source : String) (options : Options) : Except Failure String :=
  (parse source).map fun d => renderBundle (d.bundle options)

end AlgebraicData
