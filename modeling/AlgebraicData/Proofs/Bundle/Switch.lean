import AlgebraicData.Proofs.Bundle.Binding
import AlgebraicData.Proofs.Name.Casing

/-!
# The switches of a bundle

Accessors and the equality can be left out.  The names that they need are in use before the
constructors choose theirs, so leaving them out might change other names.

* `Prism` is spelled with a capital, and no constructor wants a name that begins with one.  So a
  bundle without accessors is the bundle with them, the accessors and their import taken out.
* The names of the equality may be wanted by constructors, whose functions are then called otherwise
  without it.  Accessors begin with an underscore, as none of these names does, so they see no
  difference.
-/

namespace AlgebraicData

open Target

/-! ## Fragments -/

/-- The fragment imports the name. -/
def Fragment.importsName (fragment : Fragment) (name : String) : Bool :=
  fragment.kind = .imports && fragment.item.boundNames.contains name

/-- Accessors, and the import that they need. -/
def Fragment.servesAccessors (fragment : Fragment) : Bool :=
  fragment.kind = .accessor || fragment.importsName "Prism"

/-- The equality, and the import that it needs. -/
def Fragment.servesEquality (fragment : Fragment) : Bool :=
  fragment.kind = .equality || fragment.importsName "Eq"

/-- The item, with another name bound by it. -/
def Target.Item.withName (name : String) : Item → Item
  | .typeAlias _ params type => .typeAlias name params type
  | .const _ type value => .const name type value
  | .function _ typeParams params result body => .function name typeParams params result body
  | .imports names module => .imports names module

/-- The fragments are the same, but for the name if they are constructors. -/
def Fragment.SameUpToName (fragment fragment' : Fragment) : Prop :=
  fragment = fragment' ∨ fragment.kind = .constructor ∧
    ∃ name, fragment' = ⟨.constructor, fragment.item.withName name⟩

/-! ## Names -/

namespace BundleNames

/-- The import of the accessors takes its name first, and then the equality takes the names it
needs. -/
theorem moduleScope_eq (d : Declaration) (options : Options) :
    moduleScope d options =
      ((Scope.takeAll ⟨foldNames d options⟩
          (if hasAccessors d options then ["Prism"] else [])).2.takeAll
        (if options.emitEquality then ["Eq", "fromEquals", "getEq"] else [])).2 := by
  rw [moduleScope, libraryNames, Scope.takeAll_append]

theorem exists_head?_wantedBinding (c : Constructor) :
    ∃ first, (wantedBinding c).toList.head? = some first ∧ first ≠ 'P' := by
  have hne : (identifierName c.name).toList ≠ [] := by
    intro hnil
    have hidentifier := isIdentifier_identifierName c.name
    rw [isIdentifier, hnil] at hidentifier
    cases hidentifier
  obtain ⟨letter, first, hmem, hhead⟩ := exists_head?_lowerFirst hne
  refine ⟨first, ?_, ?_⟩
  · refine List.IsPrefix.head?_eq_some ?_ hhead
    unfold wantedBinding bindingName
    split
    · rw [String.toList_append]
      exact List.prefix_append _ _
    · exact List.prefix_refl _
  · rintro rfl
    exact Text.capital_notMem_toLower hmem (by decide)

/-- A number at the end of a name does not change how it begins. -/
theorem head?_candidate {base : String} {first : Char} (hbase : base.toList.head? = some first)
    (n : Nat) : (Scope.candidate base n).toList.head? = some first :=
  (Scope.prefix_candidate base n).head?_eq_some hbase

/-- The names of the equality begin with these letters. -/
theorem head?_equalityNames {base : String} (h : base ∈ ["Eq", "fromEquals", "getEq"]) :
    ∃ first, base.toList.head? = some first ∧ first ≠ 'P' ∧ first ≠ '_' := by
  simp only [List.mem_cons, List.not_mem_nil, or_false] at h
  rcases h with rfl | rfl | rfl
  · exact ⟨'E', rfl, by decide, by decide⟩
  · exact ⟨'f', rfl, by decide, by decide⟩
  · exact ⟨'g', rfl, by decide, by decide⟩

variable (d : Declaration) (options : Options)

/-- With accessors, the module uses one more name, which begins with a capital. -/
theorem agreeOn_moduleScope_accessors :
    Scope.AgreeOn (fun name => name.toList.head? ≠ some 'P')
      (moduleScope d { options with emitAccessors := false })
      (moduleScope d { options with emitAccessors := true }) := by
  have hnone : hasAccessors d { options with emitAccessors := false } = false := Bool.and_false _
  rw [moduleScope_eq, moduleScope_eq, hnone]
  refine Scope.AgreeOn.takeAll (Scope.agreeOn_takeAll _ fun base hbase n => ?_)
    fun base hbase n => ?_
  · obtain rfl := List.mem_singleton.mp (List.mem_ite_nil_right.mp hbase).2
    have hfirst : "Prism".toList.head? = some 'P' := rfl
    rw [head?_candidate hfirst n, ne_eq, not_not]
  · obtain ⟨first, hfirst, -⟩ := head?_equalityNames (List.mem_ite_nil_right.mp hbase).2
    rw [head?_candidate hfirst n, hfirst]

/-- Accessors can be left out without a change to any other name. -/
theorem choose_withoutAccessors :
    choose d { options with emitAccessors := false } =
      { choose d { options with emitAccessors := true } with accessors := [] } := by
  have hbindings : (choose d { options with emitAccessors := false }).bindings =
      (choose d { options with emitAccessors := true }).bindings := by
    refine (agreeOn_moduleScope_accessors d options).takeAll_eq ?_
    refine List.forall_mem_map.mpr fun c _ n => ?_
    obtain ⟨first, hfirst, hne⟩ := exists_head?_wantedBinding c
    rw [head?_candidate hfirst n]
    exact fun heq => hne (Option.some.inj heq)
  have haccessors : (choose d { options with emitAccessors := false }).accessors = [] :=
    accessors_eq_nil (Bool.and_false _)
  calc
    choose d { options with emitAccessors := false } =
        ⟨_, (choose d { options with emitAccessors := false }).bindings,
          (choose d { options with emitAccessors := false }).accessors, _, _⟩ := rfl
    _ = _ := by
      rw [hbindings, haccessors]
      rfl

/-- With the equality, the module uses more names, none of which begins with an underscore. -/
theorem agreeOn_moduleScope_equality :
    Scope.AgreeOn (fun name => name.toList.head? = some '_')
      (moduleScope d { options with emitEquality := false })
      (moduleScope d { options with emitEquality := true }) := by
  rw [moduleScope_eq, moduleScope_eq]
  refine Scope.agreeOn_takeAll _ fun base hbase n => ?_
  obtain ⟨first, hfirst, -, hne⟩ := head?_equalityNames hbase
  rw [head?_candidate hfirst n]
  exact fun heq => hne (Option.some.inj heq)

/-- The equality can be left out without a change to any name but those of the constructors. -/
theorem choose_withoutEquality :
    choose d { options with emitEquality := false } =
      { choose d { options with emitEquality := true } with
        bindings := (choose d { options with emitEquality := false }).bindings } := by
  have haccessors : (choose d { options with emitEquality := false }).accessors =
      (choose d { options with emitEquality := true }).accessors := by
    show (if hasAccessors d options then _ else _) = (if hasAccessors d options then _ else _)
    split
    · -- whatever the constructors are called, underscores are in front of the same names
      have hscope := (agreeOn_moduleScope_equality d options).takeAll
        (List.forall_mem_map.mpr fun c (_ : c ∈ d.constructors) n => by
          obtain ⟨first, hfirst, -⟩ := exists_head?_wantedBinding c
          rw [head?_candidate hfirst n, hfirst])
      refine hscope.takeAll_eq (List.forall_mem_map.mpr fun c _ n => ?_)
      have hfirst : (wantedAccessor c).toList.head? = some '_' := by
        rw [wantedAccessor, String.toList_append]
        rfl
      exact head?_candidate hfirst n
    · rfl
  calc
    choose d { options with emitEquality := false } =
        ⟨_, _, (choose d { options with emitEquality := false }).accessors, _, _⟩ := rfl
    _ = _ := by
      rw [haccessors]
      rfl

end BundleNames

/-! ## Bundles -/

/-- A constructor is called as the names say, and nothing else of it depends on them. -/
theorem DataType.withName_constructorItem (d : Declaration) (options : Options) (c : Constructor)
    (name name' : String) :
    (constructorItem d options c name).withName name' = constructorItem d options c name' := by
  unfold constructorItem
  split <;> rfl

/-- Fragments of most kinds serve nothing else. -/
theorem filter_map_mk {kind : FragmentKind} {test : Fragment → Bool}
    (h : ∀ item, test ⟨kind, item⟩ = true) (items : List Item) :
    (items.map (Fragment.mk kind)).filter test = items.map (Fragment.mk kind) :=
  List.filter_eq_self.mpr (List.forall_mem_map.mpr fun item _ => h item)

namespace Declaration

variable (d : Declaration) (options : Options)

theorem filter_sumFragments_accessors (names : BundleNames) :
    (d.sumFragments { options with emitAccessors := true } names).filter (!·.servesAccessors) =
      d.sumFragments { options with emitAccessors := false } { names with accessors := [] } := by
  unfold sumFragments
  cases d.isSum with
  | false => rfl
  | true =>
    have hprisms : (⟨.imports, Accessor.importItem⟩ ::
        (Accessor.items d { options with emitAccessors := true } names).map
          (Fragment.mk .accessor)).filter (!·.servesAccessors) = [] := by
      refine List.filter_eq_nil_iff.mpr (List.forall_mem_cons.mpr ⟨by decide, ?_⟩)
      exact List.forall_mem_map.mpr fun item _ => by simp [Fragment.servesAccessors]
    change ((Fold.items d _ names).map (Fragment.mk .fold) ++ _ :: _).filter _ =
      (Fold.items d _ _).map (Fragment.mk .fold) ++ []
    rw [List.filter_append, hprisms, filter_map_mk fun _ => rfl]
    rfl

theorem filter_sumFragments_equality (names : BundleNames) :
    (d.sumFragments { options with emitEquality := true } names).filter (!·.servesEquality) =
      d.sumFragments { options with emitEquality := false } names := by
  refine List.filter_eq_self.mpr ?_
  unfold sumFragments
  cases d.isSum with
  | false => exact List.forall_mem_nil _
  | true =>
    refine List.forall_mem_append.mpr ⟨List.forall_mem_map.mpr fun _ _ => rfl, ?_⟩
    cases options.emitAccessors with
    | false => exact List.forall_mem_nil _
    | true => exact List.forall_mem_cons.mpr ⟨by decide, List.forall_mem_map.mpr fun _ _ => rfl⟩

theorem bundle_withoutAccessors :
    d.bundle { options with emitAccessors := false } =
      (d.bundle { options with emitAccessors := true }).filter (!·.servesAccessors) := by
  have hequality : (d.equalityFragments { options with emitAccessors := true }).filter
      (!·.servesAccessors) = d.equalityFragments { options with emitAccessors := false } := by
    unfold equalityFragments
    cases options.emitEquality <;> rfl
  rw [bundle_eq, bundle_eq, BundleNames.choose_withoutAccessors, List.filter_cons_of_pos rfl,
    List.filter_append, filter_map_mk fun _ => rfl, List.filter_append,
    filter_sumFragments_accessors, hequality]
  rfl

theorem bundle_withoutEquality :
    List.Forall₂ Fragment.SameUpToName (d.bundle { options with emitEquality := false })
      ((d.bundle { options with emitEquality := true }).filter (!·.servesEquality)) := by
  have hrefl : ∀ fragment, Fragment.SameUpToName fragment fragment := fun _ => .inl rfl
  rw [bundle_eq, bundle_eq, List.filter_cons_of_pos rfl, List.filter_append,
    filter_map_mk fun _ => rfl, List.filter_append, filter_sumFragments_equality,
    BundleNames.choose_withoutEquality]
  refine .cons (hrefl _) (List.rel_append ?_ (List.forall₂_same.mpr fun _ _ => hrefl _))
  rw [List.forall₂_map_left_iff, List.forall₂_map_right_iff]
  refine List.forall₂_zipWith_right (fun c name name' => ?_) ?_
  · refine .inr ⟨rfl, name', ?_⟩
    rw [DataType.withName_constructorItem]
  · rw [BundleNames.length_bindings, BundleNames.length_bindings]

end Declaration

/-- A bundle without accessors is the bundle with them, less the accessors and their import.  A bundle
without the equality is the bundle with it, less the equality and its import, and but for the names
of constructors. -/
theorem switches_independent (d : Declaration) (options : Options) :
    d.bundle { options with emitAccessors := false } =
      (d.bundle { options with emitAccessors := true }).filter (!·.servesAccessors) ∧
    List.Forall₂ Fragment.SameUpToName (d.bundle { options with emitEquality := false })
      ((d.bundle { options with emitEquality := true }).filter (!·.servesEquality)) :=
  ⟨d.bundle_withoutAccessors options, d.bundle_withoutEquality options⟩

-- a constructor may have the name that the equality leaves
example : (parse "data Flag = GetEq | Off").map (fun d =>
      [(BundleNames.choose d {}).bindings,
        (BundleNames.choose d { emitEquality := false }).bindings]) =
    .ok [["getEq1", "off"], ["getEq", "off"]] := by
  decide +kernel

end AlgebraicData
