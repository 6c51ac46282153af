/-!
# Scopes

A scope knows the names already in use.  A fresh name is the wanted one, or the wanted one followed
by the least number that makes it free.
-/

namespace AlgebraicData

/-- The names already in use. -/
structure Scope where
  taken : List String
deriving DecidableEq, Repr

namespace Scope

/-- A scope where nothing is in use. -/
def empty : Scope :=
  ⟨[]⟩

/-- Whether a name is in use. -/
def isTaken (scope : Scope) (name : String) : Bool :=
  scope.taken.contains name

/-- The names to try for `base`, in order: `base`, `base1`, `base2`, … -/
def candidate (base : String) : Nat → String
  | 0 => base
  | n + 1 => base ++ (n + 1).repr

/-- The first candidate that is free.  Candidates differ, so when as many as there are names in use
are all taken, no name is left to take the next one. -/
def fresh (scope : Scope) (base : String) : String :=
  let tries := List.range scope.taken.length
  candidate base ((tries.find? fun i => !scope.isTaken (candidate base i)).getD tries.length)

/-- A fresh name for `base`, and the scope where it is in use too. -/
def take (scope : Scope) (base : String) : String × Scope :=
  let name := scope.fresh base
  (name, ⟨name :: scope.taken⟩)

/-- A fresh name for each base in turn. -/
def takeAll (scope : Scope) : List String → List String × Scope
  | [] => ([], scope)
  | base :: bases =>
    let (name, scope) := scope.take base
    let (names, scope) := scope.takeAll bases
    (name :: names, scope)

/-- A fresh name for each base in turn, and none where no base is given. -/
def takeEach (scope : Scope) : List (Option String) → List (Option String) × Scope
  | [] => ([], scope)
  | none :: bases =>
    let (names, scope) := scope.takeEach bases
    (none :: names, scope)
  | some base :: bases =>
    let (name, scope) := scope.take base
    let (names, scope) := scope.takeEach bases
    (some name :: names, scope)

/-- A fresh name for each base of each row in turn. -/
def takeRows (scope : Scope) : List (List (Option String)) → List (List (Option String)) × Scope
  | [] => ([], scope)
  | row :: rows =>
    let (names, scope) := scope.takeEach row
    let (rest, scope) := scope.takeRows rows
    (names :: rest, scope)

end Scope

end AlgebraicData
