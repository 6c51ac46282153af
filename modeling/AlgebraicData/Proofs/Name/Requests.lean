import AlgebraicData.Proofs.Name.Scope

/-!
# Scopes over whole runs

A scope is asked for fresh names, for fresh names that it is to keep, and whether a name is in use,
in any order.  A `Request` is one question, and the `log` of a run holds an `Event` for each, with the
answer that was given.

What was in use at an event can be read off the log: the names in use at the start, and those kept
since (`keptNames`).  Every answer is right for these names (`Event.Correct`), by one lemma for a
single request (`correct_event`) and an induction over the run.
-/

namespace AlgebraicData.Scope

/-! ## Requests and events -/

/-- What a scope can be asked. -/
inductive Request where
  /-- A fresh name for `base`. -/
  | name (base : String)
  /-- A fresh name for `base`, in use from then on. -/
  | take (base : String)
  /-- Whether the name is in use. -/
  | isTaken (name : String)
deriving DecidableEq

/-- A request with its answer. -/
inductive Event where
  | named (base name : String)
  | took (base name : String)
  | told (name : String) (taken : Bool)
deriving DecidableEq

/-- The request that was answered. -/
def Event.request : Event → Request
  | .named base _ => .name base
  | .took base _ => .take base
  | .told name _ => .isTaken name

/-- The name that is in use since the event. -/
def Event.kept? : Event → Option String
  | .took _ name => some name
  | .named _ _ | .told _ _ => none

/-- The name that is to be made fresh and kept. -/
def Request.kept? : Request → Option String
  | .take base => some base
  | .name _ | .isTaken _ => none

/-- The answer to one request. -/
def event (scope : Scope) : Request → Event
  | .name base => .named base (scope.fresh base)
  | .take base => .took base (scope.take base).1
  | .isTaken name => .told name (scope.isTaken name)

/-- The scope after one request. -/
def next (scope : Scope) : Request → Scope
  | .take base => (scope.take base).2
  | .name _ | .isTaken _ => scope

/-- The answers to a run of requests. -/
def log (scope : Scope) : List Request → List Event
  | [] => []
  | request :: requests => scope.event request :: (scope.next request).log requests

/-- The names that are in use since some event of the log, in the order of the events. -/
def keptNames (events : List Event) : List String :=
  events.filterMap Event.kept?

theorem keptNames_cons (event : Event) (events : List Event) :
    keptNames (event :: events) = keptNames [event] ++ keptNames events :=
  List.filterMap_append (l := [event])

/-! ## One request -/

/-- The name is the first of `base`, `base1`, `base2`, … that is not in use, and no more numbers were
tried than there are names in use. -/
def IsFirstFree (taken : Finset String) (base name : String) : Prop :=
  ∃ n ≤ taken.card, name = candidate base n ∧ name ∉ taken ∧ ∀ k < n, candidate base k ∈ taken

/-- The answer is right when exactly the given names are in use. -/
def Event.Correct (taken : Finset String) : Event → Prop
  | .named base name | .took base name => IsFirstFree taken base name
  | .told name answer => answer = true ↔ name ∈ taken

/-- Candidates differ, so no more of them are in use than there are names in use. -/
theorem le_card_of_candidates {taken : Finset String} {base : String} {n : Nat}
    (h : ∀ k < n, candidate base k ∈ taken) : n ≤ taken.card := by
  have hcard : (Finset.range n).card ≤ taken.card := by
    apply Finset.card_le_card_of_injOn (candidate base)
    · intro k hk
      exact h k (Finset.mem_range.mp hk)
    · exact (candidate_injective base).injOn
  rwa [Finset.card_range] at hcard

theorem isFirstFree_fresh (scope : Scope) (base : String) :
    IsFirstFree scope.taken.toFinset base (scope.fresh base) := by
  obtain ⟨n, -, hfresh, hbefore⟩ := scope.exists_fresh_eq base
  have hbefore' : ∀ k < n, candidate base k ∈ scope.taken.toFinset :=
    fun k hk => List.mem_toFinset.mpr (hbefore k hk)
  refine ⟨n, le_card_of_candidates hbefore', hfresh, ?_, hbefore'⟩
  rw [List.mem_toFinset]
  exact scope.fresh_notMem base

theorem correct_event (scope : Scope) (request : Request) :
    (scope.event request).Correct scope.taken.toFinset := by
  cases request with
  | name base => exact scope.isFirstFree_fresh base
  | take base => exact scope.isFirstFree_fresh base
  | isTaken name => simp [event, Event.Correct, isTaken]

/-- A request puts the name in use that its event tells, and no other. -/
theorem taken_next (scope : Scope) (request : Request) :
    (scope.next request).taken.toFinset =
      scope.taken.toFinset ∪ (keptNames [scope.event request]).toFinset := by
  cases request with
  | name base => exact (Finset.union_empty _).symm
  | take base =>
    rw [next, taken_take, List.toFinset_cons, Finset.insert_eq, Finset.union_comm]
    rfl
  | isTaken name => exact (Finset.union_empty _).symm

/-! ## Runs -/

theorem map_request_log (scope : Scope) (requests : List Request) :
    (scope.log requests).map Event.request = requests := by
  induction requests generalizing scope with
  | nil => rfl
  | cons request requests ih =>
    rw [log, List.map_cons, ih]
    cases request <;> rfl

theorem correct_of_log_eq {scope : Scope} {requests : List Request} {before after : List Event}
    {event : Event} (h : scope.log requests = before ++ event :: after) :
    event.Correct (scope.taken.toFinset ∪ (keptNames before).toFinset) := by
  induction requests generalizing scope before with
  | nil => simp [log] at h
  | cons request requests ih =>
    rw [log] at h
    cases before with
    | nil =>
      obtain ⟨rfl, -⟩ := List.cons.inj h
      simpa [keptNames] using scope.correct_event request
    | cons first before =>
      obtain ⟨rfl, hrest⟩ := List.cons.inj h
      -- what the first event put in use was in use when the others came
      have hcorrect := ih hrest
      rwa [taken_next, Finset.union_assoc, ← List.toFinset_append, ← keptNames_cons] at hcorrect

/-- The names that are kept are taken one after another, whatever is asked in between. -/
theorem keptNames_log (scope : Scope) (requests : List Request) :
    keptNames (scope.log requests) = (scope.takeAll (requests.filterMap Request.kept?)).1 := by
  induction requests generalizing scope with
  | nil => rfl
  | cons request requests ih =>
    rw [log, keptNames, List.filterMap_cons, List.filterMap_cons]
    cases request with
    | name base => exact ih scope
    | take base => exact congrArg (_ :: ·) (ih (scope.take base).2)
    | isTaken name => exact ih scope

/-- Requests that keep no name may be left out: the others get the same answers. -/
theorem log_filter (scope : Scope) (requests : List Request) {keep : Request → Bool}
    (hkeep : ∀ base, keep (.take base) = true) :
    scope.log (requests.filter keep) = (scope.log requests).filter (keep ·.request) := by
  induction requests generalizing scope with
  | nil => rfl
  | cons request requests ih =>
    have hrequest : (scope.event request).request = request := by
      cases request <;> rfl
    rw [log, List.filter_cons, List.filter_cons, hrequest, ← ih (scope.next request)]
    by_cases hk : keep request = true
    · rw [if_pos hk, if_pos hk, log]
    · rw [if_neg hk, if_neg hk]
      cases request with
      | name base => rfl
      | take base => exact absurd (hkeep base) hk
      | isTaken name => rfl

/-- Whatever names are in use at the start and whatever is asked, in any order: every request is
answered, and every answer is right for the names in use at the start and those kept since.  In
particular a fresh name is the first candidate that is not among these, found after at most as many
numbers as there are such names.

The kept names differ from one another and from the names in use at the start.  Leaving out requests
that keep no name changes no other answer. -/
theorem log_fresh_and_minimal (initial : List String) (requests : List Request) :
    (log ⟨initial⟩ requests).map Event.request = requests ∧
    (∀ before event after, log ⟨initial⟩ requests = before ++ event :: after →
      event.Correct (initial.toFinset ∪ (keptNames before).toFinset)) ∧
    (keptNames (log ⟨initial⟩ requests)).Nodup ∧
    (∀ name ∈ keptNames (log ⟨initial⟩ requests), name ∉ initial) ∧
    ∀ keep : Request → Bool, (∀ base, keep (.take base) = true) →
      log ⟨initial⟩ (requests.filter keep) =
        (log ⟨initial⟩ requests).filter (keep ·.request) := by
  have htakeAll := nodup_takeAll ⟨initial⟩ (requests.filterMap Request.kept?)
  rw [← keptNames_log] at htakeAll
  refine ⟨map_request_log _ _, fun before event after h => correct_of_log_eq h, htakeAll.1,
    htakeAll.2, fun keep hkeep => log_filter _ _ hkeep⟩

-- the numbers that are skipped depend on what was kept for another base
example :
    log ⟨["R", "R1"]⟩ [.take "R1", .take "R", .name "R1", .take "R1", .isTaken "R3"] =
      [.took "R1" "R11", .took "R" "R2", .named "R1" "R12", .took "R1" "R12", .told "R3" false] := by
  decide

end AlgebraicData.Scope
