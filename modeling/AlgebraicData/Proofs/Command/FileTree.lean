import AlgebraicData.Command.FileTree
import AlgebraicData.Proofs.Prelude

/-!
# What is written can be read

A file that is written stands where its path leads, with its text, and every other file keeps what
it holds (`FileTree.file?_of_write`).  Since the directory around it was there before, paths lead
where they led before, so the same path reads the text back (`FileTree.read_of_write`).
-/

namespace AlgebraicData.Command.FileTree

variable {tree after : FileTree}

/-! ## Directories -/

theorem isDirectory_iff {names : List String} :
    tree.isDirectory names = true ↔ names <+: tree.current ∨
      (∃ directory ∈ tree.directories, names <+: directory) ∨
      ∃ file ∈ tree.files, names <+: file.1.dropLast := by
  simp only [isDirectory, List.any_append, List.any_cons, List.any_map, Bool.or_eq_true,
    List.any_eq_true, Function.comp_apply, List.isPrefixOf_iff_prefix, or_assoc]

theorem isDirectory_of_prefix {names names' : List String} (h : tree.isDirectory names' = true)
    (hfront : names <+: names') : tree.isDirectory names = true := by
  rw [isDirectory_iff] at h ⊢
  rcases h with h | ⟨directory, hmem, h⟩ | ⟨file, hmem, h⟩
  · exact .inl (hfront.trans h)
  · exact .inr (.inl ⟨directory, hmem, hfront.trans h⟩)
  · exact .inr (.inr ⟨file, hmem, hfront.trans h⟩)

/-! ## Following a path -/

theorem isDirectory_of_step {names place : List String} {name : String}
    (h : tree.step names name = .ok place) : tree.isDirectory names = true := by
  obtain ⟨entered, henter, -⟩ := Except.bind_eq_ok_iff.mp h
  unfold enter at henter
  split_ifs at henter with hdirectory hfile
  exact hdirectory

/-- From a directory a step leads to the same place in all trees. -/
theorem step_eq {names : List String} (h : tree.isDirectory names = true) (name : String) :
    tree.step names name =
      if name = "." then .ok names
      else if name = ".." then .ok names.dropLast
      else if Path.isLongName name then .error .nameTooLong
      else .ok (names ++ [name]) := by
  rw [step, enter, if_pos h]
  rfl

/-- One step leads to something inside a directory. -/
theorem isDirectory_dropLast_of_step {names place : List String} {name : String}
    (h : tree.step names name = .ok place) : tree.isDirectory place.dropLast = true := by
  have hdirectory := isDirectory_of_step h
  rw [step_eq hdirectory] at h
  split_ifs at h with hdot hdots hlong <;> obtain rfl := Except.ok.inj h
  · exact isDirectory_of_prefix hdirectory (List.dropLast_prefix _)
  · exact isDirectory_of_prefix hdirectory
      ((List.dropLast_prefix _).trans (List.dropLast_prefix _))
  · rwa [List.dropLast_concat]

theorem isDirectory_dropLast_of_foldlM {steps start place : List String}
    (hstart : tree.isDirectory start = true) (h : steps.foldlM tree.step start = .ok place) :
    tree.isDirectory place.dropLast = true := by
  induction steps using List.reverseRecOn with
  | nil =>
    obtain rfl := Except.ok.inj h
    exact isDirectory_of_prefix hstart (List.dropLast_prefix _)
  | append_singleton steps name _ =>
    -- only the last step counts
    rw [List.foldlM_append] at h
    obtain ⟨before, -, hlast⟩ := Except.bind_eq_ok_iff.mp h
    obtain ⟨last, hstep, hpure⟩ := Except.bind_eq_ok_iff.mp hlast
    obtain rfl := Except.ok.inj hpure
    exact isDirectory_dropLast_of_step hstep

theorem foldlM_step_of_isDirectory
    (hdirectory : ∀ names, after.isDirectory names = tree.isDirectory names)
    {steps start place : List String} (h : steps.foldlM tree.step start = .ok place) :
    steps.foldlM after.step start = .ok place := by
  induction steps generalizing start with
  | nil => exact h
  | cons name steps ih =>
    rw [List.foldlM_cons, Except.bind_eq_ok_iff] at h ⊢
    obtain ⟨next, hstep, hrest⟩ := h
    have hstart := isDirectory_of_step hstep
    refine ⟨next, ?_, ih hrest⟩
    rw [← hstep, step_eq hstart, step_eq ((hdirectory start).trans hstart)]

theorem follow_eq_ok_iff {path : String} {steps place : List String} :
    tree.follow path steps = .ok place ↔ path ≠ "" ∧ Path.isLong path = false ∧
      steps.foldlM tree.step (if Path.isAbsolute path then [] else tree.current) = .ok place := by
  unfold follow
  split_ifs with hempty hlong <;> simp [*]

/-- A path leads to something inside a directory. -/
theorem isDirectory_dropLast_of_follow {path : String} {steps place : List String}
    (h : tree.follow path steps = .ok place) : tree.isDirectory place.dropLast = true := by
  refine isDirectory_dropLast_of_foldlM (isDirectory_iff.mpr (.inl ?_)) (follow_eq_ok_iff.mp h).2.2
  split_ifs
  · exact List.nil_prefix
  · exact List.prefix_refl _

/-- Trees with the same directories let a path lead to the same place. -/
theorem follow_of_isDirectory (hcurrent : after.current = tree.current)
    (hdirectory : ∀ names, after.isDirectory names = tree.isDirectory names) {path : String}
    {steps place : List String} (h : tree.follow path steps = .ok place) :
    after.follow path steps = .ok place := by
  obtain ⟨hempty, hlong, hsteps⟩ := follow_eq_ok_iff.mp h
  refine follow_eq_ok_iff.mpr ⟨hempty, hlong, ?_⟩
  rw [hcurrent]
  exact foldlM_step_of_isDirectory hdirectory hsteps

/-! ## Writing -/

/-- A path to be written leads to a name that is no directory. -/
theorem target_eq_ok_iff {path : String} {names : List String} :
    tree.target path = .ok names ↔ Path.endsInSlash path = false ∧
      tree.follow path (Path.steps path) = .ok names ∧ tree.isDirectory names = false := by
  unfold target
  cases hslash : Path.endsInSlash path with
  | true =>
    simp only [if_true, Except.bind_eq_ok_iff]
    simp
  | false =>
    simp only [Bool.false_eq_true, if_false, Except.bind_eq_ok_iff, true_and]
    constructor
    · rintro ⟨place, hfollow, hplace⟩
      cases hdirectory : tree.isDirectory place with
      | true =>
        rw [hdirectory] at hplace
        cases hplace
      | false =>
        rw [hdirectory] at hplace
        obtain rfl := Except.ok.inj hplace
        exact ⟨hfollow, hdirectory⟩
    · rintro ⟨hfollow, hdirectory⟩
      refine ⟨names, hfollow, ?_⟩
      rw [hdirectory]
      rfl

theorem write_eq_ok_iff {path text : String} :
    tree.write path text = .ok after ↔ ∃ names, tree.target path = .ok names ∧
      after = { tree with files := tree.files.filter (·.1 ≠ names) ++ [(names, text.toUTF8)] } := by
  rw [write, Except.bind_eq_ok_iff]
  refine exists_congr fun names => and_congr_right fun _ => ?_
  exact ⟨fun h => (Except.ok.inj h).symm, fun h => congrArg _ h.symm⟩

/-- The path leads to the file that is written, and every other file keeps what it holds. -/
theorem file?_of_write {path text : String} (h : tree.write path text = .ok after) :
    ∃ names, tree.target path = .ok names ∧ ∀ names',
      after.file? names' = if names' = names then some text.toUTF8 else tree.file? names' := by
  obtain ⟨names, htarget, rfl⟩ := write_eq_ok_iff.mp h
  exact ⟨names, htarget, List.lookup_replace tree.files names text.toUTF8⟩

/-- No directory comes or goes when a file is written. -/
theorem isDirectory_of_write {path text : String} (h : tree.write path text = .ok after)
    (names : List String) : after.isDirectory names = tree.isDirectory names := by
  obtain ⟨place, htarget, rfl⟩ := write_eq_ok_iff.mp h
  have hplace := isDirectory_dropLast_of_follow (target_eq_ok_iff.mp htarget).2.1
  rw [Bool.eq_iff_iff]
  constructor
  · intro hdirectory
    rcases isDirectory_iff.mp hdirectory with hcurrent | hdirectory | ⟨file, hmem, hfront⟩
    · exact isDirectory_iff.mpr (.inl hcurrent)
    · exact isDirectory_iff.mpr (.inr (.inl hdirectory))
    · rcases List.mem_append.mp hmem with hold | hnew
      · exact isDirectory_iff.mpr (.inr (.inr ⟨file, List.mem_of_mem_filter hold, hfront⟩))
      · obtain rfl := List.mem_singleton.mp hnew
        exact isDirectory_of_prefix hplace hfront
  · intro hdirectory
    rcases isDirectory_iff.mp hdirectory with hcurrent | hdirectory | ⟨file, hmem, hfront⟩
    · exact isDirectory_iff.mpr (.inl hcurrent)
    · exact isDirectory_iff.mpr (.inr (.inl hdirectory))
    · refine isDirectory_iff.mpr (.inr (.inr ?_))
      by_cases heq : file.1 = place
      · -- the file is replaced by one in the same directory
        exact ⟨(place, text.toUTF8), List.mem_concat_self, heq ▸ hfront⟩
      · exact ⟨file, List.mem_append_left _ (List.mem_filter.mpr ⟨hmem, by simpa using heq⟩),
          hfront⟩

/-- What is written under a path is read under it. -/
theorem read_of_write {path text : String} (h : tree.write path text = .ok after) :
    after.read path = .ok text.toUTF8 := by
  obtain ⟨names, htarget, hfiles⟩ := file?_of_write h
  obtain ⟨hslash, hfollow, hdirectory⟩ := target_eq_ok_iff.mp htarget
  have hcurrent : after.current = tree.current := by
    obtain ⟨-, -, rfl⟩ := write_eq_ok_iff.mp h
    rfl
  have hfollow' := follow_of_isDirectory hcurrent (isDirectory_of_write h) hfollow
  have hfile : after.file? names = some text.toUTF8 := by rw [hfiles, if_pos rfl]
  unfold read
  rw [hfollow']
  simp only [bind, Except.bind, isDirectory_of_write h, hdirectory, hfile, hslash]
  rfl

end AlgebraicData.Command.FileTree
