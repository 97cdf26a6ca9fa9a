import Mathlib.Data.List.Infix
import Mathlib.Data.List.Induction
import ScriptEngine.Config.FileTree

/-!
# Places in a file tree

The names of a path lead from directory to directory, and `..` leads back up, so the places
it passes need not lie above its end.  The nearest project is looked for among the paths in
front of one another, down to the one that the search ends at.  Where what is found lies at
or above the place that the path leads to, it is the nearest there: on its way to the end a
path passes every place between.
-/

namespace ScriptEngine.Config

/-- Where one name of a path leads to. -/
def stepFrom (here : List String) (name : String) : List String :=
  if name = ".." then here.dropLast else here ++ [name]

/-- The place that a written path leads to. -/
def placeOf (path : List String) : List String := path.foldl stepFrom []

theorem placeOf_concat (path : List String) (name : String) :
    placeOf (path ++ [name]) = stepFrom (placeOf path) name := by
  simp [placeOf]

theorem not_mem_placeOf (path : List String) : ".." ∉ placeOf path := by
  induction path using List.reverseRecOn with
  | nil => simp [placeOf]
  | append_singleton path name ih =>
    rw [placeOf_concat, stepFrom]
    split
    · exact fun hmem => ih (List.dropLast_subset _ hmem)
    · next hpart =>
      simp only [List.mem_append, List.mem_singleton, not_or]
      exact ⟨ih, fun h => hpart h.symm⟩

/-- A path that only goes down names its place. -/
theorem placeOf_eq_self {path : List String} (hdown : ".." ∉ path) : placeOf path = path := by
  induction path using List.reverseRecOn with
  | nil => rfl
  | append_singleton path name ih =>
    simp only [List.mem_append, List.mem_singleton, not_or] at hdown
    rw [placeOf_concat, ih hdown.1, stepFrom, if_neg fun h => hdown.2 h.symm]

/-- From a place it has passed, a path passes every place on the way to its end. -/
theorem exists_passed {start path place : List String} (hstart : start <+: path)
    (hfrom : placeOf start <+: place) (hto : place <+: placeOf path) :
    ∃ passed, start <+: passed ∧ passed <+: path ∧ placeOf passed = place := by
  induction path using List.reverseRecOn with
  | nil =>
    obtain rfl := List.prefix_nil.mp hstart
    exact ⟨[], List.prefix_rfl, List.prefix_rfl, (List.prefix_nil.mp hto).symm⟩
  | append_singleton path name ih =>
    rcases List.prefix_concat_iff.mp hstart with rfl | hbefore
    · have hlength := hfrom.length_le
      exact ⟨_, List.prefix_rfl, List.prefix_rfl, hfrom.eq_of_length_le hto.length_le⟩
    · have hearlier : place <+: placeOf path →
          ∃ passed, start <+: passed ∧ passed <+: path ++ [name] ∧ placeOf passed = place := by
        intro hplace
        obtain ⟨passed, hpassed, hle, heq⟩ := ih hbefore hplace
        exact ⟨passed, hpassed, hle.trans (List.prefix_append _ _), heq⟩
      have hend := hto
      rw [placeOf_concat, stepFrom] at hend
      split at hend
      · exact hearlier (hend.trans (List.dropLast_prefix _))
      · next hpart =>
        rcases List.prefix_concat_iff.mp hend with hsame | habove
        · refine ⟨path ++ [name], hstart, List.prefix_rfl, ?_⟩
          rw [placeOf_concat, stepFrom, if_neg hpart, hsame]
        · exact hearlier habove

/-! ## The nearest of the places above -/

/-- The longest of the paths at or above a directory that has a property.  If there is none then
none has it from the lowest path on that the search comes to. -/
def IsNearest (low : List String) (holds : List String → Prop) (directory : List String) :
    Option (List String) → Prop
  | none => ∀ other, low <+: other → other <+: directory → ¬ holds other
  | some root =>
    root <+: directory ∧ holds root ∧ ∀ other, other <+: directory → holds other → other <+: root

theorem IsNearest.congr {low : List String} {holds holds' : List String → Prop}
    {directory : List String} {root? : Option (List String)}
    (h : IsNearest low holds directory root?)
    (hsame : ∀ path, path <+: directory → (holds path ↔ holds' path)) :
    IsNearest low holds' directory root? := by
  cases root? with
  | none => exact fun other hlow hle hother => h other hlow hle ((hsame other hle).mpr hother)
  | some root =>
    obtain ⟨hle, hroot, hlast⟩ := h
    exact ⟨hle, (hsame root hle).mp hroot,
      fun other hle' hother => hlast other hle' ((hsame other hle').mpr hother)⟩

theorem isNearest_self {low : List String} {holds : List String → Prop} {directory : List String}
    (hholds : holds directory) : IsNearest low holds directory (some directory) := by
  refine ⟨List.prefix_rfl, hholds, ?_⟩
  intro other hle _
  exact hle

/-- The search ends at the lowest path. -/
theorem isNearest_none {low : List String} {holds : List String → Prop} (hnot : ¬ holds low) :
    IsNearest low holds low none := by
  intro other hlow hle
  rw [hle.eq_of_length_le hlow.length_le]
  exact hnot

/-- A directory without the property has the nearest of the one above it. -/
theorem IsNearest.below {low : List String} {holds : List String → Prop} {directory : List String}
    {name : String} {root? : Option (List String)} (h : IsNearest low holds directory root?)
    (hnot : ¬ holds (directory ++ [name])) : IsNearest low holds (directory ++ [name]) root? := by
  cases root? with
  | none =>
    intro other hlow hle
    rcases List.prefix_concat_iff.mp hle with rfl | hle
    · exact hnot
    · exact h other hlow hle
  | some root =>
    obtain ⟨hroot, hholds, hlast⟩ := h
    refine ⟨hroot.trans (List.prefix_append _ _), hholds, ?_⟩
    intro other hle hother
    rcases List.prefix_concat_iff.mp hle with rfl | hle
    · exact absurd hother hnot
    · exact hlast other hle hother

/-- What is nearest along a path is nearest at its place, if it lies there at or above.  All places
have been searched from any on that the path passes. -/
theorem IsNearest.atPlace {low passed : List String} {holds : List String → Prop}
    {directory : List String} {root? : Option (List String)}
    (h : IsNearest low (fun path => holds (placeOf path)) directory root?)
    (habove : ∀ root, root? = some root → placeOf root <+: placeOf directory)
    (hlow : low <+: passed) (hpassed : passed <+: directory) :
    IsNearest (placeOf passed) holds (placeOf directory) (root?.map placeOf) := by
  cases root? with
  | none =>
    intro place hfrom hplace hholds
    obtain ⟨between, hstart, hle, rfl⟩ := exists_passed hpassed hfrom hplace
    exact h between (hlow.trans hstart) hle hholds
  | some root =>
    obtain ⟨hle, hroot, hlast⟩ := h
    refine ⟨habove root rfl, hroot, ?_⟩
    intro place hplace hholds
    rcases List.prefix_or_prefix_of_prefix hplace (habove root rfl) with hdone | hbelow
    · exact hdone
    · obtain ⟨between, hfrom, hbetween, rfl⟩ := exists_passed hle hbelow hplace
      have hback := hlast between hbetween hholds
      rw [hfrom.eq_of_length_le hback.length_le]

/-! ## What is at the end of a path -/

namespace FileTree

variable {t : FileTree}

/-- All that the path passes are directories. -/
def OpensFrom (t : FileTree) (here path : List String) : Prop :=
  ∀ passed, passed <+: path → t.entry (passed.foldl stepFrom here) = .directory

theorem OpensFrom.here {here path : List String} (h : t.OpensFrom here path) :
    t.entry here = .directory :=
  h [] List.nil_prefix

theorem OpensFrom.rest {here path : List String} {name : String}
    (h : t.OpensFrom here (name :: path)) : t.OpensFrom (stepFrom here name) path := by
  intro passed hle
  exact h (name :: passed) (List.prefix_cons_inj name |>.mpr hle)

theorem follow_cons {here path : List String} {name : String} (hhere : t.entry here = .directory) :
    t.follow here (name :: path) = t.follow (stepFrom here name) path := by
  rw [follow, hhere]
  rfl

theorem opensFrom_of_follow {here path : List String} (h : t.follow here path = .directory) :
    t.OpensFrom here path := by
  induction path generalizing here with
  | nil =>
    intro passed hle
    obtain rfl := List.prefix_nil.mp hle
    exact h
  | cons name path ih =>
    have hhere : t.entry here = .directory := by
      rw [follow] at h
      cases hentry : t.entry here with
      | directory => rfl
      | _ => simp [hentry] at h
    rw [follow_cons hhere] at h
    intro passed hle
    cases passed with
    | nil => exact hhere
    | cons first passed =>
      obtain ⟨rfl, hrest⟩ := List.cons_prefix_cons.mp hle
      exact ih h passed hrest

theorem follow_append {here path rest : List String} (hopens : t.OpensFrom here path) :
    t.follow here (path ++ rest) = t.follow (path.foldl stepFrom here) rest := by
  induction path generalizing here with
  | nil => rfl
  | cons name path ih =>
    rw [List.cons_append, follow_cons hopens.here, ih hopens.rest]
    rfl

/-- A path through directories passes the directories above its place. -/
theorem opensFrom_placeOf {path : List String} (hopens : t.OpensFrom [] path) :
    t.OpensFrom [] (placeOf path) := by
  intro place hplace
  have hdown : ".." ∉ place := fun hmem => not_mem_placeOf path (hplace.subset hmem)
  obtain ⟨passed, -, hle, hpassed⟩ :=
    exists_passed (List.nil_prefix (l := path)) (List.nil_prefix) hplace
  have hentry := hopens passed hle
  rw [← placeOf, hpassed] at hentry
  rw [← placeOf, placeOf_eq_self hdown]
  exact hentry

/-- What the names lead to that are followed from the top. -/
def presentAt (t : FileTree) (names : List String) : Bool := t.present ⟨true, names⟩

theorem present_eq_presentAt (path : FilePath) : t.present path = t.presentAt (t.fullNames path) :=
  rfl

/-- A file in a directory is the same by the names of a path and by its place. -/
theorem presentAt_placeOf {path : List String} (hopens : t.OpensFrom [] path) (file : String) :
    t.presentAt (placeOf path ++ [file]) = t.presentAt (path ++ [file]) := by
  have hplace : (placeOf path).foldl stepFrom [] = placeOf path :=
    placeOf_eq_self (not_mem_placeOf path)
  have hfind : t.follow [] (placeOf path ++ [file]) = t.follow [] (path ++ [file]) := by
    rw [follow_append hopens, follow_append (opensFrom_placeOf hopens), hplace]
    rfl
  simp only [presentAt, present, find, fullNames, startOf, if_true, List.nil_append, hfind]

end FileTree

/-- For a directory that is there, the nearest file along the path that leads to it is the nearest
at or above its place, unless it lies in a directory that the path has left again. -/
theorem IsNearest.ofPresent {t : FileTree} {file : String} {low passed directory : List String}
    {root? : Option (List String)}
    (h : IsNearest low (fun path => t.presentAt (path ++ [file]) = true) directory root?)
    (hthere : t.follow [] directory = .directory)
    (habove : ∀ root, root? = some root → placeOf root <+: placeOf directory)
    (hlow : low <+: passed) (hpassed : passed <+: directory) :
    IsNearest (placeOf passed) (fun path => t.presentAt (path ++ [file]) = true)
      (placeOf directory) (root?.map placeOf) := by
  have hopens : t.OpensFrom [] directory := FileTree.opensFrom_of_follow hthere
  refine IsNearest.atPlace (h.congr ?_) habove hlow hpassed
  intro path hle
  have hpath : t.OpensFrom [] path := fun before hbefore => hopens before (hbefore.trans hle)
  rw [FileTree.presentAt_placeOf hpath]

end ScriptEngine.Config
