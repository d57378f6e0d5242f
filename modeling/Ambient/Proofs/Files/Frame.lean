/-
What the operations on a volume leave alone.

Files are compared by the names that lead to them from the root, wherever in the tree they
are. Making a directory touches no file (`sameFiles_makeDirectory`). Writing a file touches
this one only, and afterwards the path that it was written to leads to it, whatever else
the path passes through (`written`).
-/
import Ambient.Files.Volume
import Ambient.Proofs.Files.Put

set_option autoImplicit false

namespace Ambient.Files

namespace Volume

/-! ## Where paths lead -/

theorem find_eq_ok_iff {volume : Volume} {path : String} {found : Tree} :
    volume.find path = .ok found ↔
      ∃ names, volume.resolve path = .ok names ∧ volume.tree.at? names.reverse = some found := by
  unfold find
  cases volume.resolve path with
  | error error => simp
  | ok names => cases h : volume.tree.at? names.reverse <;> simp [h]

theorem resolve_eq_ok_iff {volume : Volume} {path : String} {names : List String} :
    volume.resolve path = .ok names ↔
      path ≠ "" ∧ volume.tree.follow (volume.start path) (parts path) = .ok names := by
  unfold resolve
  by_cases hpath : path = ""
  · simp [hpath]
  · rw [if_neg (by simpa [String.isEmpty_iff] using hpath)]
    simp [hpath]

/-! ## The files of a volume -/

/-- The bytes of the file that names lead to from the root. -/
def fileAt? (volume : Volume) (names : List String) : Option (List UInt8) :=
  match volume.tree.at? names with
  | some (.file bytes) => some bytes
  | some (.directory _) | none => none

/-- No file is made, changed or lost. Directories may be. -/
def SameFiles (before after : Volume) : Prop :=
  ∀ names, after.fileAt? names = before.fileAt? names

/-- No file but one is made, changed or lost. -/
def SameFilesBut (changed : List String) (before after : Volume) : Prop :=
  ∀ names, names ≠ changed → after.fileAt? names = before.fileAt? names

/-- What is read at a path afterwards are the bytes, and no file but the one that the path
leads to is made, changed or lost. -/
def PutsFile (before : Volume) (path : String) (bytes : List UInt8) (after : Volume) : Prop :=
  after.read path = .ok bytes ∧
    ∃ names, after.resolve path = .ok names ∧ SameFilesBut names.reverse before after

theorem SameFiles.refl (volume : Volume) : SameFiles volume volume := fun _ => rfl

theorem SameFiles.trans {first second third : Volume} (hfirst : SameFiles first second)
    (hsecond : SameFiles second third) : SameFiles first third :=
  fun names => (hsecond names).trans (hfirst names)

theorem SameFiles.putsFile {first second third : Volume} {path : String} {bytes : List UInt8}
    (hfirst : SameFiles first second) (hsecond : second.PutsFile path bytes third) :
    first.PutsFile path bytes third := by
  obtain ⟨hread, names, hpath, hothers⟩ := hsecond
  exact ⟨hread, names, hpath, fun other hother => (hothers other hother).trans (hfirst other)⟩

theorem read_of_resolve {volume : Volume} {path : String} {names : List String}
    {bytes : List UInt8} (hpath : volume.resolve path = .ok names)
    (hfile : volume.tree.at? names.reverse = some (.file bytes)) :
    volume.read path = .ok bytes := by
  rw [read, find_eq_ok_iff.mpr ⟨names, hpath, hfile⟩]

section Putting

variable {volume : Volume} {inner : Tree} {last : String} {before : List String}
  {entries : List (String × Tree)}
  (hbefore : volume.tree.at? before.reverse = some (.directory entries))

include hbefore

theorem fileAt?_put_of_not_prefix {names : List String}
    (hnames : ¬ (last :: before).reverse <+: names) :
    (volume.put inner (last :: before)).fileAt? names = volume.fileAt? names := by
  rw [List.reverse_cons] at hnames
  unfold fileAt? put
  rw [List.reverse_cons]
  -- what the names lead to is as it was, or it was a directory and is one with another entry
  rcases Tree.at?_put_cases inner hbefore hnames with hsame | ⟨present, name, put, hold, hnew⟩
  · rw [hsame]
  · rw [hold, hnew]

theorem grows_put (hnone : ∀ present,
      volume.tree.at? (last :: before).reverse ≠ some (.directory present)) :
    volume.tree.Grows (volume.put inner (last :: before)).tree := by
  intro names present hnames
  have hprefix : ¬ (last :: before).reverse <+: names := by
    rintro ⟨more, rfl⟩
    cases more with
    | nil =>
      rw [List.append_nil] at hnames
      exact hnone present hnames
    | cons name more =>
      rw [Tree.at?_append_cons hnone] at hnames
      cases hnames
  -- names that do not pass through the new entry find what they found, or one entry more
  rw [List.reverse_cons] at hprefix
  unfold put
  rw [List.reverse_cons]
  rcases Tree.at?_put_cases inner hbefore hprefix with hsame | ⟨old, name, tree, hold, hnew⟩
  · exact ⟨present, hsame.trans hnames, fun _ h => h⟩
  · rw [hold, Option.some.injEq, Tree.directory.injEq] at hnames
    subst hnames
    refine ⟨_, hnew, fun other hother => ?_⟩
    rw [Tree.lookup_putEntry]
    split
    · rfl
    · exact hother

end Putting

/-! ## Operations -/

/-- The last part of a path stands in a directory, unless it is a point. -/
theorem resolveLast_eq_ok {volume : Volume} {path last : String} {before : List String}
    (hlast : volume.resolveLast path = .ok (last, before)) (hpoint : last ≠ ".") :
    path ≠ "" ∧ ∃ entries parents, volume.tree.at? before.reverse = some (.directory entries) ∧
      (parts path).reverse.dropWhile (·.isEmpty) = last :: parents ∧
      volume.tree.follow (volume.start path) parents.reverse = .ok before := by
  unfold resolveLast at hlast
  split at hlast
  · cases hlast
  · rename_i hpath
    split at hlast
    · cases hlast
      exact absurd rfl hpoint
    · rename_i name parents hparts
      split at hlast
      · rename_i names hfollow
        split at hlast
        · rename_i entries hplace
          cases hlast
          exact ⟨fun hempty => hpath (String.isEmpty_iff.mpr hempty), entries, parents, hplace,
            hparts, hfollow⟩
        · cases hlast
        · cases hlast
      · cases hlast

/-- Making a directory touches no file. -/
theorem sameFiles_makeDirectory {volume after : Volume} {path : String}
    (hmade : volume.makeDirectory path = .ok after) : SameFiles volume after := by
  unfold makeDirectory at hmade
  split at hmade
  · cases hmade
  · rename_i last before hlast
    split at hmade
    · cases hmade
    · rename_i hfree
      rw [not_or, not_or, Bool.not_eq_true, Option.isSome_eq_false_iff, Option.isNone_iff_eq_none]
        at hfree
      obtain ⟨hpoint, -, hnone⟩ := hfree
      obtain ⟨-, entries, -, hbefore, -, -⟩ := resolveLast_eq_ok hlast hpoint
      cases hmade
      intro names
      by_cases hprefix : (last :: before).reverse <+: names
      · -- the new directory is empty, and there was nothing in its place
        obtain ⟨more, rfl⟩ := hprefix
        have hold : volume.tree.at? ((last :: before).reverse ++ more) = none := by
          rw [Tree.at?_append, hnone, Option.bind_none]
        unfold fileAt? put
        rw [Tree.at?_put_append, hold]
        cases more <;> rfl
      · exact fileAt?_put_of_not_prefix hbefore hprefix

/-- A text that does not end in a slash has a last part that is not empty. -/
theorem splitSlashes_concat {c : Char} (hc : c ≠ '/') (text : List Char) :
    ∃ before part, splitSlashes (text ++ [c]) = before ++ [part ++ [c]] := by
  induction text with
  | nil =>
    refine ⟨[], [], ?_⟩
    rw [List.nil_append, splitSlashes, if_neg hc]
    rfl
  | cons first text ih =>
    obtain ⟨before, part, hparts⟩ := ih
    rw [List.cons_append, splitSlashes, hparts]
    by_cases hfirst : first = '/'
    · exact ⟨[] :: before, part, by rw [if_pos hfirst, List.cons_append]⟩
    · rw [if_neg hfirst]
      cases before with
      | nil => exact ⟨[], first :: part, rfl⟩
      | cons start before => exact ⟨(first :: start) :: before, part, rfl⟩

theorem dropWhile_isEmpty_parts {path : String} (hpath : path ≠ "")
    (hslash : endsInSlash path = false) :
    (parts path).reverse.dropWhile (·.isEmpty) = (parts path).reverse ∧
      ∀ last ∈ (parts path).reverse.head?, last ≠ "" := by
  obtain ⟨text, c, htext⟩ := (List.eq_nil_or_concat path.toList).resolve_left
    fun hnil => hpath (String.toList_eq_nil_iff.mp hnil)
  rw [List.concat_eq_append] at htext
  have hc : c ≠ '/' := by
    rintro rfl
    rw [endsInSlash, htext, List.getLast?_concat] at hslash
    cases hslash
  obtain ⟨before, part, hparts⟩ := splitSlashes_concat hc text
  have hlast : String.ofList (part ++ [c]) ≠ "" := by
    rw [Ne, ← String.toList_eq_nil_iff, String.toList_ofList]
    simp
  rw [parts, htext, hparts, List.map_append, List.reverse_append]
  constructor
  · apply List.dropWhile_cons_of_neg
    rw [String.isEmpty_iff]
    exact hlast
  · rintro last hmem
    cases hmem
    exact hlast

/-- A path leads to a place in a directory, where there may be something or not: what stands
before its last part can be followed to the directory, and the last part is a name. -/
structure LeadsTo (volume : Volume) (path last : String) (before : List String) : Prop where
  nonempty : path ≠ ""
  name : isNoise last = false ∧ last ≠ ".."
  parents : ∃ parents, parts path = parents ++ [last] ∧
    volume.tree.follow (volume.start path) parents = .ok before
  directory : ∃ entries, volume.tree.at? before.reverse = some (.directory entries)

/-- A file is written to a place where there is no directory. -/
theorem write_eq_ok {volume after : Volume} {path : String} {bytes : List UInt8}
    (hwritten : volume.write path bytes = .ok after) :
    ∃ last before, LeadsTo volume path last before ∧
      (∀ present, volume.tree.at? (last :: before).reverse ≠ some (.directory present)) ∧
      after = volume.put (.file bytes) (last :: before) := by
  unfold write at hwritten
  split at hwritten
  · cases hwritten
  · rename_i last before hlast
    split at hwritten
    · cases hwritten
    · rename_i hname
      rw [not_or, not_or, Bool.not_eq_true] at hname
      obtain ⟨hslash, hpoint, habove⟩ := hname
      obtain ⟨hpath, entries, parents, hbefore, hparts, hfollow⟩ :=
        resolveLast_eq_ok hlast hpoint
      obtain ⟨hsame, hnonempty⟩ := dropWhile_isEmpty_parts hpath hslash
      rw [hsame] at hparts
      have hleads : LeadsTo volume path last before := by
        refine ⟨hpath, ⟨?_, habove⟩, ⟨parents.reverse, ?_, hfollow⟩, ⟨entries, hbefore⟩⟩
        · have hempty : last ≠ "" := hnonempty last (by rw [hparts]; rfl)
          simp [isNoise, hempty, hpoint]
        · rw [← List.reverse_reverse (parts path), hparts, List.reverse_cons]
      refine ⟨last, before, hleads, ?_⟩
      split at hwritten
      · cases hwritten
      · rename_i old hold
        cases hwritten
        exact ⟨fun _ hdirectory => (nomatch hold.symm.trans hdirectory), rfl⟩
      · rename_i hold
        cases hwritten
        exact ⟨fun _ hdirectory => (nomatch hold.symm.trans hdirectory), rfl⟩

section Written

variable {volume : Volume} {path last : String} {before : List String} {inner : Tree}
  (hleads : LeadsTo volume path last before)
  (hnone : ∀ present, volume.tree.at? (last :: before).reverse ≠ some (.directory present))

include hleads hnone

/-- The path leads to what was put: up to its last part it is followed as before. -/
theorem resolve_put : (volume.put inner (last :: before)).resolve path = .ok (last :: before) := by
  obtain ⟨hpath, ⟨hnoise, habove⟩, ⟨parents, hparts, hfollow⟩, ⟨entries, hbefore⟩⟩ := hleads
  have hgrows : volume.tree.Grows (volume.put inner (last :: before)).tree :=
    grows_put hbefore hnone
  have hparents := hgrows.follow hfollow
  have hput : (volume.put inner (last :: before)).tree.at? (before.reverse ++ [last]) =
      some inner := by
    rw [← List.reverse_cons]
    exact Tree.at?_put_self _ _ _
  obtain ⟨present, hpresent, hentry⟩ := Tree.lookup_of_at?_concat hput
  have hstep := Tree.step_name hpresent hnoise habove (by rw [hentry]; rfl)
  rw [resolve_eq_ok_iff, hparts, Tree.follow_concat_eq_ok_iff]
  exact ⟨hpath, before, hparents, hstep⟩

/-- Only the file that was put may have changed. -/
theorem sameFilesBut_put_file (bytes : List UInt8) :
    SameFilesBut (last :: before).reverse volume
      (volume.put (.file bytes) (last :: before)) := by
  obtain ⟨entries, hbefore⟩ := hleads.directory
  intro names hnames
  by_cases hprefix : (last :: before).reverse <+: names
  · -- behind a file there is nothing
    obtain ⟨more, rfl⟩ := hprefix
    have hmore : more ≠ [] := by
      rintro rfl
      exact hnames (List.append_nil _)
    obtain ⟨name, more, rfl⟩ := List.exists_cons_of_ne_nil hmore
    unfold fileAt? put
    rw [Tree.at?_append_cons hnone, Tree.at?_put_append]
    rfl
  · exact fileAt?_put_of_not_prefix hbefore hprefix

end Written

/-- **What writing a file does**: the path leads to the file, which holds what was written, and
no other file has changed. -/
theorem written {volume after : Volume} {path : String} {bytes : List UInt8}
    (hwritten : volume.write path bytes = .ok after) : volume.PutsFile path bytes after := by
  obtain ⟨last, before, hleads, hnone, rfl⟩ := write_eq_ok hwritten
  have hpath : (volume.put (.file bytes) (last :: before)).resolve path = .ok (last :: before) :=
    resolve_put hleads hnone
  exact ⟨read_of_resolve hpath (Tree.at?_put_self _ _ _), last :: before, hpath,
    sameFilesBut_put_file hleads hnone bytes⟩

end Volume

end Ambient.Files
