/-
Resolving only looks.

Whatever an input value is, its files are found by asking what paths lead to and by listing
directories: no file is read, and nothing is changed. Put in general, resolving is put
together from looking, so that whatever holds between looking at one file system and looking
at another one also holds between resolving on the two of them (`Looks.resolveInputs`).

The walk hands the rest of itself on to its parts. What is related here is therefore two
walks part by part, given that the rests of them are related.
-/
import Ambient.Cli.Inputs
import Ambient.Proofs.Files.Looking

set_option autoImplicit false

namespace Ambient.Files.Looks

variable {m n : Type → Type} [Monad m] [Monad n] [LawfulMonad m] [LawfulMonad n]
  [FileStore m] [FileStore n] {related : ∀ α : Type, m α → n α → Prop} (looks : Looks related)

include looks

/-! ## Patterns -/

/-- A directory is listed; if it cannot be, then the walks fail alike. -/
theorem sortedNames (directory : String) :
    ComesTo related _ _ (Glob.sortedNames directory) (Glob.sortedNames directory) := by
  unfold Glob.sortedNames
  apply looks.comesTo.bind (looks.comesTo.names directory)
  intro listed
  cases listed with
  | ok names => exact looks.comesTo.pure _
  | error error => exact looks.pure _

/-- Whether a path is a result takes a look at most. -/
theorem result (directoriesOnly : Bool) (path : String) :
    ComesTo related _ _ (Glob.result directoriesOnly path)
      (Glob.result directoriesOnly path) := by
  unfold Glob.result
  apply looks.comesTo.bind (looks.comesTo.isDirectory path)
  intro isDirectory
  split <;> exact looks.comesTo.pure _

section Walking

variable {follow : List Glob.Part → String → Glob.Walk m (List String)}
  {other : List Glob.Part → String → Glob.Walk n (List String)}
  (hfollow : ∀ parts path, ComesTo related _ _ (follow parts path) (other parts path))

include hfollow

/-- At a path that has matched, either the path is looked at or the rest of the walk is gone on
with. -/
theorem advance (directoriesOnly : Bool) (more : List Glob.Part) (path : String) :
    ComesTo related _ _ (Glob.advance follow directoriesOnly more path)
      (Glob.advance other directoriesOnly more path) := by
  unfold Glob.advance
  split
  · exact looks.result directoriesOnly path
  · exact hfollow more path

/-- A name is compared with a part without asking the file system. -/
theorem matchName (directoriesOnly : Bool) (parts : List Glob.Part) (path : String) :
    ComesTo related _ _ (Glob.matchName follow directoriesOnly parts path)
      (Glob.matchName other directoriesOnly parts path) := by
  unfold Glob.matchName
  split
  · split
    · exact looks.advance hfollow directoriesOnly _ path
    · exact looks.comesTo.pure _
  · exact looks.comesTo.pure _

/-- At a child the rest of the walk is gone on with twice where two stars have it end here and
go on below, and once otherwise. -/
theorem visit (directoriesOnly : Bool) (parts : List Glob.Part) (path : String) :
    ComesTo related _ _ (Glob.visit follow directoriesOnly parts path)
      (Glob.visit other directoriesOnly parts path) := by
  have hname := looks.matchName hfollow directoriesOnly
  unfold Glob.visit
  split
  · apply looks.comesTo.bind (looks.comesTo.isDirectory path)
    intro isDirectory
    split
    · split
      · exact looks.comesTo.bind (looks.comesTo.pure [path]) fun _ =>
          looks.comesTo.bind (hfollow _ path) fun _ => looks.comesTo.pure _
      · exact looks.comesTo.bind (hname _ path) fun _ =>
          looks.comesTo.bind (hfollow _ path) fun _ => looks.comesTo.pure _
    · exact hname _ path
  · exact hname parts path

end Walking

/-- The walk only looks, as does each part of it that is handed the rest of the walk. -/
theorem walk (directoriesOnly : Bool) (depth : Nat) :
    ∀ parts path, ComesTo related _ _ (Glob.walk directoriesOnly depth parts path)
      (Glob.walk directoriesOnly depth parts path) := by
  -- the rest of a walk has one level less to go
  induction depth with
  | zero => exact fun _ _ => looks.comesTo.pure _
  | succ depth ih =>
    intro parts path
    rcases parts with _ | ⟨part, more⟩
    · exact looks.comesTo.pure _
    have hadvance := looks.advance ih directoriesOnly more
    cases part with
    | name name =>
      have hgoOn : ∀ found : Bool, ComesTo related _ _
          (if found then
            Glob.advance (Glob.walk directoriesOnly depth) directoriesOnly more
              (Glob.childPath path name)
          else Pure.pure [])
          (if found then
            Glob.advance (Glob.walk directoriesOnly depth) directoriesOnly more
              (Glob.childPath path name)
          else Pure.pure []) := by
        intro found
        split
        · exact hadvance _
        · exact looks.comesTo.pure _
      rw [Glob.walk, Glob.walk]
      split
      · exact looks.comesTo.bind (looks.comesTo.isDirectory path) hgoOn
      · exact looks.comesTo.bind (looks.comesTo.doesExist _) hgoOn
    | _ =>
      -- any other part has the directory listed
      unfold Glob.walk
      apply looks.comesTo.bind (looks.comesTo.isDirectory path)
      intro isDirectory
      split
      · apply looks.comesTo.bind (looks.sortedNames path)
        intro names
        apply looks.comesTo.bind (looks.comesTo.mapM (fun _ => hadvance _) _)
        intro specials
        apply looks.comesTo.bind
          (looks.comesTo.mapM (fun _ => looks.visit ih directoriesOnly _ _) _)
        intro children
        exact looks.comesTo.pure _
      · exact looks.comesTo.pure _

/-- A pattern is followed from the root of the file system, or from where the program stands. -/
theorem find (pattern : Glob.Pattern) :
    ComesTo related _ _ pattern.find pattern.find :=
  looks.walk pattern.directoriesOnly _ pattern.parts _

/-! ## Inputs -/

omit [LawfulMonad m] [LawfulMonad n] in
theorem jsonFilesIn (directory : String) :
    related _ (Cli.jsonFilesIn directory) (Cli.jsonFilesIn directory) := by
  unfold Cli.jsonFilesIn
  apply looks.bind (looks.names directory)
  intro listed
  cases listed with
  | error error => exact looks.pure _
  | ok names =>
    exact looks.bind (looks.filterM (fun _ => looks.isFile _) _) fun _ => looks.pure _

/-- What a pattern stands for is found by a walk, or there is a failure: a pattern that cannot be
read, a directory that cannot be listed, or no match. -/
theorem filesMatching (value : String) :
    related _ (Cli.filesMatching value) (Cli.filesMatching value) := by
  unfold Cli.filesMatching
  split
  · exact looks.pure _
  · rename_i pattern hread
    apply looks.bind (looks.find pattern)
    intro found
    cases found <;> exact looks.pure _

/-- A value is a pattern, or else the directory or the file that it names. -/
theorem resolveInput (value : String) :
    related _ (Cli.resolveInput value) (Cli.resolveInput value) := by
  unfold Cli.resolveInput
  split
  · exact looks.filesMatching value
  · apply looks.bind (looks.isDirectory value)
    intro isDirectory
    split
    · exact looks.jsonFilesIn value
    · exact looks.pure _

/-- **Resolving only looks.** -/
theorem resolveInputs (values : List String) :
    related _ (Cli.resolveInputs values) (Cli.resolveInputs values) := by
  induction values with
  | nil => exact looks.pure _
  | cons value values ih =>
    rw [Cli.resolveInputs, Cli.resolveInputs]
    apply looks.bind (looks.resolveInput value)
    intro resolved
    cases resolved with
    | error failure => exact looks.pure _
    | ok paths =>
      apply looks.bind ih
      intro more
      cases more <;> exact looks.pure _

end Ambient.Files.Looks
