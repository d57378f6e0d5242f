/-
Programs that only look at a file system.

The program is written over any file system, and what it does over two of them can be
compared: a relation between programs that is kept by putting them together, and that holds
between looking at the one file system and looking at the other one, holds between all that
can be put together from looking (`Looks`). A property of programs is such a relation that
disregards the second program. Programs that may fail are related by what they come to, and
such a relation is of the same kind again (`Looks.comesTo`).

`Watched` is a volume that takes note of the files that are read. Programs on it that only
look do what they do on a volume that is not watched, and nothing is noted (`Unread`).
-/
import Ambient.Proofs.Files.Programs

set_option autoImplicit false

namespace Ambient.Files

/-! ## Looking -/

section Looking

variable {m n : Type → Type} [Monad m] [Monad n] [FileStore m] [FileStore n]

/-- A relation between the programs of two file systems is kept by putting programs together,
and relates looking at the one to looking at the other. -/
structure Looks (related : ∀ α : Type, m α → n α → Prop) : Prop where
  pure {α : Type} (value : α) : related α (pure value) (pure value)
  bind {α β : Type} {program : m α} {other : n α} {next : α → m β} {after : α → n β} :
    related α program other → (∀ value, related β (next value) (after value)) →
      related β (program >>= next) (other >>= after)
  kind? (path : String) : related _ (FileStore.kind? path) (FileStore.kind? path)
  names (path : String) : related _ (FileStore.names path) (FileStore.names path)

namespace Looks

variable {related : ∀ α : Type, m α → n α → Prop} (looks : Looks related)

include looks

/-! Asking what a path leads to is looking. -/

theorem isDirectory (path : String) :
    related _ (Files.isDirectory path) (Files.isDirectory path) :=
  looks.bind (looks.kind? path) fun _ => looks.pure _

theorem isFile (path : String) : related _ (Files.isFile path) (Files.isFile path) :=
  looks.bind (looks.kind? path) fun _ => looks.pure _

theorem doesExist (path : String) : related _ (Files.doesExist path) (Files.doesExist path) :=
  looks.bind (looks.kind? path) fun _ => looks.pure _

/-! Going through a list is putting together what is done with its elements. -/

/-- Programs for all elements are related if those for each element are. -/
theorem mapM [LawfulMonad m] [LawfulMonad n] {α β : Type} {f : α → m β} {g : α → n β}
    (h : ∀ x, related β (f x) (g x)) (xs : List α) :
    related (List β) (xs.mapM f) (xs.mapM g) := by
  induction xs with
  | nil => exact looks.pure []
  | cons x xs ih =>
    rw [List.mapM_cons, List.mapM_cons]
    exact looks.bind (h x) fun _ => looks.bind ih fun _ => looks.pure _

theorem filterM {α : Type} {f : α → m Bool} {g : α → n Bool}
    (h : ∀ x, related Bool (f x) (g x)) (xs : List α) :
    related (List α) (xs.filterM f) (xs.filterM g) := by
  -- the names that are kept are gathered in reverse
  have hgather : ∀ (xs kept : List α),
      related (List α) (xs.filterAuxM f kept) (xs.filterAuxM g kept) := by
    intro xs
    induction xs with
    | nil => exact fun kept => looks.pure kept
    | cons x xs ih => exact fun kept => looks.bind (h x) fun _ => ih _
  exact looks.bind (hgather xs []) fun _ => looks.pure _

end Looks

/-- Programs that may fail are related if what they come to, a failure or a value, is. -/
def ComesTo (related : ∀ α : Type, m α → n α → Prop) (ε α : Type) (program : ExceptT ε m α)
    (other : ExceptT ε n α) : Prop :=
  related (Except ε α) program.run other.run

/-- A program that cannot fail does the same among those that may. -/
theorem Looks.lift [LawfulMonad m] [LawfulMonad n] {ε α : Type}
    {related : ∀ α : Type, m α → n α → Prop} (looks : Looks related) {program : m α}
    {other : n α} (hprogram : related α program other) :
    ComesTo related ε α (ExceptT.lift program) (ExceptT.lift other) := by
  rw [ComesTo, ExceptT.run_lift, ExceptT.run_lift, map_eq_pure_bind, map_eq_pure_bind]
  exact looks.bind hprogram fun _ => looks.pure _

/-- Failing does not get in the way of looking: after a failure nothing else is done. -/
theorem Looks.comesTo [LawfulMonad m] [LawfulMonad n] {ε : Type}
    {related : ∀ α : Type, m α → n α → Prop} (looks : Looks related) :
    Looks (ComesTo related ε) where
  pure {α} value := by
    show related (Except ε α) (Pure.pure (.ok value)) (Pure.pure (.ok value))
    exact looks.pure _
  bind hprogram hnext := by
    apply looks.bind hprogram
    intro result
    cases result with
    | ok value => exact hnext value
    | error error => exact looks.pure _
  kind? path := looks.lift (looks.kind? path)
  names path := looks.lift (looks.names path)

end Looking

/-- That a program leaves the volume as it is holds of all that only looks. -/
theorem looks_readOnly :
    Looks fun α (program : OnVolume α) (_ : OnVolume α) => ReadOnly program where
  pure := .pure
  bind := .bind
  kind? := .kind?
  names := .names

/-! ## Reading files -/

/-- A computation on a volume that takes note of the paths of the files that it reads, in the
order in which it reads them. -/
abbrev Watched : Type → Type := StateT (List String) OnVolume

instance : FileStore Watched where
  kind? path := StateT.lift (FileStore.kind? path)
  names path := StateT.lift (FileStore.names path)
  read path := do
    modify (· ++ [path])
    StateT.lift (FileStore.read path)
  makeDirectory path := StateT.lift (FileStore.makeDirectory path)
  write path text := StateT.lift (FileStore.write path text)

variable {α β : Type}

/-- What a program gives on a watched volume, the reads that have been noted after those
before it, and the volume that it leaves. -/
def Watched.on (program : Watched α) (reads : List String) (volume : Volume) :
    α × List String × Volume :=
  let ((value, noted), after) := (program.run reads).on volume
  (value, noted, after)

namespace Watched

/-- What a program notes comes after what the one before it has noted. -/
theorem on_bind (program : Watched α) (next : α → Watched β) (reads : List String)
    (volume : Volume) :
    (program >>= next).on reads volume =
      (next (program.on reads volume).1).on (program.on reads volume).2.1
        (program.on reads volume).2.2 := rfl

end Watched

end Ambient.Files
