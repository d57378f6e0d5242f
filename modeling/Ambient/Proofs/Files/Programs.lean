/-
Programs that leave a volume alone.

A program on a volume may read it, or change it. `ReadOnly` says that it leaves the whole
volume as it is, on every volume, and `KeepsFiles` that it leaves all files as they are.
Both are kept by the ways in which programs are put together, so that they are to be
proved of the operations alone.
-/
import Ambient.Proofs.Files.Frame

set_option autoImplicit false

namespace Ambient.Files

variable {α β : Type}

/-- What a program gives on a volume, and the volume that it leaves. -/
def OnVolume.on (program : OnVolume α) (volume : Volume) : α × Volume := program volume

namespace OnVolume

/-- Programs one after the other: the second starts on the volume that the first one leaves. -/
theorem on_bind (program : OnVolume α) (next : α → OnVolume β) (volume : Volume) :
    (program >>= next).on volume =
      (next (program.on volume).1).on (program.on volume).2 := rfl

/-- A file that cannot be written leaves the volume as it is. -/
theorem on_write (path text : String) (volume : Volume) :
    (FileStore.write path text : OnVolume _).on volume =
      match volume.write path (nameBytes text) with
      | .ok changed => (.ok (), changed)
      | .error error => (.error error, volume) := rfl

end OnVolume

/-! ## Reading -/

/-- The program leaves every volume as it is. -/
def ReadOnly (program : OnVolume α) : Prop := ∀ volume, (program.on volume).2 = volume

namespace ReadOnly

theorem pure (value : α) : ReadOnly (pure value : OnVolume α) := fun _ => rfl

theorem bind {program : OnVolume α} {next : α → OnVolume β} (hprogram : ReadOnly program)
    (hnext : ∀ value, ReadOnly (next value)) : ReadOnly (program >>= next) := by
  intro volume
  rw [OnVolume.on_bind, hprogram volume]
  exact hnext _ volume

theorem kind? (path : String) : ReadOnly (FileStore.kind? path : OnVolume _) := fun _ => rfl

theorem names (path : String) : ReadOnly (FileStore.names path : OnVolume _) := fun _ => rfl

theorem read (path : String) : ReadOnly (FileStore.read path : OnVolume _) := fun _ => rfl

theorem isDirectory (path : String) : ReadOnly (Files.isDirectory path : OnVolume _) :=
  (kind? path).bind fun _ => pure _

end ReadOnly

/-! ## Keeping files -/

/-- The program leaves the files of every volume as they are. -/
def KeepsFiles (program : OnVolume α) : Prop :=
  ∀ volume : Volume, volume.SameFiles (program.on volume).2

/-- What leaves the whole volume as it is leaves its files as they are. -/
theorem ReadOnly.keepsFiles {program : OnVolume α} (hprogram : ReadOnly program) :
    KeepsFiles program := by
  intro volume
  rw [hprogram volume]
  exact .refl volume

namespace KeepsFiles

theorem bind {program : OnVolume α} {next : α → OnVolume β} (hprogram : KeepsFiles program)
    (hnext : ∀ value, KeepsFiles (next value)) : KeepsFiles (program >>= next) :=
  fun volume => (hprogram volume).trans (hnext _ _)

/-- A directory that is made stands where nothing stood before, so that no file is lost. -/
theorem makeDirectory (path : String) :
    KeepsFiles (FileStore.makeDirectory path : OnVolume _) := by
  intro volume
  show volume.SameFiles (OnVolume.replace (·.makeDirectory path) volume).2
  unfold OnVolume.replace
  split
  · rename_i after hmade
    exact Volume.sameFiles_makeDirectory hmade
  · exact .refl volume

end KeepsFiles

end Ambient.Files
