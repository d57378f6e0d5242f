/-
What a run leaves behind.

Directories may be made before a run fails, files are not: the only file that a run makes
or replaces is the one that its text goes to, and writing it is the last that can fail. So a
run that fails has touched no file and has printed nothing, and one that succeeds has put
into the file just what it prints when it is given none (`run_accounted`).
-/
import Ambient.Proofs.Cli.Loading
import Ambient.Proofs.Cli.Options

set_option autoImplicit false

namespace Ambient.Cli

open Ambient.Files

/-! ## Directories -/

/-- Making a directory once more, and looking whether it is there if this fails. -/
theorem keepsFiles_again (path : String) :
    KeepsFiles (makeDirectories.again path : OnVolume _) := by
  unfold makeDirectories.again
  apply (KeepsFiles.makeDirectory path).bind
  intro made
  cases made with
  | ok done => exact (ReadOnly.pure _).keepsFiles
  | error error =>
    apply ReadOnly.keepsFiles
    apply (ReadOnly.isDirectory path).bind
    intro isDirectory
    split <;> exact .pure _

/-- By induction on the rounds: the directories above are made in the rounds that are left. -/
theorem keepsFiles_makeDirectories (rounds : Nat) (path : String) :
    KeepsFiles (makeDirectories rounds path : OnVolume _) := by
  induction rounds generalizing path with
  | zero => exact (ReadOnly.pure _).keepsFiles
  | succ rounds ih =>
    unfold makeDirectories
    split
    · exact (ReadOnly.pure _).keepsFiles
    · apply (KeepsFiles.makeDirectory path).bind
      intro made
      split
      · exact (ReadOnly.pure _).keepsFiles
      · split
        · exact (ReadOnly.pure _).keepsFiles
        · rename_i above habove
          apply (ih above).bind
          intro madeAbove
          cases madeAbove with
          | error error => exact (ReadOnly.pure _).keepsFiles
          | ok done => exact keepsFiles_again path
      · apply ReadOnly.keepsFiles
        apply (ReadOnly.isDirectory path).bind
        intro isDirectory
        split <;> exact .pure _

theorem keepsFiles_makeParent (path : String) :
    KeepsFiles (makeParent path : OnVolume _) := by
  unfold makeParent
  split
  · exact (ReadOnly.pure _).keepsFiles
  · exact (keepsFiles_makeDirectories _ _).bind fun _ => (ReadOnly.pure _).keepsFiles

/-! ## The file of a run -/

/-- Writing a text to a file touches no file or puts the text there. -/
theorem on_writeOut_cases (path text : String) (volume : Volume) :
    (∃ failure after, (writeOut path text : OnVolume _).on volume = (.error failure, after) ∧
      volume.SameFiles after) ∨
    ∃ after, (writeOut path text : OnVolume _).on volume = (.ok (), after) ∧
      volume.PutsFile path (nameBytes text) after := by
  have hmade := keepsFiles_makeParent path volume
  unfold writeOut
  rw [OnVolume.on_bind]
  rcases hparent : (makeParent path : OnVolume _).on volume with ⟨made, middle⟩
  rw [hparent] at hmade
  -- the directories that have been made on the way stay, even if the file cannot be written
  cases made with
  | error failure => exact .inl ⟨failure, middle, rfl, hmade⟩
  | ok done =>
    dsimp only
    rw [OnVolume.on_bind, OnVolume.on_write]
    cases hwritten : middle.write path (nameBytes text) with
    | error error => exact .inl ⟨_, middle, rfl, hmade⟩
    | ok after => exact .inr ⟨after, rfl, hmade.putsFile (Volume.written hwritten)⟩

/-- Delivering a text to a file fails with its file untouched, or is done. -/
theorem on_deliver_some (path text : String) (entries : List Entry) (volume : Volume) :
    (∃ failure after, (deliver (some path) text entries : OnVolume _).on volume =
      ({ entries, failure? := some failure }, after) ∧ volume.SameFiles after) ∨
    ∃ after, (deliver (some path) text entries : OnVolume _).on volume =
        ({ entries := entries ++ [⟨.info, "Done!"⟩] }, after) ∧
      volume.PutsFile path (nameBytes text) after := by
  unfold deliver
  dsimp only
  rw [OnVolume.on_bind]
  obtain ⟨failure, after, hwritten, hsame⟩ | ⟨after, hwritten, hput⟩ :=
    on_writeOut_cases path text volume
  · rw [hwritten]
    exact .inl ⟨failure, after, rfl, hsame⟩
  · rw [hwritten]
    exact .inr ⟨after, rfl, hput⟩

/-! ## Runs -/

/-- What a run leaves behind of a volume, by how it ends and what it was to do. -/
structure Accounted (invocation : Invocation) (before : Volume) (outcome : Outcome)
    (after : Volume) : Prop where
  /-- A run that fails prints nothing and touches no file. -/
  failed : outcome.code = 1 → outcome.output = "" ∧ before.SameFiles after
  /-- A run that was given no file leaves everything as it is. -/
  printed : invocation.action.out? = none → after = before
  /-- Checking prints nothing. -/
  checked : invocation.action = .validate → outcome.output = ""
  /-- A run that succeeds puts what it would have printed into the file that it was given,
  prints nothing and touches no other file. -/
  written : ∀ path, invocation.action.out? = some path → outcome.code = 0 →
    outcome.output = "" ∧ ∃ shown : Outcome,
      (invocation.printing.run : OnVolume _).on before = (shown, before) ∧ shown.code = 0 ∧
        before.PutsFile path (nameBytes shown.output) after

theorem Accounted.of_failure {invocation : Invocation} {before after : Volume}
    {outcome : Outcome} (hcode : outcome.code = 1) (houtput : outcome.output = "")
    (hfiles : before.SameFiles after)
    (hprinted : invocation.action.out? = none → after = before) :
    Accounted invocation before outcome after where
  failed _ := ⟨houtput, hfiles⟩
  printed := hprinted
  checked _ := houtput
  written _ _ hzero := nomatch hcode.symm.trans hzero

section Loaded

variable {volume : Volume} {inputs : List String} {root : String}
  {settings : Convert.Settings} {entries : List Entry} {domains : List Schema.Domain}
  (hload : ((loadInputs inputs : OnVolume _).on volume).1 = (entries, .ok domains))

include hload

theorem accounted_run_validate :
    ∃ outcome after,
      (Invocation.run ⟨inputs, root, settings, .validate⟩ : OnVolume _).on volume =
        (outcome, after) ∧ outcome.code ≤ 1 ∧
      Accounted ⟨inputs, root, settings, .validate⟩ volume outcome after := by
  by_cases hclean : Scope.issues (Convert.protocol settings root domains) = []
  · refine ⟨_, _, on_run_validate_of_clean hload hclean, Nat.zero_le 1, ?_⟩
    exact ⟨nofun, fun _ => rfl, fun _ => rfl, nofun⟩
  · refine ⟨_, _, on_run_validate_of_issues hload hclean, Nat.le_refl 1, ?_⟩
    exact .of_failure rfl rfl (.refl volume) fun _ => rfl

theorem accounted_run_generate (out? : Option String) (indent : Layout.Indent)
    (strict : Bool) :
    ∃ outcome after,
      (Invocation.run ⟨inputs, root, settings, .generate out? indent strict⟩ :
        OnVolume _).on volume = (outcome, after) ∧ outcome.code ≤ 1 ∧
      Accounted ⟨inputs, root, settings, .generate out? indent strict⟩ volume outcome after := by
  by_cases hgoOn : strict = true → Scope.issues (Convert.protocol settings root domains) = []
  · rw [on_run_generate_of_clean hload hgoOn]
    cases out? with
    | none =>
      refine ⟨_, _, on_deliver_none _ entries volume, Nat.zero_le 1, ?_⟩
      exact ⟨nofun, fun _ => rfl, nofun, nofun⟩
    | some path =>
      -- the same run without the file prints what is written here
      have hshown : (Invocation.run ⟨inputs, root, settings, .generate none indent strict⟩ :
          OnVolume _).on volume = _ := on_run_generate_of_clean hload hgoOn
      obtain ⟨failure, after, hrun, hsame⟩ | ⟨after, hrun, hput⟩ :=
        on_deliver_some path (Layout.render indent (Convert.protocol settings root domains))
          entries volume
      · refine ⟨_, _, hrun, Nat.le_refl 1, ?_⟩
        exact .of_failure rfl rfl hsame nofun
      · refine ⟨_, _, hrun, Nat.zero_le 1, nofun, nofun, nofun, ?_⟩
        rintro _ ⟨⟩ -
        exact ⟨rfl, _, hshown, rfl, hput⟩
  · rw [Classical.not_imp] at hgoOn
    refine ⟨_, _, on_run_generate_of_issues hload hgoOn.1 hgoOn.2, Nat.le_refl 1, ?_⟩
    exact .of_failure rfl rfl (.refl volume) fun _ => rfl

end Loaded

theorem accounted_run (invocation : Invocation) (volume : Volume) :
    ∃ outcome after, (invocation.run : OnVolume _).on volume = (outcome, after) ∧
      outcome.code ≤ 1 ∧ Accounted invocation volume outcome after := by
  rcases invocation with ⟨inputs, root, settings, action⟩
  rcases hload : ((loadInputs inputs : OnVolume _).on volume).1 with ⟨entries, failure | domains⟩
  · refine ⟨_, _, on_run_of_unloaded hload, Nat.le_refl 1, ?_⟩
    exact .of_failure rfl rfl (.refl volume) fun _ => rfl
  · cases action with
    | validate => exact accounted_run_validate hload
    | generate out? indent strict => exact accounted_run_generate hload out? indent strict

/-- **A failing run leaves no trace**: arguments that are accepted give a run that ends with
the code zero or one; if the code is one, nothing is printed and no file is made, changed or
lost. A run that succeeds leaves files alone as well, but for the one it was given, which
then holds what the same run prints without it. Messages have no part in this, so it holds
whichever of them are shown. -/
theorem run_accounted {arguments : List String} {invocation : Invocation}
    (haccepted : Invocation.ofArguments? arguments = some invocation) (volume : Volume) :
    ∃ outcome after, (run arguments : OnVolume _).on volume = (some outcome, after) ∧
      outcome.code ≤ 1 ∧ Accounted invocation volume outcome after := by
  obtain ⟨outcome, after, hrun, haccounted⟩ := accounted_run invocation volume
  exact ⟨outcome, after, on_run_of_accepted haccepted hrun, haccounted⟩

/-- A description in a directory. -/
def sampleVolume : Volume :=
  { tree := .directory
      [("in", .directory [("a.json", .file (nameBytes "\x7b\"domain\":\"A\"\x7d"))])] }

/-- The arguments to generate from it. -/
def sampleArguments : List String := ["generate", "--input", "in"]

/-- The file of the first run is in a directory to be made, the one of the second is to be in
what is no directory. -/
theorem run_accounted_sampleVolume :
    (∃ outcome after shown,
      (run (sampleArguments ++ ["--out", "out/a.d.ts"]) : OnVolume _).on sampleVolume =
        (some outcome, after) ∧ outcome.output = "" ∧
      (run sampleArguments : OnVolume _).on sampleVolume = (some shown, sampleVolume) ∧
      shown.output ≠ "" ∧ sampleVolume.PutsFile "out/a.d.ts" (nameBytes shown.output) after) ∧
    ∃ outcome after,
      (run (sampleArguments ++ ["-o", "in/a.json/a.d.ts"]) : OnVolume _).on sampleVolume =
        (some outcome, after) ∧ outcome.code = 1 ∧ outcome.output = "" ∧
      sampleVolume.SameFiles after := by
  constructor
  · have haccepted : Invocation.ofArguments? (sampleArguments ++ ["--out", "out/a.d.ts"]) =
        some ⟨["in"], "Webkit", {}, .generate (some "out/a.d.ts") (.spaces 4) false⟩ := by
      decide +kernel
    have hprinting := ofArguments?_without_out (.inl rfl) haccepted
    have hcode : ((run (sampleArguments ++ ["--out", "out/a.d.ts"]) : OnVolume _).on
        sampleVolume).1.map Outcome.code = some 0 := by
      decide +kernel
    have hshownOutput : ((run sampleArguments : OnVolume _).on sampleVolume).1.map
        (·.output) ≠ some "" := by
      decide +kernel
    obtain ⟨outcome, after, hrun, -, haccounted⟩ := run_accounted haccepted sampleVolume
    rw [hrun] at hcode
    obtain ⟨houtput, shown, hshown, -, hput⟩ :=
      haccounted.written "out/a.d.ts" rfl (Option.some.inj hcode)
    have hprinted : (run sampleArguments : OnVolume _).on sampleVolume =
        (some shown, sampleVolume) := on_run_of_accepted hprinting.2 hshown
    rw [hprinted] at hshownOutput
    exact ⟨outcome, after, shown, hrun, houtput, hprinted,
      fun hempty => hshownOutput (congrArg some hempty), hput⟩
  · have haccepted : Invocation.ofArguments? (sampleArguments ++ ["-o", "in/a.json/a.d.ts"]) =
        some ⟨["in"], "Webkit", {}, .generate (some "in/a.json/a.d.ts") (.spaces 4) false⟩ := by
      decide +kernel
    have hcode : ((run (sampleArguments ++ ["-o", "in/a.json/a.d.ts"]) : OnVolume _).on
        sampleVolume).1.map Outcome.code = some 1 := by
      decide +kernel
    obtain ⟨outcome, after, hrun, -, haccounted⟩ := run_accounted haccepted sampleVolume
    rw [hrun] at hcode
    have hone : outcome.code = 1 := Option.some.inj hcode
    exact ⟨outcome, after, hrun, hone, haccounted.failed hone⟩

end Ambient.Cli
