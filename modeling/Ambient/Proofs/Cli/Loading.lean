/-
Loading only reads.

Whatever the inputs are and however far a run gets with them, resolving patterns, listing
directories and reading files leave the volume as it is (`readOnly_loadInputs`).

A run is therefore cut in two: what its inputs stand for is loaded and converted into one
protocol, and then what was asked for is done with that, on the volume that the run started
on (`Invocation.run_eq`). If loading fails the run is over (`on_run_of_unloaded`), and if not
it either reports issues or goes on.
-/
import Ambient.Cli.Run
import Ambient.Proofs.Cli.Resolving

set_option autoImplicit false

namespace Ambient.Cli

open Ambient.Files

/-! ## Inputs -/

theorem readOnly_resolveInputs (values : List String) :
    ReadOnly (resolveInputs values : OnVolume _) :=
  looks_readOnly.resolveInputs values

theorem readOnly_loadFile (path : String) : ReadOnly (loadFile path : OnVolume _) := by
  unfold loadFile
  apply (ReadOnly.read path).bind
  intro bytes
  cases bytes <;> exact .pure _

/-- By induction on the paths; the first that fails ends it, with the volume as it was. -/
theorem readOnly_loadFiles (paths : List String) :
    ReadOnly (loadFiles paths : OnVolume _) := by
  induction paths with
  | nil => exact .pure _
  | cons path paths ih =>
    rw [loadFiles]
    apply (readOnly_loadFile path).bind
    intro loaded
    cases loaded with
    | error failure => exact .pure _
    | ok domain => exact ih.bind fun _ => .pure _

/-- **Loading only reads.** -/
theorem readOnly_loadInputs (values : List String) :
    ReadOnly (loadInputs values : OnVolume _) := by
  unfold loadInputs
  apply (readOnly_resolveInputs values).bind
  intro resolved
  cases resolved with
  | error failure => exact .pure _
  | ok paths => exact readOnly_loadFiles paths

/-! ## Two parts -/

section Parts

variable {m : Type → Type} [Monad m] [FileStore m]

/-- Loads what the inputs of a run stand for and converts it into one protocol. -/
def Invocation.build (invocation : Invocation) :
    m (List Entry × Except Failure Tree.Namespace) := do
  let (entries, loaded) ← loadInputs invocation.inputs
  return (entries, Convert.protocol invocation.settings invocation.root <$> loaded)

/-- Does with a protocol what was asked for. -/
def Action.finish (action : Action) (root : Tree.Namespace) (entries : List Entry) :
    m Outcome :=
  let issues := Scope.issues root
  match action with
  | .validate =>
    if issues.isEmpty then return { entries := entries ++ [⟨.info, "no issues found"⟩] }
    else return reported entries issues
  | .generate out? indent strict =>
    if strict && !issues.isEmpty then return reported entries issues
    else deliver out? (Layout.render indent root) entries

/-- **A run is loading, and then doing what was asked for.** If loading fails, nothing else is
done. -/
theorem Invocation.run_eq [LawfulMonad m] (invocation : Invocation) :
    (invocation.run : m Outcome) = (do
      let (entries, built) ← invocation.build
      match built with
      | .error failure => return { entries, failure? := some failure }
      | .ok root => invocation.action.finish root entries) := by
  unfold Invocation.run Invocation.build
  rw [bind_assoc]
  congr 1
  funext ⟨entries, loaded⟩
  dsimp only
  rw [pure_bind]
  cases loaded <;> rfl

end Parts

/-! ## After loading -/

section AfterBuilding

variable {invocation : Invocation} {volume : Volume} {entries : List Entry}

/-- A run whose inputs fail tells of it, and leaves the volume as it is. -/
theorem on_run_of_unbuilt {failure : Failure}
    (hbuild : (invocation.build : OnVolume _).on volume = ((entries, .error failure), volume)) :
    (invocation.run : OnVolume _).on volume =
      ({ entries, failure? := some failure }, volume) := by
  rw [Invocation.run_eq, OnVolume.on_bind, hbuild]
  rfl

/-- What was asked for is done on the volume that the run has started on. -/
theorem on_run_of_built {root : Tree.Namespace}
    (hbuild : (invocation.build : OnVolume _).on volume = ((entries, .ok root), volume)) :
    (invocation.run : OnVolume _).on volume =
      (invocation.action.finish root entries : OnVolume _).on volume := by
  rw [Invocation.run_eq, OnVolume.on_bind, hbuild]

end AfterBuilding

section AfterLoading

variable {volume : Volume} {inputs : List String} {root : String}
  {settings : Convert.Settings} {entries : List Entry}

/-- Converting takes what has been loaded and asks nothing of the volume. -/
theorem on_build_of_loaded {action : Action} {loaded : Except Failure (List Schema.Domain)}
    (hload : ((loadInputs inputs : OnVolume _).on volume).1 = (entries, loaded)) :
    (Invocation.build ⟨inputs, root, settings, action⟩ : OnVolume _).on volume =
      ((entries, Convert.protocol settings root <$> loaded), volume) := by
  unfold Invocation.build
  rw [OnVolume.on_bind, readOnly_loadInputs inputs volume, hload]
  rfl

theorem on_run_of_unloaded {action : Action} {failure : Failure}
    (hload : ((loadInputs inputs : OnVolume _).on volume).1 = (entries, .error failure)) :
    (Invocation.run ⟨inputs, root, settings, action⟩ : OnVolume _).on volume =
      ({ entries, failure? := some failure }, volume) := by
  apply on_run_of_unbuilt
  rw [on_build_of_loaded hload]
  rfl

variable {domains : List Schema.Domain}
  (hload : ((loadInputs inputs : OnVolume _).on volume).1 = (entries, .ok domains))

include hload

theorem on_run_of_loaded (action : Action) :
    (Invocation.run ⟨inputs, root, settings, action⟩ : OnVolume _).on volume =
      (action.finish (Convert.protocol settings root domains) entries : OnVolume _).on volume :=
  on_run_of_built (on_build_of_loaded hload)

theorem on_run_validate_of_issues
    (hissues : Scope.issues (Convert.protocol settings root domains) ≠ []) :
    (Invocation.run ⟨inputs, root, settings, .validate⟩ : OnVolume _).on volume =
      (reported entries (Scope.issues (Convert.protocol settings root domains)), volume) := by
  have hsome : ¬ (Scope.issues (Convert.protocol settings root domains)).isEmpty = true :=
    fun hempty => hissues (List.isEmpty_iff.mp hempty)
  rw [on_run_of_loaded hload, Action.finish, if_neg hsome]
  rfl

theorem on_run_validate_of_clean
    (hclean : Scope.issues (Convert.protocol settings root domains) = []) :
    (Invocation.run ⟨inputs, root, settings, .validate⟩ : OnVolume _).on volume =
      ({ entries := entries ++ [⟨.info, "no issues found"⟩] }, volume) := by
  rw [on_run_of_loaded hload, Action.finish, hclean]
  rfl

variable {out? : Option String} {indent : Layout.Indent} {strict : Bool}

/-- Only a strict run is kept from writing, and only by issues. -/
theorem on_run_generate_of_issues (hstrict : strict = true)
    (hissues : Scope.issues (Convert.protocol settings root domains) ≠ []) :
    (Invocation.run ⟨inputs, root, settings, .generate out? indent strict⟩ :
        OnVolume _).on volume =
      (reported entries (Scope.issues (Convert.protocol settings root domains)), volume) := by
  have hsome : (Scope.issues (Convert.protocol settings root domains)).isEmpty = false := by
    rw [List.isEmpty_eq_false_iff]
    exact hissues
  rw [on_run_of_loaded hload, Action.finish, hstrict, hsome]
  rfl

theorem on_run_generate_of_clean
    (hclean : strict = true → Scope.issues (Convert.protocol settings root domains) = []) :
    (Invocation.run ⟨inputs, root, settings, .generate out? indent strict⟩ :
        OnVolume _).on volume =
      (deliver out? (Layout.render indent (Convert.protocol settings root domains)) entries :
        OnVolume _).on volume := by
  -- a run that is not strict goes on whatever the issues are
  have hgoOn : (strict &&
      !(Scope.issues (Convert.protocol settings root domains)).isEmpty) = false := by
    cases strict with
    | false => rfl
    | true => rw [hclean rfl]; rfl
  rw [on_run_of_loaded hload, Action.finish, hgoOn]
  rfl

end AfterLoading

theorem on_deliver_none (text : String) (entries : List Entry) (volume : Volume) :
    (deliver none text entries : OnVolume _).on volume =
      ({ entries := entries ++ [⟨.info, "Done!"⟩], output := text }, volume) := rfl

/-- A program whose arguments are accepted does what its run does. -/
theorem on_run_of_accepted {arguments : List String} {invocation : Invocation}
    (haccepted : Invocation.ofArguments? arguments = some invocation) {volume after : Volume}
    {outcome : Outcome} (hrun : (invocation.run : OnVolume _).on volume = (outcome, after)) :
    (run arguments : OnVolume _).on volume = (some outcome, after) := by
  unfold run
  rw [haccepted]
  dsimp only
  rw [OnVolume.on_bind, hrun]
  rfl

end Ambient.Cli
