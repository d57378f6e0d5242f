/-
What a directory given as an input value stands for.

It is a function of what the directory holds and of nothing else: neither the file system
nor the order in which this one lists the entries matters (`directory_input`). The files
whose names have the extension of a description come in the order of the bytes of their
names.
-/
import Ambient.Cli.Inputs
import Ambient.Proofs.Files.Listing
import Ambient.Proofs.Files.Names

set_option autoImplicit false

namespace Ambient.Cli

open Ambient.Files

/-! ## Descriptions in a directory -/

/-- The names of the entries that are descriptions, in the order of the entries. -/
def describedNames (entries : List (String × Option Kind)) : List String :=
  ((entries.filter (hasJsonExtension ·.1)).filter (·.2 == some .file)).map (·.1)

theorem mem_describedNames {entries : List (String × Option Kind)} {name : String} :
    name ∈ describedNames entries ↔
      (name, some .file) ∈ entries ∧ HasExtension name "json" := by
  simp only [describedNames, List.mem_map, List.mem_filter, hasJsonExtension, beq_iff_eq,
    extension?_eq_some_iff]
  constructor
  · rintro ⟨⟨_, _⟩, ⟨⟨hentry, hextension⟩, rfl⟩, rfl⟩
    exact ⟨hentry, hextension⟩
  · rintro ⟨hentry, hextension⟩
    exact ⟨(name, some .file), ⟨⟨hentry, hextension⟩, rfl⟩, rfl⟩

theorem nodup_describedNames {entries : List (String × Option Kind)}
    (hdistinct : (entries.map (·.1)).Nodup) : (describedNames entries).Nodup :=
  hdistinct.sublist ((List.filter_sublist.trans List.filter_sublist).map _)

theorem describedNames_perm {entries others : List (String × Option Kind)}
    (hperm : entries.Perm others) : (describedNames entries).Perm (describedNames others) :=
  ((hperm.filter _).filter _).map _

/-! ## Resolving a directory -/

section Resolving

variable {σ : Type} [FileStore (StateM σ)] {state : σ} {directory : String}
  {entries : List (String × Option Kind)} (hlists : Lists state directory entries)

include hlists

theorem gives_jsonFilesIn :
    Gives state (jsonFilesIn directory)
      (.ok ((sortNames (describedNames entries)).map (join directory))) := by
  have hfiles : Gives state
      (((entries.map (·.1)).filter hasJsonExtension).filterM fun name =>
        isFile (join directory name)) (describedNames entries) := by
    rw [List.filter_map]
    exact Gives.filterM fun entry hentry => hlists.isFile entry (List.mem_of_mem_filter hentry)
  exact hlists.names.bind (hfiles.bind (.pure _))

theorem gives_resolveInput (hpattern : isPattern directory = false) :
    Gives state (resolveInput directory)
      (.ok ((sortNames (describedNames entries)).map (join directory))) := by
  unfold resolveInput
  rw [hpattern]
  exact hlists.isDirectory.bind (gives_jsonFilesIn hlists)

end Resolving

/-- **A directory stands for the descriptions in it, however it is listed.** For all that a
directory may hold, in entries of different names, there is one list of names, strictly
ascending by bytes, of exactly the regular files that have the extension `json`. In every file
system, in every state, and in whichever order it lists these entries, the files found in the
directory are those of this list; and so are those that the path of the directory stands for
as an input value, if it is no pattern. -/
theorem directory_input {entries : List (String × Option Kind)}
    (hdistinct : (entries.map (·.1)).Nodup) :
    ∃ names : List String, StrictlyAscending names ∧
      (∀ name, name ∈ names ↔ (name, some .file) ∈ entries ∧ HasExtension name "json") ∧
      ∀ (σ : Type) [FileStore (StateM σ)] (state : σ) (directory : String)
        (order : List (String × Option Kind)), order.Perm entries → Lists state directory order →
        Gives state (jsonFilesIn directory) (.ok (names.map (join directory))) ∧
        (isPattern directory = false →
          Gives state (resolveInput directory) (.ok (names.map (join directory)))) := by
  refine ⟨sortNames (describedNames entries),
    strictlyAscending_sortNames (nodup_describedNames hdistinct), fun name => ?_, ?_⟩
  · rw [(sortNames_perm _).mem_iff, mem_describedNames]
  · -- sorting forgets the order in which the entries were listed
    intro σ _ state directory order hperm hlists
    rw [← sortNames_eq_of_perm (describedNames_perm hperm)]
    exact ⟨gives_jsonFilesIn hlists, gives_resolveInput hlists⟩

/-- A volume with one directory, which holds these entries. -/
def shelf (entries : List (String × Tree)) : Volume :=
  { tree := .directory [("in", .directory entries)] }

/-- Three descriptions, and what only looks like one: a name that is no more than an
extension, a directory, and a name with another extension. -/
def shelfEntries : List (String × Tree) :=
  [("é.json", .file []), (".json", .file []), ("a.b.json", .file []), ("x.json", .directory []),
    ("Z.json", .file []), ("c.txt", .file [])]

/-- The entries are listed in one order on the first volume and in the opposite one on the
second. -/
theorem directory_input_shelf :
    ((Volume.listed shelfEntries).map (·.1)).Nodup ∧
      Gives (shelf shelfEntries) (resolveInput "in" : OnVolume _)
        (.ok ["in/Z.json", "in/a.b.json", "in/é.json"]) ∧
      Gives (shelf shelfEntries.reverse) (resolveInput "in" : OnVolume _)
        (.ok ["in/Z.json", "in/a.b.json", "in/é.json"]) := by
  have hdistinct : ((Volume.listed shelfEntries).map (·.1)).Nodup := by decide
  have hnames : ∀ entry ∈ shelfEntries, EntryName entry.1 := by decide
  have hpattern : isPattern "in" = false := by decide
  have hlists : Lists (shelf shelfEntries) "in" (Volume.listed shelfEntries) :=
    Volume.lists_of_find rfl hnames (by decide)
  have hreversed : Lists (shelf shelfEntries.reverse) "in" (Volume.listed shelfEntries.reverse) :=
    Volume.lists_of_find rfl (fun entry hentry => hnames entry (List.mem_reverse.mp hentry))
      (by decide)
  have hperm : (Volume.listed shelfEntries.reverse).Perm (Volume.listed shelfEntries) :=
    (List.reverse_perm shelfEntries).map _
  obtain ⟨names, hascending, hmem, hgives⟩ := directory_input hdistinct
  have hdescribed : describedNames (Volume.listed shelfEntries) =
      ["é.json", "a.b.json", "Z.json"] := by decide
  -- an ascending list is found by its members, without sorting anything
  have hsorted : names = ["Z.json", "a.b.json", "é.json"] := by
    refine hascending.eq_of_mem_iff (by unfold StrictlyAscending; decide) fun name => ?_
    rw [hmem, ← mem_describedNames, hdescribed]
    exact (List.reverse_perm _).mem_iff.symm
  have hpaths : names.map (join "in") = ["in/Z.json", "in/a.b.json", "in/é.json"] := by
    rw [hsorted]
    decide
  rw [← hpaths]
  exact ⟨hdistinct, (hgives Volume _ "in" _ (.refl _) hlists).2 hpattern,
    (hgives Volume _ "in" _ hperm hreversed).2 hpattern⟩

end Ambient.Cli
