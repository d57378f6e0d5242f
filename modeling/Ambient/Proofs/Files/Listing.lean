/-
Directories as they are listed.

`Lists` says what a state of a file system, any file system, tells about a directory: the
names that it lists, in some order, and what each of them leads to. Programs that only ask
for this give a value that follows from it and leave the state as it is (`Gives`).

A volume tells it of every directory that it has (`lists_of_find`): the path of a directory
with a name behind it leads to the entry of that name.
-/
import Ambient.Proofs.Files.Programs

set_option autoImplicit false

namespace Ambient.Files

/-! ## Giving a value -/

section Giving

variable {σ α β : Type} {state : σ}

/-- A program gives a value in a state, and leaves the state as it is. -/
def Gives (state : σ) (program : StateM σ α) (value : α) : Prop :=
  program.run state = (value, state)

theorem Gives.pure (value : α) : Gives state (Pure.pure value : StateM σ α) value := rfl

theorem Gives.bind {program : StateM σ α} {next : α → StateM σ β} {value : α} {result : β}
    (hprogram : Gives state program value) (hnext : Gives state (next value) result) :
    Gives state (program >>= next) result := by
  rw [Gives, StateT.run_bind, hprogram]
  exact hnext

/-- Elements that are kept if a program says so are those of which it says so. -/
theorem Gives.filterM {xs : List α} {name : α → β} {keep : β → StateM σ Bool} {kept : α → Bool}
    (hkeep : ∀ x ∈ xs, Gives state (keep (name x)) (kept x)) :
    Gives state ((xs.map name).filterM keep) ((xs.filter kept).map name) := by
  -- what is kept is gathered in reverse
  have hgather : ∀ gathered, Gives state ((xs.map name).filterAuxM keep gathered)
      (((xs.filter kept).map name).reverse ++ gathered) := by
    induction xs with
    | nil => exact fun gathered => .pure _
    | cons x xs ih =>
      rw [List.forall_mem_cons] at hkeep
      intro gathered
      refine Gives.bind hkeep.1 ?_
      have hrest := ih hkeep.2 (cond (kept x) (name x :: gathered) gathered)
      cases hx : kept x with
      | true =>
        rw [hx] at hrest
        simpa [List.filter_cons_of_pos hx] using hrest
      | false =>
        rw [hx] at hrest
        simpa [hx] using hrest
  have hgathered := hgather []
  rw [List.append_nil] at hgathered
  have hreversed : Gives state (Pure.pure ((xs.filter kept).map name).reverse.reverse : StateM σ _)
      ((xs.filter kept).map name) := by
    rw [List.reverse_reverse]
    exact .pure _
  exact hgathered.bind hreversed

end Giving

/-! ## Directories -/

section Listed

variable {σ : Type} [FileStore (StateM σ)]

/-- In a state of a file system a path leads to a directory, and listing it gives the names
of these entries, in this order; the path of each of them leads to what stands with the name,
which is nothing where a link leads nowhere. -/
structure Lists (state : σ) (directory : String) (entries : List (String × Option Kind)) :
    Prop where
  kind : Gives state (FileStore.kind? directory) (some .directory)
  names : Gives state (FileStore.names directory) (.ok (entries.map (·.1)))
  kinds : ∀ entry ∈ entries, Gives state (FileStore.kind? (join directory entry.1)) entry.2

theorem Lists.isDirectory {state : σ} {directory : String}
    {entries : List (String × Option Kind)} (hlists : Lists state directory entries) :
    Gives state (Files.isDirectory directory) true :=
  hlists.kind.bind (.pure _)

theorem Lists.isFile {state : σ} {directory : String} {entries : List (String × Option Kind)}
    (hlists : Lists state directory entries) :
    ∀ entry ∈ entries,
      Gives state (Files.isFile (join directory entry.1)) (entry.2 == some .file) :=
  fun entry hentry => (hlists.kinds entry hentry).bind (.pure _)

end Listed

/-! ## Paths in a directory -/

theorem splitSlashes_ne_nil (text : List Char) : splitSlashes text ≠ [] := by
  cases text with
  | nil => exact List.cons_ne_nil _ _
  | cons c rest =>
    rw [splitSlashes]
    split
    · exact List.cons_ne_nil _ _
    · split <;> exact List.cons_ne_nil _ _

theorem splitSlashes_append (first second : List Char) :
    splitSlashes (first ++ '/' :: second) = splitSlashes first ++ splitSlashes second := by
  induction first with
  | nil => simp [splitSlashes]
  | cons c first ih =>
    rw [List.cons_append, splitSlashes, splitSlashes, ih]
    by_cases hslash : c = '/'
    · rw [if_pos hslash, if_pos hslash, List.cons_append]
    · rw [if_neg hslash, if_neg hslash]
      cases hparts : splitSlashes first with
      | nil => exact absurd hparts (splitSlashes_ne_nil first)
      | cons part parts => rfl

theorem splitSlashes_of_notMem {text : List Char} (htext : '/' ∉ text) :
    splitSlashes text = [text] := by
  induction text with
  | nil => rfl
  | cons c text ih =>
    rw [List.mem_cons, not_or] at htext
    rw [splitSlashes, if_neg (Ne.symm htext.1), ih htext.2]

/-- A name that an entry of a directory can have. -/
structure EntryName (name : String) : Prop where
  nonempty : name ≠ ""
  point : name ≠ "."
  points : name ≠ ".."
  slash : '/' ∉ name.toList

instance (name : String) : Decidable (EntryName name) :=
  decidable_of_iff (name ≠ "" ∧ name ≠ "." ∧ name ≠ ".." ∧ '/' ∉ name.toList)
    ⟨fun ⟨hnonempty, hpoint, hpoints, hslash⟩ => ⟨hnonempty, hpoint, hpoints, hslash⟩,
      fun ⟨hnonempty, hpoint, hpoints, hslash⟩ => ⟨hnonempty, hpoint, hpoints, hslash⟩⟩

theorem EntryName.isNoise {name : String} (hname : EntryName name) : isNoise name = false := by
  simp [Files.isNoise, hname.nonempty, hname.point]

theorem parts_append (first second : String) :
    parts (first ++ "/" ++ second) = parts first ++ parts second := by
  have htext : (first ++ "/" ++ second).toList = first.toList ++ '/' :: second.toList := by simp
  rw [parts, htext, splitSlashes_append, List.map_append, parts, parts]

theorem parts_of_notMem {name : String} (hname : '/' ∉ name.toList) : parts name = [name] := by
  rw [parts, splitSlashes_of_notMem hname, List.map_singleton, String.ofList_toList]

/-- The path of an entry has one more part than that of its directory, where the empty part
behind a slash at the end does not count. -/
theorem parts_join {directory name : String} (hdirectory : directory ≠ "")
    (hname : '/' ∉ name.toList) :
    ∃ front, parts (join directory name) = front ++ [name] ∧
      (parts directory = front ∨ parts directory = front ++ [""]) := by
  have hempty : directory.isEmpty = false := by simpa [String.isEmpty_iff] using hdirectory
  rw [join, hempty, Bool.false_or]
  by_cases hslash : endsInSlash directory = true
  · rw [if_pos hslash]
    obtain ⟨above, rfl⟩ : ∃ above, directory = above ++ "/" := by
      rw [endsInSlash, beq_iff_eq, List.getLast?_eq_some_iff] at hslash
      obtain ⟨above, habove⟩ := hslash
      exact ⟨String.ofList above, by rw [← String.toList_inj, habove]; simp⟩
    refine ⟨parts above, ?_, .inr ?_⟩
    · rw [parts_append, parts_of_notMem hname]
    · have hparts := parts_append above ""
      rwa [String.append_empty] at hparts
  · rw [if_neg hslash]
    exact ⟨parts directory, by rw [parts_append, parts_of_notMem hname], .inl rfl⟩

theorem join_ne_empty {directory : String} (hdirectory : directory ≠ "") (name : String) :
    join directory name ≠ "" := by
  rw [join]
  split <;> simp [String.append_eq_empty_iff, hdirectory]

theorem isAbsolute_join {directory : String} (hdirectory : directory ≠ "") (name : String) :
    isAbsolute (join directory name) = isAbsolute directory := by
  have hchars : directory.toList ≠ [] := fun hnil => hdirectory (String.toList_eq_nil_iff.mp hnil)
  obtain ⟨c, chars, hchars⟩ := List.exists_cons_of_ne_nil hchars
  rw [isAbsolute, isAbsolute, join]
  split <;> simp [hchars]

/-! ## Entries of a tree -/

namespace Tree

/-- An empty part leads to where the path stands. -/
theorem eq_of_step_empty {tree : Tree} {standing names : List String}
    (hstep : tree.step standing "" = .ok names) : names = standing := by
  obtain ⟨_, _, hnames⟩ := step_eq_ok_iff.mp hstep
  rwa [if_pos (by decide)] at hnames

/-- From a directory the name of an entry leads to this entry. -/
theorem step_entry {tree inner : Tree} {standing : List String} {name : String}
    {entries : List (String × Tree)} (hplace : tree.at? standing.reverse = some (directory entries))
    (hname : EntryName name) (hentry : entries.lookup name = some inner) :
    tree.step standing name = .ok (name :: standing) ∧
      tree.at? (name :: standing).reverse = some inner := by
  constructor
  · exact step_name hplace hname.isNoise hname.points (by rw [hentry]; rfl)
  · rw [List.reverse_cons, at?_append, hplace, Option.bind_some, at?, Tree.entries, hentry]
    rfl

/-- An entry is found by its name if no other one has it. -/
theorem lookup_of_mem {entries : List (String × Tree)} (hdistinct : (entries.map (·.1)).Nodup)
    {entry : String × Tree} (hentry : entry ∈ entries) :
    entries.lookup entry.1 = some entry.2 := by
  obtain ⟨before, after, rfl⟩ := List.append_of_mem hentry
  rw [List.map_append, List.map_cons, List.nodup_append] at hdistinct
  refine List.lookup_eq_some_iff.mpr ⟨before, after, rfl, fun other hother => ?_⟩
  rw [bne_iff_ne]
  exact (hdistinct.2.2 other.1 (List.mem_map_of_mem hother) entry.1 List.mem_cons_self).symm

end Tree

/-! ## Directories of a volume -/

namespace Volume

/-- **The path of a directory with a name behind it leads to the entry of that name.** -/
theorem find_join {volume : Volume} {directory name : String} {entries : List (String × Tree)}
    {inner : Tree} (hfind : volume.find directory = .ok (.directory entries))
    (hname : EntryName name) (hentry : entries.lookup name = some inner) :
    volume.find (join directory name) = .ok inner := by
  obtain ⟨standing, hresolve, hplace⟩ := find_eq_ok_iff.mp hfind
  obtain ⟨hdirectory, hfollow⟩ := resolve_eq_ok_iff.mp hresolve
  obtain ⟨front, hparts, hfront⟩ := parts_join hdirectory hname.slash
  -- the parts before the name lead to the directory
  have hreached : volume.tree.follow (volume.start directory) front = .ok standing := by
    rcases hfront with heq | heq
    · rwa [heq] at hfollow
    · rw [heq, Tree.follow_concat_eq_ok_iff] at hfollow
      obtain ⟨reached, hreached, hstep⟩ := hfollow
      rwa [Tree.eq_of_step_empty hstep]
  have hstart : volume.start (join directory name) = volume.start directory := by
    rw [start, start, isAbsolute_join hdirectory]
  obtain ⟨hstep, hinner⟩ := Tree.step_entry hplace hname hentry
  refine find_eq_ok_iff.mpr ⟨name :: standing, ?_, hinner⟩
  rw [resolve_eq_ok_iff, hstart, hparts, Tree.follow_concat_eq_ok_iff]
  exact ⟨join_ne_empty hdirectory name, standing, hreached, hstep⟩

/-- The entries of a directory with what each of them leads to. -/
def listed (entries : List (String × Tree)) : List (String × Option Kind) :=
  entries.map fun entry => (entry.1, some entry.2.kind)

/-- **A volume lists each of its directories.** -/
theorem lists_of_find {volume : Volume} {directory : String} {entries : List (String × Tree)}
    (hfind : volume.find directory = .ok (.directory entries))
    (hnames : ∀ entry ∈ entries, EntryName entry.1)
    (hdistinct : (entries.map (·.1)).Nodup) :
    Lists volume directory (listed entries) := by
  have hkind : ∀ {path found}, volume.find path = .ok found →
      Gives volume (FileStore.kind? path : OnVolume _) (some found.kind) := by
    intro path found hfound
    show ((volume.find path).toOption.map (·.kind), volume) = _
    rw [hfound]
    rfl
  refine ⟨hkind hfind, ?_, ?_⟩
  · show (volume.names directory, volume) = _
    rw [names, hfind, listed, List.map_map]
    rfl
  · rw [listed, List.forall_mem_map]
    intro entry hentry
    exact hkind (find_join hfind (hnames entry hentry) (Tree.lookup_of_mem hdistinct hentry))

end Volume

end Ambient.Files
