/-
Reading arguments in step.

The same arguments are read twice: by two commands, or by one that has read different ones
before. If every option that the first reading knows keeps a relation between what has been
chosen, then the second reading accepts what the first accepts, and what they have chosen in
the end is related (`Keeps.readOptions`).

So `generate` takes the arguments of `validate` for the same choices, strict or not
(`ofArguments?_generate`), and without the file to write to, arguments ask for the same run
with its text going to the standard output (`ofArguments?_without_out`).
-/
import Ambient.Cli.Arguments

set_option autoImplicit false

namespace Ambient.Cli

/-! ## Argument by argument -/

/-- What an argument looks like: the end of the options, a long one, a short one, or a value. -/
inductive Shape where
  | stop
  | long (text : List Char)
  | short (letter : Char) (text : List Char)
  | value

/-- The shape of a text. -/
def Shape.of : List Char → Shape
  | ['-', '-'] => .stop
  | '-' :: '-' :: text => .long text
  | '-' :: letter :: text => .short letter text
  | _ => .value

/-- Reads one argument that does not end the options. -/
def readArgument (mode : Mode) (wants : Wants) (chosen : Chosen) (argument : String) :
    Option (Wants × Chosen) :=
  match Shape.of argument.toList, wants with
  | .long text, .option | .long text, .more => readLong mode text chosen
  | .short letter text, .option | .short letter text, .more => readShort mode letter text chosen
  | .value, .more => (chosen.set? .input argument).map (.more, ·)
  | .value, .value flag =>
    (chosen.set? flag argument).map (if flag = .input then .more else .option, ·)
  | _, _ => none

/-- One argument is read, and then the others with what it has left to be wanted. -/
theorem readOptions_cons (mode : Mode) (wants : Wants) (chosen : Chosen) (argument : String)
    (rest : List String) :
    readOptions mode wants chosen (argument :: rest) =
      match Shape.of argument.toList with
      | .stop => if rest.isEmpty then readOptions mode wants chosen [] else none
      | _ => (readArgument mode wants chosen argument).bind fun next =>
          readOptions mode next.1 next.2 rest := by
  rw [readOptions.eq_def]
  unfold readArgument
  rcases htext : argument.toList with _ | ⟨first, _ | ⟨second, text⟩⟩
  · cases wants <;> simp [htext, Shape.of] <;> split <;> simp [*]
  · cases wants <;> simp [htext, Shape.of] <;> split <;> simp [*]
  · by_cases hfirst : first = '-'
    · subst hfirst
      by_cases hsecond : second = '-'
      · subst hsecond
        cases text with
        | nil => cases wants <;> simp [htext, Shape.of, readOptions]
        | cons third text => cases wants <;> simp [htext, Shape.of] <;> split <;> simp [*]
      · cases wants <;> simp [htext, Shape.of, hsecond] <;> split <;> simp [*]
    · cases wants <;> simp [htext, Shape.of, hfirst] <;> split <;> simp [*]

/-- Only the last argument may end the options. -/
theorem readOptions_cons_of_ne_nil {mode : Mode} {wants : Wants} {chosen : Chosen}
    {argument : String} {rest : List String} (hrest : rest ≠ []) :
    readOptions mode wants chosen (argument :: rest) =
      (readArgument mode wants chosen argument).bind fun next =>
        readOptions mode next.1 next.2 rest := by
  rw [readOptions_cons]
  split
  · rename_i hshape
    have hmore : ¬ rest.isEmpty = true := fun hempty => hrest (List.isEmpty_iff.mp hempty)
    unfold readArgument
    rw [hshape, if_neg hmore]
    cases wants <;> rfl
  · rfl

/-- Where the first argument can be read, whatever is left of them is read after it. -/
theorem readOptions_cons_of_readArgument {mode : Mode} {wants next : Wants}
    {chosen read : Chosen} {argument : String}
    (hargument : readArgument mode wants chosen argument = some (next, read))
    (rest : List String) :
    readOptions mode wants chosen (argument :: rest) = readOptions mode next read rest := by
  rw [readOptions_cons, hargument]
  split
  · rename_i hshape
    unfold readArgument at hargument
    rw [hshape] at hargument
    cases hargument
  · rfl

/-- An option that has a value already may be followed by what follows an option that has none. -/
theorem readOptions_more_of_option {mode : Mode} {chosen read : Chosen}
    {arguments : List String}
    (hread : readOptions mode .option chosen arguments = some read) :
    readOptions mode .more chosen arguments = some read := by
  cases arguments with
  | nil => exact hread
  | cons argument arguments =>
    rw [readOptions_cons] at hread ⊢
    unfold readArgument at hread ⊢
    cases hshape : Shape.of argument.toList with
    | value =>
      rw [hshape] at hread
      cases hread
    | stop | long | short =>
      rw [hshape] at hread
      exact hread

/-- Behind the name of a command all arguments are its options. -/
theorem ofArguments?_cons {command : String} {mode : Mode}
    (hmode : Mode.ofName? command = some mode) (arguments : List String) :
    Invocation.ofArguments? (command :: arguments) =
      (readOptions mode .option {} arguments).bind (·.invocation? mode) := by
  unfold Invocation.ofArguments?
  dsimp only
  rw [hmode]
  rfl

/-! ## Reading in step -/

/-- The options of `mode` are options of `other`, and choosing one of them on both sides keeps
the relation. -/
structure Keeps (mode other : Mode) (R : Chosen → Chosen → Prop) : Prop where
  flags : ∃ more, Flag.ofMode other = Flag.ofMode mode ++ more
  set? : ∀ flag ∈ Flag.ofMode mode, ∀ {left right left' : Chosen} (value : String),
    R left right → left.set? flag value = some left' →
      ∃ right', right.set? flag value = some right' ∧ R left' right'
  mark? : ∀ flag ∈ Flag.ofMode mode, ∀ {left right left' : Chosen}, R left right →
    left.mark? flag = some left' → ∃ right', right.mark? flag = some right' ∧ R left' right'

/-- The option that must get its value next is one of the command. -/
def Wants.Of (mode : Mode) : Wants → Prop
  | .value flag => flag ∈ Flag.ofMode mode
  | .option | .more => True

theorem Wants.of_option (mode : Mode) : Wants.option.Of mode := trivial

theorem Wants.of_more (mode : Mode) : Wants.more.Of mode := trivial

/-- What is read on the left is read on the right as well, and the choices are related. -/
def Follows (mode : Mode) (R : Chosen → Chosen → Prop) (left right : Option (Wants × Chosen)) :
    Prop :=
  ∀ wants left', left = some (wants, left') →
    wants.Of mode ∧ ∃ right', right = some (wants, right') ∧ R left' right'

theorem follows_none {mode : Mode} {R : Chosen → Chosen → Prop}
    (right : Option (Wants × Chosen)) : Follows mode R none right := by
  intro _ _ hread
  cases hread

theorem follows_map {mode : Mode} {R : Chosen → Chosen → Prop} {wants : Wants}
    (hwants : wants.Of mode) {left right : Option Chosen}
    (hchosen : ∀ {left'}, left = some left' → ∃ right', right = some right' ∧ R left' right') :
    Follows mode R (left.map (wants, ·)) (right.map (wants, ·)) := by
  intro _ left' hleft
  obtain ⟨_, hsome, hpair⟩ := Option.map_eq_some_iff.mp hleft
  cases hpair
  obtain ⟨right', hright, hR⟩ := hchosen hsome
  exact ⟨hwants, right', by rw [hright, Option.map_some], hR⟩

section Reading

variable {mode other : Mode} {R : Chosen → Chosen → Prop} (hkeeps : Keeps mode other R)
  {left right : Chosen} {wants : Wants}

theorem input_mem_ofMode (mode : Mode) : Flag.input ∈ Flag.ofMode mode := by
  cases mode <;> decide

include hkeeps

theorem Keeps.find? {p : Flag → Bool} {flag : Flag}
    (hfind : (Flag.ofMode mode).find? p = some flag) :
    flag ∈ Flag.ofMode mode ∧ (Flag.ofMode other).find? p = some flag := by
  obtain ⟨more, hmore⟩ := hkeeps.flags
  refine ⟨List.mem_of_find?_eq_some hfind, ?_⟩
  rw [hmore, List.find?_append, hfind]
  rfl

/-- An option that is chosen on the left is chosen on the right, whether or not it takes a value. -/
theorem Keeps.choose? {flag : Flag} (attached? : Option String)
    (hflag : flag ∈ Flag.ofMode mode) (hR : R left right) :
    Follows mode R (choose? flag attached? left) (choose? flag attached? right) := by
  unfold Ambient.Cli.choose?
  split
  · exact follows_map (Wants.of_option mode) (hkeeps.set? flag hflag _ hR)
  · rintro _ _ ⟨⟩
    exact ⟨hflag, right, rfl, hR⟩
  · exact follows_none none
  · exact follows_map (Wants.of_option mode) (hkeeps.mark? flag hflag hR)

theorem Keeps.readLong (text : List Char) (hR : R left right) :
    Follows mode R (readLong mode text left) (readLong other text right) := by
  intro wants left' hread
  unfold Ambient.Cli.readLong at hread ⊢
  dsimp only at hread ⊢
  obtain ⟨flag, hfind, hchoose⟩ := Option.bind_eq_some_iff.mp hread
  obtain ⟨hflag, hfind'⟩ := hkeeps.find? hfind
  rw [hfind']
  exact hkeeps.choose? _ hflag hR wants left' hchoose

theorem Keeps.readShort (letter : Char) (attached : List Char) (hR : R left right) :
    Follows mode R (readShort mode letter attached left)
      (readShort other letter attached right) := by
  intro wants left' hread
  unfold Ambient.Cli.readShort at hread ⊢
  obtain ⟨flag, hfind, hchoose⟩ := Option.bind_eq_some_iff.mp hread
  obtain ⟨hflag, hfind'⟩ := hkeeps.find? hfind
  rw [hfind']
  dsimp only [Option.bind_eq_bind, Option.bind_some] at hchoose ⊢
  split at hchoose
  · exact hkeeps.choose? _ hflag hR wants left' hchoose
  · exact hkeeps.choose? _ hflag hR wants left' hchoose
  · exact hkeeps.choose? _ hflag hR wants left' hchoose

/-- What an argument says does not depend on the command, as long as the command has the option. -/
theorem Keeps.readArgument (argument : String) (hwants : wants.Of mode) (hR : R left right) :
    Follows mode R (readArgument mode wants left argument)
      (readArgument other wants right argument) := by
  unfold Ambient.Cli.readArgument
  split
  · exact hkeeps.readLong _ hR
  · exact hkeeps.readLong _ hR
  · exact hkeeps.readShort _ _ hR
  · exact hkeeps.readShort _ _ hR
  · exact follows_map (Wants.of_more mode) (hkeeps.set? .input (input_mem_ofMode mode) _ hR)
  · refine follows_map ?_ (hkeeps.set? _ hwants argument hR)
    split
    · exact Wants.of_more mode
    · exact Wants.of_option mode
  · exact follows_none none

omit hkeeps in
theorem readOptions_nil_related {left' : Chosen} (hR : R left right)
    (hread : readOptions mode wants left [] = some left') :
    ∃ right', readOptions other wants right [] = some right' ∧ R left' right' := by
  cases wants with
  | value flag => cases hread
  | option =>
    cases hread
    exact ⟨right, rfl, hR⟩
  | more =>
    cases hread
    exact ⟨right, rfl, hR⟩

/-- **Reading in step**: what the first command accepts, the second accepts as well, and the
choices in the end are related. -/
theorem Keeps.readOptions {arguments : List String} {left' : Chosen} (hwants : wants.Of mode)
    (hR : R left right) (hread : readOptions mode wants left arguments = some left') :
    ∃ right', readOptions other wants right arguments = some right' ∧ R left' right' := by
  induction arguments generalizing wants left right with
  | nil => exact readOptions_nil_related hR hread
  | cons argument arguments ih =>
    rw [readOptions_cons] at hread ⊢
    split at hread
    · by_cases hlast : arguments.isEmpty = true
      · rw [if_pos hlast] at hread ⊢
        exact readOptions_nil_related hR hread
      · rw [if_neg hlast] at hread
        cases hread
    · obtain ⟨⟨next, read⟩, hargument, hrest⟩ := Option.bind_eq_some_iff.mp hread
      obtain ⟨hnext, right', hright, hR'⟩ :=
        hkeeps.readArgument argument hwants hR next read hargument
      rw [hright]
      exact ih hnext hR' hrest

end Reading

/-! ## What both commands know -/

/-- The file that an action writes to. -/
def Action.out? : Action → Option String
  | .generate out? _ _ => out?
  | .validate => none

/-- The run with its text going to the standard output. -/
def Invocation.printing (invocation : Invocation) : Invocation :=
  { invocation with
    action :=
      match invocation.action with
      | .generate _ indent strict => .generate none indent strict
      | .validate => .validate }

/-- The choices without a file. -/
def Chosen.printing (chosen : Chosen) : Chosen := { chosen with out? := none }

/-- The path that is left out goes nowhere else. -/
theorem set?_printing {flag : Flag} {chosen set : Chosen} {path value : String}
    (hout : chosen.out? = some path) (hset : chosen.set? flag value = some set) :
    set.out? = some path ∧ chosen.printing.set? flag value = some set.printing := by
  unfold Chosen.set? at hset ⊢
  unfold Chosen.printing
  cases flag with
  | input =>
    cases hset
    exact ⟨hout, rfl⟩
  | out =>
    -- there is a file already
    dsimp only at hset
    rw [hout] at hset
    cases hset
  | root | style | resultSuffix | indentWidth =>
    obtain ⟨filled, hfill, hset⟩ := Option.bind_eq_some_iff.mp hset
    cases hset
    refine ⟨hout, ?_⟩
    dsimp only
    rw [hfill]
    rfl
  | tabs | strict => cases hset

theorem mark?_printing {flag : Flag} {chosen marked : Chosen} {path : String}
    (hout : chosen.out? = some path) (hmark : chosen.mark? flag = some marked) :
    marked.out? = some path ∧ chosen.printing.mark? flag = some marked.printing := by
  unfold Chosen.mark? at hmark ⊢
  unfold Chosen.printing
  cases flag with
  | tabs | strict =>
    dsimp only at hmark ⊢
    split at hmark
    · cases hmark
    · rename_i hfree
      cases hmark
      rw [if_neg hfree]
      exact ⟨hout, rfl⟩
  | _ => cases hmark

theorem keeps_printing (path : String) :
    Keeps .generate .generate
      fun left right => left.out? = some path ∧ right = left.printing where
  flags := ⟨[], rfl⟩
  set? := by
    rintro flag - left _ left' value ⟨hout, rfl⟩ hset
    obtain ⟨hout', hset'⟩ := set?_printing hout hset
    exact ⟨_, hset', hout', rfl⟩
  mark? := by
    rintro flag - left _ left' ⟨hout, rfl⟩ hmark
    obtain ⟨hout', hmark'⟩ := mark?_printing hout hmark
    exact ⟨_, hmark', hout', rfl⟩

theorem fill?_eq_some {α : Type} {place value filled : Option α}
    (hfill : fill? place value = some filled) :
    place = none ∧ ∃ inner, value = some inner ∧ filled = some inner := by
  unfold fill? at hfill
  split at hfill
  · cases hfill
    exact ⟨rfl, _, rfl, rfl⟩
  · cases hfill

theorem nonEmpty?_eq_some {text inner : String} (hinner : nonEmpty? text = some inner) :
    inner = text := by
  unfold nonEmpty? at hinner
  split at hinner <;> cases hinner
  rfl

/-- What follows the option for the file is its path, and no path has been chosen before. -/
theorem readOptions_value_out {path : String} {chosen read : Chosen} {rest : List String}
    (hread : readOptions .generate (.value .out) chosen (path :: rest) = some read) :
    chosen.out? = none ∧
      readOptions .generate .option { chosen with out? := some path } rest = some read := by
  rw [readOptions_cons] at hread
  unfold readArgument at hread
  cases hshape : Shape.of path.toList with
  | stop =>
    rw [hshape] at hread
    dsimp only at hread
    split at hread <;> cases hread
  | long | short =>
    rw [hshape] at hread
    cases hread
  | value =>
    rw [hshape] at hread
    obtain ⟨⟨next, more⟩, hset, hrest⟩ := Option.bind_eq_some_iff.mp hread
    obtain ⟨set, hset, hpair⟩ := Option.map_eq_some_iff.mp hset
    cases hpair
    obtain ⟨filled, hfill, hset⟩ := Option.bind_eq_some_iff.mp hset
    cases hset
    obtain ⟨hfree, inner, hinner, rfl⟩ := fill?_eq_some hfill
    cases nonEmpty?_eq_some hinner
    exact ⟨hfree, hrest⟩

section Removing

variable {out path : String} (hout : out = "--out" ∨ out = "-o")

include hout

/-- The option is followed by its value, and does not stand for a value itself. -/
theorem readArgument_out {wants next : Wants} {chosen read : Chosen}
    (hread : readArgument .generate wants chosen out = some (next, read)) :
    (wants = .option ∨ wants = .more) ∧ next = .value .out ∧ read = chosen := by
  cases wants with
  | value flag => rcases hout with rfl | rfl <;> cases hread
  | option => rcases hout with rfl | rfl <;> cases hread <;> exact ⟨.inl rfl, rfl, rfl⟩
  | more => rcases hout with rfl | rfl <;> cases hread <;> exact ⟨.inr rfl, rfl, rfl⟩

/-- By induction on the arguments in front of the option, which are read alike with and without
it. -/
theorem readOptions_without_out {before after : List String} {wants : Wants}
    {chosen read : Chosen}
    (hread : readOptions .generate wants chosen (before ++ out :: path :: after) = some read) :
    read.out? = some path ∧
      readOptions .generate wants chosen (before ++ after) = some read.printing := by
  induction before generalizing wants chosen with
  | nil =>
    rw [List.nil_append, readOptions_cons_of_ne_nil (List.cons_ne_nil _ _)] at hread
    obtain ⟨⟨next, same⟩, hargument, hvalue⟩ := Option.bind_eq_some_iff.mp hread
    obtain ⟨hwants, rfl, rfl⟩ := readArgument_out hout hargument
    obtain ⟨hfree, hrest⟩ := readOptions_value_out hvalue
    obtain ⟨_, hprinting, hpath, rfl⟩ :=
      (keeps_printing path).readOptions (Wants.of_option _) ⟨rfl, rfl⟩ hrest
    have hsame : Chosen.printing { same with out? := some path } = same := by
      unfold Chosen.printing
      rw [← hfree]
    rw [hsame] at hprinting
    refine ⟨hpath, ?_⟩
    rcases hwants with rfl | rfl
    · exact hprinting
    · exact readOptions_more_of_option hprinting
  | cons argument before ih =>
    have hrest : before ++ out :: path :: after ≠ [] := by simp
    rw [List.cons_append, readOptions_cons_of_ne_nil hrest] at hread
    obtain ⟨⟨next, more⟩, hargument, hread⟩ := Option.bind_eq_some_iff.mp hread
    rw [List.cons_append, readOptions_cons_of_readArgument hargument]
    exact ih hread

/-- Without the option and its value the arguments ask for the same run, but for the file. -/
theorem ofArguments?_without_out {before after : List String} {invocation : Invocation}
    (haccepted : Invocation.ofArguments? ("generate" :: (before ++ out :: path :: after)) =
      some invocation) :
    invocation.action.out? = some path ∧
      Invocation.ofArguments? ("generate" :: (before ++ after)) =
        some invocation.printing := by
  have hmode : Mode.ofName? "generate" = some .generate := by decide
  rw [ofArguments?_cons hmode] at haccepted ⊢
  obtain ⟨chosen, hread, hinvocation⟩ := Option.bind_eq_some_iff.mp haccepted
  obtain ⟨hpath, hprinting⟩ := readOptions_without_out hout hread
  rw [hprinting, Option.bind_some]
  unfold Chosen.invocation? at hinvocation ⊢
  split at hinvocation
  · cases hinvocation
  · rename_i hgoOn
    cases hinvocation
    exact ⟨hpath, if_neg hgoOn⟩

end Removing

end Ambient.Cli
