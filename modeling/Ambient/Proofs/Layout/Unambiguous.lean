/-
The text of a plain tree can be read back.

Reading goes row by row. At every point the rows still to come either belong to the
indentation of the block that is read or end it, and the first characters of the next
row tell which member comes next; only a comment in front of a block leaves that to the
row after it. `namespace_inj` follows the tree with this, and what it comes to is that two
plain trees have the same text exactly if their canonical forms are the same.
-/
import Ambient.Proofs.Layout.Members
import Ambient.Proofs.Layout.Rows

set_option autoImplicit false

namespace Ambient.Layout

open Ambient.Tree Ambient.Text

variable {indent : Indent}

/-! ## Call signatures -/

/-- What follows a parameter that has a row of its own. -/
def separator (more : List Parameter) : String := if more.isEmpty then "" else ","

theorem furtherLines_cons (parameter : Parameter) (more : List Parameter) :
    furtherLines (parameter :: more) =
      .flush (" " ++ parameterText parameter ++ separator more) :: furtherLines more := by
  cases more with
  | nil => simp [furtherLines, separator]
  | cons next more => rfl

/-- A parameter with a row of its own is followed by a comma or by the end of the row. -/
theorem endsParameter_separator (more : List Parameter) :
    EndsParameter (separator more).toList := by
  cases more with
  | nil => exact endsParameter_nil
  | cons next more =>
    have hcomma : (separator (next :: more)).toList = [','] := by simp [separator]
    rw [hcomma]
    exact endsParameter_cons (by decide) (by decide) []

/-- The rows of the second and later parameters, where the last one is seen by the comma
that it lacks. -/
theorem furtherLines_inj {parameters others : List Parameter}
    (hparameters : ∀ next ∈ parameters, next.Plain) (hothers : ∀ next ∈ others, next.Plain)
    (hempty : separator parameters = separator others) {r s : List (List Char)}
    (h : rows indent (furtherLines parameters) ++ r = rows indent (furtherLines others) ++ s) :
    parameters = others ∧ r = s := by
  induction parameters generalizing others with
  | nil =>
    cases others with
    | nil => exact ⟨rfl, h⟩
    | cons other others => exact absurd hempty (by simp [separator])
  | cons parameter parameters ih =>
    cases others with
    | nil => exact absurd hempty (by simp [separator])
    | cons other others =>
      rw [furtherLines_cons, furtherLines_cons, rows_flush_inj, ← String.toList_inj] at h
      simp only [String.toList_append, List.append_assoc, List.append_cancel_left_eq] at h
      obtain ⟨hfirst, hseparator⟩ := parameterText_inj (hparameters parameter List.mem_cons_self)
        (hothers other List.mem_cons_self) (endsParameter_separator _)
        (endsParameter_separator _) h.1
      -- the comma, or its absence, says whether more rows of parameters follow
      obtain ⟨hmore, hrest⟩ := ih
        (fun next hnext => hparameters next (List.mem_cons_of_mem _ hnext))
        (fun next hnext => hothers next (List.mem_cons_of_mem _ hnext))
        (String.toList_inj.mp hseparator) h.2
      exact ⟨by rw [hfirst, hmore], hrest⟩

/-- What follows the first parameter of a call signature, up to the end of the row. -/
def afterFirst (signature : Signature) (further : List Parameter) : String :=
  if further.isEmpty then "): " ++ signatureEnd signature else ","

theorem endsParameter_afterFirst (signature : Signature) (further : List Parameter) :
    EndsParameter (afterFirst signature further).toList := by
  cases further with
  | nil =>
    have hstart : (afterFirst signature []).toList =
        ')' :: ':' :: ' ' :: (signatureEnd signature).toList := by
      simp [afterFirst]
    rw [hstart]
    exact endsParameter_cons (by decide) (by decide) _
  | cons next further =>
    have hcomma : (afterFirst signature (next :: further)).toList = [','] := by
      simp [afterFirst]
    rw [hcomma]
    exact endsParameter_cons (by decide) (by decide) []

/-- The rows of a call signature after the first one. -/
def closingLines (signature : Signature) (further : List Parameter) : List Line :=
  if further.isEmpty then []
  else furtherLines further ++ [.flush ("): " ++ signatureEnd signature)]

theorem signatureLines_of_cons {signature : Signature} {first : Parameter}
    {further : List Parameter} (hparameters : signature.parameters = first :: further) :
    signatureLines signature =
      .flush ("(" ++ parameterText first ++ afterFirst signature further) ::
        closingLines signature further := by
  rw [signatureLines, hparameters]
  cases further with
  | nil => simp [afterFirst, closingLines, String.append_assoc]
  | cons next further => rfl

theorem signatureLines_of_nil {signature : Signature} (hparameters : signature.parameters = []) :
    signatureLines signature = [.flush ("(): " ++ signatureEnd signature)] := by
  rw [signatureLines, hparameters]

/-- A signature is what its lines hold: its parameters, what it returns, and its comment. -/
theorem signature_eq {signature other : Signature} (hsignature : signature.Plain)
    (hother : other.Plain) (hparameters : signature.parameters = other.parameters)
    (hend : signatureEnd signature = signatureEnd other) : signature = other := by
  obtain ⟨hreturnType, hcomment⟩ := signatureEnd_inj hsignature hother hend
  cases signature
  cases other
  rw [Signature.mk.injEq]
  exact ⟨hparameters, hreturnType, hcomment⟩

theorem closing_inj {signature other : Signature} {first : Parameter}
    {further others : List Parameter} (hsignature : signature.Plain) (hother : other.Plain)
    (hleft : signature.parameters = first :: further)
    (hright : other.parameters = first :: others)
    (hafter : afterFirst signature further = afterFirst other others) {r s : List (List Char)}
    (h : rows indent (closingLines signature further) ++ r =
      rows indent (closingLines other others) ++ s) : signature = other ∧ r = s := by
  -- whether the bracket is closed in the first row decides how many rows there are
  cases further with
  | nil =>
    cases others with
    | nil =>
      have hend : signatureEnd signature = signatureEnd other := by
        rw [← String.toList_inj] at hafter ⊢
        simpa [afterFirst] using hafter
      exact ⟨signature_eq hsignature hother (hleft.trans hright.symm) hend, h⟩
    | cons next others =>
      rw [← String.toList_inj] at hafter
      simp [afterFirst] at hafter
  | cons next further =>
    cases others with
    | nil =>
      rw [← String.toList_inj] at hafter
      simp [afterFirst] at hafter
    | cons another others =>
      have hfurther : ∀ parameter ∈ next :: further, parameter.Plain := fun parameter hmem =>
        hsignature.parameters parameter (by rw [hleft]; exact List.mem_cons_of_mem _ hmem)
      have hothers : ∀ parameter ∈ another :: others, parameter.Plain := fun parameter hmem =>
        hother.parameters parameter (by rw [hright]; exact List.mem_cons_of_mem _ hmem)
      simp only [closingLines, List.isEmpty_cons, Bool.false_eq_true, if_false, rows_append,
        List.append_assoc] at h
      obtain ⟨hsame, hrows⟩ := furtherLines_inj hfurther hothers rfl h
      rw [rows_flush_inj, ← String.toList_inj] at hrows
      simp only [String.toList_append, List.append_cancel_left_eq, String.toList_inj] at hrows
      refine ⟨signature_eq hsignature hother ?_ hrows.1, hrows.2⟩
      rw [hleft, hright, hsame]

/-- A signature is read back from its rows. That it has no parameters is seen by the first one. -/
theorem signature_inj {signature other : Signature} (hsignature : signature.Plain)
    (hother : other.Plain) {r s : List (List Char)}
    (h : rows indent (signatureLines signature) ++ r = rows indent (signatureLines other) ++ s) :
    signature = other ∧ r = s := by
  -- the row of a signature without parameters closes the bracket where a name would start
  have hclosed : ∀ {taking nullary : Signature} {first : Parameter} {further : List Parameter}
      {t u : List (List Char)}, taking.Plain → taking.parameters = first :: further →
      nullary.parameters = [] →
      rows indent (signatureLines taking) ++ t ≠ rows indent (signatureLines nullary) ++ u := by
    intro taking nullary first further t u htaking hfirst hnone heq
    rw [signatureLines_of_cons hfirst, signatureLines_of_nil hnone, rows_flush_inj,
      ← String.toList_inj] at heq
    have hplain := htaking.parameters first (by rw [hfirst]; exact List.mem_cons_self)
    simp only [String.toList_append, List.append_assoc] at heq
    exact parameterText_append_ne_cons hplain (c := ')') (by decide) _ _ (List.cons.inj heq.1).2
  cases hleft : signature.parameters with
  | nil =>
    cases hright : other.parameters with
    | nil =>
      rw [signatureLines_of_nil hleft, signatureLines_of_nil hright, rows_flush_inj,
        ← String.toList_inj] at h
      simp only [String.toList_append, List.append_cancel_left_eq, String.toList_inj] at h
      exact ⟨signature_eq hsignature hother (hleft.trans hright.symm) h.1, h.2⟩
    | cons first further => exact absurd h.symm (hclosed hother hright hleft)
  | cons first further =>
    cases hright : other.parameters with
    | nil => exact absurd h (hclosed hsignature hleft hright)
    | cons another others =>
      rw [signatureLines_of_cons hleft, signatureLines_of_cons hright, rows_flush_inj,
        ← String.toList_inj] at h
      simp only [String.toList_append, List.append_assoc, List.append_cancel_left_eq] at h
      obtain ⟨hfirst, hafter⟩ := parameterText_inj
        (hsignature.parameters first (by rw [hleft]; exact List.mem_cons_self))
        (hother.parameters another (by rw [hright]; exact List.mem_cons_self))
        (endsParameter_afterFirst _ _) (endsParameter_afterFirst _ _) h.1
      subst hfirst
      exact closing_inj hsignature hother hleft hright (String.toList_inj.mp hafter) h.2

/-! ## First rows -/

/-- A row of a property or a method starts with the first character of its name. -/
theorem head?_propertyText {property : Property} (hproperty : property.Plain) :
    ∃ c, (propertyText property).toList.head? = some c ∧ nameChar c = true := by
  rw [toList_propertyText, toList_slotText, List.append_assoc]
  exact head?_append_of_plainName hproperty.name _

theorem head?_methodText {method : Method} (hmethod : method.Plain) :
    ∃ c, (methodText method).toList.head? = some c ∧ nameChar c = true := by
  rw [toList_methodText]
  exact head?_append_of_plainName hmethod.name _

theorem head?_interfaceHead (name : String) : (interfaceHead name).toList.head? = some 'i' := by
  simp [interfaceHead]

theorem head?_typedefText (typedef : Typedef) : (typedefText typedef).toList.head? = some 't' := by
  simp [typedefText]

theorem head?_namespaceHead (ambient : Bool) (name : String) :
    (namespaceHead ambient name).toList.head? = some (if ambient then 'd' else 'n') := by
  cases ambient <;> simp [namespaceHead]

theorem interfaceHead_inj {name other : String} (h : interfaceHead name = interfaceHead other) :
    name = other := by
  rw [← String.toList_inj] at h ⊢
  simpa [interfaceHead] using h

theorem namespaceHead_inj {ambient closed : Bool} {name other : String}
    (h : namespaceHead ambient name = namespaceHead closed other) :
    ambient = closed ∧ name = other := by
  rw [← String.toList_inj] at h
  cases ambient <;> cases closed <;> simp_all [namespaceHead, String.toList_inj]

/-- The first row of a call signature starts with a bracket. -/
theorem signatureLines_eq_cons (signature : Signature) :
    ∃ content more, signatureLines signature = .flush content :: more ∧
      content.toList.head? = some '(' := by
  unfold signatureLines
  split
  · exact ⟨_, _, rfl, by simp⟩
  · exact ⟨_, _, rfl, by simp⟩
  · exact ⟨_, _, rfl, by simp⟩

/-- Whether a block has a comment is seen by its first row, since no head starts like a
comment. -/
theorem leading_inj {comment other head start : String} (hhead : head.toList.head? ≠ some '/')
    (hstart : start.toList.head? ≠ some '/') {r s : List (List Char)}
    (h : rows indent (leadingLines comment) ++ row indent head :: r =
      rows indent (leadingLines other) ++ row indent start :: s) :
    comment = other ∧ head = start ∧ r = s := by
  have hslash : ∀ remark : String, ("// " ++ remark).toList.head? = some '/' := by
    intro remark
    simp
  unfold leadingLines at h
  -- where only one of the blocks has a comment, the head of the other one starts like it
  by_cases hnone : comment = ""
  · by_cases hblank : other = ""
    · subst hnone hblank
      obtain ⟨hrow, hrest⟩ := List.cons.inj h
      exact ⟨rfl, row_inj.mp hrow, hrest⟩
    · rw [if_pos (by simpa using hnone), if_neg (by simpa using hblank)] at h
      rw [row_inj.mp (List.cons.inj h).1] at hhead
      exact absurd (hslash other) hhead
  · by_cases hblank : other = ""
    · rw [if_neg (by simpa using hnone), if_pos (by simpa using hblank)] at h
      rw [← row_inj.mp (List.cons.inj h).1] at hstart
      exact absurd (hslash comment) hstart
    · rw [if_neg (by simpa using hnone), if_neg (by simpa using hblank)] at h
      obtain ⟨hremark, hmore⟩ := List.cons.inj h
      obtain ⟨hrow, hrest⟩ := List.cons.inj hmore
      have hcomment : "// " ++ comment = "// " ++ other := row_inj.mp hremark
      rw [← String.toList_inj] at hcomment
      simp only [String.toList_append, List.append_cancel_left_eq, String.toList_inj] at hcomment
      exact ⟨hcomment, row_inj.mp hrow, hrest⟩

/-- The lines of a declaration are a comment, if there is one, and then a line that
starts like no namespace. -/
theorem declarationLines_start (declared : Declaration) :
    ∃ comment head more, declarationLines declared = leadingLines comment ++ .flush head :: more ∧
      (head.toList.head? = some 'i' ∨ head.toList.head? = some 't') := by
  cases declared with
  | interface declared => exact ⟨_, _, _, rfl, Or.inl (head?_interfaceHead _)⟩
  | typedef declared => exact ⟨"", _, [], rfl, Or.inr (head?_typedefText _)⟩

/-- No head of a namespace is the head of an interface or an alias. -/
theorem namespace_ne_declaration (scope : Namespace) (declared : Declaration)
    (r s : List (List Char)) :
    rows indent (namespaceLines scope) ++ r ≠ rows indent (declarationLines declared) ++ s := by
  intro heq
  obtain ⟨comment, head, more, hlines, hhead⟩ := declarationLines_start declared
  have hscope := head?_namespaceHead scope.ambient scope.name
  rw [namespaceLines_eq, rows_block, hlines, rows_append indent (leadingLines comment),
    rows_flush, List.append_assoc] at heq
  obtain ⟨-, hsame, -⟩ := leading_inj
    (by rw [hscope]; cases scope.ambient <;> decide)
    (by rcases hhead with hhead | hhead <;> rw [hhead] <;> decide) heq
  rw [hsame] at hscope
  rcases hhead with hhead | hhead
  · rw [hhead] at hscope
    cases hambient : scope.ambient <;> simp [hambient] at hscope
  · rw [hhead] at hscope
    cases hambient : scope.ambient <;> simp [hambient] at hscope

theorem interface_ne_typedef (interface : Interface) (typedef : Typedef)
    (r s : List (List Char)) :
    rows indent (interfaceLines interface) ++ r ≠
      rows indent [.flush (typedefText typedef)] ++ s := by
  intro heq
  have hnone : rows indent [.flush (typedefText typedef)] ++ s =
      rows indent (leadingLines "") ++ row indent (typedefText typedef) :: s := rfl
  rw [interfaceLines, rows_block, hnone] at heq
  obtain ⟨-, hsame, -⟩ := leading_inj (by rw [head?_interfaceHead]; decide)
    (by rw [head?_typedefText]; decide) heq
  have hhead := head?_interfaceHead interface.name
  rw [hsame, head?_typedefText] at hhead
  exact absurd hhead (by decide)

theorem rows_methods (methods : List Method) :
    rows indent (callableLines (.methods methods)) =
      methods.map fun method => row indent (methodText method) := by
  rw [rows, callableLines, List.map_map]
  rfl

/-! ## Canonical forms -/

/-- A way of calling is a list of methods, which may be empty, or a call signature. -/
theorem callable_cases {callable : Callable} (hcallable : callable.Plain) :
    (∃ methods : List Method, (∀ method ∈ methods, method.Plain) ∧
        callableLines callable = callableLines (.methods methods) ∧
        callable.canonical = (Callable.methods methods).canonical) ∨
      ∃ signature : Signature, signature.Plain ∧ callable = .signature signature := by
  cases callable with
  | none => exact Or.inl ⟨[], by simp, rfl, rfl⟩
  | methods methods => exact Or.inl ⟨methods, hcallable, rfl, rfl⟩
  | signature signature => exact Or.inr ⟨signature, hcallable, rfl⟩

theorem declarationLines_canonical (declared : Declaration) :
    declarationLines declared.canonical = declarationLines declared := by
  cases declared with
  | typedef declared => rfl
  | interface declared =>
    obtain ⟨name, comment, properties, callable⟩ := declared
    cases callable with
    | none => rfl
    | signature signature => rfl
    | methods methods => cases methods <;> rfl

/-- A tree is written like its canonical form. -/
theorem namespaceLines_canonical (scope : Namespace) :
    namespaceLines scope.canonical = namespaceLines scope := by
  induction scope using Namespace.induction with
  | step scope ih =>
    have hchildren : ∀ child ∈ scope.namespaces,
        Line.flush "" :: namespaceLines child.canonical = .flush "" :: namespaceLines child :=
      fun child hchild => congrArg (List.cons _) (ih child hchild)
    rw [namespaceLines_eq, namespaceLines_eq scope, Namespace.canonical_eq]
    simp only [List.flatMap_map, declarationLines_canonical]
    rw [List.flatMap_congr hchildren]

section Blank

variable (hblank : BlankText indent.unit)
include hblank

/-! ## Members -/

theorem methodRow_ne_blockEnd {method : Method} (hmethod : method.Plain)
    (rest : List (List Char)) :
    row (indent.deeper 1) (methodText method) ∉ (row indent blockEnd :: rest).head? := by
  intro heq
  obtain ⟨c, hc, hname⟩ := head?_methodText hmethod
  refine row_deeper_ne_blockEnd hblank ?_ (Option.mem_some_iff.mp heq).symm
  rintro hbrace
  rw [hc, Option.some.injEq] at hbrace
  rw [hbrace] at hname
  exact absurd hname (by decide)

/-- The methods of a block are not the beginning of a call signature. -/
theorem methods_ne_signature {methods : List Method} (hmethods : ∀ method ∈ methods, method.Plain)
    (signature : Signature) (r s : List (List Char)) :
    rows (indent.deeper 1) (callableLines (.methods methods)) ++ row indent blockEnd :: r ≠
      rows (indent.deeper 1) (callableLines (.signature signature)) ++ s := by
  intro heq
  obtain ⟨content, more, hlines, hhead⟩ := signatureLines_eq_cons signature
  rw [rows_methods, callableLines, hlines, rows_flush] at heq
  -- neither the end of the block nor a name starts with a bracket
  cases methods with
  | nil =>
    refine row_deeper_ne_blockEnd hblank ?_ (List.cons.inj heq).1.symm
    rw [hhead]
    decide
  | cons method methods =>
    have hcontent := row_inj.mp (List.cons.inj heq).1
    obtain ⟨c, hc, hname⟩ := head?_methodText (hmethods method List.mem_cons_self)
    rw [hcontent, hhead, Option.some.injEq] at hc
    rw [← hc] at hname
    exact absurd hname (by decide)

/-- How an interface is called is read back from its last rows, but for a list of no methods. -/
theorem callable_inj {callable other : Callable} (hcallable : callable.Plain)
    (hother : other.Plain) {r s : List (List Char)}
    (h : rows (indent.deeper 1) (callableLines callable) ++ row indent blockEnd :: r =
      rows (indent.deeper 1) (callableLines other) ++ row indent blockEnd :: s) :
    callable.canonical = other.canonical ∧ r = s := by
  rcases callable_cases hcallable with ⟨methods, hmethods, hlines, hcanonical⟩ |
      ⟨signature, hsignature, rfl⟩
  · rcases callable_cases hother with ⟨others, hothers, hlines', hcanonical'⟩ |
        ⟨signature, -, rfl⟩
    · rw [hlines, hlines', rows_methods, rows_methods] at h
      obtain ⟨hsame, hrest⟩ := map_append_inj
        (fun method hmethod other hother heq => methodText_inj (hmethods method hmethod)
          (hothers other hother) (row_inj.mp heq))
        (fun method hmethod => methodRow_ne_blockEnd hblank (hothers method hmethod) r)
        (fun method hmethod => methodRow_ne_blockEnd hblank (hmethods method hmethod) s) h
      exact ⟨by rw [hcanonical, hcanonical', hsame], (List.cons.inj hrest).2⟩
    · rw [hlines] at h
      exact absurd h (methods_ne_signature hblank hmethods _ _ _)
  · -- a call signature ends by itself, so that nothing needs to be known of what follows
    rcases callable_cases hother with ⟨others, hothers, hlines', -⟩ | ⟨called, hcalled, rfl⟩
    · rw [hlines'] at h
      exact absurd h.symm (methods_ne_signature hblank hothers _ _ _)
    · obtain ⟨rfl, hrest⟩ := signature_inj hsignature hcalled h
      exact ⟨rfl, (List.cons.inj hrest).2⟩

/-- What follows the properties of an interface does not start like a property. -/
theorem propertyRow_ne_callable {property : Property} (hproperty : property.Plain)
    {callable : Callable} (hcallable : callable.Plain) (rest : List (List Char)) :
    row (indent.deeper 1) (propertyText property) ∉
      (rows (indent.deeper 1) (callableLines callable) ++ row indent blockEnd :: rest).head? := by
  intro heq
  obtain ⟨c, hc, hname⟩ := head?_propertyText hproperty
  -- a first character that no name has
  have hother : ∀ d, (propertyText property).toList.head? = some d → nameChar d = false →
      False := by
    intro d hd hplain
    rw [hc, Option.some.injEq] at hd
    rw [hd, hplain] at hname
    exact Bool.false_ne_true hname
  rcases callable_cases hcallable with ⟨methods, hmethods, hlines, -⟩ | ⟨signature, -, rfl⟩
  · rw [hlines, rows_methods] at heq
    cases methods with
    | nil =>
      refine row_deeper_ne_blockEnd hblank ?_ (Option.mem_some_iff.mp heq).symm
      exact fun hbrace => hother _ hbrace (by decide)
    | cons method methods =>
      have hcontent := row_inj.mp (Option.mem_some_iff.mp heq)
      exact propertyText_ne_methodText hproperty (hmethods method List.mem_cons_self)
        hcontent.symm
  · obtain ⟨content, more, hlines, hhead⟩ := signatureLines_eq_cons signature
    rw [callableLines, hlines, rows_flush] at heq
    have hcontent := row_inj.mp (Option.mem_some_iff.mp heq)
    rw [hcontent] at hhead
    exact hother _ hhead (by decide)

/-! ## Declarations -/

/-- An interface is read back from its block: its comment, its head, the rows that are properties,
and the rows behind these, which say how it is called. -/
theorem interface_inj {interface other : Interface} (hinterface : interface.Plain)
    (hother : other.Plain) {r s : List (List Char)}
    (h : rows indent (interfaceLines interface) ++ r = rows indent (interfaceLines other) ++ s) :
    interface.canonical = other.canonical ∧ r = s := by
  rw [interfaceLines, interfaceLines, rows_block, rows_block] at h
  obtain ⟨hcomment, hhead, h⟩ := leading_inj (by rw [head?_interfaceHead]; decide)
    (by rw [head?_interfaceHead]; decide) h
  rw [rows_append, rows_append, List.append_assoc, List.append_assoc] at h
  have hproperties : ∀ properties : List Property,
      rows (indent.deeper 1) (properties.map fun property => .flush (propertyText property)) =
        properties.map fun property => row (indent.deeper 1) (propertyText property) := by
    intro properties
    rw [rows, List.map_map]
    rfl
  rw [hproperties, hproperties] at h
  -- the properties end where a method, a call signature or the end of the block starts
  obtain ⟨hsame, h⟩ := map_append_inj
    (fun property hproperty another hanother heq =>
      propertyText_inj (hinterface.properties property hproperty)
        (hother.properties another hanother) (row_inj.mp heq))
    (fun property hproperty => propertyRow_ne_callable hblank
      (hother.properties property hproperty) hinterface.callable r)
    (fun property hproperty => propertyRow_ne_callable hblank
      (hinterface.properties property hproperty) hother.callable s) h
  obtain ⟨hcallable, hrest⟩ := callable_inj hblank hinterface.callable hother.callable h
  refine ⟨?_, hrest⟩
  rw [Interface.canonical, Interface.canonical, Interface.mk.injEq]
  exact ⟨interfaceHead_inj hhead, hcomment, hsame, hcallable⟩

theorem declaration_inj {declared other : Declaration} (hdeclared : declared.Plain)
    (hother : other.Plain) {r s : List (List Char)}
    (h : rows indent (declarationLines declared) ++ r =
      rows indent (declarationLines other) ++ s) :
    declared.canonical = other.canonical ∧ r = s := by
  cases declared with
  | interface declared =>
    cases other with
    | interface other =>
      obtain ⟨hsame, hrest⟩ := interface_inj hblank hdeclared hother h
      exact ⟨congrArg Declaration.interface hsame, hrest⟩
    | typedef other => exact absurd h (interface_ne_typedef declared other r s)
  | typedef declared =>
    cases other with
    | interface other => exact absurd h.symm (interface_ne_typedef other declared s r)
    | typedef other =>
      obtain ⟨hcontent, hrest⟩ := rows_flush_inj.mp h
      have hsame := typedefText_inj hdeclared hother hcontent
      exact ⟨congrArg Declaration.typedef hsame, hrest⟩

/-! ## Namespaces -/

/-- The line without content in front of a member of a namespace does not end it. -/
theorem emptyRow_ne_blockEnd (lines : List Line) (r s : List (List Char)) :
    rows (indent.deeper 1) (.flush "" :: lines) ++ r ≠ row indent blockEnd :: s := by
  intro heq
  have hnone : "".toList.head? ≠ some '\x7d' := by decide
  exact row_deeper_ne_blockEnd hblank hnone (List.cons.inj heq).1

/-- Types are read back one by one up to the end of their namespace. -/
theorem declarations_inj {types others : List Declaration}
    (htypes : ∀ declared ∈ types, declared.Plain) (hothers : ∀ other ∈ others, other.Plain)
    {r s : List (List Char)}
    (h : rows (indent.deeper 1)
          (types.flatMap fun declared => .flush "" :: declarationLines declared) ++
        row indent blockEnd :: r =
      rows (indent.deeper 1)
          (others.flatMap fun declared => .flush "" :: declarationLines declared) ++
        row indent blockEnd :: s) :
    types.map (·.canonical) = others.map (·.canonical) ∧ r = s := by
  have hdeeper : BlankText (indent.deeper 1).unit := hblank
  rw [rows_flatMap, rows_flatMap] at h
  obtain ⟨hsame, hrest⟩ := flatMap_append_inj
    (fun declared hdeclared other hother r s heq =>
      declaration_inj hdeeper (htypes declared hdeclared) (hothers other hother)
        (rows_flush_inj.mp heq).2)
    (fun other _ r => emptyRow_ne_blockEnd hblank _ _ _)
    (fun declared _ r => emptyRow_ne_blockEnd hblank _ _ _) h
  exact ⟨hsame, (List.cons.inj hrest).2⟩

/-- What follows the children of a namespace is not another child. -/
theorem child_ne_declarations (child : Namespace) (types : List Declaration)
    (r s : List (List Char)) :
    rows (indent.deeper 1) (.flush "" :: namespaceLines child) ++ s ≠
      rows (indent.deeper 1)
          (types.flatMap fun declared => .flush "" :: declarationLines declared) ++
        row indent blockEnd :: r := by
  cases types with
  | nil => exact emptyRow_ne_blockEnd hblank _ _ _
  | cons declared types =>
    intro heq
    rw [List.flatMap_cons, rows_append, List.append_assoc] at heq
    exact namespace_ne_declaration child declared _ _ (rows_flush_inj.mp heq).2

/-- By induction on why the first scope is plain. Its children are read back one after the other,
and then its types. -/
theorem namespace_inj {first second : Namespace} (hfirst : first.Plain) (hsecond : second.Plain)
    {r s : List (List Char)}
    (h : rows indent (namespaceLines first) ++ r = rows indent (namespaceLines second) ++ s) :
    first.canonical = second.canonical ∧ r = s := by
  -- the children stand one level deeper, and more lines follow each of them
  induction hfirst generalizing second indent r s with
  | @intro first hname hcomment _ htypes ih =>
    obtain ⟨hname', hcomment', hchildren', htypes'⟩ := hsecond
    have hdeeper : BlankText (indent.deeper 1).unit := hblank
    have hheads : ∀ scope : Namespace,
        (namespaceHead scope.ambient scope.name).toList.head? ≠ some '/' := by
      intro scope
      rw [head?_namespaceHead]
      cases scope.ambient <;> decide
    rw [namespaceLines_eq, namespaceLines_eq, rows_block, rows_block] at h
    obtain ⟨hcomment, hhead, h⟩ := leading_inj (hheads first) (hheads second) h
    obtain ⟨hambient, hname⟩ := namespaceHead_inj hhead
    rw [rows_append, rows_append, List.append_assoc, List.append_assoc,
      rows_flatMap _ (fun child => .flush "" :: namespaceLines child) first.namespaces,
      rows_flatMap _ (fun child => .flush "" :: namespaceLines child) second.namespaces] at h
    -- the children end where the first type or the end of the block starts
    obtain ⟨hchildren, h⟩ := flatMap_append_inj
      (fun child hchild other hother r s heq =>
        ih child hchild hdeeper (hchildren' other hother) (rows_flush_inj.mp heq).2)
      (fun other _ s => child_ne_declarations hblank other first.types r s)
      (fun child _ s' => child_ne_declarations hblank child second.types s s') h
    obtain ⟨htypes, hrest⟩ := declarations_inj hblank htypes htypes' h
    refine ⟨?_, hrest⟩
    rw [Namespace.canonical_eq, Namespace.canonical_eq, Namespace.mk.injEq]
    exact ⟨hname, hambient, hcomment, hchildren, htypes⟩

end Blank

/-! ## Texts -/

/-- **Rendering loses nothing**: plain trees have the same text at an indentation of
spaces and tab characters exactly if they are the same, up to empty lists of methods. -/
theorem render_eq_render_iff (hblank : BlankText indent.unit) {first second : Namespace}
    (hfirst : first.Plain) (hsecond : second.Plain) :
    render indent first = render indent second ↔ first.canonical = second.canonical := by
  rw [render, render, writeNamespace_eq_lines, writeNamespace_eq_lines]
  constructor
  · -- the text gives the rows, and the rows give the tree
    intro h
    have hrows := rows_eq_of_join_eq hblank (unbroken_namespaceLines hfirst)
      (unbroken_namespaceLines hsecond) h
    exact (namespace_inj hblank hfirst hsecond (congrArg (· ++ []) hrows)).1
  · -- the lines are those of the canonical form
    intro h
    rw [← namespaceLines_canonical first, ← namespaceLines_canonical second, h]

/-- A namespace with one interface, which is called in a given way. -/
def sample (callable : Callable) : Namespace where
  name := "Protocol"
  ambient := true
  namespaces := [{
    name := "Media"
    comment := "Streams."
    types := [.interface {
      name := "Source"
      properties := [⟨"id", "string", true, "of the source"⟩]
      callable } ] }]

theorem plain_sample {callable : Callable} (hcallable : callable.Plain) :
    (sample callable).Plain := by
  have hnames : PlainName "Protocol" ∧ PlainName "Media" ∧ PlainName "Source" := by decide
  have hcomments : OneLine "" ∧ OneLine "Streams." := by decide
  refine .intro hnames.1 hcomments.1 ?_ (fun declared hdeclared => by cases hdeclared)
  intro child hchild
  rw [List.mem_singleton.mp hchild]
  refine .intro hnames.2.1 hcomments.2 (fun child hchild => by cases hchild) ?_
  intro declared hdeclared
  rw [List.mem_singleton.mp hdeclared]
  refine ⟨hnames.2.2, hcomments.1, ?_, hcallable⟩
  intro property hproperty
  rw [List.mem_singleton.mp hproperty]
  exact ⟨by decide, by decide, by decide⟩

theorem render_sample_methods_nil :
    BlankText (Indent.mk 1 "\t ").unit ∧ (sample .none).Plain ∧ (sample (.methods [])).Plain ∧
      render ⟨1, "\t "⟩ (sample .none) = render ⟨1, "\t "⟩ (sample (.methods [])) := by
  have hnone : (sample .none).Plain := plain_sample trivial
  have hnil : (sample (.methods [])).Plain :=
    plain_sample (fun method hmethod => by cases hmethod)
  exact ⟨by decide, hnone, hnil, (render_eq_render_iff (by decide) hnone hnil).mpr rfl⟩

end Ambient.Layout
