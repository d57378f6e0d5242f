/-
Reading the members of an interface back from their lines.

Each text that is put together in a line is followed by something that shows where it
ends: a name by a mark, a bracket or a colon, a type text by punctuation, a comment of a
parameter by the end of the comment, and a comment at the end of a line by nothing. So
plain members of equal lines are equal. The statements about texts inside of a line are
about the line from there on, whatever follows.
-/
import Ambient.Layout.Writing
import Ambient.Proofs.Text.Split
import Ambient.Proofs.Tree.Plain

set_option autoImplicit false

namespace Ambient.Layout

open Ambient.Tree Ambient.Text

/-! ## Where names and types end -/

/-- What follows does not go on with a name. -/
def EndsName (rest : List Char) : Prop := ∀ c ∈ rest.head?, ¬ nameChar c = true

/-- What follows does not go on with a type text. -/
def EndsType (rest : List Char) : Prop := ∀ c ∈ rest.head?, ¬ typeChar c = true

/-- What follows goes on neither with a type text nor with a comment after it. -/
def EndsParameter (rest : List Char) : Prop :=
  ∀ c ∈ rest.head?, ¬ typeChar c = true ∧ c ≠ ' '

theorem endsName_cons {c : Char} (hc : nameChar c = false) (rest : List Char) :
    EndsName (c :: rest) := by
  rintro d hd
  rw [← Option.mem_some_iff.mp hd, hc]
  exact Bool.false_ne_true

theorem endsType_cons {c : Char} (hc : typeChar c = false) (rest : List Char) :
    EndsType (c :: rest) := by
  rintro d hd
  rw [← Option.mem_some_iff.mp hd, hc]
  exact Bool.false_ne_true

theorem endsParameter_cons {c : Char} (hc : typeChar c = false) (hspace : c ≠ ' ')
    (rest : List Char) : EndsParameter (c :: rest) := by
  rintro d hd
  rw [← Option.mem_some_iff.mp hd, hc]
  exact ⟨Bool.false_ne_true, hspace⟩

theorem endsParameter_nil : EndsParameter [] := by
  intro c hc
  cases hc

/-- A name is read back by taking characters as long as a name can go on. -/
theorem name_inj {name other : String} (hname : PlainName name) (hother : PlainName other)
    {r s : List Char} (hr : EndsName r) (hs : EndsName s)
    (h : name.toList ++ r = other.toList ++ s) : name = other ∧ r = s := by
  obtain ⟨hsplit, hrest⟩ := append_inj_of_head hname.2 hother.2 hr hs h
  exact ⟨String.toList_inj.mp hsplit, hrest⟩

/-- A type text is read back in the same way, from more characters. -/
theorem type_inj {type other : String} (htype : PlainType type) (hother : PlainType other)
    {r s : List Char} (hr : EndsType r) (hs : EndsType s)
    (h : type.toList ++ r = other.toList ++ s) : type = other ∧ r = s := by
  obtain ⟨hsplit, hrest⟩ := append_inj_of_head htype.2 hother.2 hr hs h
  exact ⟨String.toList_inj.mp hsplit, hrest⟩

/-! ## Slots -/

/-- A name with its mark and its type. -/
def slotText (name : String) (optional : Bool) (type : String) : String :=
  name ++ optionalMark optional ++ ": " ++ type

/-- A slot is a name, its mark, a colon and a space, and the type. -/
theorem toList_slotText (name type : String) (optional : Bool) :
    (slotText name optional type).toList =
      name.toList ++ ((optionalMark optional).toList ++ ':' :: ' ' :: type.toList) := by
  simp [slotText]

/-- Both a question mark and a colon end the name in front of them. -/
theorem endsName_mark (optional : Bool) (rest : List Char) :
    EndsName ((optionalMark optional).toList ++ ':' :: rest) := by
  cases optional with
  | false => exact endsName_cons (by decide) rest
  | true => exact endsName_cons (c := '?') (by decide) (':' :: rest)

/-- A question mark cannot be taken for the colon that follows a name without one. -/
theorem mark_inj {optional other : Bool} {r s : List Char}
    (h : (optionalMark optional).toList ++ ':' :: r = (optionalMark other).toList ++ ':' :: s) :
    optional = other ∧ r = s := by
  cases optional <;> cases other <;> simp_all [optionalMark]

/-- The three parts of a slot are read back one after the other, each up to what ends it. -/
theorem slotText_inj {name other type underlying : String} {optional mandatory : Bool}
    (hname : PlainName name) (hother : PlainName other) (htype : PlainType type)
    (hunderlying : PlainType underlying) {r s : List Char} (hr : EndsType r) (hs : EndsType s)
    (h : (slotText name optional type).toList ++ r =
      (slotText other mandatory underlying).toList ++ s) :
    (name = other ∧ optional = mandatory ∧ type = underlying) ∧ r = s := by
  simp only [toList_slotText, List.append_assoc, List.cons_append] at h
  obtain ⟨hname, h⟩ := name_inj hname hother (endsName_mark _ _) (endsName_mark _ _) h
  obtain ⟨hmark, h⟩ := mark_inj h
  obtain ⟨htype, hrest⟩ := type_inj htype hunderlying hr hs (List.cons.inj h).2
  exact ⟨⟨hname, hmark, htype⟩, hrest⟩

/-! ## Parameters -/

/-- The comment behind a parameter. -/
def remarkText (comment : String) : String :=
  if comment.isEmpty then "" else " /* " ++ comment ++ " */"

/-- A parameter is a slot and, if it has a comment, a remark behind it. -/
theorem parameterText_eq (parameter : Parameter) :
    parameterText parameter =
      slotText parameter.name parameter.optional parameter.type ++
        remarkText parameter.comment := by
  rw [parameterText, remarkText, slotText]
  split <;> simp [String.append_assoc]

theorem remarkText_empty : remarkText "" = "" := by decide

theorem toList_remarkText {comment : String} (hcomment : comment ≠ "") :
    (remarkText comment).toList =
      ' ' :: '/' :: '*' :: ' ' :: (comment.toList ++ [' ', '*', '/']) := by
  have hisEmpty : comment.isEmpty = false := by simpa using hcomment
  simp [remarkText, hisEmpty]

/-- Where there is a remark, its space ends the type, and otherwise what follows does. -/
theorem endsType_remark (comment : String) {rest : List Char} (hrest : EndsParameter rest) :
    EndsType ((remarkText comment).toList ++ rest) := by
  by_cases hcomment : comment = ""
  · rw [hcomment, remarkText_empty]
    exact fun c hc => (hrest c hc).1
  · rw [toList_remarkText hcomment]
    exact endsType_cons (by decide) _

/-- A remark ends where it is closed for the first time, which is why its comment must not close it
earlier. Whether there is one is told by the space in front. -/
theorem remark_inj {comment other : String} (hcomment : Uncut comment) (hother : Uncut other)
    {r s : List Char} (hr : EndsParameter r) (hs : EndsParameter s)
    (h : (remarkText comment).toList ++ r = (remarkText other).toList ++ s) :
    comment = other ∧ r = s := by
  -- a comment starts with a space, which neither of the ends does
  have hstart : ∀ {text : String} {rest tail : List Char}, text ≠ "" → EndsParameter rest →
      rest ≠ (remarkText text).toList ++ tail := by
    rintro text rest tail htext hrest rfl
    rw [toList_remarkText htext] at hrest
    exact (hrest ' ' rfl).2 rfl
  by_cases hempty : comment = ""
  · by_cases hblank : other = ""
    · rw [hempty, hblank] at h ⊢
      exact ⟨rfl, List.append_cancel_left h⟩
    · rw [hempty, remarkText_empty] at h
      exact absurd h (hstart hblank hr)
  · by_cases hblank : other = ""
    · rw [hblank, remarkText_empty] at h
      exact absurd h.symm (hstart hempty hs)
    · rw [toList_remarkText hempty, toList_remarkText hblank] at h
      simp only [List.cons_append, List.append_assoc, List.cons.injEq, true_and,
        List.nil_append] at h
      obtain ⟨hsplit, hrest⟩ := append_inj_of_closed (by decide) (by decide) hcomment hother h
      exact ⟨String.toList_inj.mp hsplit, hrest⟩

/-- A parameter is read back from a line, whatever follows it there. -/
theorem parameterText_inj {parameter other : Parameter} (hparameter : parameter.Plain)
    (hother : other.Plain) {r s : List Char} (hr : EndsParameter r) (hs : EndsParameter s)
    (h : (parameterText parameter).toList ++ r = (parameterText other).toList ++ s) :
    parameter = other ∧ r = s := by
  rw [parameterText_eq, parameterText_eq, String.toList_append, String.toList_append,
    List.append_assoc, List.append_assoc] at h
  obtain ⟨⟨hname, hmark, htype⟩, h⟩ := slotText_inj hparameter.name hother.name
    hparameter.type hother.type (endsType_remark _ hr) (endsType_remark _ hs) h
  obtain ⟨hcomment, hrest⟩ := remark_inj hparameter.uncut hother.uncut hr hs h
  cases parameter
  cases other
  refine ⟨?_, hrest⟩
  rw [Parameter.mk.injEq]
  exact ⟨hname, htype, hmark, hcomment⟩

/-! ## First characters -/

/-- A name is not empty, so that a text that starts with it starts with one of its characters. -/
theorem head?_append_of_plainName {name : String} (hname : PlainName name) (rest : List Char) :
    ∃ c, (name.toList ++ rest).head? = some c ∧ nameChar c = true := by
  obtain ⟨c, more, hchars⟩ := List.exists_cons_of_ne_nil
    (fun hnil => hname.1 (String.toList_eq_nil_iff.mp hnil))
  exact ⟨c, by rw [hchars]; rfl, hname.2 c (by rw [hchars]; exact List.mem_cons_self)⟩

theorem parameterText_append_ne_cons {parameter : Parameter} (hparameter : parameter.Plain)
    {c : Char} (hc : nameChar c = false) (r s : List Char) :
    (parameterText parameter).toList ++ r ≠ c :: s := by
  intro h
  rw [parameterText_eq, String.toList_append, toList_slotText, List.append_assoc,
    List.append_assoc] at h
  obtain ⟨d, hd, hname⟩ := head?_append_of_plainName hparameter.name _
  rw [h, List.head?_cons, Option.some.injEq] at hd
  rw [← hd, hc] at hname
  exact Bool.false_ne_true hname

/-! ## Lists of parameters -/

/-- The text of a list of parameters. -/
def parametersText (parameters : List Parameter) : String :=
  ", ".intercalate (parameters.map parameterText)

theorem parametersText_cons_cons (parameter next : Parameter) (more : List Parameter) :
    parametersText (parameter :: next :: more) =
      parameterText parameter ++ ", " ++ parametersText (next :: more) :=
  String.intercalate_cons_cons

/-- The second and later parameters of a list, up to the bracket that closes it. -/
def furtherText (parameters : List Parameter) (rest : List Char) : List Char :=
  match parameters with
  | [] => ')' :: rest
  | next :: more => ',' :: ' ' :: ((parameterText next).toList ++ furtherText more rest)

/-- A list of parameters is its first one and then the further ones, each behind a comma. -/
theorem toList_parametersText_append (parameter : Parameter) (more : List Parameter)
    (rest : List Char) :
    (parametersText (parameter :: more)).toList ++ ')' :: rest =
      (parameterText parameter).toList ++ furtherText more rest := by
  induction more generalizing parameter with
  | nil => simp [parametersText, furtherText]
  | cons next more ih =>
    have hseparator : ", ".toList = [',', ' '] := by decide
    rw [parametersText_cons_cons, String.toList_append, String.toList_append, hseparator,
      List.append_assoc, List.append_assoc, ih, furtherText]
    rfl

/-- A parameter of a list is followed by a comma or by the bracket. -/
theorem endsParameter_furtherText (parameters : List Parameter) (rest : List Char) :
    EndsParameter (furtherText parameters rest) := by
  cases parameters with
  | nil => exact endsParameter_cons (by decide) (by decide) rest
  | cons next more => exact endsParameter_cons (c := ',') (by decide) (by decide) _

/-- Further parameters are read back up to the bracket, by induction on the one list. -/
theorem furtherText_inj {parameters others : List Parameter}
    (hparameters : ∀ parameter ∈ parameters, parameter.Plain)
    (hothers : ∀ other ∈ others, other.Plain) {r s : List Char}
    (h : furtherText parameters r = furtherText others s) : parameters = others ∧ r = s := by
  -- a comma says that a parameter follows, and the bracket that none does
  induction parameters generalizing others with
  | nil =>
    cases others with
    | nil => exact ⟨rfl, (List.cons.inj h).2⟩
    | cons other others => exact absurd (List.cons.inj h).1 (by decide)
  | cons parameter parameters ih =>
    cases others with
    | nil => exact absurd (List.cons.inj h).1 (by decide)
    | cons other others =>
      rw [furtherText, furtherText, List.cons.injEq, List.cons.injEq] at h
      obtain ⟨hfirst, hmore⟩ := parameterText_inj (hparameters parameter List.mem_cons_self)
        (hothers other List.mem_cons_self) (endsParameter_furtherText _ _)
        (endsParameter_furtherText _ _) h.2.2
      obtain ⟨hmore, hrest⟩ := ih
        (fun next hnext => hparameters next (List.mem_cons_of_mem _ hnext))
        (fun next hnext => hothers next (List.mem_cons_of_mem _ hnext)) hmore
      exact ⟨by rw [hfirst, hmore], hrest⟩

/-- Parameters are read back up to the bracket that closes their list. An empty list is told by the
bracket that stands in the place of a name. -/
theorem parametersText_inj {parameters others : List Parameter}
    (hparameters : ∀ parameter ∈ parameters, parameter.Plain)
    (hothers : ∀ other ∈ others, other.Plain) {r s : List Char}
    (h : (parametersText parameters).toList ++ ')' :: r =
      (parametersText others).toList ++ ')' :: s) : parameters = others ∧ r = s := by
  cases parameters with
  | nil =>
    cases others with
    | nil => exact ⟨rfl, (List.cons.inj h).2⟩
    | cons other others =>
      rw [toList_parametersText_append] at h
      exact absurd h.symm
        (parameterText_append_ne_cons (hothers other List.mem_cons_self) (by decide) _ _)
  | cons parameter parameters =>
    cases others with
    | nil =>
      rw [toList_parametersText_append] at h
      exact absurd h
        (parameterText_append_ne_cons (hparameters parameter List.mem_cons_self) (by decide) _ _)
    | cons other others =>
      rw [toList_parametersText_append, toList_parametersText_append] at h
      obtain ⟨hfirst, hmore⟩ := parameterText_inj (hparameters parameter List.mem_cons_self)
        (hothers other List.mem_cons_self) (endsParameter_furtherText _ _)
        (endsParameter_furtherText _ _) h
      obtain ⟨hmore, hrest⟩ :=
        furtherText_inj (fun next hnext => hparameters next (List.mem_cons_of_mem _ hnext))
          (fun next hnext => hothers next (List.mem_cons_of_mem _ hnext)) hmore
      exact ⟨by rw [hfirst, hmore], hrest⟩

/-! ## Whole lines -/

theorem toList_propertyText (property : Property) :
    (propertyText property).toList =
      (slotText property.name property.optional property.type).toList ++
        ';' :: ' ' :: '/' :: '/' :: ' ' :: property.comment.toList := by
  simp [propertyText, slotText]

/-- A property is read back from its line. -/
theorem propertyText_inj {property other : Property} (hproperty : property.Plain)
    (hother : other.Plain) (h : propertyText property = propertyText other) :
    property = other := by
  rw [← String.toList_inj, toList_propertyText, toList_propertyText] at h
  obtain ⟨⟨hname, hmark, htype⟩, h⟩ := slotText_inj hproperty.name hother.name hproperty.type
    hother.type (endsType_cons (by decide) _) (endsType_cons (by decide) _) h
  simp only [List.cons.injEq, true_and, String.toList_inj] at h
  cases property
  cases other
  rw [Property.mk.injEq]
  exact ⟨hname, htype, hmark, h⟩

theorem toList_methodText (method : Method) :
    (methodText method).toList = method.name.toList ++ '(' ::
      ((parametersText method.parameters).toList ++ ')' :: ':' :: ' ' ::
        (method.returnType.toList ++ ';' :: ' ' :: '/' :: '/' :: ' ' ::
          method.comment.toList)) := by
  simp [methodText, parametersText]

/-- A method is read back from its line: its name ends at the bracket, and its comment with the
line. -/
theorem methodText_inj {method other : Method} (hmethod : method.Plain) (hother : other.Plain)
    (h : methodText method = methodText other) : method = other := by
  rw [← String.toList_inj, toList_methodText, toList_methodText] at h
  obtain ⟨hname, h⟩ := name_inj hmethod.name hother.name (endsName_cons (by decide) _)
    (endsName_cons (by decide) _) h
  obtain ⟨hparameters, h⟩ :=
    parametersText_inj hmethod.parameters hother.parameters (List.cons.inj h).2
  simp only [List.cons.injEq, true_and] at h
  obtain ⟨hreturnType, h⟩ := type_inj hmethod.returnType hother.returnType
    (endsType_cons (by decide) _) (endsType_cons (by decide) _) h
  simp only [List.cons.injEq, true_and, String.toList_inj] at h
  cases method
  cases other
  rw [Method.mk.injEq]
  exact ⟨hname, hparameters, hreturnType, h⟩

/-- The line of a property goes on after the name in a way in which no method does. -/
theorem propertyText_ne_methodText {property : Property} {method : Method}
    (hproperty : property.Plain) (hmethod : method.Plain) :
    propertyText property ≠ methodText method := by
  intro h
  rw [← String.toList_inj, toList_propertyText, toList_methodText, toList_slotText,
    List.append_assoc, List.append_assoc] at h
  -- after the name comes a question mark or a colon, and not a bracket
  obtain ⟨-, h⟩ := name_inj hproperty.name hmethod.name (endsName_mark _ _)
    (endsName_cons (by decide) _) h
  cases hoptional : property.optional <;> simp [hoptional, optionalMark] at h

theorem toList_typedefText (typedef : Typedef) :
    (typedefText typedef).toList = 't' :: 'y' :: 'p' :: 'e' :: ' ' :: (typedef.name.toList ++
      ' ' :: '=' :: ' ' :: (typedef.underlying.toList ++
        ';' :: ' ' :: '/' :: '/' :: ' ' :: typedef.comment.toList)) := by
  simp [typedefText]

/-- An alias is read back from its line. -/
theorem typedefText_inj {typedef other : Typedef} (htypedef : typedef.Plain)
    (hother : other.Plain) (h : typedefText typedef = typedefText other) : typedef = other := by
  rw [← String.toList_inj, toList_typedefText, toList_typedefText] at h
  simp only [List.cons.injEq, true_and] at h
  obtain ⟨hname, h⟩ := name_inj htypedef.name hother.name (endsName_cons (by decide) _)
    (endsName_cons (by decide) _) h
  simp only [List.cons.injEq, true_and] at h
  obtain ⟨hunderlying, h⟩ := type_inj htypedef.underlying hother.underlying
    (endsType_cons (by decide) _) (endsType_cons (by decide) _) h
  simp only [List.cons.injEq, true_and, String.toList_inj] at h
  cases typedef
  cases other
  rw [Typedef.mk.injEq]
  exact ⟨hname, hunderlying, h⟩

/-- The comment at the end of a call signature. -/
def trailingText (comment : String) : String :=
  if comment.isEmpty then "" else " // " ++ comment

/-- No comment and the empty comment are the same, so that what stands at the end of a line gives
the comment back. -/
theorem trailingText_inj {comment other : String}
    (h : trailingText comment = trailingText other) : comment = other := by
  rw [trailingText, trailingText] at h
  by_cases hempty : comment.isEmpty <;> by_cases hblank : other.isEmpty <;> simp_all

theorem toList_signatureEnd (signature : Signature) :
    (signatureEnd signature).toList =
      signature.returnType.toList ++ ';' :: (trailingText signature.comment).toList := by
  simp [signatureEnd, trailingText]

/-- What a signature returns and its comment are read back from its last line. -/
theorem signatureEnd_inj {signature other : Signature} (hsignature : signature.Plain)
    (hother : other.Plain) (h : signatureEnd signature = signatureEnd other) :
    signature.returnType = other.returnType ∧ signature.comment = other.comment := by
  rw [← String.toList_inj, toList_signatureEnd, toList_signatureEnd] at h
  obtain ⟨hreturnType, h⟩ := type_inj hsignature.returnType hother.returnType
    (endsType_cons (by decide) _) (endsType_cons (by decide) _) h
  exact ⟨hreturnType, trailingText_inj (String.toList_inj.mp (List.cons.inj h).2)⟩

end Ambient.Layout
