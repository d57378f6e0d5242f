/-
Glob patterns.

A question mark stands for any character, a star for any characters, and brackets for
one character of a set, or with `!` for one outside it. A set lists characters and
ranges; its first character may be a closing bracket. Two stars stand for any number of
directories, and must be a whole part of the path. Every other character stands for
itself.

The pattern as a whole is checked first, and then each of its parts is read on its own,
so a set must not contain a slash. The position in an error counts characters.
-/
import Ambient.Files.Path

set_option autoImplicit false

namespace Ambient.Glob

/-! ## Types -/

/-- A member of a set: a character, or all characters of a range. -/
inductive Member where
  | single (char : Char)
  | range (first last : Char)
  deriving DecidableEq, Repr

/-- Whether a character belongs to a member. -/
def Member.has (member : Member) (c : Char) : Bool :=
  match member with
  | .single char => c == char
  | .range first last => first ≤ c && c ≤ last

/-- An element of a pattern. -/
inductive Token where
  | char (char : Char)
  | anyChar
  | anyText
  | anyDirectories
  | oneOf (members : List Member)
  | noneOf (members : List Member)
  deriving DecidableEq, Repr

/-- What is wrong with a pattern. -/
inductive Problem where
  | tooManyStars
  | notWholePart
  | badSet
  deriving DecidableEq, Repr

/-- A pattern that cannot be read: what is wrong, and near which character. -/
structure PatternError where
  position : Nat
  problem : Problem
  deriving DecidableEq, Repr

/-- The wording of a problem. -/
def Problem.message : Problem → String
  | .tooManyStars => "wildcards are either regular `*` or recursive `**`"
  | .notWholePart => "recursive wildcards must form a single path component"
  | .badSet => "invalid range pattern"

/-- The wording of a pattern error. -/
def PatternError.message (error : PatternError) : String :=
  "Pattern syntax error near position " ++ toString error.position ++ ": " ++
    error.problem.message

/-! ## Reading -/

/-- The members of a set, from the characters between its brackets. -/
def members : List Char → List Member
  | first :: '-' :: last :: rest => .range first last :: members rest
  | char :: rest => .single char :: members rest
  | [] => []

/-- Splits a text behind its first closing bracket: the part before, and the rest. -/
def splitSet : List Char → Option (List Char × List Char)
  | [] => none
  | c :: rest =>
    if c = ']' then some ([], rest)
    else (splitSet rest).map fun (before, after) => (c :: before, after)

/-- Reads a set after its opening bracket. A closing bracket in the first place is a
member. -/
def readSet : List Char → Option (Token × List Char)
  | '!' :: first :: rest =>
    (splitSet rest).map fun (more, after) => (.noneOf (members (first :: more)), after)
  | '!' :: [] => none
  | first :: rest =>
    (splitSet rest).map fun (more, after) => (.oneOf (members (first :: more)), after)
  | [] => none

/-- The tokens of a pattern from the character at `position` on, which follows `before`.
Each round reads a character at least. -/
def readTokens : Nat → Nat → Option Char → List Char → Except PatternError (List Token)
  | 0, _, _, _ => .ok []
  | _, _, _, [] => .ok []
  | rounds + 1, position, before, c :: rest =>
    if c = '?' then
      (.anyChar :: ·) <$> readTokens rounds (position + 1) (some c) rest
    else if c = '*' then
      let stars := 1 + (rest.takeWhile (· = '*')).length
      let after := rest.dropWhile (· = '*')
      if 2 < stars then .error ⟨position + 2, .tooManyStars⟩
      else if stars = 1 then
        (.anyText :: ·) <$> readTokens rounds (position + 1) (some c) rest
      else if position ≠ 0 ∧ before ≠ some '/' then .error ⟨position - 1, .notWholePart⟩
      else
        match after with
        | [] => .ok [.anyDirectories]
        | next :: more =>
          if next = '/' then
            (.anyDirectories :: ·) <$> readTokens rounds (position + 3) (some '/') more
          else .error ⟨position + 2, .notWholePart⟩
    else if c = '[' then
      match readSet rest with
      | none => .error ⟨position, .badSet⟩
      | some (token, after) =>
        (token :: ·) <$>
          readTokens rounds (position + 1 + (rest.length - after.length)) (some ']') after
    else (.char c :: ·) <$> readTokens rounds (position + 1) (some c) rest

/-- The tokens of a pattern. -/
def tokens (pattern : List Char) : Except PatternError (List Token) :=
  readTokens pattern.length 0 none pattern

/-! ## Parts -/

/-- A part of a pattern: a name, a pattern for names, or any number of directories. -/
inductive Part where
  | name (name : String)
  | wild (tokens : List Token)
  | directories
  deriving DecidableEq, Repr

/-- The text of tokens that all stand for themselves. -/
def plain? : List Token → Option (List Char)
  | [] => some []
  | .char c :: rest => (plain? rest).map (c :: ·)
  | _ :: _ => none

/-- The part that tokens make. -/
def Part.ofTokens (tokens : List Token) : Part :=
  match plain? tokens with
  | some text => .name (String.ofList text)
  | none => if tokens.contains .anyDirectories then .directories else .wild tokens

/-- A pattern: where it starts, its parts, and whether it wants directories only. -/
structure Pattern where
  absolute : Bool
  parts : List Part
  directoriesOnly : Bool

/-- Drops a last part that is empty. -/
def dropEmptyLast (parts : List (List Char)) : List (List Char) :=
  if parts.getLast? == some [] then parts.dropLast else parts

/-- Reads a pattern. -/
def Pattern.read (text : String) : Except PatternError Pattern := do
  let _ ← tokens text.toList
  let absolute := Files.isAbsolute text
  let relative := if absolute then text.toList.drop 1 else text.toList
  let parts ← (dropEmptyLast (Files.splitSlashes relative)).mapM tokens
  return ⟨absolute, parts.map Part.ofTokens, Files.endsInSlash text⟩

/-! ## Matching -/

/-- A text and everything that is left of it after its first characters. -/
def endings : List Char → List (List Char)
  | [] => [[]]
  | c :: rest => (c :: rest) :: endings rest

/-- Whether tokens match a whole text. -/
def matchTokens : List Token → List Char → Bool
  | [], text => text.isEmpty
  | .anyText :: rest, text => (endings text).any (matchTokens rest)
  | .anyDirectories :: rest, text => (endings text).any (matchTokens rest)
  | .char _ :: _, [] => false
  | .char char :: rest, c :: text => c == char && matchTokens rest text
  | .anyChar :: _, [] => false
  | .anyChar :: rest, _ :: text => matchTokens rest text
  | .oneOf _ :: _, [] => false
  | .oneOf members :: rest, c :: text => members.any (·.has c) && matchTokens rest text
  | .noneOf _ :: _, [] => false
  | .noneOf members :: rest, c :: text => !members.any (·.has c) && matchTokens rest text

/-- Whether a part matches a name. -/
def Part.accepts (part : Part) (name : String) : Bool :=
  match part with
  | .name text => name == text
  | .wild tokens => matchTokens tokens name.toList
  | .directories => true

/-- Whether a part starts with a point that is written out. -/
def Part.startsWithPoint : Part → Bool
  | .wild (.char '.' :: _) => true
  | _ => false

end Ambient.Glob
