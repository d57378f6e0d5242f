/-
References as they stand in declarations, and what they resolve to.

A reference is a text. Array markers at its end do not matter, and the rest is split at
every point into segments, of which there is always at least one and any may be empty.

Names are looked up from a chain of scopes, the innermost first. A single segment is
sought in every scope. A dotted path belongs to the innermost scope that has a child
namespace named by its first segment, and is followed from that child alone: where it
leads nowhere there, outer scopes are not tried.
-/
import Ambient.Tree.Basic
import Ambient.Schema.Reference

set_option autoImplicit false

namespace Ambient.Scope

open Ambient.Tree

/-! ## Taking a reference apart -/

/-- Drops array markers from the front of a reversed text. -/
def dropMarkers : List Char → List Char
  | ']' :: '[' :: rest => dropMarkers rest
  | text => text

/-- A text without the array markers at its end. -/
def withoutMarkers (text : List Char) : List Char := (dropMarkers text.reverse).reverse

/-- The parts between the points of a text. -/
def segments : List Char → List (List Char)
  | [] => [[]]
  | c :: rest =>
    if c = '.' then [] :: segments rest
    else
      match segments rest with
      | [] => [[c]]
      | part :: parts => (c :: part) :: parts

/-- The text that a reference names, without array markers. -/
def target (reference : String) : String := String.ofList (withoutMarkers reference.toList)

/-- The names that a dotted text passes through. -/
def path (text : String) : List String := (segments text.toList).map String.ofList

/-- The names that always resolve. -/
def builtins : List String := ["number", "string", "boolean", "any", "void"]

/-! ## Looking it up -/

/-- Whether a path of child namespaces leads to a type. -/
def leadsToType (scope : Namespace) : List String → Bool
  | [] => false
  | [name] => (scope.findType? name).isSome
  | name :: more =>
    match scope.findNamespace? name with
    | some child => leadsToType child more
    | none => false

/-- Whether a path resolves in a chain of scopes, the innermost first. -/
def resolvesPath (chain : List Namespace) : List String → Bool
  | [] => false
  | [name] => chain.any fun scope => (scope.findType? name).isSome
  | head :: more =>
    match chain.findSome? (·.findNamespace? head) with
    | some child => leadsToType child more
    | none => false

/-- Whether a reference resolves in a chain of scopes, the innermost first. -/
def resolves (chain : List Namespace) (reference : String) : Bool :=
  builtins.contains (target reference) || resolvesPath chain (path (target reference))

end Ambient.Scope
