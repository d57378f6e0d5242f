/-
Domains and whole protocols, in either style.

A protocol is one ambient root namespace whose children are the domains, in the order
in which they are given.
-/
import Ambient.Convert.Separated
import Ambient.Convert.Unified

set_option autoImplicit false

namespace Ambient.Convert

open Ambient.Schema

/-- A domain as a namespace, laid out in the style of the settings. -/
def domain (settings : Settings) (source : Domain) : Tree.Namespace :=
  match settings.style with
  | .separated => Separated.domain settings source
  | .unified => Unified.domain settings source

/-- All domains in one ambient namespace. -/
def protocol (settings : Settings) (root : String) (domains : List Domain) : Tree.Namespace :=
  { name := root
    ambient := true
    comment := "Root namespace holding all " ++ root ++ " protocol related interfaces."
    namespaces := domains.map (domain settings) }

end Ambient.Convert
