import SearchConfig.Text.Basic

/-!
# Handles

A workspace holds objects of a few kinds, and each of them is known by a handle.
-/

namespace SearchConfig

/-- The kinds of objects that a workspace holds. -/
inductive Kind where
  | config
  | repository
  | pattern
  | linker
  | secret
  | dictionary
  deriving DecidableEq, Inhabited

/-- What an object is known by: one object can be part of several others. -/
structure Handle where
  kind : Kind
  number : Nat
  deriving DecidableEq, Inhabited

namespace Kind

def name : Kind → Text
  | config => "Config"
  | repository => "Repository"
  | pattern => "URLPattern"
  | linker => "URLResolver"
  | secret => "SecretMessage"
  | dictionary => "dict"

/-- Is an object of the kind a record of declared fields? -/
def isModel : Kind → Bool
  | config | repository | pattern => true
  | _ => false

end Kind

end SearchConfig
