import DocLint.Policy.Resolution

/-!
# Policy Summaries

A policy at a glance: its sets of names sorted and without repetition, and how many names it knows.
-/

namespace DocLint

/-- Names in the order of their code points, each once. -/
def sortedNames (names : List String) : List String :=
  names.eraseDups.mergeSort fun a b => decide (a ≤ b)

namespace Policy

/-- All names that a policy knows, sorted. -/
def allowedNames (policy : Policy) : List String :=
  sortedNames (policy.builtinNames ++ policy.definedNames ++ policy.preferenceNames ++
    policy.targets ++ policy.structuredNames)

/-- A policy at a glance. -/
structure Summary where
  definedNames : List String
  preferenceNames : List String
  structuredNames : List String
  preferences : Dict Preference
  jsxExempt : Bool
  builtinCount : Nat
  synonymCount : Nat
  allowedBeyondBuiltin : List String
  allowedCount : Nat
  deriving DecidableEq, Repr

/-- The summary of a policy. -/
def summary (policy : Policy) : Summary :=
  { definedNames := sortedNames policy.definedNames
    preferenceNames := sortedNames policy.preferenceNames
    structuredNames := sortedNames policy.structuredNames
    preferences := policy.preferences
    jsxExempt := policy.jsxExempt
    -- Names are counted once each, synonyms by their entries.
    builtinCount := (sortedNames policy.builtinNames).length
    synonymCount := policy.synonyms.length
    allowedBeyondBuiltin := policy.allowedNames.filter fun name =>
      !policy.builtinNames.contains name
    allowedCount := policy.allowedNames.length }

end Policy

end DocLint
