import DocLint.Policy.Basic

/-!
# Resolving Tag Names

What a policy says of one name. The checks come in a fixed order: the exemption of JSX tags, membership
among the known names, the names that preferences steer to (which are never steered elsewhere), the
preference for the name, and last the synonyms of the mode.
-/

namespace DocLint

/-- What a policy says of a name. -/
inductive Resolution where
  -- Exempt and valid names are both passed over, but a host may tell them apart.
  | exempt
  | valid
  | preferred (name : String) (message : Option String)
  | blocked (message : String)
  | invalid
  deriving DecidableEq, Repr, Inhabited

namespace Resolution

/-- The word for what a policy says. -/
def kind : Resolution → String
  | .exempt => "exempt"
  | .valid => "valid"
  | .preferred _ _ => "preferred"
  | .blocked _ => "blocked"
  | .invalid => "invalid"

/-- The words for all that a policy can say. -/
def kinds : List String := ["exempt", "valid", "preferred", "blocked", "invalid"]

/-- The name to be used instead. -/
def preferredName? : Resolution → Option String
  | .preferred name _ => some name
  | _ => none

/-- The message that goes with a resolution. -/
def message? : Resolution → Option String
  | .preferred _ message => message
  | .blocked message => some message
  | _ => none

end Resolution

namespace Policy

/-- The message about a blocked tag without a message of its own. -/
def blockedMessage (name : String) : String := "Blacklisted tag found (`@" ++ name ++ "`)"

/-- A message that is there and not empty, or else another. -/
def messageOr (message : Option String) (other : String) : String :=
  match message with
  | some text => if text = "" then other else text
  | none => other

/-- What the synonyms of the mode say of a known name. The name that a synonym stands for is taken
as it is: no preference for that name is looked at. -/
def resolveSynonym (policy : Policy) (name : String) : Resolution :=
  match Dict.get? policy.synonyms name with
  | none => .valid
  | some canonical => if canonical = name then .valid else .preferred canonical none

/-- What a preference says of a name. A name that is preferred to itself is valid. -/
def resolvePreference (name : String) : Preference → Resolution
  | .block message => .blocked (messageOr message (blockedMessage name))
  | .rename target message => if target = name then .valid else .preferred target message

/-- What a policy says of a name. Unknown names are turned down before any preference is looked at,
but every name with a preference is known, even if the preference is malformed. Of known names the
preference goes before the synonyms of the mode. -/
def resolve (policy : Policy) (name : String) : Resolution :=
  if policy.isExempt name then .exempt
  else if !policy.allows name then .invalid
  -- A name that something is steered to is never steered on, even if there is a preference for it.
  else if policy.targets.contains name then .valid
  else
    match Dict.get? policy.preferences name with
    | some preference => resolvePreference name preference
    | none => policy.resolveSynonym name

end Policy

end DocLint
