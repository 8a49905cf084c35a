set_option autoImplicit false

namespace Permits

/-- What a statement does to a permission. -/
inductive Effect where
  | grant
  | deny
  deriving DecidableEq

namespace Effect

def sign : Effect → String
  | grant => "+"
  | deny => "-"

def ofSign? (text : String) : Option Effect :=
  if text = grant.sign then some grant
  else if text = deny.sign then some deny
  else none

@[simp] theorem ofSign?_sign (effect : Effect) : ofSign? effect.sign = some effect := by
  cases effect <;> decide

def label : Effect → String
  | grant => "GRANT"
  | deny => "DENY"

def all : List Effect := [grant, deny]

end Effect

def wildcard : String := "*"

/-- The text of a resource path: its segments with colons between them. The app itself, which has
no segments, is the empty path. -/
def joinPath (segments : List String) : String := ":".intercalate segments

@[simp] theorem joinPath_nil : joinPath [] = "" := rfl

@[simp] theorem joinPath_singleton (segment : String) : joinPath [segment] = segment := rfl

/-- Writes a statement from the text of its parts. An empty resource path is left out together
with its colon. -/
def composeStatement (action permission app resource : String) : String :=
  action ++ permission ++ "@" ++ app ++ (if resource = "" then "" else ":" ++ resource)

/-- A statement in its parts. The segments lead from the general to the specific. -/
structure Statement where
  effect : Effect
  permission : String
  app : String
  segments : List String
  deriving DecidableEq

namespace Statement

def resource (statement : Statement) : String := joinPath statement.segments

def text (statement : Statement) : String :=
  composeStatement statement.effect.sign statement.permission statement.app statement.resource

end Statement

end Permits
