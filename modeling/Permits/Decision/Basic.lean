import Permits.Decision.Path
import Permits.Tree.Builder

set_option autoImplicit false

namespace Permits

inductive Decision where
  /-- The request is no statement. -/
  | invalid
  /-- The tree does not know the app. -/
  | unknownApp (app : String)
  /-- No candidate path settles the permission. -/
  | unsettled
  /-- A stored statement decides. -/
  | settled (effect : Effect) (permission app resource : String)
  deriving DecidableEq

/-- The answer in words. A report without an error carries a message. -/
structure Report where
  ok : Bool
  authorized : Bool
  message : Option String
  error : Option String
  deriving DecidableEq

namespace Decision

def invalidRequest : String := "Invalid requested permission"

def noAuthorization : String := "No authorization was found for this resource"

def statement? : Decision → Option String
  | settled effect permission app resource =>
      some (composeStatement effect.sign permission app resource)
  | _ => none

def verb : Effect → String
  | .grant => "grants"
  | .deny => "blocks"

def report : Decision → Report
  | invalid => ⟨false, false, none, some invalidRequest⟩
  | unknownApp app =>
      ⟨true, false, some ("The user does not have access to the '" ++ app ++ "' app"), none⟩
  | unsettled => ⟨true, false, some noAuthorization, none⟩
  | settled effect permission app resource =>
      ⟨true, effect = .grant,
        some ("The permission " ++ composeStatement effect.sign permission app resource ++ " " ++
          verb effect ++ " access"), none⟩

def authorized (decision : Decision) : Bool := decision.report.authorized

end Decision

namespace Report

/-- The reason in a record: the error if it says something, else the message. -/
def reason (report : Report) : String :=
  match report.error with
  | some error => if error = "" then report.message.getD "None" else error
  | none => report.message.getD "None"

end Report

/-- The name and the effect by which a path settles a permission. The effect of a name is given by
any look-up, so that tables of other makes can be asked in the same order. -/
def settleBy (effect? : String → Option Effect) (permission : String) : Option (String × Effect) :=
  [(permission, .deny), (wildcard, .deny), (permission, .grant), (wildcard, .grant)].find?
    fun (name, effect) => effect? name = some effect

namespace Resources

/-- What one path decides about a request, if anything. -/
def settleAt? (resources : Resources) (app permission path : String) : Option Decision :=
  (resources.find? path).bind fun permissions =>
    (settleBy permissions.find? permission).map fun (name, effect) =>
      .settled effect name app path

end Resources

namespace Tree

def settle (tree : Tree) (request : Statement) : Decision :=
  match tree.find? request.app with
  | none => .unknownApp request.app
  | some resources =>
      ((candidatePaths request.segments).findSome?
        (resources.settleAt? request.app request.permission)).getD .unsettled

def authorize (tree : Tree) (request : Value) : Decision :=
  match request.statement? with
  | none => .invalid
  | some statement => tree.settle statement

end Tree

def Decision.record (decision : Decision) (request : Value) : Record :=
  .decided decision.authorized request decision.report.reason

end Permits
