import Permits.Proofs.Decision.Authorize

set_option autoImplicit false

namespace Permits

/-- Whether a report names a statement as the one that decides. -/
def Report.Names (report : Report) (text : String) : Prop :=
  report.message = some ("The permission " ++ text ++ " grants access") ∨
    report.message = some ("The permission " ++ text ++ " blocks access")

theorem grants_ne_blocks (first second : String) :
    first ++ " grants access" ≠ second ++ " blocks access" := by
  intro same
  have chars := congrArg String.toList same
  rw [String.toList_append, String.toList_append] at chars
  have endings := (List.append_inj' chars (by decide)).2
  exact absurd endings (by decide)

theorem unknownApp_ne_named (app text ending : String) :
    "The user does not have access to the '" ++ app ++ "' app" ≠
      "The permission " ++ text ++ ending := by
  intro same
  have chars := congrArg String.toList same
  simp at chars

theorem noAuthorization_ne_named (text ending : String) :
    Decision.noAuthorization ≠ "The permission " ++ text ++ ending := by
  intro same
  have chars := congrArg String.toList same
  simp [Decision.noAuthorization] at chars

theorem noAuthorization_ne_unknownApp (app : String) :
    Decision.noAuthorization ≠ "The user does not have access to the '" ++ app ++ "' app" := by
  intro same
  have chars := congrArg String.toList same
  simp [Decision.noAuthorization] at chars

namespace Decision

/-- A report names the statement that decides, and no other text can be read out of it. -/
theorem names_report_iff (decision : Decision) (text : String) :
    decision.report.Names text ↔ decision.statement? = some text := by
  cases decision with
  | invalid => simp [Report.Names, report, statement?]
  | unknownApp app => simp [Report.Names, report, statement?, unknownApp_ne_named]
  | unsettled => simp [Report.Names, report, statement?, noAuthorization_ne_named]
  | settled effect permission app path =>
      rw [Report.Names, report_settled, statement?]
      cases effect with
      | grant =>
          simp only [↓reduceIte, Option.some.injEq, String.append_left_inj,
            String.append_right_inj, grants_ne_blocks, or_false]
      | deny =>
          simp only [reduceCtorEq, ↓reduceIte, Option.some.injEq, String.append_left_inj,
            String.append_right_inj, (grants_ne_blocks _ _).symm, false_or]

theorem message_eq_unknownApp_iff (decision : Decision) (app : String) :
    decision.report.message =
        some ("The user does not have access to the '" ++ app ++ "' app") ↔
      decision = .unknownApp app := by
  cases decision with
  | invalid => simp [report]
  | unknownApp other => simp [report, String.append_left_inj, String.append_right_inj]
  | unsettled => simp [report, noAuthorization_ne_unknownApp]
  | settled effect permission app' path =>
      rw [report_settled]
      simp [(unknownApp_ne_named app _ _).symm]

end Decision

end Permits
