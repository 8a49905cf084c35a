import Permits.Statement.Grammar

set_option autoImplicit false

namespace Permits

theorem not_mem_of_all {accepted : Char → Bool} {separator : Char} {cs : List Char}
    (rejected : accepted separator = false) (all : cs.all accepted = true) :
    separator ∉ cs := by
  intro present
  have impossible := List.all_eq_true.mp all separator present
  rw [rejected] at impossible
  cases impossible

theorem colon_not_mem_of_segment {cs : List Char} (all : cs.all isSegmentChar = true) :
    ':' ∉ cs := not_mem_of_all (by decide) all

/-- Segments that can be written behind an app: every character belongs into a segment, and the
last segment is not empty. The app itself has no segments. -/
structure IsPath (segments : List String) : Prop where
  chars : ∀ segment ∈ segments, segment.toList.all isSegmentChar = true
  last : segments.getLast? ≠ some ""

theorem IsPath.nil : IsPath [] := ⟨by simp, by simp⟩

theorem IsPath.colon_not_mem {segments : List String} (path : IsPath segments) :
    ∀ segment ∈ segments, ':' ∉ segment.toList := fun segment present =>
  colon_not_mem_of_segment (path.chars segment present)

theorem toList_joinPath (segments : List String) :
    (joinPath segments).toList = [':'].intercalate (segments.map String.toList) :=
  String.toList_intercalate

theorem joinPath_eq_empty_iff (segments : List String) :
    joinPath segments = "" ↔ segments = [] ∨ segments = [""] := by
  cases segments with
  | nil => simp
  | cons first rest =>
      cases rest with
      | nil => simp
      | cons second rest =>
          have nonempty : joinPath (first :: second :: rest) ≠ "" := by
            intro empty
            have chars := congrArg String.toList empty
            simp [toList_joinPath] at chars
          simp [nonempty]

theorem IsPath.joinPath_eq_empty_iff {segments : List String} (path : IsPath segments) :
    joinPath segments = "" ↔ segments = [] := by
  rw [Permits.joinPath_eq_empty_iff, or_iff_left]
  rintro rfl
  exact path.last rfl

theorem IsPath.joinPath_cons {segments : List String} (path : IsPath segments) (app : String) :
    app ++ (if joinPath segments = "" then "" else ":" ++ joinPath segments) =
      joinPath (app :: segments) := by
  by_cases root : segments = []
  · simp [root]
  · have written : joinPath segments ≠ "" := fun empty => root (path.joinPath_eq_empty_iff.mp empty)
    rw [if_neg written, joinPath, joinPath, String.intercalate_cons_of_ne_nil root,
      String.append_assoc]

theorem splitOn_joinPath {segments : List String} (nonempty : segments ≠ [])
    (separate : ∀ segment ∈ segments, ':' ∉ segment.toList) :
    (joinPath segments).toList.splitOn ':' = segments.map String.toList := by
  rw [toList_joinPath]
  apply List.splitOn_intercalate
  · intro piece present
    obtain ⟨segment, member, rfl⟩ := List.mem_map.mp present
    exact separate segment member
  · simpa using nonempty

/-- The segments of a stored path. The empty path is the app itself. -/
def pathSegments (path : String) : List String :=
  if path = "" then [] else (path.toList.splitOn ':').map String.ofList

@[simp] theorem pathSegments_empty : pathSegments "" = [] := rfl

theorem pathSegments_joinPath {segments : List String} (other : segments ≠ [""])
    (separate : ∀ segment ∈ segments, ':' ∉ segment.toList) :
    pathSegments (joinPath segments) = segments := by
  by_cases root : segments = []
  · simp [root]
  · have written : joinPath segments ≠ "" := by
      rw [Ne, joinPath_eq_empty_iff]
      exact fun either => either.elim root other
    have back : segments.map (String.ofList ∘ String.toList) = segments := by
      simp [Function.comp_def]
    rw [pathSegments, if_neg written, splitOn_joinPath root separate, List.map_map, back]

theorem IsPath.pathSegments_joinPath {segments : List String} (path : IsPath segments) :
    pathSegments (joinPath segments) = segments := by
  apply Permits.pathSegments_joinPath _ path.colon_not_mem
  rintro rfl
  exact path.last rfl

/-- A text that names a stored path names one with these segments, unless the one segment there is
empty: then it names the root. -/
theorem IsPath.eq_or_root {path segments : List String} (isPath : IsPath path)
    (separate : ∀ segment ∈ segments, ':' ∉ segment.toList)
    (same : joinPath path = joinPath segments) :
    path = segments ∨ path = [] ∧ segments = [""] := by
  by_cases alone : segments = [""]
  · right
    refine ⟨?_, alone⟩
    rw [← isPath.joinPath_eq_empty_iff, same, alone]
    rfl
  · left
    rw [← isPath.pathSegments_joinPath, same, Permits.pathSegments_joinPath alone separate]

end Permits
