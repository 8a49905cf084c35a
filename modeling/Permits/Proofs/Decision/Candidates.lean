import Mathlib.Data.List.Induction
import Mathlib.Data.List.Nodup
import Permits.Proofs.Decision.Specificity
import Permits.Proofs.Tree.Table

set_option autoImplicit false

namespace Permits

section FirstOccurrences

variable {α β : Type} [BEq α] [LawfulBEq α] [BEq β] [LawfulBEq β]

theorem eraseDups_of_nodup {items : List α} (unique : items.Nodup) : items.eraseDups = items := by
  induction items using List.reverseRecOn with
  | nil => rfl
  | append_singleton items item ih =>
      rw [List.nodup_append] at unique
      obtain ⟨earlier, -, apart⟩ := unique
      have absent : item ∉ items := fun present =>
        apart item present item (List.mem_singleton_self item) rfl
      rw [eraseDups_append_singleton, if_neg absent, ih earlier]

theorem eraseDups_filter (accepted : α → Bool) (items : List α) :
    (items.filter accepted).eraseDups = items.eraseDups.filter accepted := by
  induction items using List.reverseRecOn with
  | nil => rfl
  | append_singleton items item ih =>
      rw [List.filter_append, eraseDups_append_singleton]
      by_cases good : accepted item = true
      · have alone : [item].filter accepted = [item] := List.filter_cons_of_pos good
        rw [alone, eraseDups_append_singleton, ih]
        simp only [List.mem_filter, good, and_true]
        split
        · rfl
        · rw [List.filter_append, alone]
      · have gone : [item].filter accepted = [] := List.filter_cons_of_neg good
        rw [gone, List.append_nil, ih]
        split
        · rfl
        · rw [List.filter_append, gone, List.append_nil]

/-- Where different items have different images, the images come up first in the order in which the
items do. -/
theorem eraseDups_map {f : α → β} {items : List α}
    (injective : ∀ first ∈ items, ∀ second ∈ items, f first = f second → first = second) :
    (items.map f).eraseDups = items.eraseDups.map f := by
  induction items using List.reverseRecOn with
  | nil => rfl
  | append_singleton items item ih =>
      have known : f item ∈ items.map f ↔ item ∈ items := by
        constructor
        · intro present
          obtain ⟨other, inside, same⟩ := List.mem_map.mp present
          have equal := injective other (List.mem_append_left _ inside) item (by simp) same
          exact equal ▸ inside
        · exact List.mem_map_of_mem
      have earlier := ih fun first inside second inside' =>
        injective first (List.mem_append_left _ inside) second (List.mem_append_left _ inside')
      rw [List.map_append, List.map_singleton, eraseDups_append_singleton,
        eraseDups_append_singleton, earlier]
      simp only [known]
      split
      · rfl
      · rw [List.map_append, List.map_singleton]

end FirstOccurrences

theorem length_slots (length : Nat) :
    2 * (slots length).length = (length + 1) * (length + 2) := by
  induction length with
  | zero => rfl
  | succ length ih =>
      have size : (round length).length = length + 2 := by simp [round]
      rw [slots, List.length_append, size, Nat.mul_add, ih]
      simp only [Nat.add_mul, Nat.mul_add]
      omega

theorem nodup_round (length : Nat) : (round length).Nodup := by
  rw [round, List.nodup_cons, List.nodup_cons]
  refine ⟨by simp, by simp, ?_⟩
  rw [List.nodup_iff_pairwise_ne, List.pairwise_map]
  apply (List.nodup_reverse.mpr List.nodup_range).imp
  intro first second different same
  exact different (by simpa using same)

/-- The slots that come up behind the longest run, each of them once. -/
def laterSlots (length : Nat) : List (Nat × Fit) :=
  (List.range length).reverse.flatMap fun shorter =>
    (shorter, .plain) ::
      (List.range shorter).reverse.map fun position => (shorter + 1, .blanked position)

theorem cons_laterSlots_succ (length : Nat) :
    (length + 1, .plain) :: laterSlots (length + 1) = round length ++ laterSlots length := by
  rw [laterSlots, List.range_succ, List.reverse_append, List.reverse_singleton,
    List.singleton_append, List.flatMap_cons]
  rfl

theorem not_mem_round_of_mem_laterSlots {length : Nat} {slot : Nat × Fit}
    (listed : slot ∈ laterSlots length) : slot ∉ round length := by
  obtain ⟨shorter, below, here⟩ := List.mem_flatMap.mp listed
  rw [List.mem_reverse, List.mem_range] at below
  rw [mem_round]
  rcases List.mem_cons.mp here with run | masked
  · simp [run]
    omega
  · obtain ⟨position, -, rfl⟩ := List.mem_map.mp masked
    simp
    omega

/-- A round brings up again the run that the next round starts with, and nothing else. -/
theorem eraseDups_slots (length : Nat) :
    (slots length).eraseDups = (length, .plain) :: laterSlots length := by
  induction length with
  | zero => rfl
  | succ length ih =>
      have later : (laterSlots length).filter (fun slot => !(round length).elem slot) =
          laterSlots length := by
        rw [List.filter_eq_self]
        intro slot listed
        simpa using not_mem_round_of_mem_laterSlots listed
      have again : (length, Fit.plain) ∈ round length := mem_round.mpr (.inr (.inl rfl))
      rw [slots, List.eraseDups_append, eraseDups_of_nodup (nodup_round length), List.removeAll,
        eraseDups_filter, ih, List.filter_cons_of_neg (by simpa using again), later,
        cons_laterSlots_succ]

/-- The paths with one of so many leading segments blanked, from the last of these to the first. -/
def blankings (segments : List String) (count : Nat) : List String :=
  (List.range count).reverse.map fun position => joinPath (segments.set position "")

theorem candidatesUpTo_append {segments : List String} (others : List String) {length : Nat}
    (within : length ≤ segments.length) :
    candidatesUpTo (segments ++ others) length = candidatesUpTo segments length := by
  induction length with
  | zero => rfl
  | succ length ih =>
      rw [candidatesUpTo, candidatesUpTo, List.take_append_of_le_length within,
        ih (Nat.le_of_succ_le within)]

theorem candidatePaths_concat (segments : List String) (last : String) :
    candidatePaths (segments ++ [last]) =
      joinPath (segments ++ [last]) :: joinPath segments ::
        blankings (segments ++ [last]) segments.length ++ candidatePaths segments := by
  have size : (segments ++ [last]).length = segments.length + 1 := by simp
  have whole : (segments ++ [last]).take (segments.length + 1) = segments ++ [last] :=
    List.take_of_length_le (Nat.le_of_eq size)
  rw [candidatePaths, size, candidatesUpTo, whole, candidatesUpTo_append _ (Nat.le_refl _),
    pathsAround, size, List.dropLast_concat, Nat.add_sub_cancel]
  rfl

theorem length_candidatePaths (segments : List String) :
    (candidatePaths segments).length = (segments.length + 1) * (segments.length + 2) / 2 := by
  have twice := length_slots segments.length
  rw [candidatePaths, candidatesUpTo_eq_map (Nat.le_refl _), List.length_map]
  omega

/-- The candidates are the leading runs, and the leading runs with one segment in front of their
last one blanked. -/
theorem mem_candidatePaths (segments : List String) (path : String) :
    path ∈ candidatePaths segments ↔
      (∃ length ≤ segments.length, path = joinPath (segments.take length)) ∨
        ∃ length ≤ segments.length, ∃ position, position + 1 < length ∧
          path = joinPath ((segments.take length).set position "") := by
  rw [candidatePaths, candidatesUpTo_eq_map (Nat.le_refl _), List.mem_map]
  constructor
  · rintro ⟨⟨length, fit⟩, listed, rfl⟩
    obtain ⟨within, inside⟩ := mem_slots.mp listed
    cases fit with
    | plain => exact Or.inl ⟨length, within, rfl⟩
    | blanked position => exact Or.inr ⟨length, within, position, inside position rfl, rfl⟩
  · rintro (⟨length, within, rfl⟩ | ⟨length, within, position, inside, rfl⟩)
    · exact ⟨(length, .plain), mem_slots.mpr ⟨within, by simp⟩, rfl⟩
    · refine ⟨(length, .blanked position), mem_slots.mpr ⟨within, ?_⟩, rfl⟩
      intro other same
      rw [Fit.blanked.injEq] at same
      exact same ▸ inside

section Filled

variable {segments : List String}
  (filled : ∀ segment ∈ segments, segment ≠ "" ∧ ':' ∉ segment.toList)
include filled

theorem getElem?_ne_empty (position : Nat) : segments[position]? ≠ some "" := fun empty =>
  (filled "" (List.mem_of_getElem? empty)).1 rfl

theorem applies_of_mem_slots {length : Nat} {fit : Fit}
    (listed : (length, fit) ∈ slots segments.length) :
    fit.Applies segments (fit.pattern segments length) := by
  obtain ⟨within, inside⟩ := mem_slots.mp listed
  cases fit with
  | plain => exact Fit.applies_plain
  | blanked position =>
      have room := inside position rfl
      exact Fit.applies_blanked within (by omega) (getElem?_ne_empty filled position)

theorem pathSegments_slot {length : Nat} {fit : Fit}
    (listed : (length, fit) ∈ slots segments.length) :
    pathSegments (joinPath (fit.pattern segments length)) = fit.pattern segments length := by
  apply pathSegments_joinPath
  · intro alone
    exact getElem?_ne_empty filled 0 (eq_of_pattern_eq_singleton listed alone).1
  · intro segment present
    cases fit with
    | plain => exact (filled segment (List.mem_of_mem_take present)).2
    | blanked position =>
        rcases List.mem_or_eq_of_mem_set present with kept | emptied
        · exact (filled segment (List.mem_of_mem_take kept)).2
        · simp [emptied]

theorem slot_eq_of_text_eq {first second : Nat × Fit} (listed : first ∈ slots segments.length)
    (listed' : second ∈ slots segments.length)
    (same : joinPath (first.2.pattern segments first.1) =
      joinPath (second.2.pattern segments second.1)) : first = second := by
  obtain ⟨length, fit⟩ := first
  obtain ⟨length', fit'⟩ := second
  have patterns : fit.pattern segments length = fit'.pattern segments length' := by
    rw [← pathSegments_slot filled listed, same, pathSegments_slot filled listed']
  have lengths := congrArg List.length patterns
  rw [Fit.length_pattern (mem_slots.mp listed).1, Fit.length_pattern (mem_slots.mp listed').1]
    at lengths
  have fits : fit = fit' := by
    have applies := applies_of_mem_slots filled listed
    rw [patterns] at applies
    exact applies.unique (applies_of_mem_slots filled listed')
  rw [lengths, fits]

theorem eraseDups_candidatePaths :
    (candidatePaths segments).eraseDups = joinPath segments ::
      (List.range segments.length).reverse.flatMap fun length =>
        joinPath (segments.take length) :: blankings (segments.take (length + 1)) length := by
  have injective : ∀ first ∈ slots segments.length, ∀ second ∈ slots segments.length,
      joinPath (first.2.pattern segments first.1) = joinPath (second.2.pattern segments second.1) →
        first = second := fun first listed second listed' same =>
    slot_eq_of_text_eq filled listed listed' same
  rw [candidatePaths, candidatesUpTo_eq_map (Nat.le_refl _), eraseDups_map injective,
    eraseDups_slots, List.map_cons, laterSlots, List.map_flatMap, Fit.pattern, List.take_length]
  simp only [List.map_cons, List.map_map]
  rfl

end Filled

/-- The law of the candidates. Of n segments there are (n + 1)(n + 2) / 2, counted with repetitions.
A further segment puts one round in front of them. They are the leading runs and, with the last
segment kept, the leading runs with one segment blanked. Where all segments are filled, each path
comes up first in the order of the runs, the longest first, and behind every shorter run the ways
to blank a segment of the run that is longer by one. -/
theorem candidatePaths_enumerated (segments : List String) :
    (candidatePaths segments).length = (segments.length + 1) * (segments.length + 2) / 2 ∧
      (∀ last, candidatePaths (segments ++ [last]) =
        joinPath (segments ++ [last]) :: joinPath segments ::
          blankings (segments ++ [last]) segments.length ++ candidatePaths segments) ∧
      (∀ path, path ∈ candidatePaths segments ↔
        (∃ length ≤ segments.length, path = joinPath (segments.take length)) ∨
          ∃ length ≤ segments.length, ∃ position, position + 1 < length ∧
            path = joinPath ((segments.take length).set position "")) ∧
      ((∀ segment ∈ segments, segment ≠ "" ∧ ':' ∉ segment.toList) →
        (candidatePaths segments).eraseDups = joinPath segments ::
          (List.range segments.length).reverse.flatMap fun length =>
            joinPath (segments.take length) :: blankings (segments.take (length + 1)) length) :=
  ⟨length_candidatePaths segments, candidatePaths_concat segments, mem_candidatePaths segments,
    eraseDups_candidatePaths⟩

/-- Ten candidates of three segments, of which seven differ. -/
theorem candidatePaths_enumerated_three :
    let segments := ["a", "b", "c"]
    (∀ segment ∈ segments, segment ≠ "" ∧ ':' ∉ segment.toList) ∧
      (candidatePaths segments).length = 10 ∧
      (candidatePaths segments).eraseDups = ["a:b:c", "a:b", "a::c", ":b:c", "a", ":b", ""] := by
  intro segments
  have filled : ∀ segment ∈ segments, segment ≠ "" ∧ ':' ∉ segment.toList := by decide
  obtain ⟨count, -, -, order⟩ := candidatePaths_enumerated segments
  refine ⟨filled, by simpa [segments] using count, ?_⟩
  rw [order filled]
  decide

end Permits
