import Mathlib.Data.Prod.Lex
import Permits.Decision.Path
import Permits.Proofs.Statement.Path

set_option autoImplicit false

namespace Permits

/-- Ranks are compared from left to right. -/
abbrev Rank : Type := Nat ×ₗ Nat ×ₗ Nat

/-- How a stored path speaks for a request. -/
inductive Fit where
  | plain
  | blanked (position : Nat)
  deriving DecidableEq

/-- Whether a request fills a segment that a path leaves open. -/
def Fills (path request : List String) (position : Nat) : Prop :=
  path[position]? = some "" ∧ request[position]? ≠ some ""

instance decidableFills (path request : List String) (position : Nat) :
    Decidable (Fills path request position) := inferInstanceAs (Decidable (_ ∧ _))

theorem Fills.lt_length {path request : List String} {position : Nat}
    (fills : Fills path request position) : position < path.length :=
  (List.getElem?_eq_some_iff.mp fills.1).1

namespace Fit

/-- The rank of a path with so many segments. -/
def rank (length : Nat) : Fit → Rank
  | plain => toLex (length, toLex (1, 0))
  | blanked position => toLex (length - 1, toLex (0, position))

/-- Whether a path speaks for a request in this way. -/
def Applies (request path : List String) : Fit → Prop
  | plain => path <+: request
  | blanked position =>
      path.length ≤ request.length ∧ position < path.length ∧ path[position]? = some "" ∧
        request[position]? ≠ some "" ∧
        ∀ other < path.length, other ≠ position → path[other]? = request[other]?

theorem plain_le_plain {length other : Nat} :
    plain.rank length ≤ plain.rank other ↔ length ≤ other := by
  rw [rank, rank, Prod.Lex.toLex_le_toLex, Prod.Lex.toLex_le_toLex]
  omega

theorem plain_le_blanked {length other position : Nat} :
    plain.rank length ≤ (blanked position).rank other ↔ length < other - 1 := by
  rw [rank, rank, Prod.Lex.toLex_le_toLex, Prod.Lex.toLex_le_toLex]
  omega

theorem blanked_le_plain {length other position : Nat} :
    (blanked position).rank length ≤ plain.rank other ↔ length - 1 ≤ other := by
  rw [rank, rank, Prod.Lex.toLex_le_toLex, Prod.Lex.toLex_le_toLex]
  omega

theorem blanked_le_blanked {length other first second : Nat} :
    (blanked first).rank length ≤ (blanked second).rank other ↔
      length - 1 < other - 1 ∨ length - 1 = other - 1 ∧ first ≤ second := by
  rw [rank, rank, Prod.Lex.toLex_le_toLex, Prod.Lex.toLex_le_toLex]
  omega

instance decidableApplies (request path : List String) (fit : Fit) :
    Decidable (fit.Applies request path) :=
  match fit with
  | plain => inferInstanceAs (Decidable (path <+: request))
  | blanked position => inferInstanceAs (Decidable (
      path.length ≤ request.length ∧ position < path.length ∧ path[position]? = some "" ∧
        request[position]? ≠ some "" ∧
        ∀ other < path.length, other ≠ position → path[other]? = request[other]?))

/-- The one path with so many segments that can speak for a request in this way. -/
def pattern (request : List String) (length : Nat) : Fit → List String
  | plain => request.take length
  | blanked position => (request.take length).set position ""

variable {request path : List String} {fit : Fit}

theorem Applies.length_le (applies : fit.Applies request path) : path.length ≤ request.length := by
  cases fit with
  | plain => exact applies.length_le
  | blanked position => exact applies.1

theorem Applies.eq_pattern (applies : fit.Applies request path) :
    path = fit.pattern request path.length := by
  cases fit with
  | plain => exact List.prefix_iff_eq_take.mp applies
  | blanked position =>
      obtain ⟨within, inside, empty, -, agree⟩ := applies
      apply List.ext_getElem?
      intro i
      rw [pattern, List.getElem?_set, List.getElem?_take, List.length_take,
        Nat.min_eq_left within]
      by_cases here : position = i
      · subst here
        rw [if_pos rfl, if_pos inside, empty]
      · rw [if_neg here]
        by_cases below : i < path.length
        · rw [if_pos below, agree i below (Ne.symm here)]
        · rw [if_neg below, List.getElem?_eq_none (Nat.le_of_not_lt below)]

theorem length_pattern {length : Nat} (within : length ≤ request.length) :
    (fit.pattern request length).length = length := by
  cases fit with
  | plain => exact List.length_take_of_le within
  | blanked position =>
      rw [pattern, List.length_set]
      exact List.length_take_of_le within

theorem pattern_blanked_of_empty {length position : Nat} (within : length ≤ request.length)
    (empty : request[position]? = some "") :
    (blanked position).pattern request length = plain.pattern request length := by
  apply List.ext_getElem?
  intro i
  rw [pattern, pattern, List.getElem?_set, List.getElem?_take, List.length_take]
  by_cases here : position = i
  · subst here
    by_cases below : position < length
    · simp [below, empty]
      omega
    · simp [below]
  · rw [if_neg here]

theorem applies_plain {length : Nat} : plain.Applies request (plain.pattern request length) :=
  List.take_prefix length request

theorem applies_blanked {length position : Nat} (within : length ≤ request.length)
    (inside : position < length) (filled : request[position]? ≠ some "") :
    (blanked position).Applies request ((blanked position).pattern request length) := by
  have size : ((blanked position).pattern request length).length = length := length_pattern within
  refine ⟨size.trans_le within, inside.trans_eq size.symm, ?_, filled, ?_⟩
  · rw [pattern, List.getElem?_set_self]
    rw [List.length_take]
    omega
  · intro other below elsewhere
    rw [size] at below
    rw [pattern, List.getElem?_set_ne (Ne.symm elsewhere), List.getElem?_take, if_pos below]

theorem Applies.fills {position : Nat} (applies : (blanked position).Applies request path) :
    Fills path request position := ⟨applies.2.2.1, applies.2.2.2.1⟩

theorem Applies.eq_blanked (applies : fit.Applies request path) {position : Nat}
    (fills : Fills path request position) : fit = blanked position := by
  have inside := fills.lt_length
  obtain ⟨empty, filled⟩ := fills
  cases fit with
  | plain =>
      obtain ⟨rest, whole⟩ := applies
      rw [← whole, List.getElem?_append_left inside] at filled
      exact absurd empty filled
  | blanked opened =>
      obtain ⟨-, -, -, -, agree⟩ := applies
      by_cases here : position = opened
      · rw [here]
      · rw [agree position inside here] at empty
        exact absurd empty filled

theorem Applies.unique {other : Fit} (first : fit.Applies request path)
    (second : other.Applies request path) : fit = other := by
  cases fit with
  | plain =>
      cases other with
      | plain => rfl
      | blanked position => exact first.eq_blanked second.fills
  | blanked position => exact (second.eq_blanked first.fills).symm

theorem Applies.eq_of_rank {other : List String} {otherFit : Fit}
    (first : fit.Applies request path) (second : otherFit.Applies request other)
    (same : fit.rank path.length = otherFit.rank other.length) : path = other := by
  have size : fit = otherFit ∧ path.length = other.length := by
    cases fit with
    | plain =>
        cases otherFit with
        | plain => simpa [rank] using same
        | blanked position => simp [rank] at same
    | blanked position =>
        cases otherFit with
        | plain => simp [rank] at same
        | blanked another =>
            have inside := first.2.1
            have inside' := second.2.1
            simp only [rank, toLex_inj, Prod.mk.injEq, true_and] at same
            refine ⟨congrArg blanked same.2, ?_⟩
            omega
  rw [first.eq_pattern, second.eq_pattern, size.1, size.2]

theorem Applies.before_last {position : Nat} (applies : (blanked position).Applies request path)
    (isPath : IsPath path) : position + 1 < path.length := by
  obtain ⟨-, inside, empty, -, -⟩ := applies
  have notLast : position ≠ path.length - 1 := by
    intro last
    apply isPath.last
    rw [List.getLast?_eq_getElem?, ← last, empty]
  omega

/-- Where the first segment of a request is empty, only the root speaks for so short a part. -/
theorem Applies.eq_nil_of_rank_le (applies : fit.Applies request path) (isPath : IsPath path)
    (head : request[0]? = some "") (low : fit.rank path.length ≤ plain.rank 1) : path = [] := by
  cases fit with
  | plain =>
      rw [plain_le_plain] at low
      cases path with
      | nil => rfl
      | cons first rest =>
          have alone : rest = [] := by
            apply List.eq_nil_of_length_eq_zero
            rw [List.length_cons] at low
            exact Nat.le_zero.mp (Nat.le_of_succ_le_succ low)
          subst alone
          obtain ⟨others, whole⟩ := applies
          rw [← whole] at head
          exact absurd head isPath.last
  | blanked position =>
      have inside := applies.before_last isPath
      rw [blanked_le_plain] at low
      have front : position = 0 := by omega
      rw [front] at applies
      exact absurd head applies.2.2.2.1

end Fit

/-- One round of candidates: the longest run, the run without its last segment, and the ways to
empty another segment of the longest one. -/
def round (length : Nat) : List (Nat × Fit) :=
  (length + 1, .plain) :: (length, .plain) ::
    (List.range length).reverse.map fun position => (length + 1, .blanked position)

/-- The lengths and fits that the candidates go through, in their order. -/
def slots : Nat → List (Nat × Fit)
  | 0 => [(0, .plain)]
  | length + 1 => round length ++ slots length

theorem mem_slots {length size : Nat} {fit : Fit} :
    (size, fit) ∈ slots length ↔
      size ≤ length ∧ ∀ position, fit = .blanked position → position + 1 < size := by
  induction length with
  | zero =>
      cases fit with
      | plain => simp [slots]
      | blanked position =>
          simp [slots]
          omega
  | succ length ih =>
      rw [slots, round, List.mem_append, ih]
      cases fit with
      | plain =>
          simp
          omega
      | blanked position =>
          simp
          omega

theorem candidatesUpTo_eq_map {request : List String} {length : Nat}
    (within : length ≤ request.length) :
    candidatesUpTo request length =
      (slots length).map fun slot => joinPath (slot.2.pattern request slot.1) := by
  induction length with
  | zero => rfl
  | succ length ih =>
      have size : (request.take (length + 1)).length = length + 1 := List.length_take_of_le within
      have shorter : (request.take (length + 1)).dropLast = request.take length := by
        rw [List.dropLast_eq_take, size, List.take_take]
        congr 1
        omega
      rw [candidatesUpTo, pathsAround, size, shorter, ih (Nat.le_of_succ_le within), slots, round,
        List.map_append, List.map_cons, List.map_cons, List.map_map]
      rfl

theorem mem_round {length : Nat} {slot : Nat × Fit} :
    slot ∈ round length ↔ slot = (length + 1, .plain) ∨ slot = (length, .plain) ∨
      ∃ position < length, slot = (length + 1, .blanked position) := by
  simp only [round, List.mem_cons, List.mem_map, List.mem_reverse, List.mem_range, eq_comm]

theorem round_falling (length : Nat) :
    (round length).Pairwise fun first second => second.2.rank second.1 ≤ first.2.rank first.1 := by
  rw [round, List.pairwise_cons, List.pairwise_cons, List.pairwise_map, List.pairwise_reverse]
  refine ⟨?_, ?_, ?_⟩
  · intro slot later
    rw [List.mem_cons, List.mem_map] at later
    rcases later with shorter | masked
    · subst shorter
      exact Fit.plain_le_plain.mpr (Nat.le_succ length)
    · obtain ⟨position, -, same⟩ := masked
      subst same
      exact Fit.blanked_le_plain.mpr (Nat.sub_le _ _)
  · intro slot later
    obtain ⟨position, -, same⟩ := List.mem_map.mp later
    subst same
    exact Fit.blanked_le_plain.mpr (Nat.le_refl length)
  · apply List.pairwise_lt_range.imp
    intro first second below
    exact Fit.blanked_le_blanked.mpr (Or.inr ⟨rfl, Nat.le_of_lt below⟩)

theorem rank_le_of_mem_round {length : Nat} {slot : Nat × Fit} (listed : slot ∈ round length) :
    (Fit.blanked 0).rank (length + 1) ≤ slot.2.rank slot.1 := by
  rcases mem_round.mp listed with longest | shorter | masked
  · subst longest
    exact Fit.blanked_le_plain.mpr (Nat.sub_le _ _)
  · subst shorter
    exact Fit.blanked_le_plain.mpr (Nat.le_refl length)
  · obtain ⟨position, -, same⟩ := masked
    subst same
    exact Fit.blanked_le_blanked.mpr (Or.inr ⟨rfl, Nat.zero_le position⟩)

/-- Candidates that a later round brings up for the first time rank below the whole round. -/
theorem rank_le_of_not_mem_round {length : Nat} {slot : Nat × Fit} (listed : slot ∈ slots length)
    (new : slot ∉ round length) : slot.2.rank slot.1 ≤ (Fit.blanked 0).rank (length + 1) := by
  obtain ⟨size, fit⟩ := slot
  obtain ⟨within, inside⟩ := mem_slots.mp listed
  cases fit with
  | plain =>
      have shorter : size ≠ length := fun same => new (mem_round.mpr (.inr (.inl (same ▸ rfl))))
      apply Fit.plain_le_blanked.mpr
      omega
  | blanked position =>
      have room := inside position rfl
      apply Fit.blanked_le_blanked.mpr
      omega

theorem exists_slots_eq_append {length : Nat} {slot : Nat × Fit} (listed : slot ∈ slots length) :
    ∃ before after, slots length = before ++ slot :: after ∧
      ∀ other ∈ before, slot.2.rank slot.1 ≤ other.2.rank other.1 := by
  induction length with
  | zero =>
      have only : slot = (0, .plain) := List.mem_singleton.mp listed
      exact ⟨[], [], by rw [only]; rfl, fun _ present => nomatch present⟩
  | succ length ih =>
      by_cases here : slot ∈ round length
      · have falling := round_falling length
        obtain ⟨before, after, cut⟩ := List.append_of_mem here
        rw [cut, List.pairwise_append] at falling
        refine ⟨before, after ++ slots length, ?_, ?_⟩
        · rw [slots, cut, List.append_assoc, List.cons_append]
        · intro other present
          exact falling.2.2 other present slot List.mem_cons_self
      · -- The run that this round shares with the next one is met here first.
        have later : slot ∈ slots length := (List.mem_append.mp listed).resolve_left here
        obtain ⟨before, after, cut, high⟩ := ih later
        refine ⟨round length ++ before, after, ?_, ?_⟩
        · rw [slots, cut, List.append_assoc]
        · intro other present
          rcases List.mem_append.mp present with earlier | present
          · exact (rank_le_of_not_mem_round later here).trans (rank_le_of_mem_round earlier)
          · exact high other present

theorem Fit.colon_not_mem_pattern {request : List String} (isRequest : IsPath request)
    (fit : Fit) (length : Nat) :
    ∀ segment ∈ fit.pattern request length, ':' ∉ segment.toList := by
  intro segment present
  cases fit with
  | plain => exact isRequest.colon_not_mem segment (List.mem_of_mem_take present)
  | blanked position =>
      rcases List.mem_or_eq_of_mem_set present with kept | emptied
      · exact isRequest.colon_not_mem segment (List.mem_of_mem_take kept)
      · simp [emptied]

/-- What stands in a slot speaks for the request, at least at the rank of the slot. -/
theorem exists_applies_pattern {request : List String} {size : Nat} {fit : Fit}
    (listed : (size, fit) ∈ slots request.length) :
    ∃ other : Fit, other.Applies request (fit.pattern request size) ∧
      fit.rank size ≤ other.rank (fit.pattern request size).length := by
  obtain ⟨within, inside⟩ := mem_slots.mp listed
  rw [Fit.length_pattern within]
  cases fit with
  | plain => exact ⟨.plain, Fit.applies_plain, le_refl _⟩
  | blanked position =>
      have room := inside position rfl
      by_cases empty : request[position]? = some ""
      · refine ⟨.plain, ?_, Fit.blanked_le_plain.mpr (Nat.sub_le _ _)⟩
        rw [Fit.pattern_blanked_of_empty within empty]
        exact Fit.applies_plain
      · exact ⟨.blanked position, Fit.applies_blanked within (by omega) empty, le_refl _⟩

theorem eq_of_pattern_eq_singleton {request : List String} {size : Nat} {fit : Fit}
    (listed : (size, fit) ∈ slots request.length) (alone : fit.pattern request size = [""]) :
    request[0]? = some "" ∧ (size, fit) = (1, .plain) := by
  obtain ⟨within, inside⟩ := mem_slots.mp listed
  have one : size = 1 := by
    rw [← Fit.length_pattern within, alone]
    rfl
  subst one
  cases fit with
  | plain =>
      have first := congrArg (fun segments => segments[0]?) alone
      refine ⟨?_, rfl⟩
      simpa [Fit.pattern, List.getElem?_take] using first
  | blanked position =>
      have room := inside position rfl
      omega

/-- A stored path that a candidate names speaks for the request, at least at the candidate's rank.
A first segment that is empty is no stored path, but it has the text of the root. -/
theorem exists_applies_of_mem_slots {request : List String} (isRequest : IsPath request)
    {slot : Nat × Fit} (listed : slot ∈ slots request.length) {path : List String}
    (isPath : IsPath path) (same : joinPath path = joinPath (slot.2.pattern request slot.1)) :
    (∃ fit : Fit, fit.Applies request path ∧ slot.2.rank slot.1 ≤ fit.rank path.length) ∨
      path = [] ∧ request[0]? = some "" ∧ slot = (1, .plain) := by
  rcases isPath.eq_or_root (slot.2.colon_not_mem_pattern isRequest slot.1) same with equal | root
  · left
    rw [equal]
    exact exists_applies_pattern listed
  · right
    exact ⟨root.1, eq_of_pattern_eq_singleton listed root.2⟩

theorem mem_slots_of_applies {request path : List String} {fit : Fit}
    (applies : fit.Applies request path) (isPath : IsPath path) :
    (path.length, fit) ∈ slots request.length := by
  refine mem_slots.mpr ⟨applies.length_le, ?_⟩
  intro position same
  rw [same] at applies
  exact applies.before_last isPath

/-- The stored paths among the candidates of a request are those that speak for it. -/
theorem mem_candidatePaths_iff {request path : List String} (isRequest : IsPath request)
    (isPath : IsPath path) :
    joinPath path ∈ candidatePaths request ↔ ∃ fit : Fit, fit.Applies request path := by
  rw [candidatePaths, candidatesUpTo_eq_map (Nat.le_refl _), List.mem_map]
  constructor
  · intro candidate
    obtain ⟨slot, listed, same⟩ := candidate
    rcases exists_applies_of_mem_slots isRequest listed isPath same.symm with ranked | root
    · exact ranked.imp fun _ both => both.1
    · exact ⟨.plain, root.1 ▸ List.nil_prefix⟩
  · intro spoken
    obtain ⟨fit, applies⟩ := spoken
    refine ⟨(path.length, fit), mem_slots_of_applies applies isPath, ?_⟩
    rw [← applies.eq_pattern]

theorem findSome?_append_of_agree {α β : Type} {f : α → Option β} {before after : List α} {x : α}
    {answer : β} (here : f x = some answer)
    (agree : ∀ y ∈ before, f y = none ∨ f y = some answer) :
    (before ++ x :: after).findSome? f = some answer := by
  induction before with
  | nil => simp [here]
  | cons first rest ih =>
      rw [List.forall_mem_cons] at agree
      rcases agree.1 with nothing | found
      · simpa [nothing] using ih agree.2
      · simp [found]

section Lookup

variable {α : Type} {request : List String} {lookup : String → Option α}

theorem findSome?_candidatePaths (isRequest : IsPath request)
    (stored : ∀ text, lookup text ≠ none →
      IsPath (pathSegments text) ∧ joinPath (pathSegments text) = text)
    {path : List String} {fit : Fit} (isPath : IsPath path) (applies : fit.Applies request path)
    (greatest : ∀ (other : List String) (otherFit : Fit), IsPath other →
      otherFit.Applies request other → lookup (joinPath other) ≠ none →
      otherFit.rank other.length ≤ fit.rank path.length)
    {answer : α} (found : lookup (joinPath path) = some answer) :
    (candidatePaths request).findSome? lookup = some answer := by
  obtain ⟨before, after, cut, high⟩ := exists_slots_eq_append (mem_slots_of_applies applies isPath)
  rw [candidatePaths, candidatesUpTo_eq_map (Nat.le_refl _), List.findSome?_map, cut]
  apply findSome?_append_of_agree
  · rw [Function.comp_apply, ← applies.eq_pattern, found]
  · intro slot present
    rw [Function.comp_apply, or_iff_not_imp_left]
    intro speaks
    obtain ⟨isOther, written⟩ := stored _ speaks
    have listed : slot ∈ slots request.length := by
      rw [cut]
      exact List.mem_append_left _ present
    have above := high slot present
    -- What speaks in front of the slot can only be the same path, found under another slot.
    have same : pathSegments (joinPath (slot.2.pattern request slot.1)) = path := by
      rcases exists_applies_of_mem_slots isRequest listed isOther written with ranked | root
      · obtain ⟨otherFit, otherApplies, rank⟩ := ranked
        have below := greatest _ otherFit isOther otherApplies (by rwa [written])
        exact otherApplies.eq_of_rank applies (le_antisymm below (above.trans rank))
      · obtain ⟨empty, head, first⟩ := root
        rw [first] at above
        rw [empty, applies.eq_nil_of_rank_le isPath head above]
    rw [← written, same, found]

theorem findSome?_candidatePaths_eq_none (isRequest : IsPath request)
    (stored : ∀ text, lookup text ≠ none →
      IsPath (pathSegments text) ∧ joinPath (pathSegments text) = text)
    (silent : ∀ (path : List String) (fit : Fit), IsPath path → fit.Applies request path →
      lookup (joinPath path) = none) :
    (candidatePaths request).findSome? lookup = none := by
  rw [List.findSome?_eq_none_iff]
  intro text candidate
  by_contra speaks
  obtain ⟨isPath, written⟩ := stored _ speaks
  rw [← written, mem_candidatePaths_iff isRequest isPath] at candidate
  obtain ⟨fit, applies⟩ := candidate
  have nothing := silent _ fit isPath applies
  rw [written] at nothing
  exact speaks nothing

end Lookup

end Permits
