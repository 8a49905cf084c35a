import Mathlib.Data.List.Induction
import Mathlib.Data.Nat.Find
import Permits.Proofs.Tree.Layer
import Permits.Proofs.Tree.Run

set_option autoImplicit false

namespace Permits

/-- The more permissive of two effects; where there is only one, that one. -/
def permissive (first second : Option Effect) : Option Effect :=
  if first = some .grant ∨ second = some .grant then some .grant else first.or second

@[simp] theorem permissive_none_right (effect? : Option Effect) :
    permissive effect? none = effect? := by
  rcases effect? with _ | _ | _ <;> rfl

@[simp] theorem permissive_none_left (effect? : Option Effect) :
    permissive none effect? = effect? := by
  rcases effect? with _ | _ | _ <;> rfl

@[simp] theorem permissive_grant_left (effect? : Option Effect) :
    permissive (some .grant) effect? = some .grant := rfl

theorem permissive_assoc (first second third : Option Effect) :
    permissive (permissive first second) third = permissive first (permissive second third) := by
  rcases first with _ | _ | _ <;> rcases second with _ | _ | _ <;>
    rcases third with _ | _ | _ <;> rfl

theorem permissive_eq_grant_iff (first second : Option Effect) :
    permissive first second = some .grant ↔ first = some .grant ∨ second = some .grant := by
  rcases first with _ | _ | _ <;> rcases second with _ | _ | _ <;> decide

theorem permissive_eq_none_iff (first second : Option Effect) :
    permissive first second = none ↔ first = none ∧ second = none := by
  rcases first with _ | _ | _ <;> rcases second with _ | _ | _ <;> decide

theorem eq_or_eq_of_permissive {first second : Option Effect} {effect : Effect}
    (found : permissive first second = some effect) :
    first = some effect ∨ second = some effect := by
  unfold permissive at found
  split at found
  · rename_i granted
    rw [← found]
    exact granted
  · exact (Option.or_eq_some_iff.mp found).imp id And.right

/-- What statements say about a place when they are read on their own: the most permissive of
their effects there. -/
def verdict? (key : Key) : List Statement → Option Effect
  | [] => none
  | statement :: rest =>
      if statement.key = key then permissive (some statement.effect) (verdict? key rest)
      else verdict? key rest

theorem verdict?_eq_none_iff (key : Key) (statements : List Statement) :
    verdict? key statements = none ↔ ∀ statement ∈ statements, statement.key ≠ key := by
  induction statements with
  | nil => simp [verdict?]
  | cons statement rest ih =>
      by_cases same : statement.key = key <;>
        simp [verdict?, same, permissive_eq_none_iff, ih]

theorem verdict?_eq_grant_iff (key : Key) (statements : List Statement) :
    verdict? key statements = some .grant ↔
      ∃ statement ∈ statements, statement.key = key ∧ statement.effect = .grant := by
  induction statements with
  | nil => simp [verdict?]
  | cons statement rest ih =>
      by_cases same : statement.key = key <;>
        simp [verdict?, same, permissive_eq_grant_iff, ih]

theorem verdict?_append (key : Key) (first second : List Statement) :
    verdict? key (first ++ second) = permissive (verdict? key first) (verdict? key second) := by
  induction first with
  | nil => rw [List.nil_append, verdict?, permissive_none_left]
  | cons statement rest ih =>
      rw [List.cons_append, verdict?, verdict?, ih]
      split
      · rw [permissive_assoc]
      · rfl

theorem exists_of_verdict? {key : Key} {statements : List Statement} {effect : Effect}
    (found : verdict? key statements = some effect) :
    ∃ statement ∈ statements, statement.key = key ∧ statement.effect = effect := by
  induction statements with
  | nil => cases found
  | cons statement rest ih =>
      rw [verdict?] at found
      have later : verdict? key rest = some effect →
          ∃ other ∈ statement :: rest, other.key = key ∧ other.effect = effect := by
        intro inside
        obtain ⟨other, present, spoken⟩ := ih inside
        exact ⟨other, List.mem_cons_of_mem _ present, spoken⟩
      split at found
      · rename_i same
        rcases eq_or_eq_of_permissive found with here | inside
        · exact ⟨statement, List.mem_cons_self, same, Option.some.inj here⟩
        · exact later inside
      · exact later found

namespace Pass

theorem effect?_read_of_ne (overwrite : Bool) (pass : Pass) (statement : Statement) (key : Key)
    (other : statement.key ≠ key) :
    (read overwrite pass statement).tree.effect? key = pass.tree.effect? key := by
  unfold read
  dsimp only
  split
  · rfl
  · rw [Tree.effect?_set, if_neg other]

theorem mem_marked_read_of_ne (overwrite : Bool) (pass : Pass) (statement : Statement) (key : Key)
    (other : statement.key ≠ key) :
    key ∈ (read overwrite pass statement).marked ↔ key ∈ pass.marked := by
  unfold read
  dsimp only
  split
  · rfl
  · cases overwrite <;> simp [Ne.symm other]

/-- A pass that competes for a place: it does not overwrite, or it has set the place already. -/
def Competes (overwrite : Bool) (pass : Pass) (key : Key) : Prop :=
  overwrite = false ∨ key ∈ pass.marked

theorem competes_read (overwrite : Bool) (pass : Pass) (statement : Statement) (key : Key)
    (competes : pass.Competes overwrite key ∨ statement.key = key) :
    (read overwrite pass statement).Competes overwrite key := by
  by_cases other : statement.key = key
  · subst other
    unfold read Competes
    dsimp only
    split
    · rename_i kept
      exact kept.2
    · cases overwrite <;> simp
  · rcases competes.resolve_right other with plain | marked
    · exact Or.inl plain
    · exact Or.inr ((mem_marked_read_of_ne overwrite pass statement key other).mpr marked)

theorem effect?_read_competing (overwrite : Bool) (pass : Pass) (statement : Statement)
    (competes : pass.Competes overwrite statement.key) :
    (read overwrite pass statement).tree.effect? statement.key =
      permissive (pass.tree.effect? statement.key) (some statement.effect) := by
  unfold read
  dsimp only
  split
  · rename_i kept
    rw [kept.1, permissive_grant_left]
  · rename_i replaced
    have denied : pass.tree.effect? statement.key ≠ some .grant := fun granted =>
      replaced ⟨granted, competes⟩
    rw [Tree.effect?_set, if_pos rfl]
    rcases found : pass.tree.effect? statement.key with _ | _ | _
    · rw [permissive_none_left]
    · exact absurd found denied
    · cases statement.effect <;> rfl

theorem effect?_read_fresh (pass : Pass) (statement : Statement)
    (fresh : statement.key ∉ pass.marked) :
    (read true pass statement).tree.effect? statement.key = some statement.effect := by
  unfold read
  dsimp only
  rw [if_neg (by simp [fresh]), Tree.effect?_set, if_pos rfl]

theorem effect?_readAll_competing (overwrite : Bool) (pass : Pass) (statements : List Statement)
    (key : Key) (competes : pass.Competes overwrite key) :
    (readAll overwrite pass statements).tree.effect? key =
      permissive (pass.tree.effect? key) (verdict? key statements) := by
  induction statements generalizing pass with
  | nil => simp [readAll, verdict?]
  | cons statement rest ih =>
      have later := ih (read overwrite pass statement)
        (competes_read overwrite pass statement key (Or.inl competes))
      change (readAll overwrite (read overwrite pass statement) rest).tree.effect? key = _
      rw [later, verdict?]
      by_cases same : statement.key = key
      · subst same
        rw [effect?_read_competing overwrite pass statement competes, if_pos rfl,
          permissive_assoc]
      · rw [effect?_read_of_ne overwrite pass statement key same, if_neg same]

/-- An overwriting pass that has not set a place yet lets its own statements decide there. -/
theorem effect?_readAll_fresh (pass : Pass) (statements : List Statement) (key : Key)
    (fresh : key ∉ pass.marked) :
    (readAll true pass statements).tree.effect? key =
      (verdict? key statements).or (pass.tree.effect? key) := by
  induction statements generalizing pass with
  | nil => rfl
  | cons statement rest ih =>
      change (readAll true (read true pass statement) rest).tree.effect? key = _
      rw [verdict?]
      by_cases same : statement.key = key
      · subst same
        rw [effect?_readAll_competing true _ rest statement.key
            (competes_read true pass statement _ (Or.inr rfl)),
          effect?_read_fresh pass statement fresh, if_pos rfl]
        rcases verdict? statement.key rest with _ | _ | _ <;> cases statement.effect <;> rfl
      · rw [ih (read true pass statement)
            (by rwa [mem_marked_read_of_ne true pass statement key same]),
          effect?_read_of_ne true pass statement key same, if_neg same]

end Pass

namespace Builder

theorem effect?_addBlock (builder : Builder) (entries : List Value) (overwrite : Bool) (key : Key) :
    (builder.addBlock entries overwrite).tree.effect? key =
      let verdict? := verdict? key (entries.filterMap Value.statement?)
      if overwrite then verdict?.or (builder.tree.effect? key)
      else permissive (builder.tree.effect? key) verdict? := by
  cases overwrite with
  | false => exact Pass.effect?_readAll_competing false _ _ key (Or.inl rfl)
  | true => exact Pass.effect?_readAll_fresh _ _ key List.not_mem_nil

end Builder

/-- Whether a block has a statement on a place. -/
def mentions (key : Key) (entries : List Value) : Bool :=
  entries.any fun entry => entry.statement?.any fun statement => statement.key = key

def grants (key : Key) (entries : List Value) : Bool :=
  entries.any fun entry => entry.statement?.any fun statement =>
    statement.key = key ∧ statement.effect = .grant

theorem mentions_eq_false_iff (key : Key) (entries : List Value) :
    mentions key entries = false ↔ verdict? key (entries.filterMap Value.statement?) = none := by
  simp only [mentions, List.any_eq_false, verdict?_eq_none_iff, List.mem_filterMap]
  constructor
  · rintro silent statement ⟨entry, present, read⟩ same
    exact silent entry present (by simp [read, same])
  · intro silent entry present spoken
    cases read : entry.statement? with
    | none => simp [read] at spoken
    | some statement =>
        simp only [read, Option.any_some, decide_eq_true_eq] at spoken
        exact silent statement ⟨entry, present, read⟩ spoken

theorem verdict?_ne_none_of_mentions {key : Key} {entries : List Value}
    (spoken : mentions key entries = true) :
    verdict? key (entries.filterMap Value.statement?) ≠ none := by
  rw [Ne, ← mentions_eq_false_iff, spoken]
  exact Bool.noConfusion

theorem grants_eq_true_iff (key : Key) (entries : List Value) :
    grants key entries = true ↔
      verdict? key (entries.filterMap Value.statement?) = some .grant := by
  simp only [grants, List.any_eq_true, verdict?_eq_grant_iff, List.mem_filterMap]
  constructor
  · rintro ⟨entry, present, granted⟩
    cases read : entry.statement? with
    | none => simp [read] at granted
    | some statement =>
        simp only [read, Option.any_some, decide_eq_true_eq] at granted
        exact ⟨statement, ⟨entry, present, read⟩, granted⟩
  · rintro ⟨statement, ⟨entry, present, read⟩, granted⟩
    exact ⟨entry, present, by simp [read, granted]⟩

/-- Whether a merge replaces what it finds at a place. -/
def Merge.replaces (key : Key) (merge : Merge) : Bool :=
  merge.overwrite && mentions key merge.entries

/-- The position of the last merge of a history that replaces a place, or the first position if
none does. -/
def lastReplacing (key : Key) (history : List Merge) : Nat :=
  Nat.findGreatest (fun i => history[i]?.any (Merge.replaces key)) history.length

/-- Whether a merge from a position on has a grant on a place. -/
def GrantsFrom (key : Key) (history : List Merge) (start : Nat) : Prop :=
  ∃ i merge, start ≤ i ∧ history[i]? = some merge ∧ grants key merge.entries = true

theorem lastReplacing_concat (key : Key) (history : List Merge) (merge : Merge) :
    lastReplacing key (history ++ [merge]) =
      if merge.replaces key then history.length else lastReplacing key history := by
  have last : (history ++ [merge])[history.length]? = some merge := by simp
  have past : (history ++ [merge])[history.length + 1]? = none := by simp
  rw [lastReplacing, List.length_append, List.length_singleton, Nat.findGreatest_eq_iff]
  split
  · rename_i replaces
    refine ⟨by omega, fun _ => by rw [last]; exact replaces, ?_⟩
    intro i above below
    have next : i = history.length + 1 := by omega
    rw [next, past]
    exact Bool.false_ne_true
  · rename_i kept
    obtain ⟨bound, found, rest⟩ := Nat.findGreatest_eq_iff.mp (rfl : lastReplacing key history = _)
    refine ⟨by omega, ?_, ?_⟩
    · intro positive
      have replacing := found positive
      have inside : lastReplacing key history < history.length := by
        apply Nat.lt_of_not_le
        intro outside
        rw [List.getElem?_eq_none outside] at replacing
        exact Bool.false_ne_true replacing
      rwa [List.getElem?_append_left inside]
    · intro i above below
      by_cases inside : i < history.length
      · rw [List.getElem?_append_left inside]
        exact rest above (Nat.le_of_lt inside)
      · by_cases here : i = history.length
        · rw [here, last]
          exact kept
        · rw [show i = history.length + 1 by omega, past]
          exact Bool.false_ne_true

theorem lastReplacing_le (key : Key) (history : List Merge) :
    lastReplacing key history ≤ history.length := Nat.findGreatest_le _

theorem grantsFrom_concat (key : Key) (history : List Merge) (merge : Merge) (start : Nat)
    (inside : start ≤ history.length) :
    GrantsFrom key (history ++ [merge]) start ↔
      GrantsFrom key history start ∨ grants key merge.entries = true := by
  constructor
  · rintro ⟨i, found, from_start, present, granted⟩
    by_cases earlier : i < history.length
    · rw [List.getElem?_append_left earlier] at present
      exact Or.inl ⟨i, found, from_start, present, granted⟩
    · rw [List.getElem?_append_right (by omega), List.getElem?_singleton] at present
      split at present
      · rw [Option.some.injEq] at present
        exact Or.inr (present ▸ granted)
      · cases present
  · rintro (⟨i, found, from_start, present, granted⟩ | granted)
    · have earlier : i < history.length := (List.getElem?_eq_some_iff.mp present).1
      exact ⟨i, found, from_start, by rwa [List.getElem?_append_left earlier], granted⟩
    · exact ⟨history.length, merge, inside, by simp, granted⟩

theorem not_grantsFrom_length (key : Key) (history : List Merge) :
    ¬ GrantsFrom key history history.length := by
  rintro ⟨i, merge, outside, present, -⟩
  rw [List.getElem?_eq_none outside] at present
  cases present

namespace Builder

theorem effect?_of_replaces (builder : Builder) (merge : Merge) (key : Key)
    (replaces : merge.replaces key = true) :
    (builder.addBlock merge.entries merge.overwrite).tree.effect? key =
      verdict? key (merge.entries.filterMap Value.statement?) := by
  simp only [Merge.replaces, Bool.and_eq_true] at replaces
  obtain ⟨overwrite, spoken⟩ := replaces
  obtain ⟨effect, found⟩ := Option.ne_none_iff_exists'.mp (verdict?_ne_none_of_mentions spoken)
  rw [effect?_addBlock, overwrite]
  simp only [↓reduceIte, found, Option.some_or]

theorem effect?_of_not_replaces (builder : Builder) (merge : Merge) (key : Key)
    (competes : merge.replaces key = false) :
    (builder.addBlock merge.entries merge.overwrite).tree.effect? key =
      permissive (builder.tree.effect? key)
        (verdict? key (merge.entries.filterMap Value.statement?)) := by
  rw [effect?_addBlock]
  by_cases overwrite : merge.overwrite = true
  · rw [Merge.replaces, overwrite, Bool.true_and, mentions_eq_false_iff] at competes
    simp only [overwrite, ↓reduceIte, competes, Option.none_or, permissive_none_right]
  · simp only [overwrite, Bool.false_eq_true, ↓reduceIte]

theorem effect?_mergeAll (history : List Merge) (key : Key) :
    ((empty.mergeAll history).tree.effect? key = none ↔
      ∀ merge ∈ history, mentions key merge.entries = false) ∧
    ((empty.mergeAll history).tree.effect? key = some .grant ↔
      GrantsFrom key history (lastReplacing key history)) := by
  induction history using List.reverseRecOn with
  | nil => simp [empty, Tree.effect?, GrantsFrom]
  | append_singleton history merge ih =>
      obtain ⟨unset, granted⟩ := ih
      have step : empty.mergeAll (history ++ [merge]) =
          (empty.mergeAll history).addBlock merge.entries merge.overwrite := mergeAll_append _ _ _
      have silent := mentions_eq_false_iff key merge.entries
      have granting := grants_eq_true_iff key merge.entries
      have bound := lastReplacing_le key history
      rw [step, lastReplacing_concat, List.forall_mem_append, List.forall_mem_singleton, ← unset,
        silent]
      -- A block that replaces starts the count anew at its own place; any other one joins it.
      cases replaces : merge.replaces key with
      | true =>
          rw [effect?_of_replaces _ merge key replaces, if_pos rfl,
            grantsFrom_concat key history merge _ (Nat.le_refl _),
            or_iff_right (not_grantsFrom_length key history), granting]
          simp only [Merge.replaces, Bool.and_eq_true] at replaces
          simp only [verdict?_ne_none_of_mentions replaces.2, and_false, and_self]
      | false =>
          rw [effect?_of_not_replaces _ merge key replaces, if_neg Bool.false_ne_true,
            grantsFrom_concat key history merge _ bound, permissive_eq_none_iff,
            permissive_eq_grant_iff, granted, granting]
          exact ⟨Iff.rfl, Iff.rfl⟩

end Builder

/-- What the last block that speaks of a place says about it. -/
def lastVerdict? (key : Key) : List (List Value) → Option Effect
  | [] => none
  | entries :: rest =>
      (lastVerdict? key rest).or (verdict? key (entries.filterMap Value.statement?))

theorem lastVerdict?_append (key : Key) (first second : List (List Value)) :
    lastVerdict? key (first ++ second) = (lastVerdict? key second).or (lastVerdict? key first) := by
  induction first with
  | nil => simp [lastVerdict?]
  | cons entries rest ih => simp only [List.cons_append, lastVerdict?, ih, Option.or_assoc]

theorem lastVerdict?_eq_none_iff (key : Key) (blocks : List (List Value)) :
    lastVerdict? key blocks = none ↔ ∀ entries ∈ blocks, mentions key entries = false := by
  induction blocks with
  | nil => simp [lastVerdict?]
  | cons entries rest ih =>
      rw [lastVerdict?, Option.or_eq_none_iff, ih, List.forall_mem_cons, mentions_eq_false_iff,
        and_comm]

theorem exists_of_lastVerdict? {key : Key} {blocks : List (List Value)} {effect : Effect}
    (found : lastVerdict? key blocks = some effect) :
    ∃ statement ∈ blocks.flatten.filterMap Value.statement?,
      statement.key = key ∧ statement.effect = effect := by
  induction blocks with
  | nil => cases found
  | cons entries rest ih =>
      rw [List.flatten_cons, List.filterMap_append]
      rcases Option.or_eq_some_iff.mp found with later | ⟨-, here⟩
      · obtain ⟨statement, present, spoken⟩ := ih later
        exact ⟨statement, List.mem_append_right _ present, spoken⟩
      · obtain ⟨statement, present, spoken⟩ := exists_of_verdict? here
        exact ⟨statement, List.mem_append_left _ present, spoken⟩

theorem key_ne_of_lastVerdict? {key : Key} {blocks : List (List Value)}
    (silent : lastVerdict? key blocks = none) :
    ∀ statement ∈ blocks.flatten.filterMap Value.statement?, statement.key ≠ key := by
  induction blocks with
  | nil => exact fun _ present => nomatch present
  | cons entries rest ih =>
      rw [lastVerdict?, Option.or_eq_none_iff, verdict?_eq_none_iff] at silent
      rw [List.flatten_cons, List.filterMap_append, List.forall_mem_append]
      exact ⟨silent.2, ih silent.1⟩

theorem lastVerdict?_eq_some_iff (key : Key) (blocks : List (List Value)) (effect : Effect) :
    lastVerdict? key blocks = some effect ↔
      ∃ before entries after, blocks = before ++ entries :: after ∧
        verdict? key (entries.filterMap Value.statement?) = some effect ∧
        ∀ later ∈ after, mentions key later = false := by
  induction blocks with
  | nil => simp [lastVerdict?]
  | cons first rest ih =>
      rw [lastVerdict?, Option.or_eq_some_iff, ih, lastVerdict?_eq_none_iff]
      constructor
      · rintro (⟨before, entries, after, rfl, spoken, silent⟩ | ⟨silent, spoken⟩)
        · exact ⟨first :: before, entries, after, rfl, spoken, silent⟩
        · exact ⟨[], first, rest, rfl, spoken, silent⟩
      · rintro ⟨before, entries, after, same, spoken, silent⟩
        cases before with
        | nil =>
            simp only [List.nil_append, List.cons.injEq] at same
            obtain ⟨rfl, rfl⟩ := same
            exact Or.inr ⟨silent, spoken⟩
        | cons other before =>
            simp only [List.cons_append, List.cons.injEq] at same
            exact Or.inl ⟨before, entries, after, same.2, spoken, silent⟩

theorem lastVerdict?_eq_grant_iff (key : Key) (blocks : List (List Value)) :
    lastVerdict? key blocks = some .grant ↔
      ∃ before entries after, blocks = before ++ entries :: after ∧
        grants key entries = true ∧ ∀ later ∈ after, mentions key later = false := by
  simp only [lastVerdict?_eq_some_iff, grants_eq_true_iff]

namespace Builder

theorem effect?_mergeAll_overwriting (builder : Builder) (blocks : List (List Value)) (key : Key) :
    (builder.mergeAll (blocks.map (⟨·, true⟩))).tree.effect? key =
      (lastVerdict? key blocks).or (builder.tree.effect? key) := by
  induction blocks generalizing builder with
  | nil => rfl
  | cons entries rest ih =>
      rw [List.map_cons, mergeAll_cons, ih, effect?_addBlock, lastVerdict?, Option.or_assoc]
      rfl

/-- A fresh build holds at each place what the last block on it says. -/
theorem effect?_build (blocks : List Value) (key : Key) :
    (empty.build blocks).builder.tree.effect? key = lastVerdict? key (reached blocks) := by
  rw [build_builder]
  cases reached blocks with
  | nil => rfl
  | cons entries rest =>
      have overwriting : (rest.mapIdx fun i entries =>
          (⟨entries, decide (0 < empty.applied + (i + 1))⟩ : Merge)) = rest.map (⟨·, true⟩) := by
        rw [List.mapIdx_eq_iff]
        intro i
        simp [empty]
      rw [List.mapIdx_cons, mergeAll_cons, overwriting, effect?_mergeAll_overwriting,
        effect?_addBlock, lastVerdict?]
      exact congrArg _ (permissive_none_left _)

theorem effect?_build_single {entry : Value} {statement : Statement}
    (valid : entry.statement? = some statement) (key : Key) :
    (empty.build [.list [entry]]).builder.tree.effect? key =
      if statement.key = key then some statement.effect else none := by
  rw [effect?_build]
  show (none : Option Effect).or (verdict? key ([entry].filterMap Value.statement?)) = _
  rw [Option.none_or, List.filterMap_cons_some valid, List.filterMap_nil, verdict?, verdict?,
    permissive_none_right]

/-- The merge law. After any run the tree holds something at a place exactly if some merged block
speaks of it. A grant stands there exactly if one of the blocks from the last replacing one on
grants the place, and a denial otherwise. After a fresh build a grant stands there exactly if the
last block that speaks of the place grants it. -/
theorem effect?_run (key : Key) :
    (∀ calls : List Call,
      ((empty.run calls).tree.effect? key = none ↔
        ∀ merge ∈ Call.history 0 calls, mentions key merge.entries = false) ∧
      ((empty.run calls).tree.effect? key = some .grant ↔
        GrantsFrom key (Call.history 0 calls) (lastReplacing key (Call.history 0 calls))) ∧
      ((empty.run calls).tree.effect? key = some .deny ↔
        (∃ merge ∈ Call.history 0 calls, mentions key merge.entries = true) ∧
          ¬ GrantsFrom key (Call.history 0 calls) (lastReplacing key (Call.history 0 calls)))) ∧
    (∀ blocks : List Value,
      (empty.buildValue (.list blocks)).builder.tree.effect? key = some .grant ↔
        ∃ before entries after, reached blocks = before ++ entries :: after ∧
          grants key entries = true ∧ ∀ later ∈ after, mentions key later = false) := by
  refine ⟨?_, ?_⟩
  · intro calls
    obtain ⟨unset, granted⟩ := effect?_mergeAll (Call.history 0 calls) key
    have run : empty.run calls = empty.mergeAll (Call.history 0 calls) := run_eq_mergeAll _ _
    rw [run]
    refine ⟨unset, granted, ?_⟩
    have spoken : (∃ merge ∈ Call.history 0 calls, mentions key merge.entries = true) ↔
        (empty.mergeAll (Call.history 0 calls)).tree.effect? key ≠ none := by
      rw [Ne, unset]
      simp
    rw [spoken, ← granted]
    rcases (empty.mergeAll (Call.history 0 calls)).tree.effect? key with _ | _ | _ <;> decide
  · intro blocks
    rw [← lastVerdict?_eq_grant_iff, ← effect?_build, build_builder, buildValue_builder]
    rfl

end Builder

end Permits
