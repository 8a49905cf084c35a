import Mathlib.Data.List.Basic
import Permits.Proofs.Config.Schema

set_option autoImplicit false

namespace Permits

namespace Schema

/-- A part of a configuration value that can be wrong. Blocks, statements and keys count from zero,
each among its like. -/
inductive Site where
  | version
  | description
  | blocks
  | block (index : Nat)
  | name (block : Nat)
  | statements (block : Nat)
  | statement (block index : Nat)
  | blockKey (block index : Nat)
  | key (index : Nat)

/-- Where a site comes in a report, level by level: the version, the description, the blocks one
by one, the keys; in a block its name, its statements one by one, its keys. -/
def Site.ordinals : Site → List Nat
  | version => [0]
  | description => [1]
  | blocks => [2]
  | block i => [2, i]
  | name i => [2, i, 0]
  | statements i => [2, i, 1]
  | statement i j => [2, i, 1, j]
  | blockKey i k => [2, i, 2, k]
  | key k => [3, k]

instance siteOrder : LT Site := ⟨fun first second => first.ordinals < second.ordinals⟩

@[simp] theorem Site.lt_iff (first second : Site) :
    first < second ↔ first.ordinals < second.ordinals := Iff.rfl

theorem Site.lt_of_heads {first second : Site} {m n : Nat} {inner inner' : List Nat}
    (head : first.ordinals = m :: inner) (head' : second.ordinals = n :: inner')
    (before : m < n) : first < second := by
  rw [lt_iff, head, head', List.cons_lt_cons_iff]
  exact Or.inl before

/-- What is wrong about a value in the place of a block, and at which sites. -/
inductive BlockOffends (i : Nat) : Value → Site → Issue → Prop
  | notMapping {value : Value} (other : ∀ fields, value ≠ .map fields) :
      BlockOffends i value (.block i) ⟨[.name "blocks", .index i], .notMapping⟩
  | name {fields : Entries} (wrong : ¬ OptionalText (field? "name" fields)) :
      BlockOffends i (.map fields) (.name i)
        ⟨[.name "blocks", .index i, .name "name"], .notText⟩
  | statements {fields : Entries} {value : Value} (given : field? "statements" fields = some value)
      (noList : ∀ items, value ≠ .list items) :
      BlockOffends i (.map fields) (.statements i)
        ⟨[.name "blocks", .index i, .name "statements"], .notList⟩
  | statement {fields : Entries} {items : List Value} {j : Nat} {item : Value}
      (given : field? "statements" fields = some (.list items)) (listed : items[j]? = some item)
      (noText : ¬ IsText item) :
      BlockOffends i (.map fields) (.statement i j)
        ⟨[.name "blocks", .index i, .name "statements", .index j], .notText⟩
  | key {fields : Entries} {k : Nat} {key : Scalar} {value : Value}
      (listed : fields[k]? = some (key, value)) (noText : ¬ ∃ text, key = .text text) :
      BlockOffends i (.map fields) (.blockKey i k)
        ⟨[.name "blocks", .index i, stepOf key], .keyNotText⟩

/-- What is wrong about a mapping in the place of a configuration, and at which sites. -/
inductive Offends (entries : Entries) : Site → Issue → Prop
  | version {value : Value} (given : field? "version" entries = some value)
      (unknown : value.plain ∉ Defect.supportedVersions) :
      Offends entries .version ⟨[.name "version"], .unsupportedVersion value.plain⟩
  | description (wrong : ¬ OptionalText (field? "description" entries)) :
      Offends entries .description ⟨[.name "description"], .notText⟩
  | blocks {value : Value} (given : field? "blocks" entries = some value)
      (noList : ∀ items, value ≠ .list items) :
      Offends entries .blocks ⟨[.name "blocks"], .notList⟩
  | block {items : List Value} {i : Nat} {item : Value} {site : Site} {issue : Issue}
      (given : field? "blocks" entries = some (.list items)) (listed : items[i]? = some item)
      (wrong : BlockOffends i item site issue) : Offends entries site issue
  | key {k : Nat} {key : Scalar} {value : Value} (listed : entries[k]? = some (key, value))
      (noText : ¬ ∃ text, key = .text text) :
      Offends entries (.key k) ⟨[stepOf key], .keyNotText⟩

/-- Issues that itemize what is wrong: one for each offending site, in the order of the sites. -/
def Itemizes (offends : Site → Issue → Prop) (found : List Issue) : Prop :=
  ∃ listed : List (Site × Issue),
    listed.Pairwise (fun first second => first.1 < second.1) ∧
      (∀ site issue, (site, issue) ∈ listed ↔ offends site issue) ∧ listed.map Prod.snd = found

/-- All that is wrong in one respect lies in front of all that is wrong in another. -/
def Precedes (first second : Site → Issue → Prop) : Prop :=
  ∀ site issue site' issue', first site issue → second site' issue' → site < site'

section Itemizes

variable {offends other : Site → Issue → Prop} {found found' : List Issue}

theorem Itemizes.congr (itemized : Itemizes offends found)
    (same : ∀ site issue, offends site issue ↔ other site issue) : Itemizes other found := by
  obtain ⟨listed, ordered, exactly, issues⟩ := itemized
  exact ⟨listed, ordered, fun site issue => (exactly site issue).trans (same site issue), issues⟩

theorem itemizes_nil : Itemizes (fun _ _ => False) [] := ⟨[], by simp⟩

theorem itemizes_of_check (ok : Prop) (site : Site) {issue : Issue} (passed : ok → found = [])
    (failed : ¬ ok → found = [issue]) :
    Itemizes (fun site' issue' => ¬ ok ∧ site' = site ∧ issue' = issue) found := by
  by_cases good : ok
  · rw [passed good]
    apply itemizes_nil.congr
    simp [good]
  · rw [failed good]
    refine ⟨[(site, issue)], by simp, ?_, rfl⟩
    simp [good]

theorem Itemizes.append (first : Itemizes offends found) (second : Itemizes other found')
    (apart : Precedes offends other) :
    Itemizes (fun site issue => offends site issue ∨ other site issue) (found ++ found') := by
  obtain ⟨listed, ordered, exactly, rfl⟩ := first
  obtain ⟨listed', ordered', exactly', rfl⟩ := second
  refine ⟨listed ++ listed', ?_, ?_, List.map_append⟩
  · rw [List.pairwise_append]
    refine ⟨ordered, ordered', ?_⟩
    intro item present item' present'
    exact apart _ _ _ _ ((exactly _ _).mp present) ((exactly' _ _).mp present')
  · intro site issue
    rw [List.mem_append, exactly, exactly']

theorem itemizes_flatMap {α : Type} {parts : List α} {check : α → List Issue}
    {offends : α → Site → Issue → Prop} (each : ∀ part, Itemizes (offends part) (check part))
    (apart : parts.Pairwise fun first second => Precedes (offends first) (offends second)) :
    Itemizes (fun site issue => ∃ part ∈ parts, offends part site issue) (parts.flatMap check) := by
  induction parts with
  | nil =>
      apply itemizes_nil.congr
      simp
  | cons part rest ih =>
      rw [List.pairwise_cons] at apart
      rw [List.flatMap_cons]
      apply ((each part).append (ih apart.2) ?_).congr
      · intro site issue
        rw [List.exists_mem_cons_iff]
      · rintro site issue site' issue' wrong ⟨later, present, wrong'⟩
        exact apart.1 later present _ _ _ _ wrong wrong'

theorem itemizes_zipIdx {α : Type} (items : List α) {check : α × Nat → List Issue}
    {offends : Nat → α → Site → Issue → Prop}
    (each : ∀ item i, Itemizes (offends i item) (check (item, i)))
    (apart : ∀ i j item item', i < j → Precedes (offends i item) (offends j item')) :
    Itemizes (fun site issue => ∃ i item, items[i]? = some item ∧ offends i item site issue)
      (items.zipIdx.flatMap check) := by
  have ascending : items.zipIdx.Pairwise fun first second => first.2 < second.2 := by
    apply List.pairwise_map.mp
    rw [List.zipIdx_map_snd]
    exact List.pairwise_lt_range'
  have parts := itemizes_flatMap (fun part : α × Nat => each part.1 part.2)
    (ascending.imp fun before => apart _ _ _ _ before)
  apply parts.congr
  intro site issue
  constructor
  · rintro ⟨⟨item, i⟩, listed, wrong⟩
    exact ⟨i, item, List.mem_zipIdx_iff_getElem?.mp listed, wrong⟩
  · rintro ⟨i, item, listed, wrong⟩
    exact ⟨(item, i), List.mem_zipIdx_iff_getElem?.mpr listed, wrong⟩

end Itemizes

section Checks

theorem textIssues_of_not {place : List Step} {value : Value} (wrong : ¬ IsText value) :
    textIssues place value = [⟨place, .notText⟩] := by
  unfold textIssues
  split
  · exact absurd ⟨_, rfl⟩ wrong
  · rfl

theorem optionalTextIssues_of_not {place : List Step} {field : Option Value}
    (wrong : ¬ OptionalText field) : optionalTextIssues place field = [⟨place, .notText⟩] := by
  unfold optionalTextIssues
  split
  · exact absurd (Or.inl rfl) wrong
  · exact absurd (Or.inr (Or.inl rfl)) wrong
  · apply textIssues_of_not
    rintro ⟨text, rfl⟩
    exact wrong (Or.inr (Or.inr ⟨text, rfl⟩))

theorem itemizes_textIssues (site : Site) (place : List Step) (value : Value) :
    Itemizes (fun site' issue => ¬ IsText value ∧ site' = site ∧ issue = ⟨place, .notText⟩)
      (textIssues place value) :=
  itemizes_of_check _ site (textIssues_eq_nil_iff place value).mpr textIssues_of_not

theorem itemizes_optionalTextIssues (site : Site) (place : List Step) (field : Option Value) :
    Itemizes (fun site' issue => ¬ OptionalText field ∧ site' = site ∧ issue = ⟨place, .notText⟩)
      (optionalTextIssues place field) :=
  itemizes_of_check _ site (optionalTextIssues_eq_nil_iff place field).mpr optionalTextIssues_of_not

theorem itemizes_versionIssues (field : Option Value) :
    Itemizes (fun site issue => ∃ value, field = some value ∧
        value.plain ∉ Defect.supportedVersions ∧ site = .version ∧
        issue = ⟨[.name "version"], .unsupportedVersion value.plain⟩)
      (versionIssues field) := by
  cases field with
  | none =>
      apply itemizes_nil.congr
      simp
  | some value =>
      have check : Itemizes _ (versionIssues (some value)) :=
        itemizes_of_check _ .version (fun good => if_pos good) fun bad => if_neg bad
      apply check.congr
      simp

/-- A list in which every item is checked. What is wrong is that there is no list, or what is wrong
about one of the items. -/
theorem itemizes_listIssues (site : Site) (place : List Step)
    (check : List Step → Value → List Issue) {offends : Nat → Value → Site → Issue → Prop}
    (each : ∀ item i, Itemizes (offends i item) (check (place ++ [.index i]) item))
    (apart : ∀ i j item item', i < j → Precedes (offends i item) (offends j item'))
    (field : Option Value) :
    Itemizes (fun site' issue =>
        (∃ value, field = some value ∧ (∀ items, value ≠ .list items) ∧ site' = site ∧
          issue = ⟨place, .notList⟩) ∨
        ∃ items, field = some (.list items) ∧
          ∃ i item, items[i]? = some item ∧ offends i item site' issue)
      (listIssues place check field) := by
  unfold listIssues
  split
  · apply itemizes_nil.congr
    simp
  · rename_i items
    apply (itemizes_zipIdx items each apart).congr
    simp
  · rename_i value noList
    have single : Itemizes _ [⟨place, .notList⟩] :=
      itemizes_of_check False site False.elim fun _ => rfl
    apply single.congr
    intro site' issue
    constructor
    · rintro ⟨-, here⟩
      exact Or.inl ⟨value, rfl, noList, here⟩
    · rintro (⟨_, -, -, here⟩ | ⟨items, given, -⟩)
      · exact ⟨not_false, here⟩
      · exact absurd (Option.some.inj given) (noList items)

theorem itemizes_textList (site : Site) (siteAt : Nat → Site)
    (ascending : ∀ i j, i < j → siteAt i < siteAt j) (place : List Step) (field : Option Value) :
    Itemizes (fun site' issue =>
        (∃ value, field = some value ∧ (∀ items, value ≠ .list items) ∧ site' = site ∧
          issue = ⟨place, .notList⟩) ∨
        ∃ items, field = some (.list items) ∧ ∃ i item, items[i]? = some item ∧ ¬ IsText item ∧
          site' = siteAt i ∧ issue = ⟨place ++ [.index i], .notText⟩)
      (listIssues place textIssues field) := by
  apply itemizes_listIssues site place textIssues
    (fun item i => itemizes_textIssues (siteAt i) _ item)
  rintro i j item item' before _ _ _ _ ⟨-, rfl, -⟩ ⟨-, rfl, -⟩
  exact ascending i j before

theorem keyIssues_cons (place : List Step) (entry : Scalar × Value) (rest : Entries) :
    keyIssues place (entry :: rest) = keyIssues place [entry] ++ keyIssues place rest :=
  List.filterMap_append (l := [entry])

theorem itemizes_keyIssues (siteAt : Nat → Site) (ascending : ∀ j k, j < k → siteAt j < siteAt k)
    (place : List Step) (entries : Entries) :
    Itemizes (fun site issue => ∃ k entry, entries[k]? = some entry ∧
        (¬ ∃ text, entry.1 = .text text) ∧ site = siteAt k ∧
          issue = ⟨place ++ [stepOf entry.1], .keyNotText⟩)
      (keyIssues place entries) := by
  have split : keyIssues place entries =
      entries.zipIdx.flatMap fun part => keyIssues place [part.1] := by
    conv_lhs => rw [← List.zipIdx_map_fst 0 entries]
    induction entries.zipIdx with
    | nil => rfl
    | cons part rest ih => rw [List.map_cons, keyIssues_cons, ih, List.flatMap_cons]
  rw [split]
  apply itemizes_zipIdx entries
  · rintro ⟨key, value⟩ k
    apply itemizes_of_check _ (siteAt k)
    · rintro ⟨text, rfl⟩
      rfl
    · intro noText
      cases key with
      | text text => exact absurd ⟨text, rfl⟩ noText
      | _ => rfl
  · rintro j k entry entry' before _ _ _ _ ⟨-, rfl, -⟩ ⟨-, rfl, -⟩
    exact ascending j k before

theorem itemizes_notMapping {i : Nat} {value : Value} (other : ∀ fields, value ≠ .map fields) :
    Itemizes (BlockOffends i value) [⟨[.name "blocks", .index i], .notMapping⟩] := by
  have single : Itemizes _ [⟨[.name "blocks", .index i], .notMapping⟩] :=
    itemizes_of_check False (.block i) False.elim fun _ => rfl
  apply single.congr
  intro site issue
  constructor
  · rintro ⟨-, rfl, rfl⟩
    exact .notMapping other
  · intro wrong
    cases wrong with
    | notMapping _ => exact ⟨not_false, rfl, rfl⟩
    | _ => exact absurd rfl (other _)

theorem itemizes_blockFields (i : Nat) (fields : Entries) :
    Itemizes (BlockOffends i (.map fields))
      (blockIssues [.name "blocks", .index i] (.map fields)) := by
  have name := itemizes_optionalTextIssues (.name i) [.name "blocks", .index i, .name "name"]
    (field? "name" fields)
  have statements := itemizes_textList (.statements i) (.statement i)
    (fun j k before => by simpa [Site.ordinals, List.cons_lt_cons_iff] using before)
    [.name "blocks", .index i, .name "statements"] (field? "statements" fields)
  have keys := itemizes_keyIssues (.blockKey i)
    (fun j k before => by simpa [Site.ordinals, List.cons_lt_cons_iff] using before)
    [.name "blocks", .index i] fields
  apply ((name.append statements ?_).append keys ?_).congr
  · intro site issue
    constructor
    · rintro ((⟨wrong, rfl, rfl⟩ | ⟨value, given, noList, rfl, rfl⟩ |
        ⟨items, given, j, item, listed, noText, rfl, rfl⟩) |
        ⟨k, ⟨key, value⟩, listed, noText, rfl, rfl⟩)
      · exact .name wrong
      · exact .statements given noList
      · exact .statement given listed noText
      · exact .key listed noText
    · intro wrong
      cases wrong with
      | notMapping other => exact absurd rfl (other fields)
      | name wrong => exact Or.inl (Or.inl ⟨wrong, rfl, rfl⟩)
      | statements given noList => exact Or.inl (Or.inr (Or.inl ⟨_, given, noList, rfl, rfl⟩))
      | statement given listed noText =>
          exact Or.inl (Or.inr (Or.inr ⟨_, given, _, _, listed, noText, rfl, rfl⟩))
      | key listed noText => exact Or.inr ⟨_, _, listed, noText, rfl, rfl⟩
  · rintro _ _ _ _ ⟨-, rfl, -⟩ (⟨_, -, -, rfl, -⟩ | ⟨_, -, _, _, -, -, rfl, -⟩) <;>
      simp [Site.ordinals, List.cons_lt_cons_iff]
  · rintro _ _ _ _ (⟨-, rfl, -⟩ | ⟨_, -, -, rfl, -⟩ | ⟨_, -, _, _, -, -, rfl, -⟩)
      ⟨_, _, -, -, rfl, -⟩ <;> simp [Site.ordinals, List.cons_lt_cons_iff]

theorem itemizes_blockIssues (i : Nat) (value : Value) :
    Itemizes (BlockOffends i value) (blockIssues [.name "blocks", .index i] value) := by
  cases value with
  | map fields => exact itemizes_blockFields i fields
  | scalar value => exact itemizes_notMapping fun _ same => nomatch same
  | list items => exact itemizes_notMapping fun _ same => nomatch same

theorem exists_ordinals_of_block {i : Nat} {value : Value} {site : Site} {issue : Issue}
    (wrong : BlockOffends i value site issue) : ∃ inner, site.ordinals = 2 :: i :: inner := by
  cases wrong <;> exact ⟨_, rfl⟩

theorem precedes_of_lt {i j : Nat} {value value' : Value} (before : i < j) :
    Precedes (BlockOffends i value) (BlockOffends j value') := by
  intro site issue site' issue' wrong wrong'
  obtain ⟨inner, ordinals⟩ := exists_ordinals_of_block wrong
  obtain ⟨inner', ordinals'⟩ := exists_ordinals_of_block wrong'
  simp [ordinals, ordinals', List.cons_lt_cons_iff, before]

theorem exists_ordinals_of_blocks {field : Option Value} {site : Site} {issue : Issue}
    (wrong : (∃ value, field = some value ∧ (∀ items, value ≠ .list items) ∧ site = .blocks ∧
        issue = ⟨[.name "blocks"], .notList⟩) ∨
      ∃ items, field = some (.list items) ∧
        ∃ i item, items[i]? = some item ∧ BlockOffends i item site issue) :
    ∃ inner, site.ordinals = 2 :: inner := by
  rcases wrong with ⟨_, -, -, rfl, -⟩ | ⟨_, -, i, _, -, wrong⟩
  · exact ⟨_, rfl⟩
  · obtain ⟨inner, ordinals⟩ := exists_ordinals_of_block wrong
    exact ⟨i :: inner, ordinals⟩

theorem itemizes_issues (entries : Entries) : Itemizes (Offends entries) (issues entries) := by
  have version := itemizes_versionIssues (field? "version" entries)
  have description := itemizes_optionalTextIssues .description [.name "description"]
    (field? "description" entries)
  have blocks := itemizes_listIssues .blocks [.name "blocks"] blockIssues
    (fun item i => itemizes_blockIssues i item) (fun _ _ _ _ before => precedes_of_lt before)
    (field? "blocks" entries)
  have keys := itemizes_keyIssues .key
    (fun j k before => by simpa [Site.ordinals, List.cons_lt_cons_iff] using before) [] entries
  apply (((version.append description ?_).append blocks ?_).append keys ?_).congr
  · intro site issue
    constructor
    · rintro (((⟨value, given, unknown, rfl, rfl⟩ | ⟨wrong, rfl, rfl⟩) |
        ⟨value, given, noList, rfl, rfl⟩ | ⟨items, given, i, item, listed, wrong⟩) |
        ⟨k, ⟨key, value⟩, listed, noText, rfl, rfl⟩)
      · exact .version given unknown
      · exact .description wrong
      · exact .blocks given noList
      · exact .block given listed wrong
      · exact .key listed noText
    · intro wrong
      cases wrong with
      | version given unknown => exact Or.inl (Or.inl (Or.inl ⟨_, given, unknown, rfl, rfl⟩))
      | description wrong => exact Or.inl (Or.inl (Or.inr ⟨wrong, rfl, rfl⟩))
      | blocks given noList => exact Or.inl (Or.inr (Or.inl ⟨_, given, noList, rfl, rfl⟩))
      | block given listed wrong =>
          exact Or.inl (Or.inr (Or.inr ⟨_, given, _, _, listed, wrong⟩))
      | key listed noText => exact Or.inr ⟨_, _, listed, noText, rfl, rfl⟩
  · rintro _ _ _ _ ⟨_, -, -, rfl, -⟩ ⟨-, rfl, -⟩
    exact Site.lt_of_heads rfl rfl (by decide)
  · intro site issue site' issue' earlier wrong
    obtain ⟨inner, ordinals⟩ := exists_ordinals_of_blocks wrong
    rcases earlier with ⟨_, -, -, rfl, -⟩ | ⟨-, rfl, -⟩
    · exact Site.lt_of_heads rfl ordinals (by decide)
    · exact Site.lt_of_heads rfl ordinals (by decide)
  · rintro site issue _ _ earlier ⟨_, _, -, -, rfl, -⟩
    rcases earlier with (⟨_, -, -, rfl, -⟩ | ⟨-, rfl, -⟩) | wrong
    · exact Site.lt_of_heads rfl rfl (by decide)
    · exact Site.lt_of_heads rfl rfl (by decide)
    · obtain ⟨inner, ordinals⟩ := exists_ordinals_of_blocks wrong
      exact Site.lt_of_heads ordinals rfl (by decide)

end Checks

end Schema

end Permits
