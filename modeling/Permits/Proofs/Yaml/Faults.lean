import Permits.Yaml.Document

set_option autoImplicit false

namespace Permits.Yaml

/-- Whatever is read can be written: no number that is read is overlong. -/
theorem Number.natAbs_lt_of_readInt {text : String} {value : Int}
    (read : readInt text = .ok value) : value.natAbs < Nat.pow 10 Text.mostDigits := by
  unfold readInt at read
  dsimp only at read
  split at read
  · cases read
  · split at read
    · rename_i size _
      split at read
      · cases read
      · rename_i short
        have bound : size.natAbs < Nat.pow 10 Text.mostDigits := by
          simpa only [isOverlong, decide_eq_true_eq, Nat.not_le] using short
        rw [Except.ok.injEq] at read
        rw [← read]
        split
        · rwa [Int.natAbs_neg]
        · exact bound
    · cases read

namespace Ask

theorem make?_asKey {kind : Kind} {text : String} {standsIn : Bool} {ask : Ask}
    (made : make? kind text standsIn = some ask) : make? kind.asKey text standsIn = some ask := by
  have same : kind.asKey = kind := by
    rw [Kind.asKey, if_neg]
    rintro rfl
    cases made
  rwa [same]

end Ask

theorem Kind.asKey_asKey (kind : Kind) : kind.asKey.asKey = kind.asKey := by
  cases kind <;> rfl

/-- The scalars that are asked for before a wrong form is met. -/
def Need.asks : List Need → List Ask
  | some ask :: rest => ask :: asks rest
  | _ => []

theorem Levels.mem_append {first second : Levels} {need : Need} :
    need ∈ (first.append second).flatten ↔ need ∈ first.flatten ∨ need ∈ second.flatten := by
  fun_induction append first second with
  | case1 => simp
  | case2 => simp
  | case3 level rest level' rest' ih =>
      simp only [List.flatten_cons, List.mem_append, ih]
      exact or_or_or_comm

namespace Node

/-- The scalars that are asked for before a wrong form is met in the document, level by level. -/
def asks (node : Node) : List Ask := Need.asks node.needs

mutual

/-- The scalars that a node can ask for: those that are written in it, and those that stand for
mappings. -/
def asked : Node → List Ask
  | scalar kind text => (Ask.make? kind.asKey text false).toList
  | sequence _ items => askedByItems items
  | mapping kind entries =>
      ((entriesText? entries).bind (Ask.make? kind.asKey · true)).toList ++ askedByEntries entries

def askedByItems : List Node → List Ask
  | [] => []
  | item :: rest => asked item ++ askedByItems rest

def askedByEntries : List (Node × Node) → List Ask
  | [] => []
  | (key, value) :: rest => asked key ++ (asked value ++ askedByEntries rest)

end

end Node

namespace Meaning

/-- Every scalar that is asked for is one of the given. -/
def AsksWithin (asked : List Ask) (meaning : Meaning) : Prop :=
  ∀ ask, some ask ∈ meaning.needs.flatten → ask ∈ asked

variable {asked more : List Ask} {meaning : Meaning}

theorem AsksWithin.mono (asks : meaning.AsksWithin asked) (within : ∀ ask ∈ asked, ask ∈ more) :
    meaning.AsksWithin more := fun ask present => within ask (asks ask present)

theorem AsksWithin.below (asks : meaning.AsksWithin asked) {ask : Ask}
    (present : some ask ∈ meaning.below.flatten) : ask ∈ asked := by
  rw [Meaning.below, List.flatten_cons, List.nil_append] at present
  exact asks ask present

theorem asksWithin_unfilled : unfilled.AsksWithin asked := by
  intro ask present
  simp [unfilled] at present

theorem asksWithin_ofNeed (need : Option Ask) : (ofNeed need).AsksWithin need.toList := by
  intro ask present
  simpa [ofNeed, eq_comm] using present

theorem asksWithin_ofScalar (kind : Kind) (text : String) :
    (ofScalar kind text).AsksWithin (Ask.make? kind.asKey text false).toList := by
  rw [ofScalar]
  split
  · exact asksWithin_unfilled
  · refine (asksWithin_ofNeed _).mono fun ask made => ?_
    rw [Option.mem_toList] at made ⊢
    exact Ask.make?_asKey made

theorem asksWithin_asKind (kind : Kind) (text : Option String) :
    (Node.asKind kind text).AsksWithin (text.bind (Ask.make? kind.asKey · true)).toList := by
  rw [Node.asKind]
  split
  · exact asksWithin_unfilled
  · refine (asksWithin_ofNeed _).mono fun ask made => ?_
    rw [Option.mem_toList] at made ⊢
    obtain ⟨scalar, same, made⟩ := Option.bind_eq_some_iff.mp made
    exact Option.bind_eq_some_iff.mpr ⟨scalar, same, Ask.make?_asKey made⟩

theorem asksWithin_ofItems {items : List Meaning}
    (parts : ∀ item ∈ items, item.AsksWithin asked) : (ofItems items).AsksWithin asked := by
  intro ask present
  rw [ofItems] at present
  induction items with
  | nil => cases present
  | cons item rest ih =>
      obtain ⟨first, others⟩ := List.forall_mem_cons.mp parts
      rw [List.foldr_cons, Levels.mem_append] at present
      rcases present with inFirst | inRest
      · exact first.below inFirst
      · exact ih others inRest

/-- The keys and values of entries ask for none but the given scalars. -/
def EntriesWithin (asked : List Ask) (entries : List (Meaning × Meaning)) : Prop :=
  ∀ entry ∈ entries, entry.1.AsksWithin asked ∧ entry.2.AsksWithin asked

theorem EntriesWithin.mono {entries : List (Meaning × Meaning)}
    (asks : EntriesWithin asked entries) (within : ∀ ask ∈ asked, ask ∈ more) :
    EntriesWithin more entries := fun entry member =>
  ⟨(asks entry member).1.mono within, (asks entry member).2.mono within⟩

theorem EntriesWithin.append {first second : List (Meaning × Meaning)}
    (front : EntriesWithin asked first) (back : EntriesWithin asked second) :
    EntriesWithin asked (first ++ second) := List.forall_mem_append.mpr ⟨front, back⟩

theorem mem_of_entryNeeds {key value : Meaning} (ofKey : key.AsksWithin asked)
    (ofValue : value.AsksWithin asked) {ask : Ask}
    (present : some ask ∈ (entryNeeds key value).flatten) : ask ∈ asked := by
  rw [entryNeeds, Levels.mem_append] at present
  rcases present with inKey | behind
  · exact ofKey.below inKey
  · split at behind
    · exact ofValue.below behind
    · simp at behind

theorem asksWithin_ofEntries {entries : List (Meaning × Meaning)}
    (parts : EntriesWithin asked entries) : (ofEntries entries).AsksWithin asked := by
  intro ask present
  rw [ofEntries] at present
  induction entries with
  | nil => cases present
  | cons entry rest ih =>
      obtain ⟨⟨ofKey, ofValue⟩, others⟩ := List.forall_mem_cons.mp parts
      rw [List.foldr_cons, Levels.mem_append] at present
      rcases present with inFirst | inRest
      · exact mem_of_entryNeeds ofKey ofValue inFirst
      · exact ih others inRest

end Meaning

namespace Node

open Meaning

theorem asksWithin_asKey (key : Node) {elsewhere : Meaning}
    (asks : elsewhere.AsksWithin key.asked) : (asKey key elsewhere).AsksWithin key.asked := by
  unfold asKey
  split
  · rename_i kind text
    have ofKey := asksWithin_ofScalar kind.asKey text
    rwa [Kind.asKey_asKey] at ofKey
  · rw [asked]
    exact (asksWithin_asKind .text _).mono fun _ => List.mem_append_left _
  · exact asks

mutual

theorem asksWithin_meaning (node : Node) : node.meaning.AsksWithin node.asked := by
  match node with
  | scalar kind text => exact asksWithin_ofScalar kind text
  | sequence kind items =>
      rw [meaning, asked]
      split
      · exact asksWithin_ofItems (asksWithin_items items)
      · exact (asksWithin_asKind kind none).mono fun _ present => nomatch present
  | mapping kind entries =>
      rw [meaning, asked]
      split
      · split
        · rename_i found read
          exact (asksWithin_ofEntries (entriesWithin entries found read)).mono fun _ =>
            List.mem_append_right _
        · exact asksWithin_unfilled
      · exact (asksWithin_asKind kind _).mono fun _ => List.mem_append_left _
termination_by structural node

theorem asksWithin_items (items : List Node) :
    ∀ item ∈ itemMeanings items, item.AsksWithin (askedByItems items) := by
  match items with
  | [] => exact fun _ member => nomatch member
  | item :: rest =>
      rw [itemMeanings, askedByItems, List.forall_mem_cons]
      have first := (asksWithin_meaning item).mono fun _ =>
        List.mem_append_left (askedByItems rest)
      exact ⟨first, fun other member => (asksWithin_items rest other member).mono fun _ =>
        List.mem_append_right (asked item)⟩
termination_by structural items

theorem entriesWithin (entries : List (Node × Node)) (found : Entries)
    (read : entryMeanings entries = some found) :
    EntriesWithin (askedByEntries entries) found.all := by
  match entries with
  | [] =>
      rw [entryMeanings, Option.some.injEq] at read
      rw [← read]
      exact fun _ member => nomatch member
  | (key, value) :: rest =>
      rw [entryMeanings] at read
      rw [askedByEntries]
      have inValue : ∀ ask ∈ asked value, ask ∈ asked key ++ (asked value ++ askedByEntries rest) :=
        fun _ member => List.mem_append_right _ (List.mem_append_left _ member)
      have inRest : ∀ ask ∈ askedByEntries rest,
          ask ∈ asked key ++ (asked value ++ askedByEntries rest) :=
        fun _ member => List.mem_append_right _ (List.mem_append_right _ member)
      split at read
      · split at read
        · rename_i merged others ofMerged ofRest
          rw [Option.some.injEq] at read
          rw [← read, Entries.all, List.append_assoc]
          exact ((mergedWithin value merged ofMerged).mono inValue).append
            ((entriesWithin rest others ofRest).mono inRest)
        · cases read
      · obtain ⟨others, ofRest, same⟩ := Option.map_eq_some_iff.mp read
        obtain ⟨merged, own⟩ :=
          List.forall_mem_append.mp ((entriesWithin rest others ofRest).mono inRest)
        have ofKey := (asksWithin_asKey key (asksWithin_meaning key)).mono fun _ =>
          List.mem_append_left (asked value ++ askedByEntries rest)
        have ofValue := (asksWithin_meaning value).mono inValue
        rw [← same, Entries.all]
        exact EntriesWithin.append merged (List.forall_mem_cons.mpr ⟨⟨ofKey, ofValue⟩, own⟩)
termination_by structural entries

theorem mergedWithin (node : Node) (found : List (Meaning × Meaning))
    (read : mergedMeanings node = some found) : EntriesWithin node.asked found := by
  match node with
  | scalar _ _ => cases read
  | sequence _ items =>
      rw [mergedMeanings] at read
      exact mergedItemsWithin items found read
  | mapping _ entries =>
      rw [mergedMeanings] at read
      obtain ⟨others, ofEntries, same⟩ := Option.map_eq_some_iff.mp read
      rw [← same, asked]
      exact (entriesWithin entries others ofEntries).mono fun _ => List.mem_append_right _
termination_by structural node

theorem mergedItemsWithin (items : List Node) (found : List (Meaning × Meaning))
    (read : mergedItems items = some found) : EntriesWithin (askedByItems items) found := by
  match items with
  | [] =>
      rw [mergedItems, Option.some.injEq] at read
      rw [← read]
      exact fun _ member => nomatch member
  | mapping kind entries :: rest =>
      rw [mergedItems] at read
      split at read
      · rename_i own others ofEntries ofRest
        rw [Option.some.injEq] at read
        rw [← read, askedByItems, asked]
        have ofOwn := (entriesWithin entries own ofEntries).mono fun _ member =>
          List.mem_append_left (askedByItems rest)
            (List.mem_append_right
              ((entriesText? entries).bind (Ask.make? kind.asKey · true)).toList member)
        exact ((mergedItemsWithin rest others ofRest).mono fun _ =>
          List.mem_append_right _).append ofOwn
      · cases read
  | scalar _ _ :: _ => cases read
  | sequence _ _ :: _ => cases read
termination_by structural items

end

end Node

section Read

variable {text : String}

end Read

end Permits.Yaml
