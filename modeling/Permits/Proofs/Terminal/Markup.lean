import Permits.Terminal.Markup

set_option autoImplicit false

namespace Permits.Terminal.Markup

theorem startsTag_backslash : startsTag '\\' = false := by decide

theorem backslashes_succ (count : Nat) : backslashes (count + 1) = '\\' :: backslashes count := rfl

@[simp] theorem backslashes_append (first second : Nat) :
    backslashes first ++ backslashes second = backslashes (first + second) :=
  List.replicate_append_replicate

theorem closing?_backslashes_append (count : Nat) (cs : List Char) :
    closing? (backslashes count ++ cs) = (closing? cs).map (· + count) := by
  induction count with
  | zero => simp [backslashes]
  | succ count ih =>
      rw [backslashes_succ, List.cons_append, closing?, if_neg (by decide), if_neg (by decide), ih]
      cases closing? cs <;> simp [Nat.add_assoc]

theorem closing?_backslashes (count : Nat) : closing? (backslashes count) = none := by
  simpa [closing?] using closing?_backslashes_append count []

theorem closing?_take_append {cs : List Char} {length : Nat} (found : closing? cs = some length)
    (later : List Char) : closing? (cs.take (length + 1) ++ later) = some length := by
  induction cs generalizing length with
  | nil => cases found
  | cons c rest ih =>
      rw [closing?] at found
      rw [List.take_succ_cons, List.cons_append, closing?]
      split at found
      case isTrue closes =>
          rw [if_pos closes, found]
      case isFalse stays =>
          rw [if_neg stays]
          split at found
          · cases found
          case isFalse inner =>
              obtain ⟨before, inside, rfl⟩ := Option.map_eq_some_iff.mp found
              rw [if_neg inner, ih inside]
              rfl

theorem lt_length_of_closing? {cs : List Char} {length : Nat} (found : closing? cs = some length) :
    length < cs.length := by
  induction cs generalizing length with
  | nil => cases found
  | cons c rest ih =>
      rw [closing?] at found
      split at found
      · cases found
        exact Nat.zero_lt_succ _
      · split at found
        · cases found
        · obtain ⟨before, inside, rfl⟩ := Option.map_eq_some_iff.mp found
          exact Nat.succ_lt_succ (ih inside)

theorem closing?_escapeFrom_of_none {cs : List Char} (unclosed : closing? cs = none)
    (before last : Nat) : closing? (escapeFrom before cs ++ backslashes last) = none := by
  induction cs generalizing before with
  | nil => rw [escapeFrom, backslashes_append, closing?_backslashes]
  | cons c rest ih =>
      rw [closing?] at unclosed
      split at unclosed
      · cases unclosed
      case isFalse stays =>
          rw [escapeFrom]
          by_cases slash : c = '\\'
          · subst slash
            rw [if_pos rfl]
            exact ih (by simpa using unclosed) _
          · rw [if_neg slash]
            -- an opening bracket comes first, whether it gets backslashes or not
            by_cases opens : c = '['
            · subst opens
              split <;> simp [closing?_backslashes_append, closing?]
            · rw [if_neg opens]
              rw [if_neg opens, Option.map_eq_none_iff] at unclosed
              simp [closing?_backslashes_append, closing?, stays, opens, ih unclosed]

theorem exists_escapeFrom_succ (before : Nat) (cs : List Char) :
    ∃ later, escapeFrom (before + 1) cs = '\\' :: later := by
  induction cs generalizing before with
  | nil => exact ⟨_, by rw [escapeFrom, backslashes_succ]⟩
  | cons c rest ih =>
      rw [escapeFrom]
      split
      · exact ih _
      · split
        · exact ⟨_, by rw [Nat.mul_add, backslashes_succ]; rfl⟩
        · exact ⟨_, by rw [backslashes_succ]; rfl⟩

theorem tagLength?_take_append {cs : List Char} {length : Nat} (tag : tagLength? cs = some length)
    (later : List Char) : tagLength? (cs.take length ++ later) = some length := by
  cases cs with
  | nil => cases tag
  | cons first rest =>
      rw [tagLength?] at tag
      split at tag
      case isTrue starts =>
          obtain ⟨inner, found, rfl⟩ := Option.map_eq_some_iff.mp tag
          rw [List.take_succ_cons, List.cons_append, tagLength?, if_pos starts,
            closing?_take_append found]
          rfl
      · cases tag

theorem length_take_of_tagLength? {cs : List Char} {length : Nat}
    (tag : tagLength? cs = some length) : (cs.take length).length = length := by
  cases cs with
  | nil => cases tag
  | cons first rest =>
      rw [tagLength?] at tag
      split at tag
      · obtain ⟨inner, found, rfl⟩ := Option.map_eq_some_iff.mp tag
        have within := lt_length_of_closing? found
        rw [List.length_take, List.length_cons]
        omega
      · cases tag

theorem tagLength?_escapeFrom_of_none {cs : List Char} (untagged : tagLength? cs = none)
    (last : Nat) : tagLength? (escapeFrom 0 cs ++ backslashes last) = none := by
  cases cs with
  | nil =>
      rw [escapeFrom, backslashes_append]
      cases last with
      | zero => rfl
      | succ last => simp [backslashes_succ, tagLength?, startsTag_backslash]
  | cons first rest =>
      rw [tagLength?] at untagged
      rw [escapeFrom]
      by_cases slash : first = '\\'
      · obtain ⟨later, starts⟩ := exists_escapeFrom_succ 0 rest
        rw [if_pos slash, starts, List.cons_append, tagLength?, startsTag_backslash]
        rfl
      · rw [if_neg slash]
        by_cases opens : first = '['
        · subst opens
          split
          · simp [backslashes_succ, tagLength?, startsTag_backslash]
          · simp [backslashes, tagLength?, show startsTag '[' = false by decide]
        · rw [if_neg opens]
          split at untagged
          case isTrue starts =>
              rw [Option.map_eq_none_iff] at untagged
              rw [List.append_assoc, backslashes, List.replicate_zero, List.nil_append,
                List.cons_append, tagLength?, closing?_escapeFrom_of_none untagged,
                Option.map_none, ite_self]
          case isFalse starts => simp [backslashes, tagLength?, starts]

theorem shownFrom?_backslashes_append (opened : List (List Char)) (before count : Nat)
    (cs : List Char) :
    shownFrom? opened before (backslashes count ++ cs) = shownFrom? opened (before + count) cs := by
  induction count generalizing before with
  | zero => rfl
  | succ count ih =>
      rw [backslashes_succ, List.cons_append, shownFrom?, if_pos rfl, ih, Nat.add_right_comm,
        Nat.add_assoc]

/-- An escaped text is shown, whatever styles are open: a tag in it stands behind an odd number of
backslashes, and so is text. -/
theorem exists_shownFrom?_escapeFrom (opened : List (List Char)) (before last : Nat)
    (cs : List Char) :
    ∃ shown, shownFrom? opened 0 (escapeFrom before cs ++ backslashes last) = some shown := by
  fun_induction escapeFrom before cs with
  | case1 before =>
      refine ⟨[backslashes (before + last)], ?_⟩
      rw [backslashes_append]
      simpa [shownFrom?] using shownFrom?_backslashes_append opened 0 (before + last) []
  | case2 before rest ih => exact ih
  | case3 before c rest plain length tag ih =>
      obtain ⟨shown, same⟩ := ih
      obtain ⟨rfl, tag⟩ : c = '[' ∧ tagLength? rest = some length := by
        split at tag
        · exact ⟨‹_›, tag⟩
        · cases tag
      refine ⟨[[], backslashes before, '[' :: rest.take length] ++ shown, ?_⟩
      have fits := length_take_of_tagLength? tag
      rw [List.append_assoc, List.append_assoc, shownFrom?_backslashes_append, List.cons_append,
        shownFrom?, if_neg plain, if_pos rfl, tagLength?_take_append tag]
      have odd : (0 + (2 * before + 1)) % 2 = 1 := by omega
      have half : (0 + (2 * before + 1)) / 2 = before := by omega
      simp only [odd, half, if_true, List.drop_left' fits, List.take_left' fits, same,
        Option.map_some]
  | case4 before c rest plain untagged ih =>
      obtain ⟨shown, same⟩ := ih
      refine ⟨glue (backslashes (if c = '[' then before - 1 else before) ++ [c]) shown, ?_⟩
      have noTag : (if c = '[' then tagLength? (escapeFrom 0 rest ++ backslashes last) else none) =
          none := by
        split
        case isTrue opens =>
            rw [dif_pos opens] at untagged
            exact tagLength?_escapeFrom_of_none untagged last
        · rfl
      rw [List.append_assoc, shownFrom?_backslashes_append, List.cons_append, shownFrom?,
        if_neg plain, noTag]
      simp [same]

theorem exists_shown?_escape (cs : List Char) : ∃ shown, shown? (escape cs) = some shown := by
  rw [escape]
  split
  · exact exists_shownFrom?_escapeFrom [] 0 1 cs
  · have shown := exists_shownFrom?_escapeFrom [] 0 0 cs
    rwa [backslashes, List.replicate_zero, List.append_nil] at shown

theorem exists_display? (emojis : Emojis) (text : String) :
    ∃ shown, display? emojis text = some shown := by
  obtain ⟨texts, same⟩ := exists_shown?_escape text.toList
  exact ⟨_, by rw [display?, same]; rfl⟩

theorem joinNames_of_unknown {emojis : Emojis} (parts : List (List Char))
    (unknown : ∀ name ∈ parts, emojis (String.ofList name) = none) :
    joinNames emojis parts = [':'].intercalate parts := by
  fun_induction joinNames emojis parts with
  | case1 => rfl
  | case2 last => simp
  | case3 first last => simp [List.intercalate]
  | case4 first name next rest _ ih =>
      rw [ih fun part present => unknown part (List.mem_cons_of_mem _ present)]
      simp [List.intercalate]
  | case5 first name next rest _ ih =>
      rw [List.forall_mem_cons, List.forall_mem_cons] at unknown
      rw [ih unknown.2.2, shownName, unknown.2.1]
      simp [List.intercalate]

theorem emojify_of_unknown {emojis : Emojis} {cs : List Char}
    (unknown : ∀ name ∈ cs.splitOn ':', emojis (String.ofList name) = none) :
    emojify emojis cs = cs := by
  rw [emojify, joinNames_of_unknown _ unknown, List.intercalate_splitOn]

end Permits.Terminal.Markup
