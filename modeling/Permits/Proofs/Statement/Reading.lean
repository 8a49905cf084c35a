import Permits.Proofs.Statement.Path

set_option autoImplicit false

namespace Permits

/-- Parts that some text writes. -/
structure Statement.WellFormed (statement : Statement) : Prop where
  permission : isPermission statement.permission.toList = true
  app : isName statement.app.toList = true
  path : IsPath statement.segments

theorem all_snoc {accepted : Char → Bool} {done : List Char} {c : Char}
    (begun : done.all accepted = true) (next : accepted c = true) :
    (done ++ [c]).all accepted = true := by
  simp only [List.all_append, List.all_cons, List.all_nil, begun, next, Bool.and_self]

theorem accepted_of_all {accepted : Char → Bool} {done rest : List Char} {c : Char}
    (all : (done ++ c :: rest).all accepted = true) : accepted c = true :=
  List.all_eq_true.mp all c (by simp)

theorem all_alphanum_of_isName {cs : List Char} (name : isName cs = true) :
    cs.all Char.isAlphanum = true := by
  simp only [isName, Bool.and_eq_true] at name
  exact name.2

theorem colon_not_mem_of_isName {cs : List Char} (name : isName cs = true) : ':' ∉ cs :=
  not_mem_of_all (by decide) (all_alphanum_of_isName name)

theorem at_not_mem_of_isPermission {cs : List Char} (permission : isPermission cs = true) :
    '@' ∉ cs := by
  simp only [isPermission, Bool.or_eq_true, beq_iff_eq] at permission
  rcases permission with star | name
  · simp [star]
  · exact not_mem_of_all (by decide) (all_alphanum_of_isName name)

namespace Grammar

/-- The pieces of a path, as the reader judges them. -/
def IsTail (pieces : List (List Char)) : Prop :=
  (∀ piece ∈ pieces, piece.all isSegmentChar = true) ∧ pieces.getLast? ≠ some []

theorem IsTail.cons_iff (piece : List Char) (rest : List (List Char)) (more : rest ≠ []) :
    IsTail (piece :: rest) ↔ piece.all isSegmentChar = true ∧ IsTail rest := by
  obtain ⟨next, later, rfl⟩ := List.exists_cons_of_ne_nil more
  simp only [IsTail, List.forall_mem_cons, List.getLast?_cons_cons, and_assoc]

theorem IsTail.head {piece : List Char} {rest : List (List Char)} (tail : IsTail (piece :: rest)) :
    piece.all isSegmentChar = true := tail.1 piece List.mem_cons_self

theorem acceptsPath_iff (filled : Bool) (done cs first : List Char) (others : List (List Char))
    (begun : done.all isSegmentChar = true) (state : filled = !done.isEmpty)
    (pieces : cs.splitOn ':' = first :: others) :
    acceptsPath filled cs = true ↔ IsTail ((done ++ first) :: others) := by
  induction cs generalizing filled done first others with
  | nil =>
      simp only [List.splitOn_nil, List.cons.injEq] at pieces
      obtain ⟨rfl, rfl⟩ := pieces
      have all := List.all_eq_true.mp begun
      simpa [acceptsPath, IsTail, state] using fun _ => all
  | cons c rest ih =>
      obtain ⟨next, later, split⟩ := List.exists_cons_of_ne_nil (List.splitOn_ne_nil ':' rest)
      rw [List.splitOn_cons_eq_if_modifyHead, split] at pieces
      rw [acceptsPath.eq_def]
      by_cases colon : c = ':'
      · simp only [colon, beq_self_eq_true, ↓reduceIte, List.cons.injEq] at pieces
        obtain ⟨rfl, rfl⟩ := pieces
        have fresh := ih false [] next later rfl rfl split
        simp only [colon, ↓reduceIte, fresh, List.nil_append, List.append_nil]
        rw [IsTail.cons_iff done _ (by simp), begun]
        simp
      · simp only [beq_iff_eq, colon, ↓reduceIte, List.modifyHead_cons, List.cons.injEq] at pieces
        obtain ⟨rfl, rfl⟩ := pieces
        simp only [colon, ↓reduceIte, Bool.and_eq_true]
        constructor
        · rintro ⟨accepted, further⟩
          have read := (ih true (done ++ [c]) next later (all_snoc begun accepted) (by simp)
            split).mp further
          simpa only [List.append_assoc, List.singleton_append] using read
        · intro tail
          have accepted := accepted_of_all tail.head
          refine ⟨accepted, (ih true (done ++ [c]) next later (all_snoc begun accepted) (by simp)
            split).mpr ?_⟩
          simpa only [List.append_assoc, List.singleton_append] using tail

theorem acceptsApp_iff (filled : Bool) (done cs first : List Char) (others : List (List Char))
    (begun : done.all Char.isAlphanum = true) (state : filled = !done.isEmpty)
    (pieces : cs.splitOn ':' = first :: others) :
    acceptsApp filled cs = true ↔ isName (done ++ first) = true ∧ IsTail others := by
  induction cs generalizing filled done first others with
  | nil =>
      simp only [List.splitOn_nil, List.cons.injEq] at pieces
      obtain ⟨rfl, rfl⟩ := pieces
      simp [acceptsApp, isName, IsTail, state, begun]
  | cons c rest ih =>
      obtain ⟨next, later, split⟩ := List.exists_cons_of_ne_nil (List.splitOn_ne_nil ':' rest)
      rw [List.splitOn_cons_eq_if_modifyHead, split] at pieces
      rw [acceptsApp.eq_def]
      by_cases colon : c = ':'
      · simp only [colon, beq_self_eq_true, ↓reduceIte, List.cons.injEq] at pieces
        obtain ⟨rfl, rfl⟩ := pieces
        have path := acceptsPath_iff false [] rest next later rfl rfl split
        simp only [colon, ↓reduceIte, Bool.and_eq_true, path, List.nil_append, List.append_nil,
          isName, begun, and_true, state]
      · simp only [beq_iff_eq, colon, ↓reduceIte, List.modifyHead_cons, List.cons.injEq] at pieces
        obtain ⟨rfl, rfl⟩ := pieces
        simp only [colon, ↓reduceIte, Bool.and_eq_true]
        constructor
        · rintro ⟨accepted, further⟩
          have read := (ih true (done ++ [c]) next later (all_snoc begun accepted) (by simp)
            split).mp further
          simpa only [List.append_assoc, List.singleton_append] using read
        · rintro ⟨name, tail⟩
          have accepted := accepted_of_all (all_alphanum_of_isName name)
          refine ⟨accepted, (ih true (done ++ [c]) next later (all_snoc begun accepted) (by simp)
            split).mpr ⟨?_, tail⟩⟩
          simpa only [List.append_assoc, List.singleton_append] using name

theorem acceptsName_iff (filled : Bool) (done cs : List Char)
    (begun : done.all Char.isAlphanum = true) (state : filled = !done.isEmpty) :
    acceptsName filled cs = true ↔
      ∃ name rest, cs = name ++ '@' :: rest ∧ isName (done ++ name) = true ∧
        acceptsApp false rest = true := by
  induction cs generalizing filled done with
  | nil => simp [acceptsName]
  | cons c rest ih =>
      rw [acceptsName.eq_def]
      by_cases separator : c = '@'
      · simp only [separator, ↓reduceIte, Bool.and_eq_true]
        constructor
        · rintro ⟨nonempty, app⟩
          refine ⟨[], rest, rfl, ?_, app⟩
          simpa [isName, begun, state] using nonempty
        · rintro ⟨name, after, same, good, app⟩
          cases name with
          | nil =>
              simp only [List.nil_append, List.cons.injEq, true_and] at same
              subst same
              exact ⟨by simpa [isName, begun, state] using good, app⟩
          | cons first name =>
              simp only [List.cons_append, List.cons.injEq] at same
              have accepted := accepted_of_all (all_alphanum_of_isName good)
              rw [← same.1] at accepted
              exact absurd accepted (by decide)
      · simp only [separator, ↓reduceIte, Bool.and_eq_true]
        constructor
        · rintro ⟨accepted, further⟩
          obtain ⟨name, after, rfl, good, app⟩ :=
            (ih true (done ++ [c]) (all_snoc begun accepted) (by simp)).mp further
          exact ⟨c :: name, after, rfl, by simpa using good, app⟩
        · rintro ⟨name, after, same, good, app⟩
          cases name with
          | nil =>
              simp only [List.nil_append, List.cons.injEq] at same
              exact absurd same.1 separator
          | cons first name =>
              simp only [List.cons_append, List.cons.injEq] at same
              obtain ⟨rfl, rfl⟩ := same
              have accepted := accepted_of_all (all_alphanum_of_isName good)
              refine ⟨accepted, (ih true (done ++ [c]) (all_snoc begun accepted) (by simp)).mpr ?_⟩
              exact ⟨name, after, rfl, by simpa using good, app⟩

theorem acceptsUnsigned_iff (cs : List Char) :
    acceptsUnsigned cs = true ↔
      ∃ permission rest, cs = permission ++ '@' :: rest ∧ isPermission permission = true ∧
        acceptsApp false rest = true := by
  have names := acceptsName_iff false [] cs rfl rfl
  simp only [List.nil_append] at names
  have starred : ∀ rest, acceptsUnsigned ('*' :: '@' :: rest) = acceptsApp false rest := by
    intro rest
    rfl
  constructor
  · intro accepted
    rw [acceptsUnsigned.eq_def] at accepted
    split at accepted
    · exact ⟨['*'], _, rfl, rfl, accepted⟩
    · obtain ⟨name, rest, same, good, app⟩ := names.mp accepted
      exact ⟨name, rest, same, by simp [isPermission, good], app⟩
  · rintro ⟨permission, rest, rfl, good, app⟩
    simp only [isPermission, Bool.or_eq_true, beq_iff_eq] at good
    rcases good with rfl | name
    · rw [List.singleton_append, starred, app]
    · rw [acceptsUnsigned.eq_def]
      split
      · rename_i after same
        cases permission with
        | nil => simp at same
        | cons first permission =>
            simp only [List.cons_append, List.cons.injEq] at same
            have accepted : first.isAlphanum = true :=
              List.all_eq_true.mp (all_alphanum_of_isName name) first List.mem_cons_self
            rw [same.1] at accepted
            exact absurd accepted (by decide)
      · exact names.mpr ⟨permission, rest, rfl, name, app⟩

end Grammar

/-- The signs that a statement of some effect can be written with. A grant needs none. -/
def Effect.Signs (effect : Effect) (sign : String) : Prop :=
  sign = effect.sign ∨ effect = .grant ∧ sign = ""

namespace Grammar

/-- Every text is a sign of the effect that its first character tells, with the rest behind it. -/
theorem exists_sign (cs : List Char) :
    ∃ sign, (if cs.head? = some '-' then Effect.deny else Effect.grant).Signs sign ∧
      cs = sign.toList ++ dropSign cs := by
  cases cs with
  | nil => exact ⟨"", Or.inr ⟨rfl, rfl⟩, rfl⟩
  | cons c rest =>
      by_cases minus : c = '-'
      · subst minus
        exact ⟨"-", Or.inl rfl, rfl⟩
      · by_cases plus : c = '+'
        · subst plus
          exact ⟨"+", Or.inl rfl, rfl⟩
        · refine ⟨"", Or.inr ⟨by simp [minus], rfl⟩, ?_⟩
          simp [dropSign, minus, plus]

theorem exists_cons_of_isPermission {permission : List Char}
    (good : isPermission permission = true) :
    ∃ c rest, permission = c :: rest ∧ c ≠ '+' ∧ c ≠ '-' := by
  simp only [isPermission, Bool.or_eq_true, beq_iff_eq] at good
  rcases good with star | name
  · exact ⟨'*', [], star, by decide, by decide⟩
  · cases permission with
    | nil => simp [isName] at name
    | cons c rest =>
        have accepted : c.isAlphanum = true :=
          List.all_eq_true.mp (all_alphanum_of_isName name) c List.mem_cons_self
        refine ⟨c, rest, rfl, ?_, ?_⟩
        · rintro rfl
          exact absurd accepted (by decide)
        · rintro rfl
          exact absurd accepted (by decide)

/-- A sign in front of a permission is all that is dropped, and it tells the effect. -/
theorem dropSign_of_signs {effect : Effect} {sign : String} (signs : effect.Signs sign)
    {permission : List Char} (good : isPermission permission = true) (rest : List Char) :
    dropSign (sign.toList ++ (permission ++ rest)) = permission ++ rest ∧
      (if (sign.toList ++ (permission ++ rest)).head? = some '-' then Effect.deny
        else Effect.grant) = effect := by
  rcases signs with rfl | ⟨rfl, rfl⟩
  · cases effect <;> exact ⟨rfl, rfl⟩
  · obtain ⟨c, others, rfl, plus, minus⟩ := exists_cons_of_isPermission good
    simp [dropSign, plus, minus]

end Grammar

namespace Statement

theorem split_eq (cs permission rest first : List Char) (others : List (List Char))
    (unsigned : Grammar.dropSign cs = permission ++ '@' :: rest) (found : '@' ∉ permission)
    (pieces : rest.splitOn ':' = first :: others) :
    split cs =
      { effect := if cs.head? = some '-' then .deny else .grant
        permission := String.ofList permission
        app := String.ofList first
        segments := others.map String.ofList } := by
  have before : ∀ c ∈ permission, (c != '@') = true := by
    intro c present
    rw [bne_iff_ne]
    rintro rfl
    exact found present
  have taken : (permission ++ '@' :: rest).takeWhile (· != '@') = permission := by
    rw [List.takeWhile_append_of_pos before]
    simp
  have dropped : (permission ++ '@' :: rest).dropWhile (· != '@') = '@' :: rest := by
    rw [List.dropWhile_append_of_pos before]
    simp
  simp only [split, unsigned, taken, dropped, List.drop_succ_cons, List.drop_zero, pieces,
    List.headD_cons, List.tail_cons]

theorem isPath_map_ofList {pieces : List (List Char)} (tail : Grammar.IsTail pieces) :
    IsPath (pieces.map String.ofList) := by
  refine ⟨?_, ?_⟩
  · intro segment present
    obtain ⟨piece, member, rfl⟩ := List.mem_map.mp present
    simpa only [String.toList_ofList] using tail.1 piece member
  · intro last
    rw [List.getLast?_map, Option.map_eq_some_iff] at last
    obtain ⟨piece, isLast, empty⟩ := last
    have blank : piece = [] := by
      have chars := congrArg String.toList empty
      simpa using chars
    exact tail.2 (blank ▸ isLast)

def unsigned (statement : Statement) : String :=
  statement.permission ++ "@" ++ joinPath (statement.app :: statement.segments)

theorem toList_unsigned (statement : Statement) :
    statement.unsigned.toList = statement.permission.toList ++
      '@' :: (joinPath (statement.app :: statement.segments)).toList := by
  simp [unsigned]

/-- A text that reads as a statement says the statement behind a sign, or behind none. -/
theorem exists_sign_of_parse? {text : String} {statement : Statement}
    (read : parse? text = some statement) :
    statement.WellFormed ∧ ∃ sign, statement.effect.Signs sign ∧
      text = sign ++ statement.unsigned := by
  unfold parse? at read
  split at read
  · rename_i accepted
    obtain ⟨permission, rest, behind, good, app⟩ :=
      (Grammar.acceptsUnsigned_iff _).mp accepted
    obtain ⟨first, others, pieces⟩ := List.exists_cons_of_ne_nil (List.splitOn_ne_nil ':' rest)
    obtain ⟨name, tail⟩ := (Grammar.acceptsApp_iff false [] rest first others rfl rfl pieces).mp app
    have parts := split_eq text.toList permission rest first others behind
      (at_not_mem_of_isPermission good) pieces
    rw [parts, Option.some.injEq] at read
    subst read
    refine ⟨⟨by simpa using good, by simpa using name, isPath_map_ofList tail⟩, ?_⟩
    obtain ⟨sign, signs, whole⟩ := Grammar.exists_sign text.toList
    refine ⟨sign, signs, ?_⟩
    have path : (joinPath (String.ofList first :: others.map String.ofList)).toList = rest := by
      rw [toList_joinPath, ← List.map_cons, ← pieces, List.map_map]
      simp [Function.comp_def, List.intercalate_splitOn]
    apply String.toList_injective
    rw [String.toList_append, toList_unsigned, path, String.toList_ofList, ← behind, ← whole]
  · cases read

theorem WellFormed.parse?_append {statement : Statement} (good : statement.WellFormed)
    {sign : String} (signs : statement.effect.Signs sign) :
    parse? (sign ++ statement.unsigned) = some statement := by
  obtain ⟨behind, front⟩ := Grammar.dropSign_of_signs signs good.permission
    ('@' :: (joinPath (statement.app :: statement.segments)).toList)
  rw [← toList_unsigned, ← String.toList_append] at behind front
  rw [toList_unsigned] at behind
  have separate : ∀ segment ∈ statement.app :: statement.segments, ':' ∉ segment.toList := by
    rw [List.forall_mem_cons]
    exact ⟨colon_not_mem_of_isName good.app, good.path.colon_not_mem⟩
  have pieces := splitOn_joinPath (List.cons_ne_nil _ _) separate
  have tail : Grammar.IsTail (statement.segments.map String.toList) := by
    refine ⟨?_, ?_⟩
    · simpa using good.path.chars
    · intro last
      rw [List.getLast?_map, Option.map_eq_some_iff] at last
      obtain ⟨segment, isLast, empty⟩ := last
      rw [String.toList_eq_nil_iff] at empty
      exact good.path.last (empty ▸ isLast)
  have accepted : isStatement (sign ++ statement.unsigned) = true := by
    rw [isStatement, Grammar.accepts, behind, Grammar.acceptsUnsigned_iff]
    exact ⟨_, _, rfl, good.permission,
      (Grammar.acceptsApp_iff false [] _ _ _ rfl rfl pieces).mpr ⟨good.app, tail⟩⟩
  have parts := split_eq (sign ++ statement.unsigned).toList _ _ _ _ behind
    (at_not_mem_of_isPermission good.permission) pieces
  rw [parse?, if_pos accepted, parts, front]
  simp [Function.comp_def]

/-- The texts that read as a statement: what its well-formed parts say, behind a sign of its
effect. -/
theorem parse?_eq_some_iff {text : String} {statement : Statement} :
    parse? text = some statement ↔ statement.WellFormed ∧
      ∃ sign, statement.effect.Signs sign ∧ text = sign ++ statement.unsigned := by
  constructor
  · intro read
    exact exists_sign_of_parse? read
  · intro written
    obtain ⟨good, sign, signs, rfl⟩ := written
    exact good.parse?_append signs

theorem wellFormed_of_parse? {text : String} {statement : Statement}
    (read : parse? text = some statement) : statement.WellFormed :=
  (parse?_eq_some_iff.mp read).1

/-- The canonical text of a well-formed statement always carries the sign of its effect. -/
theorem WellFormed.text_eq {statement : Statement} (good : statement.WellFormed) :
    statement.text = statement.effect.sign ++ statement.unsigned := by
  rw [unsigned, ← good.path.joinPath_cons, text, composeStatement]
  simp only [String.append_assoc]
  rfl

theorem parse?_text {statement : Statement} (good : statement.WellFormed) :
    parse? statement.text = some statement := by
  rw [good.text_eq]
  exact good.parse?_append (Or.inl rfl)

end Statement

end Permits
