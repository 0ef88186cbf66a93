import Blockwork.Proofs.Generation.Blocks

/-!
# What each generator answers

One equivalence for each generator that does more than read fields: it answers exactly when its
inputs do, and what it then answers is a template filled with their codes. Together with
`Compiler.valueCode_answers` and `Compiler.indentedCode_answers` they take the frames out of
every argument about generated code.
-/

namespace Blockwork

variable {h : Holder} {env : Surroundings} {top after : Usage} {own : Snippet}

theorem Surroundings.neededImports_answers {always imports : List String} :
    (env.neededImports always).Answers top imports after ↔
      imports = ImportPath.needed env.available top.packages always env.knownNames ∧
        after = top := by
  unfold neededImports
  rw [Gen.answers_bind Gen.Steady.noted]
  constructor
  · rintro ⟨used, mid, noted, answered⟩
    obtain ⟨rfl, rfl⟩ := Gen.answers_noted.mp noted
    exact Gen.answers_pure.mp answered
  · rintro ⟨rfl, rfl⟩
    exact ⟨_, _, Gen.answers_noted.mpr ⟨rfl, rfl⟩, Gen.answers_pure.mpr ⟨rfl, rfl⟩⟩

namespace Builtin

/-- A frame with the qualifiers of a piece of code noted. -/
def noteAll (top : Usage) (code : String) : Usage :=
  (Source.qualifiers code).members.foldl Usage.note top

theorem noteQualifiers_answers {code : String} {u : Unit} :
    (noteQualifiers code).Answers top u after ↔ after = noteAll top code :=
  Gen.answers_note

theorem require_answers (steady : h.Steady) :
    (requireSnippet env h).Answers top own after ↔
      ∃ value, (h.valueCode "VALUE" .atomic).Answers top value after ∧
        (value = "" ∧ own = {} ∨
          ∃ path, value ≠ "" ∧ Source.literalText? value = some path ∧
            own = if Text.isBlankText path || env.isAvailable path then {}
              else (Snippet.inLines "").asking [path]) := by
  unfold requireSnippet
  rw [Gen.answers_bind (steady.valueCode _ _)]
  constructor
  · rintro ⟨value, mid, answered, rest⟩
    refine ⟨value, ?_⟩
    split at rest
    · rename_i empty
      obtain ⟨rfl, rfl⟩ := Gen.answers_pure.mp rest
      exact ⟨answered, .inl ⟨String.isEmpty_iff.mp empty, rfl⟩⟩
    · rename_i nonempty
      have present : value ≠ "" := fun empty => nonempty (String.isEmpty_iff.mpr empty)
      cases literal : Source.literalText? value with
      | none =>
        rw [literal] at rest
        exact absurd rest Gen.answers_fail
      | some path =>
        simp only [literal] at rest
        -- Both ways of answering leave the frame to the value's block.
        split at rest
        · rename_i passed
          obtain ⟨rfl, rfl⟩ := Gen.answers_pure.mp rest
          exact ⟨answered, .inr ⟨path, present, rfl, (if_pos passed).symm⟩⟩
        · rename_i asked
          obtain ⟨rfl, rfl⟩ := Gen.answers_pure.mp rest
          exact ⟨answered, .inr ⟨path, present, rfl, (if_neg asked).symm⟩⟩
  · rintro ⟨value, answered, ⟨rfl, rfl⟩ | ⟨path, present, literal, rfl⟩⟩
    · exact ⟨"", after, answered, Gen.answers_pure.mpr ⟨rfl, rfl⟩⟩
    · refine ⟨value, after, answered, ?_⟩
      rw [if_neg fun empty => present (String.isEmpty_iff.mp empty), literal]
      simp only
      split <;> exact Gen.answers_pure.mpr ⟨rfl, rfl⟩

theorem main_answers (steady : h.Steady) :
    (mainSnippet env h).Answers top own after ↔
      ∃ body, (h.indentedCode env "children").Answers top body after ∧
        own = (Snippet.inLines (mainCode body)).asking
          (ImportPath.needed env.available after.packages [] env.knownNames) := by
  unfold mainSnippet
  rw [Gen.answers_bind (steady.indentedCode env _)]
  constructor
  · rintro ⟨body, mid, answered, rest⟩
    obtain ⟨imports, inferred, rfl⟩ :=
      (Gen.answers_bind_pure (env.steady_neededImports _)).mp rest
    obtain ⟨rfl, rfl⟩ := Surroundings.neededImports_answers.mp inferred
    exact ⟨body, answered, rfl⟩
  · rintro ⟨body, answered, rfl⟩
    refine ⟨body, after, answered, (Gen.answers_bind_pure (env.steady_neededImports _)).mpr ?_⟩
    exact ⟨_, Surroundings.neededImports_answers.mpr ⟨rfl, rfl⟩, rfl⟩

theorem server_answers (steady : h.Steady) :
    (serverSnippet env h).Answers top own after ↔
      ∃ port body inner, portOf h.block = .ok port ∧
        (h.indentedCode env "children").Answers top body inner ∧
        after = (inner.note "http").note "log" ∧
        own = (Snippet.inLines (serverCode env.indent
            (Source.quote
              (Text.trim (h.block.textD "hostname" defaultHost) ++ ":" ++ toString port))
            body)).asking
          (ImportPath.needed env.available after.packages ["log"] env.knownNames) := by
  unfold serverSnippet
  rw [Gen.answers_bind (Gen.Steady.lift _)]
  simp only [Gen.answers_bind (steady.indentedCode env _), Gen.answers_bind (Gen.Steady.note _)]
  constructor
  · rintro ⟨port, _, checked, body, inner, answered, _, noted, told, rest⟩
    obtain ⟨accepted, rfl⟩ := Gen.answers_lift.mp checked
    obtain ⟨imports, inferred, rfl⟩ :=
      (Gen.answers_bind_pure (env.steady_neededImports _)).mp rest
    obtain ⟨rfl, rfl⟩ := Surroundings.neededImports_answers.mp inferred
    have told : after = (inner.note "http").note "log" := Gen.answers_note.mp told
    exact ⟨port, body, inner, accepted, answered, told, rfl⟩
  · rintro ⟨port, body, inner, accepted, answered, told, rfl⟩
    refine ⟨port, top, Gen.answers_lift.mpr ⟨accepted, rfl⟩, body, inner, answered, (), after,
      Gen.answers_note.mpr told, (Gen.answers_bind_pure (env.steady_neededImports _)).mpr ?_⟩
    exact ⟨_, Surroundings.neededImports_answers.mpr ⟨rfl, rfl⟩, rfl⟩

theorem routeGroup_answers (steady : h.Steady) :
    (routeGroupSnippet env h).Answers top own after ↔
      ∃ routes, (h.indentedCode env "NAME").Answers top routes after ∧
        own = (Snippet.inLines (routeGroupCode env.indent routes)).relyingOn ["http"] :=
  Gen.answers_bind_pure (steady.indentedCode env _)

theorem route_answers (steady : h.Steady) :
    (routeSnippet env h).Answers top own after ↔
      ∃ method inner mid, methodOf h.block = .ok method ∧
        (h.indentedCode env "sub").Answers top inner mid ∧
        after = noteAll mid (Text.trim (h.block.textD "handler" "")) ∧
        own = (Snippet.inLines (routeCode env.indent
            (Source.quote (h.block.textD "path" defaultPath)) (Source.quote method) inner
            (Text.trim (h.block.textD "handler" "")))).relyingOn ["strings"] := by
  unfold routeSnippet
  rw [Gen.answers_bind (Gen.Steady.lift _)]
  simp only [Gen.answers_bind (steady.indentedCode env _)]
  constructor
  · rintro ⟨method, _, checked, inner, mid, answered, rest⟩
    obtain ⟨accepted, rfl⟩ := Gen.answers_lift.mp checked
    obtain ⟨_, noted, written⟩ := (Gen.answers_bind_pure (steady_noteQualifiers _)).mp rest
    exact ⟨method, inner, mid, accepted, answered, noteQualifiers_answers.mp noted, written⟩
  · rintro ⟨method, inner, mid, accepted, answered, noted, written⟩
    refine ⟨method, top, Gen.answers_lift.mpr ⟨accepted, rfl⟩, inner, mid, answered,
      (Gen.answers_bind_pure (steady_noteQualifiers _)).mpr ?_⟩
    exact ⟨(), noteQualifiers_answers.mpr noted, written⟩

theorem onStart_answers (steady : h.Steady) :
    (onStartSnippet h).Answers top own after ↔
      ∃ code, (h.sequenceCode "NAME").Answers top code after ∧ own = .inLines code :=
  Gen.answers_bind_pure (steady.sequenceCode _)

theorem onShutdown_answers (steady : h.Steady) :
    (onShutdownSnippet env h).Answers top own after ↔
      ∃ hooks, (h.indentedCode env "NAME").Answers top hooks after ∧
        own = (Snippet.inLines (shutdownCode env.indent hooks)).relyingOn
          ["os", "signal", "log", "context", "time"] :=
  Gen.answers_bind_pure (steady.indentedCode env _)

theorem line_answers :
    (lineSnippet h).Answers top own after ↔
      if Text.isBlankText (h.block.textD "line" "") then own = {} ∧ after = top
      else own = .inLines (h.block.textD "line" "" ++ "\n") ∧
        after = noteAll top (h.block.textD "line" "") := by
  unfold lineSnippet
  simp only
  split
  · exact Gen.answers_pure
  · rw [Gen.answers_bind_pure (steady_noteQualifiers _)]
    constructor
    · rintro ⟨_, noted, rfl⟩
      exact ⟨rfl, noteQualifiers_answers.mp noted⟩
    · rintro ⟨rfl, noted⟩
      exact ⟨(), noteQualifiers_answers.mpr noted, rfl⟩

theorem map_answers (steady : h.Steady) :
    (mapSnippet env h).Answers top own after ↔
      ∃ entries, (h.indentedCode env "ints").Answers top entries after ∧
        own = .expression (mapCode entries) .loosest :=
  Gen.answers_bind_pure (steady.indentedCode env _)

theorem mapField_answers (steady : h.Steady) :
    (mapFieldSnippet h).Answers top own after ↔
      ∃ value, (h.valueCode "NAME" .loosest).Answers top value after ∧
        own = .inLines (mapFieldCode (Source.quote (h.block.textD "key" defaultKey)) value) :=
  Gen.answers_bind_pure (steady.valueCode _ _)

theorem handler_answers :
    (handlerSnippet h).Answers top own after ↔
      if (Text.trim (h.block.textD "func" "")).isEmpty then own = {} ∧ after = top
      else
        own = (Snippet.inLines (handlerCode (Source.quote (h.block.textD "path" "/"))
            (Text.trim (h.block.textD "func" "")))).relyingOn ["http"] ∧
          after = noteAll top (Text.trim (h.block.textD "func" "")) := by
  unfold handlerSnippet
  simp only
  split
  · exact Gen.answers_pure
  · rw [Gen.answers_bind_pure (steady_noteQualifiers _)]
    constructor
    · rintro ⟨_, noted, rfl⟩
      exact ⟨rfl, noteQualifiers_answers.mp noted⟩
    · rintro ⟨rfl, noted⟩
      exact ⟨(), noteQualifiers_answers.mpr noted, rfl⟩

theorem text_answers :
    (textSnippet h).Answers top own after ↔
      own = .expression (Source.quote (h.block.textD "TEXT" "")) .atomic ∧ after = top :=
  Gen.answers_pure

theorem number_answers :
    (numberSnippet h).Answers top own after ↔
      ∃ x, h.block.numberD "NUM" .zero = .ok x ∧ x.isFinite = true ∧
        own = .expression x.numberText (if x.isNegative then .unary else .atomic) ∧
        after = top := by
  unfold numberSnippet
  rw [Gen.answers_bind (Gen.Steady.lift _)]
  constructor
  · rintro ⟨x, _, found, rest⟩
    obtain ⟨read, rfl⟩ := Gen.answers_lift.mp found
    split at rest
    · rename_i finite
      obtain ⟨rfl, rfl⟩ := Gen.answers_pure.mp rest
      exact ⟨x, read, finite, rfl, rfl⟩
    · exact absurd rest Gen.answers_fail
  · rintro ⟨x, read, finite, rfl, rfl⟩
    refine ⟨x, after, Gen.answers_lift.mpr ⟨read, rfl⟩, ?_⟩
    rw [if_pos finite]
    exact Gen.answers_pure.mpr ⟨rfl, rfl⟩

theorem boolean_answers :
    (booleanSnippet h).Answers top own after ↔
      own = .expression (if h.block.flagD "BOOL" true then "true" else "false") .atomic ∧
        after = top :=
  Gen.answers_pure

end Builtin

/-! ### Package items -/

theorem CallItem.snippet_answers (item : CallItem) (steady : h.Steady) :
    (item.snippet h).Answers top own after ↔
      ∃ arguments, (h.arguments item.parameters).Answers top arguments after ∧
        own = (Snippet.inLines (item.code arguments)).relyingOn [item.package] :=
  Gen.answers_bind_pure (steady.arguments _)

theorem LiteralItem.snippet_answers (item : LiteralItem) (steady : h.Steady) :
    (item.snippet h).Answers top own after ↔
      ∃ arguments, (h.arguments item.parameters).Answers top arguments after ∧
        own = (Snippet.expression
          (item.code (h.block.flagD addressField true) arguments) .loosest).relyingOn
            [item.package] :=
  Gen.answers_bind_pure (steady.arguments _)

theorem Holder.arguments_nil_answers {arguments : List (Parameter × String)} :
    (h.arguments []).Answers top arguments after ↔ arguments = [] ∧ after = top :=
  Gen.answers_pure

theorem Holder.arguments_cons_answers (steady : h.Steady) {p : Parameter} {rest : List Parameter}
    {arguments : List (Parameter × String)} :
    (h.arguments (p :: rest)).Answers top arguments after ↔
      ∃ value mid others, (h.valueCode p.name .loosest).Answers top value mid ∧
        (h.arguments rest).Answers mid others after ∧
        arguments = if value.isEmpty then others else (p, Source.requote value) :: others := by
  rw [Holder.arguments, Gen.answers_bind (steady.valueCode _ _)]
  simp only [Gen.answers_bind_pure (steady.arguments _)]
  constructor
  · rintro ⟨value, mid, read, others, answered, rfl⟩
    exact ⟨value, mid, others, read, answered, rfl⟩
  · rintro ⟨value, mid, others, read, answered, rfl⟩
    exact ⟨value, mid, read, others, answered, rfl⟩

end Blockwork
