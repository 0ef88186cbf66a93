import Blockwork.Import.Path
import Blockwork.Proofs.Text.Classes
import Blockwork.Proofs.Text.Pieces

/-!
# Guessed names

Each step from an import path to the guessed name of its package leaves something out and adds
nothing (`ImportPath.mem_of_mem_guessedName`). So the guessed name of a well-formed path has no
character that the path must not have.

The name comes from a single segment of the path, the last one that is no major version
(`ImportPath.guessedName_by_last_segment`). Three things lead there:

* **around the path** — `bare_around`: blanks, quotes and slashes at the ends of a well-formed path
  are no part of it;
* **in the path** — `segments_join`, `namingSegment_of_plain`, `namingSegment_of_version`: the
  segments of joined paths, and the one among them that names the package;
* **in the segment** — `isIdentifierChars_wordPart`, `prefix_wordPart_iff`: how far the name goes.
-/

namespace Blockwork.ImportPath

variable {c : Char} {path : String}

theorem mem_of_mem_wordPart {name : List Char} (mem : c ∈ wordPart name) : c ∈ name := by
  unfold wordPart at mem
  split at mem
  · exact mem
  · exact (List.takeWhile_sublist _).subset mem

theorem mem_of_mem_dropToolPrefix {segment : List Char} (mem : c ∈ dropToolPrefix segment) :
    c ∈ segment := by
  unfold dropToolPrefix at mem
  split at mem
  · simp [mem]
  · exact mem

theorem namingSegment_mem {segments : List (List Char)} (present : segments ≠ []) :
    namingSegment segments ∈ segments := by
  unfold namingSegment
  rw [← List.mem_reverse]
  split
  · rename_i nothing
    exact absurd (List.reverse_eq_nil_iff.mp nothing) present
  · rename_i last alone
    rw [alone]
    exact List.mem_cons_self
  · rename_i last previous front several
    rw [several]
    split
    · exact List.mem_cons_of_mem last List.mem_cons_self
    · exact List.mem_cons_self

/-- A guessed name has no characters but those of the path. -/
theorem mem_of_mem_guessedName (mem : c ∈ (guessedName path).toList) : c ∈ path.toList := by
  rw [guessedName, String.toList_ofList] at mem
  have named : c ∈ namingSegment (Text.cut '/' (bare path.toList)) :=
    mem_of_mem_dropToolPrefix (mem_of_mem_wordPart mem)
  have bared : c ∈ bare path.toList :=
    Text.mem_of_mem_cut (namingSegment_mem (Text.cut_ne_nil '/' _)) named
  unfold bare at bared
  exact Text.mem_of_mem_trimWhere (Text.mem_of_mem_trimWhere (Text.mem_of_mem_dropEndWhile bared))

/-- No character that import paths must not have is in the guessed name of a well-formed one. -/
theorem not_mem_guessedName (wellFormed : isWellFormed path = true)
    (forbidden : isForbidden c = true) : c ∉ (guessedName path).toList := by
  intro mem
  obtain ⟨-, allowed, -⟩ := isWellFormed_iff.mp wellFormed
  rw [allowed c (mem_of_mem_guessedName mem)] at forbidden
  exact nomatch forbidden

/-! ### Well-formed paths -/

/-- The segments of a path. -/
def segments (path : String) : List (List Char) :=
  Text.cut '/' path.toList

/-- The last segment of a path. -/
def lastSegment (path : String) : List Char :=
  (segments path).getLast (Text.cut_ne_nil '/' _)

theorem segments_join (front path : String) :
    segments (front ++ "/" ++ path) = segments front ++ segments path := by
  have letters : (front ++ "/" ++ path).toList = front.toList ++ '/' :: path.toList := by
    simp [String.toList_append]
  unfold segments
  rw [letters, Text.cut_append_sep]

/-- Paths make a longer one. -/
theorem isWellFormed_join {front : String} (first : isWellFormed front = true)
    (second : isWellFormed path = true) : isWellFormed (front ++ "/" ++ path) = true := by
  obtain ⟨present, allowed, full⟩ := isWellFormed_iff.mp first
  obtain ⟨-, allowed', full'⟩ := isWellFormed_iff.mp second
  refine isWellFormed_iff.mpr ⟨by simp [present], ?_, ?_⟩
  · intro c mem
    rw [String.toList_append, String.toList_append, List.append_assoc] at mem
    rcases List.mem_append.mp mem with inside | mem
    · exact allowed c inside
    rcases List.mem_cons.mp mem with rfl | inside
    · decide
    · exact allowed' c inside
  · intro segment mem
    change segment ∈ segments (front ++ "/" ++ path) at mem
    rw [segments_join] at mem
    exact (List.mem_append.mp mem).elim (full segment) (full' segment)

/-- No slash is at the end of a path. -/
theorem dropEndWhile_slash (wellFormed : isWellFormed path = true) :
    Text.dropEndWhile (· == '/') path.toList = path.toList := by
  obtain ⟨run, slashes, whole⟩ := Text.dropEndWhile_append_run (· == '/') path.toList
  rcases List.eq_nil_or_concat run with rfl | ⟨others, last, rfl⟩
  · rwa [List.append_nil] at whole
  · -- Behind the slash the path would have an empty segment.
    have slash : last = '/' := by simpa using List.all_eq_true.mp slashes last (by simp)
    subst slash
    obtain ⟨-, -, full⟩ := isWellFormed_iff.mp wellFormed
    refine absurd rfl (full [] ?_)
    rw [← whole, List.concat_eq_append, ← List.append_assoc, Text.cut_append_sep]
    exact List.mem_append_right _ List.mem_cons_self

/-- A path has neither blanks nor quotes in it. -/
theorem not_isBlank_of_mem (wellFormed : isWellFormed path = true) (mem : c ∈ path.toList) :
    Text.isBlank c = false ∧ (c == '"') = false := by
  have allowed := (isWellFormed_iff.mp wellFormed).2.1 c mem
  simp only [isForbidden, Bool.or_eq_false_iff] at allowed
  exact ⟨allowed.1.1.1.1.1, allowed.1.1.1.2⟩

/-- Blanks around a path, quotes inside of the blanks and slashes behind the path are no part of
it. -/
theorem bare_around (wellFormed : isWellFormed path = true)
    {before opening slashes closing behind : List Char}
    (blank : before.all Text.isBlank = true) (quotes : opening.all (· == '"') = true)
    (ends : slashes.all (· == '/') = true) (quotes' : closing.all (· == '"') = true)
    (blank' : behind.all Text.isBlank = true) :
    bare (before ++ (opening ++ (path.toList ++ slashes) ++ closing) ++ behind) = path.toList := by
  have inside : ∀ c ∈ path.toList ++ slashes, Text.isBlank c = false ∧ (c == '"') = false := by
    intro c mem
    rcases List.mem_append.mp mem with mem | mem
    · exact not_isBlank_of_mem wellFormed mem
    · obtain rfl : c = '/' := by simpa using List.all_eq_true.mp ends c mem
      decide
  have quoted : ∀ c ∈ opening ++ (path.toList ++ slashes) ++ closing, Text.isBlank c = false := by
    have quote : ∀ {cs : List Char}, cs.all (· == '"') = true → ∀ c ∈ cs,
        Text.isBlank c = false := by
      intro cs all c mem
      obtain rfl : c = '"' := by simpa using List.all_eq_true.mp all c mem
      decide
    intro c mem
    rcases List.mem_append.mp mem with mem | mem
    · exact (List.mem_append.mp mem).elim (quote quotes c) fun mem => (inside c mem).1
    · exact quote quotes' c mem
  have unquoted : Text.trimWhere (· == '"') (path.toList ++ slashes) = path.toList ++ slashes :=
    Text.trimWhere_of_forall fun c mem => (inside c mem).2
  unfold bare
  rw [Text.trimWhere_append_of_all blank', Text.trimWhere_all_append blank,
    Text.trimWhere_of_forall quoted, Text.trimWhere_append_of_all quotes',
    Text.trimWhere_all_append quotes, unquoted, Text.dropEndWhile_append_of_all ends,
    dropEndWhile_slash wellFormed]

theorem bare_of_isWellFormed (wellFormed : isWellFormed path = true) :
    bare path.toList = path.toList := by
  have nothing : ∀ p : Char → Bool, ([] : List Char).all p = true := fun _ => rfl
  have around := bare_around wellFormed (nothing _) (nothing _) (nothing _) (nothing _) (nothing _)
  simpa using around

/-! ### The segment that names the package -/

theorem segments_eq (path : String) :
    segments path = (segments path).dropLast ++ [lastSegment path] :=
  (List.dropLast_concat_getLast _).symm

theorem lastSegment_join (front path : String) :
    lastSegment (front ++ "/" ++ path) = lastSegment path := by
  unfold lastSegment
  simp only [segments_join]
  exact List.getLast_append_of_ne_nil _ (Text.cut_ne_nil '/' _)

theorem namingSegment_of_plain {last : List Char} (plain : isVersion last = false)
    (front : List (List Char)) : namingSegment (front ++ [last]) = last := by
  unfold namingSegment
  rw [List.reverse_append, List.reverse_singleton, List.singleton_append]
  cases front.reverse with
  | nil => rfl
  | cons previous others =>
    simp only
    rw [plain, if_neg Bool.false_ne_true]

theorem namingSegment_of_version {version : List Char} (isLast : isVersion version = true)
    (front : List (List Char)) (previous : List Char) :
    namingSegment (front ++ [previous] ++ [version]) = previous := by
  unfold namingSegment
  rw [List.reverse_append, List.reverse_append]
  simp only [List.reverse_singleton, List.singleton_append]
  rw [isLast, if_pos rfl]

/-- The text of a major version is a path of one segment. -/
theorem segments_version {digits : String} (all : digits.toList.all Text.isDigit = true) :
    segments ("v" ++ digits) = ['v' :: digits.toList] := by
  have letters : ("v" ++ digits).toList = 'v' :: digits.toList := by simp [String.toList_append]
  unfold segments
  rw [letters]
  refine Text.cut_of_not_mem fun mem => ?_
  rcases List.mem_cons.mp mem with same | inside
  · exact absurd same (by decide)
  · exact absurd (List.all_eq_true.mp all _ inside) (by decide)

theorem not_isForbidden_of_isDigit (digit : Text.isDigit c = true) : isForbidden c = false :=
  Text.forall_isDigit (p := fun c => isForbidden c = false) (by decide) digit

theorem isWellFormed_version {digits : String} (all : digits.toList.all Text.isDigit = true) :
    isWellFormed ("v" ++ digits) = true := by
  refine isWellFormed_iff.mpr ⟨by simp, ?_, ?_⟩
  · intro c mem
    rw [String.toList_append] at mem
    rcases List.mem_append.mp mem with letter | inside
    · obtain rfl := List.mem_singleton.mp letter
      decide
    · exact not_isForbidden_of_isDigit (List.all_eq_true.mp all c inside)
  · intro segment mem
    change segment ∈ segments ("v" ++ digits) at mem
    rw [segments_version all] at mem
    exact List.mem_singleton.mp mem ▸ List.cons_ne_nil _ _

/-! ### The name -/

theorem guessedName_eq (wellFormed : isWellFormed path = true) :
    guessedName path =
      String.ofList (wordPart (dropToolPrefix (namingSegment (segments path)))) := by
  unfold guessedName
  rw [bare_of_isWellFormed wellFormed]
  rfl

/-- What may stand around a path does not change the guessed name. -/
theorem guessedName_around (wellFormed : isWellFormed path = true)
    {before opening slashes closing behind : String}
    (blank : Text.isBlankText before = true) (quotes : opening.toList.all (· == '"') = true)
    (ends : slashes.toList.all (· == '/') = true) (quotes' : closing.toList.all (· == '"') = true)
    (blank' : Text.isBlankText behind = true) :
    guessedName (before ++ (opening ++ (path ++ slashes) ++ closing) ++ behind) =
      guessedName path := by
  have bared := bare_around wellFormed blank quotes ends quotes' blank'
  unfold guessedName
  rw [bare_of_isWellFormed wellFormed]
  simp only [String.toList_append, bared]

/-- A path that does not end in a major version is named by its last segment. -/
theorem guessedName_of_plain (wellFormed : isWellFormed path = true)
    (plain : isVersion (lastSegment path) = false) :
    guessedName path = String.ofList (wordPart (dropToolPrefix (lastSegment path))) := by
  rw [guessedName_eq wellFormed, segments_eq, namingSegment_of_plain plain]

/-- What stands in front of a path does not change the guessed name. -/
theorem guessedName_join {front : String} (first : isWellFormed front = true)
    (wellFormed : isWellFormed path = true) (plain : isVersion (lastSegment path) = false) :
    guessedName (front ++ "/" ++ path) = guessedName path := by
  have whole := isWellFormed_join first wellFormed
  rw [guessedName_of_plain whole (by rwa [lastSegment_join]), lastSegment_join,
    guessedName_of_plain wellFormed plain]

/-- A major version behind a path does not change the guessed name. -/
theorem guessedName_version {digits : String} (wellFormed : isWellFormed path = true)
    (plain : isVersion (lastSegment path) = false) (present : digits ≠ "")
    (all : digits.toList.all Text.isDigit = true) :
    guessedName (path ++ "/" ++ ("v" ++ digits)) = guessedName path := by
  have isLast : isVersion ('v' :: digits.toList) = true := by
    simp [isVersion, present, all]
  have whole := isWellFormed_join wellFormed (isWellFormed_version all)
  rw [guessedName_eq whole, segments_join, segments_version all, segments_eq,
    namingSegment_of_version isLast, guessedName_of_plain wellFormed plain]

/-- What is left of a name is an identifier exactly when the name starts like one. -/
theorem isIdentifierChars_wordPart (name : List Char) :
    Text.isIdentifierChars (wordPart name) = name.head?.any Text.isWordStart := by
  cases name with
  | nil => rfl
  | cons c rest =>
    unfold wordPart
    cases part : Text.isWordPart c with
    | true =>
      rw [List.takeWhile_cons_of_pos part]
      show (Text.isWordStart c && (rest.takeWhile Text.isWordPart).all Text.isWordPart) = _
      rw [List.all_takeWhile, Bool.and_true]
      rfl
    | false =>
      have start : Text.isWordStart c = false := by
        refine Bool.eq_false_iff.mpr fun start => ?_
        rw [Text.isWordPart_of_isWordStart start] at part
        exact nomatch part
      rw [List.takeWhile_cons_of_neg (by rw [part]; decide)]
      show (Text.isWordStart c && _) = Text.isWordStart c
      rw [start, Bool.false_and]

/-- Of a name that starts like an identifier, the longest run of word characters is left. -/
theorem prefix_wordPart_iff {name word : List Char}
    (start : name.head?.any Text.isWordStart = true) :
    word <+: wordPart name ↔ word <+: name ∧ word.all Text.isWordPart = true := by
  have kept : wordPart name = name.takeWhile Text.isWordPart := by
    cases name with
    | nil => rfl
    | cons c rest =>
      unfold wordPart
      rw [List.takeWhile_cons_of_pos (Text.isWordPart_of_isWordStart start)]
  rw [kept]
  constructor
  · intro front
    refine ⟨front.trans (List.takeWhile_prefix _), List.all_eq_true.mpr fun c mem => ?_⟩
    exact List.all_eq_true.mp List.all_takeWhile c (front.subset mem)
  · rintro ⟨⟨rest, rfl⟩, all⟩
    rw [List.takeWhile_append_of_pos (List.all_eq_true.mp all)]
    exact List.prefix_append _ _

/-- **The last segment names the package.** Let the last segment of a path be no major version. The
guessed name stays the same with another path in front of the path, with a major version behind it,
with quotes or blanks around it, with slashes behind it, and with all of these. It is an identifier
exactly when the segment, without one leading `go-`, starts like one, and then it is the longest run
of letters, numbers and underscores at the front of that. -/
theorem guessedName_by_last_segment (front path digits before behind slashes : String)
    (first : isWellFormed front = true) (wellFormed : isWellFormed path = true)
    (plain : isVersion (lastSegment path) = false)
    (present : digits ≠ "") (all : digits.toList.all Text.isDigit = true)
    (blank : Text.isBlankText before = true) (blank' : Text.isBlankText behind = true)
    (ends : slashes.toList.all (· == '/') = true) :
    (guessedName (front ++ "/" ++ path) = guessedName path ∧
        guessedName (path ++ "/v" ++ digits) = guessedName path ∧
        guessedName ("\"" ++ path ++ "\"") = guessedName path ∧
        guessedName (before ++ path ++ behind) = guessedName path ∧
        guessedName (path ++ slashes) = guessedName path ∧
        guessedName (before ++ "\"" ++ front ++ "/" ++ path ++ "/v" ++ digits ++ slashes ++ "\"" ++
          behind) = guessedName path) ∧
      let name := dropToolPrefix (lastSegment path)
      (Text.isIdentifier (guessedName path) = true ↔ name.head?.any Text.isWordStart = true) ∧
        (name.head?.any Text.isWordStart = true → ∀ word : List Char,
          word <+: (guessedName path).toList ↔
            word <+: name ∧ word.all Text.isWordPart = true) := by
  have quote : "\"".toList.all (· == '"') = true := by decide
  have nothing : ∀ p : Char → Bool, "".toList.all p = true := fun _ => rfl
  have slash : ∀ s : String, s ++ "/v" ++ digits = s ++ "/" ++ ("v" ++ digits) := by
    intro s
    rw [String.append_assoc, String.append_assoc]
    rfl
  have named : guessedName path = String.ofList (wordPart (dropToolPrefix (lastSegment path))) :=
    guessedName_of_plain wellFormed plain
  refine ⟨⟨guessedName_join first wellFormed plain, ?_, ?_, ?_, ?_, ?_⟩, ?_, ?_⟩
  · rw [slash]
    exact guessedName_version wellFormed plain present all
  · have around := guessedName_around wellFormed (nothing _) quote (nothing _) quote (nothing _)
    simpa only [String.empty_append, String.append_empty] using around
  · have around :=
      guessedName_around wellFormed blank (nothing _) (nothing _) (nothing _) blank'
    simpa only [String.empty_append, String.append_empty] using around
  · have around :=
      guessedName_around wellFormed (nothing _) (nothing _) ends (nothing _) (nothing _)
    simpa only [String.empty_append, String.append_empty] using around
  · -- The longer path with its version is well-formed, and what stands around it comes off first.
    have longer := isWellFormed_join first wellFormed
    have ending : isVersion (lastSegment (front ++ "/" ++ path)) = false := by
      rwa [lastSegment_join]
    have whole := isWellFormed_join longer (isWellFormed_version all)
    calc
      _ = guessedName (before ++ ("\"" ++ ((front ++ "/" ++ path ++ "/" ++ ("v" ++ digits)) ++
            slashes) ++ "\"") ++ behind) := by
          rw [← slash]
          simp only [String.append_assoc]
      _ = guessedName (front ++ "/" ++ path ++ "/" ++ ("v" ++ digits)) :=
          guessedName_around whole blank quote ends quote blank'
      _ = guessedName (front ++ "/" ++ path) := guessedName_version longer ending present all
      _ = guessedName path := guessedName_join first wellFormed plain
  · rw [named, Text.isIdentifier, String.toList_ofList, isIdentifierChars_wordPart]
  · intro start word
    rw [named, String.toList_ofList]
    exact prefix_wordPart_iff start

/-- The name of a path whose last segment has a leading `go-` and a dot in it, with another path in
front and a version behind, between quotes and blanks. -/
theorem guessedName_by_last_segment_of_version :
    guessedName " \"example.org/gopkg.in/go-yaml.v3/v9//\"\n" = "yaml" ∧
      Text.isIdentifier "yaml" = true ∧
      ∀ word : List Char, word <+: "yaml".toList ↔
        word <+: "yaml.v3".toList ∧ word.all Text.isWordPart = true := by
  have named : guessedName "gopkg.in/go-yaml.v3" = "yaml" := by decide
  obtain ⟨⟨-, -, -, -, -, around⟩, word, longest⟩ :=
    guessedName_by_last_segment "example.org" "gopkg.in/go-yaml.v3" "9" " " "\n" "//"
      (by decide) (by decide) (by decide) (by decide) (by decide) (by decide) (by decide)
      (by decide)
  rw [named] at around word longest
  exact ⟨around, word.mpr (by decide), longest (by decide)⟩

end Blockwork.ImportPath
