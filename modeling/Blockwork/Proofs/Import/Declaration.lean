import Blockwork.Import.Needed
import Blockwork.Proofs.Collection.Firsts
import Blockwork.Proofs.Source.IndentedTokens
import Blockwork.Proofs.Source.StringReader
import Blockwork.Proofs.Source.TwinTokens

/-!
# Import declarations read back

What the language reads of an import declaration. `readImports?` reads the declarations at the front
of the tokens of a source text: behind the keyword stands a string, or there are strings in
parentheses, one on each line; and each string says a path.

* **a line** — `Lexer.run_line`: the tokens of a line with a literal on it, behind any indentation;
* **the declaration** — `readSpecs?_lines`, `readImports?_declaration_append`: the paths of a list
  are read from its declaration, whatever text follows;
* **the list** — `ImportList.paths_callAll`: calls leave the paths in the order in which they turned
  up first.
-/

namespace Blockwork

namespace Source

variable {a : Alphabet}

/-! ### Reading -/

/-- The text that a string literal says, given what stands between its quotes. -/
def textBetween? (inside : String) : Option String :=
  match readString? ('"' :: (inside.toList ++ ['"'])) with
  | some (bytes, []) => String.fromUTF8? bytes.toByteArray
  | _ => none

mutual

/-- Reads the import declarations at the front of a text: their paths and the tokens behind them. -/
def readImports? : List Token → Option (List String × List Token)
  | .word "import" :: .operator "(" :: rest => readSpecs? rest
  | .word "import" :: .literal '"' inside true :: .lineEnd :: rest => do
    let path ← textBetween? inside
    let (paths, rest) ← readImports? rest
    return (path :: paths, rest)
  | .word "import" :: _ => none
  | rest => some ([], rest)

/-- Reads on behind the parenthesis that opens a declaration. -/
def readSpecs? : List Token → Option (List String × List Token)
  | .operator ")" :: .lineEnd :: rest => readImports? rest
  | .literal '"' inside true :: .lineEnd :: rest => do
    let path ← textBetween? inside
    let (paths, rest) ← readSpecs? rest
    return (path :: paths, rest)
  | _ => none

end

/-- The literal of a text says the text. -/
theorem textBetween?_escapes (s : String) :
    textBetween? (String.ofList (s.toList.flatMap escape)) = some s := by
  have read : readString? (quoteChars s.toList) = some (bytesOf s.toList, []) := by
    rw [← toList_quote, ← List.append_nil (quote s).toList, readString?_quote_append]
  have bytes : (bytesOf s.toList).toByteArray = s.toByteArray := String.utf8Encode_toList
  unfold textBetween?
  rw [String.toList_ofList, ← quoteChars, read]
  show String.fromUTF8? (bytesOf s.toList).toByteArray = _
  rw [bytes, String.fromUTF8?, dif_pos s.isValidUTF8]
  rfl

/-! ### Lines with a literal -/

/-- A line with a literal on it, behind any indentation, is the literal and the end of the line. -/
theorem Lexer.run_line {i : List Char} (spaces : ∀ c ∈ i, c = ' ' ∨ c = '\t')
    (text rest : List Char) :
    run a {} (i ++ quoteChars text ++ '\n' :: rest) =
      .literal '"' (String.ofList (text.flatMap escape)) true :: .lineEnd :: run a {} rest := by
  obtain ⟨between, nothing⟩ := pass_indentation (a := a) (.inl rfl) spaces false
  have passed : run a {} (i ++ (quoteChars text ++ '\n' :: rest)) =
      run a {} (quoteChars text ++ '\n' :: rest) := by
    rw [run_append, nothing, between]
    rfl
  have outside : ({} : Lexer).reading.Outside := trivial
  rw [List.append_assoc, passed, run_quoteChars outside]
  rfl

/-- The paths of a list are read from their lines, up to the parenthesis that closes them. -/
theorem readSpecs?_lines {i : List Char} (spaces : ∀ c ∈ i, c = ' ' ∨ c = '\t')
    (paths : List String) (rest : List Char) :
    readSpecs? (Lexer.run a {}
        (paths.flatMap (fun path => i ++ quoteChars path.toList ++ ['\n']) ++
          ')' :: '\n' :: rest)) =
      (readImports? (Lexer.run a {} rest)).map fun read => (paths ++ read.1, read.2) := by
  induction paths with
  | nil =>
    have closing : Lexer.run a {} (')' :: '\n' :: rest) =
        .operator ")" :: .lineEnd :: Lexer.run a {} rest := rfl
    rw [List.flatMap_nil, List.nil_append, closing, readSpecs?]
    cases readImports? (Lexer.run a {} rest) <;> rfl
  | cons path paths ih =>
    rw [List.flatMap_cons, List.append_assoc, List.append_assoc _ ['\n'], List.singleton_append,
      Lexer.run_line spaces, readSpecs?, textBetween?_escapes, ih]
    cases readImports? (Lexer.run a {} rest) <;> rfl

end Source

namespace ImportList

open Source

variable {a : Alphabet} {indent : String}

/-! ### The declaration -/

theorem declaration_of_nil {l : ImportList} (empty : l.paths = []) : l.declaration indent = "" := by
  rw [declaration, empty]

theorem declaration_of_single {l : ImportList} {path : String} (single : l.paths = [path]) :
    (l.declaration indent).toList =
      "import ".toList ++ ([] ++ quoteChars path.toList ++ ['\n']) := by
  rw [declaration, single]
  simp [toString, String.toList_append]

theorem declaration_of_several {l : ImportList} {first second : String} {more : List String}
    (several : l.paths = first :: second :: more) :
    (l.declaration indent).toList = "import (\n".toList ++
      (l.paths.flatMap (fun path => indent.toList ++ quoteChars path.toList ++ ['\n']) ++
        [')', '\n']) := by
  rw [declaration, several]
  simp [toString, String.toList_append, String.toList_join, List.flatMap_map]

/-- The paths of a list are read from its declaration, and what follows is read behind it. -/
theorem readImports?_declaration_append (l : ImportList)
    (spaces : ∀ c ∈ indent.toList, c = ' ' ∨ c = '\t') (code : String) :
    readImports? (tokens a (l.declaration indent ++ code)) =
      (readImports? (tokens a code)).map fun read => (l.paths ++ read.1, read.2) := by
  unfold tokens
  rw [String.toList_append]
  match paths : l.paths with
  | [] =>
    rw [declaration_of_nil paths]
    show readImports? (Lexer.run a {} code.toList) = _
    cases readImports? (Lexer.run a {} code.toList) <;> rfl
  | [path] =>
    have keyword : ∀ rest, Lexer.run a {} ("import ".toList ++ rest) =
        .word "import" :: Lexer.run a {} rest := by
      intro rest
      rw [Lexer.run_append]
      rfl
    rw [declaration_of_single paths, List.append_assoc, keyword, List.append_assoc,
      List.singleton_append, Lexer.run_line (List.forall_mem_nil _), readImports?,
      textBetween?_escapes]
    cases readImports? (Lexer.run a {} code.toList) <;> rfl
  | first :: second :: more =>
    have opening : ∀ rest, Lexer.run a {} ("import (\n".toList ++ rest) =
        .word "import" :: .operator "(" :: Lexer.run a {} rest := by
      intro rest
      rw [Lexer.run_append]
      rfl
    rw [declaration_of_several paths, List.append_assoc, opening, readImports?, List.append_assoc,
      ← paths]
    exact readSpecs?_lines spaces l.paths code.toList

/-! ### The list -/

theorem paths_callAll (calls : List Call) :
    (callAll {} calls).paths = appendNew [] (calls.flatMap Call.paths) := by
  suffices ∀ l : ImportList,
      (callAll l calls).paths = appendNew l.paths (calls.flatMap Call.paths) from this {}
  induction calls with
  | nil => exact fun _ => rfl
  | cons call calls ih =>
    intro l
    have step : (l.call call).2.paths = appendNew l.paths call.paths := by
      cases call <;> rfl
    show (callAll (l.call call).2 calls).paths = _
    rw [ih, step, List.flatMap_cons, appendNew_append]

/-- **Import declarations are read back.** Let paths be put on an empty list, one at a time or many
at once. The list then has each of these paths once, in the order in which they turned up first, and
there is no other list of that kind. Whatever characters the paths have, the list can be read from
its declaration, indented by spaces and tabs: from the declaration alone nothing is read but the
paths, and in front of a text, they are read before the imports of the text. -/
theorem declaration_read_back (a : Alphabet) (calls : List Call) (indent code : String)
    (spaces : ∀ c ∈ indent.toList, c = ' ' ∨ c = '\t') :
    let l := callAll {} calls
    l.paths.Nodup ∧
      (∀ paths, ListsFirsts paths (calls.flatMap Call.paths) ↔ paths = l.paths) ∧
      readImports? (tokens a (l.declaration indent)) = some (l.paths, []) ∧
      readImports? (tokens a (l.declaration indent ++ code)) =
        (readImports? (tokens a code)).map fun read => (l.paths ++ read.1, read.2) := by
  intro l
  have alone := readImports?_declaration_append (a := a) l spaces ""
  rw [String.append_empty] at alone
  have nothing : readImports? (tokens a "") = some ([], []) := rfl
  refine ⟨l.nodup, fun paths => ?_, ?_, readImports?_declaration_append l spaces code⟩
  · rw [listsFirsts_iff, paths_callAll]
  · rw [alone, nothing, Option.map_some, List.append_nil]

/-- Two calls with a path in common, one path having quotes and a newline in it, in front of a
variable. -/
theorem declaration_read_back_of_calls :
    let a : Alphabet := ⟨fun _ => false, fun _ => false⟩
    let calls : List Call := [.add "net/http", .addAll ["say \"hi\"\n", "net/http"]]
    let l := callAll {} calls
    ListsFirsts ["net/http", "say \"hi\"\n"] (calls.flatMap Call.paths) ∧
      readImports? (tokens a (l.declaration "\t")) =
        some (["net/http", "say \"hi\"\n"], []) ∧
      readImports? (tokens a (l.declaration "\t" ++ "var x = 1\n")) =
        some (["net/http", "say \"hi\"\n"], tokens a "var x = 1\n") := by
  intro a calls l
  obtain ⟨-, firsts, alone, behind⟩ :=
    declaration_read_back a calls "\t" "var x = 1\n" (Text.forall_mem_of_all (by decide))
  have code : readImports? (tokens a "var x = 1\n") = some ([], tokens a "var x = 1\n") := rfl
  rw [code] at behind
  exact ⟨(firsts _).mpr (by decide), alone, behind⟩

end ImportList

end Blockwork
