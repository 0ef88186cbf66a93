import Blockwork.Proofs.Block.Reach
import Blockwork.Proofs.Generation.Answers
import Blockwork.Proofs.Snippet.Usage

/-!
# What a block gathers

The usage of a block is put together from the usages of the blocks in its declared inputs and
from what its own template notes and asks for.

* **one input** — `Compiler.Gathered`: what asking for the code of an input does to a frame;
* **one template** — `Compiler.Accounts`: a generator gathers all the blocks in its declared
  inputs, and only require blocks and entry points ask for imports themselves;
* **one block** — `Compiler.accounted`, and over a whole tree `Compiler.generated_of_reaches`
  and `Compiler.origin_of_import`: each block that can be reached is generated with the block,
  and each import was asked for by one of them.
-/

namespace Blockwork

variable {known : NameMap NameSet} {name path : String}

/-! ### Usages inside one another -/

/-- Everything in the first usage is in the second. -/
structure Usage.Within (u v : Usage) : Prop where
  packages : ∀ name ∈ u.packages, name ∈ v.packages
  imports : ∀ path ∈ u.imports, path ∈ v.imports

/-- A path has a name among the packages of a usage. -/
def Usage.Uses (known : NameMap NameSet) (u : Usage) (path : String) : Prop :=
  ∃ name ∈ ImportPath.namesOf known path, name ∈ u.packages

namespace Usage

variable {u v w : Usage}

theorem Within.refl (u : Usage) : u.Within u := ⟨fun _ mem => mem, fun _ mem => mem⟩

theorem Within.trans (first : u.Within v) (second : v.Within w) : u.Within w :=
  ⟨fun name mem => second.packages name (first.packages name mem),
    fun path mem => second.imports path (first.imports path mem)⟩

theorem within_append_left (u v : Usage) : u.Within (u ++ v) :=
  ⟨fun _ mem => mem_packages_append.mpr (.inl mem), fun _ mem => mem_imports_append.mpr (.inl mem)⟩

theorem within_append_right (u v : Usage) : v.Within (u ++ v) :=
  ⟨fun _ mem => mem_packages_append.mpr (.inr mem), fun _ mem => mem_imports_append.mpr (.inr mem)⟩

theorem within_foldl_note (u : Usage) (names : List String) : u.Within (names.foldl note u) := by
  refine ⟨fun name mem => mem_packages_foldl_note.mpr (.inr mem), fun path mem => ?_⟩
  rw [imports_foldl_note]
  exact mem

theorem Uses.mono (uses : u.Uses known path) (within : u.Within v) : v.Uses known path := by
  obtain ⟨name, named, mem⟩ := uses
  exact ⟨name, named, within.packages name mem⟩

end Usage

/-- The block is a main function or a server. -/
def Block.IsEntry (b : Block) : Prop :=
  b.kind = "main" ∨ b.kind = "server"

namespace Compiler

variable {c : Compiler} {b child : Block} {bs cs : List Block} {top mid after : Usage}
  {input code : String} {outer : Precedence} {own : Snippet}

/-! ### Inputs -/

/-- Some blocks have been generated one after the other: what was in the frame and the usages of
the blocks are in it, and no other imports. -/
structure Gathered (c : Compiler) (top after : Usage) (bs : List Block) : Prop where
  keeps : top.Within after
  made : ∀ b ∈ bs, ∃ s, (c.compile b).outcome = .ok s ∧ s.usage.Within after
  origin : ∀ path ∈ after.imports, path ∈ top.imports ∨
    ∃ b ∈ bs, ∃ s, (c.compile b).outcome = .ok s ∧ path ∈ s.usage.imports

namespace Gathered

theorem nothing (c : Compiler) (top : Usage) : c.Gathered top top [] :=
  ⟨.refl top, fun _ mem => absurd mem List.not_mem_nil, fun _ mem => .inl mem⟩

theorem one {s : Snippet} (made : (c.compile b).outcome = .ok s) :
    c.Gathered top (top ++ s.usage) [b] := by
  refine ⟨Usage.within_append_left _ _, fun other mem => ?_, fun path mem => ?_⟩
  · rw [List.mem_singleton.mp mem]
    exact ⟨s, made, Usage.within_append_right _ _⟩
  · rcases Usage.mem_imports_append.mp mem with earlier | new
    · exact .inl earlier
    · exact .inr ⟨b, List.mem_cons_self, s, made, new⟩

theorem append (first : c.Gathered top mid bs) (second : c.Gathered mid after cs) :
    c.Gathered top after (bs ++ cs) := by
  refine ⟨first.keeps.trans second.keeps, fun b mem => ?_, fun path mem => ?_⟩
  · rcases List.mem_append.mp mem with early | late
    · obtain ⟨s, made, within⟩ := first.made b early
      exact ⟨s, made, within.trans second.keeps⟩
    · exact second.made b late
  · rcases second.origin path mem with earlier | ⟨b, late, s, made, there⟩
    · rcases first.origin path earlier with before | ⟨b, early, s, made, there⟩
      · exact .inl before
      · exact .inr ⟨b, List.mem_append_left _ early, s, made, there⟩
    · exact .inr ⟨b, List.mem_append_right _ late, s, made, there⟩

theorem noting (gathered : c.Gathered top mid bs) (names : List String) :
    c.Gathered top (names.foldl Usage.note mid) bs := by
  have grows := Usage.within_foldl_note mid names
  refine ⟨gathered.keeps.trans grows, fun b mem => ?_, fun path mem => ?_⟩
  · obtain ⟨s, made, within⟩ := gathered.made b mem
    exact ⟨s, made, within.trans grows⟩
  · rw [Usage.imports_foldl_note] at mem
    exact gathered.origin path mem

theorem noteAll {text : String} (gathered : c.Gathered top mid bs)
    (noted : after = Builtin.noteAll mid text) : c.Gathered top after bs := by
  rw [noted]
  exact gathered.noting _

theorem valueCode (answered : ((c.holder b).valueCode input outer).Answers top code after) :
    c.Gathered top after (b.plugged? input).toList := by
  rcases valueCode_answers.mp answered with ⟨empty, -, rfl⟩ | ⟨child, s, found, made, -, rfl⟩
  · rw [empty]
    exact nothing c after
  · rw [found]
    exact one made

theorem snippets {all : List Snippet} (made : c.snippets bs = .ok all) (top : Usage) :
    c.Gathered top (usageAfter top all) bs := by
  induction bs generalizing all top with
  | nil =>
    cases made
    exact nothing c top
  | cons b rest ih =>
    obtain ⟨s, others, first, done, rfl⟩ := snippets_cons.mp made
    exact (one first).append (ih done (top ++ s.usage))

theorem sequenceCode (answered : ((c.holder b).sequenceCode input).Answers top code after) :
    c.Gathered top after (b.sequenceIn input) := by
  obtain ⟨all, made, -, rfl⟩ := sequenceCode_answers.mp answered
  exact snippets made top

theorem indentedCode {env : Surroundings}
    (answered : ((c.holder b).indentedCode env input).Answers top code after) :
    c.Gathered top after (b.sequenceIn input) := by
  obtain ⟨all, made, -, rfl⟩ := indentedCode_answers.mp answered
  exact snippets made top

theorem arguments {parameters : List Parameter} {arguments : List (Parameter × String)}
    (answered : ((c.holder b).arguments parameters).Answers top arguments after) :
    c.Gathered top after (parameters.flatMap fun p => (b.plugged? p.name).toList) := by
  induction parameters generalizing top arguments with
  | nil =>
    obtain ⟨-, rfl⟩ := Holder.arguments_nil_answers.mp answered
    exact nothing c after
  | cons p rest ih =>
    obtain ⟨value, mid, others, told, later, -⟩ :=
      (Holder.arguments_cons_answers (c.steady_holder b)).mp answered
    exact (valueCode told).append (ih later)

end Gathered

/-! ### Templates -/

/-- The block is a require block whose value reads as a literal for the path. -/
def Declares (c : Compiler) (r : Block) (path : String) : Prop :=
  r.kind = "require" ∧ ∃ child s code, r.plugged? "VALUE" = some child ∧
    (c.compile child).outcome = .ok s ∧ s.inSlot? .atomic = some code ∧
    Source.literalText? code = some path

/-- A block that generates code with this usage has a reason to ask for a path itself: it is an
entry point that uses the available path, or it declares the path. -/
def MayAsk (c : Compiler) (b : Block) (u : Usage) (path : String) : Prop :=
  (path ∈ c.available ∧ b.IsEntry ∧ u.Uses c.catalogue.knownNames path) ∨
    (path ∉ c.available ∧ c.Declares b path)

/-- What a generator did: it gathered these blocks in its frame, and its own snippet asks for
what the block may ask for, an entry point for all of that. No blank path is asked for unless it
is available. -/
structure Accounts (c : Compiler) (b : Block) (bs : List Block) (own after : Usage) : Prop where
  gathered : c.Gathered {} after bs
  asks : ∀ path ∈ own.imports, c.MayAsk b (own ++ after) path
  shown : ∀ path ∈ own.imports, path ∉ c.available → Text.isBlankText path = false
  complete : b.IsEntry → ∀ path ∈ c.available,
    (own ++ after).Uses c.catalogue.knownNames path → path ∈ own.imports

namespace Accounts

theorem of_silent {own : Usage} (gathered : c.Gathered {} after bs) (silent : own.imports = [])
    (other : ¬ b.IsEntry) : c.Accounts b bs own after := by
  have nothing : ∀ path, path ∉ own.imports := by
    rw [silent]
    exact fun _ => List.not_mem_nil
  exact ⟨gathered, fun path mem => absurd mem (nothing path),
    fun path mem => absurd mem (nothing path), fun entry => absurd entry other⟩

/-- An entry point asks for the available paths that its whole usage uses: its snippet notes no
packages beside those of its frame. -/
theorem of_entry {s : Snippet} {always : List String} (gathered : c.Gathered {} after bs)
    (entry : b.IsEntry) (plain : s.usage = {}) (noted : ∀ name ∈ always, name ∈ after.packages)
    (made : own = s.asking (ImportPath.needed c.available after.packages always
      c.catalogue.knownNames)) :
    c.Accounts b bs own.usage after := by
  have packages : own.usage.packages = .empty := by
    rw [made]
    unfold Snippet.asking
    rw [Usage.packages_foldl_ask, plain]
  have imports : ∀ path, path ∈ own.usage.imports ↔
      path ∈ c.available ∧ after.Uses c.catalogue.knownNames path := by
    intro path
    rw [made]
    unfold Snippet.asking
    rw [Usage.imports_foldl_ask, plain, mem_appendNew, ImportPath.mem_needed]
    constructor
    · rintro (none | ⟨ok, name, named, used | mem⟩)
      · exact absurd none List.not_mem_nil
      · exact ⟨ok, name, named, used⟩
      · exact ⟨ok, name, named, noted name mem⟩
    · rintro ⟨ok, name, named, used⟩
      exact .inr ⟨ok, name, named, .inl used⟩
  refine ⟨gathered, fun path mem => ?_, fun path mem other => ?_,
    fun _ path ok uses => (imports path).mpr ⟨ok, ?_⟩⟩
  · obtain ⟨ok, uses⟩ := (imports path).mp mem
    exact .inl ⟨ok, entry, uses.mono (Usage.within_append_right _ _)⟩
  · exact absurd ((imports path).mp mem).1 other
  · obtain ⟨name, named, mem⟩ := uses
    rcases Usage.mem_packages_append.mp mem with here | there
    · rw [packages] at here
      exact absurd here List.not_mem_nil
    · exact ⟨name, named, there⟩

theorem of_require (kind : b.kind = "require")
    (answered : (Builtin.requireSnippet c.surroundings (c.holder b)).Answers {} own after) :
    c.Accounts b (b.plugged? "VALUE").toList own.usage after := by
  obtain ⟨value, told, made⟩ := (Builtin.require_answers (c.steady_holder b)).mp answered
  have other : ¬ b.IsEntry := by
    rw [Block.IsEntry, kind]
    decide
  have gathered := Gathered.valueCode told
  rcases made with ⟨-, rfl⟩ | ⟨path, present, literal, rfl⟩
  · exact of_silent gathered rfl other
  · split
    · exact of_silent gathered rfl other
    · rename_i passed
      rw [Bool.or_eq_true, not_or] at passed
      have unavailable : path ∉ c.available := fun mem => passed.2 (decide_eq_true mem)
      have declares : c.Declares b path := by
        rcases valueCode_answers.mp told with ⟨-, rfl, -⟩ | ⟨child, s, found, done, stands, -⟩
        · exact absurd rfl present
        · exact ⟨kind, child, s, value, found, done, stands, literal⟩
      refine ⟨gathered, fun asked mem => ?_, fun asked mem _ => ?_, fun entry => absurd entry other⟩
      · rw [List.mem_singleton.mp mem]
        exact .inr ⟨unavailable, declares⟩
      · rw [List.mem_singleton.mp mem]
        exact Bool.eq_false_iff.mpr passed.1

/-- A built-in gathers the blocks in its declared inputs. -/
theorem of_builtin {k : Builtin} (kind : b.kind = k.blockType.id)
    (answered : (k.snippet c.surroundings (c.holder b)).Answers {} own after) :
    c.Accounts b (k.blockType.children b) own.usage after := by
  have steady := c.steady_holder b
  -- The blocks of a type with one input are a list with nothing behind it.
  have alone : ∀ {bs : List Block}, c.Gathered {} after bs → c.Gathered {} after (bs ++ []) := by
    intro bs gathered
    rw [List.append_nil]
    exact gathered
  have other : k.blockType.id ≠ "main" ∧ k.blockType.id ≠ "server" → ¬ b.IsEntry := by
    rintro ⟨notMain, notServer⟩ (main | server)
    · exact notMain (kind.symm.trans main)
    · exact notServer (kind.symm.trans server)
  cases k with
  | require =>
    have accounts := of_require kind answered
    exact ⟨alone accounts.gathered, accounts.asks, accounts.shown, accounts.complete⟩
  | main =>
    obtain ⟨body, told, made⟩ := (Builtin.main_answers steady).mp answered
    exact of_entry (alone (.indentedCode told)) (.inl kind) rfl
      (fun _ mem => absurd mem List.not_mem_nil) made
  | server =>
    obtain ⟨port, body, inner, -, told, rfl, made⟩ :=
      (Builtin.server_answers steady).mp answered
    have gathered := (Gathered.indentedCode told).noting ["http", "log"]
    refine of_entry (alone gathered) (.inr kind) rfl (fun name mem => ?_) made
    rw [List.mem_singleton.mp mem]
    exact Usage.mem_packages_note.mpr (.inl rfl)
  | routeGroup =>
    obtain ⟨routes, told, rfl⟩ := (Builtin.routeGroup_answers steady).mp answered
    exact of_silent (alone (.indentedCode told)) rfl (other (by decide))
  | route =>
    obtain ⟨method, body, mid, -, told, noted, rfl⟩ :=
      (Builtin.route_answers steady).mp answered
    have gathered := (Gathered.indentedCode told).noteAll noted
    exact of_silent (alone gathered) rfl (other (by decide))
  | onStart =>
    obtain ⟨body, told, rfl⟩ := (Builtin.onStart_answers steady).mp answered
    exact of_silent (alone (.sequenceCode told)) rfl (other (by decide))
  | onShutdown =>
    obtain ⟨hooks, told, rfl⟩ := (Builtin.onShutdown_answers steady).mp answered
    exact of_silent (alone (.indentedCode told)) rfl (other (by decide))
  | line =>
    have lines := Builtin.line_answers.mp answered
    split at lines
    · obtain ⟨rfl, rfl⟩ := lines
      exact of_silent (.nothing c {}) rfl (other (by decide))
    · obtain ⟨rfl, noted⟩ := lines
      exact of_silent ((Gathered.nothing c {}).noteAll noted) rfl (other (by decide))
  | map =>
    obtain ⟨entries, told, rfl⟩ := (Builtin.map_answers steady).mp answered
    exact of_silent (alone (.indentedCode told)) rfl (other (by decide))
  | mapField =>
    obtain ⟨value, told, rfl⟩ := (Builtin.mapField_answers steady).mp answered
    exact of_silent (alone (.valueCode told)) rfl (other (by decide))
  | handler =>
    change (Builtin.handlerSnippet (c.holder b)).Answers _ _ _ at answered
    rw [Builtin.handler_answers] at answered
    split at answered
    · obtain ⟨rfl, rfl⟩ := answered
      exact of_silent (.nothing c {}) rfl (other (by decide))
    · obtain ⟨rfl, noted⟩ := answered
      exact of_silent ((Gathered.nothing c {}).noteAll noted) rfl (other (by decide))
  | text =>
    obtain ⟨rfl, rfl⟩ := Builtin.text_answers.mp answered
    exact of_silent (.nothing c {}) rfl (other (by decide))
  | number =>
    obtain ⟨x, -, -, rfl, rfl⟩ := Builtin.number_answers.mp answered
    exact of_silent (.nothing c {}) rfl (other (by decide))
  | boolean =>
    obtain ⟨rfl, rfl⟩ := Builtin.boolean_answers.mp answered
    exact of_silent (.nothing c {}) rfl (other (by decide))

theorem of_call {item : CallItem} (other : ¬ b.IsEntry)
    (answered : (item.snippet (c.holder b)).Answers {} own after) :
    c.Accounts b (item.blockType.children b) own.usage after := by
  obtain ⟨arguments, told, rfl⟩ := (item.snippet_answers (c.steady_holder b)).mp answered
  have gathered := Gathered.arguments told
  rw [← CallItem.children_eq] at gathered
  exact of_silent gathered rfl other

theorem of_literal {item : LiteralItem} (other : ¬ b.IsEntry)
    (answered : (item.snippet (c.holder b)).Answers {} own after) :
    c.Accounts b (item.blockType.children b) own.usage after := by
  obtain ⟨arguments, told, rfl⟩ := (item.snippet_answers (c.steady_holder b)).mp answered
  have gathered := Gathered.arguments told
  rw [← LiteralItem.children_eq] at gathered
  exact of_silent gathered rfl other

end Accounts

/-! ### Blocks -/

variable {listing : Listing} {s : Snippet}

/-- In a loaded catalogue the entry points are the built-in ones. -/
theorem listing_of_entry (loaded : c.catalogue.Loaded) (entry : b.IsEntry) :
    ∃ k : Builtin, c.catalogue.get? b.kind = some ⟨k.blockType, .builtin k⟩ := by
  rcases entry with kind | kind
  · rw [kind]
    exact ⟨.main, loaded.get?_builtin .main (by decide)⟩
  · rw [kind]
    exact ⟨.server, loaded.get?_builtin .server (by decide)⟩

/-- The usage of a block is its own and what it gathered from the blocks in its declared
inputs. -/
theorem accounted (loaded : c.catalogue.Loaded)
    (listed : c.catalogue.get? b.kind = some listing) (made : (c.compile b).outcome = .ok s) :
    ∃ own after, s.usage = own ++ after ∧
      c.Accounts b (listing.blockType.children b) own after := by
  obtain ⟨own, after, answered, rfl⟩ := (outcome_of_listed listed).mp made
  refine ⟨own.usage, after, rfl, ?_⟩
  have other : (∀ k, listing.generator ≠ .builtin k) → ¬ b.IsEntry := by
    intro foreign entry
    obtain ⟨k, builtin⟩ := listing_of_entry loaded entry
    rw [builtin] at listed
    exact foreign k (Option.some.inj listed ▸ rfl)
  obtain ⟨kind, inOrder⟩ := loaded.listed listed
  obtain ⟨blockType, generator⟩ := listing
  cases generator with
  | builtin k =>
    obtain rfl : blockType = k.blockType := inOrder
    exact .of_builtin kind.symm answered
  | call item =>
    obtain rfl : blockType = item.blockType := inOrder.1
    exact .of_call (other nofun) answered
  | literal item =>
    obtain rfl : blockType = item.blockType := inOrder.1
    exact .of_literal (other nofun) answered
  | recipe recipe => exact inOrder.elim

/-- What can be reached from a generated block is generated with it, and its usage is part of
the block's. -/
theorem generated_of_reaches (loaded : c.catalogue.Loaded) {inner : Block}
    (reaches : c.catalogue.Reaches b inner) (made : (c.compile b).outcome = .ok s) :
    ∃ t, (c.compile inner).outcome = .ok t ∧ t.usage.Within s.usage := by
  have child : ∀ {b child : Block} {listing : Listing} {s : Snippet},
      c.catalogue.get? b.kind = some listing → child ∈ listing.blockType.children b →
        (c.compile b).outcome = .ok s →
          ∃ t, (c.compile child).outcome = .ok t ∧ t.usage.Within s.usage := by
    intro b child listing s listed mem made
    obtain ⟨own, after, whole, accounts⟩ := accounted loaded listed made
    obtain ⟨t, done, within⟩ := accounts.gathered.made child mem
    rw [whole]
    exact ⟨t, done, within.trans (Usage.within_append_right _ _)⟩
  induction reaches generalizing s with
  | self b => exact ⟨s, made, .refl _⟩
  | value listed declared found _ ih =>
    obtain ⟨t, done, within⟩ :=
      child listed (BlockType.mem_children_of_value declared found) made
    obtain ⟨u, inside, further⟩ := ih done
    exact ⟨u, inside, further.trans within⟩
  | statement listed declared mem _ ih =>
    obtain ⟨t, done, within⟩ :=
      child listed (BlockType.mem_children_of_statement declared mem) made
    obtain ⟨u, inside, further⟩ := ih done
    exact ⟨u, inside, further.trans within⟩

theorem within_of_reaches (loaded : c.catalogue.Loaded) {inner : Block} {t : Snippet}
    (reaches : c.catalogue.Reaches b inner) (made : (c.compile b).outcome = .ok s)
    (inside : (c.compile inner).outcome = .ok t) : t.usage.Within s.usage := by
  obtain ⟨u, done, within⟩ := generated_of_reaches loaded reaches made
  rw [inside] at done
  exact Except.ok.inj done ▸ within

/-- Each import of a generated block is among those that a block which was generated with it
asked for itself. -/
theorem asked_of_import (loaded : c.catalogue.Loaded) (b : Block) :
    ∀ s, (c.compile b).outcome = .ok s → ∀ path ∈ s.usage.imports,
      ∃ r t bs own after, c.catalogue.Reaches b r ∧ (c.compile r).outcome = .ok t ∧
        t.usage = own ++ after ∧ c.Accounts r bs own after ∧ path ∈ own.imports := by
  induction b using Block.induction with
  | step b values statements =>
    intro s made path mem
    cases listed : c.catalogue.get? b.kind with
    | none =>
      obtain ⟨-, rfl⟩ := (outcome_of_unlisted listed).mp made
      exact absurd mem List.not_mem_nil
    | some listing =>
      obtain ⟨own, after, whole, accounts⟩ := accounted loaded listed made
      rw [whole] at mem
      rcases Usage.mem_imports_append.mp mem with here | gathered
      · exact ⟨b, s, _, own, after, .self b, made, whole, accounts, here⟩
      · rcases accounts.gathered.origin path gathered with none | ⟨child, inside, t, done, there⟩
        · exact absurd none List.not_mem_nil
        · rcases BlockType.mem_children inside with ⟨input, -, found⟩ | ⟨input, -, standing⟩
          · obtain ⟨r, u, bs, own', after', reaches, rest⟩ :=
              values input child found t done path there
            exact ⟨r, u, bs, own', after', .of_child listed inside reaches, rest⟩
          · obtain ⟨r, u, bs, own', after', reaches, rest⟩ :=
              statements input child standing t done path there
            exact ⟨r, u, bs, own', after', .of_child listed inside reaches, rest⟩

/-- Each import of a generated block was asked for by a block that was generated with it. -/
theorem origin_of_import (loaded : c.catalogue.Loaded) (b : Block) :
    ∀ s, (c.compile b).outcome = .ok s → ∀ path ∈ s.usage.imports,
      ∃ r t, c.catalogue.Reaches b r ∧ (c.compile r).outcome = .ok t ∧
        c.MayAsk r t.usage path := by
  intro s made path mem
  obtain ⟨r, t, bs, own, after, reaches, done, whole, accounts, asked⟩ :=
    asked_of_import loaded b s made path mem
  exact ⟨r, t, reaches, done, whole ▸ accounts.asks path asked⟩

/-- An entry point imports every available path that it uses. -/
theorem imports_of_entry (loaded : c.catalogue.Loaded) (entry : b.IsEntry)
    (made : (c.compile b).outcome = .ok s) (available : path ∈ c.available)
    (uses : s.usage.Uses c.catalogue.knownNames path) : path ∈ s.usage.imports := by
  obtain ⟨k, listed⟩ := listing_of_entry loaded entry
  obtain ⟨own, after, whole, accounts⟩ := accounted loaded listed made
  rw [whole] at uses ⊢
  exact Usage.mem_imports_append.mpr (.inl (accounts.complete entry path available uses))

end Compiler

end Blockwork
