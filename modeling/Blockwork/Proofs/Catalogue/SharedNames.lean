import Blockwork.Proofs.Catalogue.Batches
import Blockwork.Proofs.Catalogue.Loaded

/-!
# Names that block types share

The name of an item's block type joins two names by an underscore, and both may have underscores
of their own. Two items share a type name exactly when they clash (`PackageItem.typeName_eq_iff`),
and few items share one with a built-in type (`PackageItem.typeName_eq_builtin_iff`).

What is taken in under a name replaces what was there. So taking in a package leaves everything in
the catalogue but what clashes with its own items, whatever packages came before
(`Catalogue.Loaded.replaces_own_names`).
-/

namespace Blockwork

namespace PackageItem

variable {a b : PackageItem}

/-! ### Clashing items -/

/-- The package of the second item is the first one's, an underscore and the beginning of the
first one's name; what is left of that name is the second one's. -/
def SplitsBehind (a b : PackageItem) : Prop :=
  ∃ part, b.package = a.package ++ "_" ++ part ∧ a.name = part ++ "_" ++ b.name

/-- The items are called the same, or they split one name at different underscores. -/
def Clashes (a b : PackageItem) : Prop :=
  (a.package = b.package ∧ a.name = b.name) ∨ a.SplitsBehind b ∨ b.SplitsBehind a

theorem typeName_eq (item : PackageItem) :
    item.typeName = item.package ++ "_" ++ item.name := by
  simp [typeName, toString]

theorem SplitsBehind.typeName_eq (split : a.SplitsBehind b) : a.typeName = b.typeName := by
  obtain ⟨part, package, name⟩ := split
  rw [PackageItem.typeName_eq, PackageItem.typeName_eq, package, name]
  simp only [String.append_assoc]

/-- Of two ways to write one name, the one with the longer package splits it behind the other. -/
theorem same_or_splitsBehind {part : List Char}
    (package : b.package.toList = a.package.toList ++ part)
    (rest : '_' :: a.name.toList = part ++ '_' :: b.name.toList) :
    (a.package = b.package ∧ a.name = b.name) ∨ a.SplitsBehind b := by
  cases part with
  | nil =>
    refine .inl ⟨String.toList_injective ?_, String.toList_injective ?_⟩
    · rw [package, List.append_nil]
    · exact (List.cons.inj rest).2
  | cons first part =>
    obtain ⟨rfl, name⟩ := List.cons.inj rest
    refine .inr ⟨String.ofList part, String.toList_injective ?_, String.toList_injective ?_⟩
    · simp [package]
    · simp [name]

/-- Items give their block types the same name exactly when they clash. -/
theorem typeName_eq_iff : a.typeName = b.typeName ↔ a.Clashes b := by
  constructor
  · intro same
    have joined : a.package.toList ++ '_' :: a.name.toList =
        b.package.toList ++ '_' :: b.name.toList := by
      simpa [typeName_eq] using congrArg String.toList same
    rcases List.append_eq_append_iff.mp joined with ⟨part, package, rest⟩ | ⟨part, package, rest⟩
    · rcases same_or_splitsBehind package rest with ⟨packages, names⟩ | split
      · exact .inl ⟨packages, names⟩
      · exact .inr (.inl split)
    · rcases same_or_splitsBehind package rest with ⟨packages, names⟩ | split
      · exact .inl ⟨packages.symm, names.symm⟩
      · exact .inr (.inr split)
  · rintro (⟨packages, names⟩ | split | split)
    · rw [typeName_eq, typeName_eq, packages, names]
    · exact split.typeName_eq
    · exact split.typeName_eq.symm

theorem SplitsBehind.underscore_mem (split : a.SplitsBehind b) :
    '_' ∈ b.package.toList ∧ '_' ∈ a.name.toList := by
  obtain ⟨part, package, name⟩ := split
  simp [package, name]

/-- Where neither part of a name has an underscore, there is one way to split it. -/
theorem typeName_eq_iff_of_plain (item : PackageItem) {package name : String}
    (plainPackage : '_' ∉ package.toList) (plainName : '_' ∉ name.toList) :
    item.typeName = package ++ "_" ++ name ↔ item.package = package ∧ item.name = name := by
  let other : PackageItem := ⟨package, name, [], "", "", 0⟩
  have whole : package ++ "_" ++ name = other.typeName := other.typeName_eq.symm
  rw [whole, typeName_eq_iff]
  constructor
  · rintro (same | split | split)
    · exact same
    · exact absurd split.underscore_mem.1 plainPackage
    · exact absurd split.underscore_mem.2 plainName
  · exact .inl

end PackageItem

/-! ### Clashes with built-in types -/

/-- The package and the name of the items that share their type name with a built-in type. -/
def Builtin.splitName? : Builtin → Option (String × String)
  | routeGroup => some ("route", "group")
  | onStart => some ("on", "start")
  | onShutdown => some ("on", "shutdown")
  | number => some ("math", "number")
  | boolean => some ("logic", "boolean")
  | _ => none

theorem PackageItem.typeName_eq_builtin_iff (item : PackageItem) (k : Builtin) :
    item.typeName = k.blockType.id ↔ k.splitName? = some (item.package, item.name) := by
  have split : ∀ package name : String, '_' ∉ package.toList → '_' ∉ name.toList →
      (item.typeName = package ++ "_" ++ name ↔
        some (package, name) = some (item.package, item.name)) := by
    intro package name plainPackage plainName
    rw [item.typeName_eq_iff_of_plain plainPackage plainName, Option.some_inj, Prod.mk.injEq,
      eq_comm, eq_comm (a := item.name)]
  have plain : ∀ id : String, '_' ∉ id.toList →
      (item.typeName = id ↔ none = some (item.package, item.name)) := by
    intro id without
    refine iff_of_false (fun same => without ?_) nofun
    exact same ▸ item.underscore_mem_typeName
  cases k with
  | routeGroup => exact split "route" "group" (by decide) (by decide)
  | onStart => exact split "on" "start" (by decide) (by decide)
  | onShutdown => exact split "on" "shutdown" (by decide) (by decide)
  | number => exact split "math" "number" (by decide) (by decide)
  | boolean => exact split "logic" "boolean" (by decide) (by decide)
  | _ => exact plain _ (by decide)

/-! ### The items of a batch -/

/-- The package item that a listing was made for. -/
def Listing.item? (listing : Listing) : Option PackageItem :=
  match listing.generator with
  | .call item => some item.toPackageItem
  | .literal item => some item.toPackageItem
  | _ => none

/-- The listing is that of a package item, under the name of its block type. -/
def Listing.IsOf (listing : Listing) (item : PackageItem) : Prop :=
  listing.item? = some item ∧ listing.blockType.id = item.typeName

theorem Listing.InOrder.isOf {listing : Listing} (inOrder : listing.InOrder) {item : PackageItem}
    (made : listing.item? = some item) : listing.IsOf item := by
  obtain ⟨blockType, generator⟩ := listing
  refine ⟨made, ?_⟩
  cases generator with
  | builtin k => exact nomatch made
  | call call =>
    obtain rfl := Option.some.inj made
    exact congrArg BlockType.id inOrder.1
  | literal literal =>
    obtain rfl := Option.some.inj made
    exact congrArg BlockType.id inOrder.1
  | recipe r => exact nomatch made

theorem FunctionEntry.candidate_isOf {e : FunctionEntry} {help : String} {hue : Nat}
    {candidate : Candidate} (made : e.candidate help hue = .ok candidate) :
    ∃ item, candidate.listing.IsOf item := by
  unfold FunctionEntry.candidate at made
  cases entered : CallItem.ofEntry e help hue with
  | error failure =>
    rw [entered] at made
    exact nomatch made
  | ok item =>
    rw [entered] at made
    cases made
    exact ⟨item.toPackageItem, rfl, rfl⟩

theorem StructEntry.candidate_isOf {e : StructEntry} {help : String} {hue : Nat}
    {candidate : Candidate} (made : e.candidate help hue = .ok candidate) :
    ∃ item, candidate.listing.IsOf item := by
  unfold StructEntry.candidate at made
  cases entered : LiteralItem.ofEntry e help hue with
  | error failure =>
    rw [entered] at made
    exact nomatch made
  | ok item =>
    rw [entered] at made
    cases made
    exact ⟨item.toPackageItem, rfl, rfl⟩

namespace Batch

variable {settings : Settings} {b : Batch}

/-- The items that the entries in order become. -/
def items (settings : Settings) (b : Batch) : List PackageItem :=
  (b.listings settings).filterMap Listing.item?

/-- The last listing under a name. -/
def last? (settings : Settings) (b : Batch) (id : String) : Option Listing :=
  (b.listings settings).findRev? fun listing => listing.blockType.id = id

theorem isOf_of_mem_listings {listing : Listing} (mem : listing ∈ b.listings settings) :
    ∃ item, listing.IsOf item := by
  obtain ⟨candidate, entered, rfl⟩ := List.mem_map.mp mem
  obtain ⟨outcome, among, kept⟩ := List.mem_filterMap.mp entered
  cases outcome with
  | error failure => exact nomatch kept
  | ok made =>
    obtain rfl := Option.some.inj kept
    cases b with
    | functions path index entries =>
      obtain ⟨e, -, made⟩ := List.mem_map.mp among
      exact e.candidate_isOf made
    | structs path index entries =>
      obtain ⟨e, -, made⟩ := List.mem_map.mp among
      exact e.candidate_isOf made

/-- The names under which a batch lists block types are those of its items. -/
theorem exists_item_iff {id : String} :
    (∃ item ∈ b.items settings, item.typeName = id) ↔
      ∃ listing ∈ b.listings settings, listing.blockType.id = id := by
  constructor
  · rintro ⟨item, mem, rfl⟩
    obtain ⟨listing, listed, made⟩ := List.mem_filterMap.mp mem
    obtain ⟨item', made', named⟩ := isOf_of_mem_listings listed
    obtain rfl := Option.some.inj (made.symm.trans made')
    exact ⟨listing, listed, named⟩
  · rintro ⟨listing, listed, rfl⟩
    obtain ⟨item, made, named⟩ := isOf_of_mem_listings listed
    exact ⟨item, List.mem_filterMap.mpr ⟨listing, listed, made⟩, named.symm⟩

theorem isSome_last? {id : String} :
    (b.last? settings id).isSome ↔ ∃ item ∈ b.items settings, item.typeName = id := by
  unfold last?
  rw [isSome_findRev?, exists_item_iff]
  simp only [decide_eq_true_eq]

end Batch

/-! ### What a batch replaces -/

namespace Catalogue

variable {c : Catalogue} {settings : Settings} {b : Batch} {id : String}

theorem get?_takeBatch (c : Catalogue) (settings : Settings) (b : Batch) (id : String) :
    (c.takeBatch settings b).1.get? id = (b.last? settings id).or (c.get? id) := by
  rw [takeBatch_eq]
  exact get?_foldl_enlist c.types (b.listings settings) id

/-- A name that no item of the batch has keeps its listing. -/
theorem get?_takeBatch_of_other (other : ∀ item ∈ b.items settings, item.typeName ≠ id) :
    (c.takeBatch settings b).1.get? id = c.get? id := by
  have absent : b.last? settings id = none := by
    rw [← Option.not_isSome_iff_eq_none, Batch.isSome_last?]
    rintro ⟨item, mem, same⟩
    exact other item mem same
  rw [get?_takeBatch, absent, Option.none_or]

/-- A name that an item of the batch has gets the listing that is the last of this name. -/
theorem get?_takeBatch_of_item {item : PackageItem} (mem : item ∈ b.items settings) :
    ∃ last, b.last? settings item.typeName = some last ∧
      (c.takeBatch settings b).1.get? item.typeName = some last := by
  obtain ⟨last, found⟩ := Option.isSome_iff_exists.mp (Batch.isSome_last?.mpr ⟨item, mem, rfl⟩)
  refine ⟨last, found, ?_⟩
  rw [get?_takeBatch, found, Option.some_or]

/-- **A package replaces what clashes with its own items, and nothing else.** After a batch of a
package has been taken into a loaded catalogue:

* a name that no item of the batch has still leads to the same listing, and one that an item has
  leads to the last listing of this name in the batch;
* a built-in type is still there unless an item of the batch has a package and a name that make up
  its name, which few can have;
* a type that an item of an earlier batch was listed for is still there unless an item of this
  batch clashes with that one;
* items have the same type name exactly when they clash. -/
theorem Loaded.replaces_own_names (loaded : c.Loaded) (settings : Settings) (b : Batch) :
    let now := (c.takeBatch settings b).1
    let items := b.items settings
    (∀ id, (∀ item ∈ items, item.typeName ≠ id) → now.get? id = c.get? id) ∧
      (∀ item ∈ items, ∃ last, b.last? settings item.typeName = some last ∧
        now.get? item.typeName = some last) ∧
      (∀ k : Builtin, (∀ item ∈ items, k.splitName? ≠ some (item.package, item.name)) →
        now.get? k.blockType.id = c.get? k.blockType.id) ∧
      (∀ id listing earlier, c.get? id = some listing → listing.item? = some earlier →
        (∀ item ∈ items, ¬ item.Clashes earlier) → now.get? id = some listing) ∧
      ∀ first second : PackageItem, first.typeName = second.typeName ↔ first.Clashes second := by
  refine ⟨fun id => get?_takeBatch_of_other, fun item => get?_takeBatch_of_item, ?_, ?_,
    fun _ _ => PackageItem.typeName_eq_iff⟩
  · intro k apart
    refine get?_takeBatch_of_other fun item mem same => apart item mem ?_
    exact (item.typeName_eq_builtin_iff k).mp same
  · intro id listing earlier listed made apart
    obtain ⟨named, inOrder⟩ := loaded.listed listed
    rw [← listed]
    refine get?_takeBatch_of_other fun item mem same => apart item mem ?_
    rw [← PackageItem.typeName_eq_iff, same, ← named]
    exact (inOrder.isOf made).2

/-- Functions of two packages called `template`: the second one's `New` takes the place of the
first one's, whose other function stays, as the built-in types do. -/
theorem Loaded.replaces_own_names_of_template :
    let first : Batch := .functions "text/template" 0
      [{ package := "template", name := "New" }, { package := "template", name := "Must" }]
    let second : Batch := .functions "html/template" 1 [{ package := "template", name := "New" }]
    let c := (ofBuiltins.takeBatch {} first).1
    let now := (c.takeBatch {} second).1
    c.Loaded ∧ now.get? "template_New" ≠ c.get? "template_New" ∧
      now.get? "template_Must" = c.get? "template_Must" ∧
      now.get? "on_start" = c.get? "on_start" := by
  intro first second c now
  have loaded : c.Loaded := .functions .builtins "text/template" 0 _ {}
  obtain ⟨others, -, builtins, -, -⟩ := loaded.replaces_own_names {} second
  have items : second.items {} = [⟨"template", "New", [], "", "html/template", 80⟩] := by
    decide +kernel
  refine ⟨loaded, by decide +kernel, others "template_Must" ?_, builtins .onStart ?_⟩
  · rw [items]
    decide
  · rw [items]
    decide

/-- A function called `group` of a package called `route` takes the place of a built-in type, a
function takes that of a function of another package which is called the same, and a function
takes that of one which splits the same name at another underscore. -/
theorem taken_over_by_names :
    let routes : Batch := .functions "example.com/route" 0 [{ package := "route", name := "group" }]
    let text : Batch := .functions "text/template" 0 [{ package := "template", name := "New" }]
    let html : Batch := .functions "html/template" 1 [{ package := "template", name := "New" }]
    let early : Batch := .functions "example.com/a" 0 [{ package := "a", name := "b_c" }]
    let late : Batch := .functions "example.com/a_b" 1 [{ package := "a_b", name := "c" }]
    let withText := (ofBuiltins.takeBatch {} text).1
    let withEarly := (ofBuiltins.takeBatch {} early).1
    (ofBuiltins.takeBatch {} routes).1.get? "route_group" ≠ ofBuiltins.get? "route_group" ∧
      (withText.takeBatch {} html).1.get? "template_New" ≠ withText.get? "template_New" ∧
      (withEarly.takeBatch {} late).1.get? "a_b_c" ≠ withEarly.get? "a_b_c" := by
  decide +kernel

end Catalogue

end Blockwork
