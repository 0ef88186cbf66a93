import Blockwork.Package.Intake
import Blockwork.Proofs.Package.Item

/-!
# Loaded catalogues

The catalogues that sessions work with start from the built-in types and take in packages.
Whatever was taken in:

* **every listing is in order** — `Loaded.listed`: it stands under the name of its own type, its
  generator is the one that the type was made for, and the names in a package item are
  identifiers;
* **built-in types stay** — `Loaded.get?_builtin`: the types of package items have an
  underscore in their names, so no package replaces a built-in type without one.
-/

namespace Blockwork

/-- The description of the block type that a generator is made for. -/
def Generator.blockType : Generator → BlockType
  | builtin b => b.blockType
  | call item => item.blockType
  | literal item => item.blockType
  | recipe r => r.blockType

/-- The listing is that of a built-in type, or of a package item whose names are in order. -/
def Listing.InOrder (listing : Listing) : Prop :=
  match listing.generator with
  | .builtin b => listing.blockType = b.blockType
  | .call item => listing.blockType = item.blockType ∧ item.fault? = none
  | .literal item => listing.blockType = item.blockType ∧ item.fault? = none
  | .recipe _ => False

/-- A candidate for the catalogue is in order, and its type's name has an underscore. -/
structure Candidate.InOrder (candidate : Candidate) : Prop where
  listing : candidate.listing.InOrder
  underscore : '_' ∈ candidate.listing.blockType.id.toList

/-! ### Candidates -/

theorem FunctionEntry.candidate_inOrder {e : FunctionEntry} {help : String} {hue : Nat}
    {candidate : Candidate} (made : e.candidate help hue = .ok candidate) :
    candidate.InOrder := by
  unfold FunctionEntry.candidate CallItem.ofEntry at made
  simp only at made
  cases checked : PackageItem.check _ with
  | error failure =>
    rw [checked] at made
    exact nomatch made
  | ok item =>
    rw [checked] at made
    cases made
    exact ⟨⟨rfl, PackageItem.fault?_of_check checked⟩, item.underscore_mem_typeName⟩

theorem StructEntry.candidate_inOrder {e : StructEntry} {help : String} {hue : Nat}
    {candidate : Candidate} (made : e.candidate help hue = .ok candidate) :
    candidate.InOrder := by
  unfold StructEntry.candidate LiteralItem.ofEntry at made
  simp only at made
  cases checked : PackageItem.check _ with
  | error failure =>
    rw [checked] at made
    exact nomatch made
  | ok item =>
    rw [checked] at made
    cases made
    exact ⟨⟨rfl, PackageItem.fault?_of_check checked⟩, item.underscore_mem_typeName⟩

namespace Catalogue

/-- A catalogue of the built-in types into which packages have been taken. -/
inductive Loaded : Catalogue → Prop where
  | builtins : Loaded ofBuiltins
  | functions {c : Catalogue} (loaded : Loaded c) (path : String) (index : Nat)
      (entries : List FunctionEntry) (settings : Settings) :
      Loaded (c.takeFunctions path index entries settings).1
  | structs {c : Catalogue} (loaded : Loaded c) (path : String) (index : Nat)
      (entries : List StructEntry) (settings : Settings) :
      Loaded (c.takeStructs path index entries settings).1

/-! ### What taking a package in preserves -/

/-- What the built-in types have and what taking packages in preserves. -/
structure InOrder (c : Catalogue) : Prop where
  listed : ∀ id listing, c.get? id = some listing → listing.blockType.id = id ∧ listing.InOrder
  builtin : ∀ b : Builtin, '_' ∉ b.blockType.id.toList →
    c.get? b.blockType.id = some ⟨b.blockType, .builtin b⟩

theorem get?_takeEntry_ok (c : Catalogue) (path : String) (intake : Intake)
    (candidate : Candidate) (id : String) :
    (takeEntry path (c, intake) (.ok candidate)).1.get? id =
      if candidate.listing.blockType.id = id then some candidate.listing else c.get? id := by
  show ((c.knowAs path candidate.package).add candidate.listing).get? id = _
  rw [get?_add, get?_knowAs]

theorem InOrder.takeEntry {state : Catalogue × Intake} (inOrder : state.1.InOrder)
    (path : String) {entry : Except Failure Candidate}
    (entered : ∀ candidate, entry = .ok candidate → candidate.InOrder) :
    (takeEntry path state entry).1.InOrder := by
  obtain ⟨c, intake⟩ := state
  cases entry with
  | error failure => exact inOrder
  | ok candidate =>
    have fresh := entered candidate rfl
    refine ⟨fun id listing found => ?_, fun b plain => ?_⟩
    · rw [get?_takeEntry_ok] at found
      split at found
      · rename_i same
        obtain rfl := Option.some.inj found
        exact ⟨same, fresh.listing⟩
      · exact inOrder.listed id listing found
    · rw [get?_takeEntry_ok, if_neg]
      · exact inOrder.builtin b plain
      · intro same
        exact plain (same ▸ fresh.underscore)

theorem InOrder.takeEntries {c : Catalogue} (inOrder : c.InOrder) (path title : String)
    (hue : Nat) {entries : List (Except Failure Candidate)}
    (entered : ∀ candidate, .ok candidate ∈ entries → candidate.InOrder) :
    (c.takeEntries path title hue entries).1.InOrder := by
  -- Only the fold lists types; the palette section comes after it.
  suffices ∀ state : Catalogue × Intake, state.1.InOrder →
      (entries.foldl (Catalogue.takeEntry path) state).1.InOrder by
    obtain ⟨listed, builtin⟩ := this (c, {}) inOrder
    exact ⟨listed, builtin⟩
  induction entries with
  | nil => exact fun _ kept => kept
  | cons entry rest ih =>
    intro state kept
    refine ih (fun candidate mem => entered candidate (List.mem_cons_of_mem _ mem)) _ ?_
    refine kept.takeEntry path ?_
    intro candidate made
    exact entered candidate (made ▸ List.mem_cons_self)

/-! ### The built-in types -/

theorem get?_ofBuiltins_id (b : Builtin) :
    ofBuiltins.get? b.blockType.id = some ⟨b.blockType, .builtin b⟩ := by
  cases b <;> simp [ofBuiltins, Builtin.all, get?_add, Builtin.blockType]

theorem ofBuiltins_listed {id : String} {listing : Listing}
    (found : ofBuiltins.get? id = some listing) :
    ∃ b : Builtin, b.blockType.id = id ∧ listing = ⟨b.blockType, .builtin b⟩ := by
  suffices ∀ (bs : List Builtin) (c : Catalogue),
      (bs.foldl (fun c b => c.add ⟨b.blockType, .builtin b⟩) c).get? id = some listing →
        (∃ b : Builtin, b.blockType.id = id ∧ listing = ⟨b.blockType, .builtin b⟩) ∨
          c.get? id = some listing by
    exact (this _ _ found).resolve_right nofun
  intro bs
  induction bs with
  | nil => exact fun _ found => .inr found
  | cons b rest ih =>
    intro c found
    rcases ih _ found with listed | earlier
    · exact .inl listed
    · rw [get?_add] at earlier
      split at earlier
      · rename_i same
        exact .inl ⟨b, same, (Option.some.inj earlier).symm⟩
      · exact .inr earlier

theorem inOrder_ofBuiltins : ofBuiltins.InOrder := by
  refine ⟨fun id listing found => ?_, fun b _ => get?_ofBuiltins_id b⟩
  obtain ⟨b, same, rfl⟩ := ofBuiltins_listed found
  exact ⟨same, rfl⟩

/-! ### Loaded catalogues -/

theorem Loaded.inOrder {c : Catalogue} (loaded : c.Loaded) : c.InOrder := by
  induction loaded with
  | builtins => exact inOrder_ofBuiltins
  | functions _ path index entries settings ih =>
    refine ih.takeEntries _ _ _ ?_
    intro candidate mem
    obtain ⟨e, -, made⟩ := List.mem_map.mp mem
    exact e.candidate_inOrder made
  | structs _ path index entries settings ih =>
    refine ih.takeEntries _ _ _ ?_
    intro candidate mem
    obtain ⟨e, -, made⟩ := List.mem_map.mp mem
    exact e.candidate_inOrder made

/-- Every listing of a loaded catalogue stands under the name of its type and is in order. -/
theorem Loaded.listed {c : Catalogue} (loaded : c.Loaded) {id : String} {listing : Listing}
    (found : c.get? id = some listing) : listing.blockType.id = id ∧ listing.InOrder :=
  loaded.inOrder.listed id listing found

/-- A listing of a loaded catalogue describes the type that its generator was made for. -/
theorem Loaded.blockType_eq {c : Catalogue} (loaded : c.Loaded) {id : String}
    {listing : Listing} (found : c.get? id = some listing) :
    listing.blockType = listing.generator.blockType := by
  have inOrder := (loaded.listed found).2
  obtain ⟨blockType, generator⟩ := listing
  cases generator with
  | builtin k => exact inOrder
  | call item => exact inOrder.1
  | literal item => exact inOrder.1
  | recipe r => exact inOrder.elim

/-- No package replaces a built-in type whose name has no underscore. -/
theorem Loaded.get?_builtin {c : Catalogue} (loaded : c.Loaded) (b : Builtin)
    (plain : '_' ∉ b.blockType.id.toList) :
    c.get? b.blockType.id = some ⟨b.blockType, .builtin b⟩ :=
  loaded.inOrder.builtin b plain

/-- A block type that a built-in generates is that built-in's own. -/
theorem Loaded.id_of_builtin {c : Catalogue} (loaded : c.Loaded) {id : String}
    {listing : Listing} {b : Builtin} (found : c.get? id = some listing)
    (generated : listing.generator = .builtin b) : id = b.blockType.id := by
  obtain ⟨same, inOrder⟩ := loaded.listed found
  unfold Listing.InOrder at inOrder
  rw [generated] at inOrder
  rw [← same, inOrder]

/-- Nothing in a loaded catalogue is a recipe. -/
theorem Loaded.not_recipe {c : Catalogue} (loaded : c.Loaded) {id : String}
    {listing : Listing} (found : c.get? id = some listing) (r : Recipe) :
    listing.generator ≠ .recipe r := by
  intro generated
  have inOrder := (loaded.listed found).2
  unfold Listing.InOrder at inOrder
  rw [generated] at inOrder
  exact inOrder

end Catalogue

end Blockwork
