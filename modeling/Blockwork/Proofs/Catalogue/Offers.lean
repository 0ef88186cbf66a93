import Blockwork.Proofs.Catalogue.Batches
import Blockwork.Proofs.Package.Item

/-!
# What a batch leaves behind

Each entry with a name makes an `Offer`: an item and the listing for it. The catalogue takes an
offer when the item is well-named, and passes it over otherwise. Nothing else about the entries
matters for what taking in their batch does (`Catalogue.takeBatch_by_offers`):

* **a name** leads to the last offer taken that has it, or to what it led to before;
* **the path** of the batch is known under the packages of the offers taken, besides its old names;
* **the palette** gets the section of the batch, in the place of the one with its title.

Functions and structs differ in the offers that they make.
-/

namespace Blockwork

/-- What an entry offers: an item, whose names may be out of order, and the listing for it. -/
structure Offer where
  item : PackageItem
  listing : Listing
  named : listing.blockType.id = item.typeName

namespace Offer

/-- The offer in the form that the catalogue takes. -/
def candidate (o : Offer) : Candidate :=
  ⟨o.item.package, o.listing⟩

/-- The offer's candidate, or what is wrong with its names. -/
def outcome (o : Offer) : Except Failure Candidate :=
  o.item.check.map fun _ => o.candidate

/-- The offers taken, those with well-named items. -/
def taken (offers : List Offer) : List Offer :=
  offers.filter (·.item.WellNamed)

/-- The last offer under a name. -/
def last? (id : String) (offers : List Offer) : Option Offer :=
  offers.findRev? (·.item.typeName = id)

/-- A well-named offer has its candidate, any other is refused. -/
theorem outcome_cases (o : Offer) :
    (o.item.WellNamed ∧ o.outcome = .ok o.candidate) ∨
      (¬ o.item.WellNamed ∧ ∃ failure, o.outcome = .error failure) := by
  have passed := o.item.toOption_check
  unfold outcome
  cases checked : o.item.check with
  | ok item =>
    rw [checked] at passed
    refine .inl ⟨?_, rfl⟩
    by_contra illNamed
    rw [if_neg illNamed] at passed
    exact nomatch passed
  | error failure =>
    rw [checked] at passed
    refine .inr ⟨fun wellNamed => ?_, failure, rfl⟩
    rw [if_pos wellNamed] at passed
    exact nomatch passed

/-- An offer has its candidate exactly when it is well-named. -/
theorem outcome_eq_ok_iff {o : Offer} {candidate : Candidate} :
    o.outcome = .ok candidate ↔ o.item.WellNamed ∧ candidate = o.candidate := by
  rcases o.outcome_cases with ⟨wellNamed, made⟩ | ⟨illNamed, failure, refused⟩
  · rw [made, Except.ok.injEq, eq_comm]
    exact (and_iff_right wellNamed).symm
  · rw [refused]
    exact iff_of_false nofun fun taken => illNamed taken.1

/-- The candidates are those of the offers taken. -/
theorem filterMap_outcome (offers : List Offer) :
    (offers.map outcome).filterMap Except.toOption = (taken offers).map candidate := by
  induction offers with
  | nil => rfl
  | cons o rest ih =>
    rw [List.map_cons, taken, List.filter_cons, ← taken]
    rcases o.outcome_cases with ⟨wellNamed, made⟩ | ⟨illNamed, failure, refused⟩
    · rw [made, if_pos (decide_eq_true wellNamed), List.map_cons, ← ih]
      rfl
    · rw [refused, if_neg (mt of_decide_eq_true illNamed), ← ih]
      rfl

/-- An offer is taken or refused. -/
theorem length_taken_add_refused (offers : List Offer) :
    (taken offers).length + (Intake.ofOutcomes (offers.map outcome)).refused.length =
      offers.length := by
  unfold Intake.ofOutcomes
  induction offers with
  | nil => rfl
  | cons o rest ih =>
    rw [List.map_cons, taken, List.filter_cons, ← taken, List.length_cons, ← ih]
    rcases o.outcome_cases with ⟨wellNamed, made⟩ | ⟨illNamed, failure, refused⟩
    · rw [made, if_pos (decide_eq_true wellNamed), List.length_cons, Nat.succ_add]
      rfl
    · rw [refused, if_neg (mt of_decide_eq_true illNamed)]
      rfl

end Offer

/-! ### The offers of entries -/

/-- The item of a function entry, its names unchecked. -/
def FunctionEntry.item (e : FunctionEntry) (help : String) (hue : Nat) : CallItem where
  package := e.package
  name := e.name
  parameters := Parameter.readList e.parameters
  doc := commentText e.comment
  help := help
  hue := hue
  returns := Text.trim e.returns

/-- The item of a struct entry, its names unchecked. -/
def StructEntry.item (e : StructEntry) (help : String) (hue : Nat) : LiteralItem where
  package := e.package
  name := e.name
  parameters := LiteralItem.parametersOf e.fields
  doc := commentText e.comment
  help := help
  hue := hue

/-- What a function entry offers. -/
def FunctionEntry.offer (e : FunctionEntry) (help : String) (hue : Nat) : Offer :=
  let item := e.item help hue
  ⟨item.toPackageItem, ⟨item.blockType, .call item⟩, rfl⟩

/-- What a struct entry offers. -/
def StructEntry.offer (e : StructEntry) (help : String) (hue : Nat) : Offer :=
  let item := e.item help hue
  ⟨item.toPackageItem, ⟨item.blockType, .literal item⟩, rfl⟩

theorem FunctionEntry.candidate_eq (e : FunctionEntry) (help : String) (hue : Nat) :
    e.candidate help hue = (e.offer help hue).outcome :=
  (e.offer help hue).item.map_map_check (fun item => CallItem.mk item (Text.trim e.returns)) _

theorem StructEntry.candidate_eq (e : StructEntry) (help : String) (hue : Nat) :
    e.candidate help hue = (e.offer help hue).outcome :=
  (e.offer help hue).item.map_map_check LiteralItem.mk _

/-! ### The offers of a batch -/

namespace Batch

variable (settings : Settings) (b : Batch)

/-- The number of entries. -/
def size : Batch → Nat
  | functions _ _ entries => entries.length
  | structs _ _ entries => entries.length

/-- The number of entries without a name, or with a blank one. -/
def nameless : Batch → Nat
  | functions _ _ entries => entries.countP fun e => Text.isBlankText e.name
  | structs _ _ entries => entries.countP fun e => Text.isBlankText e.name

/-- What the entries with a name offer. -/
def offers : Batch → List Offer
  | functions path index entries =>
    (entries.filter fun e => !Text.isBlankText e.name).map
      (·.offer path (settings.functionHueAt index))
  | structs path index entries =>
    (entries.filter fun e => !Text.isBlankText e.name).map
      (·.offer path (settings.structHueAt index))

/-- The offers of a batch that the catalogue takes. -/
def taken : List Offer :=
  Offer.taken (b.offers settings)

theorem outcomes_eq : b.outcomes settings = (b.offers settings).map Offer.outcome := by
  cases b with
  | functions path index entries =>
    rw [outcomes, offers, List.map_map]
    exact List.map_congr_left fun e _ => e.candidate_eq path (settings.functionHueAt index)
  | structs path index entries =>
    rw [outcomes, offers, List.map_map]
    exact List.map_congr_left fun e _ => e.candidate_eq path (settings.structHueAt index)

theorem length_offers_add_nameless : (b.offers settings).length + b.nameless = b.size := by
  have split : ∀ {α : Type} (entries : List α) (name : α → String),
      (entries.filter fun e => !Text.isBlankText (name e)).length +
        entries.countP (fun e => Text.isBlankText (name e)) = entries.length := by
    intro α entries name
    rw [← List.countP_eq_length_filter, Nat.add_comm]
    simpa using (entries.length_eq_countP_add_countP fun e => Text.isBlankText (name e)).symm
  cases b with
  | functions path index entries =>
    rw [offers, List.length_map]
    exact split entries (·.name)
  | structs path index entries =>
    rw [offers, List.length_map]
    exact split entries (·.name)

theorem listings_eq : b.listings settings = (b.taken settings).map (·.listing) := by
  rw [listings, outcomes_eq, Candidate.listings, Offer.filterMap_outcome, List.map_map]
  rfl

theorem namings_eq :
    b.namings settings = ((b.taken settings).map (·.item.package)).map (Text.trim b.path, ·) := by
  rw [namings, outcomes_eq, Candidate.namings, Offer.filterMap_outcome, List.map_map, List.map_map]
  rfl

theorem accepted_eq : (b.intake settings).accepted = (b.taken settings).map (·.item.typeName) := by
  show (b.listings settings).map (·.blockType.id) = _
  rw [listings_eq, List.map_map]
  exact List.map_congr_left fun o _ => o.named

/-- Each entry is taken, refused or without a name. -/
theorem length_intake :
    (b.intake settings).accepted.length + (b.intake settings).refused.length + b.nameless =
      b.size := by
  rw [accepted_eq, List.length_map, intake, outcomes_eq, taken, Offer.length_taken_add_refused,
    length_offers_add_nameless]

theorem hue_of_fits (fits : b.firstHue settings + settings.hueStep * b.index < 2 ^ 64) :
    b.hue settings = (b.firstHue settings + settings.hueStep * b.index) % 360 := by
  cases b with
  | functions | structs => exact Settings.hueAt_of_fits fits

end Batch

/-! ### What taking in a batch does -/

namespace Catalogue

variable (c : Catalogue) (settings : Settings) (b : Batch)

theorem get?_takeBatch_of_offers (id : String) :
    (c.takeBatch settings b).1.get? id =
      ((Offer.last? id (b.taken settings)).map (·.listing)).or (c.get? id) := by
  have written : ∀ (types : NameMap Listing) (o : Offer) (id : String),
      (enlist types o.listing).get? id =
        if o.item.typeName = id then some o.listing else types.get? id := by
    intro types o id
    rw [get?_enlist, o.named]
  rw [takeBatch_eq, Batch.listings_eq]
  show (((b.taken settings).map (·.listing)).foldl enlist c.types).get? id = _
  rw [List.foldl_map]
  exact lookup_foldl (fun id types => NameMap.get? types id) written (b.taken settings) c.types id

theorem knownNames_takeBatch (path : String) :
    (c.takeBatch settings b).1.knownNames.get? path =
      if Text.trim b.path = path ∧ b.taken settings ≠ [] then
        some (((c.knownNames.get? path).getD .empty).insertAll
          ((b.taken settings).map (·.item.package)))
      else c.knownNames.get? path := by
  rw [takeBatch_eq, Batch.namings_eq]
  show (List.foldl learn c.knownNames _).get? path = _
  rw [get?_foldl_learn]
  simp only [ne_eq, List.map_eq_nil_iff]

/-- **Everything that taking in a batch does.** The entries with a name make offers, and the
catalogue takes those whose item is well-named: the names of the package, of the item and of its
parameters are identifiers, and no two parameters have the same. After a batch of functions or of
structs has been taken in:

* a name leads to the listing of the last offer taken that has it, and to what it led to before
  when none has it;
* the path of the batch, without blanks around it, is known under its old names and the packages
  of the offers taken, and not known if it was not and none is taken; other paths are known under
  the same names as before;
* the section of the batch, which lists the types of the offers taken, stands in the place of the
  first section with its title, or behind all others; those stay as and where they were;
* its hue is that of the first package moved on by as many steps as packages come before, round
  the circle, as long as the sum is a word;
* the names told of as accepted are those of the offers taken, in their order, and with the
  entries refused and those without a name they are as many as the entries of the batch;
* an entry has a candidate exactly when its offer is well-named. -/
theorem takeBatch_by_offers (c : Catalogue) (settings : Settings) (b : Batch) :
    let now := (c.takeBatch settings b).1
    let told := (c.takeBatch settings b).2
    let taken := b.taken settings
    let own : PaletteSection := ⟨b.title, b.hue settings, told.accepted⟩
    (∀ id, now.get? id = ((Offer.last? id taken).map (·.listing)).or (c.get? id)) ∧
      (∀ path, path ≠ Text.trim b.path ∨ taken = [] →
        now.knownNames.get? path = c.knownNames.get? path) ∧
      (taken ≠ [] → ∃ names, now.knownNames.get? (Text.trim b.path) = some names ∧
        ∀ name, name ∈ names ↔ name ∈ (c.knownNames.get? (Text.trim b.path)).getD .empty ∨
          ∃ o ∈ taken, o.item.package = name) ∧
      ((∃ before old after, c.palette = before ++ old :: after ∧ old.title = own.title ∧
          (∀ s ∈ before, s.title ≠ own.title) ∧ now.palette = before ++ own :: after) ∨
        ((∀ s ∈ c.palette, s.title ≠ own.title) ∧ now.palette = c.palette ++ [own])) ∧
      (b.firstHue settings + settings.hueStep * b.index < 2 ^ 64 →
        own.hue = (b.firstHue settings + settings.hueStep * b.index) % 360) ∧
      told.accepted = taken.map (·.item.typeName) ∧
      told.accepted.length + told.refused.length + b.nameless = b.size ∧
      b.outcomes settings = (b.offers settings).map Offer.outcome ∧
      ∀ o ∈ b.offers settings, ∀ candidate,
        o.outcome = .ok candidate ↔ o.item.WellNamed ∧ candidate = o.candidate := by
  intro now told taken own
  have known := c.knownNames_takeBatch settings b
  have ownSection : own = b.paletteSection settings := by
    simp only [own, told, told_takeBatch]
    rfl
  have palette : now.palette = own.putInto c.palette := by
    rw [ownSection]
    simp only [now, takeBatch_eq]
  refine ⟨c.get?_takeBatch_of_offers settings b, ?_, ?_, ?_, b.hue_of_fits settings, ?_, ?_,
    b.outcomes_eq settings, fun o _ candidate => Offer.outcome_eq_ok_iff⟩
  · intro path other
    refine (known path).trans (if_neg ?_)
    rintro ⟨here, some⟩
    rcases other with away | none
    · exact away here.symm
    · exact some none
  · intro some
    refine ⟨_, (known _).trans (if_pos ⟨rfl, some⟩), fun name => ?_⟩
    rw [NameSet.mem_insertAll, List.mem_map]
  · rw [palette]
    rcases own.putInto_cases c.palette with ⟨before, old, after, whole, titled, absent, put⟩ |
      ⟨absent, put⟩
    · refine .inl ⟨before, old, after, whole, titled, fun s mem same => absent ?_, put⟩
      exact List.mem_map.mpr ⟨s, mem, same⟩
    · refine .inr ⟨fun s mem same => absent ?_, put⟩
      exact List.mem_map.mpr ⟨s, mem, same⟩
  · exact (congrArg Intake.accepted (told_takeBatch c settings b)).trans (b.accepted_eq settings)
  · show (c.takeBatch settings b).2.accepted.length + (c.takeBatch settings b).2.refused.length +
      b.nameless = b.size
    rw [told_takeBatch]
    exact b.length_intake settings

end Catalogue

end Blockwork
