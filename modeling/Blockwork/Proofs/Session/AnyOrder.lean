import Mathlib.Data.List.Pairwise
import Mathlib.Data.List.Perm.Basic
import Blockwork.Proofs.Generation.Agreement
import Blockwork.Proofs.Session.Arrivals
import Blockwork.Session.Program

/-!
# Texts in any order

Texts that list parts of packages may come in any order, as long as no block type is registered by
two of them: then their listings may change places, and known names and progress always may. Only
the palette shows the order, which no compiler sees (`takeTexts_perm`).
-/

namespace Blockwork

/-- A text that lists a part of a package. -/
structure PackageText where
  part : PackagePart
  path : String
  text : String

/-- The lists have no name in common. -/
def Apart (ids ids' : List String) : Prop :=
  ∀ id ∈ ids, id ∉ ids'

instance (ids ids' : List String) : Decidable (Apart ids ids') :=
  inferInstanceAs (Decidable (∀ id ∈ ids, id ∉ ids'))

namespace Catalogue

/-- Listings without a name in common may change places. -/
theorem foldl_enlist_comm {xs ys : List Listing}
    (apart : Apart (xs.map (·.blockType.id)) (ys.map (·.blockType.id)))
    (types : NameMap Listing) :
    ys.foldl enlist (xs.foldl enlist types) = xs.foldl enlist (ys.foldl enlist types) := by
  apply NameMap.ext_get?
  intro id
  simp only [get?_foldl_enlist]
  cases first : xs.findRev? fun listing => listing.blockType.id = id with
  | none => rw [Option.none_or, Option.none_or]
  | some _ =>
    cases second : ys.findRev? fun listing => listing.blockType.id = id with
    | none => rw [Option.none_or, Option.none_or]
    | some _ =>
      obtain ⟨x, memX, hereX⟩ := isSome_findRev?.mp (Option.isSome_of_eq_some first)
      obtain ⟨y, memY, hereY⟩ := isSome_findRev?.mp (Option.isSome_of_eq_some second)
      have same : y.blockType.id = x.blockType.id :=
        (of_decide_eq_true hereY).trans (of_decide_eq_true hereX).symm
      exact absurd (List.mem_map.mpr ⟨y, memY, same⟩)
        (apart _ (List.mem_map.mpr ⟨x, memX, rfl⟩))

/-- Batches that register no block type in common may be taken in in any order, as far as the
types and the known names go. -/
theorem takeBatches_perm (c : Catalogue) {settings : Settings} {batches batches' : List Batch}
    (perm : batches.Perm batches')
    (apart : batches.Pairwise fun a b =>
      Apart (a.intake settings).accepted (b.intake settings).accepted) :
    (c.takeBatches settings batches).1.types = (c.takeBatches settings batches').1.types ∧
      (c.takeBatches settings batches).1.knownNames =
        (c.takeBatches settings batches').1.knownNames := by
  simp only [takeBatches_eq]
  refine ⟨?_, (perm.flatMap_right _).foldl_eq c.knownNames⟩
  let Commute (a b : Batch) : Prop := ∀ types,
    (b.listings settings).foldl enlist ((a.listings settings).foldl enlist types) =
      (a.listings settings).foldl enlist ((b.listings settings).foldl enlist types)
  have symmetric : Std.Symm Commute := ⟨fun a b comm types => (comm types).symm⟩
  have commute : batches.Pairwise Commute := apart.imp fun apart => foldl_enlist_comm apart
  rw [List.foldl_flatMap, List.foldl_flatMap]
  refine perm.foldl_eq' (fun a memA b memB types => ?_) c.types
  exact commute.forall_of_forall (fun _ _ _ => rfl) memA memB types

end Catalogue

namespace Session

/-- Takes in a text that lists a part of a package. -/
def take (s : Session) (t : PackageText) : Except Failure Intake × Session :=
  match t.part with
  | .functions => s.takeFunctions t.path t.text
  | .structs => s.takeStructs t.path t.text

/-- Takes in texts, one after the other. -/
def takeTexts (s : Session) (texts : List PackageText) : Session :=
  texts.foldl (fun s t => (s.take t).2) s

/-- The block types that an answer tells of. -/
def acceptedIn : Except Failure Intake → List String
  | .ok intake => intake.accepted
  | .error _ => []

/-- The block types that texts register, one text after the other. -/
def registered (s : Session) : List PackageText → List (List String)
  | [] => []
  | t :: rest => acceptedIn (s.take t).1 :: (s.take t).2.registered rest

end Session

/-- What arrives with a text. -/
def Selection.arrivalIn (selection : Selection) (t : PackageText) : Arrival :=
  selection.arrival t.part t.path (.ok t.text)

namespace Session

theorem take_eq (s : Session) (t : PackageText) :
    s.take t =
      ((s.selection.arrivalIn t).batch.map (·.intake s.settings),
        s.receive (s.selection.arrivalIn t)) := by
  obtain ⟨part, path, text⟩ := t
  cases part with
  | functions => exact s.takeFunctions_eq path text
  | structs => exact s.takeStructs_eq path text

theorem takeTexts_eq (s : Session) (texts : List PackageText) :
    s.takeTexts texts = (texts.map s.selection.arrivalIn).foldl receive s := by
  induction texts generalizing s with
  | nil => rfl
  | cons t rest ih =>
    show (s.take t).2.takeTexts rest = _
    rw [ih, take_eq]
    rfl

/-- What a text registers has nothing to do with the texts in front of it. -/
theorem registered_eq (s : Session) (texts : List PackageText) :
    s.registered texts = texts.map fun t =>
      acceptedIn ((s.selection.arrivalIn t).batch.map (·.intake s.settings)) := by
  induction texts generalizing s with
  | nil => rfl
  | cons t rest ih =>
    rw [registered, ih, take_eq]
    rfl

theorem acceptedIn_of_toOption {outcome : Except Failure Batch} {b : Batch}
    (read : outcome.toOption = some b) (settings : Settings) :
    acceptedIn (outcome.map (·.intake settings)) = (b.intake settings).accepted := by
  cases outcome with
  | error failure => exact nomatch read
  | ok batch =>
    cases read
    rfl

/-- What texts write to the catalogue and to the progress. -/
theorem takeTexts_writes (s : Session) (texts : List PackageText) :
    let arrivals := texts.map s.selection.arrivalIn
    s.takeTexts texts =
      { s with
        progress := arrivals.foldl Arrival.recordIn s.progress
        catalogue := (s.catalogue.takeBatches s.settings (Arrival.batches arrivals)).1 } := by
  rw [takeTexts_eq, foldl_receive]

/-- Sessions whose catalogues differ in their palettes give the same code. -/
theorem sourceText_compiler_congr {s s' : Session} (settings : s.settings = s'.settings)
    (selection : s.selection = s'.selection) (types : s.catalogue.types = s'.catalogue.types)
    (names : s.catalogue.knownNames = s'.catalogue.knownNames) (program : Program) :
    s.compiler.sourceText program = s'.compiler.sourceText program := by
  have compiler : s'.compiler = s.compiler.withPalette s'.catalogue.palette := by
    obtain ⟨settings, ⟨types, palette, names⟩, selection, progress, current⟩ := s
    obtain ⟨settings', ⟨types', palette', names'⟩, selection', progress', current'⟩ := s'
    cases settings
    cases selection
    cases types
    cases names
    rfl
  rw [compiler, Compiler.sourceText_withPalette]

/-- **Texts in any order.** Texts that register no block type in common may be taken in in any
order: the block types, the known names and the progress are the same, and so is the code of
every program. -/
theorem takeTexts_perm (s : Session) {texts texts' : List PackageText}
    (perm : texts.Perm texts') (apart : (s.registered texts).Pairwise Apart) :
    let now := s.takeTexts texts
    let now' := s.takeTexts texts'
    (∀ id, now.catalogue.get? id = now'.catalogue.get? id) ∧
      now.catalogue.knownNames = now'.catalogue.knownNames ∧
      (∀ path, now.progressOf path = now'.progressOf path) ∧
      ∀ program, now.compiler.sourceText program = now'.compiler.sourceText program := by
  intro now now'
  have arrivals : (texts.map s.selection.arrivalIn).Perm (texts'.map s.selection.arrivalIn) :=
    perm.map _
  have distinct : (Arrival.batches (texts.map s.selection.arrivalIn)).Pairwise fun a b =>
      Apart (a.intake s.settings).accepted (b.intake s.settings).accepted := by
    rw [registered_eq, List.pairwise_map] at apart
    unfold Arrival.batches
    rw [List.pairwise_filterMap, List.pairwise_map]
    refine apart.imp fun apart a readA b readB => ?_
    rwa [acceptedIn_of_toOption readA, acceptedIn_of_toOption readB] at apart
  obtain ⟨types, names⟩ := s.catalogue.takeBatches_perm
    (arrivals.filterMap (·.batch.toOption)) distinct
  simp only [now, now', takeTexts_writes]
  refine ⟨fun id => ?_, names, fun path => ?_, fun program => ?_⟩
  · exact congrArg (NameMap.get? · id) types
  · unfold progressOf
    rw [arrivals.foldl_eq s.progress]
  · apply sourceText_compiler_congr
    · rfl
    · rfl
    · exact types
    · exact names

/-- A package with functions and structs, another one, and a text that is no document. -/
theorem takeTexts_perm_of_packages :
    let s : Session := { selection := ⟨["net/http", "os"], by decide⟩ }
    let texts : List PackageText :=
      [⟨.functions, "net/http", "[[\"http\", \"Get\"]]"⟩,
        ⟨.structs, "net/http", "[[\"http\", \"Client\"]]"⟩,
        ⟨.functions, "os", "[[\"os\", \"Exit\"]]"⟩,
        ⟨.structs, "os", "[["⟩]
    let program : Program := ⟨[{ id := "a", kind := "http_Get" }, { id := "b", kind := "os_Exit" }]⟩
    (s.registered texts).Pairwise Apart ∧
      (s.takeTexts texts).compiler.sourceText program =
        (s.takeTexts texts.reverse).compiler.sourceText program := by
  intro s texts program
  have apart : (s.registered texts).Pairwise Apart := by decide +kernel
  exact ⟨apart, (takeTexts_perm s texts.reverse_perm.symm apart).2.2.2 program⟩

end Session

end Blockwork
