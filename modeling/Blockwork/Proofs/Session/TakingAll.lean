import Blockwork.Proofs.Session.Arrivals
import Blockwork.Proofs.Session.Edits

/-!
# Taking in all chosen packages

What cannot be fetched or read leaves a line in what is told and progress, and nothing else:

* **failures stay on their own** — `takeAll_of_readable`: the catalogue is the one that the
  batches alone lead to, each told of as if there were no failures;
* **once is enough** — `takeAll_again`: as long as the source answers in the same way, taking
  everything in again changes nothing and tells the same.
-/

namespace Blockwork

theorem Intake.append_assoc (a b c : Intake) : a ++ b ++ c = a ++ (b ++ c) := by
  show Intake.append (Intake.append a b) c = Intake.append a (Intake.append b c)
  simp [Intake.append]

namespace Session

/-- What is refused among arrivals, given what is told of the batches among them: of each batch
its own entries, and of each failure a line in its place. -/
def refusals : List Arrival → List Intake → List String
  | ⟨_, path, .error failure⟩ :: rest, intakes =>
    s!"{path}: {failure.message}" :: refusals rest intakes
  | ⟨_, _, .ok _⟩ :: rest, intake :: intakes => intake.refused ++ refusals rest intakes
  | _, _ => []

/-- What is told of arrivals is what is told of the batches among them, and of each failure a
line. -/
theorem foldl_intake (settings : Settings) (arrivals : List Arrival) (told : Intake) :
    let intakes := (Arrival.batches arrivals).map (·.intake settings)
    arrivals.foldl (fun told a => told ++ a.intake settings) told =
      told ++ ⟨intakes.flatMap (·.accepted), refusals arrivals intakes⟩ := by
  induction arrivals generalizing told with
  | nil =>
    show told = Intake.append told {}
    simp [Intake.append]
  | cons a rest ih =>
    obtain ⟨part, path, batch⟩ := a
    simp only [List.foldl_cons, ih, Intake.append_assoc]
    cases batch with
    | error failure => rfl
    | ok batch => rfl

/-- **Failures stay on their own.** After all chosen packages have been taken in from a source:

* the catalogue is the one that taking in the batches alone leads to, which are what could be
  fetched and read, in the order of the selection and with its indexes;
* what is accepted is what is accepted of each of these batches, in their order;
* what is refused is what is refused of each of them, with one line more for each text that could
  not be fetched or read, in its place;
* the settings, the selection and the current program are as they were. -/
theorem takeAll_of_readable (s : Session) (source : EntrySource) :
    let arrivals := s.selection.arrivals source
    let loads := s.catalogue.takeBatches s.settings (Arrival.batches arrivals)
    let told := (s.takeAll source).1
    let now := (s.takeAll source).2
    now.catalogue = loads.1 ∧
      told.accepted = loads.2.flatMap (·.accepted) ∧
      told.refused = refusals arrivals loads.2 ∧
      TakesIn s now := by
  intro arrivals loads told now
  have intakes : loads.2 = (Arrival.batches arrivals).map (·.intake s.settings) :=
    congrArg Prod.snd (s.catalogue.takeBatches_eq s.settings _)
  have all : told = {} ++ ⟨loads.2.flatMap (·.accepted), refusals arrivals loads.2⟩ := by
    rw [intakes]
    exact (congrArg Prod.fst (s.takeAll_eq source)).trans (foldl_intake s.settings arrivals {})
  refine ⟨?_, ?_, ?_, takesIn_all s source⟩
  · show (s.takeAll source).2.catalogue = _
    rw [takeAll_eq]
    simp only [foldl_receive]
    rfl
  · rw [all]
    rfl
  · rw [all]
    rfl

/-- **Once is enough.** Taking in all chosen packages again from a source that answers as before
changes nothing and tells the same, also when packages share block types or titles. -/
theorem takeAll_again (s : Session) (source : EntrySource) :
    (s.takeAll source).2.takeAll source = s.takeAll source := by
  simp only [takeAll_eq, foldl_receive, Catalogue.takeBatches_again,
    foldl_foldl_self Arrival.recordIn_again]

end Session

end Blockwork
