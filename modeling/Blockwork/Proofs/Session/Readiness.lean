import Mathlib.Data.List.Basic
import Mathlib.Data.List.Induction
import Blockwork.Proofs.Session.Arrivals
import Blockwork.Proofs.Session.Edits

/-!
# What progress tells

The progress with a package tells what has been taken in of it since it was last given up, whether
it could be read or not. `TakenIn` says this of a run of calls without looking at any progress. One
call changes the progress as it changes `TakenIn` (`has_progressOf_call`, `takenIn_concat`), so the
two agree along every run (`has_progressOf_callAll`), and a session is ready exactly when all
parts of its packages have been taken in.
-/

namespace Blockwork

/-- An element of a list with one more at its end is that one, or stands in front of it. -/
theorem concat_eq_append_cons {α : Type} {xs before since : List α} {last x : α} :
    xs ++ [last] = before ++ x :: since ↔
      since = [] ∧ xs = before ∧ last = x ∨
        ∃ rest, since = rest ++ [last] ∧ xs = before ++ x :: rest := by
  constructor
  · intro split
    rcases List.eq_nil_or_concat' since with rfl | ⟨rest, other, rfl⟩
    · obtain ⟨same, ends⟩ := List.append_inj' split rfl
      exact .inl ⟨rfl, same, List.singleton_inj.mp ends⟩
    · rw [← List.cons_append, ← List.append_assoc] at split
      obtain ⟨same, ends⟩ := List.append_inj' split rfl
      exact .inr ⟨rest, by rw [List.singleton_inj.mp ends], same⟩
  · rintro (⟨rfl, rfl, rfl⟩ | ⟨rest, rfl, rfl⟩)
    · rfl
    · simp

namespace Session

variable {σ τ : Type} {part : PackagePart} {path : String}

/-! ### Histories -/

/-- The call takes in a part of the package of a path: it brings a text that lists the part, or all
chosen packages are taken in while this one is chosen. -/
def Call.TakesPart (part : PackagePart) (path : String) (s : Session) : Call τ → Prop
  | .takeFunctions other _ => part = .functions ∧ other = path
  | .takeStructs other _ => part = .structs ∧ other = path
  | .takeAll _ => path ∈ s.selection
  | _ => False

/-- The call gives up a path that is chosen. -/
def Call.Drops (path : String) (s : Session) : Call τ → Prop
  | .giveUp other => Text.trim other = path ∧ path ∈ s.selection
  | _ => False

/-- One of the calls takes in the part of the package, and none of those behind it gives the path
up. -/
def TakenIn [Store σ] [SharedPrograms τ] (part : PackagePart) (path : String) (s : Session)
    (store : σ) (calls : List (Call τ)) : Prop :=
  ∃ before call since, calls = before ++ call :: since ∧
    call.TakesPart part path (s.callAll store before).1 ∧
    ∀ between later rest, since = between ++ later :: rest →
      ¬ later.Drops path (s.callAll store (before ++ call :: between)).1

section

variable [Store σ] [SharedPrograms τ] {s : Session} {store : σ} {calls : List (Call τ)}

theorem not_takenIn_nil : ¬ TakenIn part path s store ([] : List (Call τ)) := by
  rintro ⟨before, call, since, split, -⟩
  simp at split

/-- Whether a part has been taken in is up to the last call, unless that is about something
else. -/
theorem takenIn_concat {last : Call τ} :
    TakenIn part path s store (calls ++ [last]) ↔
      last.TakesPart part path (s.callAll store calls).1 ∨
        TakenIn part path s store calls ∧ ¬ last.Drops path (s.callAll store calls).1 := by
  constructor
  · rintro ⟨before, call, since, split, takes, kept⟩
    rcases concat_eq_append_cons.mp split with ⟨rfl, rfl, rfl⟩ | ⟨since, rfl, rfl⟩
    · exact .inl takes
    · refine .inr ⟨⟨before, call, since, rfl, takes, ?_⟩, kept since last [] rfl⟩
      rintro between later rest rfl
      exact kept between later (rest ++ [last]) (by simp)
  · rintro (takes | ⟨⟨before, call, since, rfl, takes, kept⟩, stays⟩)
    · exact ⟨calls, last, [], rfl, takes, by simp⟩
    · refine ⟨before, call, since ++ [last], by simp, takes, ?_⟩
      intro between later rest split
      rcases concat_eq_append_cons.mp split with ⟨rfl, rfl, rfl⟩ | ⟨rest, rfl, rfl⟩
      · exact stays
      · exact kept between later rest rfl

/-! ### One call -/

omit [SharedPrograms τ] in
theorem progress_choose (s : Session) (path : String) (store : σ) :
    (s.choose path store).2.1.progress = s.progress := by
  unfold choose
  rcases s.selection.choose path with failure | ⟨_ | _, selection⟩
  · rfl
  · rfl
  · rfl

omit [SharedPrograms τ] in
theorem progress_giveUp (s : Session) (path : String) (store : σ) :
    (s.giveUp path store).2.1.progress =
      if Text.trim path ∈ s.selection then s.progress.erase (Text.trim path) else s.progress := by
  unfold giveUp Selection.giveUp
  by_cases chosen : Text.trim path ∈ s.selection
  · simp only [chosen, decide_true, if_true]
  · simp only [chosen, decide_false, if_false]

theorem progress_readProgram (s : Session) (text : String) :
    (s.readProgram text).2.progress = s.progress := by
  unfold readProgram
  cases Program.ofText text with
  | ok program => rfl
  | error failure => rfl

theorem progressOf_congr {s s' : Session} (same : s'.progress = s.progress) (path : String) :
    s'.progressOf path = s.progressOf path := by
  unfold progressOf
  rw [same]

omit [SharedPrograms τ] in
theorem has_progressOf_giveUp (s : Session) (other : String) (store : σ) :
    ((s.giveUp other store).2.1.progressOf path).has part = true ↔
      (s.progressOf path).has part = true ∧ ¬ (Text.trim other = path ∧ path ∈ s.selection) := by
  have progress := progress_giveUp s other store
  by_cases dropped : Text.trim other = path ∧ path ∈ s.selection
  · obtain ⟨rfl, chosen⟩ := dropped
    rw [if_pos chosen] at progress
    have gone : (s.giveUp other store).2.1.progressOf (Text.trim other) = {} := by
      unfold progressOf
      rw [progress, NameMap.get?_erase, if_pos rfl]
      rfl
    rw [gone]
    cases part <;> simp [Progress.has, chosen]
  · have stays : (s.giveUp other store).2.1.progressOf path = s.progressOf path := by
      unfold progressOf
      rw [progress]
      split
      · rename_i chosen
        rw [NameMap.get?_erase, if_neg]
        rintro rfl
        exact dropped ⟨rfl, chosen⟩
      · rfl
    rw [stays, and_iff_left dropped]

theorem has_progressOf_receive (s : Session) (a : Arrival) :
    ((s.receive a).progressOf path).has part = true ↔
      (a.part = part ∧ a.path = path) ∨ (s.progressOf path).has part = true := by
  have there : (s.receive a).progress.get? path =
      if a.path = path then some ((s.progressOf path).record a.part)
      else s.progress.get? path := NameMap.get?_change
  unfold progressOf at there ⊢
  rw [there]
  by_cases here : a.path = path
  · simp [here, Progress.has_record]
  · simp [here]

theorem has_progressOf_foldl_receive (s : Session) (arrivals : List Arrival) :
    ((arrivals.foldl receive s).progressOf path).has part = true ↔
      (∃ a ∈ arrivals, a.part = part ∧ a.path = path) ∨
        (s.progressOf path).has part = true := by
  induction arrivals generalizing s with
  | nil => simp
  | cons a rest ih =>
    rw [List.foldl_cons, ih, has_progressOf_receive, List.exists_mem_cons_iff]
    exact or_left_comm.trans or_assoc.symm

/-- Both parts of each chosen package arrive. -/
theorem exists_mem_arrivals (selection : Selection) (source : EntrySource) :
    (∃ a ∈ selection.arrivals source, a.part = part ∧ a.path = path) ↔ path ∈ selection := by
  unfold Selection.arrivals
  constructor
  · rintro ⟨a, mem, -, rfl⟩
    obtain ⟨other, chosen, mem⟩ := List.mem_flatMap.mp mem
    have same : a.path = other := by
      rcases List.mem_pair.mp mem with rfl | rfl
      · rfl
      · rfl
    rw [same]
    exact chosen
  · intro chosen
    have parts : ∃ a ∈ selection.arrivalsOf source path, a.part = part ∧ a.path = path := by
      cases part with
      | functions => exact ⟨_, List.mem_cons_self, rfl, rfl⟩
      | structs => exact ⟨_, List.mem_cons_of_mem _ List.mem_cons_self, rfl, rfl⟩
    obtain ⟨a, mem, is⟩ := parts
    exact ⟨a, List.mem_flatMap.mpr ⟨path, chosen, mem⟩, is⟩

theorem has_progressOf_takeAll (s : Session) (source : EntrySource) :
    ((s.takeAll source).2.progressOf path).has part = true ↔
      path ∈ s.selection ∨ (s.progressOf path).has part = true := by
  rw [takeAll_eq]
  simp only [has_progressOf_foldl_receive, exists_mem_arrivals]

/-- A call records the parts that it takes in, and forgets those of a path that it gives up. -/
theorem has_progressOf_call (s : Session) (store : σ) (call : Call τ) :
    ((s.call store call).2.1.progressOf path).has part = true ↔
      call.TakesPart part path s ∨
        (s.progressOf path).has part = true ∧ ¬ call.Drops path s := by
  -- Most calls have nothing to do with the progress.
  have aside : ∀ {s' : Session}, s'.progress = s.progress →
      ((s'.progressOf path).has part = true ↔
        False ∨ (s.progressOf path).has part = true ∧ ¬ False) := by
    intro s' same
    rw [progressOf_congr same, false_or, and_iff_left not_false]
  -- A text brings its part, also when it cannot be read.
  have brought : ∀ a : Arrival, ((s.receive a).progressOf path).has part = true ↔
      (part = a.part ∧ a.path = path) ∨ (s.progressOf path).has part = true ∧ ¬ False := by
    intro a
    rw [has_progressOf_receive, and_iff_left not_false]
    exact or_congr_left (and_congr_left' eq_comm)
  cases call with
  | choose other => exact aside (progress_choose s other store)
  | giveUp other => exact (has_progressOf_giveUp s other store).trans (iff_of_eq (false_or _)).symm
  | takeFunctions other text =>
    simp only [Session.call, takeFunctions_eq]
    exact brought (s.selection.arrival .functions other (.ok text))
  | takeStructs other text =>
    simp only [Session.call, takeStructs_eq]
    exact brought (s.selection.arrival .structs other (.ok text))
  | takeAll source =>
    show ((s.takeAll source).2.progressOf path).has part = true ↔
      path ∈ s.selection ∨ _ ∧ ¬ False
    rw [and_iff_left not_false]
    exact has_progressOf_takeAll s source
  | replace program => exact aside rfl
  | read text => exact aside (progress_readProgram s text)
  | keepPage address => exact aside rfl
  | recallPage address =>
    refine aside ?_
    simp only [Session.call, recallProgram]
    rcases Program.kept? store address with failure | _ | program
    · rfl
    · rfl
    · rfl
  | adopt shared key =>
    refine aside ?_
    simp only [Session.call, adopt]
    rcases SharedPrograms.fetch shared key with ⟨failure | text, rest⟩
    · rfl
    · exact progress_readProgram s text

/-! ### Runs -/

/-- Along a run of calls, the progress tells what has been taken in. -/
theorem has_progressOf_callAll {opened : Session} (fresh : opened.progress = {}) (store : σ)
    (calls : List (Call τ)) :
    ((opened.callAll store calls).1.progressOf path).has part = true ↔
      TakenIn part path opened store calls := by
  -- The last call of a run is made on what the run before it leaves.
  induction calls using List.reverseRecOn with
  | nil =>
    have none : opened.progressOf path = {} := by
      unfold progressOf
      rw [fresh]
      rfl
    show (opened.progressOf path).has part = true ↔ _
    rw [none, iff_false_right not_takenIn_nil]
    cases part <;> simp [Progress.has]
  | append_singleton calls last ih =>
    rw [callAll_concat, has_progressOf_call, takenIn_concat, ih]

omit [Store σ] [SharedPrograms τ] in
theorem ready_iff {s : Session} :
    s.ready = true ↔ ∀ path ∈ s.selection, ∀ part, (s.progressOf path).has part = true := by
  have finished : ∀ p : Progress, p.finished = true ↔ ∀ part, p.has part = true := by
    intro p
    rw [Progress.finished, Bool.and_eq_true]
    constructor
    · rintro ⟨functions, structs⟩ (_ | _)
      · exact functions
      · exact structs
    · exact fun all => ⟨all .functions, all .structs⟩
  unfold ready
  rw [List.all_eq_true]
  exact forall₂_congr fun path chosen => finished _

/-- **Progress tells what has been taken in.** In a new session, whatever is called and whatever
the store and the sources answer, at every point:

* the progress with a path has a part exactly when, since the path was last given up, the part was
  brought as a text, or all chosen packages were taken in while the path was one of them, with
  success or without;
* the session is ready exactly when this holds of both parts of each chosen path;
* it is ready after all chosen packages are taken in. -/
theorem ready_along_calls (settings : Settings) (selection : Selection) (store : σ)
    (calls : List (Call τ)) :
    let opened : Session := { settings, selection }
    let now := (opened.callAll store calls).1
    (∀ part path, (now.progressOf path).has part = true ↔
        TakenIn part path opened store calls) ∧
      (now.ready = true ↔
        ∀ path ∈ now.selection, ∀ part, TakenIn part path opened store calls) ∧
      ∀ source, (now.takeAll source).2.ready = true := by
  intro opened now
  have told : ∀ part path, (now.progressOf path).has part = true ↔
      TakenIn part path opened store calls :=
    fun part path => has_progressOf_callAll rfl store calls
  refine ⟨told, ?_, fun source => ?_⟩
  · simp only [ready_iff, told]
  · rw [ready_iff, (takesIn_all now source).selection]
    exact fun path chosen part => (has_progressOf_takeAll now source).mpr (.inl chosen)

end

end Session

end Blockwork
