import Mathlib.Data.List.Induction
import Blockwork.Proofs.Session.Edits
import Blockwork.Proofs.Store.Reliable

/-!
# What a run of calls leaves in the store

A store holds the user's selection under one key and the programs of pages under others. In a
store that works, one call after the other keeps both in step with the session
(`Session.Persisted.call`, `Session.Persisted.callAll`): the selection in the store is the
session's, and what is held for the pages and what is current is what a `Record` of the calls
says, which knows of no store at all.
-/

namespace Blockwork.Session

variable {σ τ : Type} [SharedPrograms τ]

/-! ### The record of a run -/

/-- What calls have made of the programs: the current one, and those that were kept for pages
with the keys of these, the latest first. -/
structure Record where
  current : Program := {}
  pages : List (String × Program) := []

namespace Record

/-- The program that was kept last under a key. -/
def page? (r : Record) (key : String) : Option Program :=
  r.pages.lookup key

/-- Makes the program in a text the current one, if it holds one. -/
def read (r : Record) (text : String) : Record :=
  match Program.ofText text with
  | .ok program => { r with current := program }
  | .error _ => r

/-- The record after a call. -/
def after (r : Record) : Call τ → Record
  | .replace program => { r with current := program }
  | .read text => r.read text
  | .keepPage address => { r with pages := (pageKey address, r.current) :: r.pages }
  | .recallPage address =>
    match r.page? (pageKey address) with
    | some program => { r with current := program }
    | none => r
  | .adopt shared key =>
    match (SharedPrograms.fetch shared key).1 with
    | .ok text => r.read text
    | .error _ => r
  | _ => r

/-- The record of calls that start with the empty program and with nothing kept. -/
def ofCalls (calls : List (Call τ)) : Record :=
  calls.foldl after {}

theorem ofCalls_concat (calls : List (Call τ)) (last : Call τ) :
    ofCalls (calls ++ [last]) = (ofCalls calls).after last := by
  unfold ofCalls
  rw [List.foldl_append]
  rfl

theorem pages_read (r : Record) (text : String) : (r.read text).pages = r.pages := by
  unfold read
  split
  · rfl
  · rfl

/-- What was kept stays on record. -/
theorem mem_pages_after {r : Record} {page : String × Program} (mem : page ∈ r.pages)
    (call : Call τ) : page ∈ (r.after call).pages := by
  cases call with
  | keepPage address => exact List.mem_cons_of_mem _ mem
  | read text => exact (r.pages_read text).symm ▸ mem
  | recallPage address =>
    unfold after
    dsimp only
    split
    · exact mem
    · exact mem
  | adopt shared key =>
    unfold after
    dsimp only
    split
    · exact (r.pages_read _).symm ▸ mem
    · exact mem
  | _ => exact mem

theorem mem_pages_of_page? {r : Record} {key : String} {program : Program}
    (page : r.page? key = some program) : (key, program) ∈ r.pages := by
  obtain ⟨later, earlier, pages, -⟩ := List.lookup_eq_some_iff.mp page
  rw [pages]
  exact List.mem_append_right _ List.mem_cons_self

end Record

/-- The call keeps or recalls no page under this key. -/
def Call.Aside (key : String) : Call τ → Prop
  | .keepPage address => pageKey address ≠ key
  | .recallPage address => pageKey address ≠ key
  | _ => True

instance (key : String) (call : Call τ) : Decidable (call.Aside key) :=
  match call with
  | .keepPage address => inferInstanceAs (Decidable (pageKey address ≠ key))
  | .recallPage address => inferInstanceAs (Decidable (pageKey address ≠ key))
  | .choose _ | .giveUp _ | .takeFunctions .. | .takeStructs .. | .takeAll _ | .replace _
  | .read _ | .adopt .. => .isTrue trivial

/-! ### Failing calls -/

/-- A call that fails leaves the current program as it is. -/
theorem program_of_failed [Store σ] {s : Session} {store : σ} {call : Call τ} {failure : Failure}
    (failed : (s.call store call).1 = .error failure) :
    (s.call store call).2.1.program = s.program := by
  have edited : call.AsksEdit → (s.call store call).2.1.program = s.program := by
    intro asked
    rcases edits_or_stays asked s store with ⟨s', edits⟩ | ⟨stays, -⟩
    · rw [edits.answer]
      exact edits.frame.2.2
    · rw [stays]
  have readFailed : ∀ text, (s.readProgram text).1 = .error failure →
      (s.readProgram text).2.program = s.program := by
    intro text failed
    unfold readProgram at failed ⊢
    cases read : Program.ofText text with
    | ok program =>
      rw [read] at failed
      cases failed
    | error _ => rfl
  have told : ∀ {outcome : Except Failure Unit}, outcome.map (fun _ => true) = .error failure →
      outcome = .error failure := by
    rintro (_ | _) failed
    · exact congrArg Except.error (Except.error.inj failed)
    · cases failed
  cases call with
  | choose path => exact edited trivial
  | giveUp path => exact edited trivial
  | takeFunctions path text => exact (takesIn_functions s path text).program
  | takeStructs path text => exact (takesIn_structs s path text).program
  | takeAll source => exact (takesIn_all s source).program
  | replace program => cases failed
  | read text => exact readFailed text (told failed)
  | keepPage address => rfl
  | recallPage address =>
    simp only [Session.call, recallProgram] at failed ⊢
    split
    · rename_i kept
      rw [kept] at failed
      cases failed
    · rfl
    · rfl
  | adopt shared key =>
    simp only [Session.call, adopt] at failed ⊢
    split
    · rename_i fetched
      rw [fetched] at failed
      exact readFailed _ (told failed)
    · rfl

/-! ### Keeping in step -/

section

variable [ReliableStore σ] {s s' : Session} {store : σ} {r : Record} {key : String}

/-- The store works and holds the selection of the session, and the record tells what it holds
for pages and what the current program is. -/
structure Persisted (key : String) (s : Session) (store : σ) (r : Record) : Prop where
  works : ReliableStore.Works store
  under : s.settings.selectionKey = key
  written : s.selection.IsWritten
  selection : Selection.kept store key = .ok s.selection
  pages : ∀ other ≠ key, Store.read store other = .ok ((r.page? other).map Program.toText)
  program : s.program = r.current

namespace Persisted

theorem takesIn (persisted : Persisted key s store r) (takes : TakesIn s s') :
    Persisted key s' store r where
  works := persisted.works
  under := takes.settings ▸ persisted.under
  written := takes.selection ▸ persisted.written
  selection := takes.selection ▸ persisted.selection
  pages := persisted.pages
  program := takes.program ▸ persisted.program

theorem withProgram (persisted : Persisted key s store r) (program : Program) :
    Persisted key (s.withProgram program) store { r with current := program } where
  works := persisted.works
  under := persisted.under
  written := persisted.written
  selection := persisted.selection
  pages := persisted.pages
  program := rfl

theorem read (persisted : Persisted key s store r) (text : String) :
    Persisted key (s.readProgram text).2 store (r.read text) := by
  unfold readProgram Record.read
  cases Program.ofText text with
  | ok program => exact persisted.withProgram program
  | error failure => exact persisted

omit [SharedPrograms τ] in
/-- An edit is written under the key of the selection, where no page is. -/
theorem edits {call : Call τ} (persisted : Persisted key s store r) (edits : Edits s call s') :
    Persisted key s' (s'.keepSelection store).2 r := by
  obtain ⟨settings, -, program⟩ := edits.frame
  have here : s'.settings.selectionKey = key := settings ▸ persisted.under
  have written := edits.isWritten persisted.written
  unfold keepSelection
  rw [here]
  exact {
    works := (ReliableStore.works_write persisted.works _ _).2
    under := here
    written
    selection := Selection.kept_keep persisted.works written key
    pages := by
      intro other aside
      unfold Selection.keep
      rw [ReliableStore.read_write persisted.works, if_neg (Ne.symm aside)]
      exact persisted.pages other aside
    program := program ▸ persisted.program }

/-- The current program is written under the key of a page, where the selection is not. -/
theorem keep {address : String} (persisted : Persisted key s store r)
    (aside : pageKey address ≠ key) :
    Persisted key s (s.keepProgram store address).2
      { r with pages := (pageKey address, r.current) :: r.pages } where
  works := (ReliableStore.works_write persisted.works _ _).2
  under := persisted.under
  written := persisted.written
  selection :=
    (Selection.kept_write_of_ne persisted.works aside _).trans persisted.selection
  pages other away := by
    unfold keepProgram Program.keep Record.page?
    rw [ReliableStore.read_write persisted.works, List.lookup_cons, persisted.program]
    by_cases same : pageKey address = other
    · rw [if_pos same, same, beq_self_eq_true]
      rfl
    · rw [if_neg same, beq_eq_false_iff_ne.mpr (Ne.symm same)]
      exact persisted.pages other away
  program := persisted.program

/-- Recalling a page finds the program that was kept for it last. -/
theorem recallProgram {address : String} (persisted : Persisted key s store r)
    (storable : ∀ page ∈ r.pages, page.2.Storable) (aside : pageKey address ≠ key) :
    s.recallProgram store address =
      match r.page? (pageKey address) with
      | some program => (.ok true, s.withProgram program)
      | none => (.ok false, s) := by
  have kept : Program.kept? store address = .ok (r.page? (pageKey address)) :=
    Program.kept?_of_read (fun p page => storable _ (Record.mem_pages_of_page? page))
      (persisted.pages _ aside)
  unfold Session.recallProgram
  rw [kept]
  cases r.page? (pageKey address) with
  | some program => rfl
  | none => rfl

/-- One call keeps the session, the store and the record in step. -/
theorem call {call : Call τ} (persisted : Persisted key s store r) (aside : call.Aside key)
    (storable : ∀ page ∈ r.pages, page.2.Storable) :
    Persisted key (s.call store call).2.1 (s.call store call).2.2 (r.after call) := by
  have edit : call.AsksEdit →
      Persisted key (s.call store call).2.1 (s.call store call).2.2 r := by
    intro asked
    rcases edits_or_stays asked s store with ⟨s', edits⟩ | ⟨stays, -⟩
    · rw [edits.answer]
      exact persisted.edits edits
    · rw [stays]
      exact persisted
  cases call with
  | choose path => exact edit trivial
  | giveUp path => exact edit trivial
  | takeFunctions path text => exact persisted.takesIn (takesIn_functions s path text)
  | takeStructs path text => exact persisted.takesIn (takesIn_structs s path text)
  | takeAll source => exact persisted.takesIn (takesIn_all s source)
  | replace program => exact persisted.withProgram program
  | read text => exact persisted.read text
  | keepPage address => exact persisted.keep aside
  | recallPage address =>
    simp only [Session.call, Record.after, persisted.recallProgram storable aside]
    cases r.page? (pageKey address) with
    | some program => exact persisted.withProgram program
    | none => exact persisted
  | adopt shared place =>
    simp only [Session.call, adopt, Record.after]
    rcases SharedPrograms.fetch shared place with ⟨failure | text, rest⟩
    · exact persisted
    · exact persisted.read text

/-- A session that starts on a store which holds at most a selection is in step with it. -/
theorem start {settings : Settings} (works : ReliableStore.Works store)
    (fresh : ∀ other ≠ settings.selectionKey, Store.read store other = .ok none) :
    ∃ opened, Session.start settings store = .ok opened ∧
      Persisted settings.selectionKey opened store {} := by
  obtain ⟨text?, read⟩ := ReliableStore.reads works settings.selectionKey
  obtain ⟨selection, kept, written⟩ : ∃ selection : Selection,
      Selection.kept store settings.selectionKey = .ok selection ∧ selection.IsWritten := by
    unfold Selection.kept
    rw [read]
    cases text? with
    | none => exact ⟨{}, rfl, Selection.isWritten_empty⟩
    | some text => exact ⟨.ofText text, rfl, Selection.isWritten_ofText text⟩
  refine ⟨{ settings, selection }, ?_, ?_⟩
  · unfold Session.start
    rw [kept]
    rfl
  · exact ⟨works, rfl, written, kept, fresh, rfl⟩

/-- A run of calls keeps the session, the store and the record in step. -/
theorem callAll {opened : Session} (started : Persisted key opened store {})
    (calls : List (Call τ)) (aside : ∀ call ∈ calls, call.Aside key)
    (storable : ∀ page ∈ (Record.ofCalls calls).pages, page.2.Storable) :
    Persisted key (opened.callAll store calls).1 (opened.callAll store calls).2
      (Record.ofCalls calls) := by
  -- The last call of a run is made on what the run before it leaves.
  induction calls using List.reverseRecOn with
  | nil => exact started
  | append_singleton calls last ih =>
    rw [Record.ofCalls_concat] at storable ⊢
    have earlier : ∀ page ∈ (Record.ofCalls calls).pages, page.2.Storable :=
      fun page mem => storable page (Record.mem_pages_after mem last)
    have before := ih (fun call mem => aside call (List.mem_append_left _ mem)) earlier
    rw [callAll_concat]
    exact before.call (aside last (List.mem_append_right _ List.mem_cons_self)) earlier

end Persisted

/-- **The store and the session stay in step.** Let a session be opened on a store that works and
holds at most a selection. Whatever is called then, as long as no page has the key of the
selection and the programs that are kept for pages are given back by their texts, at every point:

* the store holds the selection of the session, and no path in it twice;
* recalling a page finds the program that was kept last for an address with its key, and answers
  false when none was;
* the current program is the one that was put in, read, recalled or adopted last, and a call that
  fails leaves it as it is. -/
theorem persists_along_calls (settings : Settings) (works : ReliableStore.Works store)
    (fresh : ∀ other ≠ settings.selectionKey, Store.read store other = .ok none)
    (calls : List (Call τ)) (aside : ∀ call ∈ calls, call.Aside settings.selectionKey)
    (storable : ∀ page ∈ (Record.ofCalls calls).pages, page.2.Storable) :
    ∃ opened, Session.start settings store = .ok opened ∧
      let now := (opened.callAll store calls).1
      let kept := (opened.callAll store calls).2
      (Selection.kept kept settings.selectionKey = .ok now.selection ∧
        now.selection.paths.Nodup) ∧
      (∀ address, pageKey address ≠ settings.selectionKey →
        now.recallProgram kept address =
          match (Record.ofCalls calls).page? (pageKey address) with
          | some program => (.ok true, now.withProgram program)
          | none => (.ok false, now)) ∧
      now.program = (Record.ofCalls calls).current ∧
      ∀ (call : Call τ) (failure : Failure), (now.call kept call).1 = .error failure →
        (now.call kept call).2.1.program = now.program := by
  obtain ⟨opened, start, started⟩ := Persisted.start works fresh
  have after := started.callAll calls aside storable
  exact ⟨opened, start, ⟨after.selection, Selection.nodup _⟩,
    fun address away => after.recallProgram storable away, after.program,
    fun call failure failed => program_of_failed failed⟩

end

/-- A list with gaps in it, a text that holds no program, and two addresses of one page. -/
theorem persists_along_calls_of_page :
    let p : Program := ⟨[{ id := "m", kind := "main" }]⟩
    let store : Memory := .ofList [("pkgs", "fmt,, os,fmt")]
    let calls : List (Call Shelf) :=
      [.choose " net/http", .replace p, .keepPage "http://h/#a", .giveUp "fmt", .read "",
        .replace {}, .keepPage "http://h/b"]
    ∃ opened, Session.start {} store = .ok opened ∧
      let now := (opened.callAll store calls).1
      let kept := (opened.callAll store calls).2
      Selection.kept kept "pkgs" = .ok now.selection ∧
        now.recallProgram kept "http://h/#c" = (.ok true, now.withProgram p) ∧
        now.program = {} := by
  intro p store calls
  have first : p.Storable := by
    refine ⟨?_, by decide, by decide, by decide +kernel⟩
    simp [p, Block.OrderedSequence, Block.Ordered, Block.OrderedValues, Block.OrderedStatements,
      Entries.Ascending]
  have second : Program.Storable {} :=
    ⟨trivial, by decide, by decide, by decide +kernel⟩
  have storable : ∀ page ∈ (Record.ofCalls calls).pages, page.2.Storable := by
    have pages : (Record.ofCalls calls).pages =
        [(pageKey "http://h/b", {}), (pageKey "http://h/#a", p)] := rfl
    rw [pages, List.forall_mem_cons, List.forall_mem_singleton]
    exact ⟨second, first⟩
  have fresh : ∀ other ≠ "pkgs", Store.read store other = .ok none := by
    intro other away
    show Except.ok ((NameMap.empty.insert "pkgs" "fmt,, os,fmt").get? other) = _
    rw [NameMap.get?_insert, if_neg (Ne.symm away)]
    rfl
  obtain ⟨opened, start, ⟨selection, -⟩, recalled, program, -⟩ :=
    persists_along_calls {} trivial fresh calls (by decide) storable
  exact ⟨opened, start, selection, recalled "http://h/#c" (by decide), program⟩

end Blockwork.Session
