import Blockwork.Generation.Holder
import Blockwork.Proofs.Snippet.Usage

/-!
# Actions in pairs

Two actions are `Paired` when, on stacks with the same packages, both answer or both fail, with
answers that stand in a given relation, and leave stacks with the same packages. What stands in
the relation, and which failures arise, is all in which the two runs may differ. Pairs are
closed under everything that generators are made of, so a pair of generators is checked by
going through their common definition once.
-/

namespace Blockwork

variable {α β γ δ : Type} {R : α → β → Prop} {S : γ → δ → Prop}

/-- Both outcomes are answers, which are related, or both are failures. -/
inductive Alike (R : α → β → Prop) : Except Failure α → Except Failure β → Prop where
  | answers {a : α} {b : β} (related : R a b) : Alike R (.ok a) (.ok b)
  | failures (failure failure' : Failure) : Alike R (.error failure) (.error failure')

/-- Every outcome is like itself. -/
theorem Alike.same (outcome : Except Failure α) : Alike Eq outcome outcome := by
  cases outcome with
  | error failure => exact .failures _ _
  | ok a => exact .answers rfl

namespace Gen

/-- The same packages were noted in the frames of both stacks. -/
def SamePackages (frames frames' : List Usage) : Prop :=
  frames.map (·.packages) = frames'.map (·.packages)

/-- Both actions answer or both fail, and do the same to the packages on the stack. -/
def Paired (R : α → β → Prop) (action : Gen α) (action' : Gen β) : Prop :=
  ∀ frames frames', SamePackages frames frames' →
    Alike R (action frames).1 (action' frames').1 ∧
      SamePackages (action frames).2 (action' frames').2

namespace SamePackages

variable {frames frames' : List Usage} {u u' : Usage}

theorem push (packages : u.packages = u'.packages) (same : SamePackages frames frames') :
    SamePackages (u :: frames) (u' :: frames') := by
  unfold SamePackages
  rw [List.map_cons, List.map_cons, packages, same]

theorem head (same : SamePackages frames frames') :
    (frames.headD {}).packages = (frames'.headD {}).packages := by
  cases frames with
  | nil =>
    obtain rfl := List.map_eq_nil_iff.mp same.symm
    rfl
  | cons top outer =>
    obtain ⟨top', outer', rfl, here, -⟩ := List.map_eq_cons_iff.mp same.symm
    exact here.symm

theorem tail (same : SamePackages frames frames') : SamePackages frames.tail frames'.tail := by
  have shorter := congrArg List.tail same
  rwa [← List.map_tail, ← List.map_tail] at shorter

theorem addToTop (packages : u.packages = u'.packages) (same : SamePackages frames frames') :
    SamePackages (Gen.addToTop u frames) (Gen.addToTop u' frames') := by
  cases frames with
  | nil =>
    obtain rfl := List.map_eq_nil_iff.mp same.symm
    rfl
  | cons top outer =>
    obtain ⟨top', outer', rfl, here, there⟩ := List.map_eq_cons_iff.mp same.symm
    refine push ?_ there.symm
    rw [Usage.packages_append, Usage.packages_append, packages, here]

end SamePackages

namespace Paired

theorem pure {a : α} {b : β} (related : R a b) :
    Paired R (Pure.pure a : Gen α) (Pure.pure b : Gen β) :=
  fun _ _ same => ⟨.answers related, same⟩

theorem fail (failure failure' : Failure) :
    Paired R (Gen.fail failure : Gen α) (Gen.fail failure' : Gen β) :=
  fun _ _ same => ⟨.failures _ _, same⟩

theorem lift {outcome : Except Failure α} {outcome' : Except Failure β}
    (alike : Alike R outcome outcome') : Paired R (Gen.lift outcome) (Gen.lift outcome') :=
  fun _ _ same => ⟨alike, same⟩

theorem note (packages : List String) : Paired Eq (Gen.note packages) (Gen.note packages) := by
  intro frames frames' same
  have noted : ∀ {u u' : Usage}, u.packages = u'.packages →
      (packages.foldl Usage.note u).packages = (packages.foldl Usage.note u').packages := by
    intro u u' same
    apply NameSet.ext_mem
    intro name
    rw [Usage.mem_packages_foldl_note, Usage.mem_packages_foldl_note, same]
  cases frames with
  | nil =>
    obtain rfl := List.map_eq_nil_iff.mp same.symm
    exact ⟨.same _, rfl⟩
  | cons top outer =>
    obtain ⟨top', outer', rfl, here, there⟩ := List.map_eq_cons_iff.mp same.symm
    exact ⟨.same _, .push (noted here.symm) there.symm⟩

theorem noted : Paired Eq Gen.noted Gen.noted := by
  intro frames frames' same
  refine ⟨?_, same⟩
  have top : ∀ frames : List Usage,
      frames.head?.elim .empty (·.packages) = (frames.headD {}).packages := by
    intro frames
    cases frames <;> rfl
  show Alike Eq (.ok (frames.head?.elim .empty (·.packages)))
    (.ok (frames'.head?.elim .empty (·.packages)))
  rw [top, top, same.head]
  exact .same _

theorem bind {action : Gen α} {action' : Gen β} {next : α → Gen γ} {next' : β → Gen δ}
    (first : Paired R action action') (rest : ∀ a b, R a b → Paired S (next a) (next' b)) :
    Paired S (action >>= next) (action' >>= next') := by
  intro frames frames' same
  obtain ⟨alike, left⟩ := first frames frames' same
  rw [bind_run, bind_run]
  rcases run : action frames with ⟨outcome, after⟩
  rcases run' : action' frames' with ⟨outcome', after'⟩
  rw [run, run'] at alike left
  cases alike with
  | answers related => exact rest _ _ related after after' left
  | failures failure failure' => exact ⟨.failures _ _, left⟩

/-- Answers that are only put into a form. -/
theorem map {action : Gen α} {action' : Gen β} {f : α → γ} {f' : β → δ}
    (first : Paired R action action') (form : ∀ a b, R a b → S (f a) (f' b)) :
    Paired S (action >>= fun a => Pure.pure (f a)) (action' >>= fun b => Pure.pure (f' b)) :=
  first.bind fun a b related => pure (form a b related)

end Paired

end Gen

end Blockwork
