import Mathlib.Data.List.Basic
import Mathlib.Tactic.Common
import TenantStore.Proofs.Database.Locality

/-!
# Parties that do not see each other

Several parties make requests of one state.  A party is isolated if the answers that it gets do not
change when the requests of the other parties are left out.  For this a relation of states is enough
that every request of the party keeps, and that no request of another party leads out of.  Where
every party has keys of its own and its requests are local to them, agreement on the keys of a party
is such a relation.
-/

namespace TenantStore

/-- Whether a request is one of the party, or one of no party at all. -/
def Concerns {ρ π : Type} [DecidableEq π] (party? : ρ → Option π) (party : π) (request : ρ) :
    Bool :=
  (party? request).all fun other => decide (other = party)

namespace StoreM

variable {σ ρ α : Type}

/-- The answers to some of the requests of a run. -/
def answersTo (asked : ρ → Bool) (perform : ρ → StoreM σ α) (state : σ) (requests : List ρ) :
    List (Except StoreError α) :=
  ((requests.zip (answers perform state requests)).filter fun answered => asked answered.1).map
    Prod.snd

/-- Whether some of the requests of a run are answered as if the others were not made. -/
def Isolates (perform : ρ → StoreM σ α) (asked : ρ → Bool) (state : σ) : Prop :=
  ∀ requests, answersTo asked perform state requests = answers perform state (requests.filter asked)

/-- The requests that are asked about keep states related and are answered alike in them, and the
others do not lead out of the relation. -/
structure Unwinds (perform : ρ → StoreM σ α) (asked : ρ → Bool) (related : σ → σ → Prop) :
    Prop where
  answered {request : ρ} (isAsked : asked request = true) {first second : σ}
    (alike : related first second) :
    ((perform request).on first).1 = ((perform request).on second).1 ∧
      related ((perform request).on first).2 ((perform request).on second).2
  unseen {request : ρ} (notAsked : asked request = false) {first second : σ}
    (alike : related first second) :
    related ((perform request).on first).2 second

variable {perform : ρ → StoreM σ α} {asked : ρ → Bool} {related : σ → σ → Prop}

/-- Step by step, a run and the same run without the other requests go through related states. -/
theorem Unwinds.answersTo_eq (unwinds : Unwinds perform asked related) (requests : List ρ)
    {first second : σ} (alike : related first second) :
    answersTo asked perform first requests = answers perform second (requests.filter asked) := by
  induction requests generalizing first second with
  | nil => rfl
  | cons request requests ih =>
      cases isAsked : asked request with
      | true =>
          rcases unwinds.answered isAsked alike with ⟨same, later⟩
          have rest := ih later
          simp only [answersTo, answers, List.zip_cons_cons, List.filter_cons, isAsked, if_true,
            List.map_cons, same] at rest ⊢
          rw [rest]
      | false =>
          have rest := ih (unwinds.unseen isAsked alike)
          simpa [answersTo, answers, isAsked] using rest

theorem Unwinds.isolates (unwinds : Unwinds perform asked related) {state : σ}
    (begins : related state state) : Isolates perform asked state :=
  fun requests => unwinds.answersTo_eq requests begins

section Parties

variable {κ π : Type} [Keyed σ κ] [DecidableEq π] {party? : ρ → Option π} {own : π → κ → Prop}

/-- Each party has keys of its own that its requests are local to.  What a request of no party does
to the keys of one depends on these keys only. -/
structure Separates (perform : ρ → StoreM σ α) (party? : ρ → Option π) (own : π → κ → Prop) :
    Prop where
  disjoint {party other : π} (different : party ≠ other) (key : κ) (isOwn : own party key) :
    ¬own other key
  isLocalTo {request : ρ} {party : π} (asks : party? request = some party) :
    (perform request).IsLocalTo (own party)
  dependsOn {request : ρ} (concernsAll : party? request = none) (party : π) :
    (perform request).DependsOn (own party)

theorem Separates.unwinds (separates : Separates perform party? own) (party : π) :
    Unwinds perform (Concerns party? party) (AgreeOn (own party)) where
  answered := by
    intro request concerns first second agree
    unfold Concerns at concerns
    cases asks : party? request with
    | none => exact separates.dependsOn asks party first second agree
    | some other =>
        simp only [asks, Option.all_some, decide_eq_true_eq] at concerns
        subst concerns
        exact (separates.isLocalTo asks).dependsOn first second agree
  unseen := by
    intro request concernsNot first second agree
    unfold Concerns at concernsNot
    cases asks : party? request with
    | none => simp [asks] at concernsNot
    | some other =>
        simp only [asks, Option.all_some, decide_eq_false_iff_not] at concernsNot
        exact (separates.isLocalTo asks).agreeOn
          (separates.disjoint fun same => concernsNot same.symm) agree

theorem Separates.isolates (separates : Separates perform party? own) (party : π) (state : σ) :
    Isolates perform (Concerns party? party) state :=
  (separates.unwinds party).isolates (.refl _ state)

end Parties

end StoreM

end TenantStore
