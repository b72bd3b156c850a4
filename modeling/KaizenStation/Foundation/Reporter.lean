/-
KaizenStation.Foundation.Reporter — a value that is reported when it has
changed, to a receiver that may refuse.

At every step there may be a candidate. It is offered if nothing was reported
yet or if it differs from the last report, and it becomes a report when the
receiver accepts it; a refused candidate leaves no trace. So consecutive
reports differ (`reports_chain`), a refused candidate that stays is offered
again (`offered_again`), and an accepted step leaves a last report that the
candidate does not differ from (`reported`).
-/
import Mathlib.Data.List.Chain

namespace KaizenStation.Foundation

namespace Reporter

variable {α : Type*} (differs : α → α → Prop) [DecidableRel differs]

/-- Worth a report after these. -/
def News (reports : List α) (x : α) : Prop := ∀ y ∈ reports.getLast?, differs y x

instance (reports : List α) (x : α) : Decidable (News differs reports x) := by
  unfold News
  infer_instance

def offered (reports : List α) (candidate : Option α) : Option α :=
  candidate.filter fun x => News differs reports x

/-- The reports after step `k`; nothing is reported at step 0. -/
def reports (candidate : Nat → Option α) (accepted : Nat → Bool) : Nat → List α
  | 0 => []
  | k + 1 =>
    let before := reports candidate accepted k
    if accepted (k + 1) then before ++ (offered differs before (candidate (k + 1))).toList
    else before

variable {differs} {candidate : Nat → Option α} {accepted : Nat → Bool}

theorem offered_eq_some {reported : List α} {x? : Option α} {x : α} :
    offered differs reported x? = some x ↔ x? = some x ∧ News differs reported x := by
  simp [offered, Option.filter_eq_some_iff]

theorem offered_of_news {reported : List α} {x : α} (h : News differs reported x) :
    offered differs reported (some x) = some x :=
  offered_eq_some.mpr ⟨rfl, h⟩

theorem offered_of_not_news {reported : List α} {x : α} (h : ¬ News differs reported x) :
    offered differs reported (some x) = none := by
  simp [offered, h]

theorem reports_refused {k : Nat} (h : accepted (k + 1) = false) :
    reports differs candidate accepted (k + 1) = reports differs candidate accepted k := by
  simp [reports, h]

theorem reports_accepted {k : Nat} (h : accepted (k + 1) = true) :
    reports differs candidate accepted (k + 1) = reports differs candidate accepted k ++
      (offered differs (reports differs candidate accepted k) (candidate (k + 1))).toList := by
  simp [reports, h]

/-- Consecutive reports differ. -/
theorem reports_chain (k : Nat) : (reports differs candidate accepted k).IsChain differs := by
  induction k with
  | zero => exact List.isChain_nil
  | succ k ih =>
    cases hacc : accepted (k + 1) with
    | false => rwa [reports_refused hacc]
    | true =>
      rw [reports_accepted hacc]
      cases hoff : offered differs (reports differs candidate accepted k) (candidate (k + 1)) with
      | none => simpa using ih
      | some x =>
        have hnews := (offered_eq_some.mp hoff).2
        refine List.isChain_append.mpr ⟨ih, List.isChain_singleton x, ?_⟩
        intro y hy z hz
        obtain rfl := Option.some.inj hz
        exact hnews y hy

/-- A refused candidate that stays is offered again. -/
theorem offered_again {k : Nat} {x : α}
    (hoff : offered differs (reports differs candidate accepted k) (candidate (k + 1)) = some x)
    (hrefused : accepted (k + 1) = false) (hstays : candidate (k + 2) = some x) :
    offered differs (reports differs candidate accepted (k + 1)) (candidate (k + 2)) = some x := by
  rw [reports_refused hrefused, hstays]
  exact offered_of_news (offered_eq_some.mp hoff).2

/-- What is accepted when it is offered is the last report; what is not
offered did not differ from it. -/
theorem reported (hself : ∀ x, ¬ differs x x) {k : Nat} {x : α}
    (hcandidate : candidate (k + 1) = some x)
    (hacc : offered differs (reports differs candidate accepted k) (candidate (k + 1)) = some x →
      accepted (k + 1) = true) :
    ∃ y ∈ (reports differs candidate accepted (k + 1)).getLast?, ¬ differs y x := by
  by_cases hnews : News differs (reports differs candidate accepted k) x
  · have hoff : offered differs (reports differs candidate accepted k) (candidate (k + 1)) =
        some x := by
      rw [hcandidate]
      exact offered_of_news hnews
    rw [reports_accepted (hacc hoff), hoff]
    exact ⟨x, by simp, hself x⟩
  · have hnone : offered differs (reports differs candidate accepted k) (candidate (k + 1)) =
        none := by
      rw [hcandidate]
      exact offered_of_not_news hnews
    have hsame : reports differs candidate accepted (k + 1) =
        reports differs candidate accepted k := by
      cases hacc' : accepted (k + 1) with
      | false => exact reports_refused hacc'
      | true => simp [reports_accepted hacc', hnone]
    rw [hsame]
    unfold News at hnews
    push Not at hnews
    exact hnews

end Reporter

end KaizenStation.Foundation
