import Esqh.Library.Machine

/-!
Where the calls of a run can lead and what they cost together. A potential that
pays for every call bounds the total of all runs, and rounds of one price add up
to a run that attains it.
-/

namespace Machine

variable {σ ι ο : Type*} (step : σ → ι → ο × σ)

/-- The state that some calls lead to. -/
def after (s : σ) (calls : List ι) : σ := (run step s calls).state

@[simp] theorem after_nil (s : σ) : after step s [] = s := rfl

/-- A run goes on from its state, whatever its history is. -/
theorem state_foldl_next (r : Run σ ι ο) (calls : List ι) :
    (calls.foldl (Run.next step) r).state = after step r.state calls := by
  induction calls using List.reverseRecOn with
  | nil => rfl
  | append_singleton before call ih =>
      rw [after, run_snoc, List.foldl_append]
      exact congrArg (fun s => (step s call).2) ih

theorem after_append (s : σ) (before more : List ι) :
    after step s (before ++ more) = after step (after step s before) more := by
  rw [after, run_append, state_foldl_next]
  rfl

@[simp] theorem after_cons (s : σ) (call : ι) (calls : List ι) :
    after step s (call :: calls) = after step (step s call).2 calls :=
  after_append step s [call] calls

/-- Some calls lead from the state to one with the property. -/
def Reaches (s : σ) (P : σ → Prop) : Prop := ∃ calls, P (after step s calls)

section Reaching

variable {step} {s : σ} {P Q : σ → Prop}

theorem reaches_of_holds (h : P s) : Reaches step s P := ⟨[], h⟩

theorem Reaches.trans (h : Reaches step s P) (hnext : ∀ t, P t → Reaches step t Q) :
    Reaches step s Q := by
  obtain ⟨before, hbefore⟩ := h
  obtain ⟨more, hmore⟩ := hnext _ hbefore
  refine ⟨before ++ more, ?_⟩
  rw [after_append]
  exact hmore

end Reaching

/-- What the calls cost, each in the state it is made in. -/
def totalCost (cost : σ → ι → Nat) : σ → List ι → Nat
  | _, [] => 0
  | s, call :: calls => cost s call + totalCost cost (step s call).2 calls

variable (cost : σ → ι → Nat)

@[simp] theorem totalCost_nil (s : σ) : totalCost step cost s [] = 0 := rfl

@[simp] theorem totalCost_cons (s : σ) (call : ι) (calls : List ι) :
    totalCost step cost s (call :: calls) =
      cost s call + totalCost step cost (step s call).2 calls := rfl

@[simp] theorem totalCost_append (s : σ) (before more : List ι) :
    totalCost step cost s (before ++ more) =
      totalCost step cost s before + totalCost step cost (after step s before) more := by
  induction before generalizing s with
  | nil => simp
  | cons call before ih => simp [ih, Nat.add_assoc]

/-- What the potential pays for each call, it pays for all calls. -/
theorem totalCost_le (I : σ → Prop) (potential : σ → Nat)
    (hkeep : ∀ s call, I s → I (step s call).2)
    (hpay : ∀ s call, I s → cost s call + potential (step s call).2 ≤ potential s) {s : σ}
    (h : I s) (calls : List ι) : totalCost step cost s calls ≤ potential s := by
  induction calls generalizing s with
  | nil => exact Nat.zero_le _
  | cons call calls ih =>
      have hfirst := hpay s call h
      have hrest := ih (hkeep s call h)
      rw [totalCost_cons]
      omega

/-- One round after another, each at the same price. -/
theorem exists_totalCost_rounds (P : Nat → σ → Prop) (rounds price : Nat)
    (hround : ∀ n < rounds, ∀ s, P n s →
      ∃ calls, P (n + 1) (after step s calls) ∧ totalCost step cost s calls = price) {s : σ}
    (h : P 0 s) : ∃ calls, totalCost step cost s calls = rounds * price := by
  suffices hrounds : ∀ n ≤ rounds, ∃ calls, P n (after step s calls) ∧
      totalCost step cost s calls = n * price by
    obtain ⟨calls, _, hcost⟩ := hrounds rounds (Nat.le_refl _)
    exact ⟨calls, hcost⟩
  intro n hn
  induction n with
  | zero => exact ⟨[], h, (Nat.zero_mul price).symm⟩
  | succ n ih =>
      obtain ⟨before, hbefore, hpaid⟩ := ih (Nat.le_of_succ_le hn)
      obtain ⟨round, hnext, hprice⟩ := hround n hn _ hbefore
      refine ⟨before ++ round, ?_, ?_⟩
      · rw [after_append]
        exact hnext
      · rw [totalCost_append, hpaid, hprice, Nat.succ_mul]

end Machine
