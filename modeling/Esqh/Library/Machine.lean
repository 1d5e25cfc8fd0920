import Mathlib.Data.List.Induction
import Mathlib.Tactic.TypeStar

/-!
Deterministic machines that answer every call, the runs they record, and the
traces of a labelled transition relation. A run keeps the whole history of
calls and replies next to the state, so a property may speak about both. The
rules below turn one preserved step into a fact about every run, and one
matched step into a refinement of a trace.
-/

namespace Machine

variable {σ ι ο α ε : Type*}

/-- One call together with the reply it received. -/
structure Exchange (ι ο : Type*) where
  call : ι
  reply : ο

/-- The state after some calls and the exchanges that led to it, latest first. -/
structure Run (σ ι ο : Type*) where
  history : List (Exchange ι ο)
  state : σ

/-- Answer one more call and record the exchange. -/
def Run.next (step : σ → ι → ο × σ) (r : Run σ ι ο) (call : ι) : Run σ ι ο :=
  ⟨⟨call, (step r.state call).1⟩ :: r.history, (step r.state call).2⟩

def run (step : σ → ι → ο × σ) (start : σ) (calls : List ι) : Run σ ι ο :=
  calls.foldl (Run.next step) ⟨[], start⟩

section Runs

variable (step : σ → ι → ο × σ) (start : σ)

theorem run_append (before after : List ι) :
    run step start (before ++ after) =
      after.foldl (Run.next step) (run step start before) := by
  simp [run, List.foldl_append]

@[simp] theorem run_snoc (before : List ι) (call : ι) :
    run step start (before ++ [call]) = (run step start before).next step call := by
  simp [run_append]

/-- A run answers exactly the calls it was given. -/
theorem run_calls (calls : List ι) :
    (run step start calls).history.map Exchange.call = calls.reverse := by
  induction calls using List.reverseRecOn with
  | nil => rfl
  | append_singleton before call ih => simp [Run.next, ih]

/-- A property of runs that holds at the start and survives every call holds
after every run. -/
theorem run_invariant (P : Run σ ι ο → Prop) (hstart : P ⟨[], start⟩)
    (hstep : ∀ r call, P r → P (r.next step call)) (calls : List ι) :
    P (run step start calls) := by
  induction calls using List.reverseRecOn with
  | nil => exact hstart
  | append_singleton before call ih =>
      rw [run_snoc]
      exact hstep _ _ ih

/-- The rule for runs whose calls satisfy a condition on the point at which
they are made. -/
theorem run_invariant_of_calls (P : Run σ ι ο → Prop) (C : Run σ ι ο → ι → Prop)
    (hstart : P ⟨[], start⟩)
    (hstep : ∀ r call, P r → C r call → P (r.next step call)) (calls : List ι)
    (hcalls : ∀ before call after, calls = before ++ call :: after →
      C (run step start before) call) :
    P (run step start calls) := by
  induction calls using List.reverseRecOn with
  | nil => exact hstart
  | append_singleton before call ih =>
      rw [run_snoc]
      refine hstep _ _ (ih ?_) (hcalls before call [] rfl)
      rintro before' call' after' rfl
      exact hcalls before' call' (after' ++ [call]) (by simp)

/-- Once reached, a property of states that every call preserves holds for the
rest of the run. -/
theorem run_stable (Q : σ → Prop) (hstep : ∀ s call, Q s → Q (step s call).2)
    (before after : List ι) (h : Q (run step start before).state) :
    Q (run step start (before ++ after)).state := by
  induction after using List.reverseRecOn with
  | nil => simpa using h
  | append_singleton after call ih =>
      rw [← List.append_assoc, run_snoc]
      exact hstep _ _ ih

end Runs

/-- Two machines that answer alike from related states, and stay related,
record the same history. -/
theorem run_simulates {τ : Type*} (step : σ → ι → ο × σ) (step' : τ → ι → ο × τ)
    (R : σ → τ → Prop) {start : σ} {start' : τ} (hstart : R start start')
    (hstep : ∀ s t call, R s t →
      (step s call).1 = (step' t call).1 ∧ R (step s call).2 (step' t call).2)
    (calls : List ι) :
    (run step start calls).history = (run step' start' calls).history ∧
      R (run step start calls).state (run step' start' calls).state := by
  induction calls using List.reverseRecOn with
  | nil => exact ⟨rfl, hstart⟩
  | append_singleton before call ih =>
      obtain ⟨hhistory, hrelated⟩ := ih
      obtain ⟨hreply, hnext⟩ := hstep _ _ call hrelated
      rw [run_snoc, run_snoc]
      refine ⟨?_, hnext⟩
      rw [Run.next, Run.next, hhistory, hreply]

/-- The rule for two machines that are given corresponding calls: what is
observed of their replies is the same. -/
theorem run_relates {τ κ π β : Type*} (step : σ → ι → ο × σ) (step' : τ → κ → π × τ)
    (R : σ → τ → Prop) (C : ι → κ → Prop) (observe : ο → β) (observe' : π → β) {start : σ}
    {start' : τ} (hstart : R start start')
    (hstep : ∀ s t call call', R s t → C call call' →
      observe (step s call).1 = observe' (step' t call').1 ∧
        R (step s call).2 (step' t call').2)
    {calls : List ι} {calls' : List κ} (h : List.Forall₂ C calls calls') :
    (run step start calls).history.map (fun x => observe x.reply) =
        (run step' start' calls').history.map (fun x => observe' x.reply) ∧
      R (run step start calls).state (run step' start' calls').state := by
  suffices hruns : ∀ (r : Run σ ι ο) (r' : Run τ κ π), R r.state r'.state →
      r.history.map (fun x => observe x.reply) = r'.history.map (fun x => observe' x.reply) →
      (calls.foldl (Run.next step) r).history.map (fun x => observe x.reply) =
          (calls'.foldl (Run.next step') r').history.map (fun x => observe' x.reply) ∧
        R (calls.foldl (Run.next step) r).state (calls'.foldl (Run.next step') r').state by
    exact hruns ⟨[], start⟩ ⟨[], start'⟩ hstart rfl
  induction h with
  | nil => exact fun _ _ hstate hhistory => ⟨hhistory, hstate⟩
  | cons hcall _ ih =>
      intro r r' hstate hhistory
      obtain ⟨hreply, hnext⟩ := hstep _ _ _ _ hstate hcall
      apply ih _ _ hnext
      rw [Run.next, Run.next, List.map_cons, List.map_cons, hhistory, hreply]

section Commuting

variable (step : σ → ι → ο × σ) {start : σ} {calls other : List ι} (I : σ → Prop)
  (reply : ι → ο) (effect : ι → σ → σ)

/-- Calls whose reply and effect do not depend on when they are made, as long
as the states satisfy `I`. -/
theorem run_of_uniform (hstart : I start)
    (hstep : ∀ s, I s → ∀ call ∈ calls, step s call = (reply call, effect call s) ∧
      I (effect call s)) :
    (run step start calls).history = (calls.map fun call => ⟨call, reply call⟩).reverse ∧
      (run step start calls).state = calls.foldl (fun s call => effect call s) start ∧
      I (run step start calls).state := by
  induction calls using List.reverseRecOn with
  | nil => exact ⟨rfl, rfl, hstart⟩
  | append_singleton before call ih =>
      have hbefore : ∀ s, I s → ∀ call ∈ before, step s call = (reply call, effect call s) ∧
          I (effect call s) :=
        fun s hs call hmem => hstep s hs call (List.mem_append_left _ hmem)
      obtain ⟨hhistory, hstate, hI⟩ := ih hbefore
      obtain ⟨heq, hnext⟩ := hstep _ hI call (by simp)
      rw [run_snoc]
      simp only [Run.next, heq]
      refine ⟨?_, ?_, hnext⟩
      · simp [hhistory]
      · simp [hstate]

/-- If moreover the effects commute, the order of the calls does not matter. -/
theorem run_perm (hstart : I start)
    (hstep : ∀ s, I s → ∀ call ∈ calls, step s call = (reply call, effect call s) ∧
      I (effect call s))
    (hcommute : ∀ first ∈ calls, ∀ second ∈ calls, ∀ s,
      effect second (effect first s) = effect first (effect second s))
    (hperm : calls.Perm other) :
    (run step start other).state = (run step start calls).state ∧
      ∀ x ∈ (run step start other).history, x.reply = reply x.call := by
  have hother : ∀ s, I s → ∀ call ∈ other, step s call = (reply call, effect call s) ∧
      I (effect call s) :=
    fun s hs call hmem => hstep s hs call (hperm.mem_iff.mpr hmem)
  obtain ⟨_, hstate, _⟩ := run_of_uniform step I reply effect hstart hstep
  obtain ⟨hhistory, hstate', _⟩ := run_of_uniform step I reply effect hstart hother
  constructor
  · rw [hstate, hstate']
    exact (hperm.foldl_eq' hcommute start).symm
  · intro x hx
    rw [hhistory, List.mem_reverse, List.mem_map] at hx
    obtain ⟨call, _, rfl⟩ := hx
    rfl

end Commuting

section Deleting

variable {β : Type*} (step : σ → ι → ο × σ) (R : σ → σ → Prop) (observe : Exchange ι ο → β)

/-- Deleting calls that related states do not notice: the other calls are
observed as before and the states stay related. The marks say which calls stay. -/
theorem run_deleting {start start' : σ} (hstart : R start start') (marked : List (ι × Bool))
    (hkeep : ∀ s t call, R s t →
      observe ⟨call, (step s call).1⟩ = observe ⟨call, (step t call).1⟩ ∧
        R (step s call).2 (step t call).2)
    (hdelete : ∀ m ∈ marked, m.2 = false → ∀ s t, R s t → R (step s m.1).2 t) :
    let full := run step start (marked.map Prod.fst)
    let thin := run step start' ((marked.filter Prod.snd).map Prod.fst)
    thin.history.map observe =
        ((full.history.zip (marked.map Prod.snd).reverse).filter Prod.snd).map
          (fun x => observe x.1) ∧
      R full.state thin.state := by
  induction marked using List.reverseRecOn with
  | nil => exact ⟨rfl, hstart⟩
  | append_singleton before m ih =>
      obtain ⟨call, keep⟩ := m
      obtain ⟨hhistory, hrelated⟩ := ih (fun m hmem => hdelete m (List.mem_append_left _ hmem))
      simp only [List.map_append, List.map_singleton, List.filter_append, List.reverse_append,
        List.reverse_singleton, List.singleton_append, run_snoc]
      cases keep with
      | true =>
          obtain ⟨hreply, hnext⟩ := hkeep _ _ call hrelated
          simp only [List.filter_cons_of_pos, List.filter_nil, List.map_cons, List.map_nil,
            run_snoc, Run.next, List.zip_cons_cons, hreply, hhistory]
          exact ⟨trivial, hnext⟩
      | false =>
          have hnext := hdelete (call, false) (by simp) rfl _ _ hrelated
          simp only [List.filter_cons_of_neg, Bool.false_eq_true, not_false_eq_true,
            List.filter_nil, List.map_nil, List.append_nil, Run.next, List.zip_cons_cons]
          exact ⟨hhistory, hnext⟩

end Deleting

/-- The traces of a labelled transition relation, latest label first. -/
inductive Trace (Step : α → ε → α → Prop) (start : α) : List ε → α → Prop
  | start : Trace Step start [] start
  | step {labels s label s'} :
      Trace Step start labels s → Step s label s' → Trace Step start (label :: labels) s'

/-- A property of labels and state that every transition preserves. The
transition may use the trace that leads to it. -/
theorem Trace.invariant {Step : α → ε → α → Prop} {start : α} (P : List ε → α → Prop)
    (hstart : P [] start)
    (hstep : ∀ labels s label s', P labels s → Step s label s' → P (label :: labels) s')
    {labels : List ε} {s : α} (h : Trace Step start labels s) : P labels s := by
  induction h with
  | start => exact hstart
  | step _ hs ih => exact hstep _ _ _ _ ih hs

/-- Forward simulation: when every answered call is a transition of the
abstract relation under some reading of exchanges as labels, every run reads as
a trace. -/
theorem run_refines (step : σ → ι → ο × σ) (start : σ) (Step : α → ε → α → Prop)
    (abs : σ → α) (label : Exchange ι ο → ε)
    (hsim : ∀ s call, Step (abs s) (label ⟨call, (step s call).1⟩) (abs (step s call).2))
    (calls : List ι) :
    Trace Step (abs start) ((run step start calls).history.map label)
      (abs (run step start calls).state) := by
  refine run_invariant step start
    (fun r => Trace Step (abs start) (r.history.map label) (abs r.state)) .start ?_ calls
  intro r call h
  exact .step h (hsim r.state call)

end Machine
