import CapacityExpansion.Proofs.Data.Success
import CapacityExpansion.Temporal.Timeline

/-!
# Reporting along the way

Resolving keeps a list of the demotions reported so far, to which it appends and
which it never reads. So what is resolved does not depend on it: the *outcome*
of a computation made of steps is put together from the outcomes of the steps,
and what is proved about checks applies to it.

* `outcome_bind`, `outcome_mapM`, `outcome_forM`: outcomes of composed
  computations;
* `Appends`: a computation only appends; `Appends.bind`, `Appends.mapM` and
  `Appends.forM` say that composed ones do.
-/

namespace CapacityExpansion.Temporal

namespace Resolving

variable {α β : Type}

/-- What a computation gives. -/
def outcome (x : Resolving α) : Except Fault α := (x.run.run []).1

/-- The demotions which a computation reports. -/
def reports (x : Resolving α) : List Demotion := (x.run.run []).2

/-- A computation appends its reports to those before, which it does not read. -/
def Appends (x : Resolving α) : Prop :=
  ∀ log, x.run.run log = (x.outcome, log ++ x.reports)

/-! ## Single steps -/

theorem outcome_pure (a : α) : (pure a : Resolving α).outcome = .ok a := rfl

theorem outcome_lift (x : Except Fault α) : (liftM x : Resolving α).outcome = x := rfl

theorem outcome_throw (fault : Fault) : (throw fault : Resolving α).outcome = .error fault := rfl

theorem appends_pure (a : α) : (pure a : Resolving α).Appends := fun log => by
  exact Prod.ext rfl (List.append_nil log).symm

theorem appends_lift (x : Except Fault α) : (liftM x : Resolving α).Appends := fun log => by
  exact Prod.ext rfl (List.append_nil log).symm

theorem appends_throw (fault : Fault) : (throw fault : Resolving α).Appends := fun log => by
  exact Prod.ext rfl (List.append_nil log).symm

theorem appends_report (demotion : Demotion) : (report demotion).Appends := fun _ => rfl

/-! ## Composed computations -/

theorem run_bind (x : Resolving α) (f : α → Resolving β) (log : List Demotion) :
    (x >>= f).run.run log = match x.run.run log with
      | (.ok a, log') => (f a).run.run log'
      | (.error fault, log') => (.error fault, log') := by
  rw [ExceptT.run_bind, StateT.run_bind]
  rcases x.run.run log with ⟨_ | _, _⟩ <;> rfl

section Bind

variable {x : Resolving α} {f : α → Resolving β}

theorem outcome_bind (hf : ∀ a, (f a).Appends) :
    (x >>= f).outcome = x.outcome >>= fun a => (f a).outcome := by
  unfold outcome
  rw [run_bind]
  rcases x.run.run [] with ⟨_ | a, log⟩
  · rfl
  · -- What follows starts from the reports of `x`, but gives what it gives from none.
    change ((f a).run.run log).1 = (f a).outcome
    rw [hf a log]

/-- A computation which fails does not report what would have followed. -/
theorem reports_bind (hf : ∀ a, (f a).Appends) :
    (x >>= f).reports = x.reports ++ match x.outcome with
      | .ok a => (f a).reports
      | .error _ => [] := by
  unfold reports outcome
  rw [run_bind]
  rcases x.run.run [] with ⟨_ | a, log⟩
  · exact (List.append_nil log).symm
  · change ((f a).run.run log).2 = log ++ (f a).reports
    rw [hf a log]

theorem Appends.bind (hx : x.Appends) (hf : ∀ a, (f a).Appends) : (x >>= f).Appends := by
  intro log
  rw [run_bind, hx log, outcome_bind hf, reports_bind hf]
  cases x.outcome with
  | error fault => exact Prod.ext rfl (by rw [List.append_nil])
  | ok a =>
    rw [← List.append_assoc]
    exact hf a (log ++ x.reports)

end Bind

section Lists

variable {f : α → Resolving β} {l : List α}

theorem Appends.mapM (hf : ∀ a, (f a).Appends) : (l.mapM f).Appends := by
  induction l with
  | nil => exact appends_pure []
  | cons a l ih =>
    rw [List.mapM_cons]
    exact (hf a).bind fun b => ih.bind fun bs => appends_pure _

theorem outcome_mapM (hf : ∀ a, (f a).Appends) :
    (l.mapM f).outcome = l.mapM fun a => (f a).outcome := by
  induction l with
  | nil => rfl
  | cons a l ih =>
    have hrest : ∀ b, (do let bs ← l.mapM f; pure (b :: bs) : Resolving (List β)).Appends :=
      fun b => (Appends.mapM hf).bind fun bs => appends_pure _
    rw [List.mapM_cons, List.mapM_cons, outcome_bind hrest, ← ih]
    refine congrArg _ (funext fun b => ?_)
    rw [outcome_bind fun bs => appends_pure _]
    rfl

theorem Appends.forM {f : α → Resolving Unit} (hf : ∀ a, (f a).Appends) : (l.forM f).Appends := by
  induction l with
  | nil => exact appends_pure ()
  | cons a l ih => exact (hf a).bind fun _ => ih

theorem outcome_forM {f : α → Resolving Unit} (hf : ∀ a, (f a).Appends) :
    (l.forM f).outcome = l.forM fun a => (f a).outcome := by
  induction l with
  | nil => rfl
  | cons a l ih =>
    change (f a >>= fun _ => l.forM f).outcome = (f a).outcome >>= fun _ => l.forM _
    rw [outcome_bind fun _ => Appends.forM hf, ih]

end Lists

end Resolving

end CapacityExpansion.Temporal
