import AniInference.Workers
import AniInference.Schedule

namespace AniInference
open Lib

/-- What is taken down, and what had to be there before. -/
structure TakesDownInOrder (w : World) : Prop where
  deleteRuntime : ∀ e past, e :: past <:+ w.history → ∀ op : OperationContext,
    e.call = .provider (.deleteRuntime op) →
    Withdrew (op.tenantID, op.id) op.serviceID op.targetGeneration past
  -- A reservation carries the operation it is released in as its fence.
  quotaRelease : ∀ e past, e :: past <:+ w.history → ∀ reservation : Reservation,
    e.call = .provider (.quotaRelease reservation) →
    ∃ id, reservation.fenceOperationID = some id ∧ Absent (reservation.tenantID, id) past
  released : ∀ e past, e :: past <:+ w.history → ∀ reservation : Reservation,
    e.call = .write (.quota reservation) → reservation.state = .released →
    ∃ id, reservation.fenceOperationID = some id ∧ Absent (reservation.tenantID, id) past
  releaseManagedGPU : ∀ e past, e :: past <:+ w.history → ∀ op : OperationContext,
    e.call = .provider (.releaseManagedGPU op) → Absent (op.tenantID, op.id) past
  intent : ∀ e ∈ w.history, ∀ p : Publication, e.call = .write (.publication p) →
    p.state = .publishing ∨ p.state = .withdrawing → ∀ k row,
    e.before.publications.lookup k = some row →
    ∃ row', e.after.publications.lookup k = some row' ∧ row'.observedPhase = row.observedPhase

/-- An intent leaves the observed phase of a row that exists. -/
theorem PublicationChange.observedPhase
    (h : PublicationChange now db db' k (.write (.publication p)))
    (hintent : p.state = .publishing ∨ p.state = .withdrawing)
    (hrow : db.publications.lookup k = some row) :
    ∃ row', db'.publications.lookup k = some row' ∧ row'.observedPhase = row.observedPhase := by
  cases h with
  | none _ same => exact ⟨row, same.trans hrow, rfl⟩
  | saved _ _ written =>
    rw [hrow] at written
    refine ⟨_, written, ?_⟩
    simp only [Sql.publicationRow, if_pos hintent]

section
variable {opts : WorkOptions} {w : World} {op : OperationContext}

theorem OperationContext.Known.withdrawn (h : op.Known opts w) (hstep : op.step = .deleteRuntime) :
    Withdrew (op.tenantID, op.id) op.serviceID op.targetGeneration w.history := by
  refine h.withdrew ?_
  have hmem := h.step
  rw [hstep] at hmem ⊢
  exact Operation.withdrawn_before_deleteRuntime hmem

/-- Where a reservation is released, its fence has observed the absence. -/
theorem OperationContext.Known.absence {reservation : Reservation} (h : op.Known opts w)
    (htenant : reservation.tenantID = op.tenantID)
    (hfence : reservation.fenceOperationID = some op.id)
    (hbefore : Step.observeAbsence ∈ Operation.before op.kind op.step) :
    ∃ id, reservation.fenceOperationID = some id ∧ Absent (reservation.tenantID, id) w.history := by
  refine ⟨op.id, hfence, ?_⟩
  rw [htenant]
  exact h.absent hbefore

end

/-- In every run, a runtime is deleted only after the latest publication was withdrawn, and
quotas and devices are released only after the runtime was seen to be absent. -/
theorem takes_down_in_order {opts : WorkOptions} {r : Runner} {s : Pool World Call Call.Answer}
    (h : Running opts r s) : TakesDownInOrder s.world := by
  obtain ⟨_, hrec⟩ := h.kept
  refine ⟨fun e past hsuf op hcall => ?_, fun e past hsuf reservation hcall => ?_,
    fun e past hsuf reservation hcall hstate => ?_, fun e past hsuf op hcall => ?_,
    fun e he p hcall hintent k row hrow => ?_⟩
  · obtain ⟨c, choice, w, ⟨_, hproper⟩, rfl, rfl⟩ := hrec e past hsuf
    obtain rfl : c = .provider (.deleteRuntime op) := hcall
    obtain ⟨hknown, hstep⟩ : op.Known opts w ∧ op.step = .deleteRuntime := hproper
    exact hknown.withdrawn hstep
  · obtain ⟨c, choice, w, ⟨_, hproper⟩, rfl, rfl⟩ := hrec e past hsuf
    obtain rfl : c = .provider (.quotaRelease reservation) := hcall
    obtain ⟨op, hknown, htenant, hfence, hbefore⟩ :
      Provider.Proper opts (.quotaRelease reservation) w := hproper
    exact hknown.absence htenant hfence hbefore
  · obtain ⟨c, choice, w, ⟨_, hproper⟩, rfl, rfl⟩ := hrec e past hsuf
    obtain rfl : c = .write (.quota reservation) := hcall
    obtain ⟨op, hknown, htenant, _, hfence, hbefore⟩ :
      Write.Proper opts r (.quota reservation) w := hproper
    exact hknown.absence htenant hfence (hbefore hstate)
  · obtain ⟨c, choice, w, ⟨_, hproper⟩, rfl, rfl⟩ := hrec e past hsuf
    obtain rfl : c = .provider (.releaseManagedGPU op) := hcall
    obtain ⟨hknown, _, hbefore⟩ : op.Known opts w ∧ op.kind = .delete ∧ _ := hproper
    exact hknown.absent hbefore
  · obtain ⟨newer, past, hsplit⟩ := List.append_of_mem he
    obtain ⟨c, choice, w, _, _, rfl⟩ := hrec e past ⟨newer, hsplit.symm⟩
    obtain rfl : c = .write (.publication p) := hcall
    exact ((exec_effect opts _ choice w).publications k).observedPhase hintent hrow

def Call.deletesRuntime : Call → Bool
  | .provider (.deleteRuntime _) => true
  | _ => false

def Call.savesRelease : Call → Bool
  | .write (.quota reservation) => reservation.state = .released
  | _ => false

/-- A service is created and deleted, and its worker is run until the delete has ended. -/
def deleteRun : List Event :=
  oneByOne 0 (Sample.created Sample.create [] Sample.outside ++
    Sample.commanded .delete 1 20 [24, 20, 21, 21, 20])

theorem takes_down_in_order_deleteRun :
    (∃ e ∈ (played .default .configured deleteRun).world.history,
      e.call.deletesRuntime = true) ∧
    (∃ e ∈ (played .default .configured deleteRun).world.history,
      e.call.savesRelease = true) ∧
    TakesDownInOrder (played .default .configured deleteRun).world :=
  ⟨by decide +kernel, by decide +kernel,
    takes_down_in_order (running_played .default .configured deleteRun)⟩

end AniInference
