import SerialBus.Proofs.Engine.Settling

namespace SerialBus

def Report.completion? : Report → Option Completion
  | parked done => some done
  | _ => none

namespace Engine

variable {β μ : Type} {dones later : List Completion} {e f g : Engine β}

/-- From `e` to `f` the completions `dones` were parked, each over the one before it, and none was
    taken. -/
structure Parks (dones : List Completion) (e f : Engine β) : Prop where
  parked : f.parked = dones.getLast?.or e.parked
  parkings : f.parkings = e.parkings ++ dones

theorem Parks.none (kept : f.parked = e.parked ∧ f.parkings = e.parkings) : Parks [] e f :=
  ⟨kept.1, by rw [kept.2, List.append_nil]⟩

theorem Parks.trans (first : Parks dones e f) (second : Parks later f g) :
    Parks (dones ++ later) e g := by
  refine ⟨?_, ?_⟩
  · rw [second.parked, first.parked, List.getLast?_append, Option.or_assoc]
  · rw [second.parkings, first.parkings, List.append_assoc]

theorem Parks.told (parks : Parks dones e f) :
    (e.told f).filterMap Report.completion? = dones := by
  have calls (ns : List Notice) :
      (ns.map Report.called).filterMap Report.completion? = [] := by
    simp [List.filterMap_eq_nil_iff, Report.completion?]
  have parkings (cs : List Completion) :
      (cs.map Report.parked).filterMap Report.completion? = cs := by
    simp [List.filterMap_map, Function.comp_def, Report.completion?]
  rw [Engine.told, List.filterMap_append, calls, parkings, parks.parkings, List.drop_left,
    List.nil_append]

theorem Parks.parked_of_told {newest : Option Completion} {done : Completion}
    (parks : Parks newest.toList e f) (told : .parked done ∈ e.told f) : f.parked = some done := by
  have among : done ∈ newest.toList := by
    rw [← parks.told]
    exact List.mem_filterMap.mpr ⟨_, told, rfl⟩
  rw [parks.parked, Option.mem_toList.mp among]
  rfl

theorem parks_tell (e : Engine β) (host : Host β) (report : Report) :
    Parks report.completion?.toList e ((e.retired host).tell report) := by
  cases report with
  | launched r => exact .none ⟨rfl, rfl⟩
  | called n => exact .none ⟨rfl, rfl⟩
  | parked done => exact ⟨rfl, rfl⟩

variable [RegisterBlock β]

theorem parked_issueNext (e : Engine β) :
    e.issueNext.2.parked = e.parked ∧ e.issueNext.2.parkings = e.parkings := by
  rw [e.issueNext_frame]
  exact ⟨rfl, rfl⟩

theorem parked_serveQueues (e : Engine β) (events : Events) :
    (e.serveQueues events).parked = e.parked ∧ (e.serveQueues events).parkings = e.parkings := by
  have fed : (if events.contains Events.txWatermark then e.fillTx.notifyTxWatermark
        else e).parked = e.parked ∧
      (if events.contains Events.txWatermark then e.fillTx.notifyTxWatermark
        else e).parkings = e.parkings := by
    split
    · rw [notifyTxWatermark_frame]
      exact ⟨rfl, rfl⟩
    · exact ⟨rfl, rfl⟩
  unfold serveQueues
  simp only
  split
  · rw [notifyRxWatermark_frame, emptyRx_frame]
    exact fed
  · exact fed

theorem parked_submit (e : Engine β) (settings : Settings) (r : Request) :
    (e.submit settings r).2.parked = e.parked ∧
      (e.submit settings r).2.parkings = e.parkings := by
  rcases e.submit_cases settings r with ⟨-, host, cursors, accepted⟩ | ⟨failure, refused⟩ |
    ⟨-, failure, host, refused | refused⟩
  · rw [accepted]
    exact ⟨rfl, rfl⟩
  · rw [refused]
    exact ⟨rfl, rfl⟩
  · rw [refused]
    exact ⟨rfl, rfl⟩
  · rw [refused]
    exact ⟨rfl, rfl⟩

theorem parks_abort (e : Engine β) (faults : Faults) (busy : e.state = .busy) :
    Parks (Report.failure e.id e.callbacks faults e.lent).completion?.toList e
      (e.abort faults) := by
  rw [e.abort_eq faults busy]
  exact parks_tell e _ _

theorem parks_complete (e : Engine β) (busy : e.state = .busy) :
    Parks (Report.success e.id e.callbacks e.drained.lent).completion?.toList e e.complete := by
  rw [e.complete_eq busy]
  exact parks_tell e _ _

theorem parks_onFault (e : Engine β) (faults : Faults) :
    ∃ done : Option Completion, Parks done.toList e (e.onFault faults) := by
  by_cases busy : e.state = .busy
  · rw [e.onFault_of_busy faults busy]
    exact ⟨_, e.parks_abort faults busy⟩
  · rw [e.onFault_of_free faults busy]
    exact ⟨none, .none ⟨rfl, rfl⟩⟩

theorem parks_onEvent (e : Engine β) (events : Events) :
    ∃ done : Option Completion, Parks done.toList e (e.onEvent events) := by
  by_cases busy : e.state = .busy
  case neg =>
    rw [e.onEvent_of_free events busy]
    exact ⟨none, .none ⟨rfl, rfl⟩⟩
  have issued : Parks [] e e.issueNext.2 := .none e.parked_issueNext
  have still : e.issueNext.2.state = .busy := by
    rw [e.issueNext_frame]
    exact busy
  rcases e.onEvent_cases events busy with ⟨served, -⟩ | ⟨served, -⟩ | ⟨aborted, -⟩ | ⟨completed, -⟩
  · rw [served]
    exact ⟨none, .none (e.parked_serveQueues events)⟩
  · rw [served]
    exact ⟨none, issued.trans (.none (parked_serveQueues _ events))⟩
  · rw [aborted]
    exact ⟨_, issued.trans (parks_abort _ Faults.cmdInvalid still)⟩
  · rw [completed]
    exact ⟨_, e.parks_complete busy⟩

theorem parks_handleIrq (e : Engine β) :
    ∃ done : Option Completion, Parks done.toList e e.handleIrq := by
  rcases taken : Interrupt.take e.host with ⟨irq, host⟩
  have looked : Parks [] e { e with host } := .none ⟨rfl, rfl⟩
  have served : ∃ done : Option Completion, Parks done.toList { e with host } e.handleIrq := by
    simp only [handleIrq, taken]
    by_cases busy : e.state = .busy
    · rw [drive_eq { e with host } irq busy]
      split
      · exact parks_onEvent _ irq.events
      · exact ⟨_, parks_abort _ irq.faults busy⟩
    · rw [drive_of_free { e with host } irq busy]
      exact ⟨none, .none ⟨rfl, rfl⟩⟩
  obtain ⟨done, parks⟩ := served
  exact ⟨done, looked.trans parks⟩

theorem parks_respond (env : μ → β → β) (settings : Settings) (e : Engine β) (st : Stimulus μ)
    (other : st ≠ .take) :
    ∃ done : Option Completion, Parks done.toList e (e.respond env settings st) := by
  cases st with
  | bind slave =>
    refine ⟨none, .none ?_⟩
    rcases e.state_bind settings slave with ⟨host, bound⟩ | ⟨host, bound⟩ <;>
      simp only [respond, bound, and_self]
  | reset => exact ⟨none, .none ⟨rfl, rfl⟩⟩
  | take => exact absurd rfl other
  | submit r => exact ⟨none, .none (e.parked_submit settings r)⟩
  | interrupt => exact e.parks_handleIrq
  | event events => exact e.parks_onEvent events
  | fault faults => exact e.parks_onFault faults
  | move m => exact ⟨none, .none ⟨rfl, rfl⟩⟩

end Engine

end SerialBus
