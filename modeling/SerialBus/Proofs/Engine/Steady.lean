import SerialBus.Proofs.Engine.Outcome
import SerialBus.Proofs.Host.Steady

namespace SerialBus

variable {β : Type} [RegisterBlock β]

namespace Engine

variable {P : Host β → Prop} {e : Engine β}

open Host (Steady Firm)

theorem firm_fillTx (firm : Firm P) (start : P e.host) : P e.fillTx.host :=
  firm.writeWords e.unsent start

theorem firm_emptyRx (firm : Firm P) (start : P e.host) : P e.emptyRx.host := by
  unfold emptyRx
  split
  · exact start
  · split
    · exact start
    · exact firm.readWords _ start

theorem firm_serveQueues (firm : Firm P) (events : Events) (start : P e.host) :
    P (e.serveQueues events).host := by
  have fed : P (if events.contains Events.txWatermark then e.fillTx.notifyTxWatermark
      else e).host := by
    split
    · rw [notifyTxWatermark_frame]
      exact firm_fillTx firm start
    · exact start
  unfold serveQueues
  simp only
  split
  · rw [notifyRxWatermark_frame]
    exact firm_emptyRx firm fed
  · exact fed

theorem firm_quietHost (firm : Firm P) (start : P e.host) : P e.quietHost :=
  firm.modify .intrEnable _ rfl rfl
    (firm.write .eventEnable _ _ rfl rfl start)

theorem firm_abort (firm : Firm P) (faults : Faults) (busy : e.state = .busy)
    (start : P e.host) : P (e.abort faults).host := by
  rw [e.abort_eq faults busy, (tell_same _ _).2.2]
  exact firm_quietHost firm start

theorem firm_complete (firm : Firm P) (busy : e.state = .busy) (start : P e.host) :
    P e.complete.host := by
  rw [e.complete_eq busy, (tell_same _ _).2.2]
  have quiet : P e.quiesce.host := firm_quietHost firm start
  exact firm_emptyRx firm quiet

theorem firm_bind (firm : Firm P) (settings : Settings) (slave : Slave) (start : P e.host) :
    P (e.bind settings slave).host := by
  have enabled := firm.enableHost start
  unfold bind
  split
  · exact start
  · split <;> rename_i step <;> rw [step] at enabled <;> exact enabled

theorem firm_start (firm : Firm P) (t : Transaction) (callbacks : Callbacks)
    (start : P e.host) : P (e.start t callbacks).host := by
  have fed : P ({ e.reach .launched with running := some t, callbacks, cursors := {} } :
      Engine β).fillTx.host := firm_fillTx firm start
  exact firm.spin .ready _ (firm.modify .intrEnable _ rfl rfl fed)

-- What commands keep as well, whatever happens to a block keeps, if requests keep it.

section Commands

variable (firm : Firm P) (command : ∀ (w : Word) (h : Host β), P h → P (h.write .command w))
include firm command

theorem firm_issueNext (start : P e.host) : P e.issueNext.2.host := by
  have queued (c : Command) : P (e.host.setCommand c).2 := by
    have looked : P e.host.status.2 := firm.read .status _ start
    unfold Host.setCommand
    split
    · exact start
    · rcases e.host.queueWord_cases c.toWord with ⟨err, -, refused⟩ | taken
      · rw [refused]
        exact looked
      · rw [taken]
        exact command _ _ looked
  unfold issueNext
  split
  · exact start
  · rename_i g found
    have next := queued (.ofSegment g !decide (e.segmentCount ≤ e.cursors.segment + 1))
    simp only
    split <;> rename_i step <;> rw [step] at next <;> exact next

theorem firm_onEvent (events : Events) (start : P e.host) : P (e.onEvent events).host := by
  by_cases busy : e.state = .busy
  case neg =>
    rw [e.onEvent_of_free events busy]
    exact start
  have issued := firm_issueNext firm command start
  have state : e.issueNext.2.state = .busy := by
    rw [e.issueNext_frame]
    exact busy
  rcases e.onEvent_cases events busy with ⟨served, -⟩ | ⟨served, -⟩ | ⟨aborted, -⟩ | ⟨completed, -⟩
  · rw [served]
    exact firm_serveQueues firm events start
  · rw [served]
    exact firm_serveQueues firm events issued
  · rw [aborted]
    exact firm_abort firm _ state issued
  · rw [completed]
    exact firm_complete firm busy start

omit command in
theorem firm_onFault (faults : Faults) (start : P e.host) : P (e.onFault faults).host := by
  by_cases busy : e.state = .busy
  · rw [e.onFault_of_busy faults busy]
    exact firm_abort firm faults busy start
  · rw [e.onFault_of_free faults busy]
    exact start

theorem firm_handleIrq (start : P e.host) : P e.handleIrq.host := by
  have taken := firm.take start
  exact drive_keeps (P := fun f => P f.host)
    (fun _ faults before => firm_onFault firm faults before)
    (fun _ events before => firm_onEvent firm command events before) _ _ taken

theorem firm_launch (settings : Settings) (t : Transaction) (callbacks : Callbacks)
    (start : P e.host) : P (e.launch settings t callbacks).2.host := by
  have prepared := firm.prepare settings start
  unfold launch
  split <;> rename_i step <;> rw [step] at prepared
  · exact prepared
  · rename_i host
    have issued := firm_issueNext firm command
      (firm_start (e := { e with host }) firm t callbacks prepared)
    split <;> rename_i step <;> rw [step] at issued
    · exact issued
    · split
      · exact issued
      · exact firm_quietHost firm issued

theorem firm_respond {μ : Type} (env : μ → β → β)
    (moves : ∀ (m : μ) (h : Host β), P h → P { h with block := env m h.block })
    (settings : Settings) (st : Stimulus μ) (start : P e.host)
    (submits : ∀ r, st = .submit r → P (e.submit settings r).2.host) :
    P (e.respond env settings st).host := by
  cases st with
  | bind slave => exact firm_bind firm settings slave start
  | reset => exact firm.softReset start
  | take => exact start
  | submit r => exact submits r rfl
  | interrupt => exact firm_handleIrq firm command start
  | event events => exact firm_onEvent firm command events start
  | fault faults => exact firm_onFault firm faults start
  | move m => exact moves m e.host start

end Commands

theorem steady_setSlave (steady : Steady P) (h : Handle) (start : P e.host) :
    P (e.setSlave h).2.host := by
  have looked : P e.host.status.2 := steady.read .status e.host start
  have selected := steady.selectSlave h.slave h.divider looked
  simp only [setSlave]
  split
  · exact looked
  · split <;> rename_i step <;> rw [step] at selected <;> exact selected

section Requests

variable (steady : Steady P) (command : ∀ (w : Word) (h : Host β), P h → P (h.write .command w))
include steady command

theorem steady_submit (settings : Settings) (r : Request) (start : P e.host) :
    P (e.submit settings r).2.host := by
  have selected := steady_setSlave steady r.handle start
  unfold submit
  split
  · exact start
  · split <;> rename_i step <;> rw [step] at selected
    · exact selected
    · exact firm_launch steady.firm command settings _ _ selected

theorem steady_respond {μ : Type} (env : μ → β → β)
    (moves : ∀ (m : μ) (h : Host β), P h → P { h with block := env m h.block })
    (settings : Settings) (st : Stimulus μ) (start : P e.host) :
    P (e.respond env settings st).host :=
  firm_respond steady.firm command env moves settings st start fun r _ =>
    steady_submit steady command settings r start

end Requests

end Engine

end SerialBus
