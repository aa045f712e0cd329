import SerialBus.Proofs.Simulator.Levels

namespace SerialBus.Simulator

def faultsOf (h : Happening) (s : Simulator) : Faults :=
  ⟨(undergo h { s with errorStatus := 0 }).errorStatus⟩

/-- A word written to the transmit queue and not answered by an overflow. -/
def pushed : Happening → Simulator → Option Word
  | .write .txData w, s =>
    if (faultsOf (.write .txData w) s).contains Faults.overflow then none else some w
  | _, _ => none

def popped : Happening → Simulator → Option Word
  | .read .rxData, s =>
    if (faultsOf (.read .rxData) s).contains Faults.underflow then none
    else some (RegisterBlock.read .rxData s).1
  | _, _ => none

def enqueued : Happening → Simulator → Option Entry
  | .write .command w, s =>
    if (faultsOf (.write .command w) s).isEmpty then some (s.decode w) else none
  | _, _ => none

theorem faultsOf_txData (s : Simulator) (w : Word) :
    faultsOf (.write .txData w) s =
      if s.build.txDepth ≤ s.tx.length then Faults.overflow else .empty := by
  simp only [faultsOf, undergo, RegisterBlock.write, writeRegister, applyWrite, pushData]
  split
  · exact congrArg FlagSet.mk BitVec.zero_or
  · rfl

theorem faultsOf_rxData (s : Simulator) :
    faultsOf (.read .rxData) s = if s.rx = [] then Faults.underflow else .empty := by
  simp only [faultsOf, undergo, RegisterBlock.read, readRegister, popData]
  cases s.rx with
  | nil =>
    rw [if_pos rfl]
    exact congrArg FlagSet.mk BitVec.zero_or
  | cons w rest =>
    rw [if_neg (List.cons_ne_nil w rest)]
    rfl

theorem pushed_eq (h : Happening) (s : Simulator) : pushed h s = refilled h s := by
  cases h with
  | read | move => rfl
  | write r w =>
    cases r with
    | txData =>
      simp only [pushed, refilled, faultsOf_txData]
      by_cases full : s.build.txDepth ≤ s.tx.length
      · rw [if_pos full, if_neg (Nat.not_lt.mpr full)]
        rfl
      · rw [if_neg full, if_pos (Nat.not_le.mp full)]
        rfl
    | _ => rfl

theorem popped_eq (h : Happening) (s : Simulator) : popped h s = drained h s := by
  cases h with
  | write | move => rfl
  | read r =>
    cases r with
    | rxData =>
      have shown : (RegisterBlock.read .rxData s).1 = s.popData.1 := rfl
      simp only [popped, drained, faultsOf_rxData, shown, popData]
      cases s.rx with
      | nil => rfl
      | cons w rest =>
        rw [if_neg (List.cons_ne_nil w rest)]
        rfl
    | _ => rfl

def objection (s : Simulator) (w : Word) : Faults :=
  if s.build.cmdDepth ≤ s.queue.length then Faults.cmdBusy
  else if (s.decode w).speed = 3 ∨ ((s.decode w).direction = 3 ∧ (s.decode w).speed ≠ 0) then
    Faults.cmdInvalid
  else if s.build.lines ≤ (s.decode w).csid.toNat then Faults.csidInvalid
  else .empty

theorem pushCommand_objection (s : Simulator) (w : Word) :
    (s.pushCommand w).errorStatus = s.errorStatus ||| (s.objection w).bits ∧
      (s.pushCommand w).accepted =
        s.accepted ++ if (s.objection w).isEmpty then [s.decode w] else [] := by
  simp only [pushCommand, objection]
  split
  · exact ⟨rfl, (List.append_nil _).symm⟩
  · split
    · exact ⟨rfl, (List.append_nil _).symm⟩
    · split
      · exact ⟨rfl, (List.append_nil _).symm⟩
      · exact ⟨BitVec.or_zero.symm, rfl⟩

theorem enqueued_command (s : Simulator) (w : Word) :
    enqueued (.write .command w) s =
      if (s.objection w).isEmpty then some (s.decode w) else none := by
  have faults : faultsOf (.write .command w) s = s.objection w := by
    have met := (pushCommand_objection
      { s with errorStatus := 0, writes := s.writes ++ [(.command, w)] } w).1
    exact congrArg FlagSet.mk (met.trans BitVec.zero_or)
  simp only [enqueued, faults]

theorem accepted_command (s : Simulator) (w : Word) :
    (undergo (.write .command w) s).accepted =
      s.accepted ++ (enqueued (.write .command w) s).toList := by
  have met := (pushCommand_objection { s with writes := s.writes ++ [(.command, w)] } w).2
  rw [enqueued_command]
  refine met.trans (congrArg (s.accepted ++ ·) ?_)
  change (if (s.objection w).isEmpty then [s.decode w] else []) = _
  split <;> rfl

theorem enqueued_other (h : Happening) (s : Simulator) :
    (∃ w, h = .write .command w) ∨ enqueued h s = none := by
  cases h with
  | read | move => exact .inr rfl
  | write r w =>
    cases r with
    | command => exact .inl ⟨w, rfl⟩
    | _ => exact .inr rfl

theorem accepted_undergo (h : Happening) (s : Simulator) (kept : h.resets = false) :
    (undergo h s).accepted = s.accepted ++ (enqueued h s).toList := by
  rcases enqueued_other h s with ⟨w, rfl⟩ | none
  · exact accepted_command s w
  · have same : (undergo h s).accepted = s.accepted := by
      rcases undergo_cases h s kept with rfl | ⟨w, rfl⟩ | ⟨w, rfl⟩ | rfl | passes
      case inl =>
        rcases s.step_split with ⟨a, -, -, -, stepped⟩ | ⟨-, lanes⟩
        · exact (congrArg (fun p => p.2.accepted) stepped).trans s.takeUp_queues.2.2.2.2
        · exact (kept_of_lanes lanes).2.2.2.1
      case inr.inl => rw [accepted_command, none, Option.toList_none, List.append_nil]
      case inr.inr.inl => exact (pushData_keeps _ w).2.2.1
      case inr.inr.inr.inl => exact s.popData_keeps.2.2.1
      case inr.inr.inr.inr => exact congrArg Lanes.accepted passes.lanes
    rw [same, none, Option.toList_none, List.append_nil]

theorem entries_undergo (h : Happening) (s : Simulator) (kept : h.resets = false) :
    s.outstanding.map Active.entry ++ (enqueued h s).toList =
      (finished h s).toList ++ (undergo h s).outstanding.map Active.entry := by
  obtain ⟨new, came, entries⟩ := (turn_undergo h s kept).entries
  have same : (enqueued h s).toList = new :=
    List.append_cancel_left ((accepted_undergo h s kept).symm.trans came)
  rw [same, entries]

/-- What a block has taken in, moved and given out since the block at its opening. -/
structure Journal where
  opening : Simulator
  pushed : List Word := []
  sent : List Word := []
  received : List Word := []
  popped : List Word := []
  enqueued : List Entry := []
  finished : List Entry := []

/-- A happening is noted at the end, but a software reset opens the journal anew. -/
def Journal.enter (h : Happening) (s : Simulator) (j : Journal) : Journal :=
  if h.resets then { opening := undergo h s }
  else
    { opening := j.opening
      pushed := j.pushed ++ (Simulator.pushed h s).toList
      sent := j.sent ++ ((moved h s).bind Shift.sent).toList
      received := j.received ++ ((moved h s).bind Shift.received).toList
      popped := j.popped ++ (Simulator.popped h s).toList
      enqueued := j.enqueued ++ (Simulator.enqueued h s).toList
      finished := j.finished ++ (Simulator.finished h s).toList }

def journal : List Happening → Simulator → Journal → Journal
  | [], _, j => j
  | h :: hs, s, j => journal hs (undergo h s) (j.enter h s)

/-- A block that holds what its journal says has gone in and has not come out. -/
structure Conserved (build : Build) (s : Simulator) (j : Journal) : Prop where
  contained : Contained build s
  tx : j.pushed = j.sent ++ s.tx
  rx : j.received = j.popped ++ s.rx
  commands : j.enqueued = j.finished ++ (s.current.map Active.entry).toList ++ s.queue
  -- The block's own records have the same words and commands since.
  sent : s.sent = j.opening.sent ++ j.sent
  accepted : s.accepted = j.opening.accepted ++ j.enqueued

section Conserved

variable {build : Build} {s : Simulator} {j : Journal}

theorem outstanding_entries (s : Simulator) :
    s.outstanding.map Active.entry = (s.current.map Active.entry).toList ++ s.queue := by
  have entry : Active.entry ∘ Entry.whole = id := rfl
  rw [outstanding, List.map_append, List.map_map, entry, List.map_id]
  cases s.current <;> rfl

theorem conserved_opening (contained : Contained build s) (tx : s.tx = []) (rx : s.rx = [])
    (queue : s.queue = []) (current : s.current = none) :
    Conserved build s { opening := s } := by
  constructor <;> simp [*]

theorem Conserved.undergo (conserved : Conserved build s j) (h : Happening) :
    Conserved build (undergo h s) (j.enter h s) := by
  cases resets : h.resets with
  | true =>
    -- the queues are empty and the journal is new
    have lanes := lanes_of_resets h s resets
    simp only [Simulator.lanes, Lanes.mk.injEq] at lanes
    obtain ⟨-, tx, rx, queue, current, -⟩ := lanes
    rw [Journal.enter, if_pos resets]
    exact conserved_opening (conserved.contained.undergo h) tx rx queue current
  | false =>
    have streams := streams_undergo h s resets
    rw [Journal.enter, if_neg (Bool.eq_false_iff.mp resets)]
    exact {
      contained := conserved.contained.undergo h
      tx := by
        rw [conserved.tx, pushed_eq, List.append_assoc, streams.tx, List.append_assoc]
      rx := by
        rw [conserved.rx, popped_eq, List.append_assoc, streams.rx, List.append_assoc]
      commands := by
        have entries := entries_undergo h s resets
        rw [outstanding_entries, outstanding_entries] at entries
        rw [conserved.commands, List.append_assoc, List.append_assoc, List.append_assoc,
          ← List.append_assoc _ s.queue, entries, List.append_assoc]
      sent := by rw [streams.sent, conserved.sent, List.append_assoc]
      accepted := by rw [accepted_undergo h s resets, conserved.accepted, List.append_assoc] }

theorem Conserved.live (conserved : Conserved build s j) (hs : List Happening) :
    Conserved build (live hs s) (journal hs s j) := by
  induction hs generalizing s j with
  | nil => exact conserved
  | cons h rest ih => exact ih (conserved.undergo h)

end Conserved

/-- However the registers of a block are read and written and however its bus moves, nothing is lost
    or made up between two software resets, and no queue goes beyond its depth. -/
theorem nothing_lost (build : Build) (hs : List Happening) :
    Conserved build (live hs (fresh build)) (journal hs (fresh build) { opening := fresh build }) :=
  (conserved_opening (contained_fresh build) rfl rfl rfl rfl).live hs

example :
    let build : Build := { txDepth := 1 }
    let hs : List Happening :=
      [.write .txData 1, .write .txData 2, .read .rxData, .write .command 0x06000000]
    let j := journal hs (fresh build) { opening := fresh build }
    j.pushed = [1] ∧ j.popped = [] ∧ j.enqueued = [] := by
  decide

end SerialBus.Simulator
